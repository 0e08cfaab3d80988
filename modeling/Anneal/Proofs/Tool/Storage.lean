import Anneal.Proofs.Artifact.Replacement
import Anneal.Proofs.Repair.Pass
import Anneal.Proofs.Settings.Outputs
import Anneal.Scripted

/-! What a conversion stores. The code and then the manifest are replaced, each as a whole, and
nothing is taken back: up to the writing of the code both files are as they were, and a manifest
that cannot be written leaves the new code where it is. -/

namespace Anneal

open Disk

variable {σ : Type} {places : List Place}

structure Disk.Keeps (places : List Place) (d d' : Disk) : Prop where
  home : d'.home = d.home
  file : ∀ p ∈ places, d'.file? p = d.file? p

theorem Disk.Keeps.mono {places' : List Place} {d d' : Disk} (h : Keeps places d d')
    (hs : places' ⊆ places) : Keeps places' d d' :=
  ⟨h.home, fun p hp => h.file p (hs hp)⟩

theorem Disk.Keeps.trans {d m d' : Disk} (h : Keeps places d m) (h' : Keeps places m d') :
    Keeps places d d' where
  home := h'.home.trans h.home
  file p hp := (h'.file p hp).trans (h.file p hp)

theorem Disk.readText_keeps {d d' : Disk} {path : String} {r : Except OsError String}
    (h : d.readText path = (r, d')) : Keeps places d d' where
  home := by
    have hchanges : Changes [] d d' := (readText_spec h).1
    exact hchanges.home
  file p _ := by
    apply file?_of_node
    rw [node?, readText_nodes h, node?]

/-- The backends do not write the files at these places. -/
structure Client.Leaves (client : Client σ) (places : List Place) : Prop where
  complete : ∀ {backend : String} {prompt : Prompt} {options : CompletionOptions}
    {r : Except ClientError String} {w w' : World σ},
    client.complete backend prompt options w = (r, w') → Keeps places w.disk w'.disk

theorem Agent.chat_keeps {client : Client σ} (hc : client.Leaves places) {a a' : Agent}
    {text : String} {options : CompletionOptions} {r : Except ClientError String} {w w' : World σ}
    (h : a.chat client text options w = (r, a', w')) : Keeps places w.disk w'.disk := by
  unfold chat at h
  split at h
  · cases h
    exact ⟨rfl, fun _ _ => rfl⟩
  · split at h
    all_goals
      next hcall =>
        cases h
        exact hc.complete hcall

namespace Convert

open Artifact

variable {client : Client σ} {target : Target} {instruction : Option String} {a a' : Agent}
  {w w' : World σ} {found : Reply.Extracted} {r : Except Error Converted}

/-- The places of the files that a conversion replaces. -/
def Target.stores (t : Target) (home : Place) : List Place :=
  [placeOf home t.codePath, placeOf home t.manifestPath]

/-- Code and manifest are two files, and neither is used while the other is written. -/
structure Target.Apart (t : Target) (home : Place) : Prop where
  paths : placeOf home t.codePath ≠ placeOf home t.manifestPath
  code : placeOf home t.codePath ≠ placeOf home (temporary t.manifestPath)
  manifest : placeOf home t.manifestPath ≠ placeOf home (temporary t.codePath)

inductive Stores (target : Target) (found : Reply.Extracted) (d : Disk) :
    Except Error Converted → Disk → Prop
  | codeRefused {e : OsError} {d' : Disk} (hcode : Underway d target.codePath d') :
      Stores target found d (.error (.persist target.codePath e)) d'
  | manifestRefused {manifest : String} {e : OsError} {m d' : Disk}
      (hfound : found.auxiliary = some manifest)
      (hcode : Replaced d target.codePath (sourceText found.code) m)
      (hmanifest : Underway m target.manifestPath d') :
      Stores target found d (.error (.persist target.manifestPath e)) d'
  | code {d' : Disk} (hfound : found.auxiliary = none)
      (hcode : Replaced d target.codePath (sourceText found.code) d') :
      Stores target found d
        (.ok ⟨found.code, none, target.codePath, none, found.warnings⟩) d'
  | both {manifest : String} {m d' : Disk} (hfound : found.auxiliary = some manifest)
      (hcode : Replaced d target.codePath (sourceText found.code) m)
      (hmanifest : Replaced m target.manifestPath (sourceText manifest) d') :
      Stores target found d
        (.ok ⟨found.code, some manifest, target.codePath, some target.manifestPath,
          found.warnings⟩) d'

theorem persist_spec {path text : String} {r : Except Error Unit}
    (h : persist path text w = (r, w')) :
    (∃ e, r = .error (.persist path e) ∧ Underway w.disk path w'.disk) ∨
      r = .ok () ∧ Replaced w.disk path (sourceText text) w'.disk := by
  unfold persist at h
  cases hw : w.onDisk fun d => writeAtomic d path (sourceText text) with
  | mk rw m =>
    rw [hw] at h
    obtain ⟨d, hd, rfl⟩ := Repair.onDisk_eq hw
    obtain ⟨e, rfl, hend⟩ | ⟨rfl, hend⟩ := writeAtomic_spec hd
    · cases h
      exact .inl ⟨e, rfl, hend⟩
    · cases h
      exact .inr ⟨rfl, hend⟩

theorem persistAll_stores (h : persistAll target found w = (r, w')) :
    Stores target found w.disk r w'.disk := by
  unfold persistAll at h
  cases hc : persist target.codePath found.code w with
  | mk rc m =>
    rw [hc] at h
    obtain ⟨e, rfl, hcode⟩ | ⟨rfl, hcode⟩ := persist_spec hc
    · cases h
      exact .codeRefused hcode
    · unfold persistManifest at h
      cases hfound : found.auxiliary with
      | none =>
        rw [hfound] at h
        cases h
        exact .code hfound hcode
      | some manifest =>
        rw [hfound] at h
        dsimp only at h
        cases hm : persist target.manifestPath manifest m with
        | mk rm n =>
          rw [hm] at h
          obtain ⟨e, rfl, hmanifest⟩ | ⟨rfl, hmanifest⟩ := persist_spec hm
          · cases h
            exact .manifestRefused hfound hcode hmanifest
          · cases h
            exact .both hfound hcode hmanifest

/-- The reply to the prompt of a conversion, and what it holds, are found with the world as `m`. -/
inductive Finds (client : Client σ) (target : Target) (instruction : Option String) (a : Agent)
    (w : World σ) (found : Reply.Extracted) (m : World σ) : Prop
  | intro {reference reply : String} {k : World σ} {a' : Agent}
      (hread : (w.onDisk fun d => d.readText target.referencePath) = (.ok reference, k))
      (hchat : a.chat client (Prompts.convert ⟨target.referencePath, reference⟩ instruction)
        options k = (.ok reply, a', m))
      (hextract : Reply.extract reply .conversion = .ok found)

inductive Converts (client : Client σ) (target : Target) (instruction : Option String) (a : Agent)
    (w : World σ) : Except Error Converted → World σ → Prop
  | idle {e : Error} {w' : World σ} (he : ∀ path cause, e ≠ .persist path cause)
      (hkeeps : ∀ places, client.Leaves places → Keeps places w.disk w'.disk) :
      Converts client target instruction a w (.error e) w'
  | storing {found : Reply.Extracted} {m w' : World σ} {r : Except Error Converted}
      (hfinds : Finds client target instruction a w found m)
      (hkeeps : ∀ places, client.Leaves places → Keeps places w.disk m.disk)
      (hstores : Stores target found m.disk r w'.disk) :
      Converts client target instruction a w r w'

theorem convert_converts (h : convert client target instruction a w = (r, a', w')) :
    Converts client target instruction a w r w' := by
  unfold convert at h
  cases hread : w.onDisk fun d => d.readText target.referencePath with
  | mk rr k =>
    obtain ⟨d, hd, hk⟩ := Repair.onDisk_eq hread
    have hkept (places : List Place) : Keeps places w.disk k.disk := by
      rw [hk]
      exact readText_keeps hd
    rw [hread] at h
    cases rr with
    | error e =>
      cases h
      exact .idle (by simp) fun places _ => hkept places
    | ok reference =>
      dsimp only at h
      cases hchat : a.chat client (Prompts.convert ⟨target.referencePath, reference⟩ instruction)
        options k with
      | mk rc rest =>
        obtain ⟨b, m⟩ := rest
        have hkept (places : List Place) (hc : client.Leaves places) : Keeps places w.disk m.disk :=
          (hkept places).trans (Agent.chat_keeps hc hchat)
        rw [hchat] at h
        cases rc with
        | error e =>
          cases h
          exact .idle (by simp) hkept
        | ok reply =>
          dsimp only at h
          cases hx : Reply.extract reply .conversion with
          | error e =>
            rw [hx] at h
            cases h
            exact .idle (by simp) hkept
          | ok found =>
            rw [hx] at h
            dsimp only at h
            cases hp : persistAll target found m with
            | mk rp n =>
              rw [hp] at h
              have hstores := persistAll_stores hp
              cases rp with
              | error e =>
                cases h
                exact .storing ⟨hread, hchat, hx⟩ hkept hstores
              | ok converted =>
                cases h
                exact .storing ⟨hread, hchat, hx⟩ hkept hstores

/-- What a conversion reports of what it found. -/
def report (target : Target) (found : Reply.Extracted) : Converted :=
  ⟨found.code, found.auxiliary, target.codePath, found.auxiliary.map fun _ => target.manifestPath,
    found.warnings⟩

section Stores

variable {d d' : Disk} {e : Error} {c : Converted}

/-- The code is not stored, or it is and the manifest is not. -/
theorem Stores.refused (ha : target.Apart d.home) (h : Stores target found d (.error e) d') :
    ((∃ cause, e = .persist target.codePath cause) ∧ Keeps (target.stores d.home) d d') ∨
      (∃ cause, e = .persist target.manifestPath cause) ∧
        Keeps [placeOf d.home target.manifestPath] d d' ∧
        d'.Holds target.codePath (Text.encode (sourceText found.code)) := by
  cases h with
  | codeRefused hcode =>
    refine .inl ⟨⟨_, rfl⟩, hcode.changes.home, fun p hp => ?_⟩
    simp only [Target.stores, List.mem_cons, List.not_mem_nil, or_false] at hp
    obtain rfl | rfl := hp
    · exact hcode.file?
    · exact hcode.file _ ha.manifest
  | @manifestRefused _ _ m _ _ hcode hmanifest =>
    have hhome : m.home = d.home := hcode.changes.home
    refine .inr ⟨⟨_, rfl⟩, ⟨hmanifest.changes.home.trans hhome, fun p hp => ?_⟩, ?_⟩
    · obtain rfl := List.mem_singleton.1 hp
      have hkept := hmanifest.file?
      rw [hhome] at hkept
      rw [hkept, hcode.file _ ha.paths.symm ha.manifest]
    · apply hcode.holds.changes hmanifest.changes
      rw [hhome, List.mem_singleton]
      exact ha.code

theorem Stores.accepted (ha : target.Apart d.home) (h : Stores target found d (.ok c) d') :
    c = report target found ∧ d'.Holds target.codePath (Text.encode (sourceText found.code)) ∧
      match found.auxiliary with
      | some manifest => d'.Holds target.manifestPath (Text.encode (sourceText manifest))
      | none => d'.file? (placeOf d.home target.manifestPath) =
          d.file? (placeOf d.home target.manifestPath) := by
  cases h with
  | code hfound hcode =>
    rw [report, hfound]
    exact ⟨rfl, hcode.holds, hcode.file _ ha.paths.symm ha.manifest⟩
  | @both _ m _ hfound hcode hmanifest =>
    have hhome : m.home = d.home := hcode.changes.home
    rw [report, hfound]
    refine ⟨rfl, ?_, hmanifest.holds⟩
    apply hcode.holds.changes hmanifest.changes
    rw [hhome]
    simp [ha.code, ha.paths]

end Stores

end Convert

/-- The files of a conversion never get in each other's way, wherever the settings put them. -/
theorem Settings.apart (s : Settings) (home : Place) :
    (⟨s.referencePath, s.candidatePath, s.manifestPath⟩ : Convert.Target).Apart home := by
  have hdiffer {name other : String} (hlast : name.toList.getLast? ≠ other.toList.getLast?) :
      placeOf home s.outputDir ++ [name] ≠ placeOf home s.outputDir ++ [other] := by
    intro he
    rw [List.singleton_inj.1 (List.append_inj_right' he rfl)] at hlast
    exact hlast rfl
  constructor
  · rw [placeOf_candidatePath, placeOf_manifestPath]
    apply hdiffer
    simp
  · rw [placeOf_candidatePath, placeOf_manifestTemporary]
    apply hdiffer
    simp
  · rw [placeOf_manifestPath, placeOf_candidateTemporary]
    apply hdiffer
    simp

namespace Convert

open Artifact

variable {client : Client σ} {target : Target} {instruction : Option String} {a a' : Agent}
  {w w' : World σ} {r : Except Error Converted}

theorem convert_refused {e : Error} (hc : client.Leaves (target.stores w.disk.home))
    (ha : target.Apart w.disk.home)
    (h : convert client target instruction a w = (.error e, a', w')) :
    ((∀ cause, e ≠ .persist target.manifestPath cause) ∧
        Keeps (target.stores w.disk.home) w.disk w'.disk) ∨
      (∃ cause, e = .persist target.manifestPath cause) ∧
        Keeps [placeOf w.disk.home target.manifestPath] w.disk w'.disk ∧
        ∃ found m, Finds client target instruction a w found m ∧
          w'.disk.Holds target.codePath (Text.encode (sourceText found.code)) := by
  have hpaths : target.codePath ≠ target.manifestPath := fun he => ha.paths (by rw [he])
  cases convert_converts h with
  | idle he hkeeps => exact .inl ⟨he _, hkeeps _ hc⟩
  | storing hfinds hkeeps hstores =>
    have hkept := hkeeps _ hc
    have hmanifest : Keeps [placeOf w.disk.home target.manifestPath] w.disk _ :=
      hkept.mono (by simp [Target.stores])
    rw [← hkept.home] at ha
    obtain ⟨⟨cause, rfl⟩, hrefused⟩ | ⟨hcause, hrefused, hholds⟩ := hstores.refused ha
    · rw [hkept.home] at hrefused
      exact .inl ⟨by simp [hpaths], hkept.trans hrefused⟩
    · rw [hkept.home] at hrefused
      exact .inr ⟨hcause, hmanifest.trans hrefused, _, _, hfinds, hholds⟩

theorem convert_accepted {c : Converted} (hc : client.Leaves (target.stores w.disk.home))
    (ha : target.Apart w.disk.home)
    (h : convert client target instruction a w = (.ok c, a', w')) :
    ∃ found m, Finds client target instruction a w found m ∧ c = report target found ∧
      w'.disk.Holds target.codePath (Text.encode (sourceText c.code)) ∧
      match c.manifest with
      | some manifest => w'.disk.Holds target.manifestPath (Text.encode (sourceText manifest))
      | none => w'.disk.file? (placeOf w.disk.home target.manifestPath) =
          w.disk.file? (placeOf w.disk.home target.manifestPath) := by
  cases convert_converts h with
  | @storing found m _ _ hfinds hkeeps hstores =>
    have hkept := hkeeps _ hc
    rw [← hkept.home] at ha
    obtain ⟨rfl, hholds, hmanifest⟩ := hstores.accepted ha
    refine ⟨found, m, hfinds, rfl, hholds, ?_⟩
    dsimp only [report]
    cases hfound : found.auxiliary with
    | some manifest =>
      rw [hfound] at hmanifest
      exact hmanifest
    | none =>
      rw [hfound] at hmanifest
      dsimp only at hmanifest ⊢
      rw [hkept.home] at hmanifest
      rw [hmanifest, hkept.file _ (by simp [Target.stores])]

/-- A conversion that fails leaves both files as they were, unless it is the manifest that could not
be written: then the code has been replaced. One that succeeds has put what it reports where it
says. The files are apart wherever the settings put them. -/
theorem conversions_keep_or_replace :
    (∀ (s : Settings) (home : Place),
      (⟨s.referencePath, s.candidatePath, s.manifestPath⟩ : Target).Apart home) ∧
    ∀ (client : Client σ) (target : Target) (instruction : Option String) (a a' : Agent)
      (w w' : World σ) (r : Except Error Converted),
      client.Leaves (target.stores w.disk.home) → target.Apart w.disk.home →
      convert client target instruction a w = (r, a', w') →
      let kept path :=
        w'.disk.file? (placeOf w.disk.home path) = w.disk.file? (placeOf w.disk.home path)
      let holds path text := w'.disk.Holds path (Text.encode (sourceText text))
      (∀ e, r = .error e → (∀ cause, e ≠ .persist target.manifestPath cause) →
        kept target.codePath ∧ kept target.manifestPath) ∧
      (∀ cause, r = .error (.persist target.manifestPath cause) → kept target.manifestPath ∧
        ∃ found m, Finds client target instruction a w found m ∧
          holds target.codePath found.code) ∧
      ∀ converted, r = .ok converted → ∃ found m,
        Finds client target instruction a w found m ∧ converted = report target found ∧
        holds target.codePath converted.code ∧
        match converted.manifest with
        | some manifest => holds target.manifestPath manifest
        | none => kept target.manifestPath := by
  refine ⟨Settings.apart, fun client target instruction a a' w w' r hc ha h => ?_⟩
  intro kept holds
  refine ⟨?_, ?_, ?_⟩
  · rintro e rfl he
    obtain ⟨-, hkept⟩ | ⟨⟨cause, rfl⟩, -⟩ := convert_refused hc ha h
    · exact ⟨hkept.file _ (by simp [Target.stores]), hkept.file _ (by simp [Target.stores])⟩
    · exact absurd rfl (he cause)
  · rintro cause rfl
    obtain ⟨he, -⟩ | ⟨-, hkept, hholds⟩ := convert_refused hc ha h
    · exact absurd rfl (he cause)
    · exact ⟨hkept.file _ List.mem_cons_self, hholds⟩
  · rintro converted rfl
    exact convert_accepted hc ha h

def shelfClient : Client Scripted.Script := Scripted.client .converter .messages

theorem shelfClient_leaves (places : List Place) : shelfClient.Leaves places where
  complete h := by
    cases h
    unfold Scripted.cancelDuring
    split <;> exact ⟨rfl, fun _ _ => rfl⟩

def shelf (manifest : Option String) (other : List (Place × Node)) : World Scripted.Script :=
  let reply := Scripted.conversionReply "fn main() \x7b\x7d" manifest
  let reference : Place × Node :=
    (["tmp", "work", "main.cpp"], .file (Text.encode "int main() \x7b\x7d\n") false)
  ⟨{ Disk.empty with nodes := Disk.empty.nodes ++ reference :: other }, false, 0,
    { replies := fun _ => ⟨[.ok reply], []⟩, results := fun _ => ⟨[], [], 0, 0, []⟩,
      cancelAt := none }⟩

def shelve (code manifest : String) (w : World Scripted.Script) :
    Except Error Converted × Agent × World Scripted.Script :=
  convert shelfClient ⟨"main.cpp", code, manifest⟩ none
    (Agent.new "scripted" "You convert programs." 4) w

theorem shelved_conversion :
    let w := shelf (some "[package]") []
    let after := (shelve "out/main.rs" "out/Cargo.toml" w).2.2.disk
    (shelve "out/main.rs" "out/Cargo.toml" w).1 =
        .ok ⟨"fn main() \x7b\x7d", some "[package]", "out/main.rs", some "out/Cargo.toml", []⟩ ∧
      after.Holds "out/main.rs" (Text.encode "fn main() \x7b\x7d\n") ∧
      after.Holds "out/Cargo.toml" (Text.encode "[package]\n") := by
  intro w after
  have hconverted : (shelve "out/main.rs" "out/Cargo.toml" w).1 =
      .ok ⟨"fn main() \x7b\x7d", some "[package]", "out/main.rs", some "out/Cargo.toml", []⟩ := by
    decide +kernel
  have hapart : (⟨"main.cpp", "out/main.rs", "out/Cargo.toml"⟩ : Target).Apart w.disk.home :=
    ⟨by decide +kernel, by decide +kernel, by decide +kernel⟩
  obtain ⟨-, -, hholds⟩ := conversions_keep_or_replace.2 shelfClient
    ⟨"main.cpp", "out/main.rs", "out/Cargo.toml"⟩ none _ _ w _ _ (shelfClient_leaves _) hapart rfl
  obtain ⟨_, _, -, -, hcode, hmanifest⟩ := hholds _ hconverted
  have htext : sourceText "fn main() \x7b\x7d" = "fn main() \x7b\x7d\n" := by decide +kernel
  have htext' : sourceText "[package]" = "[package]\n" := by decide +kernel
  rw [htext] at hcode
  dsimp only at hmanifest
  rw [htext'] at hmanifest
  exact ⟨hconverted, hcode, hmanifest⟩

/-- The code stays where the manifest could not be written. Two paths to one file, and a path beside
the other, leave one of the two texts. -/
theorem artifacts_replaced_one_by_one :
    let out := ["tmp", "work", "out"]
    let new : Option (Text.Bytes × Bool) := some (Text.encode "fn main() \x7b\x7d\n", false)
    let blocked := shelf (some "[package]") [(out, .directory),
      (out ++ ["main.rs"], .file (Text.encode "old\n") false), (out ++ ["Cargo.toml"], .directory)]
    let after := shelve "out/main.rs" "out/Cargo.toml" blocked
    let same := shelve "out/main.rs" "out/main.rs" (shelf (some "[package]") [])
    let beside := shelve "out/Cargo.toml.tmp" "out/Cargo.toml" (shelf (some "[package]") [])
    let under := shelve "out/main.rs" "out/main.rs.tmp" (shelf none
      [(out, .directory), (out ++ ["main.rs.tmp"], .file (Text.encode "old\n") false)])
    after.1 = .error (.persist "out/Cargo.toml" .isDirectory) ∧
      after.2.2.disk.file? (out ++ ["main.rs"]) = new ∧
      blocked.disk.file? (out ++ ["main.rs"]) = some (Text.encode "old\n", false) ∧
    same.1.isOk = true ∧ same.2.2.disk.file? (out ++ ["main.rs"]) ≠ new ∧
    beside.1.isOk = true ∧ beside.2.2.disk.file? (out ++ ["Cargo.toml.tmp"]) = none ∧
    under.1.isOk = true ∧ under.2.2.disk.file? (out ++ ["main.rs.tmp"]) = none := by
  decide +kernel

end Convert
end Anneal
