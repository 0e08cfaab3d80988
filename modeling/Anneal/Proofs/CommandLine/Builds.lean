import Anneal.CommandLine.Run
import Anneal.Proofs.Artifact
import Anneal.Proofs.Rehearsal
import Anneal.Proofs.Repair.Traced
import Anneal.Proofs.Settings.Outputs
import Anneal.Scripted

/-! Conversions and repairs, one after another, and a file that none of them is to touch: the
reference. It stays as it is unless one of the outputs is the reference. -/

namespace Anneal

open Disk

variable {σ : Type} {home p : Place} {content : Text.Bytes} {x : Bool} {w w' : World σ}

structure Stands (home p : Place) (content : Text.Bytes) (x : Bool) (w : World σ) : Prop where
  home : w.disk.home = home
  node : w.disk.node? p = some (.file content x)

theorem Stands.changes {places : List Place} {d : Disk} (h : Stands home p content x w)
    (hd : Changes places w.disk d) (hp : p ∉ places) :
    Stands home p content x { w with disk := d } :=
  ⟨hd.home.trans h.home, hd.file p content x hp h.node⟩

theorem Stands.reads {d : Disk} (h : Stands home p content x w) (hd : Changes [] w.disk d) :
    Stands home p content x { w with disk := d } :=
  h.changes hd List.not_mem_nil

theorem Stands.writeAtomic {path text : String} {r : Except OsError Unit} {d : Disk}
    (h : Stands home p content x w)
    (hd : Artifact.writeAtomic w.disk path text = (r, d))
    (htemporary : placeOf home (Artifact.temporary path) ≠ p) (hpath : placeOf home path ≠ p) :
    Stands home p content x { w with disk := d } := by
  refine h.changes (Artifact.writeAtomic_changes hd) ?_
  rw [h.home]
  simp [htemporary.symm, hpath.symm]

/-- The file is as it was, if it is there. -/
def Leaves (p : Place) (w w' : World σ) : Prop :=
  ∀ home content x, Stands home p content x w → Stands home p content x w'

theorem Leaves.of_changes {places : List Place} (h : Changes places w.disk w'.disk)
    (hp : p ∉ places) : Leaves p w w' := fun _ content x hw =>
  ⟨h.home.trans hw.home, h.file p content x hp hw.node⟩

/-- A call that leaves the file alone. A compiler may write its own output, and the repair's own
writes are not asked about. -/
def Repair.Entry.Leaves (p : Place) (e : Repair.Entry σ) : Prop :=
  e.call.isWrite = false →
    (∀ side source r, e.call = .compile side source r →
      placeOf e.before.disk.home (executableFor source) ≠ p) →
    Anneal.Leaves p e.before e.after

namespace Convert

variable {target : Target}

structure Target.Avoids (target : Target) (home p : Place) : Prop where
  code : placeOf home target.codePath ≠ p
  codeTemporary : placeOf home (Artifact.temporary target.codePath) ≠ p
  manifest : placeOf home target.manifestPath ≠ p
  manifestTemporary : placeOf home (Artifact.temporary target.manifestPath) ≠ p

theorem persist_stands {path text : String} {r : Except Error Unit}
    (htemporary : placeOf home (Artifact.temporary path) ≠ p) (hpath : placeOf home path ≠ p)
    (h : persist path text w = (r, w')) (hw : Stands home p content x w) :
    Stands home p content x w' := by
  unfold persist at h
  split at h
  all_goals
    next hwrite =>
      cases h
      obtain ⟨d, hd, rfl⟩ := Repair.onDisk_eq hwrite
      exact hw.writeAtomic hd htemporary hpath

theorem persistAll_stands (ht : target.Avoids home p) {found : Reply.Extracted}
    {r : Except Error Converted} (h : persistAll target found w = (r, w'))
    (hw : Stands home p content x w) : Stands home p content x w' := by
  have hmanifest {manifest : Option String} {r : Except Error (Option String)} {m m' : World σ}
      (h : persistManifest target manifest m = (r, m')) (hm : Stands home p content x m) :
      Stands home p content x m' := by
    unfold persistManifest at h
    split at h
    · cases h
      exact hm
    · split at h
      all_goals
        next hp =>
          cases h
          exact persist_stands ht.manifestTemporary ht.manifest hp hm
  unfold persistAll at h
  split at h
  next hcode =>
    cases h
    exact persist_stands ht.codeTemporary ht.code hcode hw
  next hcode =>
    have hm := persist_stands ht.codeTemporary ht.code hcode hw
    split at h
    all_goals
      next hrest =>
        cases h
        exact hmanifest hrest hm

def Spares (client : Client σ) (target : Target) (instruction : Option String) (a : Agent)
    (w : World σ) (p : Place) : Prop :=
  ∀ text w₁, (w.onDisk fun d => d.readText target.referencePath) = (.ok text, w₁) →
    Leaves p w₁
      (a.chat client (Prompts.convert ⟨target.referencePath, text⟩ instruction) options w₁).2.2

theorem convert_stands {client : Client σ} {instruction : Option String} {a : Agent}
    (ht : target.Avoids home p) (hs : Spares client target instruction a w p)
    (hw : Stands home p content x w) :
    Stands home p content x (convert client target instruction a w).2.2 := by
  unfold convert
  cases hread : w.onDisk fun d => d.readText target.referencePath with
  | mk read m =>
    have hm : Stands home p content x m := by
      obtain ⟨d, hd, rfl⟩ := Repair.onDisk_eq hread
      exact hw.reads (readText_spec hd).1
    cases read with
    | error e => exact hm
    | ok text =>
      dsimp only
      have hchat := hs text m hread home content x hm
      revert hchat
      generalize a.chat client _ options _ = r
      obtain ⟨_ | reply, a, m'⟩ := r
      · exact id
      · intro hm'
        dsimp only at hm' ⊢
        split
        · exact hm'
        next found _ =>
          cases hall : persistAll target found m' with
          | mk r w' =>
            have hw' := persistAll_stands ht hall hm'
            cases r <;> exact hw'

end Convert

namespace CommandLine

variable {a : Assistant σ}

namespace Assistant

def repairRequest (a : Assistant σ) (instruction input : Option String) : Repair.Request :=
  ⟨a.target.codePath, a.target.referencePath, instruction, input⟩

def ConvertsSparing (a : Assistant σ) (instruction : Option String) (w : World σ) (p : Place) :
    Prop :=
  Convert.Spares a.client a.target instruction (a.agent Prompts.converterSystem) w p

def RepairsSparing (a : Assistant σ) (instruction input : Option String) (w : World σ)
    (p : Place) : Prop :=
  ∀ e ∈ (Repair.diagnoseAndFix a.setup (a.repairRequest instruction input)
    (a.agent Prompts.repairSystem) w).2.entries, e.Leaves p

def JournalApart (a : Assistant σ) (home p : Place) : Prop :=
  ∀ path, a.journal.Keeps path → placeOf home path ≠ p

end Assistant

/-- A request converts or repairs, and what the calls do that it makes leaves the file alone. -/
inductive Request.Builds (a : Assistant σ) (p : Place) : Request → World σ → Prop
  | convert {instruction : Option String} {w : World σ} (h : a.ConvertsSparing instruction w p) :
      Builds a p (.convert instruction) w
  | repair {instruction input : Option String} {w : World σ}
      (h : a.RepairsSparing instruction input w p) :
      Builds a p (.repair instruction input) w
  | pipeline {instruction input : Option String} {w : World σ}
      (hc : a.ConvertsSparing instruction w p)
      (hr : a.RepairsSparing instruction input (runConvert a instruction w).2 p) :
      Builds a p (.pipeline instruction input) w

theorem journaled_stands (ha : a.JournalApart home p) (h : Repair.Journaled a.setup w w')
    (hw : Stands home p content x w) : Stands home p content x w' := by
  obtain ⟨d, paths, hk, hd, rfl⟩ := h
  refine hw.changes hd ?_
  rw [hw.home]
  intro hmem
  obtain ⟨path, hpath, hplace⟩ := List.mem_map.1 hmem
  obtain ⟨j, hj, hkeeps⟩ := hk path hpath
  obtain rfl : a.journal = j := Option.some.inj hj
  exact ha path hkeeps hplace

def Avoids (s : Settings) (home p : Place) : Prop := ∀ path ∈ s.outputs, placeOf home path ≠ p

theorem Avoids.target (h : Avoids a.settings home p) : a.target.Avoids home p where
  code := h _ (by simp [Assistant.target, Settings.outputs])
  codeTemporary := h _ (by simp [Assistant.target, Settings.outputs])
  manifest := h _ (by simp [Assistant.target, Settings.outputs])
  manifestTemporary := h _ (by simp [Assistant.target, Settings.outputs])

variable {instruction input : Option String}

theorem repair_preserves (ha : a.JournalApart home p) (hs : Avoids a.settings home p) :
    Repair.Preserves a.setup (a.repairRequest instruction input) (Stands home p content x) where
  between hb hw := by
    cases hb with
    | reads h =>
      obtain ⟨d, hd, rfl⟩ := h
      exact hw.reads hd
    | journaled h => exact journaled_stands ha h hw
    | unwritten h =>
      obtain ⟨d, hd, rfl⟩ := Repair.onDisk_eq h
      exact hw.writeAtomic hd hs.target.codeTemporary hs.target.code
  write h hw := by
    obtain ⟨d, hd, rfl⟩ := Repair.onDisk_eq h
    exact hw.writeAtomic hd hs.target.codeTemporary hs.target.code

theorem runRepair_stands (ha : a.JournalApart home p) (hs : Avoids a.settings home p)
    (hr : a.RepairsSparing instruction input w p) (hw : Stands home p content x w) :
    Stands home p content x (runRepair a instruction input w).2 := by
  have hrepair {result : Except Failure Report} {progress : Repair.Progress σ}
      (h : Repair.diagnoseAndFix a.setup (a.repairRequest instruction input)
        (a.agent Prompts.repairSystem) w = (result, progress)) :
      Stands home p content x progress.world := by
    refine (repair_preserves ha hs).traced (Repair.diagnoseAndFix_traced h)
      (fun e he hcall hbefore => ?_) hw
    unfold Assistant.RepairsSparing at hr
    rw [h] at hr
    refine hr e he hcall (fun side source r hcompile => ?_) home content x hbefore
    -- The outputs of the two compilers are among the outputs of the settings.
    have hgenuine := Repair.diagnoseAndFix_genuine h e he
    unfold Repair.Entry.Genuine at hgenuine
    rw [hcompile] at hgenuine
    obtain ⟨rfl, -⟩ := hgenuine
    rw [hbefore.home]
    cases side with
    | candidate => exact hs _ (by simp [Settings.outputs, Assistant.target,
        Assistant.repairRequest, Repair.Request.source])
    | reference => exact hs _ (by simp [Settings.outputs, Assistant.target,
        Assistant.repairRequest, Repair.Request.source])
  unfold runRepair
  dsimp only
  split <;> exact hrepair rfl

theorem event_stands (ha : a.JournalApart home p) {message : String} {r : Except Failure Unit}
    (h : a.journal.event message w = (r, w')) (hw : Stands home p content x w) :
    Stands home p content x w' := by
  obtain ⟨path, d, hkeeps, hd, hevent⟩ := a.journal.event_writes message w
  rw [h] at hevent
  rw [show w' = { w with disk := d } from hevent]
  refine hw.changes hd ?_
  rw [hw.home, List.mem_singleton]
  exact (ha path hkeeps).symm

theorem runConvert_stands (ha : a.JournalApart home p) (hs : Avoids a.settings home p)
    (hc : a.ConvertsSparing instruction w p) (hw : Stands home p content x w) :
    Stands home p content x (runConvert a instruction w).2 := by
  have hconvert := Convert.convert_stands hs.target hc hw
  unfold runConvert
  dsimp only
  split
  · exact hconvert
  · split
    all_goals
      next hevent => exact event_stands ha hevent hconvert

theorem carryOut_stands (ha : a.JournalApart home p) (hs : Avoids a.settings home p)
    {request : Request} (hr : request.Builds a p w) (typed : Text.Bytes)
    (hw : Stands home p content x w) : Stands home p content x (carryOut a typed w request).2 := by
  cases hr with
  | @convert instruction _ hc =>
    have hconvert := runConvert_stands ha hs hc hw
    unfold carryOut
    dsimp only
    split
    all_goals
      next h => rwa [h] at hconvert
  | repair hr => exact runRepair_stands ha hs hr hw
  | pipeline hc hr =>
    have hconvert := runConvert_stands ha hs hc hw
    unfold carryOut
    dsimp only
    split
    next h => rwa [h] at hconvert
    next h =>
      rw [h] at hconvert hr
      exact runRepair_stands ha hs hr hconvert

/-- Commands one after another, each with an assistant of its own. -/
def carryOutAll : List (Assistant σ × Request) → World σ → World σ
  | [], w => w
  | (a, request) :: rest, w => carryOutAll rest (carryOut a [] w request).2

/-- Commands with these settings that convert and repair, where the calls that each of them makes in
its turn leave the file alone and the journals are kept elsewhere. -/
inductive BuildAll (s : Settings) (home p : Place) : List (Assistant σ × Request) → World σ → Prop
  | done (w : World σ) : BuildAll s home p [] w
  | next {a : Assistant σ} {request : Request} {rest : List (Assistant σ × Request)} {w : World σ}
      (hs : a.settings = s) (hj : a.JournalApart home p) (h : request.Builds a p w)
      (hrest : BuildAll s home p rest (carryOut a [] w request).2) :
      BuildAll s home p ((a, request) :: rest) w

theorem BuildAll.stands {s : Settings} {commands : List (Assistant σ × Request)}
    (h : BuildAll s home p commands w) (hs : Avoids s home p) (hw : Stands home p content x w) :
    Stands home p content x (carryOutAll commands w) := by
  induction h with
  | done => exact hw
  | next hsettings hj hbuilds _ ih =>
    subst hsettings
    exact ih (carryOut_stands hj hs hbuilds [] hw)

/-- The reference is among the outputs where the settings overwrite it, and nowhere else. Where
they do not, no run of conversions and repairs changes it, unless a call does that the run makes. -/
theorem builds_spare_reference :
    (∀ (s : Settings) (home : Place),
      (∃ path ∈ s.outputs, placeOf home path = placeOf home s.referencePath) ↔
        s.Overwrites home) ∧
    ∀ (s : Settings) (commands : List (Assistant σ × Request)) (w : World σ)
      (content : Text.Bytes) (x : Bool), ¬ s.Overwrites w.disk.home →
      BuildAll s w.disk.home (placeOf w.disk.home s.referencePath) commands w →
      w.disk.node? (placeOf w.disk.home s.referencePath) = some (.file content x) →
        (carryOutAll commands w).disk.node? (placeOf w.disk.home s.referencePath) =
          some (.file content x) := by
  refine ⟨Settings.mem_outputs_iff, fun s commands w content x hs hc hnode => ?_⟩
  have havoids : Avoids s w.disk.home (placeOf w.disk.home s.referencePath) := by
    intro path hpath hplace
    exact hs ((s.mem_outputs_iff w.disk.home).1 ⟨path, hpath, hplace⟩)
  exact (hc.stands havoids ⟨rfl, hnode⟩).node

def printer (reference : String) : Assistant Text.Bytes where
  settings := { referencePath := reference, outputDir := "out" }
  client := replying (Scripted.conversionReply "6" none)
  machine := Program.copying
  journal := .atOutput "out" "s"

def printerWorld (reference : Place) : World Text.Bytes :=
  let source : Node := .file (Text.encode "6\n") false
  (Journal.create "out" "s"
    ⟨{ Disk.empty with nodes := Disk.empty.nodes ++ [(reference, source)] }, false, 0, []⟩).2

section Printer

variable {reference : String} {p : Place} {w : World Text.Bytes}

theorem printer_copies (reference : String) : Repair.Copies (printer reference).setup where
  toolchain side := by cases side <;> exact ⟨_, _, rfl⟩
  client := ⟨_, rfl⟩

theorem printer_converts (instruction : Option String) :
    (printer reference).ConvertsSparing instruction w p := fun text w₁ _ => by
  have hsame := chat_replying ((printer reference).agent Prompts.converterSystem)
    (Scripted.conversionReply "6" none)
    (Prompts.convert ⟨(printer reference).target.referencePath, text⟩ instruction) Convert.options w₁
  exact hsame.symm ▸ fun _ _ _ => id

theorem printer_repairs (instruction input : Option String) :
    (printer reference).RepairsSparing instruction input w p := by
  intro e he hwrite houtput
  have hchanges :=
    (printer_copies reference).changes (Repair.diagnoseAndFix_genuine rfl e he) hwrite
  refine .of_changes hchanges ?_
  obtain ⟨call, before, after⟩ := e
  cases call with
  | compile side source r => simpa [Repair.Call.outputs, eq_comm] using houtput side source r rfl
  | _ => exact List.not_mem_nil

theorem printer_journalApart {home : Place}
    (hp : p.length ≠ (placeOf home (printer reference).journal.dir).length + 1) :
    (printer reference).JournalApart home p := by
  intro path hkeeps hplace
  obtain ⟨name, -, hname⟩ := hkeeps.placeOf home
  rw [← hplace, hname, List.length_append] at hp
  exact hp rfl

end Printer

theorem printer_spares_reference :
    let w := printerWorld ["tmp", "work", "main.cpp"]
    let commands := [(printer "main.cpp", .convert none), (printer "main.cpp", .repair none none)]
    let after := carryOutAll commands w
    BuildAll (printer "main.cpp").settings ["tmp", "work"] ["tmp", "work", "main.cpp"] commands w ∧
      (after.disk.exists? "out/main.rs" && after.disk.exists? "out/main" &&
        after.disk.exists? "main") = true ∧
      after.disk.node? ["tmp", "work", "main.cpp"] = some (.file (Text.encode "6\n") false) := by
  have hhome : (printerWorld ["tmp", "work", "main.cpp"]).disk.home = ["tmp", "work"] := by
    decide +kernel
  have hplace : placeOf ["tmp", "work"] "main.cpp" = ["tmp", "work", "main.cpp"] := by
    decide +kernel
  have hbuilds := builds_spare_reference (σ := Text.Bytes)
  have hs : ¬ (printer "main.cpp").settings.Overwrites ["tmp", "work"] := by
    rw [← hbuilds.1]
    decide +kernel
  have hapart : (printer "main.cpp").JournalApart ["tmp", "work"] ["tmp", "work", "main.cpp"] :=
    printer_journalApart (by decide +kernel)
  have hall : BuildAll (printer "main.cpp").settings ["tmp", "work"] ["tmp", "work", "main.cpp"]
      [(printer "main.cpp", .convert none), (printer "main.cpp", .repair none none)]
      (printerWorld ["tmp", "work", "main.cpp"]) :=
    .next rfl hapart (.convert (printer_converts none))
      (.next rfl hapart (.repair (printer_repairs none none)) (.done _))
  have hkept := hbuilds.2 (printer "main.cpp").settings
    [(printer "main.cpp", .convert none), (printer "main.cpp", .repair none none)]
    (printerWorld ["tmp", "work", "main.cpp"]) (Text.encode "6\n") false
  rw [hhome, show (printer "main.cpp").settings.referencePath = "main.cpp" from rfl, hplace]
    at hkept
  exact ⟨hall, by decide +kernel, hkept hs hall (by decide +kernel)⟩

/-- A reference without an extension is compiled over itself, and one that stands where the
candidate does is the candidate. -/
theorem usable_settings_overwrite :
    let bare := (printer "main").settings
    let candidate := (printer "out/main.rs").settings
    let w := printerWorld ["tmp", "work", "main"]
    bare.complaint? = none ∧ executableFor bare.referencePath = bare.referencePath ∧
      (carryOut (printer "main") [] w (.pipeline none none)).2.disk.node? ["tmp", "work", "main"] ≠
        w.disk.node? ["tmp", "work", "main"] ∧
      candidate.complaint? = none ∧ candidate.candidatePath = candidate.referencePath := by
  decide +kernel

end CommandLine

end Anneal
