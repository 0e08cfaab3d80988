import Anneal.Proofs.Json.Decoding
import Anneal.Settings.Document

/-!
# Settings that a document leaves out

A setting is named by the members that lead to it. A document mentions it if they are all there; a
list that stands for a record holds the members in the order of their declaration. Settings that
are mentioned get what is written. Two defaults compete for the others: where a section is there
but lacks a setting, it is the default of the section's record, where the section is not there at
all, the one of its place. They differ for one setting, the C++ compiler.
-/

namespace Anneal.Settings

open Anneal.Json Anneal.Json.Decode

def follow? (members : List Member) (document : Json) : Option Json :=
  members.foldl (fun found m => found.bind (field? m)) (some document)

def topMember (key : String) : Member :=
  (["reference_path", "output_dir", "repair", "toolchains", "client", "backends"], key)

def repairMember (key : String) : Member := (RepairSettings.known.map (·.key), key)
def languageMember (key : String) : Member := (CompilersSettings.known.map (·.key), key)
def compilerMember (key : String) : Member := (CompilerSettings.known.map (·.key), key)
def clientMember (key : String) : Member := (ClientSettings.known.map (·.key), key)

/-- Something that a document may set. -/
structure Setting where
  members : List Member
  Value : Type
  Written : Json → Value → Prop
  get : Settings → Value

namespace Setting

def mentioned? (t : Setting) (document : Json) : Option Json := follow? t.members document

def text (members : List Member) (get : Settings → String) : Setting :=
  ⟨members, String, fun j v => j = .str v, get⟩

def number (members : List Member) (get : Settings → Nat) : Setting :=
  ⟨members, Nat, fun j n => j = .int n, get⟩

def texts (members : List Member) (get : Settings → List String) : Setting :=
  ⟨members, List String, fun j vs => j = .arr (vs.map Json.str), get⟩

def ofRepair (key : String) : List Member := [topMember "repair", repairMember key]

def ofClient (key : String) : List Member := [topMember "client", clientMember key]

def compilerSection (language : String) : List Member :=
  [topMember "toolchains", languageMember language]

def ofCompiler (language key : String) : List Member :=
  compilerSection language ++ [compilerMember key]

def compilerName (language : String) (get : Settings → CompilerSettings) : Setting :=
  text (ofCompiler language "compiler") (get · |>.compiler)

def compilerOptions (language : String) (get : Settings → CompilerSettings) : List Setting :=
  [texts (ofCompiler language "args") (get · |>.args),
   number (ofCompiler language "compile_timeout_secs") (get · |>.compileSeconds),
   number (ofCompiler language "run_timeout_secs") (get · |>.runSeconds),
   number (ofCompiler language "output_limit_bytes") (get · |>.outputLimit)]

def repairSettings : List Setting :=
  [number (ofRepair "max_retry") (·.repair.maxRetry),
   number (ofRepair "max_history") (·.repair.maxHistory),
   ⟨ofRepair "comparison", Comparison, fun j c => Comparison.ofJson j = .ok c,
    (·.repair.comparison)⟩]

def clientSettings : List Setting :=
  [text (ofClient "backend") (·.client.backend), text (ofClient "model") (·.client.model),
   number (ofClient "request_timeout_secs") (·.client.requestSeconds),
   number (ofClient "max_retries") (·.client.maxRetries),
   number (ofClient "initial_backoff_ms") (·.client.initialMs),
   number (ofClient "max_backoff_ms") (·.client.maxMs)]

def cppCompiler : Setting := compilerName "cpp" (·.compilers.cpp)

/-- The settings but for the C++ compiler. -/
def others : List Setting :=
  [text [topMember "reference_path"] (·.referencePath), text [topMember "output_dir"] (·.outputDir),
   compilerName "rust" (·.compilers.rust)] ++
  repairSettings ++ compilerOptions "rust" (·.compilers.rust) ++
  compilerOptions "cpp" (·.compilers.cpp) ++ clientSettings

def all : List Setting := cppCompiler :: others

/-- The document has nothing for the setting and the setting is what the default settings make it,
or the setting is what the document has for it. -/
structure Kept (t : Setting) (document : Json) (s : Settings) : Prop where
  written : ∀ j, t.mentioned? document = some j → t.Written j (t.get s)
  absent : t.mentioned? document = none → t.get s = t.get .default

end Setting

section Sections

variable {j : Json}

structure RepairTaken (j : Json) (s : RepairSettings) : Prop where
  maxRetry : Taken (field? (repairMember "max_retry") j) 5 word32 s.maxRetry
  maxHistory : Taken (field? (repairMember "max_history") j) 10 count s.maxHistory
  comparison : Taken (field? (repairMember "comparison") j) .exact Comparison.ofJson s.comparison

structure CompilerTaken (j : Json) (s : CompilerSettings) : Prop where
  compiler : Taken (field? (compilerMember "compiler") j) "rustc" string s.compiler
  args : Taken (field? (compilerMember "args") j) [] (list string) s.args
  compileSeconds :
    Taken (field? (compilerMember "compile_timeout_secs") j) 120 word64 s.compileSeconds
  runSeconds : Taken (field? (compilerMember "run_timeout_secs") j) 10 word64 s.runSeconds
  outputLimit : Taken (field? (compilerMember "output_limit_bytes") j) 100000 count s.outputLimit

structure CompilersTaken (j : Json) (s : CompilersSettings) : Prop where
  rust : Taken (field? (languageMember "rust") j) (.ofLanguage .rust) CompilerSettings.ofJson s.rust
  cpp : Taken (field? (languageMember "cpp") j) (.ofLanguage .cpp) CompilerSettings.ofJson s.cpp

structure ClientTaken (j : Json) (s : ClientSettings) : Prop where
  backend : Taken (field? (clientMember "backend") j) "ollama" string s.backend
  model : Taken (field? (clientMember "model") j) "llama3.1" string s.model
  requestSeconds :
    Taken (field? (clientMember "request_timeout_secs") j) 300 word64 s.requestSeconds
  maxRetries : Taken (field? (clientMember "max_retries") j) 2 word32 s.maxRetries
  initialMs : Taken (field? (clientMember "initial_backoff_ms") j) 500 word64 s.initialMs
  maxMs : Taken (field? (clientMember "max_backoff_ms") j) 8000 word64 s.maxMs

structure SettingsTaken (j : Json) (s : Settings) : Prop where
  referencePath : Taken (field? (topMember "reference_path") j) "example.cpp" path s.referencePath
  outputDir : Taken (field? (topMember "output_dir") j) "output" path s.outputDir
  repair : Taken (field? (topMember "repair") j) {} RepairSettings.ofJson s.repair
  compilers : Taken (field? (topMember "toolchains") j) .default CompilersSettings.ofJson s.compilers
  client : Taken (field? (topMember "client") j) {} ClientSettings.ofJson s.client

theorem repair_taken {s : RepairSettings} (h : RepairSettings.ofJson j = .ok s) :
    RepairTaken j s := by
  obtain ⟨fields, h, found⟩ := record_eq_ok h
  obtain ⟨_, maxRetry, h⟩ := bind_eq_ok h
  obtain ⟨_, maxHistory, h⟩ := bind_eq_ok h
  obtain ⟨_, comparison, h⟩ := bind_eq_ok h
  cases h
  exact ⟨withDefault_eq_ok (found _) maxRetry, withDefault_eq_ok (found _) maxHistory,
    withDefault_eq_ok (found _) comparison⟩

theorem compiler_taken {s : CompilerSettings} (h : CompilerSettings.ofJson j = .ok s) :
    CompilerTaken j s := by
  obtain ⟨fields, h, found⟩ := record_eq_ok h
  obtain ⟨_, compiler, h⟩ := bind_eq_ok h
  obtain ⟨_, args, h⟩ := bind_eq_ok h
  obtain ⟨_, compileSeconds, h⟩ := bind_eq_ok h
  obtain ⟨_, runSeconds, h⟩ := bind_eq_ok h
  obtain ⟨_, outputLimit, h⟩ := bind_eq_ok h
  cases h
  exact ⟨withDefault_eq_ok (found _) compiler, withDefault_eq_ok (found _) args,
    withDefault_eq_ok (found _) compileSeconds, withDefault_eq_ok (found _) runSeconds,
    withDefault_eq_ok (found _) outputLimit⟩

theorem compilers_taken {s : CompilersSettings} (h : CompilersSettings.ofJson j = .ok s) :
    CompilersTaken j s := by
  obtain ⟨fields, h, found⟩ := record_eq_ok h
  obtain ⟨_, rust, h⟩ := bind_eq_ok h
  obtain ⟨_, cpp, h⟩ := bind_eq_ok h
  cases h
  exact ⟨withDefault_eq_ok (found _) rust, withDefault_eq_ok (found _) cpp⟩

theorem client_taken {s : ClientSettings} (h : ClientSettings.ofJson j = .ok s) :
    ClientTaken j s := by
  obtain ⟨fields, h, found⟩ := record_eq_ok h
  obtain ⟨_, backend, h⟩ := bind_eq_ok h
  obtain ⟨_, model, h⟩ := bind_eq_ok h
  obtain ⟨_, requestSeconds, h⟩ := bind_eq_ok h
  obtain ⟨_, maxRetries, h⟩ := bind_eq_ok h
  obtain ⟨_, initialMs, h⟩ := bind_eq_ok h
  obtain ⟨_, maxMs, h⟩ := bind_eq_ok h
  cases h
  exact ⟨withDefault_eq_ok (found _) backend, withDefault_eq_ok (found _) model,
    withDefault_eq_ok (found _) requestSeconds, withDefault_eq_ok (found _) maxRetries,
    withDefault_eq_ok (found _) initialMs, withDefault_eq_ok (found _) maxMs⟩

theorem settings_taken {s : Settings} (h : ofJson j = .ok s) :
    SettingsTaken j s := by
  obtain ⟨fields, h, found⟩ := record_eq_ok h
  obtain ⟨_, referencePath, h⟩ := bind_eq_ok h
  obtain ⟨_, outputDir, h⟩ := bind_eq_ok h
  obtain ⟨_, repair, h⟩ := bind_eq_ok h
  obtain ⟨_, compilers, h⟩ := bind_eq_ok h
  obtain ⟨_, client, h⟩ := bind_eq_ok h
  obtain ⟨_, _, h⟩ := bind_eq_ok h
  cases h
  exact ⟨withDefault_eq_ok (found _) referencePath, withDefault_eq_ok (found _) outputDir,
    withDefault_eq_ok (found _) repair, withDefault_eq_ok (found _) compilers,
    withDefault_eq_ok (found _) client⟩

end Sections

section Places

variable {α β : Type} {entry : Option Json} {place : α} {v : α} {item : Decoder α}
  {inner : Json → Option Json} {default : β} {read : Decoder β}

theorem taken_within (get : α → β) (h : Taken entry place item v) (agree : get place = default)
    (each : ∀ {j}, item j = .ok v → Taken (inner j) default read (get v)) :
    Taken (entry.bind inner) default read (get v) := by
  cases found : entry with
  | none => exact ⟨fun e => (by cases e), fun _ => by rw [h.absent found, agree]⟩
  | some j => exact each (h.read found)

end Places

namespace Setting

variable {document : Json} {s : Settings} {t : Setting}

theorem kept_of_taken {default : t.Value} {item : Decoder t.Value}
    (h : Taken (t.mentioned? document) default item (t.get s))
    (written : ∀ {j v}, item j = .ok v → t.Written j v) (same : t.get .default = default) :
    t.Kept document s :=
  ⟨fun _ found => written (h.read found), fun missing => (h.absent missing).trans same.symm⟩

theorem repair_kept
    (h : Taken (field? (topMember "repair") document) {} RepairSettings.ofJson s.repair) :
    ∀ t ∈ repairSettings, t.Kept document s := by
  have maxRetry := taken_within RepairSettings.maxRetry h rfl fun h => (repair_taken h).maxRetry
  have maxHistory :=
    taken_within RepairSettings.maxHistory h rfl fun h => (repair_taken h).maxHistory
  have comparison :=
    taken_within RepairSettings.comparison h rfl fun h => (repair_taken h).comparison
  simp only [repairSettings, List.forall_mem_cons]
  exact ⟨kept_of_taken maxRetry word_eq_ok rfl, kept_of_taken maxHistory word_eq_ok rfl,
    kept_of_taken comparison id rfl, List.forall_mem_nil _⟩

theorem client_kept
    (h : Taken (field? (topMember "client") document) {} ClientSettings.ofJson s.client) :
    ∀ t ∈ clientSettings, t.Kept document s := by
  have backend := taken_within ClientSettings.backend h rfl fun h => (client_taken h).backend
  have model := taken_within ClientSettings.model h rfl fun h => (client_taken h).model
  have requestSeconds :=
    taken_within ClientSettings.requestSeconds h rfl fun h => (client_taken h).requestSeconds
  have maxRetries :=
    taken_within ClientSettings.maxRetries h rfl fun h => (client_taken h).maxRetries
  have initialMs := taken_within ClientSettings.initialMs h rfl fun h => (client_taken h).initialMs
  have maxMs := taken_within ClientSettings.maxMs h rfl fun h => (client_taken h).maxMs
  simp only [clientSettings, List.forall_mem_cons]
  exact ⟨kept_of_taken backend string_eq_ok rfl, kept_of_taken model string_eq_ok rfl,
    kept_of_taken requestSeconds word_eq_ok rfl, kept_of_taken maxRetries word_eq_ok rfl,
    kept_of_taken initialMs word_eq_ok rfl, kept_of_taken maxMs word_eq_ok rfl,
    List.forall_mem_nil _⟩

/-- Every option has the same default for all compilers. -/
theorem compilerOptions_kept {name : String} {get : Settings → CompilerSettings}
    {language : Language}
    (h : Taken (follow? (compilerSection name) document) (.ofLanguage language)
      CompilerSettings.ofJson (get s)) (place : get .default = .ofLanguage language) :
    ∀ t ∈ compilerOptions name get, t.Kept document s := by
  have args := taken_within CompilerSettings.args h (by cases language <;> rfl)
    fun h => (compiler_taken h).args
  have compileSeconds := taken_within CompilerSettings.compileSeconds h
    (by cases language <;> rfl) fun h => (compiler_taken h).compileSeconds
  have runSeconds := taken_within CompilerSettings.runSeconds h (by cases language <;> rfl)
    fun h => (compiler_taken h).runSeconds
  have outputLimit := taken_within CompilerSettings.outputLimit h (by cases language <;> rfl)
    fun h => (compiler_taken h).outputLimit
  simp only [compilerOptions, List.forall_mem_cons]
  refine ⟨kept_of_taken args strings_eq_ok ?_, kept_of_taken compileSeconds word_eq_ok ?_,
    kept_of_taken runSeconds word_eq_ok ?_, kept_of_taken outputLimit word_eq_ok ?_,
    List.forall_mem_nil _⟩
  all_goals
    dsimp only [texts, number]
    rw [place]
    cases language <;> rfl

/-- What becomes of the C++ compiler: a section that lacks it has the Rust compiler. -/
structure CppCompilerKept (document : Json) (s : Settings) : Prop where
  written : ∀ j, cppCompiler.mentioned? document = some j → j = .str s.compilers.cpp.compiler
  without_section : follow? (compilerSection "cpp") document = none →
    s.compilers.cpp.compiler = "g++"
  without_compiler : follow? (compilerSection "cpp") document ≠ none →
    cppCompiler.mentioned? document = none → s.compilers.cpp.compiler = "rustc"

theorem kept_of_ofJson (h : ofJson document = .ok s) :
    (∀ t ∈ others, t.Kept document s) ∧ CppCompilerKept document s := by
  have sections := settings_taken h
  have rust : Taken (follow? (compilerSection "rust") document) (.ofLanguage .rust)
      CompilerSettings.ofJson s.compilers.rust :=
    taken_within CompilersSettings.rust sections.compilers rfl fun h => (compilers_taken h).rust
  have cpp : Taken (follow? (compilerSection "cpp") document) (.ofLanguage .cpp)
      CompilerSettings.ofJson s.compilers.cpp :=
    taken_within CompilersSettings.cpp sections.compilers rfl fun h => (compilers_taken h).cpp
  have rustCompiler := taken_within CompilerSettings.compiler rust rfl
    fun h => (compiler_taken h).compiler
  refine ⟨?_, ?_, ?_, ?_⟩
  -- The default of the record is the default of the place, so a missing section changes nothing.
  · simp only [others, List.forall_mem_append, List.forall_mem_cons]
    exact ⟨⟨⟨⟨⟨kept_of_taken sections.referencePath path_eq_ok rfl,
      kept_of_taken sections.outputDir path_eq_ok rfl,
      kept_of_taken rustCompiler string_eq_ok rfl, List.forall_mem_nil _⟩,
      repair_kept sections.repair⟩, compilerOptions_kept rust rfl⟩,
      compilerOptions_kept cpp rfl⟩, client_kept sections.client⟩
  -- For the C++ compiler they differ, so the two ways to leave it out are told apart.
  · intro j found
    obtain ⟨section_, present, found⟩ := Option.bind_eq_some_iff.1 found
    exact string_eq_ok ((compiler_taken (cpp.read present)).compiler.read found)
  · intro missing
    rw [cpp.absent missing]
    rfl
  · intro present missing
    obtain ⟨section_, present⟩ := Option.ne_none_iff_exists'.1 present
    refine (compiler_taken (cpp.read present)).compiler.absent ?_
    have missing : (follow? (compilerSection "cpp") document).bind
        (field? (compilerMember "compiler")) = none := missing
    rwa [present] at missing

end Setting

section Documents

variable {m : Member} {key : String} {change : Json → Json}

theorem get?_onField (fields : Keyed Json) (k : String) :
    Keyed.get? (fields.map fun f => if f.1 = key then (f.1, change f.2) else f) k =
      if k = key then (Keyed.get? fields k).map change else Keyed.get? fields k := by
  induction fields with
  | nil => simp
  | cons f fields ih =>
    obtain ⟨k', v⟩ := f
    have head : (if k' = key then (k', change v) else (k', v)) =
        (k', if k' = key then change v else v) := by split <;> rfl
    simp only [List.map_cons, head, Keyed.get?_cons, ih]
    by_cases here : k = k'
    · subst here
      by_cases same : k = key <;> simp [same]
    · simp [here]

theorem field?_onField_of_ne (h : m.2 ≠ key) (j : Json) :
    field? m (onField key change j) = field? m j := by
  cases j with
  | obj fields => exact (get?_onField fields m.2).trans (if_neg h)
  | _ => rfl

theorem bind_field?_onField {α : Type} {next : Json → Option α}
    (h : ∀ j, next (change j) = next j) (j : Json) :
    (field? m (onField key change j)).bind next = (field? m j).bind next := by
  cases j with
  | obj fields =>
    change (Keyed.get? _ m.2).bind next = (Keyed.get? fields m.2).bind next
    rw [get?_onField]
    split
    · cases Keyed.get? fields m.2 with
      | none => rfl
      | some j => exact h j
    · rfl
  | _ => rfl

theorem field?_listed (known : List Field) (j : Json) :
    field? (known.map (·.key), key) (listed known j) = field? (known.map (·.key), key) j := by
  cases j <;> rfl

def plain (document : Json) : Json :=
  onField "repair" (listed RepairSettings.known) <|
    onField "client" (listed ClientSettings.known) <|
    onField "toolchains" compilersOfDocument <|
    onField "backends" (onFields descriptorOfDocument) document

variable {document : Json}

theorem repair_plain (key : String) :
    follow? (Setting.ofRepair key) (plain document) =
      follow? (Setting.ofRepair key) document := by
  have seen (j : Json) : field? (repairMember key) (listed RepairSettings.known j) =
      field? (repairMember key) j := field?_listed _ j
  change (field? _ (plain document)).bind _ = (field? _ document).bind _
  rw [plain, bind_field?_onField seen, field?_onField_of_ne (by decide),
    field?_onField_of_ne (by decide), field?_onField_of_ne (by decide)]

theorem client_plain (key : String) :
    follow? (Setting.ofClient key) (plain document) =
      follow? (Setting.ofClient key) document := by
  have seen (j : Json) : field? (clientMember key) (listed ClientSettings.known j) =
      field? (clientMember key) j := field?_listed _ j
  change (field? _ (plain document)).bind _ = (field? _ document).bind _
  rw [plain, field?_onField_of_ne (by decide), bind_field?_onField seen,
    field?_onField_of_ne (by decide), field?_onField_of_ne (by decide)]

theorem compiler_plain {α : Type} {next : Json → Option α} {language : String}
    (known : language = "rust" ∨ language = "cpp")
    (seen : ∀ j, next (listed CompilerSettings.known j) = next j) :
    (follow? (Setting.compilerSection language) (plain document)).bind next =
      (follow? (Setting.compilerSection language) document).bind next := by
  have seen (j : Json) : (field? (languageMember language) (compilersOfDocument j)).bind next =
      (field? (languageMember language) j).bind next := by
    unfold compilersOfDocument
    obtain rfl | rfl := known
    · rw [bind_field?_onField seen, field?_onField_of_ne (by decide)]
      exact congrArg (·.bind next) (field?_listed ..)
    · rw [field?_onField_of_ne (by decide), bind_field?_onField seen]
      exact congrArg (·.bind next) (field?_listed ..)
  -- The section is looked up in two steps, and the lists inside it are only seen after both.
  change ((field? _ (plain document)).bind _).bind next = ((field? _ document).bind _).bind next
  rw [Option.bind_assoc, Option.bind_assoc, plain, field?_onField_of_ne (by decide),
    field?_onField_of_ne (by decide), bind_field?_onField seen, field?_onField_of_ne (by decide)]

theorem mentioned?_plain :
    ∀ t ∈ Setting.all, t.mentioned? (plain document) = t.mentioned? document := by
  have top {key : String} (h : key = "reference_path" ∨ key = "output_dir") :
      follow? [topMember key] (plain document) = follow? [topMember key] document := by
    change field? _ (plain document) = field? _ document
    obtain rfl | rfl := h <;>
    rw [plain, field?_onField_of_ne (by decide), field?_onField_of_ne (by decide),
      field?_onField_of_ne (by decide), field?_onField_of_ne (by decide)]
  have compiler {language : String} (known : language = "rust" ∨ language = "cpp")
      (key : String) : follow? (Setting.ofCompiler language key) (plain document) =
        follow? (Setting.ofCompiler language key) document :=
    compiler_plain known fun j => field?_listed CompilerSettings.known j
  have options {language : String} (known : language = "rust" ∨ language = "cpp")
      (get : Settings → CompilerSettings) : ∀ t ∈ Setting.compilerOptions language get,
        t.mentioned? (plain document) = t.mentioned? document := by
    simp only [Setting.compilerOptions, List.forall_mem_cons]
    exact ⟨compiler known _, compiler known _, compiler known _, compiler known _,
      List.forall_mem_nil _⟩
  simp only [Setting.all, Setting.others, Setting.repairSettings, Setting.clientSettings,
    List.forall_mem_append, List.forall_mem_cons]
  exact ⟨compiler (.inr rfl) _, ⟨⟨⟨⟨top (.inl rfl), top (.inr rfl), compiler (.inl rfl) _,
    List.forall_mem_nil _⟩, repair_plain _, repair_plain _, repair_plain _, List.forall_mem_nil _⟩,
    options (.inl rfl) _⟩, options (.inr rfl) _⟩, client_plain _, client_plain _, client_plain _,
    client_plain _, client_plain _, client_plain _, List.forall_mem_nil _⟩

theorem section_plain : follow? (Setting.compilerSection "cpp") (plain document) = none ↔
    follow? (Setting.compilerSection "cpp") document = none := by
  have seen : (follow? (Setting.compilerSection "cpp") (plain document)).bind (fun _ => some ()) =
      (follow? (Setting.compilerSection "cpp") document).bind fun _ => some () :=
    compiler_plain (.inr rfl) fun _ => rfl
  cases before : follow? (Setting.compilerSection "cpp") (plain document) <;>
  cases after : follow? (Setting.compilerSection "cpp") document <;>
  simp [before, after] at seen ⊢

theorem kept_of_plain {s : Settings}
    (h : (∀ t ∈ Setting.others, t.Kept (plain document) s) ∧
      Setting.CppCompilerKept (plain document) s) :
    (∀ t ∈ Setting.others, t.Kept document s) ∧ Setting.CppCompilerKept document s := by
  obtain ⟨others, cpp⟩ := h
  obtain ⟨sameCpp, same⟩ := List.forall_mem_cons.1 (@mentioned?_plain document)
  refine ⟨fun t ht => ?_, ?_, fun missing => ?_, fun present => ?_⟩
  · have kept := others t ht
    exact ⟨same t ht ▸ kept.written, same t ht ▸ kept.absent⟩
  · exact sameCpp ▸ cpp.written
  · exact cpp.without_section (section_plain.2 missing)
  · exact sameCpp ▸ cpp.without_compiler fun missing => present (section_plain.1 missing)

end Documents

/-- Settings that a document is accepted as: read from the value itself, or loaded from a file. -/
inductive Accepted (document : Json) (s : Settings) : Prop where
  | value (h : ofJson document = .ok s)
  | file {d read loaded : Disk} {path text : String} (present : d.exists? path = true)
      (content : d.readText path = (.ok text, read)) (parsed : Toml.parse? text = some document)
      (h : load d path = (.ok s, loaded))

theorem ofDocument_of_load {d read loaded : Disk} {path text : String} {document : Json}
    {s : Settings} (present : d.exists? path = true) (content : d.readText path = (.ok text, read))
    (parsed : Toml.parse? text = some document) (h : load d path = (.ok s, loaded)) :
    ofDocument document = .ok s := by
  unfold load at h
  rw [if_pos present, content] at h
  cases found : ofDocument document with
  | error e => simp [ofText?, parsed, found, Except.toOption] at h
  | ok accepted =>
    simp only [ofText?, parsed, found, Except.toOption, Option.bind_some] at h
    split at h
    · cases h
    · cases h
      rfl

theorem settings_default_where_omitted {document : Json} {s : Settings} (h : Accepted document s) :
    (∀ t ∈ Setting.others, t.Kept document s) ∧ Setting.CppCompilerKept document s := by
  cases h with
  | value h => exact Setting.kept_of_ofJson h
  | file present content parsed h =>
    have decoded : ofJson (plain document) = .ok s := ofDocument_of_load present content parsed h
    exact kept_of_plain (Setting.kept_of_ofJson decoded)

def limitDocument : Json :=
  .obj [("toolchains", .obj [("cpp", .obj [("run_timeout_secs", .int 5)])])]

def limitSettings : Settings :=
  { compilers := ⟨.ofLanguage .rust, { compiler := "rustc", runSeconds := 5 }⟩ }

theorem limit_settings_default_elsewhere :
    ofJson limitDocument = .ok limitSettings ∧
      (∀ t ∈ Setting.others, t.Kept limitDocument limitSettings) ∧
      Setting.CppCompilerKept limitDocument limitSettings :=
  ⟨rfl, settings_default_where_omitted (.value rfl)⟩

def limitText : String := "[toolchains.cpp]\nrun_timeout_secs = 5\n"

def limitDisk : Disk where
  nodes := [([], .directory), (["rustify.toml"], .file (Text.encode limitText) false)]
  home := []
  operation := 0
  outage := fun _ => none

theorem limit_replaces_cpp_compiler :
    ∃ document s loaded, Toml.parse? limitText = some document ∧
      load limitDisk defaultPath = (.ok s, loaded) ∧
      Setting.cppCompiler.mentioned? document = none ∧
      s.compilers.cpp.compiler = "rustc" ∧ Settings.default.compilers.cpp.compiler = "g++" ∧
      ¬ Setting.cppCompiler.Kept document s := by
  have parsed : (Toml.parse? limitText).map
      (fun document => (Setting.cppCompiler.mentioned? document).isNone) = some true := by
    decide +kernel
  have compiler : (load limitDisk defaultPath).1.toOption.map (·.compilers.cpp.compiler) =
      some "rustc" := by
    decide +kernel
  obtain ⟨document, parsed, missing⟩ := Option.map_eq_some_iff.1 parsed
  have missing := Option.isNone_iff_eq_none.1 missing
  rcases outcome : load limitDisk defaultPath with ⟨_ | s, loaded⟩
  · rw [outcome] at compiler
    cases compiler
  · rw [outcome] at compiler
    have compiler : s.compilers.cpp.compiler = "rustc" := Option.some.inj compiler
    refine ⟨document, s, loaded, parsed, rfl, missing, compiler, rfl, fun kept => ?_⟩
    have default : s.compilers.cpp.compiler = "g++" := kept.absent missing
    rw [compiler] at default
    exact absurd default (by decide)

end Anneal.Settings
