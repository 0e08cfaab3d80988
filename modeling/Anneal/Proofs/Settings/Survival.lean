import Anneal.Proofs.Artifact
import Anneal.Proofs.Backend.Descriptor
import Anneal.Proofs.Disk.Stored
import Anneal.Proofs.Settings.Omitted
import Anneal.Proofs.Toml.Printing

/-!
# Settings survive their document

Usable settings are read back, field by field, from the record and from the document that are
written of them. Settings that are not usable are not written at all.
-/

namespace Anneal

open Anneal.Json Anneal.Json.Decode

theorem Comparison.normal_toJson (epsilon : Float) :
    normal (Comparison.numericTolerance epsilon).toJson =
      .obj [("epsilon", .float epsilon), ("mode", .str "numeric_tolerance")] := by
  have hkeys : "epsilon" < "mode" := by decide
  simp [Comparison.toJson, normal, normalFields, Keyed.ofList, Keyed.merge, Keyed.put, hkeys]

theorem Comparison.ofJson_normal (c : Comparison) :
    Comparison.ofJson (normal c.toJson) = .ok c := by
  cases c with
  | exact => rfl
  | normalizedWhitespace => rfl
  | numericTolerance epsilon =>
    rw [Comparison.normal_toJson]
    rfl

theorem word_normal {n : Nat} {name : String} (h : n < Word.bound 63) :
    word 64 name (normal (.int n)) = .ok n :=
  takes_word (Nat.lt_trans h (by decide)) _ (.int _)

structure RepairSettings.Fits (s : RepairSettings) : Prop where
  maxRetry : s.maxRetry < Word.bound 32
  maxHistory : s.maxHistory < Word.bound 63

theorem RepairSettings.Fits.ofJson_normal {s : RepairSettings} (h : s.Fits) :
    RepairSettings.ofJson (normal s.toJson) = .ok s := by
  have hn : (Keyed.keys [("max_retry", Json.int s.maxRetry), ("max_history", .int s.maxHistory),
      ("comparison", s.comparison.toJson)]).Nodup := by simp [Keyed.keys]
  have maxRetry : Found _ "max_retry" word32 s.maxRetry :=
    found_normal hn (List.mem_of_getElem? (i := 0) rfl) (takes_word h.maxRetry _ (.int _))
  have maxHistory : Found _ "max_history" count s.maxHistory :=
    found_normal hn (List.mem_of_getElem? (i := 1) rfl) (word_normal h.maxHistory)
  have comparison : Found _ "comparison" Comparison.ofJson s.comparison :=
    found_normal hn (List.mem_of_getElem? (i := 2) rfl) s.comparison.ofJson_normal
  rw [RepairSettings.toJson, normal]
  apply record_obj
  · simp only [RepairSettings.known, List.forall_mem_cons]
    exact ⟨maxRetry.check, maxHistory.check, comparison.check, List.forall_mem_nil _⟩
  · dsimp only
    rw [maxRetry.withDefault, maxHistory.withDefault, comparison.withDefault]
    rfl

structure CompilerSettings.Fits (s : CompilerSettings) : Prop where
  compileSeconds : s.compileSeconds < Word.bound 63
  runSeconds : s.runSeconds < Word.bound 63
  outputLimit : s.outputLimit < Word.bound 63

theorem CompilerSettings.Fits.ofJson_normal {s : CompilerSettings} (h : s.Fits) :
    CompilerSettings.ofJson (normal s.toJson) = .ok s := by
  have hn : (Keyed.keys [("compiler", Json.str s.compiler), ("args", .arr (s.args.map Json.str)),
      ("compile_timeout_secs", .int s.compileSeconds), ("run_timeout_secs", .int s.runSeconds),
      ("output_limit_bytes", .int s.outputLimit)]).Nodup := by simp [Keyed.keys]
  have hargs : list string (normal (.arr (s.args.map Json.str))) = .ok s.args :=
    takes_list (fun _ _ => takes_str rfl) _ (.arr_normal (List.forall_mem_map.2 fun _ _ => .str _))
  have compiler : Found _ "compiler" string s.compiler :=
    found_normal hn (List.mem_of_getElem? (i := 0) rfl) rfl
  have args : Found _ "args" (list string) s.args :=
    found_normal hn (List.mem_of_getElem? (i := 1) rfl) hargs
  have compileSeconds : Found _ "compile_timeout_secs" word64 s.compileSeconds :=
    found_normal hn (List.mem_of_getElem? (i := 2) rfl) (word_normal h.compileSeconds)
  have runSeconds : Found _ "run_timeout_secs" word64 s.runSeconds :=
    found_normal hn (List.mem_of_getElem? (i := 3) rfl) (word_normal h.runSeconds)
  have outputLimit : Found _ "output_limit_bytes" count s.outputLimit :=
    found_normal hn (List.mem_of_getElem? (i := 4) rfl) (word_normal h.outputLimit)
  rw [CompilerSettings.toJson, normal]
  apply record_obj
  · simp only [CompilerSettings.known, List.forall_mem_cons]
    exact ⟨compiler.check, args.check, compileSeconds.check, runSeconds.check, outputLimit.check,
      List.forall_mem_nil _⟩
  · dsimp only
    rw [compiler.withDefault, args.withDefault, compileSeconds.withDefault, runSeconds.withDefault,
      outputLimit.withDefault]
    rfl

structure CompilersSettings.Fits (s : CompilersSettings) : Prop where
  rust : s.rust.Fits
  cpp : s.cpp.Fits

theorem CompilersSettings.Fits.ofJson_normal {s : CompilersSettings} (h : s.Fits) :
    CompilersSettings.ofJson (normal s.toJson) = .ok s := by
  have hn : (Keyed.keys [("rust", s.rust.toJson), ("cpp", s.cpp.toJson)]).Nodup := by
    simp [Keyed.keys]
  have rust : Found _ "rust" CompilerSettings.ofJson s.rust :=
    found_normal hn (List.mem_of_getElem? (i := 0) rfl) h.rust.ofJson_normal
  have cpp : Found _ "cpp" CompilerSettings.ofJson s.cpp :=
    found_normal hn (List.mem_of_getElem? (i := 1) rfl) h.cpp.ofJson_normal
  rw [CompilersSettings.toJson, normal]
  apply record_obj
  · simp only [CompilersSettings.known, List.forall_mem_cons]
    exact ⟨rust.check, cpp.check, List.forall_mem_nil _⟩
  · dsimp only
    rw [rust.withDefault, cpp.withDefault]
    rfl

structure ClientSettings.Fits (s : ClientSettings) : Prop where
  requestSeconds : s.requestSeconds < Word.bound 63
  maxRetries : s.maxRetries < Word.bound 32
  initialMs : s.initialMs < Word.bound 63
  maxMs : s.maxMs < Word.bound 63

theorem ClientSettings.Fits.ofJson_normal {s : ClientSettings} (h : s.Fits) :
    ClientSettings.ofJson (normal s.toJson) = .ok s := by
  have hn : (Keyed.keys [("backend", Json.str s.backend), ("model", .str s.model),
      ("request_timeout_secs", .int s.requestSeconds), ("max_retries", .int s.maxRetries),
      ("initial_backoff_ms", .int s.initialMs), ("max_backoff_ms", .int s.maxMs)]).Nodup := by
    simp [Keyed.keys]
  have backend : Found _ "backend" string s.backend :=
    found_normal hn (List.mem_of_getElem? (i := 0) rfl) rfl
  have model : Found _ "model" string s.model :=
    found_normal hn (List.mem_of_getElem? (i := 1) rfl) rfl
  have requestSeconds : Found _ "request_timeout_secs" word64 s.requestSeconds :=
    found_normal hn (List.mem_of_getElem? (i := 2) rfl) (word_normal h.requestSeconds)
  have maxRetries : Found _ "max_retries" word32 s.maxRetries :=
    found_normal hn (List.mem_of_getElem? (i := 3) rfl) (takes_word h.maxRetries _ (.int _))
  have initialMs : Found _ "initial_backoff_ms" word64 s.initialMs :=
    found_normal hn (List.mem_of_getElem? (i := 4) rfl) (word_normal h.initialMs)
  have maxMs : Found _ "max_backoff_ms" word64 s.maxMs :=
    found_normal hn (List.mem_of_getElem? (i := 5) rfl) (word_normal h.maxMs)
  rw [ClientSettings.toJson, normal]
  apply record_obj
  · simp only [ClientSettings.known, List.forall_mem_cons]
    exact ⟨backend.check, model.check, requestSeconds.check, maxRetries.check, initialMs.check,
      maxMs.check, List.forall_mem_nil _⟩
  · dsimp only
    rw [backend.withDefault, model.withDefault, requestSeconds.withDefault, maxRetries.withDefault,
      initialMs.withDefault, maxMs.withDefault]
    rfl

namespace Settings

/-- The numbers of the settings fit into their words and into those of a document, and each
descriptor is one that a program can hold. -/
structure Fits (s : Settings) : Prop where
  repair : s.repair.Fits
  compilers : s.compilers.Fits
  client : s.client.Fits
  backends : s.backends.Ordered
  descriptor : ∀ e ∈ s.backends, e.2.Fits

def entries (descriptor : Descriptor → Json) (s : Settings) : List (String × Json) :=
  [("reference_path", .str s.referencePath), ("output_dir", .str s.outputDir),
    ("repair", s.repair.toJson), ("toolchains", s.compilers.toJson), ("client", s.client.toJson),
    ("backends", .obj (s.backends.map fun e => (e.1, descriptor e.2)))]

variable {s : Settings} {descriptor : Descriptor → Json}

theorem nodup_entries (descriptor : Descriptor → Json) (s : Settings) :
    (Keyed.keys (s.entries descriptor)).Nodup := by
  simp [Keyed.keys, entries]

theorem Fits.ofJson_normal (h : s.Fits)
    (hd : ∀ e ∈ s.backends, Descriptor.ofJson (normal (descriptor e.2)) = .ok e.2) :
    ofJson (normal (s.recordWith descriptor)) = .ok s := by
  have hn := s.nodup_entries descriptor
  have referencePath : Found _ "reference_path" path s.referencePath :=
    found_normal hn (List.mem_of_getElem? (i := 0) rfl) rfl
  have outputDir : Found _ "output_dir" path s.outputDir :=
    found_normal hn (List.mem_of_getElem? (i := 1) rfl) rfl
  have repair : Found _ "repair" RepairSettings.ofJson s.repair :=
    found_normal hn (List.mem_of_getElem? (i := 2) rfl) h.repair.ofJson_normal
  have compilers : Found _ "toolchains" CompilersSettings.ofJson s.compilers :=
    found_normal hn (List.mem_of_getElem? (i := 3) rfl) h.compilers.ofJson_normal
  have client : Found _ "client" ClientSettings.ofJson s.client :=
    found_normal hn (List.mem_of_getElem? (i := 4) rfl) h.client.ofJson_normal
  have backends : Found _ "backends" (table Descriptor.ofJson) s.backends :=
    found_normal hn (List.mem_of_getElem? (i := 5) rfl) (table_normal h.backends hd)
  show ofJson (normal (.obj (s.entries descriptor))) = .ok s
  rw [normal]
  apply record_obj
  · simp only [List.forall_mem_cons]
    exact ⟨referencePath.check, outputDir.check, repair.check, compilers.check, client.check,
      backends.check, List.forall_mem_nil _⟩
  · dsimp only
    rw [referencePath.withDefault, outputDir.withDefault, repair.withDefault,
      compilers.withDefault, client.withDefault, backends.withDefault]
    rfl

theorem Fits.ofJson_toJson (h : s.Fits) : ofJson (normal s.toJson) = .ok s :=
  h.ofJson_normal fun e he => by
    rw [Descriptor.toJson_eq]
    exact (h.descriptor e he).ofJson_normal e.2.written_fields

def documentFields (d : Descriptor) : List (String × Json) :=
  d.fields.filter fun f => match f.2 with
    | .null => false
    | _ => true

theorem withoutNulls_eq (d : Descriptor) : withoutNulls d.toJson = .obj (documentFields d) := by
  rw [Descriptor.toJson_eq]
  rfl

theorem mem_documentFields {d : Descriptor} {e : String × Json} :
    e ∈ documentFields d ↔ e ∈ d.fields ∧ e.2 ≠ .null := by
  obtain ⟨key, j⟩ := e
  rw [documentFields, List.mem_filter]
  cases j <;> simp

theorem written_documentFields (d : Descriptor) : Descriptor.Written d (documentFields d) where
  nodup := d.nodup_fields.sublist (List.filter_sublist.map _)
  sound _ he := (mem_documentFields.1 he).1
  kept e he := by
    by_cases hnull : e.2 = .null
    · exact .inl hnull
    · exact .inr (mem_documentFields.2 ⟨he, hnull⟩)

section Plain

variable {key : String} {change : Json → Json} {es : List (String × Json)} {j : Json}

theorem onField_normal (hn : (Keyed.keys es).Nodup) (he : (key, j) ∈ es)
    (hc : change (normal j) = normal j) :
    onField key change (normal (.obj es)) = normal (.obj es) := by
  rw [normal, onField]
  congr 1
  refine (List.map_congr_left fun f hf => ?_).trans (List.map_id _)
  split
  next hkey =>
    obtain ⟨j', hj', hvalue⟩ := of_mem_normal hf
    obtain rfl := Keyed.value_unique hn he (hkey ▸ hj')
    rw [hvalue, hc, ← hvalue, id]
  · rfl

theorem descriptor_plain (d : Descriptor) :
    descriptorOfDocument (normal (withoutNulls d.toJson)) = normal (withoutNulls d.toJson) := by
  have hn := (written_documentFields d).nodup
  have hshape : ("shape", Json.str d.shape.tag) ∈ documentFields d :=
    mem_documentFields.2 ⟨by simp [Descriptor.fields], by simp⟩
  have hframing : ("framing", Json.str d.framing.tag) ∈ documentFields d :=
    mem_documentFields.2 ⟨by simp [Descriptor.fields], by simp⟩
  have hname (s : String) : variantName (normal (.str s)) = normal (.str s) := rfl
  rw [withoutNulls_eq]
  show onField "framing" variantName (onField "shape" variantName (normal (.obj _))) = _
  rw [onField_normal hn hshape (hname _), onField_normal hn hframing (hname _)]

theorem backends_plain (ho : s.backends.Ordered) :
    onFields descriptorOfDocument
        (normal (.obj (s.backends.map fun e => (e.1, withoutNulls e.2.toJson)))) =
      normal (.obj (s.backends.map fun e => (e.1, withoutNulls e.2.toJson))) := by
  rw [normal_of_ordered (ho.mapValues fun d => withoutNulls d.toJson), onFields]
  simp only [List.map_map]
  exact congrArg Json.obj
    (List.map_congr_left fun e _ => congrArg (Prod.mk e.1) (descriptor_plain e.2))

theorem compilers_plain (s : CompilersSettings) :
    compilersOfDocument (normal s.toJson) = normal s.toJson := by
  have hn : (Keyed.keys [("rust", s.rust.toJson), ("cpp", s.cpp.toJson)]).Nodup := by
    simp [Keyed.keys]
  have hlisted (s : CompilerSettings) :
      listed CompilerSettings.known (normal s.toJson) = normal s.toJson := rfl
  show onField "rust" _ (onField "cpp" _ (normal (.obj _))) = normal (.obj _)
  rw [onField_normal hn (List.mem_of_getElem? (i := 1) rfl) (hlisted _),
    onField_normal hn (List.mem_of_getElem? (i := 0) rfl) (hlisted _)]

end Plain

/-- No list stands for a record in a document that was written. -/
theorem Fits.plain_normal (h : s.Fits) : plain (normal s.toDocument) = normal s.toDocument := by
  let es := s.entries fun d => withoutNulls d.toJson
  have hn : (Keyed.keys es).Nodup := s.nodup_entries _
  have hrepair : ("repair", s.repair.toJson) ∈ es := List.mem_of_getElem? (i := 2) rfl
  have hclient : ("client", s.client.toJson) ∈ es := List.mem_of_getElem? (i := 4) rfl
  have hcompilers : ("toolchains", s.compilers.toJson) ∈ es :=
    List.mem_of_getElem? (i := 3) rfl
  have hbackends : ("backends",
      Json.obj (s.backends.map fun e => (e.1, withoutNulls e.2.toJson))) ∈ es :=
    List.mem_of_getElem? (i := 5) rfl
  have hlisted (known : List Field) (fields : List (String × Json)) :
      listed known (normal (.obj fields)) = normal (.obj fields) := rfl
  show plain (normal (.obj es)) = normal (.obj es)
  rw [plain, onField_normal hn hbackends (backends_plain h.backends),
    onField_normal hn hcompilers (compilers_plain _), onField_normal hn hclient (hlisted _ _),
    onField_normal hn hrepair (hlisted _ _)]

theorem Fits.ofDocument_toDocument (h : s.Fits) : ofDocument (normal s.toDocument) = .ok s := by
  show ofJson (plain (normal s.toDocument)) = .ok s
  rw [h.plain_normal]
  refine h.ofJson_normal fun e he => ?_
  rw [withoutNulls_eq]
  exact (h.descriptor e he).ofJson_normal (written_documentFields e.2)

section Solid

open Toml (Solid)

theorem solid_comparison (c : Comparison) : Solid c.toJson := by
  cases c with
  | exact => exact .obj (by simp [Solid.str])
  | normalizedWhitespace => exact .obj (by simp [Solid.str])
  | numericTolerance epsilon => exact .obj (by simp [Solid.str, Solid.float])

theorem solid_compiler (s : CompilerSettings) : Solid s.toJson := by
  have hargs : Solid (.arr (s.args.map Json.str)) := .arr (List.forall_mem_map.2 fun _ _ => .str _)
  refine .obj ?_
  simp only [List.forall_mem_cons]
  exact ⟨.str _, hargs, .int _, .int _, .int _, List.forall_mem_nil _⟩

theorem solid_parameter {j : Json} (h : Descriptor.Parameter j) : Solid j := by
  induction h with
  | bool b => exact .bool b
  | int => exact .int _
  | float => exact .float _
  | str s => exact .str s
  | arr _ ih => exact .arr ih
  | obj _ _ ih => exact .obj ih

theorem solid_ofOptionText {o : Option String} (h : ofOptionText o ≠ .null) :
    Solid (ofOptionText o) := by
  cases o with
  | none => exact absurd rfl h
  | some s => exact .str s

theorem solid_descriptor {d : Descriptor} (h : d.Fits) : Solid (withoutNulls d.toJson) := by
  rw [withoutNulls_eq]
  refine .obj fun e he => ?_
  obtain ⟨hmem, hnull⟩ := mem_documentFields.1 he
  simp only [Descriptor.fields, List.mem_cons, List.not_mem_nil, or_false] at hmem
  rcases hmem with rfl | rfl | rfl | rfl | rfl | rfl | rfl | rfl | rfl | rfl
  · exact .str _
  · exact .str _
  · exact .obj (List.forall_mem_map.2 fun _ _ => .str _)
  · exact .str _
  · exact .str _
  · exact .str _
  · exact .str _
  · exact .obj fun e he => solid_parameter (h.parameter e he)
  · exact solid_ofOptionText hnull
  · exact solid_ofOptionText hnull

theorem Fits.solid_toDocument (h : s.Fits) : Solid s.toDocument := by
  have hrepair : Solid s.repair.toJson := by
    refine .obj ?_
    simp only [List.forall_mem_cons]
    exact ⟨.int _, .int _, solid_comparison _, List.forall_mem_nil _⟩
  have hcompilers : Solid s.compilers.toJson := by
    refine .obj ?_
    simp only [List.forall_mem_cons]
    exact ⟨solid_compiler _, solid_compiler _, List.forall_mem_nil _⟩
  have hclient : Solid s.client.toJson := by
    refine .obj ?_
    simp only [List.forall_mem_cons]
    exact ⟨.str _, .str _, .int _, .int _, .int _, .int _, List.forall_mem_nil _⟩
  refine .obj ?_
  simp only [List.forall_mem_cons]
  exact ⟨.str _, .str _, hrepair, hcompilers, hclient,
    .obj (List.forall_mem_map.2 fun e he => solid_descriptor (h.descriptor e he)),
    List.forall_mem_nil _⟩

theorem Fits.text?_eq_some (h : s.Fits) : ∃ text, s.text? = some text := by
  obtain ⟨text, htext⟩ := h.solid_toDocument.render?
  exact ⟨text ++ "\n", by rw [text?, htext, Option.map_some]⟩

end Solid

section Files

variable {d d' : Disk} {path text : String} {document : Json}

theorem write_invalid {c : Complaint} (h : s.complaint? = some c) :
    write d path s = (.error (.invalid c), d) := by
  rw [write, h]

theorem holds_of_write (htext : s.text? = some text) (h : write d path s = (.ok (), d')) :
    d'.Holds path (Text.encode text) := by
  unfold write at h
  split at h
  · cases h
  · rw [htext] at h
    dsimp only at h
    split at h
    next hw =>
      cases h
      exact Artifact.writeAtomic_holds hw
    · cases h

theorem load_eq_ok {read : String} (hd : d.Holds path (Text.encode text))
    (hparse : Toml.parse? text = some document) (hs : ofDocument document = .ok s)
    (hvalid : s.complaint? = none) (hread : d.readText path = (.ok read, d')) :
    load d path = (.ok s, d') := by
  obtain rfl := hd.of_readText hread
  rw [load, if_pos hd.exists?, hread]
  simp only [ofText?, hparse, Option.bind_some, hs, Except.toOption, hvalid]

end Files

/-- Settings that come back from what is written of them. That the text of a document is read as the
document is left to the reader of the format. -/
structure Survives (s : Settings) : Prop where
  record : ofJson (normal s.toJson) = .ok s
  document : ofDocument (normal s.toDocument) = .ok s
  file : ∃ text, s.text? = some text ∧ ∀ {d d' : Disk} {path : String},
    write d path s = (.ok (), d') → d'.Holds path (Text.encode text) ∧
      (Toml.parse? text = some (normal s.toDocument) → ∀ {read : String} {d'' : Disk},
        d'.readText path = (.ok read, d'') → load d' path = (.ok s, d''))

theorem usable_settings_survive (s : Settings) :
    (∀ c, s.complaint? = some c → ∀ d path, write d path s = (.error (.invalid c), d)) ∧
      (s.complaint? = none → s.Fits → s.Survives) := by
  refine ⟨fun c hc d path => write_invalid hc, fun hvalid h => ⟨h.ofJson_toJson,
    h.ofDocument_toDocument, ?_⟩⟩
  obtain ⟨text, htext⟩ := h.text?_eq_some
  refine ⟨text, htext, fun hwrite => ?_⟩
  have hd := holds_of_write htext hwrite
  exact ⟨hd, fun hparse _ _ hread => load_eq_ok hd hparse h.ofDocument_toDocument hvalid hread⟩

def localBackend : Descriptor where
  baseUrl := "http://localhost:8080/"
  endpoint := "/v1/complete"
  headers := [("Authorization", "Bearer \x7bapi_key\x7d"), ("Content-Type", "application/json")]
  promptField := "input"
  responseField := ⟨"choices[0].text", [.key "choices", .index 0, .key "text"]⟩
  shape := .text
  framing := .json
  params :=
    [("options", .obj [("seed", .int (-7)), ("stop", .arr [.str "\n", .str "\"\"\""])]),
      ("top_p", .float 0.9)]
  apiKeyEnv := some "LOCAL_KEY"
  model := none

def localSettings : Settings where
  repair := { comparison := .numericTolerance 0.001 }
  compilers := ⟨.ofLanguage .rust, { compiler := "g++", args := ["-O2"] }⟩
  backends := [("local", localBackend)]

theorem localBackend_fits : localBackend.Fits where
  headers := List.pairwise_pair.2 (by decide)
  responseField := by decide +kernel
  params := List.pairwise_pair.2 (by decide)
  parameter := by
    have hstop : Descriptor.Parameter (.arr [.str "\n", .str "\"\"\""]) :=
      .arr (by simp [Descriptor.Parameter.str])
    have hoptions : Descriptor.Parameter
        (.obj [("seed", .int (-7)), ("stop", .arr [.str "\n", .str "\"\"\""])]) := by
      refine .obj (List.pairwise_pair.2 (by decide)) ?_
      simp only [List.forall_mem_cons]
      exact ⟨.int (by decide) (by decide), hstop, List.forall_mem_nil _⟩
    simp only [localBackend, List.forall_mem_cons]
    exact ⟨hoptions, .float (by decide +kernel), List.forall_mem_nil _⟩

theorem localSettings_fits : localSettings.Fits where
  repair := ⟨by decide, by decide⟩
  compilers := ⟨⟨by decide, by decide, by decide⟩, ⟨by decide, by decide, by decide⟩⟩
  client := ⟨by decide, by decide, by decide, by decide⟩
  backends := List.pairwise_singleton _ _
  descriptor := by
    rw [localSettings, List.forall_mem_singleton]
    exact localBackend_fits

theorem localSettings_survive :
    localSettings.complaint? = none ∧ localSettings.Fits ∧ localSettings.Survives ∧
      ∃ text d, localSettings.text? = some text ∧
        write Disk.empty "rustify.toml" localSettings = (.ok (), d) ∧
        d.Holds "rustify.toml" (Text.encode text) := by
  have hvalid : localSettings.complaint? = none := by decide +kernel
  have hsurvives := (usable_settings_survive localSettings).2 hvalid localSettings_fits
  refine ⟨hvalid, localSettings_fits, hsurvives, ?_⟩
  obtain ⟨text, htext, hwrites⟩ := hsurvives.file
  have hwritten : (write Disk.empty "rustify.toml" localSettings).1.isOk = true := by
    decide +kernel
  rcases hrun : write Disk.empty "rustify.toml" localSettings with ⟨_ | _, d⟩
  · rw [hrun] at hwritten
    cases hwritten
  · exact ⟨text, d, htext, rfl, (hwrites hrun).1⟩

end Settings
end Anneal
