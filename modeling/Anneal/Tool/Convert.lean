import Anneal.Artifact
import Anneal.Conversation.Agent
import Anneal.Prompts
import Anneal.Reply.Extraction

/-!
# Converting the reference

The reference program is shown to the model; the program in its reply becomes the candidate, and
the manifest, if there is one, is stored beside it.
-/

namespace Anneal.Convert

structure Target where
  referencePath : String
  codePath : String
  manifestPath : String
  deriving DecidableEq, Repr

structure Converted where
  code : String
  manifest : Option String
  codePath : String
  manifestPath : Option String
  warnings : List String
  deriving DecidableEq, Repr

inductive Error where
  | readReference (path : String) (cause : OsError)
  | backend (cause : ClientError)
  | noCode (cause : Reply.ExtractionError)
  | persist (path : String) (cause : OsError)
  deriving DecidableEq, Repr

def Error.message : Error → String
  | .readReference path cause => s!"read reference {path}: {cause.message}"
  | .backend cause => cause.chain
  | .noCode cause => s!"completion has no Rust code: {cause.message}"
  | .persist path cause => s!"write {path}: {cause.message}"

def options : CompletionOptions := ⟨2000, 0.2, []⟩

def notedLength : Nat := 500

def conversionNote (code : String) : String :=
  "Previously generated Rust code:\n" ++ Text.preview code notedLength

variable {σ : Type}

def persist (path text : String) (w : World σ) : Except Error Unit × World σ :=
  match w.onDisk fun d => Artifact.writeAtomic d path (Artifact.sourceText text) with
  | (.ok (), w) => (.ok (), w)
  | (.error e, w) => (.error (.persist path e), w)

def persistManifest (target : Target) (manifest : Option String) (w : World σ) :
    Except Error (Option String) × World σ :=
  match manifest with
  | none => (.ok none, w)
  | some text => match persist target.manifestPath text w with
    | (.ok (), w) => (.ok (some target.manifestPath), w)
    | (.error e, w) => (.error e, w)

def persistAll (target : Target) (found : Reply.Extracted) (w : World σ) :
    Except Error Converted × World σ :=
  match persist target.codePath found.code w with
  | (.error e, w) => (.error e, w)
  | (.ok (), w) =>
    match persistManifest target found.auxiliary w with
    | (.error e, w) => (.error e, w)
    | (.ok manifestPath, w) =>
      (.ok ⟨found.code, found.auxiliary, target.codePath, manifestPath, found.warnings⟩, w)

def convert (client : Client σ) (target : Target) (instruction : Option String) (a : Agent)
    (w : World σ) : Except Error Converted × Agent × World σ :=
  match w.onDisk fun d => d.readText target.referencePath with
  | (.error e, w) => (.error (.readReference target.referencePath e), a, w)
  | (.ok reference, w) =>
    let prompt := Prompts.convert ⟨target.referencePath, reference⟩ instruction
    match a.chat client prompt options w with
    | (.error e, a, w) => (.error (.backend e), a, w)
    | (.ok reply, a, w) =>
      match Reply.extract reply .conversion with
      | .error e => (.error (.noCode e), a, w)
      | .ok found =>
        match persistAll target found w with
        | (.error e, w) => (.error e, a, w)
        | (.ok converted, w) => (.ok converted, a.annotate (conversionNote found.code), w)

end Anneal.Convert
