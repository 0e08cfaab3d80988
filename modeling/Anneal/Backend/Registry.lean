import Anneal.Backend.Exchange
import Anneal.Backend.Http
import Anneal.Backend.Retry

/-!
# The backend registry and HTTP calls

A registry maps names to backends whose headers have been filled in. A call builds its request
once and sends it until it succeeds or fails for good. How a request travels is up to the
connection.
-/

namespace Anneal

structure Registered where
  descriptor : Descriptor
  model : String
  headers : List (String × String)

structure Client (σ : Type) where
  shape : String → Except ClientError PromptShape
  complete : String → Prompt → CompletionOptions → World σ →
    Except ClientError String × World σ

structure Registry where
  backends : Keyed Registered
  retry : RetryPolicy
  defaultModel : String

namespace Registry

def new (retry : RetryPolicy) (defaultModel : String) : Registry := ⟨[], retry, defaultModel⟩

def missingKeyReason (d : Descriptor) : String :=
  match d.apiKeyEnv with
  | some var => s!"environment variable {var} is not set"
  | none => "no API key configured"

def register (r : Registry) (name : String) (d : Descriptor) (key : Option String) :
    Except ClientError Registry :=
  if d.needsKey && key.isNone then .error (.configuration name (missingKeyReason d))
  else .ok { r with
    backends := r.backends.put name ⟨d, d.model.getD r.defaultModel, d.filledHeaders key⟩ }

def names (r : Registry) : List String := Keyed.keys r.backends

def find (r : Registry) (name : String) : Except ClientError Registered :=
  match Keyed.get? r.backends name with
  | some b => .ok b
  | none => .error (.unknownBackend name)

def shape (r : Registry) (name : String) : Except ClientError PromptShape :=
  (r.find name).map fun b => b.descriptor.shape

/-- Registers each of the descriptors whose key, if it names one, the environment has. The others
are left out. -/
def registerAll (r : Registry) (env : String → Option String) (descriptors : Keyed Descriptor) :
    Registry :=
  descriptors.foldl
    (fun r e => match r.register e.1 e.2 (e.2.apiKeyEnv.bind env) with
      | .ok r => r
      | .error _ => r)
    r

end Registry

namespace Http

def outcome (name : String) (d : Descriptor) :
    Except String Response → Except ClientError String
  | .error message => .error (.transport name message)
  | .ok response =>
    if isSuccess response.status then Backend.responseText name d response.body
    else .error (.httpStatus name response.status response.body)

def send {σ : Type} (connection : Connection σ) (name : String) (b : Registered) (body : Json)
    (w : World σ) : Except ClientError String × World σ :=
  let r := connection ⟨b.descriptor.url, b.headers, body⟩ w
  (outcome name b.descriptor r.1, r.2)

end Http

namespace Registry

def complete {σ : Type} (r : Registry) (connection : Http.Connection σ) (name : String)
    (prompt : Prompt) (options : CompletionOptions) (w : World σ) :
    Except ClientError String × World σ :=
  match r.find name with
  | .error e => (.error e, w)
  | .ok b =>
    match Backend.requestBody name b.descriptor b.model prompt options with
    | .error e => (.error e, w)
    | .ok body => r.retry.run (Http.send connection name b body) w

def client {σ : Type} (r : Registry) (connection : Http.Connection σ) : Client σ :=
  ⟨r.shape, r.complete connection⟩

end Registry
end Anneal
