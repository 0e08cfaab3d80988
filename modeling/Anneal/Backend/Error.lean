import Anneal.Json.FieldPath

/-!
# Failures of a model backend

Failures of the network and statuses that ask to come back later are transient; all others are
final.
-/

namespace Anneal

inductive ClientError where
  | unknownBackend (backend : String)
  | configuration (backend reason : String)
  | transport (backend message : String)
  | httpStatus (backend : String) (status : Nat) (body : String)
  | missingField (backend : String) (source : FieldPathError)
  | malformed (backend message : String)
  deriving DecidableEq, Repr

namespace ClientError

def message : ClientError → String
  | unknownBackend backend => s!"backend `{backend}` is not registered"
  | configuration backend reason => s!"backend `{backend}` is misconfigured: {reason}"
  | transport backend message => s!"transport failure calling `{backend}`: {message}"
  | httpStatus backend status body => s!"backend `{backend}` returned HTTP {status}: {body}"
  | missingField backend source =>
    s!"backend `{backend}` returned an unusable response: {source.message}"
  | malformed backend message => s!"backend `{backend}` returned malformed JSON: {message}"

def chain : ClientError → String
  | missingField backend source =>
    (missingField backend source).message ++ ": " ++ source.message
  | e => e.message

def isTransientStatus (status : Nat) : Bool := status = 429 || 500 ≤ status

def isTransient : ClientError → Bool
  | transport _ _ => true
  | httpStatus _ status _ => isTransientStatus status
  | _ => false

def isConfiguration : ClientError → Bool
  | unknownBackend _ => true
  | configuration _ _ => true
  | _ => false

end ClientError
end Anneal
