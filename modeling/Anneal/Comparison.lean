import Anneal.Json.Decode
import Anneal.Decimal.Reading

/-!
# Comparing program outputs

A comparison says when the output of the candidate counts as the output of the reference. The
policies grow more lenient: equal up to surrounding blanks, equal word by word, and word by word
with numbers allowed to differ by a tolerance.
-/

namespace Anneal

open Anneal.Text

inductive Comparison where
  | exact
  | normalizedWhitespace
  | numericTolerance (epsilon : Float)
  deriving Repr, DecidableEq

instance : Inhabited Comparison := ⟨.exact⟩

namespace Comparison

def wordsMatch (epsilon : Float) (a b : List Char) : Bool :=
  a == b || match Decimal.read? a, Decimal.read? b with
    | some x, some y => (x - y).abs ≤ epsilon
    | _, _ => false

def allWordsMatch (epsilon : Float) : List (List Char) → List (List Char) → Bool
  | [], [] => true
  | a :: as, b :: bs => wordsMatch epsilon a b && allWordsMatch epsilon as bs
  | _, _ => false

def accepts (policy : Comparison) (candidate reference : String) : Bool :=
  match policy with
  | .exact => trim candidate == trim reference
  | .normalizedWhitespace => words candidate.toList == words reference.toList
  | .numericTolerance epsilon =>
    allWordsMatch epsilon (words candidate.toList) (words reference.toList)

def isUsable : Comparison → Bool
  | .numericTolerance epsilon => epsilon.isFinite && 0.0 ≤ epsilon
  | _ => true

/-- What is wrong with a policy that is not usable. -/
def complaint? (policy : Comparison) : Option String :=
  match policy with
  | .numericTolerance epsilon =>
    if policy.isUsable then none
    else some ("comparison epsilon must be a finite non-negative number, got " ++
      Decimal.Layout.message.render epsilon)
  | _ => none

def modes : List String := ["exact", "normalized_whitespace", "numeric_tolerance"]

def toJson : Comparison → Json
  | .exact => .obj [("mode", .str "exact")]
  | .normalizedWhitespace => .obj [("mode", .str "normalized_whitespace")]
  | .numericTolerance epsilon =>
    .obj [("mode", .str "numeric_tolerance"), ("epsilon", .float epsilon)]

def ofMode (tolerance : Except Json.Mismatch Float) :
    Json → Except Json.Mismatch Comparison
  | .str "exact" => .ok .exact
  | .str "normalized_whitespace" => .ok .normalizedWhitespace
  | .str "numeric_tolerance" => tolerance.map .numericTolerance
  | .str other => .error (.unknownVariant other modes)
  | j => .error (.wrongType j "variant identifier")

def parameterCount : Comparison → Nat
  | .numericTolerance _ => 1
  | _ => 0

def ofTagged : Json.Decoder Comparison
  | .obj fields => match Keyed.get? fields "mode" with
    | none => .error (.missingField "mode")
    | some mode => ofMode (Json.Decode.required fields "epsilon" Json.Decode.float) mode
  | .arr [] => .error (.missingField "mode")
  | .arr (mode :: rest) =>
    let tolerance := match rest with
      | [] => .error (.wrongLength 0 "struct variant ComparisonPolicy::NumericTolerance with 1 element")
      | j :: _ => Json.Decode.float j
    match ofMode tolerance mode with
    | .error e => .error e
    | .ok policy =>
      if policy.parameterCount < rest.length then
        .error (.wrongLength rest.length
          (Json.Decode.fieldCount policy.parameterCount ++ " in sequence"))
      else .ok policy
  | j => .error (.wrongType j "internally tagged enum ComparisonPolicy")

/-- Reads a policy. All of its parts, ignored ones too, have to be values that JSON can hold. -/
def ofJson (j : Json) : Except Json.Mismatch Comparison :=
  match Json.Decode.json j with
  | .error e => .error e
  | .ok _ => ofTagged j

end Comparison
end Anneal
