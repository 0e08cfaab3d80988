import Anneal.Keyed

/-!
# JSON values

Whole numbers are kept apart from doubles. A value that was read has its objects in key order; a
record that is to be written lists its fields in the order in which they are printed.
-/

namespace Anneal

inductive Json where
  | null
  | bool (b : Bool)
  | int (n : Int)
  | float (x : Float)
  | str (s : String)
  | arr (items : List Json)
  | obj (fields : List (String × Json))
  deriving Inhabited, Repr, BEq

namespace Json

def asStr? : Json → Option String
  | .str s => some s
  | _ => none

/-- The member of an object under a key. -/
def member? : Json → String → Option Json
  | .obj fields, key => Keyed.get? fields key
  | _, _ => none

def element? : Json → Nat → Option Json
  | .arr items, i => items[i]?
  | _, _ => none

end Json
end Anneal
