import Anneal.Text.Blank

/-!
# Searching and cutting text

First occurrences, replacement, lines and prefixes. A search returns what stands before and after
the place found, so that the text is always the parts put back together.
-/

namespace Anneal.Text

def breakOn (needle : List Char) : List Char → Option (List Char × List Char)
  | [] => if needle.isEmpty then some ([], []) else none
  | c :: cs =>
    if needle.isPrefixOf (c :: cs) then some ([], (c :: cs).drop needle.length)
    else (breakOn needle cs).map fun r => (c :: r.1, r.2)

theorem length_breakOn {needle cs before after : List Char}
    (h : breakOn needle cs = some (before, after)) :
    before.length + needle.length + after.length = cs.length := by
  induction cs generalizing before with
  | nil =>
    simp only [breakOn] at h
    split at h
    · next he =>
      simp only [Option.some.injEq, Prod.mk.injEq] at h
      obtain ⟨rfl, rfl⟩ := h
      simp [List.isEmpty_iff.1 he]
    · simp at h
  | cons c cs ih =>
    simp only [breakOn] at h
    split at h
    · next hp =>
      simp only [Option.some.injEq, Prod.mk.injEq] at h
      obtain ⟨rfl, rfl⟩ := h
      have := (List.isPrefixOf_iff_prefix.1 hp).length_le
      simp only [List.length_nil, List.length_drop]
      omega
    · obtain ⟨⟨b, a⟩, hb, he⟩ := Option.map_eq_some_iff.1 h
      simp only [Prod.mk.injEq] at he
      obtain ⟨rfl, rfl⟩ := he
      have := ih hb
      simp only [List.length_cons]
      omega

def containsChars (needle cs : List Char) : Bool := (breakOn needle cs).isSome

def contains (needle s : String) : Bool := containsChars needle.toList s.toList

def replaceChars (needle substitute : List Char) (cs : List Char) : List Char :=
  if _hn : needle = [] then cs
  else match _h : breakOn needle cs with
    | none => cs
    | some (before, after) => before ++ substitute ++ replaceChars needle substitute after
termination_by cs.length
decreasing_by
  have := length_breakOn _h
  have := List.length_pos_iff.2 _hn
  omega

def replace (needle substitute s : String) : String :=
  String.ofList (replaceChars needle.toList substitute.toList s.toList)

/-- The lines of a text: each ends at a line feed, a carriage return before which belongs to the
line end. Text behind the last line feed is a line of its own unless it is empty. -/
def lines (cs : List Char) : List (List Char) :=
  match (splitWhere (· == '\n') cs).reverse with
  | [] => []
  | last :: full =>
    let ended := full.reverse.map fun l => if l.getLast? = some '\r' then l.dropLast else l
    if last.isEmpty then ended else ended ++ [last]

def lowerChars (cs : List Char) : List Char := cs.map Char.toLower

/-- The text with its ASCII capitals in lower case; other characters stay. -/
def lowerAscii (s : String) : String := String.ofList (lowerChars s.toList)

def preview (s : String) (count : Nat) : String :=
  let cs := s.toList
  if cs.length ≤ count then s else String.ofList (cs.take count ++ ['.', '.', '.'])

/-- The texts with `sep` between each two. -/
def join (sep : String) : List String → String
  | [] => ""
  | [s] => s
  | s :: ss => s ++ sep ++ join sep ss

end Anneal.Text
