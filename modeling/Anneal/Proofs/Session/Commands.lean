import Anneal.Proofs.Text.Lines
import Anneal.Session

/-! What a line of a session stands for, said by its words, and the lines of an input. Every line
is of one kind: the words of a command are none of the others, in whatever case they are. -/

namespace Anneal.Session

open Anneal.Text

variable {line : String}

def Says (word line : String) : Prop := lowerAscii line = word

instance (word line : String) : Decidable (Says word line) :=
  inferInstanceAs (Decidable (lowerAscii line = word))

def Leaves (line : String) : Prop := Says "exit" line ∨ Says "quit" line

instance (line : String) : Decidable (Leaves line) :=
  inferInstanceAs (Decidable (Says "exit" line ∨ Says "quit" line))

def SwitchesTo (name line : String) : Prop :=
  ∃ head rest, line = head ++ rest ∧ lowerAscii head = switchPrefix ∧ name = trim rest

def Selects (tool : Tool) (line : String) : Prop :=
  ∃ name, SwitchesTo name line ∧ Says tool.name name

structure IsRequest (line : String) : Prop where
  not_blank : line ≠ ""
  stays : ¬ Leaves line
  not_back : ¬ Says "back" line
  not_show : ¬ Says "show" line
  not_retry : ¬ Says "retry" line
  not_switch : ∀ name, ¬ SwitchesTo name line

theorem toList_lowerAscii (s : String) : (lowerAscii s).toList = s.toList.map Char.toLower :=
  String.toList_ofList

theorem lowerAscii_append (s t : String) : lowerAscii (s ++ t) = lowerAscii s ++ lowerAscii t := by
  apply String.toList_inj.1
  simp [toList_lowerAscii]

theorem length_lowerAscii (s : String) : (lowerAscii s).toList.length = s.toList.length := by
  rw [toList_lowerAscii, List.length_map]

theorem switchesTo_iff {name : String} : SwitchesTo name line ↔
    switchPrefix.toList.isPrefixOf (lowerAscii line).toList = true ∧
      name = String.ofList (trimChars (line.toList.drop switchPrefix.length)) := by
  rw [List.isPrefixOf_iff_prefix]
  constructor
  · rintro ⟨head, rest, rfl, hhead, rfl⟩
    have hlength : head.toList.length = switchPrefix.length := by
      rw [← length_lowerAscii, hhead]
      rfl
    refine ⟨⟨(lowerAscii rest).toList, ?_⟩, ?_⟩
    · rw [lowerAscii_append, String.toList_append, hhead]
    · rw [String.toList_append, List.drop_left' hlength, trim]
  · rintro ⟨⟨after, hafter⟩, rfl⟩
    refine ⟨String.ofList (line.toList.take switchPrefix.length),
      String.ofList (line.toList.drop switchPrefix.length), ?_, ?_, ?_⟩
    · rw [← String.ofList_append, List.take_append_drop, String.ofList_toList]
    · apply String.toList_inj.1
      rw [toList_lowerAscii, String.toList_ofList, List.map_take, ← toList_lowerAscii, ← hafter]
      exact List.take_left' rfl
    · rw [trim, String.toList_ofList]

theorem SwitchesTo.unique {name other : String} (h : SwitchesTo name line)
    (h' : SwitchesTo other line) : name = other :=
  (switchesTo_iff.1 h).2.trans (switchesTo_iff.1 h').2.symm

theorem tool_name_injective {a b : Tool} (h : a.name = b.name) : a = b := by
  cases a <;> cases b <;> first | rfl | exact absurd h (by decide)

theorem Selects.unique {a b : Tool} (h : Selects a line) (h' : Selects b line) : a = b := by
  obtain ⟨name, hname, ha⟩ := h
  obtain ⟨other, hother, hb⟩ := h'
  obtain rfl := hname.unique hother
  exact tool_name_injective (ha.symm.trans hb)

theorem ofName?_eq_some_iff {name : String} {tool : Tool} :
    Tool.ofName? name = some tool ↔ Says tool.name name := by
  unfold Tool.ofName? Says
  constructor
  · intro h
    have htool := List.find?_some h
    exact (of_decide_eq_true htool).symm
  · intro h
    rw [h]
    cases tool <;> decide

theorem not_switchesTo {word name : String} (h : Says word line)
    (hword : ¬ switchPrefix.toList <+: word.toList) : ¬ SwitchesTo name line := by
  intro hswitch
  have hp := (switchesTo_iff.1 hswitch).1
  rw [h, List.isPrefixOf_iff_prefix] at hp
  exact hword hp

inductive Meaning (line : String) : Command → Prop
  | leave (h : Leaves line) : Meaning line .leave
  | back (h : Says "back" line) : Meaning line .back
  | present (h : Says "show" line) : Meaning line .present
  | retry (h : Says "retry" line) : Meaning line .retry
  | switch {name : String} (h : SwitchesTo name line) : Meaning line (.switch name)
  | request (h : IsRequest line) : Meaning line (.request line)

theorem meaning_ofLine (hne : line ≠ "") : Meaning line (.ofLine line) := by
  unfold Command.ofLine
  dsimp only
  split
  next h => exact .leave h
  next hleave =>
    split
    next h => exact .back h
    next hback =>
      split
      next h => exact .present h
      next hshow =>
        split
        next h => exact .retry h
        next hretry =>
          split
          next h => exact .switch (switchesTo_iff.2 ⟨h, rfl⟩)
          next hswitch =>
            exact .request ⟨hne, hleave, hback, hshow, hretry, fun name h =>
              hswitch (switchesTo_iff.1 h).1⟩

/-- The lines of a text. Text behind the last line feed is a line of its own unless it is empty. -/
def textLines (text : String) : List String :=
  let pieces := splitWhere (· == '\n') text.toList
  (if pieces.getLast? = some [] then pieces.dropLast else pieces).map String.ofList

theorem ten_not_mem_encodeChar {c : Char} (hc : c ≠ '\n') :
    ∀ b ∈ String.utf8EncodeChar c, b ≠ 10 := by
  rintro b hb rfl
  rcases mem_encodeChar hb with ⟨hval, -⟩ | ⟨hhigh, -⟩
  · refine hc (Char.ext (UInt32.toNat_inj.1 ?_))
    exact hval.symm
  · exact absurd hhigh (by decide)

theorem split_append {bs : Bytes} (h : ∀ b ∈ bs, b ≠ 10) {rest : Bytes} {l : Bytes}
    {ls : List Bytes} (hrest : inputLines.split rest = l :: ls) :
    inputLines.split (bs ++ rest) = (bs ++ l) :: ls := by
  induction bs with
  | nil => exact hrest
  | cons b bs ih =>
    obtain ⟨hb, hbs⟩ := List.forall_mem_cons.1 h
    rw [List.cons_append, inputLines.split, if_neg hb, ih hbs]
    rfl

theorem split_encode (cs : List Char) : inputLines.split (cs.flatMap String.utf8EncodeChar) =
    (splitWhere (· == '\n') cs).map fun piece => piece.flatMap String.utf8EncodeChar := by
  induction cs with
  | nil => rfl
  | cons c cs ih =>
    rw [List.flatMap_cons, splitWhere]
    cases hs : splitWhere (· == '\n') cs with
    | nil => exact absurd hs (splitWhere_ne_nil _ _)
    | cons piece pieces =>
      rw [hs, List.map_cons] at ih
      by_cases hc : c = '\n'
      · subst hc
        have hbyte : String.utf8EncodeChar '\n' = [10] := by decide
        rw [hbyte, List.singleton_append, inputLines.split, if_pos rfl, ih]
        rfl
      · rw [if_neg (by simpa using hc), split_append (ten_not_mem_encodeChar hc) ih]
        rfl

theorem encode_eq_nil_iff {cs : List Char} : cs.flatMap String.utf8EncodeChar = [] ↔ cs = [] := by
  cases cs with
  | nil => simp
  | cons c cs =>
    obtain ⟨b, bs, hb, -⟩ := firstUnit_encodeChar c []
    simp [hb]

theorem inputLines_encode (text : String) :
    inputLines (encode text) = (textLines text).map some := by
  have hlast (pieces : List (List Char)) :
      (pieces.map fun piece => piece.flatMap String.utf8EncodeChar).getLast? = some [] ↔
        pieces.getLast? = some [] := by
    rw [List.getLast?_map, Option.map_eq_some_iff]
    simp only [encode_eq_nil_iff, exists_eq_right]
  have hdecode (pieces : List (List Char)) :
      (pieces.map fun piece => piece.flatMap String.utf8EncodeChar).map decode? =
        (pieces.map String.ofList).map some := by
    rw [List.map_map, List.map_map]
    refine List.map_congr_left fun piece _ => ?_
    have h := decode?_encode (String.ofList piece)
    rwa [encode, String.toList_ofList] at h
  rw [inputLines, encode, split_encode, textLines]
  by_cases h : (splitWhere (· == '\n') text.toList).getLast? = some []
  · rw [if_pos h, if_pos ((hlast _).2 h), ← List.map_dropLast, hdecode]
  · rw [if_neg h, if_neg (mt (hlast _).1 h), hdecode]

end Anneal.Session
