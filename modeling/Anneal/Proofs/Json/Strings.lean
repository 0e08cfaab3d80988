import Anneal.Json.Printer
import Anneal.Json.Reader

/-! A string is read back from between its quotes, and no control character stands there. -/

namespace Anneal.Json

theorem hexValue?_digitChar : ∀ n, n < 16 → hexValue? (Nat.digitChar n) = some n := by decide

theorem hexValue?_hexDigit (n : Nat) : hexValue? (hexDigit n) = some (n % 16) :=
  hexValue?_digitChar _ (Nat.mod_lt n (by decide))

theorem four_le_encodedSize (a b c d : Char) (cs : List Char) :
    4 ≤ Text.encodedSize (a :: b :: c :: d :: cs) := by
  have ha := a.utf8Size_pos
  have hb := b.utf8Size_pos
  have hc := c.utf8Size_pos
  have hd := d.utf8Size_pos
  simp only [Text.encodedSize, List.foldr_cons]
  omega

theorem fourHex_hexDigits (high low : Nat) (rest : List Char) :
    fourHex ('0' :: '0' :: hexDigit high :: hexDigit low :: rest) =
      .ok (high % 16 * 16 + low % 16, rest) := by
  have hzero : hexValue? '0' = some 0 := by decide
  rw [fourHex, if_neg (Nat.not_lt.2 (four_le_encodedSize _ _ _ _ _))]
  simp only [hzero, hexValue?_hexDigit, Nat.zero_mul, Nat.add_zero, Nat.zero_add]

theorem escape_control {c : Char} (h : c.toNat < 0x20) (rest : List Char) :
    escape ('u' :: '0' :: '0' :: hexDigit (c.toNat / 16) :: hexDigit c.toNat :: rest) =
      .ok (c, rest) := by
  have hn : c.toNat / 16 % 16 * 16 + c.toNat % 16 = c.toNat := by omega
  have hu : plainEscape? 'u' = none := by decide
  rw [escape, hu]
  dsimp only
  rw [if_pos rfl, unicodeEscape, fourHex_hexDigits, hn]
  dsimp only
  rw [if_neg (by omega), if_neg (by omega), Char.ofNat_toNat]

section Escaped

variable {fuel : Nat} {c : Char} {ds rest rest' : List Char}

theorem stringChars_escape {cs : List Char} (he : escape cs = .ok (c, rest))
    (h : stringChars fuel rest = .ok (ds, rest')) :
    stringChars (fuel + 1) ('\\' :: cs) = .ok (c :: ds, rest') := by
  rw [stringChars]
  simp [he, h]

theorem stringChars_escapeChar (h : stringChars fuel rest = .ok (ds, rest')) :
    stringChars (fuel + 1) (escapeChar c ++ rest) = .ok (c :: ds, rest') := by
  have hletter {d : Char} (hd : plainEscape? d = some c) :
      stringChars (fuel + 1) ('\\' :: d :: rest) = .ok (c :: ds, rest') :=
    stringChars_escape (by rw [escape, hd]) h
  unfold escapeChar
  -- Seven characters have a letter of their own behind the backslash.
  iterate 7
    split
    next hc => exact hletter (by rw [hc]; decide)
  split
  next hc => exact stringChars_escape (escape_control hc rest) h
  next hquote hslash _ _ _ _ _ hcontrol =>
    rw [List.singleton_append, stringChars]
    simp [hquote, hslash, hcontrol, h]

end Escaped

theorem stringChars_quoted {fuel : Nat} {cs : List Char} (h : cs.length < fuel)
    (rest : List Char) :
    stringChars fuel (cs.flatMap escapeChar ++ '"' :: rest) = .ok (cs, rest) := by
  induction cs generalizing fuel with
  | nil =>
    obtain ⟨fuel, rfl⟩ := Nat.exists_eq_succ_of_ne_zero (Nat.ne_of_gt h)
    rfl
  | cons c cs ih =>
    obtain ⟨fuel, rfl⟩ := Nat.exists_eq_succ_of_ne_zero (Nat.ne_zero_of_lt h)
    rw [List.flatMap_cons, List.append_assoc]
    exact stringChars_escapeChar (ih (Nat.lt_of_succ_lt_succ h))

theorem escapeChar_ne_nil (c : Char) : escapeChar c ≠ [] := by
  unfold escapeChar
  repeat' split
  all_goals simp

theorem length_le_length_escaped (cs : List Char) : cs.length ≤ (cs.flatMap escapeChar).length := by
  induction cs with
  | nil => exact Nat.zero_le _
  | cons c cs ih =>
    have := List.length_pos_iff.2 (escapeChar_ne_nil c)
    rw [List.flatMap_cons, List.length_append, List.length_cons]
    omega

theorem string_quoted (s : String) (rest : List Char) :
    string (s.toList.flatMap escapeChar ++ '"' :: rest) = .ok (s, rest) := by
  have hfuel : s.toList.length < (s.toList.flatMap escapeChar ++ '"' :: rest).length + 1 := by
    have := length_le_length_escaped s.toList
    rw [List.length_append]
    omega
  rw [string, stringChars_quoted hfuel]
  dsimp only
  rw [String.ofList_toList]

def Printable (cs : List Char) : Prop := ∀ c ∈ cs, 0x20 ≤ c.toNat

instance (cs : List Char) : Decidable (Printable cs) :=
  decidable_of_iff (cs.all fun c => 0x20 ≤ c.toNat) (by simp [Printable])

theorem Printable.not_newline {cs : List Char} (h : Printable cs) : '\n' ∉ cs := fun hm => by
  have := h _ hm
  simp at this

theorem printable_append {cs ds : List Char} : Printable (cs ++ ds) ↔ Printable cs ∧ Printable ds :=
  List.forall_mem_append

theorem printable_cons {c : Char} {cs : List Char} :
    Printable (c :: cs) ↔ 0x20 ≤ c.toNat ∧ Printable cs := List.forall_mem_cons

theorem printable_hexDigit (n : Nat) : 0x20 ≤ (hexDigit n).toNat := by
  have hall : ∀ k, k < 16 → 0x20 ≤ (Nat.digitChar k).toNat := by decide
  exact hall _ (Nat.mod_lt n (by decide))

theorem printable_escapeChar (c : Char) : Printable (escapeChar c) := by
  have hslash : 0x20 ≤ '\\'.toNat := by decide
  unfold escapeChar
  iterate 7
    split
    · decide
  split
  · have hhigh := printable_hexDigit (c.toNat / 16)
    have hlow := printable_hexDigit c.toNat
    simp only [Printable, List.forall_mem_cons]
    exact ⟨by decide, by decide, by decide, by decide, hhigh, hlow, List.forall_mem_nil _⟩
  next hcontrol => exact List.forall_mem_singleton.2 (Nat.not_lt.1 hcontrol)

theorem printable_quoted (s : String) : Printable (quoted s) := by
  have hbody : Printable (s.toList.flatMap escapeChar) := fun c hc => by
    obtain ⟨d, -, hd⟩ := List.mem_flatMap.1 hc
    exact printable_escapeChar d c hd
  exact printable_append.2 ⟨printable_cons.2 ⟨by decide, hbody⟩, by decide⟩

end Anneal.Json
