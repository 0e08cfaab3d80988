import Anneal.Proofs.Calendar
import Anneal.Proofs.Json.Numbers
import Anneal.Proofs.Text.Blank
import Mathlib.Data.Nat.Digits.Defs

/-! The written form of a moment is read back, for every moment of the calendar. -/

namespace Anneal.Timestamp

open Anneal.Text Anneal.Decimal
open Anneal.Json (isDigit_of_mem_toDigits natOfDigits_eq)

/-- Digits that spell a number. -/
structure Spells (cs : List Char) (n : Nat) : Prop where
  nonempty : cs ≠ []
  digits : ∀ c ∈ cs, isDigit c = true
  value : natOfDigits cs = n

theorem natOfDigits_zeros (k : Nat) (cs : List Char) :
    natOfDigits (List.replicate k '0' ++ cs) = natOfDigits cs := by
  induction k with
  | zero => rfl
  | succ k ih => exact ih

theorem padded_toList (width n : Nat) : (padded width n).toList =
    List.replicate (width - (Nat.toDigits 10 n).length) '0' ++ Nat.toDigits 10 n := by
  have hrepr : toString n = n.repr := rfl
  unfold padded
  rw [String.toList_append, String.toList_ofList, hrepr, Nat.toList_repr, ← Nat.toList_repr,
    String.length_toList]

theorem padded_spells (width n : Nat) : Spells (padded width n).toList n := by
  rw [padded_toList]
  refine ⟨?_, ?_, ?_⟩
  · intro he
    exact Nat.toDigits_ne_nil (List.append_eq_nil_iff.1 he).2
  · intro c hc
    rcases List.mem_append.1 hc with hc | hc
    · rw [List.eq_of_mem_replicate hc]
      rfl
    · exact isDigit_of_mem_toDigits hc
  · rw [natOfDigits_zeros, natOfDigits_eq]
    exact Nat.ofDigitChars_ten_toDigits

theorem length_padded {width n : Nat} (hw : 0 < width) (hn : n < 10 ^ width) :
    (padded width n).toList.length = width := by
  have := Nat.toDigits_length 10 n width hw hn
  rw [padded_toList, List.length_append, List.length_replicate]
  omega

theorem trimStartChars_cons {c : Char} (h : isBlank c = false) (cs : List Char) :
    trimStartChars (c :: cs) = c :: cs :=
  List.dropWhile_cons_of_neg (by simp [h])

theorem isBlank_digit {c : Char} (h : isDigit c = true) : isBlank c = false := by
  have hc : 48 ≤ c.toNat ∧ c.toNat ≤ 57 := by
    simpa [isDigit, Char.le_def, UInt32.le_iff_toNat_le] using h
  rw [Bool.eq_false_iff]
  intro hb
  have := le_space_of_isBlank hb (by omega)
  omega

variable {cs rest : List Char} {c : Char} {n width : Nat}

theorem Spells.trim (h : Spells cs n) : trimStartChars (cs ++ rest) = cs ++ rest := by
  obtain ⟨d, ds, rfl⟩ := List.exists_cons_of_ne_nil h.nonempty
  exact trimStartChars_cons (isBlank_digit (h.digits d List.mem_cons_self)) _

theorem Spells.found (h : Spells cs n) (hw : cs.length ≤ width) (hc : isDigit c = false) :
    ((cs ++ c :: rest).take width).takeWhile isDigit = cs := by
  rw [List.take_append, List.take_of_length_le hw, List.takeWhile_append_of_pos h.digits]
  cases width - cs.length with
  | zero => simp
  | succ k => simp [hc]

theorem Spells.scanDigits (h : Spells cs n) (hw : cs.length ≤ width) (hc : isDigit c = false) :
    scanDigits width (cs ++ c :: rest) = .ok (n, c :: rest) := by
  have hfound : ((cs ++ c :: rest).take width).takeWhile isDigit = cs := h.found hw hc
  obtain ⟨d, ds, rfl⟩ := List.exists_cons_of_ne_nil h.nonempty
  rw [List.cons_append] at hfound ⊢
  unfold Timestamp.scanDigits
  dsimp only
  rw [if_pos (h.digits d List.mem_cons_self), hfound, h.value, ← List.cons_append,
    List.drop_left]

theorem Spells.scanField {low high : Nat} (h : Spells cs n) (hw : cs.length ≤ width)
    (hc : isDigit c = false) (hl : low ≤ n) (hh : n ≤ high) :
    scanField width low high (cs ++ c :: rest) = .ok (n, c :: rest) := by
  unfold Timestamp.scanField
  rw [h.trim, h.scanDigits hw hc]
  exact if_pos ⟨hl, hh⟩

theorem Spells.scanSeparator (h : Spells cs n) (hb : isBlank c = false) :
    scanSeparator c (c :: (cs ++ rest)) = .ok ((), cs ++ rest) := by
  unfold Timestamp.scanSeparator
  rw [trimStartChars_cons hb]
  dsimp only
  rw [if_pos rfl, h.trim]

theorem field_padded {low high n : Nat} (hc : isDigit c = false) (hn : n < 100) (hl : low ≤ n)
    (hh : n ≤ high) :
    scanField 2 low high ((padded 2 n).toList ++ c :: rest) = .ok (n, c :: rest) :=
  (padded_spells 2 n).scanField (Nat.le_of_eq (length_padded (by decide) hn)) hc hl hh

theorem calendarYear_bounds {y : Int} (h : isCalendarYear y = true) :
    -262143 ≤ y ∧ y ≤ 262142 := by
  simpa [isCalendarYear] using h

theorem wordYear_calendar {y : Int} (h : isCalendarYear y = true) :
    wordYear y rest = .ok (y, rest) := by
  obtain ⟨hlow, hhigh⟩ := calendarYear_bounds h
  have hbound : Word.bound 31 = 2147483648 := rfl
  unfold wordYear
  rw [hbound]
  exact if_pos ⟨by omega, by omega⟩

/-- A text of digits is no sign with digits. -/
theorem Spells.scanYear (h : Spells cs n) (hw : cs.length ≤ 4) (hc : isDigit c = false) :
    scanYear (cs ++ c :: rest) = .ok ((n : Int), c :: rest) := by
  have hscan : Timestamp.scanDigits 4 (cs ++ c :: rest) = .ok (n, c :: rest) := h.scanDigits hw hc
  unfold Timestamp.scanYear
  rw [h.trim]
  obtain ⟨d, ds, rfl⟩ := List.exists_cons_of_ne_nil h.nonempty
  have hd := h.digits d List.mem_cons_self
  split
  next he =>
    cases he
    cases hd
  next he =>
    cases he
    cases hd
  · rw [hscan]

theorem scanYear_plus (rest : List Char) : scanYear ('+' :: rest) =
    match scanDigits rest.length rest with
    | .error e => .error e
    | .ok (n, rest) => wordYear n rest := by
  unfold scanYear
  rw [trimStartChars_cons (by decide)]
  rfl

theorem scanYear_minus (rest : List Char) : scanYear ('-' :: rest) =
    match scanDigits rest.length rest with
    | .error e => .error e
    | .ok (n, rest) => wordYear (-(n : Int)) rest := by
  unfold scanYear
  rw [trimStartChars_cons (by decide)]
  rfl

theorem scanYear_yearText {y : Int} (h : isCalendarYear y = true) (hc : isDigit c = false) :
    scanYear ((yearText y).toList ++ c :: rest) = .ok (y, c :: rest) := by
  unfold yearText
  by_cases hfour : 0 ≤ y ∧ y ≤ 9999
  · rw [if_pos hfour, (padded_spells 4 y.toNat).scanYear
      (Nat.le_of_eq (length_padded (by decide) (by omega))) hc]
    congr
    omega
  · have hscan : scanDigits ((padded 4 y.natAbs).toList ++ c :: rest).length
        ((padded 4 y.natAbs).toList ++ c :: rest) = .ok (y.natAbs, c :: rest) :=
      (padded_spells 4 y.natAbs).scanDigits (by simp) hc
    rw [if_neg hfour]
    by_cases hsign : 0 ≤ y
    · have hy : (y.natAbs : Int) = y := by omega
      rw [if_pos hsign, String.toList_append, show "+".toList = ['+'] from rfl,
        List.singleton_append, List.cons_append, scanYear_plus, hscan]
      dsimp only
      rw [hy]
      exact wordYear_calendar h
    · have hy : -(y.natAbs : Int) = y := by omega
      rw [if_neg hsign, String.toList_append, show "-".toList = ['-'] from rfl,
        List.singleton_append, List.cons_append, scanYear_minus, hscan]
      dsimp only
      rw [hy]
      exact wordYear_calendar h

theorem scanFraction_point (rest : List Char) : scanFraction ('.' :: rest) =
    match scanDigits 9 rest with
    | .error e => .error e
    | .ok (_, _) =>
      .ok (natOfDigits ((rest.take 9).takeWhile isDigit) *
        Nat.pow 10 (9 - ((rest.take 9).takeWhile isDigit).length), rest.dropWhile isDigit) := rfl

theorem Spells.scanFraction (h : Spells cs n) (hw : cs.length ≤ 9) (hc : isDigit c = false) :
    scanFraction ('.' :: (cs ++ c :: rest)) = .ok (n * 10 ^ (9 - cs.length), c :: rest) := by
  have hrest : (cs ++ c :: rest).dropWhile isDigit = c :: rest := by
    rw [List.dropWhile_append_of_pos h.digits, List.dropWhile_cons_of_neg (by simp [hc])]
  rw [scanFraction_point, h.scanDigits hw hc]
  dsimp only
  rw [h.found hw hc, h.value, hrest]
  rfl

/-- A fraction is left out or spelled by three, six or nine digits. -/
theorem fractionText_cases {nanos : Nat} (h : nanos < 1000000000) :
    (nanos = 0 ∧ (fractionText nanos).toList = []) ∨ ∃ cs n, Spells cs n ∧ cs.length ≤ 9 ∧
      n * 10 ^ (9 - cs.length) = nanos ∧ (fractionText nanos).toList = '.' :: cs := by
  have hpiece {width k : Nat} (hw : 0 < width) (hk : k < 10 ^ width) (hnine : width ≤ 9)
      (hn : k * 10 ^ (9 - width) = nanos) : ∃ cs n, Spells cs n ∧ cs.length ≤ 9 ∧
        n * 10 ^ (9 - cs.length) = nanos ∧ ("." ++ padded width k).toList = '.' :: cs := by
    have hlength := length_padded hw hk
    refine ⟨_, k, padded_spells width k, Nat.le_trans (Nat.le_of_eq hlength) hnine, ?_, ?_⟩
    · rw [hlength, hn]
    · rw [String.toList_append]
      rfl
  unfold fractionText
  by_cases hzero : nanos = 0
  · rw [if_pos hzero]
    exact .inl ⟨hzero, rfl⟩
  rw [if_neg hzero]
  right
  by_cases hmillis : nanos % 1000000 = 0
  · rw [if_pos hmillis]
    exact hpiece (by decide) (by omega) (by decide) (by omega)
  rw [if_neg hmillis]
  by_cases hmicros : nanos % 1000 = 0
  · rw [if_pos hmicros]
    exact hpiece (by decide) (by omega) (by decide) (by omega)
  · rw [if_neg hmicros]
    exact hpiece (by decide) (by omega) (by decide) (by omega)

theorem scanFraction_fractionText {nanos : Nat} (h : nanos < 1000000000) :
    scanFraction ((fractionText nanos).toList ++ ['Z']) = .ok (nanos, ['Z']) := by
  obtain ⟨rfl, he⟩ | ⟨cs, n, hcs, hw, hn, he⟩ := fractionText_cases h
  · rw [he]
    rfl
  · rw [he, List.cons_append, hcs.scanFraction hw (by decide), hn]

structure Valid (t : Timestamp) : Prop where
  date : IsDate t.year t.month t.day
  year : isCalendarYear t.year = true
  hour : t.hour ≤ 23
  minute : t.minute ≤ 59
  second : t.second ≤ 60
  nanos : t.nanos < 1000000000

theorem text_toList (t : Timestamp) : t.text.toList =
    (yearText t.year).toList ++ '-' :: ((padded 2 t.month).toList ++ '-' ::
      ((padded 2 t.day).toList ++ 'T' :: ((padded 2 t.hour).toList ++ ':' ::
        ((padded 2 t.minute).toList ++ ':' :: ((padded 2 t.second).toList ++
          ((fractionText t.nanos).toList ++ ['Z'])))))) := by
  simp [text, upToSeconds]

theorem daysInMonth_le (y : Int) (m : Nat) : daysInMonth y m ≤ 31 := by
  unfold daysInMonth
  split <;> split <;> simp

variable {t : Timestamp}

theorem Valid.scanDate (h : Valid t) : scanDate ((yearText t.year).toList ++ '-' ::
    ((padded 2 t.month).toList ++ '-' :: ((padded 2 t.day).toList ++ 'T' :: rest))) =
      .ok ((t.year, t.month, t.day), 'T' :: rest) := by
  have hm := h.date.month_le
  have hd := Nat.le_trans h.date.day_le (daysInMonth_le t.year t.month)
  unfold Timestamp.scanDate
  rw [scanYear_yearText h.year (by decide)]
  dsimp only [bind, Except.bind]
  rw [(padded_spells 2 t.month).scanSeparator (by decide)]
  dsimp only
  rw [field_padded (by decide) (by omega) h.date.month_pos hm]
  dsimp only
  rw [(padded_spells 2 t.day).scanSeparator (by decide)]
  dsimp only
  rw [field_padded (by decide) (by omega) h.date.day_pos hd]
  rfl

theorem Valid.scanTime (h : Valid t) : scanTime ((padded 2 t.hour).toList ++ ':' ::
    ((padded 2 t.minute).toList ++ ':' :: ((padded 2 t.second).toList ++
      ((fractionText t.nanos).toList ++ ['Z'])))) =
      .ok ((t.hour, t.minute, t.second, t.nanos), ['Z']) := by
  have hfraction := scanFraction_fractionText h.nanos
  obtain ⟨c, after, hafter, hc⟩ : ∃ c after,
      (fractionText t.nanos).toList ++ ['Z'] = c :: after ∧ isDigit c = false := by
    obtain ⟨-, he⟩ | ⟨cs, n, -, -, -, he⟩ := fractionText_cases h.nanos
    · exact ⟨'Z', [], by rw [he]; rfl, rfl⟩
    · exact ⟨'.', cs ++ ['Z'], by rw [he]; rfl, rfl⟩
  have hh := h.hour
  have hm := h.minute
  have hs := h.second
  rw [hafter] at hfraction ⊢
  unfold Timestamp.scanTime
  rw [field_padded (by decide) (by omega) (by omega) hh]
  dsimp only [bind, Except.bind]
  rw [(padded_spells 2 t.minute).scanSeparator (by decide)]
  dsimp only
  rw [field_padded (by decide) (by omega) (by omega) hm]
  dsimp only
  rw [(padded_spells 2 t.second).scanSeparator (by decide)]
  dsimp only
  rw [field_padded hc (by omega) (by omega) hs]
  dsimp only
  rw [hfraction]
  rfl

theorem Valid.parse_text (h : Valid t) : parse t.text = .ok t := by
  have hdays := h.date.day_le
  have hdate : ¬ (86400 ≤ (0 : Int).natAbs ∨ (!isCalendarYear t.year) = true ∨
      daysInMonth t.year t.month < t.day) := by
    simp [h.year, hdays]
  unfold parse
  rw [text_toList, h.scanDate]
  dsimp only [bind, Except.bind, scanMiddle]
  rw [if_pos (.inl rfl)]
  dsimp only
  rw [h.scanTime]
  dsimp only
  rw [show scanOffset ['Z'] = .ok (0, []) from rfl]
  dsimp only
  rw [if_neg (by simp), if_neg hdate]
  dsimp only [pure, Except.pure]
  rw [show minusSeconds _ 0 = t from rfl, if_pos h.year]

theorem valid_ofMillis {ms : Nat} (h : isCalendarYear (ofMillis ms).year = true) :
    Valid (ofMillis ms) := by
  have hrest : ms % 86400000 < 86400000 := Nat.mod_lt _ (by decide)
  refine ⟨dateOfDay_isDate _, h, ?_, ?_, ?_, ?_⟩
  · show ms % 86400000 / 3600000 ≤ 23
    omega
  · show ms % 86400000 / 60000 % 60 ≤ 59
    omega
  · show ms % 86400000 / 1000 % 60 ≤ 60
    omega
  · show ms % 86400000 % 1000 * 1000000 < 1000000000
    omega

theorem millis_lt {ms : Nat} (h : isCalendarYear (ofMillis ms).year = true) :
    ms < Word.bound 64 := by
  obtain ⟨-, hyear⟩ := calendarYear_bounds h
  have hdays : ((ms / 86400000 : Nat) + 719468 : Int) / 146097 * 400 ≤ (ofMillis ms).year :=
    le_dateOfDay_year _
  have hbound : Word.bound 64 = 18446744073709551616 := rfl
  omega

end Anneal.Timestamp
