import Anneal.Json.Printer
import Anneal.Json.Reader

/-! A whole number of 64 bits is read back from its digits. -/

namespace Anneal.Json

open Decimal (isDigit digitValue natOfDigits)

theorem isDigit_eq (c : Char) : isDigit c = c.isDigit := by
  rw [Bool.eq_iff_iff]
  simp [isDigit, Char.isDigit, Char.le_def]

theorem natOfDigits_eq (cs : List Char) : natOfDigits cs = Nat.ofDigitChars 10 cs 0 := by
  unfold natOfDigits Nat.ofDigitChars digitValue
  simp only [Nat.mul_comm]

def Ends (rest : List Char) : Prop :=
  ∀ c, rest.head? = some c → isDigit c = false ∧ c ≠ '.' ∧ c ≠ 'e' ∧ c ≠ 'E'

theorem ends_nil : Ends [] := fun _ h => by cases h

theorem ends_cons {c : Char} {rest : List Char}
    (h : isDigit c = false ∧ c ≠ '.' ∧ c ≠ 'e' ∧ c ≠ 'E') : Ends (c :: rest) := fun _ hc => by
  cases hc
  exact h

section Digits

variable {rest : List Char} (negative : Bool)

theorem afterWhole_ends (h : Ends rest) (n : Nat) :
    afterWhole negative n rest = .ok (whole negative n, rest) := by
  cases rest with
  | nil => rfl
  | cons c rest =>
    obtain ⟨-, hpoint, he, hE⟩ := h c rfl
    rw [afterWhole, if_neg hpoint, if_neg (not_or.2 ⟨he, hE⟩)]

theorem le_ofDigitChars (cs : List Char) (n : Nat) : n ≤ Nat.ofDigitChars 10 cs n := by
  induction cs generalizing n with
  | nil => exact Nat.le_refl n
  | cons c cs ih =>
    rw [Nat.ofDigitChars_cons]
    have := ih (10 * n + (c.toNat - '0'.toNat))
    omega

theorem wholeDigits_digits {cs : List Char} (hcs : ∀ c ∈ cs, isDigit c = true) (h : Ends rest)
    {n : Nat} (hn : Nat.ofDigitChars 10 cs n < Word.bound 64) :
    wholeDigits negative n (cs ++ rest) =
      .ok (whole negative (Nat.ofDigitChars 10 cs n), rest) := by
  induction cs generalizing n with
  | nil =>
    rw [List.nil_append, ← afterWhole_ends negative h]
    cases rest with
    | nil => rfl
    | cons c rest => rw [wholeDigits, (h c rfl).1, if_neg Bool.false_ne_true]; rfl
  | cons c cs ih =>
    obtain ⟨hc, hcs⟩ := List.forall_mem_cons.1 hcs
    rw [Nat.ofDigitChars_cons, Nat.mul_comm] at hn ⊢
    have hle := le_ofDigitChars cs (n * 10 + digitValue c)
    rw [List.cons_append, wholeDigits, if_pos hc,
      if_neg (Nat.not_le.2 (Nat.lt_of_le_of_lt hle hn))]
    exact ih hcs hn

theorem toDigits_head {n : Nat} (h : n ≠ 0) :
    ∃ c cs, Nat.toDigits 10 n = c :: cs ∧ c ≠ '0' := by
  induction n using Nat.strongRecOn with
  | ind n ih =>
    rcases Nat.lt_or_ge n 10 with hlt | hge
    · have hall : ∀ k, k < 10 → k ≠ 0 → Nat.digitChar k ≠ '0' := by decide
      exact ⟨_, [], Nat.toDigits_of_lt_base hlt, hall n hlt h⟩
    · obtain ⟨c, cs, hcs, hc⟩ := ih (n / 10) (by omega) (by omega)
      exact ⟨c, cs ++ [(n % 10).digitChar], by
        rw [Nat.toDigits_of_base_le (by decide) hge, hcs, List.cons_append], hc⟩

theorem isDigit_of_mem_toDigits {n : Nat} {c : Char} (h : c ∈ Nat.toDigits 10 n) :
    isDigit c = true :=
  (isDigit_eq c).trans (Nat.isDigit_of_mem_toDigits (by decide) (by decide) h)

theorem number_toDigits {n : Nat} (hn : n < Word.bound 64) (h : Ends rest) :
    number negative (Nat.toDigits 10 n ++ rest) = .ok (whole negative n, rest) := by
  by_cases hzero : n = 0
  · subst hzero
    rw [Nat.toDigits_zero, List.singleton_append]
    unfold number
    cases rest with
    | nil => rfl
    | cons c rest =>
      dsimp only
      rw [if_pos rfl, (h c rfl).1, if_neg Bool.false_ne_true]
      exact afterWhole_ends negative h 0
  · obtain ⟨c, cs, hcs, hc⟩ := toDigits_head hzero
    have hdigits : ∀ d ∈ c :: cs, isDigit d = true := fun d hd =>
      isDigit_of_mem_toDigits (hcs ▸ hd)
    have hvalue : Nat.ofDigitChars 10 cs (digitValue c) = n := by
      have htotal : Nat.ofDigitChars 10 (Nat.toDigits 10 n) 0 = n := Nat.ofDigitChars_ten_toDigits
      rwa [hcs, Nat.ofDigitChars_cons, Nat.mul_zero, Nat.zero_add] at htotal
    obtain ⟨hd, hds⟩ := List.forall_mem_cons.1 hdigits
    rw [hcs, List.cons_append]
    unfold number
    dsimp only
    rw [if_neg hc, if_pos hd, wholeDigits_digits negative hds h (hvalue.symm ▸ hn), hvalue]

end Digits

def InRange (n : Int) : Prop := -(Word.bound 63 : Int) ≤ n ∧ n < Word.bound 64

theorem toList_toString_int (n : Int) : (toString n).toList =
    if 0 ≤ n then Nat.toDigits 10 n.toNat else '-' :: Nat.toDigits 10 (-n).toNat := by
  rw [Int.toString_eq_repr, Int.repr_eq_if]
  split
  · exact Nat.toList_repr
  · have hminus : "-".toList = ['-'] := by decide
    rw [String.toList_append, hminus, Nat.toList_repr, List.singleton_append]

theorem number_nonneg {n : Int} (h : InRange n) (hn : 0 ≤ n) {rest : List Char}
    (hr : Ends rest) : number false (Nat.toDigits 10 n.toNat ++ rest) = .ok (.int n, rest) := by
  obtain ⟨k, rfl⟩ := Int.eq_ofNat_of_zero_le hn
  have hk : k < Word.bound 64 := Int.ofNat_lt.1 h.2
  rw [Int.toNat_natCast, number_toDigits false hk hr]
  rfl

theorem number_neg {n : Int} (h : InRange n) (hn : n < 0) {rest : List Char}
    (hr : Ends rest) : number true (Nat.toDigits 10 (-n).toNat ++ rest) = .ok (.int n, rest) := by
  obtain ⟨k, hk⟩ := Int.eq_ofNat_of_zero_le (Int.neg_nonneg.2 (Int.le_of_lt hn))
  have hlow := h.1
  have hpos := Word.bound_pos 63
  have hdouble : Word.bound 64 = Word.bound 63 * 2 := Word.bound_succ 63
  have hlt : k < Word.bound 64 := by omega
  have hint : -(k : Int) = n := by omega
  rw [hk, Int.toNat_natCast, number_toDigits true hlt hr, whole, if_pos rfl,
    if_neg (by omega), hint]

end Anneal.Json
