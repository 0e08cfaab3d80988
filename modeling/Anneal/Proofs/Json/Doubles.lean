import Anneal.Proofs.Json.Compact

/-! Numbers with a fraction or an exponent. The reader stops at the first character that cannot go
on with a number, so what it makes of one by itself it makes of it in front of other text as well.
The double that comes of the digits is settled by arithmetic that is not opened here. -/

namespace Anneal.Json

open Decimal (isDigit digitValue)

structure UsesUp (read : List Char → Step Json) (cs : List Char) (v : Json) (r : List Char) :
    Prop where
  intro ::
  stops : ∀ c, r.head? = some c → isDigit c = false
  exists_used : ∃ used, cs = used ++ r ∧ ∀ rest, Ends rest → read (used ++ rest) = .ok (v, rest)

section Numbers

variable {negative : Bool} {n : Nat} {e : Int} {c : Char} {cs r : List Char} {v : Json}
  {read next : List Char → Step Json}

theorem UsesUp.cons (hread : ∀ rest, read (c :: rest) = next rest) (h : UsesUp next cs v r) :
    UsesUp read (c :: cs) v r := by
  obtain ⟨hstops, used, rfl, hused⟩ := h
  refine ⟨hstops, c :: used, rfl, fun rest hr => ?_⟩
  rw [List.cons_append, hread]
  exact hused rest hr

theorem UsesUp.of_digit (hc : isDigit c = true) (hread : ∀ rest, read (c :: rest) = next (c :: rest))
    (h : UsesUp next (c :: cs) v r) : UsesUp read (c :: cs) v r := by
  obtain ⟨hstops, used, hused, hnext⟩ := h
  cases used with
  | nil =>
    have hnot := hstops c (by rw [← show c :: cs = r from hused]; rfl)
    rw [hc] at hnot
    cases hnot
  | cons d used =>
    obtain ⟨rfl, hcs⟩ := List.cons.inj hused
    refine ⟨hstops, c :: used, hused, fun rest hr => ?_⟩
    rw [List.cons_append, hread]
    exact hnext rest hr

theorem dropWhile_digits {rest : List Char} (h : Ends rest) (cs : List Char) :
    (cs.takeWhile isDigit ++ rest).dropWhile isDigit = rest := by
  rw [List.dropWhile_append_of_pos fun _ hc => List.mem_takeWhile_imp hc]
  cases rest with
  | nil => rfl
  | cons c rest => exact List.dropWhile_cons_of_neg (by simp [(h c rfl).1])

theorem not_digit_dropWhile (cs : List Char) :
    ∀ c, (cs.dropWhile isDigit).head? = some c → isDigit c = false := by
  intro c hc
  have hhead := List.head?_dropWhile_not isDigit cs
  rw [hc] at hhead
  exact hhead

theorem scaled_rest {fuel : Nat} {x : Float} (h : scaled negative cs fuel x e = .ok (v, r)) :
    r = cs ∧ ∀ rest, scaled negative rest fuel x e = .ok (v, rest) := by
  induction fuel generalizing x e with
  | zero =>
    rw [scaled] at h
    cases h
    exact ⟨rfl, fun rest => by rw [scaled]⟩
  | succ fuel ih =>
    simp only [scaled] at h ⊢
    split at h
    next hsmall =>
      simp only [if_pos hsmall]
      split at h
      next hup =>
        simp only [if_pos hup]
        split at h
        · cases h
        next hfinite =>
          cases h
          exact ⟨rfl, fun rest => by rw [if_neg hfinite]⟩
      next hup =>
        cases h
        exact ⟨rfl, fun rest => by rw [if_neg hup]⟩
    next hsmall =>
      simp only [if_neg hsmall]
      split at h
      next hzero =>
        cases h
        exact ⟨rfl, fun rest => by rw [if_pos hzero]⟩
      next hzero =>
        simp only [if_neg hzero]
        split at h
        · cases h
        next hup =>
          simp only [if_neg hup]
          exact ih h

theorem usesUp_ofParts (hread : ∀ rest, Ends rest → read rest = ofParts negative n e rest)
    (hcs : ∀ c, cs.head? = some c → isDigit c = false)
    (h : ofParts negative n e cs = .ok (v, r)) : UsesUp read cs v r := by
  obtain ⟨rfl, hrest⟩ := scaled_rest h
  refine ⟨hcs, [], rfl, fun rest hr => ?_⟩
  rw [List.nil_append, hread rest hr]
  exact hrest rest

theorem head_nil : ∀ c, ([] : List Char).head? = some c → isDigit c = false := by
  intro c hc
  cases hc

theorem head_cons (hc : isDigit c = false) :
    ∀ d, (c :: cs).head? = some d → isDigit d = false := by
  rintro d ⟨⟩
  exact hc

section Exponent

variable {down : Bool} {k : Nat}

theorem exponentDigits_ends {rest : List Char} (hr : Ends rest) :
    exponentDigits negative down n e k rest =
      ofParts negative n (if down then e - k else e + k) rest := by
  cases rest with
  | nil => rw [exponentDigits]
  | cons c rest => rw [exponentDigits, (hr c rfl).1, if_neg Bool.false_ne_true]

theorem exponentDigits_usesUp (h : exponentDigits negative down n e k cs = .ok (v, r)) :
    UsesUp (exponentDigits negative down n e k) cs v r := by
  induction cs generalizing k with
  | nil =>
    rw [exponentDigits] at h
    exact usesUp_ofParts (fun _ => exponentDigits_ends) head_nil h
  | cons c cs ih =>
    simp only [exponentDigits] at h
    split at h
    next hc =>
      split at h
      next hlong =>
        split at h
        · cases h
        next hvalue =>
          cases h
          refine ⟨not_digit_dropWhile cs, c :: cs.takeWhile isDigit, ?_, fun rest hr => ?_⟩
          · rw [List.cons_append, List.takeWhile_append_dropWhile]
          · rw [List.cons_append]
            simp only [exponentDigits]
            rw [if_pos hc, if_pos hlong, if_neg hvalue, dropWhile_digits hr]
      next hlong =>
        refine UsesUp.cons (fun rest => ?_) (ih h)
        rw [exponentDigits, if_pos hc]
        exact if_neg hlong
    next hc =>
      exact usesUp_ofParts (fun _ => exponentDigits_ends) (head_cons (Bool.eq_false_iff.2 hc)) h

def someExponentDigits (negative down : Bool) (n : Nat) (e : Int) : List Char → Step Json
  | [] => stop .eofValue [] 0
  | c :: cs =>
    if isDigit c then exponentDigits negative down n e (digitValue c) cs
    else stop .invalidNumber (c :: cs) 1

theorem exponent_eq (cs : List Char) : exponent negative n e cs =
    someExponentDigits negative (Decimal.takeSign cs).1 n e (Decimal.takeSign cs).2 := by
  unfold exponent someExponentDigits
  rfl

theorem takeSign_of_ne (hminus : c ≠ '-') (hplus : c ≠ '+') (cs : List Char) :
    Decimal.takeSign (c :: cs) = (false, c :: cs) := by
  unfold Decimal.takeSign
  split
  next heq => exact absurd (List.cons.inj heq).1 hminus
  next heq => exact absurd (List.cons.inj heq).1 hplus
  next => rfl

theorem someExponentDigits_usesUp (h : someExponentDigits negative down n e cs = .ok (v, r)) :
    ∃ c rest, cs = c :: rest ∧ isDigit c = true ∧
      UsesUp (someExponentDigits negative down n e) (c :: rest) v r := by
  cases cs with
  | nil => cases h
  | cons c cs =>
    rw [someExponentDigits] at h
    split at h
    next hc =>
      exact ⟨c, cs, rfl, hc, UsesUp.cons (fun rest => if_pos hc) (exponentDigits_usesUp h)⟩
    next => cases h

theorem exponent_usesUp (h : exponent negative n e cs = .ok (v, r)) :
    UsesUp (exponent negative n e) cs v r := by
  rw [exponent_eq] at h
  obtain ⟨c, ds, hds, hc, hused⟩ := someExponentDigits_usesUp h
  rw [← hds] at hused
  cases cs with
  | nil => cases hds
  | cons d cs =>
    by_cases hminus : d = '-'
    · subst hminus
      exact UsesUp.cons (fun rest => exponent_eq _) hused
    by_cases hplus : d = '+'
    · subst hplus
      exact UsesUp.cons (fun rest => exponent_eq _) hused
    have htake := takeSign_of_ne hminus hplus
    rw [htake] at hds hused
    obtain ⟨rfl, rfl⟩ := List.cons.inj hds
    refine hused.of_digit hc fun rest => ?_
    rw [exponent_eq, htake]

end Exponent

section Fraction

theorem afterFraction_ends {rest : List Char} (hr : Ends rest) :
    afterFraction negative n e rest = ofParts negative n e rest := by
  cases rest with
  | nil => rfl
  | cons c rest =>
    obtain ⟨-, -, he, hE⟩ := hr c rfl
    exact if_neg (not_or.2 ⟨he, hE⟩)

theorem afterFraction_usesUp (hcs : ∀ c, cs.head? = some c → isDigit c = false)
    (h : afterFraction negative n e cs = .ok (v, r)) :
    UsesUp (afterFraction negative n e) cs v r := by
  cases cs with
  | nil => exact usesUp_ofParts (fun _ => afterFraction_ends) hcs h
  | cons c cs =>
    rw [afterFraction] at h
    split at h
    next hmark => exact UsesUp.cons (fun rest => if_pos hmark) (exponent_usesUp h)
    next => exact usesUp_ofParts (fun _ => afterFraction_ends) hcs h

theorem fractionDigits_ends {rest : List Char} (hr : Ends rest) :
    fractionDigits negative n e rest = afterFraction negative n e rest := by
  cases rest with
  | nil => rw [fractionDigits, afterFraction]
  | cons c rest => rw [fractionDigits, (hr c rfl).1, if_neg Bool.false_ne_true]

theorem usesUp_passing {used rest : List Char} (hcs : cs.dropWhile isDigit = used ++ r)
    (hr : Ends rest) : ((cs.takeWhile isDigit ++ used) ++ rest).dropWhile isDigit = used ++ rest := by
  cases used with
  | nil => simpa using dropWhile_digits hr cs
  | cons c used =>
    have hc := not_digit_dropWhile cs c (by rw [hcs]; rfl)
    rw [List.append_assoc, List.dropWhile_append_of_pos fun _ hd => List.mem_takeWhile_imp hd]
    exact List.dropWhile_cons_of_neg (by simp [hc])

theorem fractionDigits_usesUp (h : fractionDigits negative n e cs = .ok (v, r)) :
    UsesUp (fractionDigits negative n e) cs v r := by
  induction cs generalizing n e with
  | nil =>
    rw [fractionDigits] at h
    exact usesUp_ofParts (fun _ hr => (fractionDigits_ends hr).trans (afterFraction_ends hr))
      head_nil h
  | cons c cs ih =>
    rw [fractionDigits] at h
    split at h
    next hc =>
      split at h
      next hlong =>
        obtain ⟨hstops, used, hused, hread⟩ := afterFraction_usesUp (not_digit_dropWhile _) h
        refine ⟨hstops, (c :: cs).takeWhile isDigit ++ used, ?_, fun rest hr => ?_⟩
        · rw [List.append_assoc, ← hused, List.takeWhile_append_dropWhile]
        · have hpassed := usesUp_passing hused hr
          rw [List.takeWhile_cons_of_pos hc] at hpassed ⊢
          rw [List.cons_append, List.cons_append] at hpassed ⊢
          rw [fractionDigits, if_pos hc, if_pos hlong, hpassed]
          exact hread rest hr
      next hlong =>
        refine UsesUp.cons (fun rest => ?_) (ih h)
        rw [fractionDigits, if_pos hc, if_neg hlong]
    next hc =>
      obtain ⟨hstops, used, hused, hread⟩ :=
        afterFraction_usesUp (head_cons (Bool.eq_false_iff.2 hc)) h
      refine ⟨hstops, used, hused, fun rest hr => ?_⟩
      cases used with
      | nil => exact (fractionDigits_ends hr).trans (hread rest hr)
      | cons d used =>
        obtain rfl := (List.cons.inj hused).1
        rw [List.cons_append, fractionDigits, if_neg hc]
        exact hread rest hr

theorem fraction_usesUp (h : fraction negative n e cs = .ok (v, r)) :
    UsesUp (fraction negative n e) cs v r := by
  unfold fraction at h
  split at h
  · cases h
  next c cs =>
    split at h
    next hc => exact (fractionDigits_usesUp h).of_digit hc fun rest => if_pos hc
    next => cases h

end Fraction

theorem longWhole_ends {rest : List Char} (hr : Ends rest) :
    longWhole negative n e rest = ofParts negative n e rest := by
  cases rest with
  | nil => rw [longWhole]
  | cons c rest =>
    obtain ⟨hc, hpoint, he, hE⟩ := hr c rfl
    rw [longWhole, hc, if_neg Bool.false_ne_true, if_neg hpoint, if_neg (not_or.2 ⟨he, hE⟩)]

theorem longWhole_usesUp (h : longWhole negative n e cs = .ok (v, r)) :
    UsesUp (longWhole negative n e) cs v r := by
  induction cs generalizing e with
  | nil =>
    rw [longWhole] at h
    exact usesUp_ofParts (fun _ => longWhole_ends) head_nil h
  | cons c cs ih =>
    rw [longWhole] at h
    split at h
    next hc => exact UsesUp.cons (fun rest => by rw [longWhole, if_pos hc]) (ih h)
    next hc =>
      split at h
      next hpoint =>
        refine UsesUp.cons (fun rest => ?_) (fraction_usesUp h)
        rw [longWhole, if_neg hc, if_pos hpoint]
      next hpoint =>
        split at h
        next hmark =>
          refine UsesUp.cons (fun rest => ?_) (exponent_usesUp h)
          rw [longWhole, if_neg hc, if_neg hpoint, if_pos hmark]
        next =>
          exact usesUp_ofParts (fun _ => longWhole_ends) (head_cons (Bool.eq_false_iff.2 hc)) h

theorem afterWhole_usesUp (hcs : ∀ c, cs.head? = some c → isDigit c = false)
    (h : afterWhole negative n cs = .ok (v, r)) : UsesUp (afterWhole negative n) cs v r := by
  cases cs with
  | nil =>
    cases h
    exact ⟨hcs, [], rfl, fun rest hr => afterWhole_ends negative hr n⟩
  | cons c cs =>
    rw [afterWhole] at h
    split at h
    next hpoint => exact UsesUp.cons (fun rest => if_pos hpoint) (fraction_usesUp h)
    next hpoint =>
      split at h
      next hmark =>
        exact UsesUp.cons (fun rest => (if_neg hpoint).trans (if_pos hmark)) (exponent_usesUp h)
      next =>
        cases h
        exact ⟨hcs, [], rfl, fun rest hr => afterWhole_ends negative hr n⟩

theorem wholeDigits_ends {rest : List Char} (hr : Ends rest) :
    wholeDigits negative n rest = afterWhole negative n rest := by
  cases rest with
  | nil => rw [wholeDigits]
  | cons c rest => rw [wholeDigits, (hr c rfl).1, if_neg Bool.false_ne_true]

theorem wholeDigits_usesUp (h : wholeDigits negative n cs = .ok (v, r)) :
    UsesUp (wholeDigits negative n) cs v r := by
  induction cs generalizing n with
  | nil =>
    rw [wholeDigits] at h
    obtain ⟨hstops, used, hused, hread⟩ := afterWhole_usesUp head_nil h
    obtain ⟨rfl, -⟩ := List.append_eq_nil_iff.1 hused.symm
    exact ⟨hstops, [], hused, fun rest hr => (wholeDigits_ends hr).trans (hread rest hr)⟩
  | cons c cs ih =>
    rw [wholeDigits] at h
    split at h
    next hc =>
      split at h
      next hlong =>
        refine (longWhole_usesUp h).of_digit hc fun rest => ?_
        rw [wholeDigits, if_pos hc, if_pos hlong]
      next hlong =>
        refine UsesUp.cons (fun rest => ?_) (ih h)
        rw [wholeDigits, if_pos hc, if_neg hlong]
    next hc =>
      obtain ⟨hstops, used, hused, hread⟩ :=
        afterWhole_usesUp (head_cons (Bool.eq_false_iff.2 hc)) h
      refine ⟨hstops, used, hused, fun rest hr => ?_⟩
      cases used with
      | nil => exact (wholeDigits_ends hr).trans (hread rest hr)
      | cons d used =>
        obtain rfl := (List.cons.inj hused).1
        rw [List.cons_append, wholeDigits, if_neg hc]
        exact hread rest hr

theorem number_zero (h : ∀ d, cs.head? = some d → isDigit d = false) :
    number negative ('0' :: cs) = afterWhole negative 0 cs := by
  unfold number
  dsimp only
  rw [if_pos rfl]
  cases cs with
  | nil => rfl
  | cons d cs =>
    dsimp only
    rw [h d rfl, if_neg Bool.false_ne_true]

theorem head_of_number_zero (h : number negative ('0' :: cs) = .ok (v, r)) :
    ∀ d, cs.head? = some d → isDigit d = false := by
  intro d hd
  cases cs with
  | nil => cases hd
  | cons d' cs =>
    cases hd
    refine Bool.eq_false_iff.2 fun hdigit => ?_
    unfold number at h
    dsimp only at h
    rw [if_pos rfl, if_pos hdigit] at h
    cases h

theorem number_usesUp (h : number negative cs = .ok (v, r)) : UsesUp (number negative) cs v r := by
  cases cs with
  | nil => cases h
  | cons c cs =>
    by_cases hzero : c = '0'
    · subst hzero
      have hhead := head_of_number_zero h
      rw [number_zero hhead] at h
      obtain ⟨hstops, used, hused, hread⟩ := afterWhole_usesUp hhead h
      refine ⟨hstops, '0' :: used, by rw [hused, List.cons_append], fun rest hr => ?_⟩
      -- What follows the zero is no digit, whether it belongs to the number or not.
      rw [← hread rest hr, List.cons_append, number_zero]
      intro d hd
      cases used with
      | nil => exact (hr d hd).1
      | cons u used => exact hhead d (by rw [hused]; exact hd)
    · unfold number at h
      dsimp only at h
      rw [if_neg hzero] at h
      split at h
      next hc =>
        refine UsesUp.cons (fun rest => ?_) (wholeDigits_usesUp h)
        unfold number
        dsimp only
        rw [if_neg hzero, if_pos hc]
      next => cases h

end Numbers
def Visible (cs : List Char) : Prop := ∀ c ∈ cs, 0x20 < c.toNat

instance (cs : List Char) : Decidable (Visible cs) :=
  List.decidableBAll (fun c : Char => 0x20 < c.toNat) cs

section Visible

variable {cs ds : List Char} {c : Char}

theorem visible_append : Visible (cs ++ ds) ↔ Visible cs ∧ Visible ds := List.forall_mem_append

theorem visible_cons : Visible (c :: cs) ↔ 0x20 < c.toNat ∧ Visible cs := List.forall_mem_cons

theorem Visible.printable (h : Visible cs) : Printable cs := fun c hc => Nat.le_of_lt (h c hc)

theorem Visible.sublist (h : Visible cs) (hds : ds.Sublist cs) : Visible ds :=
  fun c hc => h c (hds.subset hc)

theorem Visible.skipSpace (h : Visible cs) : Json.skipSpace cs = cs := by
  cases cs with
  | nil => rfl
  | cons c cs =>
    refine skipSpace_cons (Bool.eq_false_iff.2 fun hspace => ?_) cs
    have hc := (visible_cons.1 h).1
    simp only [isSpace, Bool.or_eq_true, decide_eq_true_eq] at hspace
    rcases hspace with ((rfl | rfl) | rfl) | rfl <;> exact absurd hc (by decide)

theorem visible_toString (n : Nat) : Visible (toString n).toList := by
  intro c hc
  have hc := isDigit_of_mem_toDigits (Nat.toList_repr ▸ hc : c ∈ Nat.toDigits 10 n)
  rw [isDigit_eq, Char.isDigit_iff_toNat] at hc
  exact Nat.lt_of_lt_of_le (by decide) hc.1

theorem visible_zeros (n : Nat) : Visible (Decimal.zeros n).toList := by
  intro c hc
  rw [Decimal.zeros, String.toList_ofList] at hc
  obtain rfl := List.eq_of_mem_replicate hc
  decide

theorem visible_positionalText {digits : String} (h : Visible digits.toList) (e : Int) :
    Visible (Decimal.Layout.document.positionalText digits e).toList := by
  have hpoint : Visible ".".toList := by decide
  have hwhole : Visible Decimal.Layout.document.whole.toList := by decide
  have hzero : Visible "0.".toList := by decide
  unfold Decimal.Layout.positionalText
  dsimp only
  split
  · rw [String.toList_append, String.toList_append]
    exact visible_append.2 ⟨visible_append.2 ⟨h, visible_zeros _⟩, hwhole⟩
  split
  · simp only [String.toList_append, String.toList_ofList]
    exact visible_append.2 ⟨visible_append.2 ⟨h.sublist (List.take_sublist _ _), hpoint⟩,
      h.sublist (List.drop_sublist _ _)⟩
  · rw [String.toList_append, String.toList_append]
    exact visible_append.2 ⟨visible_append.2 ⟨hzero, visible_zeros _⟩, h⟩

theorem visible_scientificText {digits : String} (h : Visible digits.toList) (leading : Int) :
    Visible (Decimal.scientificText digits leading).toList := by
  have hmark : Visible (if 0 ≤ leading then "e+" else "e-").toList := by split <;> decide
  unfold Decimal.scientificText
  dsimp only
  rw [String.toList_append, String.toList_append]
  refine visible_append.2 ⟨visible_append.2 ⟨?_, hmark⟩, visible_toString _⟩
  split
  · exact h
  · rw [String.toList_ofList]
    exact visible_append.2 ⟨h.sublist (List.take_sublist _ _),
      visible_cons.2 ⟨by decide, h.sublist (List.drop_sublist _ _)⟩⟩

theorem visible_floatText (x : Float) : Visible (floatText x).toList := by
  have hnull : Visible "null".toList := by decide
  have hminus : Visible "-".toList := by decide
  have hmagnitude (d : Decimal) : Visible (Decimal.Layout.document.magnitude d).toList := by
    unfold Decimal.Layout.magnitude
    dsimp only [Decimal.Layout.document]
    split
    · exact visible_positionalText (visible_toString _) _
    · exact visible_scientificText (visible_toString _) _
  have hbody : Visible (if x.isInf then Decimal.Layout.document.infinity
      else Decimal.Layout.document.magnitude (Decimal.shortest x)).toList := by
    split
    · exact hnull
    · exact hmagnitude _
  unfold floatText
  split
  · exact hnull
  unfold Decimal.Layout.render
  dsimp only
  split
  · exact hnull
  split
  · rw [String.toList_append]
    exact visible_append.2 ⟨hminus, hbody⟩
  · exact hbody

end Visible

section Doubles

variable {depth fuel d : Nat} {x : Float} {r : List Char}

theorem ident_value {v w : Json} {es cs : List Char} (h : ident v es cs = .ok (w, r)) : w = v := by
  induction es generalizing cs with
  | nil =>
    cases h
    rfl
  | cons e es ih =>
    cases cs with
    | nil => cases h
    | cons c cs =>
      rw [ident] at h
      split at h
      · exact ih h
      · cases h

/-- A double begins with a minus or a digit. -/
theorem head_of_value_float {c : Char} {cs : List Char} (hcs : skipSpace (c :: cs) = c :: cs)
    (h : value (fuel + 1) d (c :: cs) = .ok (.float x, r)) : c = '-' ∨ isDigit c = true := by
  rw [value, hcs] at h
  dsimp only at h
  split at h
  · cases hs : string cs with
    | error e => rw [hs] at h; cases h
    | ok p => rw [hs] at h; cases h
  split at h
  · cases d with
    | zero => cases h
    | succ d =>
      dsimp only at h
      cases hs : items fuel d true cs with
      | error e => rw [hs] at h; cases h
      | ok p => rw [hs] at h; cases h
  split at h
  · cases d with
    | zero => cases h
    | succ d =>
      dsimp only at h
      cases hs : fields fuel d true [] cs with
      | error e => rw [hs] at h; cases h
      | ok p => rw [hs] at h; cases h
  split at h
  · cases ident_value h
  split at h
  · cases ident_value h
  split at h
  · cases ident_value h
  split at h
  next hminus => exact .inl hminus
  split at h
  next hdigit => exact .inr hdigit
  next => cases h

theorem UsesUp.reads {negative : Bool} {cs : List Char} {v : Json}
    (h : UsesUp (number negative) cs v []) {rest : List Char} (hr : Ends rest) :
    number negative (cs ++ rest) = .ok (v, rest) := by
  obtain ⟨used, hused, hread⟩ := h.exists_used
  rw [List.append_nil] at hused
  exact hused ▸ hread rest hr

/-- A double that is read back from its text by itself is read back from it everywhere. -/
theorem reads_float (depth : Nat) (h : parse? (floatText x) = some (.float x)) :
    Reads depth (floatText x).toList (.float x) := by
  have hvisible := visible_floatText x
  have hdocument := document_of_parse? h
  revert hdocument hvisible
  generalize (floatText x).toList = text
  intro hvisible hdocument
  obtain ⟨r, hv, hr⟩ := value_of_document hdocument
  -- Nothing is left over, because the blanks that may be are not among what was written.
  have hrest {front : List Char} (hfront : text = front ++ r) : r = [] := by
    rw [hfront] at hvisible
    rw [← hr, (visible_append.1 hvisible).2.skipSpace]
  cases text with
  | nil =>
    rw [value] at hv
    cases hv
  | cons c cs =>
    refine reads_of_succ (List.cons_ne_nil c cs) fun fuel d rest _ _ hends => ?_
    rcases head_of_value_float hvisible.skipSpace hv with rfl | hdigit
    · rw [value_minus] at hv
      have hnumber := number_usesUp hv
      obtain ⟨used, hused, -⟩ := hnumber.exists_used
      have hfront : '-' :: cs = ('-' :: used) ++ r := by rw [hused, List.cons_append]
      obtain rfl := hrest hfront
      rw [List.cons_append, value_minus]
      exact hnumber.reads hends
    · rw [value_digit hdigit] at hv
      have hnumber := number_usesUp hv
      obtain ⟨used, hused, -⟩ := hnumber.exists_used
      obtain rfl := hrest hused
      rw [List.cons_append, value_digit hdigit]
      exact hnumber.reads hends

end Doubles
end Anneal.Json
