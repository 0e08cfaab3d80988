import Anneal.Proofs.Lists
import Anneal.Repair.Loop
import Mathlib.Data.List.Forall2
import Mathlib.Data.List.SplitBy

/-! The course of a repair, as its entries tell it. A verification begins with a compilation of the
candidate, so the entries are cut in front of these. What a verification found is read off the
answers of the toolchains in it and before it, without the functions that reach the verdict. -/

namespace Anneal.Repair

variable {σ : Type}

def Call.opens : Call → Bool
  | .compile .candidate _ _ => true
  | _ => false

def Call.isChat : Call → Bool
  | .chat _ _ => true
  | _ => false

def Call.isWrite : Call → Bool
  | .write _ => true
  | _ => false

def callsOf (es : List (Entry σ)) : List Call := es.map Entry.call

@[simp] theorem callsOf_cons (e : Entry σ) (es : List (Entry σ)) :
    callsOf (e :: es) = e.call :: callsOf es := rfl

@[simp] theorem callsOf_nil : callsOf ([] : List (Entry σ)) = [] := rfl

@[simp] theorem callsOf_append (es fs : List (Entry σ)) :
    callsOf (es ++ fs) = callsOf es ++ callsOf fs := List.map_append

structure Verification (σ : Type) where
  earlier : List (Entry σ)
  own : List (Entry σ)

def Verification.calls (v : Verification σ) : List Call := callsOf v.own

def Verification.callsSoFar (v : Verification σ) : List Call := callsOf v.earlier ++ callsOf v.own

def verificationsFrom (earlier : List (Entry σ)) : List (List (Entry σ)) → List (Verification σ)
  | [] => []
  | own :: rest => ⟨earlier, own⟩ :: verificationsFrom (earlier ++ own) rest

def verifications (es : List (Entry σ)) : List (Verification σ) :=
  verificationsFrom [] (es.splitBy fun _ e => !e.call.opens)

def compilations (side : Side) (calls : List Call) : List StepResult :=
  calls.filterMap fun
    | .compile side' _ (.ok r) => if side' = side then some r else none
    | _ => none

def runs (side : Side) (calls : List Call) : List StepResult :=
  calls.filterMap fun
    | .run side' _ _ (.ok r) => if side' = side then some r else none
    | _ => none

def Compiled (side : Side) (calls : List Call) : Prop :=
  ∃ c ∈ compilations side calls, c.ok = true

def Printed (side : Side) (calls : List Call) (output : String) : Prop :=
  ∃ r ∈ runs side calls, r.ok = true ∧ r.text = output

/-- The candidate failed in a verification: the class of the failure and its diagnostic. -/
inductive Fails (s : Setup σ) (v : Verification σ) : FailureClass → String → Prop
  | compile {c : StepResult} (hc : c ∈ compilations .candidate v.calls) (hf : c.ok = false) :
      Fails s v .compileError c.text
  | run {r : StepResult} (hr : r ∈ runs .candidate v.calls) (hf : r.ok = false) :
      Fails s v .runtimeError r.text
  | compare {output expected : String} (hc : Printed .candidate v.calls output)
      (hr : Printed .reference v.callsSoFar expected)
      (hf : s.settings.comparison.accepts output expected = false) :
      Fails s v .outputMismatch (Prompts.mismatchReport s.candidate.language.displayName output
        s.reference.language.displayName expected)

/-- The reference turned out to be broken in a verification. -/
inductive Breaks (v : Verification σ) : String → Prop
  | compile {c : StepResult} (hc : c ∈ compilations .reference v.calls) (hf : c.ok = false) :
      Breaks v ("reference program failed to compile:\n" ++ c.text)
  | run {r : StepResult} (hr : r ∈ runs .reference v.calls) (hf : r.ok = false) :
      Breaks v ("reference program failed to run:\n" ++ r.text)

def Diagnosed (s : Setup σ) (v : Verification σ) (diagnostic : String) : Prop :=
  (∃ c, Fails s v c diagnostic) ∨ Breaks v diagnostic

/-- In a verification the candidate compiled and ran, the reference has compiled and run by then,
and the outputs are accepted as the same. -/
def Agrees (s : Setup σ) (v : Verification σ) (output : String) : Prop :=
  Compiled .candidate v.calls ∧ Printed .candidate v.calls output ∧
    Compiled .reference v.callsSoFar ∧ ∃ expected, Printed .reference v.callsSoFar expected ∧
      s.settings.comparison.accepts output expected = true

@[simp] theorem compilations_append (side : Side) (cs ds : List Call) :
    compilations side (cs ++ ds) = compilations side cs ++ compilations side ds :=
  List.filterMap_append

@[simp] theorem runs_append (side : Side) (cs ds : List Call) :
    runs side (cs ++ ds) = runs side cs ++ runs side ds :=
  List.filterMap_append

def Opening (own : List (Entry σ)) : Prop :=
  ∃ e rest, own = e :: rest ∧ e.call.opens = true ∧ ∀ f ∈ rest, f.call.opens = false

theorem verificationsFrom_append (earlier own : List (Entry σ)) (rounds : List (List (Entry σ))) :
    verificationsFrom earlier (rounds ++ [own]) =
      verificationsFrom earlier rounds ++ [⟨earlier ++ rounds.flatten, own⟩] := by
  induction rounds generalizing earlier with
  | nil => simp [verificationsFrom]
  | cons first rest ih => simp [verificationsFrom, ih]

theorem verificationsFrom_mem {earlier : List (Entry σ)} {rounds : List (List (Entry σ))}
    {v : Verification σ} (h : v ∈ verificationsFrom earlier rounds) :
    ∃ rest, earlier ++ rounds.flatten = v.earlier ++ v.own ++ rest := by
  induction rounds generalizing earlier with
  | nil => cases h
  | cons own rounds ih =>
    rcases List.mem_cons.1 h with rfl | h
    · exact ⟨rounds.flatten, (List.append_assoc _ _ _).symm⟩
    · obtain ⟨rest, hrest⟩ := ih h
      exact ⟨rest, by rw [← hrest, List.flatten_cons, List.append_assoc]⟩

theorem verifications_mem {es : List (Entry σ)} {v : Verification σ} (h : v ∈ verifications es) :
    ∃ rest, es = v.earlier ++ v.own ++ rest := by
  obtain ⟨rest, hrest⟩ := verificationsFrom_mem h
  rw [List.nil_append, List.flatten_splitBy] at hrest
  exact ⟨rest, hrest⟩

theorem splitBy_opening {own : List (Entry σ)} (h : Opening own) :
    own.splitBy (fun _ e => !e.call.opens) = [own] := by
  obtain ⟨e, rest, rfl, -, hrest⟩ := h
  apply List.splitBy_of_isChain (by simp)
  induction rest generalizing e with
  | nil => simp
  | cons f rest ih =>
    rw [List.isChain_cons_cons]
    exact ⟨by simp [hrest f], ih f fun g hg => hrest g (by simp [hg])⟩

theorem verifications_append {es own : List (Entry σ)} (h : Opening own) :
    verifications (es ++ own) = verifications es ++ [⟨es, own⟩] := by
  -- The only new cut is the one in front of `own`.
  have hcut : (es ++ own).splitBy (fun _ e => !e.call.opens) =
      es.splitBy (fun _ e => !e.call.opens) ++ own.splitBy fun _ e => !e.call.opens := by
    obtain ⟨e, rest, rfl, he, -⟩ := h
    exact List.splitBy_append_cons rest fun _ _ => by simp [he]
  rw [verifications, hcut, splitBy_opening h, verificationsFrom_append, List.flatten_splitBy]
  rfl

end Anneal.Repair
