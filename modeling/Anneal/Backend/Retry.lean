import Anneal.Backend.Error
import Anneal.Word
import Anneal.World

/-!
# Retrying transient failures

A call that fails for a transient reason is made again, a bounded number of times, after a delay
that doubles from one retry to the next up to a cap. Delays are computed in saturating 64-bit
arithmetic.
-/

namespace Anneal

structure RetryPolicy where
  maxRetries : Nat
  initialMs : Nat
  maxMs : Nat
  deriving DecidableEq, Repr

namespace RetryPolicy

def new (maxRetries initialMs maxMs : Nat) : RetryPolicy :=
  ⟨maxRetries, initialMs, max maxMs initialMs⟩

def wordMax : Nat := Word.bound 64 - 1

/-- A power of two, or the largest word where it does not fit. -/
def factor (retry : Nat) : Nat := if retry < 64 then Word.bound retry else wordMax

def saturatingMul (a b : Nat) : Nat := min (a * b) wordMax

/-- The delay before a retry, counted from zero, in milliseconds. -/
def backoff (p : RetryPolicy) (retry : Nat) : Nat :=
  min (saturatingMul p.initialMs (factor retry)) p.maxMs

/-- Calls `op` until it succeeds, fails for good or has been repeated `left` times; `retry` counts
the repetitions made before. -/
def runFrom {α σ : Type} (p : RetryPolicy)
    (op : World σ → Except ClientError α × World σ) :
    Nat → Nat → World σ → Except ClientError α × World σ
  | 0, _, w => op w
  | left + 1, retry, w =>
    match op w with
    | (.ok a, w) => (.ok a, w)
    | (.error e, w) =>
      if e.isTransient then runFrom p op left (retry + 1) (w.pause (p.backoff retry))
      else (.error e, w)

def run {α σ : Type} (p : RetryPolicy) (op : World σ → Except ClientError α × World σ)
    (w : World σ) : Except ClientError α × World σ :=
  p.runFrom op p.maxRetries 0 w

end RetryPolicy
end Anneal
