import Anneal.Disk
import Anneal.Timestamp

/-!
# The world around the assistant

The assistant sees a disk, a cancel flag and a clock. Everything else that a model backend or a
compiler may depend on is in `outside`, which only they look at. An action maps a world to a
result and the world after it.
-/

namespace Anneal

structure World (σ : Type) where
  disk : Disk
  cancelled : Bool
  clock : Nat
  outside : σ

namespace World

variable {σ : Type}

def now (w : World σ) : Timestamp := .ofMillis w.clock

def cancel (w : World σ) : World σ := { w with cancelled := true }

def pause (w : World σ) (ms : Nat) : World σ := { w with clock := w.clock + ms }

/-- The same world as others see it. -/
def withOutside {τ : Type} (w : World σ) (outside : τ) : World τ :=
  ⟨w.disk, w.cancelled, w.clock, outside⟩

/-- Runs a disk operation. -/
def onDisk {ε α : Type} (w : World σ) (op : Disk → Except ε α × Disk) :
    Except ε α × World σ :=
  let r := op w.disk
  (r.1, { w with disk := r.2 })

end World

structure Failure where
  contexts : List String
  cause : String
  deriving DecidableEq, Repr

def Failure.message (f : Failure) : String := Text.join ": " (f.contexts ++ [f.cause])

def Failure.of (cause : String) : Failure := ⟨[], cause⟩

def Failure.within (context : String) (f : Failure) : Failure :=
  { f with contexts := context :: f.contexts }

def Failure.ofOs (context : String) (e : OsError) : Failure := ⟨[context], e.message⟩

end Anneal
