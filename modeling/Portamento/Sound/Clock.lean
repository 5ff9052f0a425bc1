import Portamento.Scalar.Basic

/-!
# The clock of an output device

A device counts the time it has been running. The clock is read against an instant of the host, in
nanoseconds; it stands still while the device is suspended, and a new one is suspended at zero.
-/

namespace Portamento

structure OutputClock where
  /-- The instant from which the clock is running, or nothing while it is suspended. -/
  resumedAt : Option Nat
  /-- The nanoseconds counted before that instant. -/
  banked : Nat
  deriving DecidableEq, Repr

namespace OutputClock

def new : OutputClock := ⟨none, 0⟩

def isRunning (clock : OutputClock) : Bool := clock.resumedAt.isSome

/-- The nanoseconds counted by an instant. -/
def elapsed (clock : OutputClock) (instant : Nat) : Nat :=
  match clock.resumedAt with
  | some start => clock.banked + (instant - start)
  | none => clock.banked

/-- Lets the clock run on; a clock that runs already is left alone. -/
def resume (clock : OutputClock) (instant : Nat) : OutputClock :=
  match clock.resumedAt with
  | some _ => clock
  | none => { clock with resumedAt := some instant }

def suspend (clock : OutputClock) (instant : Nat) : OutputClock :=
  ⟨none, clock.elapsed instant⟩

def now {α : Type} [Scalar α] (clock : OutputClock) (instant : Nat) : α :=
  Scalar.ofNanoseconds (clock.elapsed instant)

end OutputClock

end Portamento
