import Portamento.Live.Loop
import Portamento.Transport.Notice

/-!
# Live loops on one device

Loops that share a device run in turn: each takes its steps until it sleeps or has returned. Time
moves from one waking to the next, so that a loop which sleeps for less than the time that passes is
woken in between.
-/

namespace Portamento

/-- Loops with the device that they share, and what they have logged. -/
structure Ensemble (α : Type) where
  loops : List (LiveLoop α)
  device : Device α
  logged : Log α

variable {α : Type} [Tonal α]

namespace LiveLoop

/-- What a loop logs with a step. One that finds no pass to play returns without a word. -/
def words (before after : LiveLoop α) : List (Notice α) :=
  match before.phase, after.phase with
  | .fresh, _ => []
  | _, .ended (.ok passes) => [.loopFinished passes]
  | _, _ => []

/-- More steps than a loop takes without sleeping. -/
def patience : Nat := Nat.pow 2 62

/-- Takes steps at an instant for as long as there are any. -/
def run (fuel : Nat) (instant : Nat) (loop : LiveLoop α) (device : Device α)
    (log : Log α) : LiveLoop α × Device α × Log α :=
  match fuel with
  | 0 => (loop, device, log)
  | fuel + 1 =>
    match loop.step? instant device with
    | none => (loop, device, log)
    | some (next, device) => run fuel instant next device (log.addAll (loop.words next))

end LiveLoop

namespace Ensemble

/-- Lets every loop take the steps that it can take at an instant, one loop after the other. -/
def settleAll (instant : Nat) :
    List (LiveLoop α) → Device α → Log α → Ensemble α
  | [], device, log => ⟨[], device, log⟩
  | loop :: later, device, log =>
    let (loop, device, log) := loop.run LiveLoop.patience instant device log
    let rest := settleAll instant later device log
    { rest with loops := loop :: rest.loops }

def settle (e : Ensemble α) (instant : Nat) : Ensemble α :=
  settleAll instant e.loops e.device e.logged

/-- The first instant at which a sleeping loop wakes. -/
def nextWake? (e : Ensemble α) : Option Nat := (e.loops.filterMap LiveLoop.wake?).min?

/-- Lets time pass from an instant to a later one, and wakes every loop that is due by then. -/
def sleep (e : Ensemble α) (instant target : Nat) : Ensemble α :=
  let e := e.settle instant
  match e.nextWake? with
  | none => e
  | some wake => if instant < wake ∧ wake ≤ target then e.sleep wake target else e
termination_by target - instant
decreasing_by omega

end Ensemble

end Portamento
