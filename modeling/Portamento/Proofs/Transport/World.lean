import Mathlib.Logic.Relation
import Portamento.Proofs.Live.Step
import Portamento.Proofs.Transport.Frame
import Portamento.Transport.Performance

/-!
# A transport and its live loops, interleaved

The live loops of a transport run beside it. Between any two steps of a loop time may pass, other
loops may take steps, and the transport may take up an operation or go on with one. The transport
acts on the device only while no loop holds it, and takes up an operation only when it is done with
the one before. The device may come to refuse tones at any time, and take them again later.

For every tone a mark is kept that says what the tone was created for: the loop, the pass, and the
event. Tones are numbered from zero on, and so the mark of a tone is found by the tone's number.
-/

namespace Portamento

/-- What a tone was created for. -/
structure Mark (α : Type) where
  loop : Nat
  pass : Nat
  event : Event α

/-- A transport at an instant, with its live loops on the way. -/
structure World (α : Type) where
  instant : Nat
  transport : Transport α
  /-- What the transport has still to do for the operation that it has taken up. -/
  errand : Option Errand
  /-- The marks of all tones that have ever been created, in the order of their numbers. -/
  marks : List (Mark α)

/-- Whether no loop holds the device. -/
def Transport.IsFree {α : Type} (t : Transport α) : Prop :=
  ∀ loop ∈ t.loops, loop.holdsDevice = false

/-- To tell a loop to stop does not take the device away from it. -/
theorem Transport.IsFree.revoke {α : Type} {t : Transport α} (free : t.IsFree) :
    t.revoke.IsFree := by
  intro loop member
  obtain ⟨loops, eq, -, revoked⟩ := t.revoke_eq
  rw [eq] at member
  obtain ⟨i, found⟩ := List.mem_iff_getElem?.mp member
  obtain ⟨before, numbered, ⟨-, rfl⟩ | ⟨-, rfl⟩⟩ := loop_of_revoked revoked found
  · exact free before (List.mem_of_getElem? numbered)
  · exact free loop (List.mem_of_getElem? numbered)

namespace World

variable {α : Type} [Tonal α]

/-- A transport on which nothing has been begun, and a device on which nothing has happened. -/
def launch (settings : Settings α) (text : List Char) (rate rendererRate : Nat)
    (limits : DeviceLimits) (unavailable instant : Nat) : World α where
  instant
  transport := .new settings text ⟨.withRenderer rate rendererRate limits, unavailable, 0⟩
  errand := none
  marks := []

omit [Tonal α] in
/-- The device that sessions are begun on. -/
def device (w : World α) : Device α := w.transport.heldDevice

/-- The reading of its clock. -/
def now (w : World α) : α := w.device.now w.instant

/-- The tones on it. -/
def tones (w : World α) : List (Tone α) := w.device.tones.tones

/-- The world after a step of a loop on the device. -/
def stepped (w : World α) (i : Nat) (loop next : LiveLoop α) (device after : Device α) :
    World α where
  instant := w.instant
  transport :=
    { w.transport with
      device := some after
      loops := w.transport.loops.set i next
      logged := w.transport.logged.addAll (loop.words next) }
  errand := w.errand
  marks := w.marks ++ (loop.granted device).map (⟨i, loop.passes, ·⟩)

/-- The world after the transport has carried out an errand. -/
def carriedOut (w : World α) (errand : Errand) : World α where
  instant := w.instant
  transport := (w.transport.carryOut w.instant errand).1
  errand := (w.transport.carryOut w.instant errand).2
  marks := w.marks

/-- What can happen: time passes, the device comes to refuse tones or takes them again, a loop takes
a step, the transport is given another text or tempo or reads its text, takes up an operation, or
goes on with the one that it has taken up. -/
inductive Move (w : World α) : World α → Prop where
  | advance (nanoseconds : Nat) : Move w { w with instant := w.instant + nanoseconds }
  | limit (limits : DeviceLimits) : Move w { w with transport := w.transport.limited limits }
  | step (i : Nat) (loop next : LiveLoop α) (device after : Device α)
      (held : w.transport.device = some device) (numbered : w.transport.loops[i]? = some loop)
      (taken : loop.step? w.instant device = some (next, after)) :
      Move w (w.stepped i loop next device after)
  | edit (transport : Transport α) (idle : w.errand = none)
      (edits : w.transport.Edits transport) : Move w { w with transport }
  | takeUp (transport : Transport α) (errand : Errand) (idle : w.errand = none)
      (takes : w.transport.TakesUp transport errand) :
      Move w { w with transport, errand := some errand }
  | carryOut (errand : Errand) (pending : w.errand = some errand) (free : w.transport.IsFree) :
      Move w (w.carriedOut errand)

/-- Any number of moves, in any order. -/
abbrev Run : World α → World α → Prop := Relation.ReflTransGen Move

section Operations

/-! An operation that meets no loop in the middle of a pass is a run: it is taken up and carried out
with nothing in between. -/

variable (w : World α)

/-- An operation of one errand. -/
theorem run_errand {transport : Transport α} {errand : Errand} (idle : w.errand = none)
    (takes : w.transport.TakesUp transport errand)
    (free : transport.IsFree) (last : (transport.carryOut w.instant errand).2 = none) :
    Run w { w with transport := (transport.carryOut w.instant errand).1 } := by
  have second : Move { w with transport, errand := some errand } _ := .carryOut errand rfl free
  have both := (Relation.ReflTransGen.single (.takeUp transport errand idle takes)).tail second
  rwa [carriedOut, last, ← idle] at both

variable (idle : w.errand = none) (free : w.transport.IsFree)

include idle free

theorem run_pause : Run w { w with transport := w.transport.pause w.instant } := by
  by_cases playing : w.transport.state = .playing
  · rw [w.transport.pause_eq w.instant playing]
    exact w.run_errand idle (.pause playing) free rfl
  · unfold Transport.pause
    split
    · next state => exact absurd state playing
    · exact .refl

theorem run_resume : Run w { w with transport := w.transport.resume w.instant } := by
  by_cases paused : w.transport.state = .paused
  · rw [w.transport.resume_eq w.instant paused]
    exact w.run_errand idle (.resume paused) free rfl
  · unfold Transport.resume
    split
    · next state => exact absurd state paused
    · exact .refl

theorem run_stop : Run w { w with transport := w.transport.stop w.instant } := by
  by_cases session : w.transport.session.isSome = true
  · rw [w.transport.stop_eq w.instant session]
    refine w.run_errand idle (.stop session) (Transport.IsFree.revoke ?_) rfl
    split <;> exact free
  · unfold Transport.stop
    split
    · exact .refl
    · next found => simp [found] at session

theorem run_pollLive : Run w { w with transport := (w.transport.pollLive w.instant).1 } := by
  cases returned : w.transport.sessionLoop?.bind LiveLoop.outcome? with
  | none =>
    simp only [Transport.pollLive, returned]
    exact .refl
  | some outcome =>
    rw [w.transport.pollLive_eq w.instant outcome returned]
    refine w.run_errand idle (.poll outcome returned) free.revoke ?_
    cases outcome <;> rfl

theorem run_start : Run w { w with transport := (w.transport.start w.instant).1 } := by
  by_cases paused : w.transport.state = .paused
  · rw [w.transport.start_eq_resume w.instant paused]
    exact w.run_errand idle (.resume paused) free rfl
  · cases session : w.transport.session with
    | none =>
      rw [w.transport.start_eq_begin w.instant session]
      exact w.run_errand idle (.start session) free rfl
    | some found =>
      have isSome : w.transport.session.isSome = true := by rw [session]; rfl
      rw [w.transport.start_eq_restart w.instant isSome paused]
      let revoked : World α :=
        { w with transport := w.transport.revoke, errand := some .restarting }
      have first : Move w revoked := .takeUp _ _ idle (.restart isSome paused)
      have second : Move revoked (revoked.carriedOut .restarting) := .carryOut _ rfl free.revoke
      have third : Move (revoked.carriedOut .restarting) _ := .carryOut .beginning rfl free.revoke
      have all := ((Relation.ReflTransGen.single first).tail second).tail third
      simpa only [carriedOut, Transport.carryOut, idle] using all

end Operations

end World

end Portamento
