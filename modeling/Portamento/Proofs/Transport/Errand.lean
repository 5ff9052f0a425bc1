import Portamento.Proofs.Sound.Request
import Portamento.Proofs.Sound.Time
import Portamento.Transport.Basic

/-!
# The operations of a transport, in two parts

An operation of a transport looks at its state, tells the loop of the session to stop if it is going
to end the session, and then acts on the device. A live loop may be holding the device, and so the
second part may come later than the first. An errand is what an operation has still to do when its
first part is done. Each operation is its two parts, one right after the other.
-/

namespace Portamento

/-- What an operation has still to do on the device. -/
inductive Errand where
  | pausing
  | resuming
  | stopping
  | collecting (outcome : Except SoundFault Nat)
  /-- The device is to be silenced before another session is begun. -/
  | restarting
  | beginning

/-- Whether an errand is to silence the device. -/
def Errand.silences : Errand → Bool
  | .stopping => true
  | .collecting _ => true
  | .restarting => true
  | _ => false

namespace Transport

variable {α : Type}

/-- The number of the session's live loop, if it has one. -/
def current? (t : Transport α) : Option Nat :=
  match t.session with
  | some ⟨.live loop, _, _⟩ => some loop
  | _ => none

/-- The device that a session would be begun on: the one that is held, or else the one to be had. -/
def heldDevice (t : Transport α) : Device α := t.device.getD t.source.device

/-- The transport when its device has got other limits, be the device held already or still to be
had. -/
def limited (t : Transport α) (limits : DeviceLimits) : Transport α :=
  { t with
    source := if t.device.isSome then t.source
      else { t.source with device := t.source.device.limited limits }
    device := t.device.map fun device => device.limited limits }

theorem heldDevice_limited (t : Transport α) (limits : DeviceLimits) :
    (t.limited limits).heldDevice = t.heldDevice.limited limits := by
  unfold heldDevice limited
  cases t.device <;> rfl

/-- The source has nothing more to do with a device that is held. -/
theorem source_limited (t : Transport α) (limits : DeviceLimits) (held : t.device.isSome = true) :
    (t.limited limits).source = t.source :=
  if_pos held

theorem sessionLoop?_eq (t : Transport α) :
    t.sessionLoop? = t.current?.bind fun i => t.loops[i]? := by
  unfold sessionLoop? current?
  rcases t.session with _ | ⟨_ | loop, looping, paused⟩ <;> rfl

theorem state_of_idle (t : Transport α) (idle : t.session = none) : t.state = .idle := by
  simp only [state, idle]

variable [Tonal α]

/-- The device is suspended, and the session marked as paused. -/
def hold (t : Transport α) (instant : Nat) : Transport α :=
  let t := (t.onDevice fun device => device.suspend instant).setPaused true
  t.log (.paused (t.now instant))

/-- The device is resumed, and the session marked as playing. -/
def release (t : Transport α) (instant : Nat) : Transport α :=
  let t := (t.onDevice fun device => device.resume instant).setPaused false
  t.log (.resumed (t.now instant))

/-- What an errand does when it is carried out, and the errand that follows from it. -/
def carryOut (t : Transport α) (instant : Nat) : Errand → Transport α × Option Errand
  | .pausing => (t.hold instant, none)
  | .resuming => (t.release instant, none)
  | .stopping => ((t.silence instant).log .stopped, none)
  | .collecting (.ok passes) => ((t.silence instant).log (.liveFinished passes), none)
  | .collecting (.error fault) => ((t.silence instant).log (.liveFailed fault), none)
  | .restarting => (t.silence instant, some .beginning)
  | .beginning => ((t.startAnew instant).1, none)

/-- What the first part of an operation makes of a transport, and the errand that is left. An
operation that does not fit the state does nothing and leaves none. -/
inductive TakesUp (t : Transport α) : Transport α → Errand → Prop where
  | pause (playing : t.state = .playing) : TakesUp t t .pausing
  /-- Beginning while the session is paused resumes it, too. -/
  | resume (paused : t.state = .paused) : TakesUp t t .resuming
  | stop (session : t.session.isSome = true) :
      TakesUp t (if t.isFinished then t.log .uncollected else t).revoke .stopping
  | poll (outcome : Except SoundFault Nat)
      (returned : t.sessionLoop?.bind LiveLoop.outcome? = some outcome) :
      TakesUp t t.revoke (.collecting outcome)
  | restart (session : t.session.isSome = true) (unpaused : t.state ≠ .paused) :
      TakesUp t t.revoke .restarting
  | start (idle : t.session = none) : TakesUp t t .beginning

/-- What can be done to a transport without its device. -/
inductive Edits (t : Transport α) : Transport α → Prop where
  | setText (text : List Char) : Edits t (t.setText text)
  | setTempo (tempo : α) : Edits t (t.setTempo tempo)
  | resolve : Edits t t.resolve.1
  | timeline : Edits t t.timeline.1

/-! Each operation that fits the state is its two parts, with nothing in between. -/

section Operations

variable (t : Transport α) (instant : Nat)

theorem pause_eq (playing : t.state = .playing) :
    t.pause instant = (t.carryOut instant .pausing).1 := by
  simp only [pause, playing, carryOut, hold]

theorem resume_eq (paused : t.state = .paused) :
    t.resume instant = (t.carryOut instant .resuming).1 := by
  simp only [resume, paused, carryOut, release]

theorem teardown_eq (session : t.session.isSome = true) :
    t.teardown instant = t.revoke.silence instant := by
  unfold teardown
  split
  · next idle => simp [idle] at session
  · rfl

theorem stop_eq (session : t.session.isSome = true) :
    t.stop instant = ((if t.isFinished then t.log .uncollected else t).revoke.carryOut instant
      .stopping).1 := by
  unfold stop
  split
  · next idle => simp [idle] at session
  · have kept : (if t.isFinished then t.log .uncollected else t).session.isSome = true := by
      split <;> exact session
    dsimp only
    rw [teardown_eq _ _ kept]
    rfl

theorem pollLive_eq (outcome : Except SoundFault Nat)
    (returned : t.sessionLoop?.bind LiveLoop.outcome? = some outcome) :
    (t.pollLive instant).1 = (t.revoke.carryOut instant (.collecting outcome)).1 := by
  have session : t.session.isSome = true := by
    cases idle : t.session with
    | none => simp [sessionLoop?, idle] at returned
    | some => rfl
  unfold pollLive
  rw [returned]
  cases outcome with
  | ok passes => simp only [carryOut, teardown_eq t instant session]
  | error fault => simp only [carryOut, teardown_eq t instant session]

theorem start_eq_resume (paused : t.state = .paused) :
    (t.start instant).1 = (t.carryOut instant .resuming).1 := by
  simp only [start, paused]
  exact t.resume_eq instant paused

theorem start_eq_restart (session : t.session.isSome = true) (unpaused : t.state ≠ .paused) :
    (t.start instant).1 =
      ((t.revoke.carryOut instant .restarting).1.carryOut instant .beginning).1 := by
  unfold start
  split
  · next paused => exact absurd paused unpaused
  · rw [teardown_eq t instant session]
    rfl

theorem start_eq_begin (idle : t.session = none) :
    (t.start instant).1 = (t.carryOut instant .beginning).1 := by
  simp only [start, t.state_of_idle idle, teardown, idle, carryOut]

end Operations

end Transport

end Portamento
