import Portamento.Sound.Device

/-!
# The live loop

A live loop lays one pass after the other on a device. Pass `n` begins at `origin + n * length`, so
that each pass begins where the one before it ends, and it is laid in full, a set time before it
begins. The loop is told to stop by a mark that it looks at between passes: a pass that has been
begun is laid to its end.

The loop is a machine. One step does one thing that others can see: read the clock, fall asleep,
wake, look at the mark, ask for one tone. While it is laying a pass the loop holds the device, and
nobody else may touch the device before the pass is laid.
-/

namespace Portamento

/-- What a live loop is asked to play. -/
structure LivePlan (α : Type) where
  /-- One pass whose first chord is at time zero. -/
  pass : Timeline α
  /-- Seconds of silence before the first pass. -/
  leadIn : α
  looping : Bool
  /-- How many seconds before its beginning a pass is laid. -/
  ahead : α
  deriving DecidableEq, Repr

inductive LivePhase (α : Type) where
  | fresh
  /-- It is about to read the clock, to see whether a time has come; `closing` tells the end of the
  last pass from the beginning of another. -/
  | checking (target : α) (closing : Bool)
  /-- It sleeps until an instant, or until it is told to stop. -/
  | resting (wake : Nat) (target : α) (closing : Bool)
  /-- It is about to take the device and to look at the mark. -/
  | entering
  /-- It holds the device, with these events of the pass still to be laid. -/
  | laying (later : List (Event α))
  /-- It has returned: the number of passes laid in full, or why it broke off. -/
  | ended (outcome : Except SoundFault Nat)

structure LiveLoop (α : Type) where
  plan : LivePlan α
  /-- The time on the device's clock at which the first pass begins. -/
  origin : α
  /-- The number of passes laid in full. -/
  passes : Nat
  phase : LivePhase α
  /-- The mark that tells the loop to stop. -/
  cancelled : Bool

namespace LiveLoop

variable {α : Type} [Tonal α]

/-- Times on the clock that differ by less are taken for equal. -/
def tolerance : α := Scalar.ratio 1 1000000

/-- The longest sleep. The clock may be suspended during a sleep, and so is read again after it. -/
def longestRest : α := Scalar.ratio 50 1000

/-- Sleepers are woken at whole milliseconds only. -/
def wakeGrain : Nat := 1000000

/-- The first whole millisecond that is not before an instant. -/
def wakeInstant (deadline : Nat) : Nat := (deadline + (wakeGrain - 1)) / wakeGrain * wakeGrain

def ofPlan (plan : LivePlan α) : LiveLoop α := ⟨plan, Scalar.ofNat 0, 0, .fresh, false⟩

def passLength (loop : LiveLoop α) : α := loop.plan.pass.duration

/-- The beginning of a pass on the device's clock. -/
def passStart (loop : LiveLoop α) (pass : Nat) : α :=
  loop.origin + Scalar.ofNat pass * loop.passLength

/-- The events of a pass, in the time of the device. -/
def passEvents (loop : LiveLoop α) (pass : Nat) : List (Event α) :=
  (loop.plan.pass.shifted (loop.passStart pass)).events

/-- The mark is set, and never taken back. -/
def cancel (loop : LiveLoop α) : LiveLoop α := { loop with cancelled := true }

def leave (loop : LiveLoop α) : LiveLoop α := { loop with phase := .ended (.ok loop.passes) }

def isFinished (loop : LiveLoop α) : Bool :=
  match loop.phase with
  | .ended _ => true
  | _ => false

def holdsDevice (loop : LiveLoop α) : Bool :=
  match loop.phase with
  | .laying _ => true
  | _ => false

/-- The first step: a pass without length is no pass; otherwise the first pass begins after the
lead-in. -/
def begin (loop : LiveLoop α) (now : α) : LiveLoop α :=
  if loop.passLength ≤ Scalar.ofNat 0 then { loop with phase := .ended (.ok 0) }
  else { loop with origin := now + loop.plan.leadIn, phase := .entering }

def arrive (loop : LiveLoop α) (closing : Bool) : LiveLoop α :=
  if closing then loop.leave else { loop with phase := .entering }

/-- Reads the clock: the time has come, or the loop sleeps for what remains, but never long. -/
def check (loop : LiveLoop α) (instant : Nat) (now target : α) (closing : Bool) : LiveLoop α :=
  let remaining := target - now
  if remaining ≤ tolerance then loop.arrive closing
  else
    let deadline := instant + Scalar.nanoseconds (Scalar.min remaining longestRest)
    { loop with phase := .resting (wakeInstant deadline) target closing }

/-- What follows a pass that has been laid: a loop that repeats waits for the next pass to come
near, another one for the end of its only pass. -/
def passLaid (loop : LiveLoop α) : LiveLoop α :=
  let laid := loop.passes + 1
  let phase :=
    if loop.plan.looping then .checking (loop.passStart laid - loop.plan.ahead) false
    else .checking (loop.passStart loop.passes + loop.passLength) true
  { loop with passes := laid, phase }

/-- One step at an instant, or nothing if the loop sleeps or has returned. -/
def step? (instant : Nat) (loop : LiveLoop α) (device : Device α) :
    Option (LiveLoop α × Device α) :=
  match loop.phase with
  | .fresh => some (loop.begin (device.now instant), device)
  | .checking target closing =>
    some (loop.check instant (device.now instant) target closing, device)
  | .resting wake target closing =>
    if loop.cancelled then some (loop.leave, device)
    else if wake ≤ instant then some ({ loop with phase := .checking target closing }, device)
    else none
  | .entering =>
    if loop.cancelled then some (loop.leave, device)
    else some ({ loop with phase := .laying (loop.passEvents loop.passes) }, device)
  | .laying [] => some (loop.passLaid, device)
  | .laying (event :: later) =>
    match device.emit event with
    | (device, .ok ()) => some ({ loop with phase := .laying later }, device)
    | (device, .error fault) => some ({ loop with phase := .ended (.error fault) }, device)
  | .ended _ => none

def wake? (loop : LiveLoop α) : Option Nat :=
  match loop.phase with
  | .resting wake _ _ => some wake
  | _ => none

def outcome? (loop : LiveLoop α) : Option (Except SoundFault Nat) :=
  match loop.phase with
  | .ended outcome => some outcome
  | _ => none

end LiveLoop

end Portamento
