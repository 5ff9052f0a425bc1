import Portamento.Score.Basic
import Portamento.Timeline.Envelope
import Portamento.Timeline.Path

/-!
# Timelines

A timeline lays the chords of a score end to end. Every chord takes a slot; every note of a chord
that is not a rest becomes an event with its own path and envelope.
-/

namespace Portamento

structure Event (α : Type) where
  chord : Nat
  path : FrequencyPath α
  start : α
  finish : α
  amplitude : α
  envelope : Envelope α
  deriving DecidableEq, Repr

/-- The time that one chord takes, sounding or not. -/
structure Slot (α : Type) where
  index : Nat
  start : α
  finish : α
  isRest : Bool
  deriving DecidableEq, Repr

structure Timeline (α : Type) where
  start : α
  finish : α
  slots : List (Slot α)
  events : List (Event α)
  deriving DecidableEq, Repr

variable {α : Type} [Scalar α]

namespace Event

def duration (event : Event α) : α := event.finish - event.start

def shifted (event : Event α) (offset : α) : Event α :=
  { event with
    path := event.path.shifted offset
    start := event.start + offset
    finish := event.finish + offset
    envelope := event.envelope.shifted offset }

end Event

namespace Slot

/-- Whether a time lies in the slot; the end belongs to the next one. -/
def contains (slot : Slot α) (t : α) : Bool := slot.start ≤ t ∧ t < slot.finish

def shifted (slot : Slot α) (offset : α) : Slot α :=
  { slot with start := slot.start + offset, finish := slot.finish + offset }

end Slot

/-- The events of one chord that starts at a time, the first note first. -/
def Chord.events (shape : EnvelopeShape α) (chord : Chord α) (index : Nat) (start : α) :
    List (Event α) :=
  let finish := start + chord.seconds
  let amplitude := Scalar.ofNat 1 / Scalar.ofNat chord.noteCount
  (List.range chord.noteCount).map fun note =>
    { chord := index
      path := .spread (chord.notePath note) start chord.seconds
      start
      finish
      amplitude
      envelope := shape.fit amplitude start finish }

namespace Timeline

/-- The end, slots and events of chords laid from a time on, the first with the given index. -/
def lay (shape : EnvelopeShape α) (index : Nat) (start : α) :
    List (Chord α) → α × List (Slot α) × List (Event α)
  | [] => (start, [], [])
  | chord :: later =>
    let finish := start + chord.seconds
    let (last, slots, events) := lay shape (index + 1) finish later
    (last, ⟨index, start, finish, chord.isRest⟩ :: slots, chord.events shape index start ++ events)

def ofScore (shape : EnvelopeShape α) (score : Score α) (offset : α) : Timeline α :=
  let (finish, slots, events) := lay shape 0 offset score.chords
  ⟨offset, finish, slots, events⟩

/-- The length of the pass, without what precedes it. -/
def duration (timeline : Timeline α) : α := timeline.finish - timeline.start

def eventsOf (timeline : Timeline α) (chord : Nat) : List (Event α) :=
  timeline.events.filter fun event => event.chord == chord

def slotAt? (timeline : Timeline α) (t : α) : Option (Slot α) :=
  timeline.slots.find? fun slot => slot.contains t

def shifted (timeline : Timeline α) (offset : α) : Timeline α :=
  { start := timeline.start + offset
    finish := timeline.finish + offset
    slots := timeline.slots.map fun slot => slot.shifted offset
    events := timeline.events.map fun event => event.shifted offset }

end Timeline

end Portamento
