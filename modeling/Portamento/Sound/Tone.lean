import Portamento.Timeline.Basic

/-!
# Tones

What a sound device or a renderer is asked to play: tones, each with a number of its own, and an
envelope that is attached to a tone once it exists. A tone without an envelope plays at full gain.
-/

namespace Portamento

structure Tone (α : Type) where
  id : Nat
  path : FrequencyPath α
  start : α
  finish : α
  envelope : Option (Envelope α)
  deriving DecidableEq, Repr

/-- The tones asked for so far and not dropped, and the number that the next one gets. -/
structure ToneList (α : Type) where
  newestFirst : List (Tone α)
  nextId : Nat
  deriving DecidableEq, Repr

inductive SoundFault where
  | deviceUnavailable (reason : String)
  /-- An envelope for a tone that is not there. -/
  | unknownTone (id : Nat)
  | renderFailed (reason : String)
  /-- A live loop that broke off without an answer. -/
  | brokenOff
  deriving DecidableEq, Repr

def toneName (id : Nat) : String := "ToneId(" ++ Nat.repr id ++ ")"

def SoundFault.message : SoundFault → String
  | .deviceUnavailable reason => "output device unavailable: " ++ reason
  | .unknownTone id => "no tone with id " ++ toneName id
  | .renderFailed reason => "offline render failed: " ++ reason
  | .brokenOff => "render task failed: task panicked"

variable {α : Type}

namespace Tone

variable [Scalar α]

def isSoundingAt (tone : Tone α) (t : α) : Bool := tone.start ≤ t ∧ t < tone.finish

def gainAt (tone : Tone α) (t : α) : α :=
  match tone.envelope with
  | some envelope => envelope.gainAt t
  | none => if tone.isSoundingAt t then Scalar.ofNat 1 else Scalar.ofNat 0

/-- Ends a tone that would go on beyond a time, and its envelope with it. -/
def cutAt (tone : Tone α) (t : α) : Tone α :=
  if t < tone.finish then
    { tone with
      finish := t
      envelope := tone.envelope.map fun e => { e with finish := Scalar.min e.finish t } }
  else tone

end Tone

namespace ToneList

/-- The tones in the order of their numbers. -/
def tones (list : ToneList α) : List (Tone α) := list.newestFirst.reverse

def empty : ToneList α := ⟨[], 0⟩

def create (list : ToneList α) (path : FrequencyPath α) (start finish : α) : ToneList α × Nat :=
  (⟨⟨list.nextId, path, start, finish, none⟩ :: list.newestFirst, list.nextId + 1⟩, list.nextId)

/-- A new tone stands behind the others. -/
theorem tones_create (list : ToneList α) (path : FrequencyPath α) (start finish : α) :
    (list.create path start finish).1.tones =
      list.tones ++ [⟨list.nextId, path, start, finish, none⟩] := by
  simp [create, tones]

/-- Gives the first tone of a number an envelope, if there is one. -/
def attachFirst (id : Nat) (envelope : Envelope α) : List (Tone α) → Option (List (Tone α))
  | [] => none
  | tone :: later =>
    if tone.id = id then some ({ tone with envelope := some envelope } :: later)
    else (attachFirst id envelope later).map (tone :: ·)

/-- Gives a tone an envelope in place of the one it may have. -/
def attach (list : ToneList α) (id : Nat) (envelope : Envelope α) :
    Except SoundFault (ToneList α) :=
  match attachFirst id envelope list.newestFirst with
  | some newestFirst => .ok { list with newestFirst }
  | none => .error (.unknownTone id)

def emit (list : ToneList α) (event : Event α) : Except SoundFault (ToneList α) :=
  let (list, id) := list.create event.path event.start event.finish
  list.attach id event.envelope

/-- Adds the tones of all events of a timeline, chord by chord. -/
def emitAll (list : ToneList α) (timeline : Timeline α) : Except SoundFault (ToneList α) :=
  timeline.events.foldlM emit list

def select (list : ToneList α) (isWanted : Tone α → Bool) : List (Tone α) :=
  (list.newestFirst.filter isWanted).reverse

theorem select_eq_filter (list : ToneList α) (isWanted : Tone α → Bool) :
    list.select isWanted = list.tones.filter isWanted := by
  simp [select, tones, List.filter_reverse]

variable [Scalar α]

/-- The tones that start in a span of time; its end does not belong to it. -/
def startingBetween (list : ToneList α) (low high : α) : List (Tone α) :=
  list.select fun tone => low ≤ tone.start ∧ tone.start < high

def soundingAt (list : ToneList α) (t : α) : List (Tone α) :=
  list.select fun tone => tone.isSoundingAt t

theorem soundingAt_eq_filter (list : ToneList α) (t : α) :
    list.soundingAt t = list.tones.filter fun tone => tone.isSoundingAt t :=
  list.select_eq_filter _

def after (list : ToneList α) (t : α) : List (Tone α) := list.select fun tone => t < tone.start

/-- Drops the tones that have not begun by a time, and ends the others there. -/
def cancelAfter (list : ToneList α) (t : α) : ToneList α :=
  let begun := list.newestFirst.filter fun tone => tone.start ≤ t
  { list with newestFirst := begun.map fun tone => tone.cutAt t }

theorem tones_cancelAfter (list : ToneList α) (t : α) :
    (list.cancelAfter t).tones =
      (list.tones.filter fun tone => tone.start ≤ t).map fun tone => tone.cutAt t := by
  simp [cancelAfter, tones, List.filter_reverse, List.map_reverse]

end ToneList

end Portamento
