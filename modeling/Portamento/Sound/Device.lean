import Portamento.Sound.Buffer
import Portamento.Sound.Clock

/-!
# Output devices

A device keeps what it is asked to play: the tones scheduled on it and a buffer that it plays, both
in the time of its own clock. It takes a buffer only at its own rate. How many tones it takes can be
limited: beyond one limit it refuses, beyond the other whoever asks is broken off.
-/

namespace Portamento

/-- How many tones a device takes. -/
structure DeviceLimits where
  /-- Requests numbered above this are refused. -/
  refuseAfter : Option Nat
  /-- Requests numbered above this break off the one who asks. -/
  breakAfter : Option Nat
  deriving DecidableEq, Repr

structure Device (α : Type) where
  clock : OutputClock
  rate : Nat
  /-- The rate at which passes are rendered for this device. -/
  rendererRate : Nat
  tones : ToneList α
  buffer : Option (BufferPlayback α)
  /-- How many tones have been dropped before they began. -/
  cancelled : Nat
  requests : Nat
  limits : DeviceLimits
  deriving DecidableEq, Repr

namespace Device

variable {α : Type} [Tonal α]

/-- A device on which nothing has happened, with a rate for its renderer that may differ from its
own. -/
def withRenderer (rate rendererRate : Nat) (limits : DeviceLimits) : Device α where
  clock := .new
  rate
  rendererRate
  tones := .empty
  buffer := none
  cancelled := 0
  requests := 0
  limits

/-- A device on which nothing has happened and that takes every tone. -/
def new (rate : Nat) : Device α := withRenderer rate rate ⟨none, none⟩

def now (device : Device α) (instant : Nat) : α := device.clock.now instant

def resume (device : Device α) (instant : Nat) : Device α :=
  { device with clock := device.clock.resume instant }

def suspend (device : Device α) (instant : Nat) : Device α :=
  { device with clock := device.clock.suspend instant }

/-- Whether a limit is passed by the request with the given number. -/
def isBeyond (number : Nat) : Option Nat → Bool
  | some limit => limit < number
  | none => false

/-- Asks for a tone, and answers with its number. -/
def create (device : Device α) (path : FrequencyPath α) (start finish : α) :
    Device α × Except SoundFault Nat :=
  let number := device.requests + 1
  let device := { device with requests := number }
  if isBeyond number device.limits.breakAfter then (device, .error .brokenOff)
  else if isBeyond number device.limits.refuseAfter then
    (device, .error (.deviceUnavailable "output lost"))
  else
    let (tones, id) := device.tones.create path start finish
    ({ device with tones }, .ok id)

def attach (device : Device α) (id : Nat) (envelope : Envelope α) :
    Device α × Except SoundFault Unit :=
  match device.tones.attach id envelope with
  | .ok tones => ({ device with tones }, .ok ())
  | .error fault => (device, .error fault)

def emit (device : Device α) (event : Event α) : Device α × Except SoundFault Unit :=
  match device.create event.path event.start event.finish with
  | (device, .ok id) => device.attach id event.envelope
  | (device, .error fault) => (device, .error fault)

/-- Plays a buffer from a time on, in place of the one that was playing. -/
def play (device : Device α) (buffer : Buffer α) (start : α) (looping : Bool) :
    Except SoundFault (Device α) :=
  if buffer.rate = device.rate then .ok { device with buffer := some ⟨buffer, start, looping⟩ }
  else
    .error (.deviceUnavailable ("buffer is " ++ Nat.repr buffer.rate ++ " Hz, device runs at " ++
      Nat.repr device.rate ++ " Hz"))

def stopBuffer (device : Device α) : Device α := { device with buffer := none }

/-- Drops the tones that have not begun, and ends the others at once. -/
def cancelScheduled (device : Device α) (instant : Nat) : Device α :=
  let tones := device.tones.cancelAfter (device.now instant)
  { device with
    tones
    cancelled := device.cancelled + (device.tones.tones.length - tones.tones.length) }

def pending (device : Device α) (instant : Nat) : Nat :=
  (device.tones.after (device.now instant)).length

def sounding (device : Device α) (instant : Nat) : List Nat :=
  (device.tones.soundingAt (device.now instant)).map Tone.id

end Device

end Portamento
