import Portamento.Sound.Tone

/-!
# Rendered sound

A renderer mixes the tones of a pass into samples, each tone as a sine wave whose phase runs on
through every change of frequency. A buffer of samples can be repeated, measured and played.
-/

namespace Portamento

/-- Samples of one channel at a fixed number per second. -/
structure Buffer (α : Type) where
  rate : Nat
  samples : Array α
  deriving DecidableEq, Repr

namespace Buffer

variable {α : Type} [Tonal α]

def silent (frames rate : Nat) : Buffer α := ⟨rate, Array.replicate frames (Scalar.ofNat 0)⟩

def frames (buffer : Buffer α) : Nat := buffer.samples.size

def seconds (buffer : Buffer α) : α := Scalar.ofNat buffer.frames / Scalar.ofNat buffer.rate

def peak (buffer : Buffer α) : α :=
  buffer.samples.foldl (fun peak x => Scalar.max peak (Scalar.magnitude x)) (Scalar.ofNat 0)

/-- A sample of a buffer that goes round and round lies within one pass of it. -/
theorem mod_size_lt {passes size : Nat} (i : Fin (passes * size)) : i.val % size < size :=
  Nat.mod_lt _ (Nat.pos_of_ne_zero fun h => absurd i.isLt (by simp [h]))

def repeated (buffer : Buffer α) (passes : Nat) : Buffer α :=
  { buffer with
    samples := Array.ofFn fun i : Fin (passes * buffer.samples.size) =>
      have _inside := mod_size_lt i
      buffer.samples[i.val % buffer.samples.size] }

end Buffer

namespace Mixing

variable {α : Type} [Tonal α]

/-- How many samples cover a length of time. -/
def framesFor (seconds : α) (rate : Nat) : Nat :=
  Scalar.nearestCount (Scalar.max seconds (Scalar.ofNat 0) * Scalar.ofNat rate)

/-- The first sample at or after a time, within a buffer of the given size. -/
def frameAt (t : α) (rate size : Nat) : Nat :=
  min (Scalar.ceilCount (t * Scalar.ofNat rate)) size

/-- The phase of a tone one sample later. -/
def nextPhase (tone : Tone α) (rate : Nat) (t phase : α) : α :=
  Scalar.remainder
    (phase + Tonal.turn * tone.path.frequencyAt t / Scalar.ofNat rate) Tonal.turn

/-- Adds a tone to so many samples from a frame on, with the phase it has there. -/
@[specialize]
def addFrom (tone : Tone α) (rate : Nat) (count frame : Nat) (phase : α) (samples : Array α) :
    Array α :=
  match count with
  | 0 => samples
  | count + 1 =>
    let t := Scalar.ofNat frame / Scalar.ofNat rate
    let contribution := Tonal.sample (Tonal.sin phase * tone.gainAt t)
    addFrom tone rate count (frame + 1) (nextPhase tone rate t phase)
      (samples.modify frame fun x => Tonal.sample (x + contribution))

/-- Adds a tone to the samples that lie within it. -/
def addTone (rate : Nat) (samples : Array α) (tone : Tone α) : Array α :=
  let first := frameAt tone.start rate samples.size
  let last := frameAt tone.finish rate samples.size
  addFrom tone rate (last - first) first (Scalar.ofNat 0) samples

def render (list : ToneList α) (seconds : α) (rate : Nat) : Buffer α :=
  let buffer := Buffer.silent (framesFor seconds rate) rate
  { buffer with samples := list.tones.foldl (addTone rate) buffer.samples }

/-- The number of samples that no memory holds, at four bytes each. -/
def unreachableFrames : Nat := Nat.pow 2 61

/-- Mixes tones into a buffer, unless there is no rate to do it at. A buffer beyond all memory
breaks the rendering off. -/
def render? (list : ToneList α) (seconds : α) (rate : Nat) : Except SoundFault (Buffer α) :=
  if rate = 0 then .error (.renderFailed "sample rate must be non-zero")
  else if unreachableFrames ≤ framesFor seconds rate then .error .brokenOff
  else .ok (render list seconds rate)

def renderPass (shape : EnvelopeShape α) (score : Score α) (rate : Nat) :
    Except SoundFault (Buffer α) := do
  let list ← ToneList.empty.emitAll (Timeline.ofScore shape score (Scalar.ofNat 0))
  render? list score.totalSeconds rate

end Mixing

/-- A buffer that a device plays from a time on, once or round and round. -/
structure BufferPlayback (α : Type) where
  buffer : Buffer α
  start : α
  looping : Bool
  deriving DecidableEq, Repr

namespace BufferPlayback

variable {α : Type} [Tonal α]

/-- The place in the buffer that is heard at a time, or nothing while it is silent. -/
def positionAt? (playback : BufferPlayback α) (t : α) : Option α :=
  let length := playback.buffer.seconds
  let elapsed := t - playback.start
  if elapsed < Scalar.ofNat 0 ∨ length ≤ Scalar.ofNat 0 then none
  else if playback.looping then some (Scalar.remainder elapsed length)
  else if elapsed < length then some elapsed
  else none

/-- How often the buffer has been played to its end by a time. -/
def passesAt (playback : BufferPlayback α) (t : α) : Nat :=
  let length := playback.buffer.seconds
  if t ≤ playback.start ∨ length ≤ Scalar.ofNat 0 then 0
  else
    let passes := Scalar.floorCount ((t - playback.start) / length)
    if playback.looping then passes else min passes 1

end BufferPlayback

end Portamento
