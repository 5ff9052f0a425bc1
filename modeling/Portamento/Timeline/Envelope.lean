import Portamento.Scalar.Basic

/-!
# Envelopes

A note rises from silence over its attack, holds its amplitude, and falls back over its release. A
shape gives the two ramps before the note is known; fitting it to a note shrinks both in proportion
if they do not find room.
-/

namespace Portamento

structure EnvelopeShape (α : Type) where
  attack : α
  release : α
  deriving DecidableEq, Repr

/-- The gain of one note: nothing before `start` and from `end` on, the amplitude between the ramps.
-/
structure Envelope (α : Type) where
  amplitude : α
  start : α
  finish : α
  attack : α
  release : α
  deriving DecidableEq, Repr

variable {α : Type} [Scalar α]

namespace EnvelopeShape

/-- The shape with the given ramps; a ramp cannot be negative. -/
def ofRamps (attack release : α) : EnvelopeShape α :=
  ⟨Scalar.max attack (Scalar.ofNat 0), Scalar.max release (Scalar.ofNat 0)⟩

/-- The ramp of a shape that nobody asked to change, five milliseconds. -/
def usualRamp : α := Scalar.ratio 5 1000

def usual : EnvelopeShape α := ofRamps usualRamp usualRamp

/-- The factor that brings both ramps into a length. -/
def scale (shape : EnvelopeShape α) (length : α) : α :=
  let ramps := shape.attack + shape.release
  if length < ramps ∧ Scalar.ofNat 0 < ramps then length / ramps else Scalar.ofNat 1

/-- The envelope of a note from `start` to `finish` with the given amplitude. -/
def fit (shape : EnvelopeShape α) (amplitude start finish : α) : Envelope α :=
  let factor := shape.scale (Scalar.max (finish - start) (Scalar.ofNat 0))
  { amplitude
    start
    finish
    attack := shape.attack * factor
    release := shape.release * factor }

end EnvelopeShape

namespace Envelope

def attackEnd (e : Envelope α) : α := e.start + e.attack

def releaseStart (e : Envelope α) : α := e.finish - e.release

def gainAt (e : Envelope α) (t : α) : α :=
  if t < e.start ∨ e.finish ≤ t then Scalar.ofNat 0
  else if t < e.attackEnd then e.amplitude * (t - e.start) / e.attack
  else if e.releaseStart < t then e.amplitude * (e.finish - t) / e.release
  else e.amplitude

def shifted (e : Envelope α) (offset : α) : Envelope α :=
  { e with start := e.start + offset, finish := e.finish + offset }

end Envelope

end Portamento
