import Portamento.Scalar.Basic

/-!
# Frequency paths

The frequency of a note over time, as points joined by straight lines. Before the first point the
first frequency holds, after the last the last.
-/

namespace Portamento

structure ControlPoint (α : Type) where
  time : α
  frequency : α
  deriving DecidableEq, Repr

/-- The points of a path, in the order of their times. -/
structure FrequencyPath (α : Type) where
  points : List (ControlPoint α)
  deriving DecidableEq, Repr

namespace FrequencyPath

variable {α : Type} [Scalar α]

/-- One point for each stage of a glide, a step apart, the first with the given index. -/
def stepped (start step : α) (index : Nat) : List α → List (ControlPoint α)
  | [] => []
  | frequency :: later =>
    ⟨start + Scalar.ofNat index * step, frequency⟩ :: stepped start step (index + 1) later

/-- The stages of a glide spread evenly over a length of time: each begins an equal part of it. -/
def spread (stages : List α) (start duration : α) : FrequencyPath α :=
  ⟨stepped start (duration / Scalar.ofNat (max stages.length 1)) 0 stages⟩

/-- One frequency that never changes. -/
def hold (frequency start : α) : FrequencyPath α := spread [frequency] start (Scalar.ofNat 0)

def isGlide (path : FrequencyPath α) : Bool := 1 < path.points.length

def initialFrequency (path : FrequencyPath α) : α :=
  match path.points.head? with
  | some point => point.frequency
  | none => Scalar.ofNat 0

def finalFrequency (path : FrequencyPath α) : α :=
  match path.points.getLast? with
  | some point => point.frequency
  | none => Scalar.ofNat 0

/-- The frequency on the line between two points. Two points at one time make a jump to the second.
-/
def between (a b : ControlPoint α) (t : α) : α :=
  let span := b.time - a.time
  if span ≤ Scalar.ofNat 0 then b.frequency
  else a.frequency + (b.frequency - a.frequency) * (t - a.time) / span

/-- The frequency at a time that is not before the given point, which the other points follow. -/
def along (t : α) (a : ControlPoint α) : List (ControlPoint α) → α
  | [] => a.frequency
  | b :: later => if t < b.time then between a b t else along t b later

def frequencyAt (path : FrequencyPath α) (t : α) : α :=
  match path.points with
  | [] => Scalar.ofNat 0
  | first :: later => if t ≤ first.time then first.frequency else along t first later

def shifted (path : FrequencyPath α) (offset : α) : FrequencyPath α :=
  ⟨path.points.map fun point => { point with time := point.time + offset }⟩

end FrequencyPath

end Portamento
