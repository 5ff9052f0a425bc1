import Portamento.Decimal.Reading
import Portamento.Score.Fault
import Portamento.Score.Pitch

/-!
# Notes

A note is a rest, written with a hyphen, or a pitch: a letter, an optional accidental and an
optional octave, with nothing in front, between or behind.
-/

namespace Portamento

inductive Note where
  | rest
  /-- A pitch; without an octave it lies in the reference octave. -/
  | pitch (letter : Letter) (accidental : Option Accidental) (octave : Option Nat)
  deriving DecidableEq, Repr

def greatestOctave : Nat := Nat.pow 2 31 - 1

def Accidental.ofChar? : Char → Option Accidental
  | '#' => some .sharp
  | 'b' => some .flat
  | 'B' => some .flat
  | _ => none

/-- The accidental at the front of a text, and what follows it. -/
def Accidental.take : List Char → Option Accidental × List Char
  | [] => (none, [])
  | x :: tail =>
    match Accidental.ofChar? x with
    | some accidental => (some accidental, tail)
    | none => (none, x :: tail)

/-- The octave that a text consists of: nothing at all, or digits up to the greatest octave. -/
def readOctave? (text : List Char) : Option (Option Nat) :=
  if text.isEmpty then some none
  else if !text.all Char.isDigit then none
  else (Decimal.valueUpTo? greatestOctave text).map some

namespace Note

def read? : List Char → Option Note
  | [] => none
  | ['-'] => some .rest
  | x :: tail => do
    let letter ← Letter.ofChar? x
    let (accidental, digits) := Accidental.take tail
    let octave ← readOctave? digits
    return .pitch letter accidental octave

/-- Reads a text that consists of one note, or names it as no note. -/
def read (text : List Char) : Except ChordFault Note :=
  match read? text with
  | some note => .ok note
  | none => .error (.unknownNote text)

def isRest (note : Note) : Bool := note = .rest

/-- The name under which a pitch sounds, with its octave. -/
def canonicalName (letter : Letter) (accidental : Option Accidental) (octave : Int) : List Char :=
  ((spell letter accidental).pitchClass.name ++ toString octave).toList

/-- The frequency of a pitch in hertz. An octave so high that the frequency is out of range names no
note. -/
def pitchFrequency {α : Type} [Scalar α] (letter : Letter) (accidental : Option Accidental)
    (octave : Option Nat) : Except ChordFault α :=
  let octave : Int := match octave with
    | some n => n
    | none => referenceOctave
  let frequency : α :=
    (spell letter accidental).frequency * Scalar.octaves (octave - referenceOctave)
  if Scalar.isFinite frequency ∧ Scalar.ofNat 0 < frequency then .ok frequency
  else .error (.unknownNote (canonicalName letter accidental octave))

/-- The frequency of a note in hertz; a rest has none. -/
def frequency {α : Type} [Scalar α] : Note → Except ChordFault (Option α)
  | .rest => .ok none
  | .pitch letter accidental octave => (pitchFrequency letter accidental octave).map some

end Note

def readSpelling (text : List Char) : Except ChordFault Spelling :=
  match text with
  | [] => .error (.unknownNote text)
  | x :: tail =>
    match Letter.ofChar? x, Accidental.take tail with
    | some letter, (accidental, []) => .ok (spell letter accidental)
    | _, _ => .error (.unknownNote text)

end Portamento
