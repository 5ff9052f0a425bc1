import Portamento.Scalar.Basic

/-!
# Letters, accidentals and pitch classes

A written pitch names one of seven letters and perhaps an accidental. It sounds as one of twelve
pitch classes, each with a reference frequency in the fourth octave. Where a spelling crosses from B
to C or from C to B, it also moves the octave.
-/

namespace Portamento

inductive Letter where
  | c | d | e | f | g | a | b
  deriving DecidableEq, Repr

/-- A sharp raises a letter by a semitone, a flat lowers it. -/
inductive Accidental where
  | sharp | flat
  deriving DecidableEq, Repr

/-- The twelve pitches of an octave, from C upward. -/
inductive PitchClass where
  | c | cSharp | d | dSharp | e | f | fSharp | g | gSharp | a | aSharp | b
  deriving DecidableEq, Repr

namespace Letter

/-- The letter that a character names, in either case. -/
def ofChar? (x : Char) : Option Letter :=
  match x.toUpper with
  | 'C' => some .c
  | 'D' => some .d
  | 'E' => some .e
  | 'F' => some .f
  | 'G' => some .g
  | 'A' => some .a
  | 'B' => some .b
  | _ => none

def toChar : Letter → Char
  | .c => 'C'
  | .d => 'D'
  | .e => 'E'
  | .f => 'F'
  | .g => 'G'
  | .a => 'A'
  | .b => 'B'

/-- The letter below, going round from C to B. -/
def below : Letter → Letter
  | .c => .b
  | .d => .c
  | .e => .d
  | .f => .e
  | .g => .f
  | .a => .g
  | .b => .a

def natural : Letter → PitchClass
  | .c => .c
  | .d => .d
  | .e => .e
  | .f => .f
  | .g => .g
  | .a => .a
  | .b => .b

/-- The pitch class a semitone above a letter. -/
def raised : Letter → PitchClass
  | .c => .cSharp
  | .d => .dSharp
  | .e => .f
  | .f => .fSharp
  | .g => .gSharp
  | .a => .aSharp
  | .b => .c

end Letter

namespace PitchClass

def all : List PitchClass :=
  [.c, .cSharp, .d, .dSharp, .e, .f, .fSharp, .g, .gSharp, .a, .aSharp, .b]

/-- The name of a pitch class. Sharps name the five that are not letters. -/
def name : PitchClass → String
  | .c => "C"
  | .cSharp => "C#"
  | .d => "D"
  | .dSharp => "D#"
  | .e => "E"
  | .f => "F"
  | .fSharp => "F#"
  | .g => "G"
  | .gSharp => "G#"
  | .a => "A"
  | .aSharp => "A#"
  | .b => "B"

def ofName? (text : String) : Option PitchClass := all.find? fun p => p.name == text

/-- The frequency of a pitch class in the reference octave, in hundredths of a hertz. -/
def centihertz : PitchClass → Nat
  | .c => 26163
  | .cSharp => 27718
  | .d => 29366
  | .dSharp => 31113
  | .e => 32963
  | .f => 34923
  | .fSharp => 36999
  | .g => 39200
  | .gSharp => 41530
  | .a => 44000
  | .aSharp => 46616
  | .b => 49388

def frequency {α : Type} [Scalar α] (p : PitchClass) : α := Scalar.ratio p.centihertz 100

end PitchClass

/-- The octave in which the reference frequencies lie. -/
def referenceOctave : Int := 4

/-- How a written pitch sounds: its pitch class, and the octaves between the octave it is written in
and the one it sounds in. -/
structure Spelling where
  pitchClass : PitchClass
  octaveShift : Int
  deriving DecidableEq, Repr

/-- The pitch class of a letter with an accidental. The flat of a letter is the sharp of the letter
below, except that C flat is the B of the octave below and F flat is E. B sharp is the C of the
octave above. -/
def spell (letter : Letter) (accidental : Option Accidental) : Spelling :=
  match letter, accidental with
  | .c, some .flat => ⟨.b, -1⟩
  | .f, some .flat => ⟨.e, 0⟩
  | letter, some .flat => ⟨letter.below.raised, 0⟩
  | .b, some .sharp => ⟨.c, 1⟩
  | letter, some .sharp => ⟨letter.raised, 0⟩
  | letter, none => ⟨letter.natural, 0⟩

def Spelling.frequency {α : Type} [Scalar α] (s : Spelling) : α :=
  s.pitchClass.frequency * Scalar.octaves s.octaveShift

end Portamento
