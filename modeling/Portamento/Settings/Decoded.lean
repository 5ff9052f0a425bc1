import Portamento.Scalar.Double
import Portamento.Settings.Basic
import Portamento.Toml.Value

/-!
# Settings in a configuration file

Which values a setting takes, and where it stands. The settings stand in three sections. A section
is a table, in which unknown names are passed over, or a list that gives the settings of the section
in their order; what is left out keeps its value.
-/

namespace Portamento.Settings

open Toml (Value Table)

/-- A number: a double, or the double nearest to an integer. -/
def number? : Value → Option Float
  | .float x => some x
  | .integer n => some (Float.ofInt n)
  | _ => none

def flag? : Value → Option Bool
  | .boolean b => some b
  | _ => none

/-- A number of samples in a second, of thirty-two bits. -/
def rate? : Value → Option Nat
  | .integer n => if 0 ≤ n ∧ n ≤ greatestRate then some n.toNat else none
  | _ => none

/-- A text; a moment counts as the text that it is written with. -/
def text? : Value → Option String
  | .text text => some text
  | .moment moment => some moment.text
  | _ => none

def modeNamed? : String → Option PlaybackMode
  | "rendered" => some .rendered
  | "live" => some .live
  | _ => none

/-- A mode: its name, or a table with the name as its only entry and nothing in it. -/
def mode? : Value → Option PlaybackMode
  | .text name => modeNamed? name
  | .table [(name, .table [])] => modeNamed? name
  | .table [(name, .list [])] => modeNamed? name
  | _ => none

/-- A setting in a configuration file: its name, and what a value for it changes. -/
structure Field where
  name : String
  set : Value → Settings Float → Option (Settings Float)

def playbackFields : List Field :=
  [⟨"tempo", fun v s => (number? v).map fun tempo => { s with tempo }⟩,
   ⟨"lead_in_seconds", fun v s => (number? v).map fun leadIn => { s with leadIn }⟩,
   ⟨"loop", fun v s => (flag? v).map fun looping => { s with looping }⟩,
   ⟨"mode", fun v s => (mode? v).map fun mode => { s with mode }⟩,
   ⟨"sample_rate", fun v s => (rate? v).map fun sampleRate => { s with sampleRate }⟩,
   ⟨"schedule_ahead_seconds", fun v s => (number? v).map fun ahead => { s with ahead }⟩]

def envelopeFields : List Field :=
  [⟨"attack_ms", fun v s => (number? v).map fun attackMs => { s with attackMs }⟩,
   ⟨"release_ms", fun v s => (number? v).map fun releaseMs => { s with releaseMs }⟩]

def telemetryFields : List Field :=
  [⟨"log_level", fun v s => (text? v).map fun logLevel => { s with logLevel }⟩]

/-- Takes over the settings that a table gives. -/
def readTable (entries : Table) : List Field → Settings Float → Option (Settings Float)
  | [], s => some s
  | field :: later, s =>
    match entries.lookup field.name with
    | none => readTable entries later s
    | some value => (field.set value s).bind (readTable entries later)

/-- Takes over the settings that a list gives in order. -/
def readList : List Value → List Field → Settings Float → Option (Settings Float)
  | [], _, s => some s
  | _ :: _, [], _ => none
  | value :: values, field :: later, s => (field.set value s).bind (readList values later)

def readSection (fields : List Field) (s : Settings Float) : Value → Option (Settings Float)
  | .table entries => readTable entries fields s
  | .list items => readList items fields s
  | _ => none

def sections : List Field :=
  [⟨"playback", fun v s => readSection playbackFields s v⟩,
   ⟨"envelope", fun v s => readSection envelopeFields s v⟩,
   ⟨"telemetry", fun v s => readSection telemetryFields s v⟩]

/-- The settings that a configuration file gives, and the usual ones where it gives none; nothing if
a setting has a value of the wrong kind. -/
def ofTable? (table : Table) : Option (Settings Float) := readTable table sections .usual

end Portamento.Settings
