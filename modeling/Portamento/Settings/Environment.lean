import Portamento.Decimal.Reading
import Portamento.Settings.Basic

/-!
# Settings in the environment

Variables of the environment that override settings. A variable whose value cannot be understood
changes nothing.
-/

namespace Portamento

/-- What a program is told about the user who runs it. -/
structure Environment where
  get? : String → Option String
  /-- The home directory that goes with the user's account. -/
  accountHome : Option String

namespace Settings

/-- A truth value as people write it. -/
def readFlag? (text : List Char) : Option Bool :=
  match String.ofList (Text.lower (Text.trim text)) with
  | "1" | "true" | "yes" | "on" => some true
  | "0" | "false" | "no" | "off" => some false
  | _ => none

structure Override where
  name : String
  set : List Char → Settings Float → Option (Settings Float)

/-- The variables that override settings, in the order in which they are looked at. Of the last two,
which set the same thing, the later one wins. -/
def overrides : List Override :=
  [⟨"GLISSANDO_TEMPO", fun text s =>
      (Decimal.readFloat? (Text.trim text)).map fun tempo => { s with tempo }⟩,
   ⟨"GLISSANDO_LEAD_IN", fun text s =>
      (Decimal.readFloat? (Text.trim text)).map fun leadIn => { s with leadIn }⟩,
   ⟨"GLISSANDO_LOOP", fun text s => (readFlag? text).map fun looping => { s with looping }⟩,
   ⟨"GLISSANDO_MODE", fun text s =>
      (PlaybackMode.read text).toOption.map fun mode => { s with mode }⟩,
   ⟨"GLISSANDO_SAMPLE_RATE", fun text s =>
      (Decimal.readNatural? greatestRate (Text.trim text)).map fun sampleRate =>
        { s with sampleRate }⟩,
   ⟨"GLISSANDO_LOG_LEVEL", fun text s => some { s with logLevel := String.ofList text }⟩,
   ⟨"RUST_LOG", fun text s => some { s with logLevel := String.ofList text }⟩]

/-- Applies overrides one after the other; with the names of the variables that changed something.
-/
def applyOverrides (environment : Environment) :
    List Override → Settings Float → Settings Float × List String
  | [], s => (s, [])
  | override :: later, s =>
    match (environment.get? override.name).bind fun text => override.set text.toList s with
    | none => applyOverrides environment later s
    | some s =>
      let (s, names) := applyOverrides environment later s
      (s, override.name :: names)

def overriddenBy (environment : Environment) (s : Settings Float) :
    Settings Float × List String :=
  applyOverrides environment overrides s

end Settings

end Portamento
