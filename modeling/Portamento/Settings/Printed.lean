import Portamento.Decimal.Layout
import Portamento.Settings.Basic
import Portamento.Text.Quoted

/-!
# Settings in print

The settings as a configuration file, which reads back as the same settings, and the sentences that
report a setting nobody can use.
-/

namespace Portamento

/-- The sentence that reports a text that names no mode, from the text as it was understood. -/
def PlaybackMode.unknownMessage (text : String) : String :=
  "unknown playback mode " ++ Text.quote text

namespace InvalidSetting

/-- The setting's place in a configuration file. -/
def field {α : Type} : InvalidSetting α → String
  | .tempo _ => "playback.tempo"
  | .leadIn _ => "playback.lead_in_seconds"
  | .sampleRate => "playback.sample_rate"
  | .ahead _ => "playback.schedule_ahead_seconds"
  | .attackMs _ => "envelope.attack_ms"
  | .releaseMs _ => "envelope.release_ms"

def complaint : InvalidSetting Float → String
  | .tempo value => Decimal.prose.show value ++ " is not a positive number of beats per minute"
  | .sampleRate => "must be non-zero"
  | .leadIn value | .ahead value | .attackMs value | .releaseMs value =>
    Decimal.prose.show value ++ " is negative"

def message (fault : InvalidSetting Float) : String :=
  "Invalid " ++ fault.field ++ ": " ++ fault.complaint

end InvalidSetting

namespace Settings

def truthText (b : Bool) : String := if b then "true" else "false"

/-- The settings as a configuration file. -/
def print (settings : Settings Float) : String :=
  let number := Decimal.literal.show
  "# glissando configuration\n\n[playback]\ntempo = " ++ number settings.tempo ++
    "\nlead_in_seconds = " ++ number settings.leadIn ++
    "\nloop = " ++ truthText settings.looping ++
    "\nmode = \"" ++ settings.mode.name ++
    "\"\nsample_rate = " ++ Nat.repr settings.sampleRate ++
    "\nschedule_ahead_seconds = " ++ number settings.ahead ++
    "\n\n[envelope]\nattack_ms = " ++ number settings.attackMs ++
    "\nrelease_ms = " ++ number settings.releaseMs ++
    "\n\n[telemetry]\nlog_level = " ++ Text.quote settings.logLevel ++ "\n"

end Settings

end Portamento
