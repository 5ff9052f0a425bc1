import Portamento.Text.Blank
import Portamento.Timeline.Envelope

/-!
# Settings

The nine settings of the program, what they are when nobody sets them, and which values are refused.
-/

namespace Portamento

inductive PlaybackMode where
  /-- One pass is rendered, and its buffer played. -/
  | rendered
  /-- Pass after pass is laid on the device. -/
  | live
  deriving DecidableEq, Repr

structure Settings (α : Type) where
  /-- Quarter notes per minute. -/
  tempo : α
  /-- Seconds of silence before the first chord. -/
  leadIn : α
  looping : Bool
  mode : PlaybackMode
  sampleRate : Nat
  /-- How many seconds before its beginning a pass is laid on the device. -/
  ahead : α
  attackMs : α
  releaseMs : α
  logLevel : String
  deriving DecidableEq, Repr

inductive InvalidSetting (α : Type) where
  | tempo (value : α)
  | leadIn (value : α)
  | sampleRate
  | ahead (value : α)
  | attackMs (value : α)
  | releaseMs (value : α)
  deriving DecidableEq, Repr

namespace PlaybackMode

def name : PlaybackMode → String
  | .rendered => "rendered"
  | .live => "live"

/-- The mode that a text names, in any case and with blanks around it; or the text as it was
understood. -/
def read (text : List Char) : Except String PlaybackMode :=
  match String.ofList (Text.lower (Text.trim text)) with
  | "rendered" => .ok .rendered
  | "offline" => .ok .rendered
  | "live" => .ok .live
  | other => .error other

end PlaybackMode

namespace Settings

variable {α : Type} [Scalar α]

def usual : Settings α where
  tempo := Scalar.ofNat 120
  leadIn := Scalar.ofNat 0
  looping := true
  mode := .rendered
  sampleRate := 44100
  ahead := Scalar.ratio 1 10
  attackMs := Scalar.ofNat 5
  releaseMs := Scalar.ofNat 5
  logLevel := "info"

def greatestRate : Nat := Nat.pow 2 32 - 1

def attackSeconds (settings : Settings α) : α := settings.attackMs / Scalar.ofNat 1000

def releaseSeconds (settings : Settings α) : α := settings.releaseMs / Scalar.ofNat 1000

def shape (settings : Settings α) : EnvelopeShape α :=
  .ofRamps settings.attackSeconds settings.releaseSeconds

/-- Whether a number is finite and not negative. -/
def isLength (x : α) : Bool := Scalar.isFinite x ∧ ¬ x < Scalar.ofNat 0

/-- Refuses settings whose values cannot be used; the first one in the order of the fields is named.
-/
def validate (settings : Settings α) : Except (InvalidSetting α) Unit :=
  if ¬ Scalar.isFinite settings.tempo ∨ settings.tempo ≤ Scalar.ofNat 0 then
    .error (.tempo settings.tempo)
  else if ¬ isLength settings.leadIn then .error (.leadIn settings.leadIn)
  else if settings.sampleRate = 0 then .error .sampleRate
  else if ¬ isLength settings.ahead then .error (.ahead settings.ahead)
  else if ¬ isLength settings.attackMs then .error (.attackMs settings.attackMs)
  else if ¬ isLength settings.releaseMs then .error (.releaseMs settings.releaseMs)
  else .ok ()

end Settings

end Portamento
