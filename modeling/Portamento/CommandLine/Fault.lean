import Portamento.Score.Fault
import Portamento.Settings.Sources
import Portamento.Sound.Tone
import Portamento.Transport.Basic

/-!
# Why a command fails

The causes for which a command fails, and how they are reported: the sentence for what failed, and
below it the sentences for what caused that, each one level deeper than the one before.
-/

namespace Portamento.CommandLine

inductive CommandFault where
  | settings (fault : SettingsFault)
  /-- A value from the command line that cannot be used. -/
  | override (setting : InvalidSetting Float)
  | scoreFile (path : String) (fault : FileFault)
  | score (fault : ScoreFault Float)
  | noPasses
  | sound (fault : SoundFault)
  | unwritable (path : String) (fault : FileFault)

def scoreChain (fault : ScoreFault Float) : List String :=
  fault.message :: (fault.chordFault?.map ChordFault.message).toList

namespace CommandFault

/-- The sentences that report a fault and what caused it, from the outside in. -/
def chain : CommandFault → List String
  | .settings fault => "Failed to load configuration" :: fault.chain
  | .override setting => ["Invalid command-line override", setting.message]
  | .scoreFile path fault => ["Failed to read partition file " ++ path, fault.message]
  | .score fault => "Failed to parse partition" :: scoreChain fault
  | .noPasses => ["--passes must be at least 1"]
  | .sound fault => [fault.message]
  | .unwritable path fault => ["Failed to write " ++ path, fault.message]

def line (fault : CommandFault) : String := String.intercalate ": " fault.chain

/-- A sentence whose further lines are indented. -/
def hanging (indent : Nat) (sentence : String) : String :=
  String.ofList (sentence.toList.flatMap fun c =>
    if c = '\n' then c :: List.replicate indent ' ' else [c])

def numbered (index : Nat) : List String → String
  | [] => ""
  | cause :: later =>
    "\n" ++ Text.padLeft 5 (Nat.repr index) ++ ": " ++ hanging 7 cause ++ numbered (index + 1) later

/-- The causes below the sentence for what failed; a single one has no number. -/
def causes : List String → String
  | [] => ""
  | [cause] => "\n\nCaused by:\n    " ++ hanging 4 cause
  | causes => "\n\nCaused by:" ++ numbered 0 causes

def report (fault : CommandFault) : String :=
  match fault.chain with
  | [] => ""
  | sentence :: deeper => "Error: " ++ sentence ++ causes deeper ++ "\n"

def ofTransport : TransportFault Float → CommandFault
  | .score fault => .score fault
  | .sound fault => .sound fault

end CommandFault

end Portamento.CommandLine
