import Portamento.Decimal.Fixed
import Portamento.Interchange.Records
import Portamento.Settings.Sources
import Portamento.Text.Padding

/-!
# What the commands print

The list of chords, the table of a timeline, and the configuration with its sources.
-/

namespace Portamento.CommandLine

/-- A number with three places in a column. -/
def column (width : Nat) (x : Float) : String := Text.padLeft width (Decimal.fixed 3 x)

def stageText (stage : List Float) : String :=
  "(" ++ String.intercalate ", " (stage.map (Decimal.fixed 2)) ++ ")"

def chordText (chord : Chord Float) : String :=
  if chord.isRest then "rest" else String.intercalate " -> " (chord.stages.map stageText)

/-- The lines of the chords, the first of which has the given index. -/
def chordLines (index : Nat) : List (Chord Float) → String
  | [] => ""
  | chord :: later =>
    Text.padLeft 4 (Nat.repr index) ++ "  " ++ Text.padRight 24 (String.ofList chord.source) ++
      " " ++ column 7 chord.seconds ++ "s  " ++ chordText chord ++ "\n" ++
      chordLines (index + 1) later

def scoreReport (score : Score Float) : String :=
  chordLines 0 score.chords ++ Nat.repr score.chords.length ++ " chords, " ++
    Decimal.fixed 3 score.totalSeconds ++ "s per pass at " ++ Decimal.prose.show score.tempo ++
    " bpm\n"

def pointText (point : ControlPoint Float) : String :=
  Decimal.fixed 2 point.frequency ++ "@" ++ Decimal.fixed 3 point.time

def eventLine (event : Event Float) : String :=
  "chord " ++ Text.padLeft 3 (Nat.repr event.chord) ++ "  " ++ column 8 event.start ++ " - " ++
    column 8 event.finish ++ "  amp " ++ Decimal.fixed 3 event.amplitude ++ "  " ++
    String.intercalate " " (event.path.points.map pointText) ++ "\n"

def timelineReport (timeline : Timeline Float) : String :=
  String.join (timeline.events.map eventLine) ++ Nat.repr timeline.events.length ++
    " events over " ++ Decimal.fixed 3 timeline.duration ++ "s (" ++
    Decimal.fixed 3 timeline.start ++ " - " ++ Decimal.fixed 3 timeline.finish ++ ")\n"

/-- The settings and where they come from; the settings are not those that were loaded if the
command line has changed some. -/
def settingsReport (settings : Settings Float) (loaded : LoadedSettings) : String :=
  (if loaded.files.isEmpty then "# no config files loaded\n" else "") ++
    String.join (loaded.files.map fun file => "# loaded: " ++ file ++ "\n") ++
    String.join (loaded.overrides.map fun name => "# env override: " ++ name ++ "\n") ++
    "\n" ++ settings.print

end Portamento.CommandLine
