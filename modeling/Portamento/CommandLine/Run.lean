import Portamento.CommandLine.Arguments
import Portamento.CommandLine.Demo
import Portamento.CommandLine.Fault
import Portamento.CommandLine.Help
import Portamento.CommandLine.Report
import Portamento.Sound.Wave
import Portamento.Transport.Performance

/-!
# Running a command

What a command line comes to, given the files and the environment. Printing, writing a file and
playing in time are left to the caller.
-/

namespace Portamento.CommandLine

/-- What a command can look at. -/
structure Host where
  files : FileReader
  environment : Environment

inductive Outcome where
  | misused
  | print (text : String)
  | fail (fault : CommandFault)
  /-- A buffer is to be written to a file; then the notice is to be logged. -/
  | write (path : String) (buffer : Buffer Float) (notice : Notice Float)
  /-- A text is to be played for a number of seconds. -/
  | perform (settings : Settings Float) (text : List Char) (seconds : Float)

/-- Loads the settings and checks them. -/
def loadSettings (host : Host) (asked : Option String) :
    Except CommandFault LoadedSettings := do
  let paths := Settings.discover host.files host.environment asked
  let loaded ← (Settings.load host.files host.environment paths).mapError .settings
  match loaded.settings.validate with
  | .error setting => .error (.settings (.invalid setting))
  | .ok () => return loaded

def GeneralOptions.apply (options : GeneralOptions) (settings : Settings Float) : Settings Float :=
  { settings with
    tempo := options.tempo.getD settings.tempo
    leadIn := options.leadIn.getD settings.leadIn
    looping := settings.looping && !options.noLoop }

def settingsFor (host : Host) (options : GeneralOptions) :
    Except CommandFault (Settings Float × LoadedSettings) := do
  let loaded ← loadSettings host options.config
  let settings := options.apply loaded.settings
  match settings.validate with
  | .error setting => .error (.override setting)
  | .ok () => return (settings, loaded)

/-- The text of the score: the argument, a file, or the built-in one. -/
def scoreText (host : Host) (options : GeneralOptions) (argument : Option String) :
    Except CommandFault (List Char) :=
  match argument, options.file with
  | some text, _ => .ok text.toList
  | none, some path =>
    match host.files.text path with
    | .ok text => .ok text.toList
    | .error fault => .error (.scoreFile path fault)
  | none, none => .ok demoScore.toList

def readScore (settings : Settings Float) (text : List Char) : Except CommandFault (Score Float) :=
  match Score.read text settings.tempo with
  | .ok score => .ok score
  | .error fault => .error (.score fault)

def renderPasses (settings : Settings Float) (text : List Char) (passes : Nat) :
    Except CommandFault (Buffer Float) := do
  if passes = 0 then .error .noPasses
  else
    let score ← readScore settings text
    match Mixing.renderPass settings.shape score settings.sampleRate with
    | .ok pass => return pass.repeated passes
    | .error fault => .error (.sound fault)

def renderedNotice (buffer : Buffer Float) (passes : Nat) (output : String) : Notice Float :=
  .rendered passes buffer.frames buffer.rate buffer.peak output

def Command.run (host : Host) (options : GeneralOptions) (settings : Settings Float)
    (loaded : LoadedSettings) : Command → Except CommandFault Outcome
  | .check argument => do
    let score ← readScore settings (← scoreText host options argument)
    return .print (scoreReport score)
  | .schedule argument json => do
    let score ← readScore settings (← scoreText host options argument)
    let timeline := Timeline.ofScore settings.shape score settings.leadIn
    return .print (if json then timeline.document.pretty ++ "\n" else timelineReport timeline)
  | .render argument output passes => do
    let buffer ← renderPasses settings (← scoreText host options argument) passes
    return .write output buffer (renderedNotice buffer passes output)
  | .play argument seconds live => do
    let text ← scoreText host options argument
    return .perform (if live then { settings with mode := .live } else settings) text seconds
  | .config => return .print (settingsReport settings loaded)

def run (host : Host) (arguments : List String) : Outcome :=
  match Request.ofArguments arguments with
  | none => .misused
  | some .version => .print versionText
  | some (.help topic) => .print topic.text
  | some (.run options command) =>
    let result := do
      let (settings, loaded) ← settingsFor host options
      command.run host options settings loaded
    match result with
    | .ok outcome => outcome
    | .error fault => .fail fault

/-- The files that a command line may look at. -/
def pathsFor (environment : Environment) (arguments : List String) : List String :=
  let general := Settings.systemFile :: Settings.localFile ::
    (Settings.userFile? environment).toList
  match Request.ofArguments arguments with
  | some (.run options _) =>
    general ++ (options.config.map (Settings.expandPath environment)).toList ++ options.file.toList
  | _ => general

end Portamento.CommandLine
