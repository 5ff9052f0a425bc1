import Portamento.CommandLine.Arguments

/-!
# Help

The texts that explain the command line.
-/

namespace Portamento.CommandLine

def versionText : String := "gliss 0.1.0\n"

def generalHelp : List String :=
  ["      --config <CONFIG>    Config file to use instead of ./glissando.toml\n",
   "  -f, --file <FILE>        Read the partition from a file\n",
   "      --tempo <TEMPO>      Tempo in quarter-note beats per minute\n",
   "      --lead-in <LEAD_IN>  Seconds of silence before the first chord\n",
   "      --no-loop            Play the partition once instead of looping\n"]

def helpHelp : String := "  -h, --help               Print help\n"

def CommandName.about : CommandName → String
  | .check => "Parse a partition and list its chords"
  | .schedule => "Print the scheduled timeline of one pass"
  | .render => "Render one or more passes to a WAV file"
  | .play => "Play on a virtual output device, logging chords as they sound"
  | .config => "Show the effective configuration and where it came from"

def CommandName.usage : CommandName → String
  | .check => "gliss check [OPTIONS] [PARTITION]"
  | .schedule => "gliss schedule [OPTIONS] [PARTITION]"
  | .render => "gliss render [OPTIONS] --output <OUTPUT> [PARTITION]"
  | .play => "gliss play [OPTIONS] [PARTITION]"
  | .config => "gliss config [OPTIONS]"

def CommandName.argumentHelp : CommandName → String
  | .check => "Arguments:\n  [PARTITION]  Partition text (e.g. \"c,d,(e,g)*2\")\n\n"
  | .config => ""
  | _ => "Arguments:\n  [PARTITION]  \n\n"

def CommandName.optionHelp : CommandName → List String
  | .schedule => ["      --json               Emit JSON instead of a table\n"]
  | .render =>
    ["  -o, --output <OUTPUT>    Output WAV path\n",
     "  -p, --passes <PASSES>    Number of back-to-back passes [default: 1]\n"]
  | .play =>
    ["  -s, --seconds <SECONDS>  Seconds of device clock time to play [default: 10]\n",
     "      --live               Schedule pass by pass instead of looping a rendered buffer\n"]
  | _ => []

/-- The lines of two lists by turns, the first list first; what one list has more comes at the end.
-/
def byTurns : List String → List String → List String
  | [], second => second
  | first, [] => first
  | a :: first, b :: second => a :: b :: byTurns first second

def commandLine (command : CommandName) : String :=
  "  " ++ command.name ++ String.ofList (List.replicate (10 - command.name.length) ' ') ++
    command.about ++ "\n"

def HelpTopic.text : HelpTopic → String
  | .program =>
    "Schedule and play compact chord/glide notation\n\nUsage: gliss [OPTIONS] <COMMAND>\n\n" ++
      "Commands:\n" ++ String.join (CommandName.all.map commandLine) ++
      "  help      Print this message or the help of the given subcommand(s)\n\nOptions:\n" ++
      String.join generalHelp ++ helpHelp ++ "  -V, --version            Print version\n"
  | .command name =>
    name.about ++ "\n\nUsage: " ++ name.usage ++ "\n\n" ++ name.argumentHelp ++
      "Options:\n" ++ String.join (byTurns generalHelp name.optionHelp) ++ helpHelp
  | .help =>
    "Print this message or the help of the given subcommand(s)\n\n" ++
      "Usage: gliss help [COMMAND]...\n\n" ++
      "Arguments:\n  [COMMAND]...  Print help for the subcommand(s)\n"

end Portamento.CommandLine
