import Portamento.Files.Tree
import Portamento.Settings.Decoded
import Portamento.Settings.Environment
import Portamento.Settings.Printed
import Portamento.Toml.Document
import Portamento.Toml.Layer

/-!
# Where settings come from

Configuration files are laid over each other, the later over the earlier, and the environment over
all of them. Each file is checked by itself before, so that a bad value is blamed on the file that
holds it.
-/

namespace Portamento

inductive SettingsFault where
  | unreadable (path : String) (fault : FileFault)
  | malformed (path : String)
  | invalid (setting : InvalidSetting Float)

/-- Settings, the files that they were read from, and the variables that overrode some of them. -/
structure LoadedSettings where
  settings : Settings Float
  files : List String
  overrides : List String

namespace SettingsFault

/-- The beginning of the report of a file that is not well formed. -/
def malformedMessage : String := "Failed to parse config file"

/-- The sentence that reports a fault. What is wrong with a malformed file is not told. -/
def message : SettingsFault → String
  | .unreadable path fault => "Failed to read config file " ++ path ++ ": " ++ fault.message
  | .malformed _ => malformedMessage
  | .invalid setting => setting.message

def chain : SettingsFault → List String
  | .unreadable path fault => [message (.unreadable path fault), fault.message]
  | fault => [fault.message]

end SettingsFault

namespace Settings

open Toml (Table)

/-- Reads the text of a configuration file and checks it by itself. -/
def readFile? (text : String) : Option Table := do
  let table ← Table.read text.toList
  let _ ← ofTable? table
  return table

def loadFile (files : FileReader) (path : String) : Except SettingsFault Table :=
  match files.text path with
  | .error fault => .error (.unreadable path fault)
  | .ok text =>
    match readFile? text with
    | none => .error (.malformed path)
    | some table => .ok table

/-- Lays configuration files over a table. -/
def layer (files : FileReader) (lower : Table) : List String → Except SettingsFault Table
  | [] => .ok lower
  | path :: later => do
    let upper ← loadFile files path
    layer files (Toml.overlay lower upper) later

/-- What is blamed where there is no file to blame. -/
def noFile : String := "<defaults>"

def loadFiles (files : FileReader) (paths : List String) :
    Except SettingsFault (Settings Float) := do
  let table ← layer files [] paths
  match ofTable? table with
  | some settings => return settings
  | none => .error (.malformed (paths.getLast?.getD noFile))

/-- The settings that configuration files and the environment give, without a look at their values.
-/
def load (files : FileReader) (environment : Environment) (paths : List String) :
    Except SettingsFault LoadedSettings := do
  let settings ← loadFiles files paths
  let (settings, overrides) := settings.overriddenBy environment
  return ⟨settings, paths, overrides⟩

/-- The user's home directory: the variable that names it, or else the one of the account. -/
def home? (environment : Environment) : Option String :=
  ((environment.get? "HOME").filter fun home => !home.isEmpty).or environment.accountHome

/-- A path as it was given, with a tilde at its front standing for the home directory, or a variable
for its value. -/
def expandPath (environment : Environment) (path : String) : String :=
  match path.toList with
  | '~' :: '/' :: later =>
    match home? environment with
    | some home => String.ofList (Path.join home.toList later)
    | none => path
  | '$' :: later =>
    let name := later.takeWhile (· != '/')
    let tail := (later.dropWhile (· != '/')).drop 1
    match environment.get? (String.ofList name) with
    | some value => if tail.isEmpty then value else String.ofList (Path.join value.toList tail)
    | none => path
  | _ => path

def configDirectory? (environment : Environment) : Option String :=
  match home? environment with
  | none => none
  | some home =>
    match environment.get? "XDG_CONFIG_HOME" with
    | some directory =>
      if Path.isAbsolute directory.toList then some directory
      else some (String.ofList (Path.join home.toList ".config".toList))
    | none => some (String.ofList (Path.join home.toList ".config".toList))

def systemFile : String := "/etc/glissando/config.toml"

def userFile? (environment : Environment) : Option String :=
  (configDirectory? environment).map fun directory =>
    String.ofList (Path.join directory.toList "glissando/config.toml".toList)

def localFile : String := "glissando.toml"

/-- The configuration files, the more general ones first. A file that was asked for stands in the
place of the one in the current directory, and counts even if it is not there; of the others only
those count that are. -/
def discover (files : FileReader) (environment : Environment) (asked : Option String) :
    List String :=
  let general := (systemFile :: (userFile? environment).toList).filter files.hasPath
  match asked with
  | some path => general ++ [expandPath environment path]
  | none => general ++ [localFile].filter files.hasPath

end Settings

end Portamento
