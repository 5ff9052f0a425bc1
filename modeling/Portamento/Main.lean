import Portamento.CommandLine.Run

/-!
# The program

The outer layer: it looks at files and at the environment, prints, writes and keeps time. What to do
is decided by the library.
-/

namespace Portamento.Program

open CommandLine

/-- The fault that a failed reading stands for. -/
def fileFault : IO.Error → FileFault
  | .noFileOrDirectory .. => .missing
  | .inappropriateType _ 20 _ => .notDirectory
  | .invalidArgument _ 36 _ => .nameTooLong
  | _ => .isDirectory

def readFile (path : String) : IO (Except FileFault ByteArray) := do
  try return .ok (← IO.FS.readBinFile path)
  catch e => return .error (fileFault e)

def variableNames (arguments : List String) : List String :=
  ["HOME", "XDG_CONFIG_HOME"] ++ Settings.overrides.map Settings.Override.name ++
    arguments.map fun argument =>
      String.ofList (((argument.toList.dropWhile (· != '$')).drop 1).takeWhile (· != '/'))

/-- The part of the environment that the library asks for. -/
def environment (arguments : List String) : IO Environment := do
  let pairs ← (variableNames arguments).mapM fun name => do return (name, ← IO.getEnv name)
  return ⟨fun name => (pairs.lookup name).join, none⟩

def files (paths : List String) : IO FileReader := do
  let contents ← paths.mapM fun path => do return (path, ← readFile path)
  return fun path => (contents.lookup path).getD (.error .missing)

/-- Prints the notices behind the first so many. -/
def printNotices (printed : Nat) (notices : List (Notice Float)) : IO Nat := do
  for notice in notices.drop printed do
    IO.println notice.line
  return notices.length

def fail (fault : CommandFault) : IO UInt32 := do
  (← IO.getStderr).putStr fault.report
  return 1

/-- Plays in time: waits for the instant of each look at the clock. -/
partial def perform (p : Performance Float) (seconds : Float) (instant printed : Nat) :
    IO UInt32 := do
  let (p, result) := p.look seconds instant
  let printed ← printNotices printed p.transport.notices
  match result with
  | some (.error fault) => fail (.sound fault)
  | some (.ok ()) =>
    let _ ← printNotices printed (p.finish instant).transport.notices
    return 0
  | none =>
    let p := p.wait instant
    let printed ← printNotices printed p.transport.notices
    IO.sleep (UInt32.ofNat (Performance.interval / 1000000))
    perform p seconds (instant + Performance.interval) printed

def carryOut : Outcome → IO UInt32
  | .misused => do
    (← IO.getStderr).putStr HelpTopic.program.text
    return 2
  | .print text => do
    (← IO.getStdout).putStr text
    return 0
  | .fail fault => fail fault
  | .write path buffer notice => do
    try
      IO.FS.writeBinFile path ⟨(Wave.bytes buffer).toArray⟩
      IO.println notice.line
      return 0
    catch e => fail (.unwritable path (fileFault e))
  | .perform settings text seconds =>
    match Performance.begin settings text 0 with
    | .error fault => fail (.ofTransport fault)
    | .ok p => do
      let printed ← printNotices 0 p.transport.notices
      perform p seconds 0 printed

end Portamento.Program

open Portamento.Program in
def main (arguments : List String) : IO UInt32 := do
  let environment ← environment arguments
  let files ← files (Portamento.CommandLine.pathsFor environment arguments)
  carryOut (Portamento.CommandLine.run ⟨files, environment⟩ arguments)
