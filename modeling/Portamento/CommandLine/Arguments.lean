import Portamento.Decimal.Reading

/-!
# Arguments

What a command line asks for. There are general options, which may stand before or behind the name
of the command, and each command has options of its own. An option takes its value from the same
argument or from the next one; a value that follows does not begin with a hyphen, unless it is
nothing else. Two hyphens end the options.

The arguments are gone through from the front, and the first that is wrong, or asks for help,
decides. A value that is an argument of its own waits to be looked at until the next argument has
come; if that is a command, until the command has been gone through. So a command gives its help
also behind a value that is wrong.
-/

namespace Portamento.CommandLine

inductive OptionKind where
  | switch
  | path
  | number
  | count
  deriving DecidableEq, Repr

/-- An option: its long name, perhaps a letter, and its value. -/
structure OptionRule where
  name : String
  letter : Option Char
  kind : OptionKind
  deriving DecidableEq, Repr

/-- What may stand at one level of the command line: before the command, or behind it. -/
structure Level where
  options : List OptionRule
  /-- The names that go on to the next level. -/
  commands : List String
  /-- How many arguments without a name there may be. -/
  free : Nat
  hasVersion : Bool
  deriving DecidableEq, Repr

def greatestCount : Nat := Nat.pow 2 64 - 1

def OptionKind.accepts (kind : OptionKind) (value : String) : Bool :=
  match kind with
  | .switch => value.isEmpty
  | .path => !value.isEmpty
  | .number => (Decimal.readFloat? value.toList).isSome
  | .count => (Decimal.readNatural? greatestCount value.toList).isSome

/-- The options that were given, by their names, with their values. -/
abbrev Given := List (String × String)

/-- An option with a value that has not been looked at. -/
structure Pending where
  rule : OptionRule
  value : String
  deriving DecidableEq, Repr

namespace Given

/-- Adds an option, unless it is there already or the value is none of its kind. -/
def add? (given : Given) (rule : OptionRule) (value : String) : Option Given :=
  if (given.lookup rule.name).isSome then none
  else if rule.kind.accepts value then some (given ++ [(rule.name, value)])
  else none

def settle? (given : Given) : Option Pending → Option Given
  | none => some given
  | some pending => given.add? pending.rule pending.value

end Given

inductive Scanned where
  | wrong
  | help
  | version
  | done (given : Given) (free : List String)
  /-- A command follows, with further arguments; perhaps an option still waits. -/
  | command (name : String) (later : List String) (given : Given) (pending : Option Pending)

inductive ArgumentForm where
  /-- Two hyphens alone. -/
  | escape
  | long (name : String) (attached : Option String)
  | short (letter : Char) (attached : Option String)
  | free

def formOf (argument : String) : ArgumentForm :=
  match argument.toList with
  | ['-', '-'] => .escape
  | '-' :: '-' :: text =>
    let name := String.ofList (text.takeWhile (· != '='))
    match text.dropWhile (· != '=') with
    | [] => .long name none
    | _ :: value => .long name (some (String.ofList value))
  | ['-'] => .free
  | '-' :: letter :: text =>
    match text with
    | [] => .short letter none
    | '=' :: value => .short letter (some (String.ofList value))
    | value => .short letter (some (String.ofList value))
  | _ => .free

/-- Whether an argument can be the value of the option before it. -/
def isValue (argument : String) : Bool :=
  match formOf argument with
  | .free => true
  | _ => false

namespace Level

inductive Asked where
  | help
  | version
  | option (rule : OptionRule)
  | nothing

def askedByName (level : Level) (name : String) : Asked :=
  if name = "help" then .help
  else if name = "version" ∧ level.hasVersion then .version
  else
    match level.options.find? fun rule => rule.name == name with
    | some rule => .option rule
    | none => .nothing

def askedByLetter (level : Level) (letter : Char) : Asked :=
  if letter = 'h' then .help
  else if letter = 'V' ∧ level.hasVersion then .version
  else
    match level.options.find? fun rule => rule.letter == some letter with
    | some rule => .option rule
    | none => .nothing

def asked (level : Level) : ArgumentForm → Option (Asked × Option String)
  | .long name attached =>
    match level.askedByName name, attached with
    | .help, some _ => some (.nothing, none)
    | .version, some _ => some (.nothing, none)
    | asked, attached => some (asked, attached)
  | .short letter attached => some (level.askedByLetter letter, attached)
  | .escape => none
  | .free => none

/-- Takes the remaining arguments as they are. -/
def takeFree (level : Level) (given : Given) (free later : List String) : Scanned :=
  if (free ++ later).length ≤ level.free then .done given (free ++ later) else .wrong

/-- Goes through the arguments of a level from the front, and stops at the first that is wrong, that
asks for help, or that leads to the next level. No option is given twice. -/
def scan (level : Level) (given : Given) (pending : Option Pending) (free : List String) :
    List String → Scanned
  | [] =>
    match given.settle? pending with
    | some given => .done given free
    | none => .wrong
  | argument :: later =>
    if level.commands.contains argument then .command argument later given pending
    else
      match given.settle? pending with
      | none => .wrong
      | some given =>
        match level.asked (formOf argument) with
        | none =>
          match formOf argument with
          | .escape => level.takeFree given free later
          | _ =>
            if free.length < level.free then level.scan given none (free ++ [argument]) later
            else .wrong
        | some (.help, _) => .help
        | some (.version, _) => .version
        | some (.nothing, _) => .wrong
        | some (.option rule, attached) =>
          match rule.kind, attached with
          | .switch, none =>
            match given.add? rule "" with
            | some given => level.scan given none free later
            | none => .wrong
          | .switch, some _ => .wrong
          | _, some value =>
            match given.add? rule value with
            | some given => level.scan given none free later
            | none => .wrong
          | _, none =>
            match later with
            | [] => .wrong
            | value :: others =>
              if isValue value then level.scan given (some ⟨rule, value⟩) free others else .wrong

end Level

/-- The options that every command knows. -/
def generalOptions : List OptionRule :=
  [⟨"config", none, .path⟩, ⟨"file", some 'f', .path⟩, ⟨"tempo", none, .number⟩,
   ⟨"lead-in", none, .number⟩, ⟨"no-loop", none, .switch⟩]

inductive CommandName where
  | check
  | schedule
  | render
  | play
  | config
  deriving DecidableEq, Repr

namespace CommandName

def all : List CommandName := [.check, .schedule, .render, .play, .config]

def name : CommandName → String
  | .check => "check"
  | .schedule => "schedule"
  | .render => "render"
  | .play => "play"
  | .config => "config"

def ofName? (text : String) : Option CommandName := all.find? fun command => command.name == text

def options : CommandName → List OptionRule
  | .check => []
  | .schedule => [⟨"json", none, .switch⟩]
  | .render => [⟨"output", some 'o', .path⟩, ⟨"passes", some 'p', .count⟩]
  | .play => [⟨"seconds", some 's', .number⟩, ⟨"live", none, .switch⟩]
  | .config => []

def level (command : CommandName) : Level where
  options := generalOptions ++ command.options
  commands := []
  free := if command = .config then 0 else 1
  hasVersion := false

end CommandName

/-- The name under which help is asked for like a command. -/
def helpName : String := "help"

def topLevel : Level where
  options := generalOptions
  commands := helpName :: CommandName.all.map CommandName.name
  free := 0
  hasVersion := true

inductive HelpTopic where
  | program
  | command (name : CommandName)
  | help
  deriving DecidableEq, Repr

structure GeneralOptions where
  config : Option String
  file : Option String
  tempo : Option Float
  leadIn : Option Float
  noLoop : Bool

/-- A command, with what it works on. Without a text the score comes from a file or is built in. -/
inductive Command where
  | check (text : Option String)
  | schedule (text : Option String) (json : Bool)
  | render (text : Option String) (output : String) (passes : Nat)
  | play (text : Option String) (seconds : Float) (live : Bool)
  | config

inductive Request where
  | help (topic : HelpTopic)
  | version
  | run (options : GeneralOptions) (command : Command)

def numberGiven? (given : Given) (name : String) : Option Float :=
  (given.lookup name).bind fun value => Decimal.readFloat? value.toList

/-- The general options. What stands behind the command counts before what stands in front of it. -/
def GeneralOptions.ofGiven (front back : Given) : GeneralOptions :=
  let given := back ++ front
  { config := given.lookup "config"
    file := given.lookup "file"
    tempo := numberGiven? given "tempo"
    leadIn := numberGiven? given "lead-in"
    noLoop := (given.lookup "no-loop").isSome }

/-- The command with its own options; nothing if one is missing that has to be given. -/
def Command.ofGiven (name : CommandName) (given : Given) (text : Option String) : Option Command :=
  match name with
  | .check => some (.check text)
  | .schedule => some (.schedule text (given.lookup "json").isSome)
  | .render =>
    (given.lookup "output").map fun output =>
      .render text output
        (((given.lookup "passes").bind fun value =>
          Decimal.readNatural? greatestCount value.toList).getD 1)
  | .play =>
    some (.play text ((numberGiven? given "seconds").getD 10.0) (given.lookup "live").isSome)
  | .config => some .config

def helpTopic? : List String → Option HelpTopic
  | [] => some .program
  | [name] => if name = helpName then some .help else (CommandName.ofName? name).map .command
  | _ => none

/-- What a command line asks for; nothing if it is wrong. -/
def Request.ofArguments (arguments : List String) : Option Request :=
  match topLevel.scan [] none [] arguments with
  | .wrong => none
  | .help => some (.help .program)
  | .version => some .version
  | .done _ _ => none
  | .command name later front pending =>
    match CommandName.ofName? name with
    | none => (helpTopic? later).map .help
    | some command =>
      match command.level.scan [] none [] later with
      | .wrong => none
      | .help => some (.help (.command command))
      | .version => none
      | .command _ _ _ _ => none
      | .done back free => do
        let front ← front.settle? pending
        let command ← Command.ofGiven command back free.head?
        return .run (.ofGiven front back) command

end Portamento.CommandLine
