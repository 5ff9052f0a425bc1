import Portamento.Toml.Number
import Portamento.Toml.Quotation
import Portamento.Toml.Tree

/-!
# Reading a value

A value is a quoted text, a truth value, a moment, a number, a list in brackets or a table in
braces. Lists may run over several lines and end with a comma; tables in braces may not.
-/

namespace Portamento.Toml

/-- Reads the values of a list up to its end, without the opening bracket. -/
def readItems (item : Reader Value) (fuel : Nat) : Reader (List Value) := fun text =>
  match fuel with
  | 0 => none
  | fuel + 1 =>
    match skipLines fuel text with
    | ']' :: later => some ([], later)
    | text => do
      let (value, text) ← item text
      match skipLines fuel text with
      | ',' :: later =>
        let (values, rest) ← readItems item fuel later
        return (value :: values, rest)
      | ']' :: later => return ([value], later)
      | _ => none

def readEntry (item : Reader Value) : Reader (NamePath × Value) := fun text => do
  let (path, text) ← readPath text
  let text ← expect '=' text
  let (value, text) ← item (skipBlanks text)
  return ((path, value), skipBlanks text)

/-- Reads the entries of a table in braces up to its end, of which there is at least one. -/
def readEntries (item : Reader Value) (fuel : Nat) :
    Reader (List (NamePath × Value)) := fun text =>
  match fuel with
  | 0 => none
  | fuel + 1 => do
    let (entry, text) ← readEntry item text
    match text with
    | ',' :: later =>
      let (entries, rest) ← readEntries item fuel later
      return (entry :: entries, rest)
    | '}' :: later => return ([entry], later)
    | _ => none

def readInline (item : Reader Value) (fuel : Nat) : Reader Value := fun text =>
  match skipBlanks text with
  | '}' :: later => some (.table [], later)
  | text => do
    let (entries, rest) ← readEntries item fuel text
    let tree ← entries.foldlM (fun tree (path, value) => tree.assign path value) Tree.empty
    return (.table tree.values, rest)

def readFigure : Reader Value := fun text =>
  match Moment.read text with
  | some (moment, rest) => some (.moment moment, rest)
  | none => readNumber text

/-- Reads a value in which so many lists and tables may be nested. -/
def readValue (fuel depth : Nat) : Reader Value := fun text =>
  match text with
  | '"' :: _ | '\'' :: _ =>
    (readQuoted fuel text).map fun (content, rest) => (.text (String.ofList content), rest)
  | 't' :: 'r' :: 'u' :: 'e' :: later => some (.boolean true, later)
  | 'f' :: 'a' :: 'l' :: 's' :: 'e' :: later => some (.boolean false, later)
  | '[' :: later =>
    match depth with
    | 0 => none
    | depth + 1 =>
      (readItems (readValue fuel depth) fuel later).map fun (items, rest) => (.list items, rest)
  | '{' :: later =>
    match depth with
    | 0 => none
    | depth + 1 => readInline (readValue fuel depth) fuel later
  | _ => readFigure text

def readAnyValue (fuel : Nat) : Reader Value := readValue fuel (depthLimit - 1)

end Portamento.Toml
