import Portamento.Toml.Item
import Portamento.Toml.Reserved

/-!
# Reading a configuration file

A file is a sequence of statements, at most one a line: an entry, a header of a table, or a header
that adds a row to a list of tables. Entries belong to the table of the last header.
-/

namespace Portamento.Toml

inductive Statement where
  | entry (path : NamePath) (value : Value)
  | header (path : NamePath)
  | row (path : NamePath)

/-- A configuration file that is being read: what it says so far, and the table of the last header.
-/
structure Draft where
  tree : Tree
  place : List String

namespace Statement

/-- Reads a statement with the rest of its line. -/
def read (fuel : Nat) : Reader Statement := fun text =>
  match text with
  | '[' :: '[' :: later => do
    let (path, later) ← readPath later
    let later ← expect ']' later
    let later ← expect ']' later
    let rest ← lineEnd? later
    return (.row path, rest)
  | '[' :: later => do
    let (path, later) ← readPath later
    let later ← expect ']' later
    let rest ← lineEnd? later
    return (.header path, rest)
  | _ => do
    let (path, later) ← readPath text
    let later ← expect '=' later
    let (value, later) ← readAnyValue fuel (skipBlanks later)
    let rest ← lineEnd? later
    return (.entry path value, rest)

def readAll (fuel : Nat) (text : List Char) : Option (List Statement) :=
  match fuel with
  | 0 => none
  | fuel + 1 =>
    match skipLines fuel text with
    | [] => some []
    | '#' :: later => if later.all isPrintable then some [] else none
    | text => do
      let (statement, rest) ← read fuel text
      let statements ← readAll fuel rest
      return statement :: statements

end Statement

namespace Draft

def start : Draft := ⟨.empty, []⟩

def add (draft : Draft) : Statement → Option Draft
  | .entry path value =>
    (Tree.changeAt .implied (fun _ tree => tree.assign path value) draft.place .header
      draft.tree).map fun tree => { draft with tree }
  | .header path =>
    (Tree.changeAt .implied (Tree.openTable path.last) path.parents .header draft.tree).map
      fun tree => ⟨tree, path.parents ++ [path.last]⟩
  | .row path =>
    (Tree.changeAt .implied (Tree.openRow path.last) path.parents .header draft.tree).map
      fun tree => ⟨tree, path.parents ++ [path.last]⟩

end Draft

/-- The text without the mark that some editors put at the front of a file. -/
def withoutMark : List Char → List Char
  | '\uFEFF' :: text => text
  | text => text

/-- Reads a configuration file; `none` if it is not well formed. -/
def Table.read (text : List Char) : Option Table := do
  let text := withoutMark text
  let statements ← Statement.readAll (text.length + 1) text
  let draft ← statements.foldlM Draft.add Draft.start
  settledEntries? draft.tree.values

end Portamento.Toml
