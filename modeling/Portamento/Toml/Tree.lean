import Portamento.Toml.Quotation
import Portamento.Toml.Value

/-!
# Putting a table together

The entries of a table come in pieces: a header opens a table anywhere, a name with dots in it opens
tables on the way, and a header in double brackets adds a row to a list of tables. A tree keeps how
each table came about, because that decides what may still be added to it: nothing is defined twice.
-/

namespace Portamento.Toml

inductive Origin where
  /-- By a header of its own. -/
  | header
  /-- By a longer header; a header of its own may follow. -/
  | implied
  /-- By a name with dots in it; only such names add to it. -/
  | dotted
  deriving DecidableEq, Repr

/-- A part of a table that is being put together. -/
inductive Node where
  | leaf (value : Value)
  | table (origin : Origin) (entries : List (String × Node))
  /-- A list of tables that were opened by headers in double brackets. -/
  | rows (rows : List (List (String × Node)))

/-- A table that is being put together. -/
abbrev Tree := List (String × Node)

mutual

def Node.value : Node → Value
  | .leaf value => value
  | .table _ entries => .table (entryValues entries)
  | .rows rows => .list (rowValues rows)

def entryValues : List (String × Node) → List (String × Value)
  | [] => []
  | (name, node) :: later => (name, node.value) :: entryValues later

def rowValues : List (List (String × Node)) → List Value
  | [] => []
  | row :: later => .table (entryValues row) :: rowValues later

end

/-- A change of a table that knows how the table came about. -/
abbrev TreeChange := Origin → Tree → Option Tree

namespace Tree

def empty : Tree := []

def values (tree : Tree) : Table := entryValues tree

/-- Changes the table at the end of a path. A table that is missing on the way is opened in the
given manner; a path may lead into the last row of a list of tables. Names with dots in them do not
lead through a table with a header of its own. -/
def changeAt (manner : Origin) (change : TreeChange) : List String → TreeChange
  | [], origin, tree => change origin tree
  | name :: path, _, tree =>
    match tree.lookup name with
    | none =>
      (changeAt manner change path manner empty).map fun inner =>
        put tree name (.table manner inner)
    | some (.leaf _) => none
    | some (.table origin inner) =>
      if manner = .dotted ∧ origin = .header then none
      else
        (changeAt manner change path origin inner).map fun inner =>
          put tree name (.table origin inner)
    | some (.rows rows) =>
      match rows.reverse with
      | [] => none
      | last :: others =>
        (changeAt manner change path .header last).map fun last =>
          put tree name (.rows (last :: others).reverse)

/-- Adds a value under a name that is not taken. What names with dots have opened takes values from
such names only, and any other table from plain names only. -/
def addLeaf (byDots : Bool) (name : String) (value : Value) : TreeChange := fun origin tree =>
  if byDots = (origin = .dotted) then
    match tree.lookup name with
    | none => some (put tree name (.leaf value))
    | some _ => none
  else none

/-- Opens a table by a header of its own, whose entries may already have been opened by longer
headers. It takes its place behind the tables that are already there. -/
def openTable (name : String) : TreeChange := fun _ tree =>
  match tree.lookup name with
  | none => some (put tree name (.table .header []))
  | some (.table .implied inner) =>
    some (put (tree.filter fun entry => entry.1 != name) name (.table .header inner))
  | some _ => none

def openRow (name : String) : TreeChange := fun _ tree =>
  match tree.lookup name with
  | none => some (put tree name (.rows [[]]))
  | some (.rows rows) => some (put tree name (.rows (rows ++ [[]])))
  | some _ => none

/-- Sets a name, perhaps with dots in it, of the table to a value. -/
def assign (tree : Tree) (path : NamePath) (value : Value) : Option Tree :=
  changeAt .dotted (addLeaf (!path.parents.isEmpty) path.last value) path.parents .header tree

end Tree

end Portamento.Toml
