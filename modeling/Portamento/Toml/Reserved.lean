import Portamento.Toml.Value

/-!
# A name that is reserved

A table within a configuration file whose first entry has a reserved name is not a table: it stands
for the moment that is written in the text of that entry, and its other entries mean nothing. The
whole file is such a table only in form, and stays one.
-/

namespace Portamento.Toml

/-- The name that makes a table stand for a moment. -/
def momentName : String := "$__toml_private_datetime"

/-- The value of the first entry, if that has the reserved name. -/
def reserved? : List (String × Value) → Option Value
  | [] => none
  | (name, value) :: _ => if name = momentName then some value else none

mutual

/-- What a value stands for, or nothing if a table stands for no moment that there is. -/
def Value.settled? : Value → Option Value
  | .list items => (settledItems? items).map .list
  | .table entries =>
    match reserved? entries with
    | none => (settledEntries? entries).map .table
    | some (.text text) => (Moment.ofText? text).map .moment
    | some _ => none
  | value => some value

def settledItems? : List Value → Option (List Value)
  | [] => some []
  | item :: later =>
    match item.settled?, settledItems? later with
    | some item, some later => some (item :: later)
    | _, _ => none

def settledEntries? : List (String × Value) → Option (List (String × Value))
  | [] => some []
  | (name, value) :: later =>
    match value.settled?, settledEntries? later with
    | some value, some later => some ((name, value) :: later)
    | _, _ => none

end

end Portamento.Toml
