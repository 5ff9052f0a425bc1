import Portamento.Toml.Moment

/-!
# Configuration values

A configuration file is a table: named values, which may be tables again. The names of a table are
different from each other; a table is kept as a list of its entries, in the order in which they came
about.
-/

namespace Portamento.Toml

inductive Value where
  | text (text : String)
  | integer (n : Int)
  | float (x : Float)
  | boolean (b : Bool)
  | moment (moment : Moment)
  | list (items : List Value)
  | table (entries : List (String × Value))

/-- A table: its entries, with different names. -/
abbrev Table := List (String × Value)

/-- The entry of a name, replaced if there is one and added behind the others if not. -/
def put {β : Type} (entries : List (String × β)) (name : String) (value : β) :
    List (String × β) :=
  match entries with
  | [] => [(name, value)]
  | (key, old) :: later =>
    if key = name then (key, value) :: later else (key, old) :: put later name value

end Portamento.Toml
