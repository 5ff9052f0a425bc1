import Portamento.Toml.Value

/-!
# Layers

One table laid over another: an entry of the upper one replaces the entry of the same name, except
that two tables are laid over each other entry by entry.
-/

namespace Portamento.Toml

mutual

/-- The value that an upper value and the lower one under it make. -/
def overlayValue (lower : Option Value) : Value → Value
  | .table upper =>
    match lower with
    | some (.table entries) => .table (overlay entries upper)
    | _ => .table upper
  | upper => upper

/-- An upper table laid over a lower one. -/
def overlay (lower : Table) : List (String × Value) → Table
  | [] => lower
  | (name, value) :: later =>
    overlay (put lower name (overlayValue (lower.lookup name) value)) later

end

end Portamento.Toml
