/-!
# Columns

Texts filled up with spaces to a width, counted in characters. A text that is wider than its column
is left as it is.
-/

namespace Portamento.Text

def padLeft (width : Nat) (text : String) : String :=
  String.ofList (List.replicate (width - text.length) ' ') ++ text

def padRight (width : Nat) (text : String) : String :=
  text ++ String.ofList (List.replicate (width - text.length) ' ')

end Portamento.Text
