/-!
# Paths

A path names a file: steps between slashes, from the root if it begins with a slash. Joining keeps
the text of both parts as they are written.
-/

namespace Portamento.Path

def isAbsolute (path : List Char) : Bool := path.head? == some '/'

/-- A path that goes on from another one, unless it begins at the root itself. -/
def join (base path : List Char) : List Char :=
  if isAbsolute path then path
  else if base.isEmpty ∨ base.getLast? = some '/' then base ++ path
  else base ++ '/' :: path

/-- The steps of a path, empty ones included. -/
def steps : List Char → List (List Char)
  | [] => [[]]
  | c :: later =>
    if c = '/' then [] :: steps later
    else
      match steps later with
      | [] => [[c]]
      | step :: others => (c :: step) :: others

end Portamento.Path
