import Portamento.Files.Path
import Portamento.Text.Blank

/-!
# Files

Why a file cannot be read, and a tree of files and directories in which paths are looked up the way
an operating system does it.
-/

namespace Portamento

inductive FileFault where
  | missing
  | notDirectory
  | isDirectory
  | nameTooLong
  | nulInName
  | notText
  deriving DecidableEq, Repr

/-- The words for a fault, with its number in the operating system if it has one. -/
def FileFault.message : FileFault → String
  | .missing => "No such file or directory (os error 2)"
  | .notDirectory => "Not a directory (os error 20)"
  | .isDirectory => "Is a directory (os error 21)"
  | .nameTooLong => "File name too long (os error 36)"
  | .nulInName => "file name contained an unexpected NUL byte"
  | .notText => "stream did not contain valid UTF-8"

/-- What files hold, by their paths. -/
abbrev FileReader := String → Except FileFault ByteArray

/-- Whether a path names anything, be it a file or a directory. -/
def FileReader.hasPath (files : FileReader) (path : String) : Bool :=
  match files path with
  | .ok _ => true
  | .error .isDirectory => true
  | .error _ => false

def FileReader.text (files : FileReader) (path : String) : Except FileFault String := do
  let content ← files path
  match String.fromUTF8? content with
  | some text => return text
  | none => .error .notText

inductive FileEntry where
  | file (content : ByteArray)
  | directory

/-- Files and directories by the steps that lead to them from the root. The directories on the way
to an entry are there without an entry of their own; of two entries for one name the later one
counts. -/
abbrev FileTree := List (List (List Char) × FileEntry)

namespace FileTree

def entry? (tree : FileTree) (steps : List (List Char)) : Option FileEntry :=
  match tree.reverse.lookup steps with
  | some entry => some entry
  | none =>
    if steps.isEmpty ∨ tree.any fun entry => steps.isPrefixOf entry.1 then some .directory
    else none

/-- The longest name of a file, in bytes. -/
def longestName : Nat := 255

/-- The longest path, in bytes. -/
def longestPath : Nat := 4095

def pathFault? (path : List Char) : Option FileFault :=
  if path.contains '\x00' then some .nulInName
  else if path.isEmpty then some .missing
  else if longestPath < Text.byteLength path then some .nameTooLong
  else none

/-- Goes on from a place, which is given by its steps from the root, the last one first. -/
def walk (tree : FileTree) (place : List (List Char)) :
    List (List Char) → Except FileFault (List (List Char))
  | [] => .ok place
  | step :: later =>
    match tree.entry? place.reverse with
    | none => .error .missing
    | some (.file _) => .error .notDirectory
    | some .directory =>
      if step = [] ∨ step = ['.'] then walk tree place later
      else if step = ['.', '.'] then walk tree place.tail later
      else if longestName < Text.byteLength step then .error .nameTooLong
      else walk tree (step :: place) later

/-- Where the steps of a path lead from, the last step first: the root, or a directory. -/
def origin (directory : List (List Char)) (path : List Char) : List (List Char) :=
  if Path.isAbsolute path then [] else directory.reverse

def resolve (tree : FileTree) (directory : List (List Char)) (path : List Char) :
    Except FileFault (List (List Char)) :=
  match pathFault? path with
  | some fault => .error fault
  | none => (tree.walk (origin directory path) (Path.steps path)).map List.reverse

def read (tree : FileTree) (directory : List (List Char)) : FileReader := fun path => do
  match tree.entry? (← tree.resolve directory path.toList) with
  | none => .error .missing
  | some .directory => .error .isDirectory
  | some (.file content) => .ok content

/-- Why no file of a name can be written in a directory, which is given by its steps from the root,
the last one first. A slash behind the name asks for a directory. -/
def nameFault? (tree : FileTree) (place : List (List Char)) (name : List Char) (slash : Bool) :
    Option FileFault :=
  match tree.entry? place.reverse with
  | none => some .missing
  | some (.file _) => some .notDirectory
  | some .directory =>
    if slash ∨ name = ['.'] ∨ name = ['.', '.'] then some .isDirectory
    else if longestName < Text.byteLength name then some .nameTooLong
    else
      match tree.entry? (name :: place).reverse with
      | some .directory => some .isDirectory
      | _ => none

def writeFault? (tree : FileTree) (directory : List (List Char)) (path : List Char) :
    Option FileFault :=
  match pathFault? path with
  | some fault => some fault
  | none =>
    match ((Path.steps path).filter fun step => !step.isEmpty).reverse with
    | [] => some .isDirectory
    | name :: parents =>
      match tree.walk (origin directory path) parents.reverse with
      | .error fault => some fault
      | .ok place => tree.nameFault? place name (path.getLast? = some '/')

end FileTree

end Portamento
