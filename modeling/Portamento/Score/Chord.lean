import Portamento.Score.Length
import Portamento.Score.Note
import Portamento.Score.Token

/-!
# Chords

A chord token is a body and a length suffix. The body is a sequence of stages between arrows, which
the chord glides through; a stage is one note, or a list of notes in parentheses. Parentheses around
a whole glide group it and are dropped.
-/

namespace Portamento

/-- A chord, ready to be laid on a timeline: what was written, how long it lasts, and for each stage
of the glide the frequencies of its notes. A chord with a rest in it has no stages and is silent. -/
structure Chord (α : Type) where
  source : List Char
  seconds : α
  stages : List (List α)
  deriving DecidableEq, Repr

namespace Chord

variable {α : Type}

def isRest (chord : Chord α) : Bool := chord.stages.isEmpty

def noteCount (chord : Chord α) : Nat :=
  match chord.stages with
  | [] => 0
  | first :: _ => first.length

def stageCount (chord : Chord α) : Nat := chord.stages.length

def isGlide (chord : Chord α) : Bool := 1 < chord.stageCount

/-- The frequencies of one note through all stages. -/
def notePath (chord : Chord α) (index : Nat) : List α :=
  chord.stages.filterMap fun stage => stage[index]?

end Chord

namespace Stage

/-- The text between a pair of parentheses that stand at its very ends. -/
def unwrap? : List Char → Option (List Char)
  | '(' :: rest => if rest.getLast? = some ')' then some rest.dropLast else none
  | _ => none

def splitArrows : List Char → List (List Char)
  | [] => [[]]
  | '-' :: '>' :: rest => [] :: splitArrows rest
  | x :: rest =>
    match splitArrows rest with
    | [] => [[x]]
    | piece :: later => (x :: piece) :: later

def splitDelimiters : List Char → List (List Char)
  | [] => [[]]
  | x :: rest =>
    if x = Token.delimiter then [] :: splitDelimiters rest
    else
      match splitDelimiters rest with
      | [] => [[x]]
      | piece :: later => (x :: piece) :: later

def hasArrow : List Char → Bool
  | [] => false
  | '-' :: '>' :: _ => true
  | _ :: rest => hasArrow rest

/-- Whether every parenthesis has its partner, with the number of groups that are open so far. -/
def isBalanced (depth : Nat) : List Char → Bool
  | [] => depth == 0
  | x :: rest =>
    if x = '(' then isBalanced (depth + 1) rest
    else if x = ')' then
      match depth with
      | 0 => false
      | outer + 1 => isBalanced outer rest
    else isBalanced depth rest

theorem length_lt_of_unwrap? {text inner : List Char} (h : unwrap? text = some inner) :
    inner.length < text.length := by
  unfold unwrap? at h
  split at h
  · split at h
    · simp only [Option.some.injEq] at h
      subst h
      simp only [List.length_dropLast, List.length_cons]
      omega
    · simp at h
  · simp at h

/-- Drops the parentheses that group a whole glide, however many pairs there are. A pair groups a
glide if what it holds is balanced and has an arrow in it. -/
def ungroup (body : List Char) : List Char :=
  match _h : unwrap? body with
  | some inner => if hasArrow inner && isBalanced 0 inner then ungroup inner else body
  | none => body
termination_by body.length
decreasing_by exact length_lt_of_unwrap? _h

/-- The notes of one stage: a bare note, or notes between parentheses. -/
def read (text : List Char) : Except ChordFault (List Note) :=
  match text with
  | '(' :: _ =>
    match unwrap? text with
    | some inner => (splitDelimiters inner).mapM Note.read
    | none => .error (.unknownNote text)
  | _ => (splitDelimiters text).mapM Note.read

def readAll (body : List Char) : Except ChordFault (List (List Note)) :=
  (splitArrows (ungroup body)).mapM read

/-- The first stage behind the first one that has another number of notes, with that number. -/
def uneven? (expected : Nat) (index : Nat) : List (List Note) → Option (Nat × Nat)
  | [] => none
  | stage :: later =>
    if stage.length = expected then uneven? expected (index + 1) later
    else some (index, stage.length)

/-- Refuses a glide whose stages have different numbers of notes. -/
def checkEven (stages : List (List Note)) : Except ChordFault Unit :=
  match stages with
  | [] => .ok ()
  | first :: later =>
    match uneven? first.length 1 later with
    | some (index, found) => .error (.unevenGlide index first.length found)
    | none => .ok ()

def frequencies {α : Type} [Scalar α] (stage : List Note) : Except ChordFault (List α) :=
  stage.mapM fun note => note.frequency.map fun frequency => frequency.getD (Scalar.ofNat 0)

end Stage

def Chord.read {α : Type} [Scalar α] (token : List Char) (tempo : α) :
    Except ChordFault (Chord α) := do
  let (body, change) ← splitLength token
  let seconds := chordSeconds change tempo
  let stages ← Stage.readAll body
  Stage.checkEven stages
  if stages.any fun stage => stage.any Note.isRest then
    return ⟨token, seconds, []⟩
  else
    return ⟨token, seconds, ← stages.mapM Stage.frequencies⟩

end Portamento
