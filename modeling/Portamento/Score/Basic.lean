import Portamento.Score.Chord

/-!
# Scores

A score is one pass of chords at a tempo. Reading it stops at the first chord that cannot be read;
nothing is dropped and nothing is guessed.
-/

namespace Portamento

/-- The chords of one pass, with the tempo in quarter notes per minute. -/
structure Score (α : Type) where
  tempo : α
  chords : List (Chord α)
  deriving DecidableEq, Repr

namespace Score

variable {α : Type} [Scalar α]

def totalSeconds (score : Score α) : α := Scalar.sum (score.chords.map Chord.seconds)

/-- Reads chord tokens, the first of which has the given index. -/
def readChords (tempo : α) (index : Nat) :
    List (List Char) → Except (ScoreFault α) (List (Chord α))
  | [] => .ok []
  | token :: later =>
    match Chord.read token tempo with
    | .error fault => .error (.chord index token fault)
    | .ok chord => (readChords tempo (index + 1) later).map (chord :: ·)

def read (text : List Char) (tempo : α) : Except (ScoreFault α) (Score α) :=
  if ¬ Scalar.isFinite tempo ∨ tempo ≤ Scalar.ofNat 0 then .error (.invalidTempo tempo)
  else do
    let tokens ← Token.ofText text
    if tokens.isEmpty then .error .noChords
    else return ⟨tempo, ← readChords tempo 0 tokens⟩

end Score

end Portamento
