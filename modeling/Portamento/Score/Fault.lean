import Portamento.Decimal.Layout
import Portamento.Text.Quoted

/-!
# What can be wrong with a score

The faults of a single chord, and those of a whole score. A fault carries what its message shows;
the wording is in one function for each.
-/

namespace Portamento

inductive ChordFault where
  /-- A text where a note should stand. -/
  | unknownNote (text : List Char)
  /-- A token whose length suffix is not an operator with one digit from 1 to 9. -/
  | malformedLength (token : List Char)
  /-- A later stage of a glide with another number of notes than the first. -/
  | unevenGlide (stage expected found : Nat)
  deriving DecidableEq, Repr

inductive ScoreFault (α : Type) where
  /-- A parenthesis without its partner, at a byte of the text. -/
  | unbalancedGroup (position : Nat)
  | noChords
  /-- A tempo that is not a positive number of beats per minute. -/
  | invalidTempo (tempo : α)
  /-- A chord that cannot be read, with its index and its token. -/
  | chord (index : Nat) (token : List Char) (fault : ChordFault)
  deriving DecidableEq, Repr

def ChordFault.message : ChordFault → String
  | .unknownNote text => "unknown note " ++ String.ofList (Text.quoted text)
  | .malformedLength token =>
    "malformed duration " ++ String.ofList (Text.quoted token) ++
      ": expected \x60/n\x60 or \x60*n\x60 with a single digit 1-9"
  | .unevenGlide stage expected found =>
    "glide stage " ++ Nat.repr stage ++ " has " ++ Nat.repr found ++ " notes, expected " ++
      Nat.repr expected

def ScoreFault.message : ScoreFault Float → String
  | .unbalancedGroup position => "unbalanced parenthesis group at position " ++ Nat.repr position
  | .noChords => "partition contains no chords"
  | .invalidTempo tempo =>
    "invalid tempo " ++ Decimal.prose.show tempo ++
      ": expected a positive number of beats per minute"
  | .chord index token fault =>
    "chord " ++ Nat.repr index ++ " (" ++ String.ofList (Text.quoted token) ++ "): " ++
      fault.message

/-- The fault of the single chord that makes the score unreadable, if it is one chord's. -/
def ScoreFault.chordFault? {α : Type} : ScoreFault α → Option ChordFault
  | .chord _ _ fault => some fault
  | _ => none

end Portamento
