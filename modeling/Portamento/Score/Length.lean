import Portamento.Score.Fault
import Portamento.Scalar.Basic

/-!
# How long a chord lasts

A chord lasts one beat. A suffix of an operator and one digit from 1 to 9 divides or multiplies
that. A longer run of digits behind an operator is refused, so that a slip of the pen never plays at
a length nobody wrote; digits that no operator stands before belong to the note.
-/

namespace Portamento

/-- What a suffix does to the length of a beat. -/
inductive LengthChange where
  | divide (n : Nat)
  | multiply (n : Nat)
  deriving DecidableEq, Repr

namespace LengthChange

def ofChars? (operator digit : Char) : Option LengthChange :=
  if digit.isDigit ∧ digit ≠ '0' then
    let n := digit.toNat - '0'.toNat
    if operator = '/' then some (.divide n)
    else if operator = '*' then some (.multiply n)
    else none
  else none

def apply {α : Type} [Scalar α] (base : α) : LengthChange → α
  | .divide n => base / Scalar.ofNat n
  | .multiply n => base * Scalar.ofNat n

end LengthChange

def isLengthOperator (x : Char) : Bool := x == '/' || x == '*'

/-- A token without its length suffix, and the suffix. The token is looked at from its end: an
operator there has no digit; otherwise the last run of digits is a suffix if an operator stands
before it. -/
def splitLength (token : List Char) :
    Except ChordFault (List Char × Option LengthChange) :=
  let back := token.reverse
  let digits := back.takeWhile Char.isDigit
  match digits, back.dropWhile Char.isDigit with
  | [], [] => .ok (token, none)
  | [], x :: _ => if isLengthOperator x then .error (.malformedLength token) else .ok (token, none)
  | _ :: _, [] => .ok (token, none)
  | digit :: more, x :: body =>
    if isLengthOperator x then
      match more, LengthChange.ofChars? x digit with
      | [], some change => .ok (body.reverse, some change)
      | _, _ => .error (.malformedLength token)
    else .ok (token, none)

def beatSeconds {α : Type} [Scalar α] (tempo : α) : α := Scalar.ofNat 60 / tempo

def chordSeconds {α : Type} [Scalar α] (change : Option LengthChange) (tempo : α) : α :=
  match change with
  | some change => change.apply (beatSeconds tempo)
  | none => beatSeconds tempo

end Portamento
