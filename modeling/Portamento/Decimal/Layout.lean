import Portamento.Decimal.Shortest

/-!
# Numbers in print

One function writes a double with the fewest digits that identify it; a record says how those digits
are laid out. Three records follow, one for each kind of text that this library writes numbers into.
-/

namespace Portamento.Decimal

/-- The decisions that a notation of numbers leaves open. -/
structure Layout where
  /-- The range of the leading digit's exponent in which a number is written without an exponent of
  its own, both ends included; `none` means always. -/
  plainRange : Option (Int × Int)
  /-- Whether a whole number shows a point and a zero. -/
  pointZero : Bool
  plusSign : Bool
  tie : Tie
  notANumber : String
  infinite : String
  deriving DecidableEq, Repr

/-- Numbers in sentences: no exponent, however long, and no point in a whole number. -/
def prose : Layout where
  plainRange := none
  pointZero := false
  plusSign := false
  tie := .upward
  notANumber := "NaN"
  infinite := "inf"

/-- Numbers in a printed configuration: always recognisable as fractional, with an exponent from ten
to the sixteenth on and below a ten-thousandth. -/
def literal : Layout where
  plainRange := some (-4, 15)
  pointZero := true
  plusSign := false
  tie := .upward
  notANumber := "NaN"
  infinite := "inf"

/-- Numbers in a document for machines, which has no word for what is not finite. -/
def interchange : Layout where
  plainRange := some (-5, 15)
  pointZero := true
  plusSign := true
  tie := .toEven
  notANumber := "null"
  infinite := "null"

def zeros (n : Nat) : String := String.ofList (List.replicate n '0')

/-- Digits with the decimal point where the exponent puts it. -/
def Layout.plain (layout : Layout) (digits : List Char) (exponent : Int) : String :=
  if 0 ≤ exponent then
    String.ofList digits ++ zeros exponent.toNat ++ (if layout.pointZero then ".0" else "")
  else
    let places := (-exponent).toNat
    if places < digits.length then
      let whole := digits.length - places
      String.ofList (digits.take whole) ++ "." ++ String.ofList (digits.drop whole)
    else "0." ++ zeros (places - digits.length) ++ String.ofList digits

/-- One digit, the point and the others, and the exponent of the first. -/
def Layout.withExponent (layout : Layout) (digits : List Char) (leading : Int) : String :=
  let mantissa :=
    match digits with
    | [] => ""
    | [d] => String.ofList [d]
    | d :: rest => String.ofList (d :: '.' :: rest)
  let sign := if leading < 0 then "-" else if layout.plusSign then "+" else ""
  mantissa ++ "e" ++ sign ++ Nat.repr leading.natAbs

/-- The text of a decimal that is not negative. -/
def Layout.scientific (layout : Layout) (d : Scientific) : String :=
  let digits := Nat.toDigits 10 d.digits
  let leading := d.exponent + digits.length - 1
  match layout.plainRange with
  | none => layout.plain digits d.exponent
  | some (low, high) =>
    if d.digits = 0 ∨ (low ≤ leading ∧ leading ≤ high) then layout.plain digits d.exponent
    else layout.withExponent digits leading

def Layout.show (layout : Layout) (x : Float) : String :=
  match Content.ofFloat x with
  | .notANumber => layout.notANumber
  | .infinite negative => (if negative then "-" else "") ++ layout.infinite
  | .finite negative magnitude =>
    let d := if magnitude.coefficient = 0 then ⟨0, 0⟩ else magnitude.shortest layout.tie
    (if negative then "-" else "") ++ layout.scientific d

end Portamento.Decimal
