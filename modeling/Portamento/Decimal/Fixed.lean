import Portamento.Decimal.Layout

/-!
# A set number of decimal places

Times and frequencies in tables show two or three places. The exact value of the double is rounded,
and a value exactly half way takes the even last digit.
-/

namespace Portamento.Decimal

/-- A natural number of units of the last place, with the point set. -/
def withPlaces (places units : Nat) : String :=
  let digits := Nat.toDigits 10 units
  let padded := List.replicate (places + 1 - digits.length) '0' ++ digits
  let whole := padded.length - places
  if places = 0 then String.ofList padded
  else String.ofList (padded.take whole) ++ "." ++ String.ofList (padded.drop whole)

/-- The text of a double with the given number of decimal places. -/
def fixed (places : Nat) (x : Float) : String :=
  match Content.ofFloat x with
  | .notANumber => prose.notANumber
  | .infinite negative => (if negative then "-" else "") ++ prose.infinite
  | .finite negative magnitude =>
    let units := (Ratio.scale (Nat.pow 10 places) magnitude.ratio).nearest .toEven
    (if negative then "-" else "") ++ withPlaces places units

end Portamento.Decimal
