/-!
# Blank characters

Which characters count as white space, in the notation and around the words of a setting. The set is
the Unicode property White_Space: twenty-five characters in ten ranges.
-/

namespace Portamento.Text

/-- The ranges of white space, in ascending order, both ends included. -/
def blankRanges : List (Nat × Nat) :=
  [(0x09, 0x0D), (0x20, 0x20), (0x85, 0x85), (0xA0, 0xA0), (0x1680, 0x1680), (0x2000, 0x200A),
   (0x2028, 0x2029), (0x202F, 0x202F), (0x205F, 0x205F), (0x3000, 0x3000)]

/-- Whether a number lies in one of the ranges, which ascend. -/
def inRanges (n : Nat) : List (Nat × Nat) → Bool
  | [] => false
  | (low, high) :: later => low ≤ n && (n ≤ high || inRanges n later)

def isBlank (c : Char) : Bool := inRanges c.toNat blankRanges

def trim (text : List Char) : List Char :=
  ((text.dropWhile isBlank).reverse.dropWhile isBlank).reverse

/-- The text with the letters A to Z in lower case and all else unchanged. -/
def lower (text : List Char) : List Char := text.map Char.toLower

def byteLength (text : List Char) : Nat := text.foldr (fun c n => c.utf8Size + n) 0

end Portamento.Text
