import Portamento.Score.Length

/-!
# Length suffixes

What the look at a token from its end comes to: a token either ends in an operator and one digit
from 1 to 9, and is taken apart there, or holds no operator with nothing but digits behind it, and
is left whole. Every other token is refused.
-/

namespace Portamento

/-- The digits are ten characters in a row. -/
theorem toNat_of_isDigit {x : Char} (isDigit : x.isDigit = true) :
    48 ≤ x.toNat ∧ x.toNat ≤ 57 := by
  simpa [Char.isDigit, UInt32.le_iff_toNat_le] using isDigit

namespace LengthChange

/-- The change that is written as the given suffix. -/
inductive Writes : List Char → LengthChange → Prop where
  | divide (digit : Char) (isDigit : digit.isDigit = true) (positive : digit ≠ '0') :
      Writes ['/', digit] (.divide (digit.toNat - '0'.toNat))
  | multiply (digit : Char) (isDigit : digit.isDigit = true) (positive : digit ≠ '0') :
      Writes ['*', digit] (.multiply (digit.toNat - '0'.toNat))

theorem ofChars?_eq_some {operator digit : Char} {change : LengthChange} :
    ofChars? operator digit = some change ↔ Writes [operator, digit] change := by
  unfold ofChars?
  constructor
  · intro h
    split at h
    · next positive =>
      dsimp only at h
      split at h
      · next divides =>
        cases h
        rw [divides]
        exact .divide digit positive.1 positive.2
      · split at h
        · next multiplies =>
          cases h
          rw [multiplies]
          exact .multiply digit positive.1 positive.2
        · cases h
    · cases h
  · rintro (⟨_, isDigit, positive⟩ | ⟨_, isDigit, positive⟩)
    · rw [if_pos ⟨isDigit, positive⟩]
      rfl
    · rw [if_pos ⟨isDigit, positive⟩]
      rfl

/-- The number that a change is made by. -/
def factor : LengthChange → Nat
  | divide n => n
  | multiply n => n

/-- A change that can be written is made by a number from 1 to 9. -/
theorem Writes.factor_pos {suffix : List Char} {change : LengthChange}
    (writes : Writes suffix change) : 1 ≤ change.factor ∧ change.factor ≤ 9 := by
  have bounds (digit : Char) (isDigit : digit.isDigit = true) (positive : digit ≠ '0') :
      1 ≤ digit.toNat - '0'.toNat ∧ digit.toNat - '0'.toNat ≤ 9 := by
    have range := toNat_of_isDigit isDigit
    have zero : '0'.toNat = 48 := rfl
    have other : digit.toNat ≠ 48 := fun same => positive (Char.ext (UInt32.toNat_inj.mp same))
    omega
  cases writes with
  | divide digit isDigit positive => exact bounds digit isDigit positive
  | multiply digit isDigit positive => exact bounds digit isDigit positive

end LengthChange

/-- A text that ends in an operator with nothing but digits behind it. -/
def EndsInOperator (text : List Char) : Prop :=
  ∃ front operator digits, text = front ++ operator :: digits ∧
    isLengthOperator operator = true ∧ digits.all Char.isDigit = true

/-- A token with the body and the change that it is read as. -/
inductive Suffixed (body : List Char) : Option LengthChange → List Char → Prop where
  | whole (whole : ¬ EndsInOperator body) : Suffixed body none body
  | changed (suffix : List Char) (change : LengthChange) (writes : change.Writes suffix) :
      Suffixed body (some change) (body ++ suffix)

theorem not_isDigit_of_isLengthOperator {x : Char} (operator : isLengthOperator x = true) :
    x.isDigit = false := by
  simp only [isLengthOperator, Bool.or_eq_true, beq_iff_eq] at operator
  rcases operator with rfl | rfl <;> rfl

/-- Whether a text ends in an operator shows at the last character that is no digit. -/
theorem endsInOperator_iff (text : List Char) : EndsInOperator text ↔
    ∃ operator front, text.reverse.dropWhile Char.isDigit = operator :: front ∧
      isLengthOperator operator = true := by
  constructor
  · rintro ⟨front, operator, digits, rfl, isOperator, areDigits⟩
    refine ⟨operator, front.reverse, ?_, isOperator⟩
    have digits' : ∀ x ∈ digits.reverse, x.isDigit = true := by
      simpa using areDigits
    have other := not_isDigit_of_isLengthOperator isOperator
    rw [List.reverse_append, List.reverse_cons, List.append_assoc,
      List.dropWhile_append_of_pos digits', List.singleton_append, List.dropWhile_cons, other]
    rfl
  · rintro ⟨operator, front, dropped, isOperator⟩
    have parts := List.takeWhile_append_dropWhile (p := Char.isDigit) (l := text.reverse)
    rw [dropped] at parts
    refine ⟨front.reverse, operator, (text.reverse.takeWhile Char.isDigit).reverse, ?_, isOperator,
      ?_⟩
    · rw [← List.reverse_inj]
      simpa using parts.symm
    · rw [List.all_reverse, List.all_takeWhile]

/-- A text of nothing but digits ends in no operator. -/
theorem not_endsInOperator_of_nil {text : List Char}
    (empty : text.reverse.dropWhile Char.isDigit = []) : ¬ EndsInOperator text := by
  intro ends
  obtain ⟨operator, front, dropped, -⟩ := (endsInOperator_iff text).mp ends
  rw [empty] at dropped
  cases dropped

/-- Another text ends in one if its last character that is no digit is one. -/
theorem endsInOperator_iff_of_cons {text front : List Char} {x : Char}
    (dropped : text.reverse.dropWhile Char.isDigit = x :: front) :
    EndsInOperator text ↔ isLengthOperator x = true := by
  rw [endsInOperator_iff, dropped]
  constructor
  · rintro ⟨operator, front', same, isOperator⟩
    cases same
    exact isOperator
  · exact fun isOperator => ⟨x, front, rfl, isOperator⟩

/-- What a token is taken apart into, read from either side. -/
theorem splitLength_eq_ok {token body : List Char} {change : Option LengthChange} :
    splitLength token = .ok (body, change) ↔ Suffixed body change token := by
  constructor
  · intro split
    have parts := List.takeWhile_append_dropWhile (p := Char.isDigit) (l := token.reverse)
    unfold splitLength at split
    dsimp only at split
    split at split
    · next empty =>
      cases split
      exact .whole (not_endsInOperator_of_nil empty)
    · next x _ _ dropped =>
      split at split
      · cases split
      · next other =>
        cases split
        exact .whole (mt (endsInOperator_iff_of_cons dropped).mp other)
    · next empty =>
      cases split
      exact .whole (not_endsInOperator_of_nil empty)
    · next digit more x front taken dropped =>
      split at split
      · split at split
        · next change written =>
          cases split
          rw [taken, dropped] at parts
          have token_eq : token = front.reverse ++ [x, digit] := by
            rw [← List.reverse_inj, ← parts]
            simp
          rw [token_eq]
          exact .changed _ change (LengthChange.ofChars?_eq_some.mp written)
        · cases split
      · next other =>
        cases split
        exact .whole (mt (endsInOperator_iff_of_cons dropped).mp other)
  · intro suffixed
    cases suffixed with
    | whole whole =>
      unfold splitLength
      dsimp only
      split
      · rfl
      · next dropped => rw [if_neg (mt (endsInOperator_iff_of_cons dropped).mpr whole)]
      · rfl
      · next dropped => rw [if_neg (mt (endsInOperator_iff_of_cons dropped).mpr whole)]
    | changed suffix change writes =>
      cases writes with
      | divide digit isDigit positive =>
        have written := LengthChange.ofChars?_eq_some.mpr (.divide digit isDigit positive)
        simp [splitLength, isDigit, written, isLengthOperator,
          show '/'.isDigit = false from rfl]
      | multiply digit isDigit positive =>
        have written := LengthChange.ofChars?_eq_some.mpr (.multiply digit isDigit positive)
        simp [splitLength, isDigit, written, isLengthOperator,
          show '*'.isDigit = false from rfl]

end Portamento
