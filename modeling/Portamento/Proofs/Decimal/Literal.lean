import Portamento.Decimal.Layout
import Portamento.Proofs.Decimal.Shortest

/-!
# Decimals laid out as literals

A literal is a whole part with a fraction, with a power of ten, or with both. Wherever the layout
puts the point, the literal has the value of the decimal, begins with a zero only if that is the
whole part, and has no more digits than are looked at.
-/

namespace Portamento.Decimal

section Digits

/-- Digits behind others move these by as many places. -/
theorem digitsValue_append (first later : List Char) :
    digitsValue (first ++ later) = 10 ^ later.length * digitsValue first + digitsValue later :=
  (Nat.ofDigitChars_append 0).trans Nat.ofDigitChars_eq_ofDigitChars_zero

@[simp] theorem digitsValue_zeros (n : Nat) : digitsValue (List.replicate n '0') = 0 :=
  Nat.ofDigitChars_replicate_zero

@[simp] theorem digitsValue_toDigits (n : Nat) : digitsValue (Nat.toDigits 10 n) = n :=
  Nat.ofDigitChars_ten_toDigits

theorem isDigit_of_mem_toDigits {n : Nat} {c : Char} (member : c ∈ Nat.toDigits 10 n) :
    c.isDigit = true :=
  Nat.isDigit_of_mem_toDigits (by norm_num) (by norm_num) member

/-- Whether digits begin with another one than zero. -/
def IsSignificant (digits : List Char) : Prop := ∃ c later, c ≠ '0' ∧ digits = c :: later

theorem IsSignificant.append {digits : List Char} (significant : IsSignificant digits)
    (later : List Char) : IsSignificant (digits ++ later) := by
  obtain ⟨c, rest, other, rfl⟩ := significant
  exact ⟨c, rest ++ later, other, rfl⟩

theorem IsSignificant.take {digits : List Char} (significant : IsSignificant digits) {n : Nat}
    (some : 0 < n) : IsSignificant (digits.take n) := by
  obtain ⟨c, rest, other, rfl⟩ := significant
  obtain ⟨k, rfl⟩ := Nat.exists_eq_succ_of_ne_zero some.ne'
  exact ⟨c, rest.take k, other, rfl⟩

theorem IsSignificant.length_pos {digits : List Char} (significant : IsSignificant digits) :
    0 < digits.length := by
  obtain ⟨c, rest, -, rfl⟩ := significant
  exact Nat.succ_pos _

/-- A number other than zero does not begin with the digit zero. -/
theorem isSignificant_toDigits {n : Nat} (some : 0 < n) : IsSignificant (Nat.toDigits 10 n) := by
  induction n using Nat.strong_induction_on with
  | _ n ih =>
    rcases Nat.lt_or_ge n 10 with single | several
    · rw [Nat.toDigits_of_lt_base single]
      refine ⟨n.digitChar, [], ?_, rfl⟩
      interval_cases n <;> decide
    · rw [Nat.toDigits_of_base_le (by norm_num) several]
      exact (ih (n / 10) (by omega) (by omega)).append _

end Digits

/-- A number in print: the digits before and behind the point, and the power of ten if it shows. -/
structure Numeral where
  whole : List Char
  fraction : List Char
  power : Option ℤ

namespace Numeral

/-- The digits on both sides of the point. -/
def digits (n : Numeral) : List Char := n.whole ++ n.fraction

/-- The power of ten that the last digit counts. -/
def exponent (n : Numeral) : ℤ := n.power.getD 0 - n.fraction.length

/-- The number that is printed. -/
noncomputable def value (n : Numeral) : ℝ := digitsValue n.digits * 10 ^ n.exponent

/-- The point and the digits behind it, if there are any. -/
def fractionChars : List Char → List Char
  | [] => []
  | fraction => '.' :: fraction

/-- The letter and the power of ten behind it, if it shows. -/
def powerChars : Option ℤ → List Char
  | none => []
  | some e => 'e' :: ((if e < 0 then ['-'] else []) ++ Nat.toDigits 10 e.natAbs)

/-- The number in print. -/
def chars (n : Numeral) : List Char := n.whole ++ (fractionChars n.fraction ++ powerChars n.power)

/-- A number in print that is read as a double, and to its last digit. -/
structure IsLiteral (n : Numeral) : Prop where
  digit : ∀ c ∈ n.digits, c.isDigit = true
  whole : n.whole = ['0'] ∨ IsSignificant n.whole
  fractional : n.fraction = [] → n.power.isSome
  few : n.digits.length ≤ decisiveDigits

/-- Digits with the point where the exponent puts it. -/
def plain (digits : List Char) (e : ℤ) : Numeral :=
  if 0 ≤ e then ⟨digits ++ List.replicate e.toNat '0', ['0'], none⟩
  else
    let places := (-e).toNat
    if places < digits.length then
      ⟨digits.take (digits.length - places), digits.drop (digits.length - places), none⟩
    else ⟨['0'], List.replicate (places - digits.length) '0' ++ digits, none⟩

/-- The first digit before the point, and its power of ten. -/
def withPower (digits : List Char) (leading : ℤ) : Numeral :=
  ⟨digits.take 1, digits.drop 1, some leading⟩

variable {ds : List Char} {e : ℤ}

theorem fractionChars_eq_cons (some : ds ≠ []) : fractionChars ds = '.' :: ds := by
  cases ds with
  | nil => exact absurd rfl some
  | cons d later => rfl

theorem toList_plain (some : 0 < ds.length) : (literal.plain ds e).toList = (plain ds e).chars := by
  unfold Layout.plain plain chars
  split
  · simp [literal, zeros, fractionChars, powerChars]
  · next negative =>
    simp only []
    split
    · next inside =>
      have later : ds.drop (ds.length - (-e).toNat) ≠ [] := by
        simp only [ne_eq, List.drop_eq_nil_iff]
        omega
      simp [fractionChars_eq_cons later, powerChars]
    · have later : List.replicate ((-e).toNat - ds.length) '0' ++ ds ≠ [] := by
        simp [List.ne_nil_of_length_pos some]
      simp [fractionChars_eq_cons later, powerChars, zeros]

theorem toList_withPower (some : 0 < ds.length) :
    (literal.withExponent ds e).toList = (withPower ds e).chars := by
  match ds with
  | [d] =>
    unfold Layout.withExponent
    split_ifs <;> simp_all [withPower, chars, fractionChars, powerChars, literal]
  | d :: second :: later =>
    unfold Layout.withExponent
    split_ifs <;> simp_all [withPower, chars, fractionChars, powerChars, literal]

theorem value_plain : (plain ds e).value = digitsValue ds * 10 ^ e := by
  unfold plain value digits exponent
  split
  · next natural =>
    obtain ⟨k, rfl⟩ := Int.eq_ofNat_of_zero_le natural
    have zero : digitsValue ['0'] = 0 := rfl
    rw [digitsValue_append, digitsValue_append, digitsValue_zeros, zero]
    simp
    ring
  · next negative =>
    obtain ⟨k, rfl⟩ := Int.exists_eq_neg_ofNat (not_le.mp negative).le
    simp only [neg_neg, Int.toNat_natCast]
    split
    · next inside =>
      rw [List.take_append_drop, List.length_drop, Option.getD_none]
      congr 2
      omega
    · next outside =>
      have zero : digitsValue ['0'] = 0 := rfl
      rw [digitsValue_append, digitsValue_append, digitsValue_zeros, zero, List.length_append,
        List.length_replicate, Option.getD_none]
      simp only [mul_zero, zero_add]
      congr 2
      omega

theorem value_withPower (some : 0 < ds.length) :
    (withPower ds (e + ds.length - 1)).value = digitsValue ds * 10 ^ e := by
  unfold withPower value digits exponent
  simp only [List.take_append_drop, List.length_drop, Option.getD_some]
  congr 2
  omega

section Literal

variable (all : ∀ c ∈ ds, c.isDigit = true) (significant : IsSignificant ds)
  (few : ds.length ≤ surelySeen)

include all significant few

theorem isLiteral_plain (low : -4 ≤ e + ds.length - 1) (high : e + ds.length - 1 ≤ 15) :
    (plain ds e).IsLiteral := by
  have room : surelySeen + 4 = decisiveDigits ∧ 17 ≤ decisiveDigits := by decide
  have some := significant.length_pos
  unfold plain
  split
  · refine ⟨?_, .inr (significant.append _), nofun, ?_⟩
    · simp only [digits, List.mem_append, List.mem_singleton, List.mem_replicate]
      rintro c ((member | ⟨-, rfl⟩) | rfl)
      · exact all c member
      · rfl
      · rfl
    · simp only [digits, List.length_append, List.length_replicate, List.length_singleton]
      omega
  · simp only []
    split
    · next inside =>
      refine ⟨?_, .inr (significant.take (by omega)), fun none => ?_, ?_⟩
      · simpa only [digits, List.take_append_drop] using all
      · simp only [List.drop_eq_nil_iff] at none
        omega
      · simp only [digits, List.take_append_drop]
        omega
    · refine ⟨?_, .inl rfl, fun none => ?_, ?_⟩
      · simp only [digits, List.mem_append, List.mem_singleton, List.mem_replicate]
        rintro c (rfl | ⟨-, rfl⟩ | member)
        · rfl
        · rfl
        · exact all c member
      · rw [List.append_eq_nil_iff] at none
        exact absurd none.2 (List.ne_nil_of_length_pos some)
      · simp only [digits, List.length_append, List.length_replicate, List.length_singleton]
        omega

theorem isLiteral_withPower : (withPower ds e).IsLiteral := by
  have room : surelySeen ≤ decisiveDigits := by decide
  refine ⟨?_, .inr (significant.take one_pos), fun _ => rfl, ?_⟩
  · simpa only [withPower, digits, List.take_append_drop] using all
  · simp only [withPower, digits, List.take_append_drop]
    omega

end Literal

end Numeral

/-- What is printed of a decimal is a literal with its value. -/
theorem exists_literal {d : Scientific} (some : 0 < d.digits) (few : d.digits < 10 ^ surelySeen) :
    ∃ n : Numeral, n.IsLiteral ∧ (literal.scientific d).toList = n.chars ∧ n.value = d.value := by
  have digits := isSignificant_toDigits some
  have short : (Nat.toDigits 10 d.digits).length ≤ surelySeen :=
    (Nat.length_toDigits_le_iff (by norm_num) (by decide)).mpr few
  have all (c : Char) (member : c ∈ Nat.toDigits 10 d.digits) := isDigit_of_mem_toDigits member
  unfold Layout.scientific
  simp only [literal]
  split
  · next range =>
    obtain ⟨low, high⟩ := range.resolve_left some.ne'
    refine ⟨.plain _ d.exponent, Numeral.isLiteral_plain all digits short low high,
      Numeral.toList_plain digits.length_pos, ?_⟩
    rw [Numeral.value_plain, digitsValue_toDigits, Scientific.value]
  · refine ⟨.withPower _ _, Numeral.isLiteral_withPower all digits short,
      Numeral.toList_withPower digits.length_pos, ?_⟩
    rw [Numeral.value_withPower digits.length_pos, digitsValue_toDigits, Scientific.value]

end Portamento.Decimal
