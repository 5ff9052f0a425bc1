import Portamento.Proofs.Decimal.Literal
import Portamento.Proofs.Toml.Lines

/-!
# Numbers that are read back

A number in print is read as the number that it is, whatever lines follow it. It is not taken for a
moment, because behind its digits stands neither of the characters that a date or a time has there.
-/

namespace Portamento.Toml

open Decimal

/-- What may stand behind the first digits of a number in print. -/
def IsBehindDigits (c : Char) : Prop := c = '.' ∨ c = 'e' ∨ c = '\n'

/-- A digit is no other mark. -/
theorem ne_of_isDigit {d mark : Char} (digit : d.isDigit = true) (other : mark.isDigit = false) :
    d ≠ mark := by
  rintro rfl
  exact absurd digit (by simp [other])

section Runs

variable {ds rest : List Char} {c : Char}

theorem IsBehindDigits.not_digit (behind : IsBehindDigits c) : c.isDigit = false ∧ c ≠ '_' := by
  rcases behind with rfl | rfl | rfl <;> decide

theorem moreDigits_append (all : ∀ d ∈ ds, d.isDigit = true) (behind : IsBehindDigits c) :
    moreDigits Char.isDigit (ds ++ c :: rest) = (ds, c :: rest) := by
  induction ds with
  | nil =>
    obtain ⟨other, plain⟩ := behind.not_digit
    unfold moreDigits
    split <;> simp_all
  | cons d later ih =>
    have digit := all d List.mem_cons_self
    have plain : d ≠ '_' := ne_of_isDigit digit (by decide)
    rw [List.cons_append]
    unfold moreDigits
    split
    · next heq => cases heq
    · next heq => exact absurd (List.cons.inj heq).1 plain
    · next heq =>
      obtain ⟨rfl, rfl⟩ := List.cons.inj heq
      rw [if_pos digit, ih fun x member => all x (List.mem_cons_of_mem _ member)]

theorem digitRun_append (all : ∀ d ∈ ds, d.isDigit = true) (some : ds ≠ [])
    (behind : IsBehindDigits c) :
    digitRun Char.isDigit (ds ++ c :: rest) = .some (ds, c :: rest) := by
  obtain ⟨d, later, rfl⟩ := List.exists_cons_of_ne_nil some
  rw [List.cons_append, digitRun, if_pos (all d List.mem_cons_self),
    moreDigits_append (fun x member => all x (List.mem_cons_of_mem _ member)) behind]

theorem readWhole_append (all : ∀ d ∈ ds, d.isDigit = true)
    (whole : ds = ['0'] ∨ IsSignificant ds) (behind : IsBehindDigits c) :
    readWhole (ds ++ c :: rest) = some (ds, c :: rest) := by
  rcases whole with rfl | ⟨d, later, other, rfl⟩
  · rfl
  · unfold readWhole
    split
    · next heq => exact absurd (List.cons.inj heq).1 other
    · exact digitRun_append all (List.cons_ne_nil _ _) behind

/-- Behind a number of digits comes no mark that does not stand behind all of them. -/
theorem expect_of_fixedDigits {count n : Nat} {mark : Char} {later : List Char}
    (all : ∀ d ∈ ds, d.isDigit = true) (behind : IsBehindDigits c)
    (mark_not_digit : mark.isDigit = false) (other : c ≠ mark)
    (read : fixedDigits count (ds ++ c :: rest) = some (n, later)) : expect mark later = none := by
  unfold fixedDigits at read
  simp only [] at read
  split at read
  · next full =>
    cases read
    have inside : count ≤ ds.length := by
      by_contra beyond
      have digits : ((ds ++ c :: rest).take count).takeWhile Char.isDigit = ds := by
        obtain ⟨k, rfl⟩ := Nat.exists_eq_add_of_lt (not_le.mp beyond)
        rw [List.take_append, List.take_of_length_le (by omega),
          List.takeWhile_append_of_pos all]
        simp [show ds.length + k + 1 - ds.length = k + 1 by omega, behind.not_digit.1]
      rw [digits] at full
      omega
    rw [List.drop_append_of_le_length inside]
    cases found : ds.drop count with
    | nil => exact if_neg other
    | cons d more =>
      have digit := all d (List.mem_of_mem_drop (found ▸ List.mem_cons_self))
      exact if_neg (ne_of_isDigit digit mark_not_digit)
  · cases read

end Runs

/-- A number in print is no moment. -/
theorem Moment.read_digits {ds rest : List Char} {c : Char} (all : ∀ d ∈ ds, d.isDigit = true)
    (behind : IsBehindDigits c) : Moment.read (ds ++ c :: rest) = none := by
  have marks : c ≠ '-' ∧ c ≠ ':' := by rcases behind with rfl | rfl | rfl <;> decide
  have noDate : Date.read (ds ++ c :: rest) = none := by
    unfold Date.read
    cases read : fixedDigits 4 (ds ++ c :: rest) with
    | none => rfl
    | some found =>
      have none := expect_of_fixedDigits all behind (by decide : '-'.isDigit = false) marks.1 read
      simp [none]
  have noTime : TimeOfDay.read (ds ++ c :: rest) = none := by
    unfold TimeOfDay.read TimeOfDay.readMinute
    cases read : fixedDigits 2 (ds ++ c :: rest) with
    | none => rfl
    | some found =>
      have none := expect_of_fixedDigits all behind (by decide : ':'.isDigit = false) marks.2 read
      simp [none]
  rw [Moment.read, noDate, noTime]
  rfl

/-- The sign of a number in print. -/
def signChars (negative : Bool) : List Char := if negative then ['-'] else []

/-- A number in print is read as a number in decimal notation. -/
theorem readFigure_digits {ds rest : List Char} {c : Char} (all : ∀ d ∈ ds, d.isDigit = true)
    (whole : ds = ['0'] ∨ IsSignificant ds) (behind : IsBehindDigits c) (negative : Bool) :
    readFigure (signChars negative ++ (ds ++ c :: rest)) =
      readDecimal negative (ds ++ c :: rest) := by
  have noMoment : Moment.read (signChars negative ++ (ds ++ c :: rest)) = none := by
    cases negative with
    | true => rfl
    | false => exact Moment.read_digits all behind
  rw [readFigure, noMoment]
  -- No letter of another base stands behind a zero that comes first.
  rcases whole with rfl | ⟨d, later, other, rfl⟩
  · rcases behind with rfl | rfl | rfl <;> cases negative <;> rfl
  · have digit := all d List.mem_cons_self
    have begins (mark : Char) (odd : mark.isDigit = false) (more : List Char) :
        d :: later ++ c :: rest = mark :: more → False :=
      fun same => ne_of_isDigit digit odd (List.cons.inj same).1
    have unsigned (negative : Bool) : readUnsigned negative (d :: later ++ c :: rest) =
        readDecimal negative (d :: later ++ c :: rest) := by
      rw [readUnsigned]
      · exact fun _ => begins 'i' (by decide) _
      · exact fun _ => begins 'n' (by decide) _
    cases negative with
    | true => exact unsigned true
    | false =>
      rw [signChars, if_neg Bool.false_ne_true, List.nil_append]
      simp only []
      rw [readNumber]
      · exact unsigned false
      · exact begins '+' (by decide)
      · exact begins '-' (by decide)
      · exact fun _ same => other (List.cons.inj same).1
      · exact fun _ same => other (List.cons.inj same).1
      · exact fun _ same => other (List.cons.inj same).1

section Literal

variable {rest : List Char}

theorem readPower_toDigits {e : ℤ} :
    readPower ((if e < 0 then ['-'] else []) ++ (Nat.toDigits 10 e.natAbs ++ '\n' :: rest)) =
      some (e, '\n' :: rest) := by
  have run : digitRun Char.isDigit (Nat.toDigits 10 e.natAbs ++ '\n' :: rest) =
      some (Nat.toDigits 10 e.natAbs, '\n' :: rest) :=
    digitRun_append (fun d => isDigit_of_mem_toDigits) Nat.toDigits_ne_nil (.inr (.inr rfl))
  split
  · rw [List.singleton_append, readPower, run]
    simp only [Option.map_some, digitsValue_toDigits, Option.some.injEq, Prod.mk.injEq, and_true]
    omega
  · obtain ⟨d, later, digits⟩ := List.exists_cons_of_ne_nil
      (Nat.toDigits_ne_nil (n := e.natAbs) (b := 10))
    have digit : d.isDigit = true := isDigit_of_mem_toDigits (digits ▸ List.mem_cons_self)
    have begins (mark : Char) (odd : mark.isDigit = false) (more : List Char) :
        Nat.toDigits 10 e.natAbs ++ '\n' :: rest = mark :: more → False := by
      rw [digits]
      exact fun same => ne_of_isDigit digit odd (List.cons.inj same).1
    rw [List.nil_append, readPower, run]
    · simp only [Option.map_some, digitsValue_toDigits, Option.some.injEq, Prod.mk.injEq, and_true]
      omega
    · exact begins '-' (by decide)
    · exact begins '+' (by decide)

theorem readExponent?_powerChars (power : Option ℤ) :
    readExponent? (Numeral.powerChars power ++ '\n' :: rest) = some (power, '\n' :: rest) := by
  cases power with
  | none => rfl
  | some e =>
    rw [Numeral.powerChars, List.cons_append, List.append_assoc, readExponent?, readPower_toDigits]
    rfl

theorem readFraction?_fractionChars {ds : List Char} (all : ∀ d ∈ ds, d.isDigit = true)
    (power : Option ℤ) (rest : List Char) :
    readFraction? (Numeral.fractionChars ds ++ (Numeral.powerChars power ++ '\n' :: rest)) =
      some (if ds = [] then none else some ds, Numeral.powerChars power ++ '\n' :: rest) := by
  have tail : ∃ c more, Numeral.powerChars power ++ '\n' :: rest = c :: more ∧ IsBehindDigits c ∧
      c ≠ '.' := by
    cases power with
    | none => exact ⟨'\n', rest, rfl, .inr (.inr rfl), by decide⟩
    | some e => exact ⟨'e', _, rfl, .inr (.inl rfl), by decide⟩
  obtain ⟨c, more, form, behind, other⟩ := tail
  rw [form]
  cases ds with
  | nil =>
    rw [Numeral.fractionChars, List.nil_append, readFraction?]
    · rfl
    · exact fun _ same => other (List.cons.inj same).1
  | cons d later =>
    rw [Numeral.fractionChars, List.cons_append, readFraction?,
      digitRun_append all (List.cons_ne_nil _ _) behind]
    · rfl
    · simp

/-- What begins as numbers do is read as a figure. -/
theorem isReadAs_of_readFigure {c : Char} {later : List Char} {value : Value}
    (figure : c = '-' ∨ c.isDigit = true) (read : ∀ rest,
      readFigure (c :: later ++ '\n' :: rest) = some (value, '\n' :: rest)) :
    IsReadAs (c :: later) (some value) := by
  have other (x : Char) (dash : x ≠ '-') (letter : x.isDigit = false) : c ≠ x :=
    figure.elim (fun same => same ▸ dash.symm) fun digit => ne_of_isDigit digit letter
  refine ⟨?_, fun fuel rest => ?_⟩
  · refine flush_cons ?_
    simp [isBlank, other ' ' (by decide) (by decide), other '\t' (by decide) (by decide)]
  · refine Eq.trans ?_ (read rest)
    rw [readAnyValue, List.cons_append, readValue]
    all_goals exact fun _ same => other _ (by decide) (by decide) (List.cons.inj same).1

/-- What stands behind the whole part of a number in print. -/
theorem exists_behind_whole (n : Numeral) (rest : List Char) : ∃ c more,
    Numeral.fractionChars n.fraction ++ (Numeral.powerChars n.power ++ '\n' :: rest) = c :: more ∧
      IsBehindDigits c := by
  unfold Numeral.fractionChars Numeral.powerChars
  split
  · split
    · exact ⟨_, _, rfl, .inr (.inr rfl)⟩
    · exact ⟨_, _, rfl, .inr (.inl rfl)⟩
  · exact ⟨_, _, rfl, .inl rfl⟩

variable {n : Numeral}

theorem readFigure_chars (literal : n.IsLiteral) (negative : Bool) :
    readFigure (signChars negative ++ (n.chars ++ '\n' :: rest)) =
      (float? negative n.whole n.fraction (n.power.getD 0)).map (·, '\n' :: rest) := by
  obtain ⟨c, more, form, behind⟩ := exists_behind_whole n rest
  have all (d : Char) (member : d ∈ n.whole) : d.isDigit = true :=
    literal.digit d (List.mem_append_left _ member)
  have fraction (d : Char) (member : d ∈ n.fraction) : d.isDigit = true :=
    literal.digit d (List.mem_append_right _ member)
  have whole : readWhole (n.whole ++ c :: more) = some (n.whole, c :: more) :=
    readWhole_append all literal.whole behind
  have later := readFraction?_fractionChars fraction n.power rest
  rw [form] at later
  rw [Numeral.chars, List.append_assoc, List.append_assoc, form,
    readFigure_digits all literal.whole behind, readDecimal]
  simp only [whole, later, readExponent?_powerChars, Option.bind_eq_bind, Option.bind_some]
  by_cases none : n.fraction = []
  · obtain ⟨e, power⟩ := Option.isSome_iff_exists.mp (literal.fractional none)
    simp [none, power, Option.map_eq_bind]
  · simp only [if_neg none, Option.getD_some]
    rw [Option.map_eq_bind]
    rfl

/-- A literal is the double with its sign and the magnitude that is nearest to its digits. -/
theorem float?_of_nearest {whole fraction : List Char} {e : ℤ} {x : Magnitude} (double : x.IsDouble)
    (nearest : nearestDoubleOf (whole ++ fraction) (e - fraction.length) = ofMagnitude false x)
    (negative : Bool) :
    float? negative whole fraction e = some (.float (ofMagnitude negative x)) := by
  rw [float?, nearest]
  cases negative with
  | true => simp [neg_ofMagnitude double]
  | false => simp [isInf_ofMagnitude double]

end Literal

/-- Digits with nothing behind them are a whole number. -/
theorem readDecimal_whole {ds : List Char} (all : ∀ d ∈ ds, d.isDigit = true)
    (whole : ds = ['0'] ∨ IsSignificant ds) (negative : Bool) (rest : List Char) :
    readDecimal negative (ds ++ '\n' :: rest) =
      ((valueUpTo? integerBound.toNat ds).bind fun n : Nat =>
        integer? (if negative then -n else n)).map (·, '\n' :: rest) := by
  have read : readWhole (ds ++ '\n' :: rest) = some (ds, '\n' :: rest) :=
    readWhole_append all whole (.inr (.inr rfl))
  have noFraction : readFraction? ('\n' :: rest) = some (none, '\n' :: rest) := rfl
  have noPower : readExponent? ('\n' :: rest) = some (none, '\n' :: rest) := rfl
  unfold readDecimal
  rw [read]
  simp only [Option.bind_eq_bind, Option.bind_some, noFraction, noPower, Option.map_eq_bind]
  rfl

theorem valueUpTo?_toDigits {limit m : Nat} (inside : m ≤ limit) :
    valueUpTo? limit (Nat.toDigits 10 m) = some m := by
  have value : (Nat.toDigits 10 m).foldl appendDigit 0 = m := digitsValue_toDigits m
  rw [valueUpTo?, extendUpTo?_eq, value, if_pos inside]

/-- A count in print is read as itself. -/
theorem isReadAs_repr {m : Nat} (some : 0 < m) (fits : (m : ℤ) < integerBound) :
    IsReadAs (Nat.repr m).toList (.some (.integer m)) := by
  have all (d : Char) (member : d ∈ Nat.toDigits 10 m) := isDigit_of_mem_toDigits member
  have whole : Nat.toDigits 10 m = ['0'] ∨ _ := .inr (isSignificant_toDigits some)
  have bound : 0 ≤ integerBound := by decide
  have value : valueUpTo? integerBound.toNat (Nat.toDigits 10 m) = .some m :=
    valueUpTo?_toDigits ((Int.le_toNat bound).mpr fits.le)
  have integer : integer? m = .some (.integer m) := by rw [integer?, if_pos ⟨by omega, fits⟩]
  have read (rest : List Char) :
      readFigure (Nat.toDigits 10 m ++ '\n' :: rest) = .some (.integer m, '\n' :: rest) :=
    calc readFigure (Nat.toDigits 10 m ++ '\n' :: rest)
        = readDecimal false (Nat.toDigits 10 m ++ '\n' :: rest) :=
          readFigure_digits all whole (.inr (.inr rfl)) false
      _ = (integer? m).map (·, '\n' :: rest) := by
        rw [readDecimal_whole all whole, value, Option.bind_some, if_neg Bool.false_ne_true]
      _ = .some (.integer m, '\n' :: rest) := by rw [integer, Option.map_some]
  obtain ⟨c, later, -, form⟩ := isSignificant_toDigits some
  rw [Nat.toList_repr, form]
  rw [form] at all read
  exact isReadAs_of_readFigure (.inr (all c List.mem_cons_self)) read

/-- Zeros stand for the double zero. -/
theorem nearestDoubleOf_zeros {digits : List Char} (few : digits.length ≤ decisiveDigits)
    (zeros : digitsValue digits = 0) (e : ℤ) :
    nearestDoubleOf digits e = ofMagnitude false ⟨0, -1074⟩ := by
  rw [nearestDoubleOf, if_pos few, zeros, nearestDouble, if_pos (.inl rfl)]
  rfl

/-- A literal in print is read as the double that its parts stand for. -/
theorem isReadAs_chars {n : Numeral} (literal : n.IsLiteral) {negative : Bool} {value : Value}
    (float : float? negative n.whole n.fraction (n.power.getD 0) = some value) :
    IsReadAs (signChars negative ++ n.chars) (some value) := by
  have read (rest : List Char) : readFigure (signChars negative ++ n.chars ++ '\n' :: rest) =
      some (value, '\n' :: rest) := by
    rw [List.append_assoc, readFigure_chars literal, float, Option.map_some]
  obtain ⟨c, later, form, figure⟩ : ∃ c later, signChars negative ++ n.chars = c :: later ∧
      (c = '-' ∨ c.isDigit = true) := by
    cases negative with
    | true => exact ⟨'-', n.chars, rfl, .inl rfl⟩
    | false =>
      have whole : ∃ c more, n.whole = c :: more := by
        rcases literal.whole with zero | ⟨c, more, -, form⟩
        · exact ⟨'0', [], zero⟩
        · exact ⟨c, more, form⟩
      obtain ⟨c, more, form⟩ := whole
      refine ⟨c, _, congrArg (· ++ _) form, .inr (literal.digit c ?_)⟩
      exact List.mem_append_left _ (form ▸ List.mem_cons_self)
  rw [form] at read ⊢
  exact isReadAs_of_readFigure figure read

/-- A finite double in print is read as itself. -/
theorem isReadAs_show {value : Float} (finite : value.isFinite = true) :
    IsReadAs (literal.show value).toList (some (.float value)) := by
  obtain ⟨negative, x, content⟩ := exists_content_of_isFinite finite
  obtain ⟨double, same⟩ := eq_ofMagnitude content
  have text : (literal.show value).toList = signChars negative ++
      (literal.scientific (if x.coefficient = 0 then ⟨0, 0⟩ else x.shortest .upward)).toList := by
    rw [Layout.show, content]
    cases negative <;> simp [literal, signChars]
  rw [text, same]
  rcases Nat.eq_zero_or_pos x.coefficient with none | positive
  · have zero : x = ⟨0, -1074⟩ := by
      have least := double.full.resolve_left (by omega)
      rw [← none, ← least]
    have nearest : nearestDoubleOf (['0'] ++ ['0']) (0 - (['0'].length : ℤ)) =
        ofMagnitude false x := by
      rw [zero, nearestDoubleOf_zeros (by simp [decisiveDigits]) (by decide)]
    have literal : Numeral.IsLiteral ⟨['0'], ['0'], .none⟩ :=
      ⟨by simp [Numeral.digits], .inl rfl, by simp, by simp [Numeral.digits, decisiveDigits]⟩
    have chars : (Decimal.literal.scientific ⟨0, 0⟩).toList =
        Numeral.chars ⟨['0'], ['0'], .none⟩ := by decide
    rw [if_pos none, chars]
    exact isReadAs_chars literal (float?_of_nearest double nearest negative)
  · obtain ⟨rounds, few⟩ := Magnitude.shortest_spec double positive .upward
    have some : 0 < (x.shortest .upward).digits := by
      by_contra zero
      have range := (rounds.range double positive).1
      rw [Scientific.value, Nat.eq_zero_of_not_pos zero, Nat.cast_zero, zero_mul] at range
      exact absurd range (not_le.mpr (by positivity))
    obtain ⟨n, literal, chars, value⟩ := exists_literal some few
    have nearest := nearestDoubleOf_eq literal.few double positive (value ▸ rounds)
    rw [if_neg positive.ne', chars]
    exact isReadAs_chars literal (float?_of_nearest double nearest negative)

end Portamento.Toml
