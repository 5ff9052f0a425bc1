import Mathlib.Data.List.DropRight
import Mathlib.Tactic.IntervalCases
import Portamento.Proofs.Score.Length
import Portamento.Proofs.Text.Bytes

/-!
# What is written behind a chord

A token with a length suffix is the body and the suffix, character by character, and nothing else is
accepted as one: an operator that stands last, or with digits behind it that are no single digit
from 1 to 9, makes a token malformed. All other tokens have no suffix. No digit is ever left out of
a factor, so a token is not read at another length than the one that is written.

The suffix may as well be looked for by bytes. Whatever characters a token is made of, the bytes at
which it is cut then are those at which characters begin.
-/

namespace Portamento

namespace LengthChange

/-- How a change is written. -/
def written : LengthChange → List Char
  | divide n => ['/', n.digitChar]
  | multiply n => ['*', n.digitChar]

/-- A factor that can be written: a single digit, and not zero. -/
def IsWritable (change : LengthChange) : Prop := 1 ≤ change.factor ∧ change.factor ≤ 9

theorem IsWritable.isDigit {change : LengthChange} (writable : change.IsWritable) :
    [change.factor.digitChar].all Char.isDigit = true := by
  have small : change.factor < 10 := Nat.lt_succ_of_le writable.2
  simp [Nat.isDigit_digitChar, small]

theorem digitChar_of_isDigit {digit : Char} (isDigit : digit.isDigit = true) :
    (digit.toNat - '0'.toNat).digitChar = digit := by
  have range := toNat_of_isDigit isDigit
  have zero : '0'.toNat = 48 := rfl
  have small : digit.toNat - '0'.toNat < 10 := by omega
  apply Char.ext
  apply UInt32.toNat_inj.mp
  have value := Nat.toNat_digitChar_of_lt_ten small
  show (digit.toNat - '0'.toNat).digitChar.toNat = digit.toNat
  omega

theorem writes_iff {suffix : List Char} {change : LengthChange} :
    Writes suffix change ↔ suffix = change.written ∧ change.IsWritable := by
  constructor
  · intro writes
    refine ⟨?_, writes.factor_pos⟩
    cases writes with
    | divide digit isDigit positive => rw [written, digitChar_of_isDigit isDigit]
    | multiply digit isDigit positive => rw [written, digitChar_of_isDigit isDigit]
  · rintro ⟨rfl, positive, small⟩
    have digit (n : Nat) (positive : 1 ≤ n) (small : n ≤ 9) :
        n.digitChar.isDigit = true ∧ n.digitChar ≠ '0' ∧ n.digitChar.toNat - '0'.toNat = n := by
      interval_cases n <;> decide
    cases change with
    | divide n =>
      obtain ⟨isDigit, other, value⟩ := digit n positive small
      have writes := Writes.divide n.digitChar isDigit other
      rwa [value] at writes
    | multiply n =>
      obtain ⟨isDigit, other, value⟩ := digit n positive small
      have writes := Writes.multiply n.digitChar isDigit other
      rwa [value] at writes

end LengthChange

open LengthChange

/-- A token with a suffix that is none. -/
inductive IsMalformed : List Char → Prop where
  | bare (front : List Char) (operator : Char) (is : isLengthOperator operator = true) :
      IsMalformed (front ++ [operator])
  | digits (front : List Char) (operator : Char) (is : isLengthOperator operator = true)
      (digits : List Char) (present : digits ≠ []) (are : digits.all Char.isDigit = true)
      (noFactor : ∀ n, 1 ≤ n → n ≤ 9 → digits ≠ [n.digitChar]) :
      IsMalformed (front ++ operator :: digits)

section Characters

variable {token front digits : List Char} {x : Char}

/-- The last run of digits and what stands in front of it, as a look from the end finds them. -/
theorem reverse_append_digits (areDigits : digits.all Char.isDigit = true)
    (ends : ∀ x ∈ front.getLast?, x.isDigit = false) :
    (front ++ digits).reverse.takeWhile Char.isDigit = digits.reverse ∧
      (front ++ digits).reverse.dropWhile Char.isDigit = front.reverse := by
  have digits' : ∀ x ∈ digits.reverse, x.isDigit = true := by simpa using areDigits
  rw [List.reverse_append, List.takeWhile_append_of_pos digits',
    List.dropWhile_append_of_pos digits']
  cases front using List.reverseRecOn with
  | nil => simp
  | append_singleton before x =>
    have other : x.isDigit = false := ends x (by simp)
    simp [other]

/-- Every token has such a run, perhaps an empty one. -/
theorem exists_append_digits (token : List Char) : ∃ front digits, token = front ++ digits ∧
    digits.all Char.isDigit = true ∧ ∀ x ∈ front.getLast?, x.isDigit = false := by
  refine ⟨token.rdropWhile Char.isDigit, token.rtakeWhile Char.isDigit, ?_, ?_, ?_⟩
  · rw [List.rdropWhile, List.rtakeWhile, ← List.reverse_append, List.takeWhile_append_dropWhile,
      List.reverse_reverse]
  · rw [List.rtakeWhile, List.all_reverse, List.all_takeWhile]
  · intro x last
    have present : token.rdropWhile Char.isDigit ≠ [] := by
      intro empty
      rw [empty] at last
      cases last
    have stops := List.rdropWhile_last_not Char.isDigit token present
    rw [Option.mem_def, List.getLast?_eq_some_getLast present, Option.some_inj] at last
    rw [last] at stops
    exact Bool.eq_false_iff.mpr stops

/-- There is only one such run. -/
theorem append_digits_unique {front' digits' : List Char}
    (areDigits : digits.all Char.isDigit = true) (ends : ∀ x ∈ front.getLast?, x.isDigit = false)
    (areDigits' : digits'.all Char.isDigit = true)
    (ends' : ∀ x ∈ front'.getLast?, x.isDigit = false)
    (same : front ++ digits = front' ++ digits') : front = front' ∧ digits = digits' := by
  obtain ⟨run, rest⟩ := reverse_append_digits areDigits ends
  obtain ⟨run', rest'⟩ := reverse_append_digits areDigits' ends'
  rw [same, run'] at run
  rw [same, rest'] at rest
  exact ⟨(List.reverse_inj.mp rest).symm, (List.reverse_inj.mp run).symm⟩

/-- Only one operator has nothing but digits behind it. -/
theorem operator_unique {front' digits' : List Char} {y : Char}
    (operator : isLengthOperator x = true) (areDigits : digits.all Char.isDigit = true)
    (operator' : isLengthOperator y = true) (areDigits' : digits'.all Char.isDigit = true)
    (same : front ++ x :: digits = front' ++ y :: digits') :
    front = front' ∧ x = y ∧ digits = digits' := by
  have last (front : List Char) {x : Char} (operator : isLengthOperator x = true) :
      ∀ y ∈ (front ++ [x]).getLast?, y.isDigit = false := by
    simpa using not_isDigit_of_isLengthOperator operator
  rw [List.append_cons, List.append_cons front'] at same
  obtain ⟨fronts, rfl⟩ := append_digits_unique areDigits (last front operator) areDigits'
    (last front' operator') same
  obtain ⟨rfl, operators⟩ := List.append_inj' fronts rfl
  exact ⟨rfl, List.singleton_inj.mp operators, rfl⟩

/-- A suffix is all that is written behind its operator. -/
theorem eq_written {body : List Char} {change : LengthChange} (writable : change.IsWritable)
    (operator : isLengthOperator x = true) (areDigits : digits.all Char.isDigit = true)
    (same : front ++ x :: digits = body ++ change.written) :
    front = body ∧ x :: digits = change.written := by
  cases change with
  | divide n =>
    obtain ⟨fronts, rfl, rfl⟩ := operator_unique operator areDigits rfl writable.isDigit same
    exact ⟨fronts, rfl⟩
  | multiply n =>
    obtain ⟨fronts, rfl, rfl⟩ := operator_unique operator areDigits rfl writable.isDigit same
    exact ⟨fronts, rfl⟩

theorem endsInOperator_written (body : List Char) {change : LengthChange}
    (writable : change.IsWritable) : EndsInOperator (body ++ change.written) := by
  cases change with
  | divide n => exact ⟨body, '/', _, rfl, rfl, writable.isDigit⟩
  | multiply n => exact ⟨body, '*', _, rfl, rfl, writable.isDigit⟩

/-- A malformed token ends in an operator, perhaps with digits behind it, and has no suffix. -/
theorem isMalformed_iff : IsMalformed token ↔ EndsInOperator token ∧
    ∀ body change, IsWritable change → token ≠ body ++ change.written := by
  constructor
  · intro malformed
    cases malformed with
    | bare front operator is =>
      refine ⟨⟨front, operator, [], rfl, is, rfl⟩, fun body change writable same => ?_⟩
      obtain ⟨-, written⟩ := eq_written writable is rfl same
      cases change <;> cases written
    | digits front operator is digits present are noFactor =>
      refine ⟨⟨front, operator, digits, rfl, is, are⟩, fun body change writable same => ?_⟩
      obtain ⟨-, written⟩ := eq_written writable is are same
      refine noFactor change.factor writable.1 writable.2 ?_
      cases change <;> exact (List.cons.inj written).2
  · rintro ⟨⟨front, operator, digits, rfl, is, are⟩, noSuffix⟩
    by_cases empty : digits = []
    · rw [empty]
      exact .bare front operator is
    · refine .digits front operator is digits empty are fun n positive small factor => ?_
      simp only [isLengthOperator, Bool.or_eq_true, beq_iff_eq] at is
      rcases is with rfl | rfl
      · exact noSuffix front (.divide n) ⟨positive, small⟩ (by rw [factor]; rfl)
      · exact noSuffix front (.multiply n) ⟨positive, small⟩ (by rw [factor]; rfl)

end Characters

section Split

variable {token body : List Char}

theorem splitLength_eq_some {change : LengthChange} : splitLength token = .ok (body, some change) ↔
    token = body ++ change.written ∧ change.IsWritable := by
  rw [splitLength_eq_ok]
  constructor
  · intro suffixed
    cases suffixed with
    | changed suffix _ writes =>
      obtain ⟨rfl, writable⟩ := writes_iff.mp writes
      exact ⟨rfl, writable⟩
  · rintro ⟨rfl, writable⟩
    exact .changed _ change (writes_iff.mpr ⟨rfl, writable⟩)

theorem splitLength_eq_none : splitLength token = .ok (body, none) ↔
    body = token ∧ ¬ EndsInOperator token := by
  rw [splitLength_eq_ok]
  constructor
  · intro suffixed
    cases suffixed with
    | whole whole => exact ⟨rfl, whole⟩
  · rintro ⟨rfl, whole⟩
    exact .whole whole

/-- The only fault is that of the whole token. -/
theorem eq_malformedLength {fault : ChordFault} (refused : splitLength token = .error fault) :
    fault = .malformedLength token := by
  unfold splitLength at refused
  dsimp only at refused
  split at refused
  · cases refused
  · split at refused <;> cases refused
    rfl
  · cases refused
  · split at refused
    · split at refused <;> cases refused
      rfl
    · cases refused

theorem splitLength_eq_error {fault : ChordFault} : splitLength token = .error fault ↔
    fault = .malformedLength token ∧ IsMalformed token := by
  rw [isMalformed_iff]
  constructor
  · intro refused
    refine ⟨eq_malformedLength refused, ?_, fun body change writable same => ?_⟩
    · by_contra whole
      rw [splitLength_eq_none.mpr ⟨rfl, whole⟩] at refused
      cases refused
    · rw [splitLength_eq_some.mpr ⟨same, writable⟩] at refused
      cases refused
  · rintro ⟨rfl, ends, noSuffix⟩
    cases split : splitLength token with
    | error fault => rw [eq_malformedLength split]
    | ok parts =>
      obtain ⟨body, _ | change⟩ := parts
      · exact absurd ends (splitLength_eq_none.mp split).2
      · obtain ⟨same, writable⟩ := splitLength_eq_some.mp split
        exact absurd same (noSuffix body change writable)

end Split

section Bytes

/-- The byte at which the digits begin that a token ends in, found from its last character on. -/
def digitsBegin? (token : List Char) : Option Nat :=
  ((Text.charIndices 0 token).reverse.takeWhile fun mark => mark.2.isDigit).getLast?.map Prod.fst

/-- The change that an operator and the digits behind it stand for, if they are a single one. -/
def changeOf? (operator : Char) : List Char → Option LengthChange
  | [digit] => LengthChange.ofChars? operator digit
  | _ => none

/-- A token taken apart at bytes. Nothing, if that would take a character apart. -/
def splitAtBytes? (token : List Char) :
    Option (Except ChordFault (List Char × Option LengthChange)) :=
  if token.getLast?.any isLengthOperator then some (.error (.malformedLength token))
  else match digitsBegin? token with
  | none => some (.ok (token, none))
  | some begin => do
    let (body, digits) ← Text.cutAt? begin token
    match body.getLast?.filter isLengthOperator with
    | none => some (.ok (token, none))
    | some operator =>
      match changeOf? operator digits with
      | none => some (.error (.malformedLength token))
      | some change => do
        let (rest, _) ← Text.cutAt? (Text.byteLength body - 1) body
        some (.ok (rest, some change))

variable {front digits : List Char}

/-- The look at the bytes finds the last run of digits. -/
theorem digitsBegin?_append (areDigits : digits.all Char.isDigit = true)
    (ends : ∀ x ∈ front.getLast?, x.isDigit = false) :
    digitsBegin? (front ++ digits) =
      if digits = [] then none else some (Text.byteLength front) := by
  have digits' : ∀ mark ∈ (Text.charIndices (0 + Text.byteLength front) digits).reverse,
      mark.2.isDigit = true := by
    intro mark member
    have inside := List.mem_map_of_mem (f := Prod.snd) (List.mem_reverse.mp member)
    rw [Text.map_snd_charIndices] at inside
    exact List.all_eq_true.mp areDigits mark.2 inside
  have stops : (Text.charIndices 0 front).reverse.takeWhile (fun mark => mark.2.isDigit) = [] := by
    cases front using List.reverseRecOn with
    | nil => rfl
    | append_singleton before x =>
      have other : x.isDigit = false := ends x (by simp)
      simp [Text.charIndices_append, Text.charIndices, other]
  unfold digitsBegin?
  rw [Text.charIndices_append, List.reverse_append, List.takeWhile_append_of_pos digits', stops,
    List.append_nil, List.getLast?_reverse]
  cases digits with
  | nil => rfl
  | cons digit more => simp [Text.charIndices]

theorem changeOf?_concat (operator : Char) (more : List Char) (digit : Char) :
    changeOf? operator (more ++ [digit]) =
      if more = [] then LengthChange.ofChars? operator digit else none := by
  rcases more with _ | ⟨first, _ | ⟨second, later⟩⟩ <;> rfl

/-- An operator is one byte long. -/
theorem cutAt?_operator {operator : Char} (is : isLengthOperator operator = true)
    (body : List Char) : Text.cutAt? (Text.byteLength (body ++ [operator]) - 1)
      (body ++ [operator]) = some (body, [operator]) := by
  have size : operator.utf8Size = 1 := by
    simp only [isLengthOperator, Bool.or_eq_true, beq_iff_eq] at is
    rcases is with rfl | rfl <;> rfl
  exact Text.cutAt?_eq_some.mpr ⟨rfl, by simp [size]⟩

/-- The cuts at bytes come to the same as the look at the characters. -/
theorem splitAtBytes?_eq (token : List Char) : splitAtBytes? token = some (splitLength token) := by
  obtain ⟨front, digits, rfl, areDigits, ends⟩ := exists_append_digits token
  obtain ⟨run, rest⟩ := reverse_append_digits areDigits ends
  unfold splitAtBytes? splitLength
  dsimp only
  rw [digitsBegin?_append areDigits ends, run, rest]
  rcases List.eq_nil_or_concat' digits with rfl | ⟨more, digit, rfl⟩
  · -- without digits at the end the last character decides
    rcases List.eq_nil_or_concat' front with rfl | ⟨before, x, rfl⟩
    · rfl
    · cases operator : isLengthOperator x <;> simp [operator]
  · have isDigit : digit.isDigit = true := List.all_eq_true.mp areDigits digit (by simp)
    have plain : isLengthOperator digit = false := by
      rw [Bool.eq_false_iff]
      intro operator
      rw [not_isDigit_of_isLengthOperator operator] at isDigit
      cases isDigit
    have last : (front ++ (more ++ [digit])).getLast? = some digit := by simp
    have present : more ++ [digit] ≠ [] := by simp
    have cuts : Text.cutAt? (Text.byteLength front) (front ++ (more ++ [digit])) =
        some (front, more ++ [digit]) := Text.cutAt?_eq_some.mpr ⟨rfl, rfl⟩
    simp only [last, Option.any_some, plain, Bool.false_eq_true, if_false, if_neg present, cuts,
      Option.bind_eq_bind, Option.bind_some, changeOf?_concat, List.reverse_concat]
    rcases List.eq_nil_or_concat' front with rfl | ⟨before, x, rfl⟩
    · rfl
    · rw [List.getLast?_concat, List.reverse_concat, Option.filter_some]
      cases operator : isLengthOperator x with
      | false => simp [operator]
      | true =>
        rw [cutAt?_operator operator before]
        rcases List.eq_nil_or_concat' more with rfl | ⟨more, digit', rfl⟩
        · cases change : LengthChange.ofChars? x digit <;> simp [operator, change]
        · simp [operator]

/-- The digits that a token ends in begin where a character begins. -/
theorem isValid_digitsBegin? {token : List Char} {begin : Nat}
    (begins : digitsBegin? token = some begin) :
    (⟨begin⟩ : String.Pos.Raw).IsValid (String.ofList token) := by
  obtain ⟨front, digits, rfl, areDigits, ends⟩ := exists_append_digits token
  rw [digitsBegin?_append areDigits ends] at begins
  split at begins
  · cases begins
  · cases begins
    exact Text.isSome_cutAt?_iff.mp (Option.isSome_of_eq_some (Text.cutAt?_eq_some.mpr ⟨rfl, rfl⟩))

end Bytes

/-- A token is taken apart into a body and a suffix exactly if it is the one with the other behind
it, and refused exactly if what it ends in is malformed; else it is left whole. Of a token that is
accepted and ends in an operator and digits, these are all of the suffix. Taken apart at bytes it is
cut between characters, with the same answer. -/
theorem suffixes_split_exactly (token : List Char) :
    (∀ body change, splitLength token = .ok (body, some change) ↔
      token = body ++ change.written ∧ change.IsWritable) ∧
    (∀ fault, splitLength token = .error fault ↔
      fault = .malformedLength token ∧ IsMalformed token) ∧
    (∀ body, splitLength token = .ok (body, none) ↔ body = token ∧ ¬ IsMalformed token ∧
      ∀ body change, IsWritable change → token ≠ body ++ change.written) ∧
    (∀ front operator digits, token = front ++ operator :: digits →
      isLengthOperator operator = true → digits.all Char.isDigit = true →
      ∀ body change, splitLength token = .ok (body, change) →
        body = front ∧ ∃ length, change = some length ∧ operator :: digits = length.written) ∧
    splitAtBytes? token = some (splitLength token) ∧
    ∀ begin, digitsBegin? token = some begin →
      (⟨begin⟩ : String.Pos.Raw).IsValid (String.ofList token) := by
  refine ⟨fun _ _ => splitLength_eq_some, fun _ => splitLength_eq_error, fun body => ?_, ?_,
    splitAtBytes?_eq token, fun _ => isValid_digitsBegin?⟩
  · rw [splitLength_eq_none, isMalformed_iff]
    refine and_congr_right fun _ => ⟨fun whole => ?_, ?_⟩
    · refine ⟨fun malformed => whole malformed.1, fun body change writable same => whole ?_⟩
      exact same ▸ endsInOperator_written body writable
    · exact fun ⟨wellFormed, noSuffix⟩ ends => wellFormed ⟨ends, noSuffix⟩
  · rintro front operator digits rfl is are body (_ | change) split
    · exact absurd ⟨front, operator, digits, rfl, is, are⟩ (splitLength_eq_none.mp split).2
    · obtain ⟨same, writable⟩ := splitLength_eq_some.mp split
      obtain ⟨rfl, written⟩ := eq_written writable is are same
      exact ⟨rfl, change, rfl, written⟩

/-- A token of characters of one and of more bytes, with a suffix behind what looks like one. -/
theorem suffixes_split_exactly_twoSuffixes :
    ['é', '♯', '/', '2', '*', '3'] = ['é', '♯', '/', '2'] ++ '*' :: ['3'] ∧
    isLengthOperator '*' = true ∧ ['3'].all Char.isDigit = true ∧
    splitLength ['é', '♯', '/', '2', '*', '3'] = .ok (['é', '♯', '/', '2'], some (.multiply 3)) ∧
    (∃ length, some (LengthChange.multiply 3) = some length ∧ '*' :: ['3'] = length.written) ∧
    digitsBegin? ['é', '♯', '/', '2', '*', '3'] = some 8 ∧
    (⟨8⟩ : String.Pos.Raw).IsValid (String.ofList ['é', '♯', '/', '2', '*', '3']) := by
  obtain ⟨changed, -, -, complete, -, valid⟩ :=
    suffixes_split_exactly ['é', '♯', '/', '2', '*', '3']
  have split : splitLength ['é', '♯', '/', '2', '*', '3'] =
      .ok (['é', '♯', '/', '2'], some (.multiply 3)) :=
    (changed _ _).mpr ⟨rfl, by decide, by decide⟩
  have suffix := (complete ['é', '♯', '/', '2'] '*' ['3'] rfl rfl rfl _ _ split).2
  exact ⟨rfl, rfl, rfl, split, suffix, by decide, valid 8 (by decide)⟩

end Portamento
