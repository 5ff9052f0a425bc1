import Portamento.Proofs.Score.Reading
import Portamento.Proofs.Score.Stages
import Portamento.Proofs.Score.Suffix
import Portamento.Scalar.Double

/-!
# Upper and lower case

The case of a letter says nothing in a score. Each pass over a text does the same to the text in
lower case as to the text itself, up to the case of what it answers with. So two texts that differ
in case only are taken apart at the same places and into notes that are the same, and a score read
from one of them sounds like that of the other; if neither can be read, the same is wrong with both.
-/

namespace Portamento

section Characters

theorem isUpper_iff {x : Char} : x.isUpper = true ↔ 65 ≤ x.toNat ∧ x.toNat ≤ 90 :=
  decide_eq_true_iff

/-- The characters that have a lower case. -/
def capitals : List Char := (List.range 26).map fun n => Char.ofNat ('A'.toNat + n)

theorem mem_capitals {x : Char} (upper : x.isUpper = true) : x ∈ capitals := by
  obtain ⟨low, high⟩ := isUpper_iff.mp upper
  refine List.mem_map.mpr ⟨x.toNat - 65, List.mem_range.mpr (by omega), ?_⟩
  show Char.ofNat (65 + (x.toNat - 65)) = x
  rw [Nat.add_sub_cancel' low, Char.ofNat_toNat]

/-- What is the same for a capital and its small letter does not depend on the case of a
character. -/
theorem toLower_congr {β : Type} (f : Char → β)
    (same : capitals.map (fun x => f x.toLower) = capitals.map f) (x : Char) :
    f x.toLower = f x := by
  by_cases upper : x.isUpper = true
  · exact List.map_inj_left.mp same x (mem_capitals upper)
  · rw [show x.toLower = x from dif_neg (upper ∘ isUpper_iff.mpr)]

theorem isDigit_toLower (x : Char) : x.toLower.isDigit = x.isDigit :=
  toLower_congr Char.isDigit rfl x

theorem isBlank_toLower (x : Char) : Text.isBlank x.toLower = Text.isBlank x :=
  toLower_congr Text.isBlank rfl x

theorem utf8Size_toLower (x : Char) : x.toLower.utf8Size = x.utf8Size :=
  toLower_congr Char.utf8Size rfl x

theorem isLengthOperator_toLower (x : Char) : isLengthOperator x.toLower = isLengthOperator x :=
  toLower_congr isLengthOperator rfl x

theorem Accidental.ofChar?_toLower (x : Char) :
    Accidental.ofChar? x.toLower = Accidental.ofChar? x :=
  toLower_congr Accidental.ofChar? rfl x

theorem Letter.ofChar?_toLower (x : Char) : Letter.ofChar? x.toLower = Letter.ofChar? x :=
  toLower_congr Letter.ofChar? rfl x

/-- The marks of the notation, between its notes and lengths. -/
def marks : List Char := ['(', ')', ',', '-', '>', '/', '*']

/-- A character is a mark in lower case only if it is that mark. -/
theorem toLower_eq_iff {mark : Char} (is : mark ∈ marks) (x : Char) :
    x.toLower = mark ↔ x = mark := by
  have apart : marks.map (fun mark => capitals.map fun x => decide (x.toLower = mark)) =
      marks.map fun mark => capitals.map fun x => decide (x = mark) := rfl
  have same := List.map_inj_left.mp apart mark is
  exact decide_eq_decide.mp (toLower_congr (fun x => decide (x = mark)) same x)

end Characters

namespace Text

/-- Whether two texts differ in the case of the letters A to Z only. -/
def Alike (text text' : List Char) : Prop := lower text = lower text'

theorem lower_cons (x : Char) (rest : List Char) : lower (x :: rest) = x.toLower :: lower rest :=
  rfl

/-- A text begins with a mark in lower case only if it does. -/
theorem head?_lower_eq_iff {mark : Char} (is : mark ∈ marks) (text : List Char) :
    (lower text).head? = some mark ↔ text.head? = some mark := by
  cases text with
  | nil => rfl
  | cons x rest => simpa [lower] using toLower_eq_iff is x

theorem all_isDigit_lower (text : List Char) :
    (lower text).all Char.isDigit = text.all Char.isDigit := by
  simp [lower, Function.comp_def, isDigit_toLower]

theorem lower_eq_self {text : List Char} (areDigits : text.all Char.isDigit = true) :
    lower text = text := by
  have small (x : Char) (isDigit : x.isDigit = true) : x.toLower = x := by
    have range := toNat_of_isDigit isDigit
    refine dif_neg fun upper => ?_
    have above : 65 ≤ x.toNat := upper.1
    omega
  refine (List.map_congr_left fun x member => ?_).trans (List.map_id text)
  exact small x (List.all_eq_true.mp areDigits x member)

end Text

namespace Token

theorem significant_lower (position : Nat) (text : List Char) :
    significant position (Text.lower text) =
      (significant position text).map (Prod.map id Char.toLower) := by
  induction text generalizing position with
  | nil => rfl
  | cons x rest ih =>
    rw [Text.lower_cons, significant, significant, isBlank_toLower, utf8Size_toLower, ih]
    split <;> rfl

theorem unmatched?_lower (opened : List Nat) (text : List (Nat × Char)) :
    unmatched? opened (text.map (Prod.map id Char.toLower)) = unmatched? opened text := by
  induction text generalizing opened with
  | nil => rfl
  | cons mark rest ih =>
    obtain ⟨position, x⟩ := mark
    simp only [List.map_cons, Prod.map_apply, id_eq, unmatched?,
      toLower_eq_iff (show '(' ∈ marks by decide), toLower_eq_iff (show ')' ∈ marks by decide), ih]

theorem squeeze_lower (text : List Char) :
    squeeze (Text.lower text) = Text.lower (squeeze text) := by
  induction text with
  | nil => rfl
  | cons x rest ih =>
    have same (y : Char) : (y.toLower == delimiter) = (y == delimiter) := by
      rw [Bool.eq_iff_iff, beq_iff_eq, beq_iff_eq]
      exact toLower_eq_iff (by decide) y
    rw [Text.lower_cons, squeeze, squeeze, ih]
    simp only [toLower_eq_iff (show delimiter ∈ marks by decide)]
    split
    · rw [Text.lower_cons, Text.lower, List.dropWhile_map]
      simp only [Function.comp_def, same, Text.lower]
    · rfl

theorem pieces_lower (depth : Nat) (text : List Char) :
    pieces depth (Text.lower text) = (pieces depth text).map Text.lower := by
  induction text generalizing depth with
  | nil => rfl
  | cons x rest ih =>
    rw [Text.lower_cons, pieces, pieces]
    simp only [toLower_eq_iff (show delimiter ∈ marks by decide),
      toLower_eq_iff (show '(' ∈ marks by decide), toLower_eq_iff (show ')' ∈ marks by decide), ih]
    split
    · rfl
    · cases pieces _ rest <;> rfl

theorem ofText_lower {α : Type} (text : List Char) : ofText (α := α) (Text.lower text) =
    (ofText (α := α) text).map (List.map Text.lower) := by
  have chars : (significant 0 (Text.lower text)).map Prod.snd =
      Text.lower ((significant 0 text).map Prod.snd) := by
    rw [significant_lower, List.map_map, Text.lower, List.map_map]
    rfl
  have kept (l : List (List Char)) : (l.map Text.lower).filter (fun piece => !piece.isEmpty) =
      (l.filter fun piece => !piece.isEmpty).map Text.lower := by
    rw [List.filter_map]
    simp only [Function.comp_def, Text.lower, List.isEmpty_map]
  rw [ofText, ofText]
  simp only [chars, squeeze_lower, pieces_lower, kept]
  rw [significant_lower, unmatched?_lower]
  split <;> rfl

end Token

section Lengths

theorem LengthChange.ofChars?_toLower (x digit : Char) :
    ofChars? x.toLower digit = ofChars? x digit := by
  simp only [ofChars?, toLower_eq_iff (show '/' ∈ marks by decide),
    toLower_eq_iff (show '*' ∈ marks by decide)]

/-- A token is split at the same place, and refused as a whole. -/
theorem splitLength_lower (token : List Char) : splitLength (Text.lower token) =
    match splitLength token with
    | .ok (body, change) => .ok (Text.lower body, change)
    | .error _ => .error (.malformedLength (Text.lower token)) := by
  have digits : (Text.lower token).reverse.takeWhile Char.isDigit =
      token.reverse.takeWhile Char.isDigit := by
    have all : (token.reverse.takeWhile Char.isDigit).all Char.isDigit = true :=
      List.all_takeWhile
    rw [Text.lower, ← List.map_reverse, List.takeWhile_map]
    simp only [Function.comp_def, isDigit_toLower]
    exact Text.lower_eq_self all
  have before : (Text.lower token).reverse.dropWhile Char.isDigit =
      Text.lower (token.reverse.dropWhile Char.isDigit) := by
    rw [Text.lower, ← List.map_reverse, List.dropWhile_map]
    simp only [Function.comp_def, isDigit_toLower]
    rfl
  unfold splitLength
  simp only [digits, before]
  generalize token.reverse.takeWhile Char.isDigit = digits
  generalize token.reverse.dropWhile Char.isDigit = rest
  cases digits with
  | nil =>
    cases rest with
    | nil => rfl
    | cons x body =>
      simp only [Text.lower_cons, isLengthOperator_toLower]
      split <;> rfl
  | cons digit more =>
    cases rest with
    | nil => rfl
    | cons x body =>
      simp only [Text.lower_cons, isLengthOperator_toLower, LengthChange.ofChars?_toLower]
      split
      · split
        · simp [Text.lower]
        · rfl
      · rfl

end Lengths

namespace Note

theorem readOctave?_lower (text : List Char) :
    readOctave? (Text.lower text) = readOctave? text := by
  by_cases areDigits : text.all Char.isDigit = true
  · rw [Text.lower_eq_self areDigits]
  · have empty : (Text.lower text).isEmpty = text.isEmpty := List.isEmpty_map
    rw [readOctave?, readOctave?, empty, Text.all_isDigit_lower, Bool.eq_false_iff.mpr areDigits]
    rfl

theorem accidental_take_lower (text : List Char) : Accidental.take (Text.lower text) =
    ((Accidental.take text).1, Text.lower (Accidental.take text).2) := by
  cases text with
  | nil => rfl
  | cons x rest =>
    rw [Text.lower_cons, Accidental.take, Accidental.take, Accidental.ofChar?_toLower]
    split <;> rfl

/-- A letter b behind another is a flat in either case, and so is a letter B. -/
theorem read?_lower (text : List Char) : read? (Text.lower text) = read? text := by
  cases text with
  | nil => rfl
  | cons x rest =>
    by_cases rests : x :: rest = ['-']
    · rw [rests]
      rfl
    · have rests' : Text.lower (x :: rest) ≠ ['-'] := by
        intro same
        rw [Text.lower_cons, List.cons.injEq, toLower_eq_iff (by decide)] at same
        obtain ⟨rfl, empty⟩ := same
        rw [List.map_eq_nil_iff.mp empty] at rests
        exact rests rfl
      rw [Text.lower_cons] at rests' ⊢
      rw [read?, read?, Letter.ofChar?_toLower, accidental_take_lower]
      · simp only [readOctave?_lower]
      · rintro rfl empty
        exact rests (by rw [empty])
      · intro hyphen empty
        exact rests' (by rw [hyphen, empty])

end Note

namespace Stage

theorem hasArrow_lower (text : List Char) : hasArrow (Text.lower text) = hasArrow text := by
  induction text with
  | nil => rfl
  | cons x rest ih =>
    rw [Bool.eq_iff_iff, ← not_iff_not, Bool.not_eq_true, Bool.not_eq_true, Text.lower_cons,
      hasArrow_cons_eq_false, hasArrow_cons_eq_false, ih, toLower_eq_iff (by decide),
      ne_eq, Text.head?_lower_eq_iff (by decide)]

theorem isBalanced_lower (depth : Nat) (text : List Char) :
    isBalanced depth (Text.lower text) = isBalanced depth text := by
  induction text generalizing depth with
  | nil => rfl
  | cons x rest ih =>
    rw [Text.lower_cons]
    unfold isBalanced
    simp only [toLower_eq_iff (show '(' ∈ marks by decide),
      toLower_eq_iff (show ')' ∈ marks by decide), ih]

theorem unwrap?_lower (text : List Char) :
    unwrap? (Text.lower text) = (unwrap? text).map Text.lower := by
  cases text with
  | nil => rfl
  | cons x rest =>
    by_cases opens : x = '('
    · have closes : (Text.lower rest).getLast? = some ')' ↔ rest.getLast? = some ')' := by
        rw [Text.lower, List.getLast?_map]
        cases rest.getLast? with
        | none => rfl
        | some last => simpa using toLower_eq_iff (by decide) last
      rw [opens]
      show (if (Text.lower rest).getLast? = some ')' then some (Text.lower rest).dropLast
        else none) = (if rest.getLast? = some ')' then some rest.dropLast else none).map Text.lower
      simp only [closes]
      split
      · rw [Text.lower, ← List.map_dropLast]
        rfl
      · rfl
    · have others : x.toLower ≠ '(' := mt (toLower_eq_iff (by decide) x).mp opens
      rw [Text.lower_cons, unwrap?, unwrap?]
      · rfl
      · exact fun _ same => opens (List.cons.inj same).1
      · exact fun _ same => others (List.cons.inj same).1

theorem ungroup_lower (body : List Char) :
    ungroup (Text.lower body) = Text.lower (ungroup body) := by
  fun_induction ungroup body with
  | case1 body inner unwraps groups ih =>
    rw [Bool.and_eq_true, ← hasArrow_lower, ← isBalanced_lower, Balanced.isBalanced_iff] at groups
    rw [← ih, ← ungroup_wrap groups.1 groups.2, unwrap?_eq_some.mp unwraps]
    simp [Text.lower]
  | case2 body inner unwraps noGroup =>
    refine ungroup_of_not_group fun inner' same arrow balanced => noGroup ?_
    have unwraps' := unwrap?_lower body
    rw [unwraps, unwrap?_eq_some.mpr same, Option.map_some, Option.some_inj] at unwraps'
    rw [unwraps', hasArrow_lower] at arrow
    rw [unwraps', isBalanced_lower] at balanced
    rw [arrow, balanced]
    rfl
  | case3 body none =>
    refine ungroup_of_not_group fun inner' same => ?_
    have unwraps' := unwrap?_lower body
    rw [none, unwrap?_eq_some.mpr same] at unwraps'
    cases unwraps'

theorem splitArrows_lower (text : List Char) :
    splitArrows (Text.lower text) = (splitArrows text).map Text.lower := by
  fun_induction splitArrows text with
  | case1 => rfl
  | case2 rest ih => exact congrArg (List.cons []) ih
  | case3 x rest _ empty => exact absurd empty (splitArrows_ne_nil rest)
  | case4 x rest other piece later pieces ih =>
    rw [Text.lower_cons, splitArrows_cons, ih, pieces]
    · rfl
    · rw [toLower_eq_iff (by decide), ne_eq, Text.head?_lower_eq_iff (by decide)]
      rintro rfl head
      obtain ⟨behind, rfl⟩ := List.head?_eq_some_iff.mp head
      exact other behind rfl rfl

theorem splitDelimiters_lower (text : List Char) :
    splitDelimiters (Text.lower text) = (splitDelimiters text).map Text.lower := by
  induction text with
  | nil => rfl
  | cons x rest ih =>
    rw [Text.lower_cons, splitDelimiters, splitDelimiters, ih]
    simp only [toLower_eq_iff (show Token.delimiter ∈ marks by decide)]
    split
    · rfl
    · cases splitDelimiters rest <;> rfl

end Stage

section Answers

/-- Two answers are of one kind: both are results, or both faults, that correspond. -/
inductive Answers {ε β : Type} (Fault : ε → ε → Prop) (Result : β → β → Prop) :
    Except ε β → Except ε β → Prop where
  | ok {result result' : β} (alike : Result result result') :
      Answers Fault Result (.ok result) (.ok result')
  | error {fault fault' : ε} (alike : Fault fault fault') :
      Answers Fault Result (.error fault) (.error fault')

namespace Answers

variable {ε β γ : Type} {Fault : ε → ε → Prop} {R : β → β → Prop} {S : γ → γ → Prop}

theorem bind {answer answer' : Except ε β} {next next' : β → Except ε γ}
    (first : Answers Fault R answer answer')
    (rest : ∀ result result', R result result' → Answers Fault S (next result) (next' result')) :
    Answers Fault S (answer >>= next) (answer' >>= next') := by
  cases first with
  | ok alike => exact rest _ _ alike
  | error alike => exact .error alike

theorem mapM {δ : Type} {T : δ → δ → Prop} {read : δ → Except ε β} {items items' : List δ}
    (alike : List.Forall₂ T items items')
    (reads : ∀ item item', T item item' → Answers Fault R (read item) (read item')) :
    Answers Fault (List.Forall₂ R) (items.mapM read) (items'.mapM read) := by
  induction alike with
  | nil => exact .ok .nil
  | cons first _ ih =>
    rw [List.mapM_cons, List.mapM_cons]
    refine (reads _ _ first).bind fun result result' same => ih.bind fun results results' rest => ?_
    exact .ok (.cons same rest)

theorem of_eq {answer answer' : Except ε β} (same : answer = answer')
    (fault : ∀ fault, Fault fault fault) (result : ∀ result, R result result) :
    Answers Fault R answer answer' := by
  subst same
  cases answer with
  | ok found => exact .ok (result found)
  | error reason => exact .error (fault reason)

/-- Of two answers of one kind both are results if one is. -/
theorem exists_ok_iff {answer answer' : Except ε β} (alike : Answers Fault R answer answer') :
    (∃ result, answer = .ok result) ↔ ∃ result, answer' = .ok result := by
  cases alike <;> simp

end Answers

end Answers

section Alike

variable {α : Type}

theorem Text.forall₂_alike {texts texts' : List (List Char)}
    (same : texts.map Text.lower = texts'.map Text.lower) :
    List.Forall₂ Text.Alike texts texts' := by
  rw [← List.forall₂_eq_eq_eq, List.forall₂_map_left_iff, List.forall₂_map_right_iff] at same
  exact same

/-- Two faults of a chord are the same but for the case of a text they show. -/
inductive ChordFault.Alike : ChordFault → ChordFault → Prop where
  | unknownNote {text text' : List Char} (alike : Text.Alike text text') :
      Alike (.unknownNote text) (.unknownNote text')
  | malformedLength {token token' : List Char} (alike : Text.Alike token token') :
      Alike (.malformedLength token) (.malformedLength token')
  | unevenGlide (stage expected found : Nat) :
      Alike (.unevenGlide stage expected found) (.unevenGlide stage expected found)

/-- Two faults of a score are the same but for the case of a text they show. -/
inductive ScoreFault.Alike : ScoreFault α → ScoreFault α → Prop where
  | unbalancedGroup (position : Nat) : Alike (.unbalancedGroup position) (.unbalancedGroup position)
  | noChords : Alike .noChords .noChords
  | invalidTempo (tempo : α) : Alike (.invalidTempo tempo) (.invalidTempo tempo)
  | chord (index : Nat) {token token' : List Char} (tokens : Text.Alike token token')
      {fault fault' : ChordFault} (faults : fault.Alike fault') :
      Alike (.chord index token fault) (.chord index token' fault')

/-- Two chords are the same but for the case of what is written. -/
structure Chord.Alike (chord chord' : Chord α) : Prop where
  source : Text.Alike chord.source chord'.source
  seconds : chord.seconds = chord'.seconds
  stages : chord.stages = chord'.stages

theorem ChordFault.Alike.refl (fault : ChordFault) : fault.Alike fault := by
  cases fault with
  | unknownNote => exact .unknownNote rfl
  | malformedLength => exact .malformedLength rfl
  | unevenGlide stage expected found => exact .unevenGlide stage expected found

theorem ScoreFault.Alike.refl (fault : ScoreFault α) : fault.Alike fault := by
  cases fault with
  | unbalancedGroup position => exact .unbalancedGroup position
  | noChords => exact .noChords
  | invalidTempo tempo => exact .invalidTempo tempo
  | chord index token fault => exact .chord index rfl (.refl fault)

end Alike

section Readings

variable {α : Type} [Scalar α] {text text' : List Char}

theorem Note.read_alike (alike : Text.Alike text text') :
    Answers ChordFault.Alike Eq (Note.read text) (Note.read text') := by
  rw [Note.read, Note.read, ← Note.read?_lower text, alike, Note.read?_lower]
  cases Note.read? text' with
  | some note => exact .ok rfl
  | none => exact .error (.unknownNote alike)

theorem Stage.readNotes_alike (alike : Text.Alike text text') : Answers ChordFault.Alike Eq
    ((Stage.splitDelimiters text).mapM Note.read)
    ((Stage.splitDelimiters text').mapM Note.read) := by
  have pieces : List.Forall₂ Text.Alike (Stage.splitDelimiters text)
      (Stage.splitDelimiters text') := Text.forall₂_alike (by
    rw [← Stage.splitDelimiters_lower, alike, Stage.splitDelimiters_lower])
  rw [← List.forall₂_eq_eq_eq]
  exact .mapM pieces fun _ _ => Note.read_alike

theorem Stage.read_alike (alike : Text.Alike text text') :
    Answers ChordFault.Alike Eq (Stage.read text) (Stage.read text') := by
  have unlisted {text : List Char} (other : text.head? ≠ some '(') :
      Stage.read text = (Stage.splitDelimiters text).mapM Note.read := by
    unfold Stage.read
    split
    · exact absurd rfl other
    · rfl
  have heads : text.head? = some '(' ↔ text'.head? = some '(' := by
    rw [← Text.head?_lower_eq_iff (by decide), alike, Text.head?_lower_eq_iff (by decide)]
  by_cases opens : text.head? = some '('
  · have inners : (Stage.unwrap? text).map Text.lower = (Stage.unwrap? text').map Text.lower := by
      rw [← Stage.unwrap?_lower, alike, Stage.unwrap?_lower]
    obtain ⟨rest, rfl⟩ := List.head?_eq_some_iff.mp opens
    obtain ⟨rest', rfl⟩ := List.head?_eq_some_iff.mp (heads.mp opens)
    rw [Stage.read, Stage.read]
    cases inner : Stage.unwrap? ('(' :: rest) <;> cases inner' : Stage.unwrap? ('(' :: rest') <;>
      rw [inner, inner'] at inners
    · exact .error (.unknownNote alike)
    · cases inners
    · cases inners
    · exact Stage.readNotes_alike (Option.some.inj inners)
  · rw [unlisted opens, unlisted (mt heads.mpr opens)]
    exact Stage.readNotes_alike alike

theorem Stage.readAll_alike (alike : Text.Alike text text') :
    Answers ChordFault.Alike Eq (Stage.readAll text) (Stage.readAll text') := by
  have pieces : List.Forall₂ Text.Alike (Stage.splitArrows (Stage.ungroup text))
      (Stage.splitArrows (Stage.ungroup text')) := Text.forall₂_alike (by
    rw [← Stage.splitArrows_lower, ← Stage.ungroup_lower, alike, Stage.ungroup_lower,
      Stage.splitArrows_lower])
  rw [← List.forall₂_eq_eq_eq]
  exact .mapM pieces fun _ _ => Stage.read_alike

theorem splitLength_alike (alike : Text.Alike text text') :
    Answers ChordFault.Alike (fun parts parts' => Text.Alike parts.1 parts'.1 ∧ parts.2 = parts'.2)
      (splitLength text) (splitLength text') := by
  have same := (splitLength_lower text).symm.trans
    ((congrArg splitLength alike).trans (splitLength_lower text'))
  cases split : splitLength text <;> cases split' : splitLength text' <;>
    rw [split, split'] at same
  · rw [eq_malformedLength split, eq_malformedLength split']
    exact .error (.malformedLength alike)
  · cases same
  · cases same
  · obtain ⟨bodies, changes⟩ := Prod.mk.inj (Except.ok.inj same)
    exact .ok ⟨bodies, changes⟩

theorem Chord.read_alike (tempo : α) (alike : Text.Alike text text') :
    Answers ChordFault.Alike Chord.Alike (Chord.read text tempo) (Chord.read text' tempo) := by
  refine (splitLength_alike alike).bind ?_
  rintro ⟨body, change⟩ ⟨body', _⟩ ⟨bodies, rfl⟩
  refine (Stage.readAll_alike bodies).bind ?_
  rintro stages _ rfl
  have even := Answers.of_eq (R := Eq) (rfl : Stage.checkEven stages = _) ChordFault.Alike.refl
    fun _ => rfl
  refine even.bind fun _ _ _ => ?_
  split
  · exact .ok ⟨alike, rfl, rfl⟩
  · have sounding := Answers.of_eq (R := Eq)
      (rfl : stages.mapM (Stage.frequencies (α := α)) = _) ChordFault.Alike.refl fun _ => rfl
    exact sounding.bind fun _ _ same => .ok ⟨alike, rfl, same⟩

theorem Score.readChords_alike (tempo : α) (index : Nat) {tokens tokens' : List (List Char)}
    (alike : List.Forall₂ Text.Alike tokens tokens') :
    Answers ScoreFault.Alike (List.Forall₂ Chord.Alike) (Score.readChords tempo index tokens)
      (Score.readChords tempo index tokens') := by
  induction alike generalizing index with
  | nil => exact .ok .nil
  | @cons token token' later later' first _ ih =>
    rw [Score.readChords, Score.readChords]
    have rest := ih (index + 1)
    generalize Score.readChords tempo (index + 1) later = chords at rest ⊢
    generalize Score.readChords tempo (index + 1) later' = chords' at rest ⊢
    have chord := Chord.read_alike tempo first
    generalize Chord.read token tempo = answer at chord ⊢
    generalize Chord.read token' tempo = answer' at chord ⊢
    cases chord with
    | error fault => exact .error (.chord index first fault)
    | ok chord =>
      cases rest with
      | error fault => exact .error fault
      | ok chords => exact .ok (.cons chord chords)

omit [Scalar α] in
theorem Token.ofText_alike (alike : Text.Alike text text') :
    Answers ScoreFault.Alike (List.Forall₂ Text.Alike) (Token.ofText (α := α) text)
      (Token.ofText (α := α) text') := by
  have same : (Token.ofText (α := α) text).map (List.map Text.lower) =
      (Token.ofText (α := α) text').map (List.map Text.lower) := by
    rw [← Token.ofText_lower, alike, Token.ofText_lower]
  generalize Token.ofText (α := α) text = answer at same ⊢
  generalize Token.ofText (α := α) text' = answer' at same ⊢
  cases answer <;> cases answer'
  · rw [Except.error.inj same]
    exact .error (.refl _)
  · cases same
  · cases same
  · exact .ok (Text.forall₂_alike (Except.ok.inj same))

theorem Score.read_alike (tempo : α) (alike : Text.Alike text text') :
    Answers ScoreFault.Alike
      (fun score score' => score.tempo = score'.tempo ∧
        List.Forall₂ Chord.Alike score.chords score'.chords)
      (Score.read text tempo) (Score.read text' tempo) := by
  rw [Score.read, Score.read]
  split
  · exact .error (.invalidTempo tempo)
  · refine (Token.ofText_alike alike).bind fun tokens tokens' pieces => ?_
    have empty : tokens.isEmpty = tokens'.isEmpty := by cases pieces <;> rfl
    rw [empty]
    split
    · exact .error .noChords
    · exact (Score.readChords_alike tempo 0 pieces).bind fun _ _ chords => .ok ⟨rfl, chords⟩

/-- Of two texts that differ in the case of letters only, both are scores or neither is. The scores
have as many chords, of the same lengths and frequencies and with rests at the same places; the
faults are of one kind, at the same byte, chord and stage and with the same counts. -/
theorem Score.case_says_nothing (tempo : α) (text text' : List Char)
    (alike : Text.lower text = Text.lower text') :
    ((∃ score, Score.read text tempo = .ok score) ↔
      ∃ score, Score.read text' tempo = .ok score) ∧
    (∀ score score', Score.read text tempo = .ok score → Score.read text' tempo = .ok score' →
      score.tempo = score'.tempo ∧ score.chords.length = score'.chords.length ∧
      score.chords.map Chord.seconds = score'.chords.map Chord.seconds ∧
      score.chords.map Chord.isRest = score'.chords.map Chord.isRest ∧
      score.chords.map Chord.stages = score'.chords.map Chord.stages) ∧
    ∀ fault fault', Score.read text tempo = .error fault → Score.read text' tempo = .error fault' →
      fault.Alike fault' := by
  have answers := Score.read_alike tempo alike
  refine ⟨answers.exists_ok_iff, fun score score' reads reads' => ?_, fun fault fault' refused
    refused' => ?_⟩
  · rw [reads, reads'] at answers
    cases answers with
    | ok same =>
      obtain ⟨tempos, chords⟩ := same
      refine ⟨tempos, chords.length_eq, ?_, ?_, ?_⟩
      all_goals
        rw [← List.forall₂_eq_eq_eq, List.forall₂_map_left_iff, List.forall₂_map_right_iff]
      · exact chords.imp fun _ _ is => is.seconds
      · exact chords.imp fun _ _ is => congrArg List.isEmpty is.stages
      · exact chords.imp fun _ _ is => is.stages
  · rw [refused, refused'] at answers
    cases answers with
    | error same => exact same

end Readings

/-- A chord in which a letter b is a note and a flat, in both cases. -/
def flats : List Char := ['(', 'A', 'B', ',', 'b', 'B', '5', ')', '*', '2']

/-- The same chord, with the case of each letter turned round. -/
def turnedFlats : List Char := ['(', 'a', 'b', ',', 'B', 'b', '5', ')', '*', '2']

/-- In doubles, both say an A flat and the B flat above it. -/
theorem Score.case_says_nothing_flats : Text.lower flats = Text.lower turnedFlats ∧
    ∃ score score' : Score Float, Score.read flats (60 : Float) = .ok score ∧
      Score.read turnedFlats (60 : Float) = .ok score' ∧
      score'.chords.map Chord.stages = [[[415.30, 932.32]]] := by
  have alike : Text.lower flats = Text.lower turnedFlats := rfl
  obtain ⟨both, results, -⟩ := Score.case_says_nothing (60 : Float) _ _ alike
  have reads : Score.read flats (60 : Float) = .ok ⟨60, [⟨flats, 2, [[415.30, 932.32]]⟩]⟩ :=
    eq_ok_of_toOption (by decide +kernel)
  obtain ⟨score', reads'⟩ := both.mp ⟨_, reads⟩
  exact ⟨alike, _, score', reads, reads', (results _ _ reads reads').2.2.2.2.symm⟩

end Portamento
