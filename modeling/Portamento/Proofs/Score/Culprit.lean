import Portamento.Proofs.Score.Concatenation
import Portamento.Proofs.Score.Semitone
import Portamento.Proofs.Score.Suffix
import Portamento.Scalar.Double

/-!
# The first culprit

A text that cannot be read is reported with one fault, though there may be many in it. Here is which
one that is. A score names the first token that cannot be read. A token is looked at in several
passes, and a pass reports the first thing that is wrong in its order: the suffix; then the notes as
they are written, stage by stage; then the numbers of notes; then, unless there is a rest, the
frequencies. A later pass is not reached if an earlier one has found something.
-/

namespace Portamento

/-- The first of some items that has a property, with its index. -/
structure IsFirst {β : Type} (P : β → Prop) (items : List β) (k : Nat) (item : β) : Prop where
  at_k : items[k]? = some item
  holds : P item
  before : ∀ j < k, ∀ other, items[j]? = some other → ¬ P other

namespace IsFirst

variable {β : Type} {P Q : β → Prop} {items later : List β} {first item : β} {k : Nat}

theorem head (holds : P first) : IsFirst P (first :: later) 0 first :=
  ⟨rfl, holds, fun j before => absurd before (Nat.not_lt_zero j)⟩

theorem tail (fails : ¬ P first) (is : IsFirst P later k item) :
    IsFirst P (first :: later) (k + 1) item := by
  refine ⟨is.at_k, is.holds, fun j before other at_j => ?_⟩
  cases j with
  | zero =>
    cases at_j
    exact fails
  | succ j => exact is.before j (Nat.lt_of_succ_lt_succ before) other at_j

theorem not_nil : ¬ IsFirst P [] k item := fun is => by cases is.at_k

/-- The first item is the first of the list, or the first of what follows. -/
theorem cons_iff : IsFirst P (first :: later) k item ↔
    P first ∧ k = 0 ∧ item = first ∨ ¬ P first ∧ ∃ j, k = j + 1 ∧ IsFirst P later j item := by
  constructor
  · intro is
    cases k with
    | zero =>
      cases is.at_k
      exact .inl ⟨is.holds, rfl, rfl⟩
    | succ j =>
      refine .inr ⟨is.before 0 (Nat.succ_pos j) first rfl, j, rfl, is.at_k, is.holds, ?_⟩
      exact fun i before => is.before (i + 1) (Nat.succ_lt_succ before)
  · rintro (⟨holds, rfl, rfl⟩ | ⟨fails, j, rfl, is⟩)
    · exact .head holds
    · exact is.tail fails

theorem congr (same : ∀ item ∈ items, P item ↔ Q item) :
    IsFirst P items k item ↔ IsFirst Q items k item := by
  induction items generalizing k with
  | nil => exact iff_of_false not_nil not_nil
  | cons first later ih =>
    obtain ⟨here, behind⟩ := List.forall_mem_cons.mp same
    simp only [cons_iff, here, ih behind]

/-- There is a first item that has a property if there is any. -/
theorem exists_iff : (∃ k item, IsFirst P items k item) ↔ ∃ item ∈ items, P item := by
  constructor
  · rintro ⟨k, item, is⟩
    exact ⟨item, List.mem_of_getElem? is.at_k, is.holds⟩
  · induction items with
    | nil => simp
    | cons first later ih =>
      rintro ⟨item, member, holds⟩
      by_cases here : P first
      · exact ⟨0, first, .head here⟩
      · have behind : item ∈ later :=
          (List.mem_cons.mp member).resolve_left fun same => here (same ▸ holds)
        obtain ⟨k, item, is⟩ := ih ⟨item, behind, holds⟩
        exact ⟨k + 1, item, is.tail here⟩

end IsFirst

section Readings

variable {ε β γ : Type} {read : β → Except ε γ} {items : List β} {fault : ε}

/-- A reading of a whole list fails at the first element at which it does. -/
theorem mapM_eq_error {P : β → Prop}
    (fails : ∀ item ∈ items, (∃ fault, read item = .error fault) ↔ P item) :
    items.mapM read = .error fault ↔
      ∃ k item, IsFirst P items k item ∧ read item = .error fault := by
  simp only [← IsFirst.congr fails]
  clear fails
  induction items with
  | nil =>
    rw [List.mapM_nil]
    constructor
    · exact fun refused => nomatch refused
    · rintro ⟨k, item, is, -⟩
      exact absurd is IsFirst.not_nil
  | cons first later ih =>
    rw [List.mapM_cons]
    simp only [IsFirst.cons_iff]
    cases here : read first with
    | error reason =>
      simp only [bind, Except.bind, Except.error.injEq]
      constructor
      · rintro rfl
        exact ⟨0, first, .inl ⟨⟨_, rfl⟩, rfl, rfl⟩, here⟩
      · rintro ⟨k, item, ⟨-, rfl, rfl⟩ | ⟨fine, -⟩, refused⟩
        · rw [here] at refused
          exact Except.error.inj refused
        · exact absurd ⟨reason, rfl⟩ fine
    | ok result =>
      have rest : (later.mapM read >>= fun results => pure (result :: results)) = .error fault ↔
          later.mapM read = .error fault := by
        cases later.mapM read <;> simp [bind, Except.bind, pure, Except.pure]
      refine (Iff.trans ?_ rest).trans (ih.trans ?_)
      · rfl
      · constructor
        · rintro ⟨k, item, is, refused⟩
          exact ⟨k + 1, item, .inr ⟨by simp, k, rfl, is⟩, refused⟩
        · rintro ⟨k, item, ⟨⟨_, impossible⟩, -⟩ | ⟨-, j, rfl, is⟩, refused⟩
          · cases impossible
          · exact ⟨j, item, is, refused⟩

/-- To read lists of elements one by one fails where a reading of all the elements does. -/
theorem mapM_mapM_eq_error {lists : List (List β)} :
    lists.mapM (fun list => list.mapM read) = .error fault ↔
      lists.flatten.mapM read = .error fault := by
  induction lists with
  | nil => simp [pure, Except.pure]
  | cons first later ih =>
    rw [List.mapM_cons, List.flatten_cons, List.mapM_append]
    cases first.mapM read with
    | error reason => simp [bind, Except.bind]
    | ok results =>
      simp only [bind, Except.bind]
      cases all : later.mapM fun list => list.mapM read <;>
        cases flat : later.flatten.mapM read <;>
        simp_all [pure, Except.pure]

theorem exists_error_iff {answer : Except ε γ} :
    (∃ fault, answer = .error fault) ↔ ∀ result, answer ≠ .ok result := by
  cases answer <;> simp

end Readings

section Splitting

/-- A text with the pieces of it that stand between its separators. -/
structure TakenApart (separator text : List Char) (pieces : List (List Char)) : Prop where
  present : pieces ≠ []
  joined : separator.intercalate pieces = text
  clear : ∀ piece ∈ pieces, ¬ separator <:+: piece

variable {text : List Char} {pieces : List (List Char)}

namespace Stage

theorem infix_iff_hasArrow : ['-', '>'] <:+: text ↔ hasArrow text = true := by
  rw [hasArrow_iff]
  exact exists_congr fun front => exists_congr fun back => eq_comm

theorem not_mem_of_mem_splitDelimiters :
    ∀ piece ∈ splitDelimiters text, ',' ∉ piece := by
  fun_induction splitDelimiters text with
  | case1 => simp
  | case2 rest ih => exact List.forall_mem_cons.mpr ⟨List.not_mem_nil, ih⟩
  | case3 x rest other empty =>
    exact List.forall_mem_singleton.mpr fun member => other (List.mem_singleton.mp member).symm
  | case4 x rest other piece later pieces ih =>
    rw [pieces, List.forall_mem_cons] at ih
    refine List.forall_mem_cons.mpr ⟨fun member => ?_, ih.2⟩
    rcases List.mem_cons.mp member with same | behind
    · exact other same.symm
    · exact ih.1 behind

theorem hasArrow_of_mem_splitArrows : ∀ piece ∈ splitArrows text, hasArrow piece = false := by
  fun_induction splitArrows text with
  | case1 => exact List.forall_mem_singleton.mpr rfl
  | case2 rest ih => exact List.forall_mem_cons.mpr ⟨rfl, ih⟩
  | case3 x rest _ empty => exact absurd empty (splitArrows_ne_nil rest)
  | case4 x rest other piece later pieces ih =>
    have joined := intercalate_splitArrows rest
    rw [pieces] at joined
    rw [pieces, List.forall_mem_cons] at ih
    refine List.forall_mem_cons.mpr ⟨hasArrow_cons_eq_false.mpr ⟨ih.1, ?_⟩, ih.2⟩
    -- what follows a hyphen in the piece follows it in the text
    rintro rfl head
    obtain ⟨behind, rfl⟩ := List.head?_eq_some_iff.mp head
    cases later with
    | nil => exact other behind rfl (by simpa using joined.symm)
    | cons next later =>
      rw [List.intercalate_cons_cons] at joined
      exact other _ rfl joined.symm

theorem splitDelimiters_eq_iff : splitDelimiters text = pieces ↔ TakenApart [','] text pieces := by
  constructor
  · rintro rfl
    have split := splitDelimiters_eq_splitOn text
    refine ⟨split ▸ List.splitOn_ne_nil ',' text, split ▸ List.intercalate_splitOn _, ?_⟩
    intro piece member
    rw [List.singleton_infix_iff]
    exact not_mem_of_mem_splitDelimiters piece member
  · rintro ⟨present, rfl, clear⟩
    rw [splitDelimiters_eq_splitOn]
    refine List.splitOn_intercalate ',' (fun piece member comma => ?_) present
    exact clear piece member ((List.singleton_infix_iff _ _).mpr comma)

theorem splitArrows_eq_iff : splitArrows text = pieces ↔ TakenApart ['-', '>'] text pieces := by
  constructor
  · rintro rfl
    refine ⟨splitArrows_ne_nil text, intercalate_splitArrows text, fun piece member => ?_⟩
    rw [infix_iff_hasArrow, Bool.not_eq_true]
    exact hasArrow_of_mem_splitArrows piece member
  · rintro ⟨present, rfl, clear⟩
    refine splitArrows_intercalate present fun piece member => ?_
    rw [← Bool.not_eq_true, ← infix_iff_hasArrow]
    exact clear piece member

end Stage

end Splitting

section Stages

/-- The stages of a token as they are written: the pieces between the arrows of its body, without
the parentheses that group a whole glide. -/
inductive StagesWritten : List Char → List (List Char) → Prop where
  | plain (body : List Char) (pieces : List (List Char)) (apart : TakenApart ['-', '>'] body pieces)
      (bare : ∀ inner, body = '(' :: inner ++ [')'] → ['-', '>'] <:+: inner → ¬ Balanced inner) :
      StagesWritten body pieces
  | grouped (inner : List Char) (pieces : List (List Char)) (glides : ['-', '>'] <:+: inner)
      (balanced : Balanced inner) (within : StagesWritten inner pieces) :
      StagesWritten ('(' :: inner ++ [')']) pieces

def IsNoNote (text : List Char) : Prop := ∀ note, ¬ NoteText note text

def IsNoStage (text : List Char) : Prop := ∀ notes, ¬ StageText notes text

/-- What a stage that cannot be read is reported with: itself if it opens a parenthesis that it does
not end with, and otherwise the first of its notes that is none. -/
inductive StageCulprit : List Char → List Char → Prop where
  | unclosed (rest : List Char) (unclosed : ∀ inner, rest ≠ inner ++ [')']) :
      StageCulprit ('(' :: rest) ('(' :: rest)
  | listed (inner : List Char) (pieces : List (List Char)) (apart : TakenApart [','] inner pieces)
      (k : Nat) (note : List Char) (first : IsFirst IsNoNote pieces k note) :
      StageCulprit ('(' :: inner ++ [')']) note
  | bare (text : List Char) (bare : text.head? ≠ some '(') (pieces : List (List Char))
      (apart : TakenApart [','] text pieces) (k : Nat) (note : List Char)
      (first : IsFirst IsNoNote pieces k note) : StageCulprit text note

namespace Stage

theorem splitArrows_ungroup {body : List Char} {pieces : List (List Char)} :
    splitArrows (ungroup body) = pieces ↔ StagesWritten body pieces := by
  constructor
  · intro split
    fun_induction ungroup body with
    | case1 body inner unwraps groups ih =>
      rw [Bool.and_eq_true] at groups
      rw [unwrap?_eq_some.mp unwraps]
      exact .grouped inner pieces (infix_iff_hasArrow.mpr groups.1)
        ((Balanced.isBalanced_iff inner).mp groups.2) (ih split)
    | case2 body inner unwraps noGroup =>
      refine .plain body pieces (splitArrows_eq_iff.mp split) fun inner' same glides balanced => ?_
      rw [unwrap?_eq_some.mpr same, Option.some_inj] at unwraps
      subst unwraps
      rw [infix_iff_hasArrow.mp glides, (Balanced.isBalanced_iff inner').mpr balanced] at noGroup
      exact noGroup rfl
    | case3 body none =>
      refine .plain body pieces (splitArrows_eq_iff.mp split) fun inner same => ?_
      rw [unwrap?_eq_some.mpr same] at none
      cases none
  · intro written
    induction written with
    | plain body pieces apart bare =>
      rw [ungroup_of_not_group, splitArrows_eq_iff.mpr apart]
      intro inner same glides balanced
      exact bare inner same (infix_iff_hasArrow.mpr glides)
        ((Balanced.isBalanced_iff _).mp balanced)
    | grouped inner pieces glides balanced _ ih =>
      rw [ungroup_wrap (infix_iff_hasArrow.mp glides) balanced, ih]

theorem readNotes_eq_error {text : List Char} {fault : ChordFault} :
    (splitDelimiters text).mapM Note.read = .error fault ↔ ∃ pieces k note,
      TakenApart [','] text pieces ∧ IsFirst IsNoNote pieces k note ∧
      fault = .unknownNote note := by
  have fails (text : List Char) : (∃ fault, Note.read text = .error fault) ↔ IsNoNote text := by
    simp [Note.read_eq_error, IsNoNote]
  rw [mapM_eq_error fun text _ => fails text]
  simp only [Note.read_eq_error, ← splitDelimiters_eq_iff, exists_and_left, exists_eq_left']
  exact exists_congr fun k => exists_congr fun note => and_congr_right fun first =>
    and_iff_left first.holds

theorem read_eq_error {text : List Char} {fault : ChordFault} : read text = .error fault ↔
    ∃ culprit, StageCulprit text culprit ∧ fault = .unknownNote culprit := by
  constructor
  · intro fails
    unfold read at fails
    split at fails
    · next rest =>
      split at fails
      · next inner unwraps =>
        obtain ⟨pieces, k, note, apart, first, rfl⟩ := readNotes_eq_error.mp fails
        rw [unwrap?_eq_some.mp unwraps]
        exact ⟨note, .listed inner pieces apart k note first, rfl⟩
      · next none =>
        cases fails
        refine ⟨_, .unclosed rest fun inner same => ?_, rfl⟩
        rw [unwrap?_eq_some.mpr (congrArg (List.cons '(') same)] at none
        cases none
    · next other =>
      obtain ⟨pieces, k, note, apart, first, rfl⟩ := readNotes_eq_error.mp fails
      refine ⟨note, .bare text (fun head => ?_) pieces apart k note first, rfl⟩
      obtain ⟨rest, rfl⟩ := List.head?_eq_some_iff.mp head
      exact other rest rfl
  · rintro ⟨culprit, is, rfl⟩
    cases is with
    | unclosed rest unclosed =>
      have none : unwrap? ('(' :: rest) = none := by
        rw [Option.eq_none_iff_forall_not_mem]
        intro inner unwraps
        exact unclosed inner (List.cons.inj (unwrap?_eq_some.mp unwraps)).2
      simp only [read, none]
    | listed inner pieces apart k note first =>
      have unwraps := unwrap?_eq_some.mpr (rfl : '(' :: inner ++ [')'] = _)
      rw [List.cons_append] at unwraps ⊢
      simp only [read, unwraps]
      exact readNotes_eq_error.mpr ⟨pieces, k, culprit, apart, first, rfl⟩
    | bare _ bare pieces apart k note first =>
      unfold read
      split
      · exact absurd rfl bare
      · exact readNotes_eq_error.mpr ⟨pieces, k, culprit, apart, first, rfl⟩

theorem readAll_eq_error {body : List Char} {fault : ChordFault} : readAll body = .error fault ↔
    ∃ pieces k stage culprit, StagesWritten body pieces ∧ IsFirst IsNoStage pieces k stage ∧
      StageCulprit stage culprit ∧ fault = .unknownNote culprit := by
  have fails (text : List Char) : (∃ fault, read text = .error fault) ↔ IsNoStage text := by
    rw [exists_error_iff]
    exact forall_congr' fun notes => not_congr read_eq_ok
  rw [readAll, mapM_eq_error fun text _ => fails text]
  simp only [read_eq_error, ← splitArrows_ungroup, exists_and_left, exists_eq_left']

/-- A glide is uneven at the first stage with another number of notes than the first of all. -/
theorem uneven?_eq_some_iff {expected index : Nat} {stages : List (List Note)} {found : Nat × Nat} :
    uneven? expected index stages = some found ↔ ∃ k stage,
      IsFirst (fun stage => stage.length ≠ expected) stages k stage ∧
      found = (index + k, stage.length) := by
  induction stages generalizing index with
  | nil =>
    rw [uneven?]
    constructor
    · intro impossible
      cases impossible
    · rintro ⟨k, stage, first, -⟩
      exact absurd first IsFirst.not_nil
  | cons stage later ih =>
    rw [uneven?]
    split
    · next same =>
      rw [ih]
      constructor
      · rintro ⟨k, other, first, rfl⟩
        exact ⟨k + 1, other, first.tail (not_not.mpr same), by rw [Nat.add_right_comm]; rfl⟩
      · rintro ⟨k, other, first, rfl⟩
        rcases IsFirst.cons_iff.mp first with ⟨differs, -⟩ | ⟨-, j, rfl, behind⟩
        · exact absurd same differs
        · exact ⟨j, other, behind, by rw [Nat.add_right_comm]; rfl⟩
    · next differs =>
      constructor
      · rintro ⟨⟩
        exact ⟨0, stage, .head differs, rfl⟩
      · rintro ⟨k, other, first, rfl⟩
        rcases IsFirst.cons_iff.mp first with ⟨-, rfl, rfl⟩ | ⟨same, -⟩
        · rfl
        · exact absurd differs same

theorem checkEven_eq_error {first : List Note} {later : List (List Note)} {fault : ChordFault} :
    checkEven (first :: later) = .error fault ↔ ∃ k stage,
      IsFirst (fun stage => stage.length ≠ first.length) later k stage ∧
      fault = .unevenGlide (k + 1) first.length stage.length := by
  constructor
  · intro fails
    unfold checkEven at fails
    dsimp only at fails
    split at fails
    · next index found uneven =>
      obtain ⟨k, stage, is, same⟩ := uneven?_eq_some_iff.mp uneven
      cases same
      cases fails
      exact ⟨k, stage, is, by rw [Nat.add_comm]⟩
    · cases fails
  · rintro ⟨k, stage, is, rfl⟩
    have uneven : uneven? first.length 1 later = some (1 + k, stage.length) :=
      uneven?_eq_some_iff.mpr ⟨k, stage, is, rfl⟩
    rw [checkEven, uneven, Nat.add_comm]

end Stage

end Stages

section Pitches

variable {α : Type} [Scalar α]

/-- The name under which a pitch sounds: that of its semitone, and the octave it is written in. -/
def soundingName (letter : Letter) (accidental : Option Accidental) (octave : Option Nat) :
    List Char :=
  ((PitchClass.ofSemitone (semitone letter accidental octave)).name ++
    toString (octave.getD 4)).toList

theorem Note.pitchFrequency_eq_error {letter : Letter} {accidental : Option Accidental}
    {octave : Option Nat} {fault : ChordFault} :
    Note.pitchFrequency (α := α) letter accidental octave = .error fault ↔
      ¬ (Note.pitch letter accidental octave).IsPlayable α ∧
        fault = .unknownNote (soundingName letter accidental octave) := by
  by_cases playable : (Note.pitch letter accidental octave).IsPlayable α
  · have accepted : Note.pitchFrequency letter accidental octave =
        .ok ((Note.pitch letter accidental octave).hertz : α) := if_pos playable
    simp [accepted, playable]
  · have refused : Note.pitchFrequency (α := α) letter accidental octave =
        .error (.unknownNote (soundingName letter accidental octave)) := by
      rw [soundingName, semitone_eq_index, PitchClass.ofSemitone_add]
      cases octave <;> exact if_neg playable
    rw [refused, Except.error.injEq, and_iff_right playable]
    exact eq_comm

/-- Among pitches, the first that cannot be played is reported under the name that it sounds by. -/
theorem Stage.mapM_frequencies_eq_error {stages : List (List Note)} {fault : ChordFault}
    (pitched : ∀ stage ∈ stages, Note.rest ∉ stage) :
    stages.mapM (Stage.frequencies (α := α)) = .error fault ↔ ∃ k letter accidental octave,
      IsFirst (fun note => ¬ note.IsPlayable α) stages.flatten k
        (.pitch letter accidental octave) ∧
      fault = .unknownNote (soundingName letter accidental octave) := by
  have mapped (answer : Except ChordFault α) (fault : ChordFault) :
      ((answer.map some).map fun frequency => frequency.getD (Scalar.ofNat 0)) = .error fault ↔
        answer = .error fault := by
    cases answer <;> simp [Except.map]
  have fails : ∀ note ∈ stages.flatten,
      (∃ fault, (note.frequency.map fun frequency : Option α => frequency.getD (Scalar.ofNat 0)) =
        .error fault) ↔ ¬ note.IsPlayable α := by
    intro note member
    cases note with
    | rest =>
      obtain ⟨stage, of, within⟩ := List.mem_flatten.mp member
      exact absurd within (pitched stage of)
    | pitch => simp [Note.frequency, mapped, Note.pitchFrequency_eq_error]
  unfold Stage.frequencies
  rw [mapM_mapM_eq_error, mapM_eq_error fails]
  constructor
  · rintro ⟨k, note, first, refused⟩
    cases note with
    | rest => cases refused
    | pitch letter accidental octave =>
      rw [Note.frequency, mapped, Note.pitchFrequency_eq_error] at refused
      exact ⟨k, letter, accidental, octave, first, refused.2⟩
  · rintro ⟨k, letter, accidental, octave, first, rfl⟩
    refine ⟨k, _, first, ?_⟩
    rw [Note.frequency, mapped, Note.pitchFrequency_eq_error]
    exact ⟨first.holds, rfl⟩

end Pitches

section Chords

variable {α : Type} [Scalar α]

/-- What is wrong with a token, of all that is: the suffix if it is malformed; else what cannot be
read of its stages; else the first stage with another number of notes than stage 0; else, unless a
note is a rest, the first pitch that cannot be played. -/
inductive ChordCulprit (α : Type) [Scalar α] (token : List Char) : ChordFault → Prop where
  | suffix (malformed : IsMalformed token) : ChordCulprit α token (.malformedLength token)
  | note (body : List Char) (change : Option LengthChange) (suffixed : Suffixed body change token)
      (pieces : List (List Char)) (written : StagesWritten body pieces) (s : Nat)
      (stage : List Char) (first : IsFirst IsNoStage pieces s stage) (culprit : List Char)
      (is : StageCulprit stage culprit) : ChordCulprit α token (.unknownNote culprit)
  | uneven (first : List Note) (later : List (List Note)) (change : Option LengthChange)
      (is : TokenText (first :: later) change token) (s : Nat) (stage : List Note)
      (uneven : IsFirst (fun stage => stage.length ≠ first.length) later s stage) :
      ChordCulprit α token (.unevenGlide (s + 1) first.length stage.length)
  | pitch (stages : List (List Note)) (change : Option LengthChange)
      (is : TokenText stages change token)
      (even : ∀ stage ∈ stages, ∀ other ∈ stages, stage.length = other.length)
      (pitched : ∀ stage ∈ stages, Note.rest ∉ stage) (k : Nat) (letter : Letter)
      (accidental : Option Accidental) (octave : Option Nat)
      (first : IsFirst (fun note => ¬ note.IsPlayable α) stages.flatten k
        (.pitch letter accidental octave)) :
      ChordCulprit α token (.unknownNote (soundingName letter accidental octave))

/-- A chord fails in the first of the passes over its token in which there is a fault. -/
theorem Chord.read_eq_error {token : List Char} {tempo : α} {fault : ChordFault} :
    Chord.read token tempo = .error fault ↔ splitLength token = .error fault ∨
      ∃ body change, splitLength token = .ok (body, change) ∧
        (Stage.readAll body = .error fault ∨ ∃ stages, Stage.readAll body = .ok stages ∧
          (Stage.checkEven stages = .error fault ∨ Stage.checkEven stages = .ok () ∧
            (∀ stage ∈ stages, Note.rest ∉ stage) ∧
            stages.mapM (Stage.frequencies (α := α)) = .error fault)) := by
  unfold Chord.read
  cases splitLength token with
  | error reason => simp [bind, Except.bind]
  | ok parts =>
    obtain ⟨body, change⟩ := parts
    simp only [bind, Except.bind, reduceCtorEq, false_or, Except.ok.injEq, Prod.mk.injEq,
      exists_and_left, exists_eq_left', and_assoc]
    cases Stage.readAll body with
    | error reason => simp
    | ok stages =>
      simp only [reduceCtorEq, false_or, Except.ok.injEq, exists_eq_left']
      cases Stage.checkEven stages with
      | error reason => simp
      | ok checked =>
        have rests : (stages.any fun stage => stage.any Note.isRest) = true ↔
            ¬ ∀ stage ∈ stages, Note.rest ∉ stage := by
          simp [Note.isRest]
        simp only [reduceCtorEq, false_or, true_and, rests]
        by_cases pitched : ∀ stage ∈ stages, Note.rest ∉ stage
        · rw [if_neg (not_not.mpr pitched), and_iff_right pitched]
          cases stages.mapM (Stage.frequencies (α := α)) <;> simp [pure, Except.pure]
        · rw [if_pos pitched]
          simp [pure, Except.pure, pitched]

theorem Chord.read_eq_error_iff_culprit {token : List Char} {tempo : α} {fault : ChordFault} :
    Chord.read token tempo = .error fault ↔ ChordCulprit α token fault := by
  rw [Chord.read_eq_error]
  constructor
  · rintro (refused | ⟨body, change, split, unread | ⟨stages, reads, uneven | ⟨even, pitched,
      unplayable⟩⟩⟩)
    · obtain ⟨rfl, malformed⟩ := splitLength_eq_error.mp refused
      exact .suffix malformed
    · obtain ⟨pieces, s, stage, culprit, written, first, is, rfl⟩ :=
        Stage.readAll_eq_error.mp unread
      exact .note body change (splitLength_eq_ok.mp split) pieces written s stage first culprit is
    · have is := tokenText_iff.mpr ⟨body, split, reads⟩
      obtain ⟨first, later, rfl⟩ := List.exists_cons_of_ne_nil is.stages_ne_nil
      obtain ⟨s, stage, differs, rfl⟩ := Stage.checkEven_eq_error.mp uneven
      exact .uneven first later change is s stage differs
    · have is := tokenText_iff.mpr ⟨body, split, reads⟩
      obtain ⟨k, letter, accidental, octave, first, rfl⟩ :=
        (Stage.mapM_frequencies_eq_error pitched).mp unplayable
      exact .pitch stages change is (Stage.checkEven_eq_ok_iff.mp even) pitched k letter accidental
        octave first
  · intro culprit
    cases culprit with
    | suffix malformed => exact .inl (splitLength_eq_error.mpr ⟨rfl, malformed⟩)
    | note body change suffixed pieces written s stage first culprit is =>
      exact .inr ⟨body, change, splitLength_eq_ok.mpr suffixed, .inl (Stage.readAll_eq_error.mpr
        ⟨pieces, s, stage, culprit, written, first, is, rfl⟩)⟩
    | uneven first later change is s stage uneven =>
      obtain ⟨body, split, reads⟩ := tokenText_iff.mp is
      exact .inr ⟨body, change, split, .inr ⟨_, reads, .inl (Stage.checkEven_eq_error.mpr
        ⟨s, stage, uneven, rfl⟩)⟩⟩
    | pitch stages change is even pitched k letter accidental octave first =>
      obtain ⟨body, split, reads⟩ := tokenText_iff.mp is
      exact .inr ⟨body, change, split, .inr ⟨stages, reads, .inr
        ⟨Stage.checkEven_eq_ok_iff.mpr even, pitched, (Stage.mapM_frequencies_eq_error pitched).mpr
          ⟨k, letter, accidental, octave, first, rfl⟩⟩⟩⟩

end Chords

section Scores

variable {α : Type} [Scalar α] {tempo : α} {tokens : List (List Char)} {fault : ScoreFault α}

/-- Chords are read up to the first that cannot be. -/
theorem Score.readChords_eq_error {index : Nat} :
    Score.readChords tempo index tokens = .error fault ↔ ∃ k token reason,
      IsFirst (fun token => ∃ reason, Chord.read token tempo = .error reason) tokens k token ∧
      Chord.read token tempo = .error reason ∧ fault = .chord (index + k) token reason := by
  induction tokens generalizing index with
  | nil =>
    rw [Score.readChords]
    constructor
    · intro impossible
      cases impossible
    · rintro ⟨k, token, reason, first, -⟩
      exact absurd first IsFirst.not_nil
  | cons token later ih =>
    rw [Score.readChords]
    cases read : Chord.read token tempo with
    | error reason =>
      constructor
      · rintro ⟨⟩
        exact ⟨0, token, reason, .head ⟨reason, read⟩, read, rfl⟩
      · rintro ⟨k, other, reason', first, refused, rfl⟩
        rcases IsFirst.cons_iff.mp first with ⟨-, rfl, rfl⟩ | ⟨reads, -⟩
        · rw [read, Except.error.injEq] at refused
          rw [refused]
          rfl
        · exact absurd ⟨reason, read⟩ reads
    | ok chord =>
      have rest : (Score.readChords tempo (index + 1) later).map (chord :: ·) = .error fault ↔
          Score.readChords tempo (index + 1) later = .error fault := by
        cases Score.readChords tempo (index + 1) later <;> simp [Except.map]
      have reads : ¬ ∃ reason, Chord.read token tempo = .error reason := by simp [read]
      dsimp only
      rw [rest, ih]
      constructor
      · rintro ⟨k, other, reason, first, refused, rfl⟩
        exact ⟨k + 1, other, reason, first.tail reads, refused, by rw [Nat.add_right_comm]; rfl⟩
      · rintro ⟨k, other, reason, first, refused, rfl⟩
        rcases IsFirst.cons_iff.mp first with ⟨fails, -⟩ | ⟨-, j, rfl, behind⟩
        · exact absurd fails reads
        · exact ⟨j, other, reason, behind, refused, by rw [Nat.add_right_comm]; rfl⟩

theorem Score.read_eq_error_of_tokens {text : List Char} (finite : Scalar.isFinite tempo = true)
    (positive : ¬ tempo ≤ Scalar.ofNat 0) (found : Token.ofText (α := α) text = .ok tokens)
    (present : tokens ≠ []) :
    Score.read text tempo = .error fault ↔ Score.readChords tempo 0 tokens = .error fault := by
  have accepted : ¬ (¬ Scalar.isFinite tempo = true ∨ tempo ≤ Scalar.ofNat 0) :=
    not_or.mpr ⟨not_not.mpr finite, positive⟩
  have some : tokens.isEmpty = false := by simpa using present
  rw [Score.read, if_neg accepted, found]
  simp only [bind, Except.bind, some]
  cases Score.readChords tempo 0 tokens <;> simp [pure, Except.pure]

/-- A text with tokens in it, at a tempo that is finite and not zero or less, cannot be read if one
of them cannot, and then the fault names the first such token with its index and what is wrong with
it, of all that is. If the score is read, there is a chord in it for each token. -/
theorem Score.first_culprit_is_named (tempo : α) (finite : Scalar.isFinite tempo = true)
    (positive : ¬ tempo ≤ Scalar.ofNat 0) (text : List Char) (tokens : List (List Char))
    (found : Token.ofText (α := α) text = .ok tokens) (present : tokens ≠ []) :
    ((∃ fault, Score.read text tempo = .error fault) ↔
      ∃ token ∈ tokens, ∃ reason, Chord.read token tempo = .error reason) ∧
    (∀ fault, Score.read text tempo = .error fault ↔ ∃ i token reason,
      IsFirst (fun token => ∃ reason, Chord.read token tempo = .error reason) tokens i token ∧
      Chord.read token tempo = .error reason ∧ fault = .chord i token reason) ∧
    (∀ token reason, Chord.read token tempo = .error reason ↔ ChordCulprit α token reason) ∧
    ∀ score, Score.read text tempo = .ok score → score.chords.length = tokens.length := by
  have names (fault : ScoreFault α) : Score.read text tempo = .error fault ↔ ∃ i token reason,
      IsFirst (fun token => ∃ reason, Chord.read token tempo = .error reason) tokens i token ∧
      Chord.read token tempo = .error reason ∧ fault = .chord i token reason := by
    rw [Score.read_eq_error_of_tokens finite positive found present, Score.readChords_eq_error]
    simp only [Nat.zero_add]
  refine ⟨?_, names, fun _ _ => Chord.read_eq_error_iff_culprit, fun score reads => ?_⟩
  · rw [← IsFirst.exists_iff]
    constructor
    · rintro ⟨fault, refused⟩
      obtain ⟨i, token, reason, first, -⟩ := (names fault).mp refused
      exact ⟨i, token, first⟩
    · rintro ⟨i, token, first⟩
      obtain ⟨reason, refused⟩ := first.holds
      exact ⟨_, (names _).mpr ⟨i, token, reason, first, refused, rfl⟩⟩
  · obtain ⟨-, -, tokens', found', -, -, chords⟩ := Score.read_eq_ok.mp reads
    rw [found, Except.ok.injEq] at found'
    rw [found', chords.length_eq]

end Scores

/-- Of the faults in three tokens the one that is named is the first note that is none, in the
second stage of the second token. The sharp behind it is no note either, and the stages of that
token are uneven; the third token has no factor behind its operator. -/
theorem Score.first_culprit_is_named_h :
    Scalar.isFinite (120 : Float) = true ∧ ¬ (120 : Float) ≤ Scalar.ofNat 0 ∧
    Token.ofText (α := Float) "c, (a,b)->(c,h,#)*2, d/".toList =
      .ok ["c".toList, "(a,b)->(c,h,#)*2".toList, "d/".toList] ∧
    ["c".toList, "(a,b)->(c,h,#)*2".toList, "d/".toList] ≠ [] ∧
    Score.read "c, (a,b)->(c,h,#)*2, d/".toList (120 : Float) =
      .error (.chord 1 "(a,b)->(c,h,#)*2".toList (.unknownNote ['h'])) := by
  have finite : Scalar.isFinite (120 : Float) = true := by decide +kernel
  have positive : ¬ (120 : Float) ≤ Scalar.ofNat 0 := by decide +kernel
  have found : Token.ofText (α := Float) "c, (a,b)->(c,h,#)*2, d/".toList =
      .ok ["c".toList, "(a,b)->(c,h,#)*2".toList, "d/".toList] := rfl
  obtain ⟨-, names, culprits, -⟩ :=
    first_culprit_is_named (120 : Float) finite positive _ _ found (List.cons_ne_nil _ _)
  have note : IsFirst IsNoNote [['c'], ['h'], ['#']] 1 ['h'] :=
    .tail (fun none => none _ (Note.read_eq_ok.mp rfl))
      (.head fun _ is => nomatch Note.read_eq_ok.mpr is)
  have stage : IsFirst IsNoStage ["(a,b)".toList, "(c,h,#)".toList] 1 "(c,h,#)".toList :=
    .tail (fun none => none _ (Stage.read_eq_ok.mp rfl))
      (.head fun _ is => nomatch Stage.read_eq_ok.mpr is)
  have written : StagesWritten "(a,b)->(c,h,#)".toList ["(a,b)".toList, "(c,h,#)".toList] := by
    refine .plain _ _ (Stage.splitArrows_eq_iff.mp rfl) fun inner same _ balanced => ?_
    have within : some "a,b)->(c,h,#".toList = some inner := Stage.unwrap?_eq_some.mpr same
    cases within
    exact nomatch (Balanced.isBalanced_iff _).mpr balanced
  have reason : Chord.read "(a,b)->(c,h,#)*2".toList (120 : Float) = .error (.unknownNote ['h']) :=
    (culprits _ _).mpr (.note _ _ (.changed ['*', '2'] _ (.multiply '2' rfl (by decide))) _ written
      1 _ stage _ (.listed "c,h,#".toList _ (Stage.splitDelimiters_eq_iff.mp rfl) 1 _ note))
  have reads : Chord.read "c".toList (120 : Float) = .ok ⟨"c".toList, 0.5, [[261.63]]⟩ :=
    eq_ok_of_toOption (by decide +kernel)
  refine ⟨finite, positive, found, List.cons_ne_nil _ _, (names _).mpr ⟨1, _, _, ?_, reason, rfl⟩⟩
  refine .tail ?_ (.head ⟨_, reason⟩)
  rintro ⟨other, refused⟩
  rw [reads] at refused
  cases refused

end Portamento
