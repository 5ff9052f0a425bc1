import Mathlib.Data.List.Forall2
import Portamento.Proofs.Score.Length
import Portamento.Score.Basic

/-!
# What the parts of reading a score come to

A score is read from its tokens, one chord from each; a chord from its length suffix, its stages and
their frequencies. Each lemma here says of one of these when it succeeds and with which result, in
terms of the parts it is made of.
-/

namespace Portamento

variable {α : Type} [Scalar α]

theorem eq_ok_of_toOption {ε β : Type} {answer : Except ε β} {result : β}
    (found : answer.toOption = some result) : answer = .ok result := by
  cases answer <;> cases found
  rfl

namespace Chord

/-- The stages that a chord is given: the frequencies of its notes, or none if one is a rest. -/
def Sounds (notes : List (List Note)) (stages : List (List α)) : Prop :=
  if notes.any fun stage => stage.any Note.isRest then stages = []
  else notes.mapM Stage.frequencies = .ok stages

theorem read_eq_ok {token : List Char} {tempo : α} {chord : Chord α} :
    read token tempo = .ok chord ↔ ∃ body change notes,
      splitLength token = .ok (body, change) ∧ Stage.readAll body = .ok notes ∧
      Stage.checkEven notes = .ok () ∧ chord.source = token ∧
      chord.seconds = chordSeconds change tempo ∧ Sounds notes chord.stages := by
  unfold read Sounds
  constructor
  · intro reads
    cases split : splitLength token with
    | error fault => simp [split, bind, Except.bind] at reads
    | ok parts =>
      obtain ⟨body, change⟩ := parts
      cases notes : Stage.readAll body with
      | error fault => simp [split, notes, bind, Except.bind] at reads
      | ok notes' =>
        cases even : Stage.checkEven notes' with
        | error fault => simp [split, notes, even, bind, Except.bind] at reads
        | ok checked =>
          refine ⟨body, change, notes', rfl, notes, even, ?_⟩
          simp only [split, notes, even, bind, Except.bind, pure, Except.pure] at reads
          split at reads
          · next rest =>
            cases reads
            rw [if_pos rest]
            exact ⟨rfl, rfl, rfl⟩
          · next sounding =>
            rw [if_neg sounding]
            cases stages : notes'.mapM (Stage.frequencies (α := α)) with
            | error fault => simp [stages] at reads
            | ok stages' =>
              rw [stages] at reads
              cases reads
              exact ⟨rfl, rfl, rfl⟩
  · rintro ⟨body, change, notes, split, reads, even, source, seconds, sounds⟩
    obtain ⟨source', seconds', stages⟩ := chord
    dsimp only at source seconds sounds
    subst source seconds
    simp only [split, reads, even, bind, Except.bind, pure, Except.pure]
    split
    · next rest =>
      rw [if_pos rest] at sounds
      rw [sounds]
    · next sounding =>
      rw [if_neg sounding] at sounds
      rw [sounds]

/-- A chord lasts a beat, changed at most by a factor from 1 to 9. -/
theorem exists_change_of_read {token : List Char} {tempo : α} {chord : Chord α}
    (reads : read token tempo = .ok chord) : ∃ change : Option LengthChange,
      (∀ c ∈ change, 1 ≤ c.factor ∧ c.factor ≤ 9) ∧ chord.seconds = chordSeconds change tempo := by
  obtain ⟨_, change, _, split, -, -, -, seconds, -⟩ := read_eq_ok.mp reads
  refine ⟨change, ?_, seconds⟩
  cases splitLength_eq_ok.mp split with
  | whole => exact nofun
  | changed suffix change writes =>
    rintro _ ⟨⟩
    exact writes.factor_pos

end Chord

namespace Score

theorem readChords_eq_ok {tempo : α} (index : Nat) {tokens : List (List Char)}
    {chords : List (Chord α)} : readChords tempo index tokens = .ok chords ↔
      List.Forall₂ (fun token chord => Chord.read token tempo = .ok chord) tokens chords := by
  induction tokens generalizing index chords with
  | nil =>
    rw [List.forall₂_nil_left_iff, readChords, Except.ok.injEq]
    exact eq_comm
  | cons token later ih =>
    rw [List.forall₂_cons_left_iff, readChords]
    cases read : Chord.read token tempo with
    | error fault => simp
    | ok chord =>
      cases rest : readChords tempo (index + 1) later with
      | error fault =>
        simp only [Except.map, reduceCtorEq, Except.ok.injEq, false_iff]
        rintro ⟨first, chords', -, others, -⟩
        rw [(ih _).mpr others] at rest
        cases rest
      | ok chords' =>
        simp only [Except.map, Except.ok.injEq]
        constructor
        · rintro rfl
          exact ⟨chord, chords', rfl, (ih _).mp rest, rfl⟩
        · rintro ⟨first, others, rfl, read, rfl⟩
          rw [(ih _).mpr read] at rest
          cases rest
          rfl

theorem read_eq_ok {text : List Char} {tempo : α} {score : Score α} :
    read text tempo = .ok score ↔ Scalar.isFinite tempo = true ∧ ¬ tempo ≤ Scalar.ofNat 0 ∧
      ∃ tokens, Token.ofText (α := α) text = .ok tokens ∧ tokens ≠ [] ∧ score.tempo = tempo ∧
        List.Forall₂ (fun token chord => Chord.read token tempo = .ok chord) tokens
          score.chords := by
  unfold read
  by_cases refused : ¬ Scalar.isFinite tempo ∨ tempo ≤ Scalar.ofNat 0
  · rw [if_pos refused]
    constructor
    · exact fun refusal => nomatch refusal
    · rintro ⟨finite, positive, -⟩
      rcases refused with infinite | negative
      · exact absurd finite infinite
      · exact absurd negative positive
  · rw [if_neg refused]
    obtain ⟨finite, positive⟩ := not_or.mp refused
    simp only [not_not.mp finite, positive, not_false_iff, true_and]
    cases tokens : Token.ofText (α := α) text with
    | error fault => simp [bind, Except.bind]
    | ok tokens' =>
      simp only [Except.ok.injEq, bind, Except.bind, List.isEmpty_iff]
      split
      · next empty => simp [empty]
      · next present =>
        rw [exists_eq_left']
        simp only [ne_eq, present, not_false_iff, true_and, ← readChords_eq_ok 0]
        obtain ⟨tempo', chords⟩ := score
        cases readChords tempo 0 tokens' with
        | error fault => simp
        | ok chords' => simp [pure, Except.pure, eq_comm]

/-- Every chord of a score has been read from a token. -/
theorem exists_read_of_mem {text : List Char} {tempo : α} {score : Score α}
    (reads : read text tempo = .ok score) {chord : Chord α} (member : chord ∈ score.chords) :
    ∃ token, Chord.read token tempo = .ok chord := by
  obtain ⟨-, -, tokens, -, -, -, chords⟩ := read_eq_ok.mp reads
  have both : List.Forall₂ (fun chord token => (∃ token, Chord.read token tempo = .ok chord) ∧
      Chord.read token tempo = .ok chord) score.chords tokens :=
    chords.flip.imp fun _ token read => ⟨⟨token, read⟩, read⟩
  exact ((List.forall₂_and_left _ _).mp both).1 chord member

theorem chords_ne_nil {text : List Char} {tempo : α} {score : Score α}
    (reads : read text tempo = .ok score) : score.chords ≠ [] := by
  obtain ⟨-, -, tokens, -, present, -, chords⟩ := read_eq_ok.mp reads
  intro empty
  rw [empty, List.forall₂_nil_right_iff] at chords
  exact present chords

end Score

end Portamento
