import Portamento.Proofs.Score.Language
import Portamento.Scalar.Double

/-!
# Chords as matrices

The frequencies of a chord are a matrix: a stage of the glide is a row, and the path of a note
through the stages is a column. Of a chord that has been read no entry is missing, which is why it
makes no difference that a path passes over the stages that are too short for its note. The rows can
be told from the columns.
-/

namespace Portamento

variable {α : Type}

namespace Chord

section Read

variable [Scalar α] {token : List Char} {tempo : α} {chord : Chord α}

/-- The stages of a chord that has been read are as many frequencies each, at least one, and all of
them can be played. -/
theorem stages_of_read (reads : Chord.read token tempo = .ok chord) :
    (∀ stage ∈ chord.stages, stage ≠ []) ∧
    (∀ stage ∈ chord.stages, ∀ other ∈ chord.stages, stage.length = other.length) ∧
    ∀ stage ∈ chord.stages, ∀ frequency ∈ stage,
      Scalar.isFinite frequency = true ∧ Scalar.ofNat 0 < frequency := by
  obtain ⟨-, stages, change, is, playable, -, silent, sounding⟩ :=
    Chord.read_eq_ok_iff_means.mp reads
  by_cases rest : ∃ stage ∈ stages, Note.rest ∈ stage
  · simp [silent rest]
  · have pitched : ∀ stage ∈ stages, Note.rest ∉ stage :=
      fun stage member inside => rest ⟨stage, member, inside⟩
    simp only [sounding pitched, List.forall_mem_map, List.length_map, ne_eq,
      List.map_eq_nil_iff]
    exact ⟨is.stage_ne_nil, playable.even, playable.sounds.resolve_left rest⟩

/-- A chord that has been read is a rest exactly if it has no notes. -/
theorem isRest_iff_of_read (reads : Chord.read token tempo = .ok chord) :
    chord.isRest = true ↔ chord.noteCount = 0 := by
  obtain ⟨present, -, -⟩ := stages_of_read reads
  cases stages : chord.stages with
  | nil => simp [isRest, noteCount, stages]
  | cons first later =>
    have first_ne_nil : first ≠ [] := present first (stages ▸ List.mem_cons_self)
    simp [isRest, noteCount, stages, first_ne_nil]

/-- The stages of a chord that has been read all have its notes. -/
theorem length_of_mem_stages (reads : Chord.read token tempo = .ok chord) {stage : List α}
    (member : stage ∈ chord.stages) : stage.length = chord.noteCount := by
  obtain ⟨-, even, -⟩ := stages_of_read reads
  cases stages : chord.stages with
  | nil => exact absurd (stages ▸ member) List.not_mem_nil
  | cons first later =>
    simp only [noteCount, stages]
    exact even stage member first (stages ▸ List.mem_cons_self)

/-- A chord that has been read has the notes that all its stages have, and none if it is a rest. -/
theorem lt_noteCount_iff (reads : Chord.read token tempo = .ok chord) {note : Nat} :
    note < chord.noteCount ↔
      chord.isRest = false ∧ ∀ stage ∈ chord.stages, note < stage.length := by
  constructor
  · intro inside
    refine ⟨Bool.eq_false_iff.mpr fun silent => ?_, fun stage member => ?_⟩
    · rw [(isRest_iff_of_read reads).mp silent] at inside
      exact Nat.not_lt_zero note inside
    · rwa [length_of_mem_stages reads member]
  · rintro ⟨sounding, inside⟩
    obtain ⟨first, member⟩ := List.exists_mem_of_ne_nil chord.stages fun none =>
      Bool.false_ne_true (sounding.symm.trans (List.isEmpty_iff.mpr none))
    rw [← length_of_mem_stages reads member]
    exact inside first member

/-- A chord that has been read is a rest exactly if a rest is written in its token. -/
theorem isRest_iff_written (reads : Chord.read token tempo = .ok chord) :
    ∃ notes change, TokenText notes change token ∧
      (chord.isRest = true ↔ ∃ stage ∈ notes, Note.rest ∈ stage) := by
  obtain ⟨-, notes, change, is, -, -, silent, sounding⟩ := Chord.read_eq_ok_iff_means.mp reads
  refine ⟨notes, change, is, ?_⟩
  rw [isRest, List.isEmpty_iff]
  refine ⟨fun none => ?_, silent⟩
  by_contra rest
  have pitched : ∀ stage ∈ notes, Note.rest ∉ stage :=
    fun stage member inside => rest ⟨stage, member, inside⟩
  exact is.stages_ne_nil (List.map_eq_nil_iff.mp ((sounding pitched).symm.trans none))

end Read

section Paths

variable {chord : Chord α} {note : Nat}

/-- A note that every stage has is left out by none. -/
theorem getElem?_notePath (present : ∀ stage ∈ chord.stages, note < stage.length) (k : Nat) :
    (chord.notePath note)[k]? = chord.stages[k]?.bind (·[note]?) := by
  obtain ⟨source, seconds, stages⟩ := chord
  dsimp only [notePath] at present ⊢
  induction stages generalizing k with
  | nil => simp
  | cons first later ih =>
    obtain ⟨frequency, here⟩ : ∃ frequency, first[note]? = some frequency :=
      ⟨_, List.getElem?_eq_getElem (present first List.mem_cons_self)⟩
    rw [List.filterMap_cons, here]
    cases k with
    | zero => exact here.symm
    | succ k => exact ih k fun stage member => present stage (List.mem_cons_of_mem _ member)

theorem length_notePath (present : ∀ stage ∈ chord.stages, note < stage.length) :
    (chord.notePath note).length = chord.stages.length :=
  List.filterMap_length_eq_length.mpr fun stage member => by simp [present stage member]

/-- A note that no stage has is left out by all of them. -/
theorem notePath_eq_nil (absent : ∀ stage ∈ chord.stages, stage.length ≤ note) :
    chord.notePath note = [] :=
  List.filterMap_eq_nil_iff.mpr fun stage member => List.getElem?_eq_none (absent stage member)

end Paths

/-- A chord whose stages all have its notes, and at least one. -/
structure IsFull (chord : Chord α) : Prop where
  rows : ∀ stage ∈ chord.stages, stage.length = chord.noteCount
  some_note : chord.stages ≠ [] → 0 < chord.noteCount

theorem isFull_of_read [Scalar α] {token : List Char} {tempo : α} {chord : Chord α}
    (reads : Chord.read token tempo = .ok chord) : IsFull chord where
  rows _ member := length_of_mem_stages reads member
  some_note some := Nat.pos_of_ne_zero fun none =>
    some (List.isEmpty_iff.mp ((isRest_iff_of_read reads).mpr none))

namespace IsFull

variable {chord other : Chord α} {note : Nat}

theorem present (full : chord.IsFull) (inside : note < chord.noteCount) :
    ∀ stage ∈ chord.stages, note < stage.length := fun stage member => by
  rwa [full.rows stage member]

/-- The notes of a full chord are those that have a path. -/
theorem lt_noteCount_iff (full : chord.IsFull) :
    note < chord.noteCount ↔ chord.notePath note ≠ [] := by
  constructor
  · intro inside none
    have stages : chord.stages ≠ [] := by
      intro empty
      rw [noteCount, empty] at inside
      exact Nat.not_lt_zero note inside
    have length := length_notePath (full.present inside)
    rw [none] at length
    exact stages (List.length_eq_zero_iff.mp length.symm)
  · intro some
    by_contra beyond
    exact some (notePath_eq_nil fun stage member =>
      (full.rows stage member).trans_le (Nat.le_of_not_lt beyond))

/-- An entry of a path is the note of its stage. -/
theorem getElem?_notePath (full : chord.IsFull) (inside : note < chord.noteCount) {k : Nat}
    {stage : List α} (at_k : chord.stages[k]? = some stage) :
    (chord.notePath note)[k]? = stage[note]? := by
  rw [Chord.getElem?_notePath (full.present inside), at_k, Option.bind_some]

/-- The paths of a full chord say how many stages it has, and how many notes. -/
theorem counts_eq (full : chord.IsFull) (full' : other.IsFull)
    (same : ∀ note, chord.notePath note = other.notePath note) :
    chord.noteCount = other.noteCount ∧ chord.stages.length = other.stages.length := by
  have notes : chord.noteCount = other.noteCount := by
    refine eq_of_forall_lt_iff fun note => ?_
    rw [full.lt_noteCount_iff, full'.lt_noteCount_iff, same]
  refine ⟨notes, ?_⟩
  rcases Nat.eq_zero_or_pos chord.noteCount with none | some
  · have empty : chord.stages = [] := by
      by_contra stages
      exact (full.some_note stages).ne' none
    have empty' : other.stages = [] := by
      by_contra stages
      exact (full'.some_note stages).ne' (notes.symm.trans none)
    rw [empty, empty']
  · rw [← length_notePath (full.present some), same,
      length_notePath (full'.present (notes ▸ some))]

/-- Full chords with the same paths have the same stages. -/
theorem stages_eq (full : chord.IsFull) (full' : other.IsFull)
    (same : ∀ note, chord.notePath note = other.notePath note) : chord.stages = other.stages := by
  obtain ⟨notes, stages⟩ := full.counts_eq full' same
  refine List.ext_getElem stages fun k inside inside' => ?_
  have row := full.rows _ (List.getElem_mem inside)
  have row' := full'.rows _ (List.getElem_mem inside')
  refine List.ext_getElem? fun note => ?_
  rcases Nat.lt_or_ge note chord.noteCount with present | beyond
  · rw [← full.getElem?_notePath present (List.getElem?_eq_getElem inside), same,
      full'.getElem?_notePath (notes ▸ present) (List.getElem?_eq_getElem inside')]
  · rw [List.getElem?_eq_none (row.trans_le beyond),
      List.getElem?_eq_none (row'.trans_le (notes ▸ beyond))]

end IsFull

/-- What it is for a chord to be the full matrix that is written in a token. -/
structure IsMatrixOf [Scalar α] (chord : Chord α) (token : List Char) : Prop where
  source_eq : chord.source = token
  /-- The chord is a rest exactly if one of the notes that are written is a rest. -/
  isRest_iff : ∃ notes change, TokenText notes change token ∧
    (chord.isRest = true ↔ ∃ stage ∈ notes, Note.rest ∈ stage)
  silent : chord.isRest = true → chord.stages = []
  some_stage : chord.isRest = false → 0 < chord.stageCount
  some_note : chord.isRest = false → 0 < chord.noteCount
  even : ∀ stage ∈ chord.stages, stage.length = chord.noteCount
  playable : ∀ stage ∈ chord.stages, ∀ frequency ∈ stage,
    Scalar.isFinite frequency = true ∧ Scalar.ofNat 0 < frequency
  /-- The path of a note has an entry for each stage, which is the note of that stage. -/
  path : ∀ note < chord.noteCount, (chord.notePath note).length = chord.stageCount ∧
    ∀ (k : Nat) (stage : List α), chord.stages[k]? = some stage →
      ∃ frequency, stage[note]? = some frequency ∧ (chord.notePath note)[k]? = some frequency
  no_path : ∀ note, chord.noteCount ≤ note → chord.notePath note = []

/-- Every chord that is read is the full matrix of its token, and no other chord with the same paths
has other stages. -/
theorem full_matrix_of_read [Scalar α] {token : List Char} {tempo : α} {chord : Chord α}
    (reads : Chord.read token tempo = .ok chord) : chord.IsMatrixOf token ∧
      ∀ token' (tempo' : α) other, Chord.read token' tempo' = .ok other →
        (∀ note, other.notePath note = chord.notePath note) → other.stages = chord.stages := by
  have full := isFull_of_read reads
  have sounding : chord.isRest = false → chord.stages ≠ [] := by
    intro sounds none
    rw [isRest, none] at sounds
    cases sounds
  refine ⟨⟨(Chord.read_eq_ok_iff_means.mp reads).source_eq, isRest_iff_written reads,
    List.isEmpty_iff.mp, fun sounds => List.length_pos_iff.mpr (sounding sounds),
    fun sounds => full.some_note (sounding sounds), full.rows, (stages_of_read reads).2.2,
    fun note inside => ⟨length_notePath (full.present inside), fun k stage at_k => ?entry⟩,
    fun note beyond => notePath_eq_nil fun stage member =>
      (full.rows stage member).trans_le beyond⟩,
    fun token' tempo' other reads' same => (isFull_of_read reads').stages_eq full same⟩
  case entry =>
    have present := full.present inside stage (List.mem_of_getElem? at_k)
    have here := List.getElem?_eq_getElem present
    exact ⟨stage[note], here, (full.getElem?_notePath inside at_k).trans here⟩

/-- The token of a glide of two notes. -/
def pairGlide : List Char :=
  ['(', 'A', ',', 'B', ')', '-', '>', '(', 'A', '5', ',', 'E', ')', '*', '4']

/-- In doubles, the second note of that glide goes down while the first one goes up. -/
theorem full_matrix_of_read_pairGlide : ∃ chord : Chord Float,
    Chord.read pairGlide 120 = .ok chord ∧ chord.IsMatrixOf pairGlide ∧
      chord.isRest = false ∧ chord.notePath 0 = [440, 880] ∧
      chord.notePath 1 = [493.88, 329.63] ∧ chord.notePath 2 = [] := by
  have reads : Chord.read pairGlide (120 : Float) =
      .ok ⟨pairGlide, 2, [[440, 493.88], [880, 329.63]]⟩ := eq_ok_of_toOption (by decide +kernel)
  exact ⟨_, reads, (full_matrix_of_read reads).1, rfl, rfl, rfl, rfl⟩

end Chord

end Portamento
