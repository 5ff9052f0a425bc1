import Portamento.Proofs.Score.Documented
import Portamento.Proofs.Sound.Request
import Portamento.Proofs.Timeline.Tiling

/-!
# The notes of a pass

A score has its notes stage by stage, a pass has them note by note: each with a path of its own
through all stages of its chord. Nothing is lost on the way, since the stages of a chord that has
been read have equally many notes; and nothing sounds twice.
-/

namespace Portamento

variable {α : Type}

namespace FrequencyPath

variable [Scalar α]

theorem getElem?_stepped (start step : α) (index : Nat) (stages : List α) (k : Nat) :
    (stepped start step index stages)[k]? =
      stages[k]?.map fun frequency => ⟨start + Scalar.ofNat (index + k) * step, frequency⟩ := by
  induction stages generalizing index k with
  | nil => rfl
  | cons frequency later ih =>
    cases k with
    | zero => rfl
    | succ k =>
      rw [stepped, List.getElem?_cons_succ, List.getElem?_cons_succ, ih, Nat.add_right_comm]
      rfl

theorem length_stepped (start step : α) (index : Nat) (stages : List α) :
    (stepped start step index stages).length = stages.length := by
  induction stages generalizing index with
  | nil => rfl
  | cons frequency later ih => exact congrArg (· + 1) (ih (index + 1))

/-- Each stage begins an equal part of the whole length. -/
theorem getElem?_spread (stages : List ℝ) (start duration : ℝ) (k : Nat) :
    (spread stages start duration).points[k]? = stages[k]?.map fun frequency =>
      ⟨start + k * duration / stages.length, frequency⟩ := by
  rw [spread, getElem?_stepped]
  cases stages with
  | nil => rfl
  | cons first later =>
    have some : max (first :: later).length 1 = (first :: later).length :=
      Nat.max_eq_left (Nat.succ_le_succ (Nat.zero_le _))
    simp only [some, Nat.zero_add, Scalar.ofNat_real, mul_div_assoc]

end FrequencyPath

namespace Timeline

section Places

/-- Where the notes of chords stand, the first of which has the given index: the chord of each note
and its position in the chord, in the order in which they are laid. -/
def notePlaces (index : Nat) : List (Chord α) → List (Nat × Nat)
  | [] => []
  | chord :: later =>
    (List.range chord.noteCount).map (fun note => (index, note)) ++ notePlaces (index + 1) later

theorem mem_notePlaces {index : Nat} {chords : List (Chord α)} {place : Nat × Nat} :
    place ∈ notePlaces index chords ↔ ∃ (k : Nat) (chord : Chord α), chords[k]? = some chord ∧
      place.1 = index + k ∧ place.2 < chord.noteCount := by
  induction chords generalizing index with
  | nil => simp [notePlaces]
  | cons first later ih =>
    rw [notePlaces, List.mem_append, ih, List.mem_map]
    constructor
    · rintro (⟨note, inside, rfl⟩ | ⟨k, chord, found, at_k, inside⟩)
      · exact ⟨0, first, rfl, rfl, List.mem_range.mp inside⟩
      · exact ⟨k + 1, chord, found, by omega, inside⟩
    · rintro ⟨_ | k, chord, found, at_k, inside⟩
      · cases found
        exact .inl ⟨place.2, List.mem_range.mpr inside, Prod.ext at_k.symm rfl⟩
      · exact .inr ⟨k, chord, found, by omega, inside⟩

/-- They stand in the order of the chords, and in a chord in the order of its notes. -/
theorem pairwise_notePlaces (index : Nat) (chords : List (Chord α)) :
    (notePlaces index chords).Pairwise (Prod.Lex (· < ·) (· < ·)) := by
  induction chords generalizing index with
  | nil => exact .nil
  | cons first later ih =>
    rw [notePlaces, List.pairwise_append, List.pairwise_map]
    refine ⟨?_, ih (index + 1), fun place here other behind => ?_⟩
    · exact List.pairwise_lt_range.imp fun order => Prod.Lex.right index order
    · obtain ⟨note, -, rfl⟩ := List.mem_map.mp here
      obtain ⟨k, -, -, at_k, -⟩ := mem_notePlaces.mp behind
      exact Prod.lex_def.mpr (.inl (by omega))

end Places

/-- The event of one note of a chord that begins at a time. -/
def noteEvent [Scalar α] (shape : EnvelopeShape α) (chord : Chord α) (index : Nat) (start : α)
    (note : Nat) : Event α :=
  let amplitude := Scalar.ofNat 1 / Scalar.ofNat chord.noteCount
  let finish := start + chord.seconds
  ⟨index, .spread (chord.notePath note) start chord.seconds, start, finish, amplitude,
    shape.fit amplitude start finish⟩

/-- The events of chords that are laid are those of their notes, each at its place. -/
theorem forall₂_notePlaces [Scalar α] (shape : EnvelopeShape α) (index : Nat) (start : α)
    (chords : List (Chord α)) :
    List.Forall₂ (fun event place => ∃ (k : Nat) (chord : Chord α), chords[k]? = some chord ∧
        place.1 = index + k ∧ place.2 < chord.noteCount ∧
        event = noteEvent shape chord place.1 (chordStart start chords k) place.2)
      (lay shape index start chords).2.2 (notePlaces index chords) := by
  induction chords generalizing index start with
  | nil => exact .nil
  | cons first later ih =>
    refine List.rel_append ?_ ((ih (index + 1) (start + first.seconds)).imp ?_)
    · rw [Chord.events, List.forall₂_map_left_iff, List.forall₂_map_right_iff, List.forall₂_same]
      exact fun note inside => ⟨0, first, rfl, rfl, List.mem_range.mp inside,
        congrArg (noteEvent shape first index · note) (chordStart_zero start _).symm⟩
    · rintro event place ⟨k, chord, found, at_k, inside, is⟩
      exact ⟨k + 1, chord, found, by omega, inside, is⟩

end Timeline

/-- The note at a position of a chord, through the time of a slot: at an equal part of the full
amplitude, with a path that goes through that note of every stage. -/
structure Event.IsNote (event : Event ℝ) (shape : EnvelopeShape ℝ) (chord : Chord ℝ)
    (slot : Slot ℝ) (note : Nat) : Prop where
  chord_eq : event.chord = slot.index
  start_eq : event.start = slot.start
  finish_eq : event.finish = slot.finish
  amplitude_eq : event.amplitude = 1 / chord.noteCount
  envelope_eq : event.envelope = shape.fit event.amplitude slot.start slot.finish
  length_eq : event.path.points.length = chord.stages.length
  stage : ∀ (k : Nat) (stage : List ℝ), chord.stages[k]? = some stage →
    ∃ frequency, stage[note]? = some frequency ∧ event.path.points[k]? =
      some ⟨slot.start + k * chord.seconds / chord.stages.length, frequency⟩

namespace Timeline

theorem isNote_noteEvent (shape : EnvelopeShape ℝ) {chord : Chord ℝ} {note : Nat}
    (present : ∀ stage ∈ chord.stages, note < stage.length) (slot : Slot ℝ)
    (lasts : slot.finish = slot.start + chord.seconds) :
    (noteEvent shape chord slot.index slot.start note).IsNote shape chord slot note := by
  have length := Chord.length_notePath present
  refine ⟨rfl, rfl, lasts.symm, ?_, ?_, ?_, fun k stage at_k => ?_⟩
  · simp only [noteEvent, Scalar.ofNat_real, Nat.cast_one]
  · rw [lasts]
    rfl
  · exact (FrequencyPath.length_stepped ..).trans length
  · have inside : note < stage.length := present stage (List.mem_of_getElem? at_k)
    refine ⟨stage[note], List.getElem?_eq_getElem inside, ?_⟩
    rw [noteEvent, FrequencyPath.getElem?_spread, length, Chord.getElem?_notePath present, at_k,
      Option.bind_some, List.getElem?_eq_getElem inside, Option.map_some]

/-- What it is for a pass to sound each note of some chords once. -/
structure SoundsEachNote (pass : Timeline ℝ) (shape : EnvelopeShape ℝ) (chords : List (Chord ℝ)) :
    Prop where
  even : ∀ chord ∈ chords, ∀ stage ∈ chord.stages, stage.length = chord.noteCount
  /-- The events are the notes of the chords that are no rests, in the order of the chords and in
  each chord of the positions. -/
  notes : ∃ places : List (Nat × Nat), places.Pairwise (Prod.Lex (· < ·) (· < ·)) ∧
    (∀ i j, (i, j) ∈ places ↔ ∃ chord, chords[i]? = some chord ∧ chord.isRest = false ∧
      ∀ stage ∈ chord.stages, j < stage.length) ∧
    List.Forall₂ (fun event place => ∃ chord slot, chords[place.1]? = some chord ∧
      pass.slots[place.1]? = some slot ∧ event.IsNote shape chord slot place.2) pass.events places
  silent : ∀ (i : Nat) (chord : Chord ℝ), chords[i]? = some chord → chord.isRest = true →
    pass.eventsOf i = []
  /-- The notes of a chord together have the full amplitude. -/
  full : ∀ (i : Nat) (chord : Chord ℝ), chords[i]? = some chord → chord.isRest = false →
    ((pass.eventsOf i).map Event.amplitude).sum = 1
  apart : ∀ event ∈ pass.events, ∀ other ∈ pass.events, event.chord < other.chord →
    event.finish ≤ other.start
  /-- Emitted one by one they are the tones of a list, each with its envelope. -/
  emits : ∃ list, ToneList.empty.emitAll pass = .ok list ∧ list.tones =
    pass.events.mapIdx fun id event =>
      ⟨id, event.path, event.start, event.finish, some event.envelope⟩

/-- The notes of a chord that has some have equal amplitudes, which add up to one. -/
theorem sum_amplitude_eventsOf (shape : EnvelopeShape ℝ) (score : Score ℝ) (offset : ℝ) {i : Nat}
    {chord : Chord ℝ} (found : score.chords[i]? = some chord) (some : chord.noteCount ≠ 0) :
    (((ofScore shape score offset).eventsOf i).map Event.amplitude).sum = 1 := by
  have count := length_eventsOf shape score offset found
  have equal : ∀ amplitude ∈ ((ofScore shape score offset).eventsOf i).map Event.amplitude,
      amplitude = 1 / (chord.noteCount : ℝ) := by
    rintro amplitude member
    obtain ⟨event, inside, rfl⟩ := List.mem_map.mp member
    obtain ⟨laid, here⟩ := List.mem_filter.mp inside
    obtain ⟨k, other, found', inside'⟩ := mem_lay.mp laid
    obtain ⟨index, -, -, amplitude, -⟩ := mem_events inside'
    obtain rfl : k = i := by
      rw [← beq_iff_eq.mp here, index, Nat.zero_add]
    obtain rfl := Option.some.inj (found.symm.trans found')
    simpa using amplitude
  rw [List.sum_eq_card_nsmul _ _ equal, List.length_map, count, nsmul_eq_mul]
  exact mul_one_div_cancel (Nat.cast_ne_zero.mpr some)

/-- However a text is laid out, each of its notes sounds once. -/
theorem every_note_sounds_once {text : List Char} {tempo : ℝ} {score : Score ℝ}
    (reads : Score.read text tempo = .ok score) (shape : EnvelopeShape ℝ) (offset : ℝ) :
    (ofScore shape score offset).SoundsEachNote shape score.chords := by
  have even : ∀ chord ∈ score.chords, ∀ stage ∈ chord.stages, stage.length = chord.noteCount := by
    intro chord member stage inside
    obtain ⟨token, read⟩ := Score.exists_read_of_mem reads member
    exact Chord.length_of_mem_stages read inside
  have read {i : Nat} {chord : Chord ℝ} (found : score.chords[i]? = some chord) :
      ∃ token, Chord.read token tempo = .ok chord :=
    Score.exists_read_of_mem reads (List.mem_of_getElem? found)
  have rest {i : Nat} {chord : Chord ℝ} (found : score.chords[i]? = some chord) :
      chord.isRest = true ↔ chord.noteCount = 0 := by
    obtain ⟨token, is⟩ := read found
    exact Chord.isRest_iff_of_read is
  refine ⟨even, ⟨notePlaces 0 score.chords, pairwise_notePlaces 0 _, fun i j => ?places, ?notes⟩,
    fun i chord found silent => ?silent, fun i chord found sounding => ?full,
    (endToEnd_of_read reads shape offset).apart, _, ToneList.emitAll_eq _ _, ?emits⟩
  case places =>
    rw [mem_notePlaces]
    simp only [Nat.zero_add]
    constructor
    · rintro ⟨k, chord, found, rfl, inside⟩
      obtain ⟨token, is⟩ := read found
      exact ⟨chord, found, (Chord.lt_noteCount_iff is).mp inside⟩
    · rintro ⟨chord, found, inside⟩
      obtain ⟨token, is⟩ := read found
      exact ⟨i, chord, found, rfl, (Chord.lt_noteCount_iff is).mpr inside⟩
  case notes =>
    refine (forall₂_notePlaces shape 0 offset score.chords).imp ?_
    rintro event ⟨i, j⟩ ⟨k, chord, found, rfl, inside, rfl⟩
    rw [Nat.zero_add]
    obtain ⟨token, is⟩ := read found
    have present := ((Chord.lt_noteCount_iff is).mp inside).2
    let slot : Slot ℝ := ⟨k, chordStart offset score.chords k,
      chordStart offset score.chords (k + 1), chord.isRest⟩
    exact ⟨chord, slot, found, (getElem?_slots_ofScore shape score offset).mpr ⟨chord, found, rfl⟩,
      isNote_noteEvent shape present slot (chordStart_succ found)⟩
  case silent =>
    have count := length_eventsOf shape score offset found
    rwa [(rest found).mp silent, List.length_eq_zero_iff] at count
  case full =>
    exact sum_amplitude_eventsOf shape score offset found fun none =>
      Bool.false_ne_true (sounding.symm.trans ((rest found).mpr none))
  case emits =>
    rw [ToneList.tones_foldl_add]
    simp [ToneList.empty, ToneList.tones]

section GlideThenRest

/-! A glide of two notes, and a rest. -/

/-- The token of the glide. -/
def listedGlide : List Char := ['(', 'c', ',', 'd', ')', '-', '>', '(', 'e', ',', 'f', ')']

/-- The text of the score. -/
def glideThenRest : List Char := listedGlide ++ [',', '-']

/-- The score, at a beat a second. -/
noncomputable def glideScore : Score ℝ :=
  ⟨60, [⟨listedGlide, chordSeconds none 60, bareGlideStages.map (List.map Note.hertz)⟩,
    ⟨['-'], chordSeconds none 60, []⟩]⟩

theorem read_glideScore : Score.read glideThenRest (60 : ℝ) = .ok glideScore := by
  have glide : TokenText bareGlideStages none listedGlide :=
    .beat _ (.plain _ (.more _ ['(', 'c', ',', 'd', ')']
      (.listed _ (notesText_pair .c .d (.inr rfl) (.inr rfl))) _ ['(', 'e', ',', 'f', ')']
      (.single _ _ (.listed _ (notesText_pair .e .f (.inr rfl) (.inr rfl))))))
  have rest : TokenText [[.rest]] none ['-'] :=
    .beat _ (.plain _ (.single _ _ (.bare _ (.single _ _ .rest))))
  have playable : Playable ℝ bareGlideStages := by
    refine ⟨by decide, .inr ?_⟩
    simp only [bareGlideStages, List.forall_mem_cons, List.not_mem_nil, false_implies,
      implies_true, and_true, isPlayable_usual]
  have sounding : Chord.read listedGlide (60 : ℝ) =
      .ok ⟨listedGlide, chordSeconds none 60, bareGlideStages.map (List.map Note.hertz)⟩ :=
    Chord.read_eq_ok_iff_means.mpr ⟨rfl, _, none, glide, playable, Chord.lasts_iff.mpr rfl,
      fun rest => absurd rest (by decide), fun _ => rfl⟩
  have silent : Chord.read ['-'] (60 : ℝ) = .ok ⟨['-'], chordSeconds none 60, []⟩ :=
    Chord.read_eq_ok_iff_means.mpr ⟨rfl, [[.rest]], none, rest, ⟨by decide, .inl (by decide)⟩,
      Chord.lasts_iff.mpr rfl, fun _ => rfl, fun pitched => absurd pitched (by decide)⟩
  exact Score.read_eq_ok.mpr ⟨rfl, by norm_num, [listedGlide, ['-']], rfl, by simp, rfl,
    .cons sounding (.cons silent .nil)⟩

theorem every_note_sounds_once_glide : Score.read glideThenRest (60 : ℝ) = .ok glideScore ∧
    (ofScore .usual glideScore 0).events.length = 2 ∧
    (ofScore .usual glideScore 0).SoundsEachNote .usual glideScore.chords :=
  ⟨read_glideScore, rfl, every_note_sounds_once read_glideScore .usual 0⟩

end GlideThenRest

end Timeline

end Portamento
