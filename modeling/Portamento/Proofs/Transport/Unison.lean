import Portamento.Proofs.Transport.Idle

/-!
# What sounds at one time

After every run, and for every time on the device's clock, the tones that sound are notes of one
chord of one pass of one session, each at its part of the full amplitude. So together they never go
beyond it.
-/

namespace Portamento

namespace World

variable {w : World ℝ}

theorem map_getElem?_range {β : Type} (list : List β) :
    (List.range list.length).map (list[·]?) = list.map some := by
  refine List.ext_getElem (by simp) fun i inside _ => ?_
  have within : i < list.length := by simpa using inside
  simp [within]

/-- There are no more tones of a chord of a pass than notes in the chord. -/
theorem Harmony.length_le (harmony : Harmony w) (orderly : Orderly w) {i pass chord : Nat}
    {loop : LiveLoop ℝ} (found : w.transport.loops[i]? = some loop) {tones : List (Tone ℝ)}
    (sublist : tones.Sublist w.tones)
    (owned : ∀ tone ∈ tones, ∃ mark, w.Owned tone mark ∧ mark.loop = i ∧ mark.pass = pass ∧
      mark.event.chord = chord) :
    tones.length ≤ ((loop.passTimeline pass).eventsOf chord).length := by
  let inChord : Mark ℝ → Bool := fun mark => mark.pass == pass && mark.event.chord == chord
  let isOurs : Option (Mark ℝ) → Bool := Option.any fun mark => inChord mark && mark.loop == i
  have marks : (tones.map fun tone => w.marks[tone.id]?).Sublist (w.marks.map some) := by
    have ids := ((sublist.map Tone.id).trans orderly.distinct).map (w.marks[·]?)
    rwa [List.map_map, map_getElem?_range] at ids
  have ours : (tones.map fun tone => w.marks[tone.id]?).filter isOurs =
      tones.map fun tone => w.marks[tone.id]? := by
    refine List.filter_eq_self.mpr fun mark? member => ?_
    obtain ⟨tone, inside, rfl⟩ := List.mem_map.mp member
    obtain ⟨mark, ⟨-, at_id⟩, rfl, rfl, rfl⟩ := owned tone inside
    simp [isOurs, inChord, at_id]
  calc tones.length = ((tones.map fun tone => w.marks[tone.id]?).filter isOurs).length := by
        rw [ours, List.length_map]
    _ ≤ ((w.marks.map some).filter isOurs).length := (marks.filter isOurs).length_le
    _ = ((w.marksOf i).filter inChord).length := by
        rw [List.filter_map, List.length_map, marksOf, List.filter_filter]
        rfl
    _ = (((w.marksOf i).map fun mark => (mark.pass, mark.event)).filter
          fun laid => laid.1 == pass && laid.2.chord == chord).length := by
        rw [List.filter_map, List.length_map]
        rfl
    _ ≤ ((loop.passesUpTo (loop.passes + 1)).filter
          fun laid => laid.1 == pass && laid.2.chord == chord).length :=
        ((harmony.recorded i loop found).isPrefix.sublist.filter _).length_le
    _ ≤ ((loop.passTimeline pass).eventsOf chord).length := by
        rw [LiveLoop.length_filter_passesUpTo]
        split
        · exact le_refl _
        · exact Nat.zero_le _

/-- What sounds at a time is one chord. -/
structure Unison (w : World ℝ) (t : ℝ) : Prop where
  /-- The tones that sound are notes of one chord of one pass of the loop of one session. -/
  together : ∃ i pass chord, ∀ tone ∈ w.tones, tone.isSoundingAt t = true →
    ∃ mark loop, w.Owned tone mark ∧ mark.loop = i ∧ mark.pass = pass ∧
      mark.event.chord = chord ∧ w.transport.loops[i]? = some loop ∧
      mark.event ∈ loop.passEvents pass ∧ tone.Plays mark.event
  /-- The gains of all tones add up to the full amplitude at most. -/
  sum_le : (w.tones.map fun tone => tone.gainAt t).sum ≤ 1

/-- Tones that do not sound add nothing to the sum of the gains. -/
theorem sum_gainAt_eq {tones : List (Tone ℝ)} {t : ℝ}
    (silent : ∀ tone ∈ tones, tone.isSoundingAt t = false → tone.gainAt t = 0) :
    (tones.map fun tone => tone.gainAt t).sum =
      ((tones.filter fun tone => tone.isSoundingAt t).map fun tone => tone.gainAt t).sum := by
  induction tones with
  | nil => rfl
  | cons tone later ih =>
    have rest := ih fun other member => silent other (List.mem_cons_of_mem _ member)
    rw [List.map_cons, List.sum_cons, List.filter_cons, rest]
    split
    · rw [List.map_cons, List.sum_cons]
    · next quiet => rw [silent tone List.mem_cons_self (by simpa using quiet), zero_add]

section Gain

variable {tone : Tone ℝ} {mark : Mark ℝ} {loop : LiveLoop ℝ} {t : ℝ}

/-- A tone that does not sound has no gain. -/
theorem Harmony.gainAt_eq_zero (harmony : Harmony w) (orderly : Orderly w)
    (proper : ∀ (i : Nat) loop, w.transport.loops[i]? = some loop → loop.plan.Proper)
    (owned : w.Owned tone mark) (quiet : tone.isSoundingAt t = false) : tone.gainAt t = 0 := by
  obtain ⟨loop, found, member, -⟩ := harmony.exists_loop orderly owned
  have laid := (proper _ loop found).laid.shifted (loop.passStart mark.pass)
  exact (harmony.plays tone mark owned).gainAt_eq_zero (laid.shaped _ member).1 quiet

/-- The gain of a tone is at most its part of the full amplitude. -/
theorem Harmony.gainAt_le (harmony : Harmony w) (orderly : Orderly w)
    (proper : ∀ (i : Nat) loop, w.transport.loops[i]? = some loop → loop.plan.Proper)
    (owned : w.Owned tone mark) (found : w.transport.loops[mark.loop]? = some loop) :
    0 < ((loop.passTimeline mark.pass).eventsOf mark.event.chord).length ∧ tone.gainAt t ≤
      1 / ((loop.passTimeline mark.pass).eventsOf mark.event.chord).length := by
  obtain ⟨loop', found', member, -⟩ := harmony.exists_loop orderly owned
  rw [found] at found'
  cases found'
  have laid := (proper _ loop found).laid.shifted (loop.passStart mark.pass)
  obtain ⟨positive, shared⟩ := laid.shared _ member
  have gain := (harmony.plays tone mark owned).gainAt_le (laid.shaped _ member).2.2 positive t
  have several : 0 < ((loop.passTimeline mark.pass).eventsOf mark.event.chord).length :=
    List.length_pos_of_mem (List.mem_filter.mpr ⟨member, beq_self_eq_true mark.event.chord⟩)
  refine ⟨several, gain.trans ((le_div_iff₀ (by exact_mod_cast several)).mpr ?_)⟩
  rw [mul_comm]
  exact shared

end Gain

/-- Tones of one chord, no more of them than the chord has notes, add up to the full amplitude at
most. -/
theorem sum_gainAt_le {tones : List (Tone ℝ)} {notes : Nat} {t : ℝ} (several : 0 < notes)
    (count : tones.length ≤ notes) (part : ∀ tone ∈ tones, tone.gainAt t ≤ 1 / notes) :
    (tones.map fun tone => tone.gainAt t).sum ≤ 1 := by
  have positive : (0 : ℝ) < notes := by exact_mod_cast several
  calc (tones.map fun tone => tone.gainAt t).sum
      ≤ (tones.map fun tone => tone.gainAt t).length • (1 / (notes : ℝ)) :=
        List.sum_le_card_nsmul _ _ (List.forall_mem_map.mpr part)
    _ = (tones.length : ℝ) / notes := by rw [List.length_map, nsmul_eq_mul, mul_one_div]
    _ ≤ 1 := (div_le_one positive).mpr (by exact_mod_cast count)

theorem Harmony.unison (harmony : Harmony w) (orderly : Orderly w)
    (proper : ∀ (i : Nat) loop, w.transport.loops[i]? = some loop → loop.plan.Proper) (t : ℝ) :
    Unison w t := by
  have silent (tone : Tone ℝ) (member : tone ∈ w.tones) (quiet : tone.isSoundingAt t = false) :
      tone.gainAt t = 0 := by
    obtain ⟨mark, owned⟩ := orderly.exists_owned member
    exact harmony.gainAt_eq_zero orderly proper owned quiet
  have sum_eq := sum_gainAt_eq silent
  cases sounding : w.tones.filter fun tone => tone.isSoundingAt t with
  | nil =>
    refine ⟨⟨0, 0, 0, fun tone member sounds => ?_⟩, ?_⟩
    · exact absurd sounds (List.filter_eq_nil_iff.mp sounding tone member)
    · rw [sum_eq, sounding, List.map_nil, List.sum_nil]
      exact zero_le_one
  | cons first others =>
    -- the first tone tells which chord it is
    have head : first ∈ w.tones.filter fun tone => tone.isSoundingAt t := by
      rw [sounding]
      exact List.mem_cons_self
    obtain ⟨inside, sounds⟩ := List.mem_filter.mp head
    obtain ⟨mark, owned⟩ := orderly.exists_owned inside
    obtain ⟨loop, found, -⟩ := harmony.exists_loop orderly owned
    have same (tone : Tone ℝ) (member : tone ∈ w.tones) (sounds' : tone.isSoundingAt t = true) :
        ∃ mark', w.Owned tone mark' ∧ mark'.loop = mark.loop ∧ mark'.pass = mark.pass ∧
          mark'.event.chord = mark.event.chord := by
      obtain ⟨mark', owned'⟩ := orderly.exists_owned member
      exact ⟨mark', owned', harmony.together orderly proper owned' owned sounds' sounds⟩
    refine ⟨⟨mark.loop, mark.pass, mark.event.chord, fun tone member sounds' => ?_⟩, ?_⟩
    · obtain ⟨mark', owned', loop_eq, pass_eq, chord_eq⟩ := same tone member sounds'
      obtain ⟨loop', found', member', -⟩ := harmony.exists_loop orderly owned'
      rw [loop_eq] at found'
      rw [pass_eq] at member'
      exact ⟨mark', loop', owned', loop_eq, pass_eq, chord_eq, found', member',
        harmony.plays tone mark' owned'⟩
    · have several := (harmony.gainAt_le (t := t) orderly proper owned found).1
      rw [sum_eq]
      refine sum_gainAt_le several ?_ fun tone member => ?_
      · refine harmony.length_le orderly found List.filter_sublist fun tone member => ?_
        obtain ⟨inside, sounds'⟩ := List.mem_filter.mp member
        exact same tone inside sounds'
      · obtain ⟨inside, sounds'⟩ := List.mem_filter.mp member
        obtain ⟨mark', owned', loop_eq, pass_eq, chord_eq⟩ := same tone inside sounds'
        rw [← loop_eq] at found
        rw [← pass_eq, ← chord_eq]
        exact (harmony.gainAt_le orderly proper owned' found).2

/-- Whatever a transport is made to do, and however its loops and the clock go on meanwhile, one
chord sounds at a time. -/
theorem one_chord_at_a_time (settings : Settings ℝ) (leadIn : 0 ≤ settings.leadIn)
    (text : List Char) (rate rendererRate : Nat) (limits : DeviceLimits)
    (unavailable instant : Nat) (w : World ℝ)
    (reached : Run (launch settings text rate rendererRate limits unavailable instant) w) (t : ℝ) :
    Unison w t := by
  obtain ⟨-, orderly, provenance, harmony⟩ := reached.carries (.launch ..)
    (P := fun u => Orderly u ∧ Provenance settings u ∧ Harmony u)
    ⟨.launch .., .launch .., .launch ..⟩
    fun u v before move effect =>
      have ⟨orderly, provenance, harmony⟩ := before
      ⟨orderly.effect effect, provenance.move move effect,
        harmony.effect orderly (fun _ _ numbered => provenance.proper leadIn numbered) effect⟩
  exact harmony.unison orderly (fun _ _ numbered => provenance.proper leadIn numbered) t

section Duo

/-! The chord of two notes again: the device takes one of them and refuses the other, and half a
second after the first has begun to sound the session is begun anew on a device that takes all. -/

/-- The device when it has been silenced and takes all tones. -/
noncomputable def duoRestored : Device ℝ :=
  (duoRefused.stopBuffer.cancelScheduled 1500000000).limited ⟨none, none⟩

/-- The loop that has broken off, when its session has been ended. -/
noncomputable def duoEnded : LiveLoop ℝ :=
  { duoReady with
    phase := .ended (.error (.deviceUnavailable "output lost"))
    cancelled := true }

/-- The transport between the two sessions. -/
noncomputable def duoBetween : Transport ℝ :=
  { duoPlaying with device := some duoRestored, session := none, loops := [duoEnded] }

/-- The transport when the second session has been begun. -/
noncomputable def duoReplaying : Transport ℝ := duoBetween.startLive 1500000000 duoScore

/-- The second loop when it has opened. -/
noncomputable def duoReopened : LiveLoop ℝ :=
  { LiveLoop.ofPlan (duoBetween.livePlan duoScore) with
    origin := duoRestored.now 1500000000 + duoSettings.leadIn
    phase := .entering }

/-- Its first two events. -/
noncomputable def duoFirst : Event ℝ := (duoReopened.passEvents 0).head (List.cons_ne_nil _ _)

noncomputable def duoSecond : Event ℝ :=
  (duoReopened.passEvents 0).tail.head (List.cons_ne_nil _ _)

/-- The world when the second loop has laid both notes. -/
noncomputable def duoRelaid : World ℝ where
  instant := 1500000000
  transport :=
    { duoReplaying with
      device := some ((duoRestored.taken duoFirst).taken duoSecond)
      loops := [duoEnded, { duoReopened with phase := .laying [] }] }
  errand := none
  marks := [⟨0, 0, duoEvent⟩, ⟨1, 0, duoFirst⟩, ⟨1, 0, duoSecond⟩]

theorem run_duoRelaid : Run duoLaunch duoRelaid := by
  let late : World ℝ := { duoBroken with instant := duoBroken.instant + 1500000000 }
  let marks : List (Mark ℝ) := [⟨0, 0, duoEvent⟩]
  -- the session that has broken off is ended, and the device recovers
  have waits : Move duoBroken late := .advance 1500000000
  have restarts : Move late { late with
      transport := late.transport.revoke, errand := some .restarting } :=
    .takeUp _ _ rfl (.restart rfl (by rw [show late.transport.state = .idle from rfl]; decide))
  let silent : Transport ℝ :=
    { duoPlaying with
      device := some (duoRefused.stopBuffer.cancelScheduled 1500000000)
      session := none
      loops := [duoEnded] }
  have silences : Move { late with
      transport := late.transport.revoke, errand := some .restarting }
      ⟨1500000000, silent, some .beginning, marks⟩ :=
    .carryOut .restarting rfl (by
      intro loop member
      rw [List.mem_singleton.mp member]
      rfl)
  have recovers : Move ⟨1500000000, silent, some .beginning, marks⟩
      ⟨1500000000, duoBetween, some .beginning, marks⟩ := .limit ⟨none, none⟩
  have opened : Move ⟨1500000000, duoBetween, some .beginning, marks⟩
      ⟨1500000000, duoReplaying, none, marks⟩ := by
    have move : Move (⟨1500000000, duoBetween, some .beginning, marks⟩ : World ℝ) _ :=
      .carryOut .beginning rfl (by
        intro loop member
        rw [List.mem_singleton.mp member]
        rfl)
    have current : duoBetween.kept? = some ⟨duo, duoSettings.tempo, duoScore, none⟩ :=
      Transport.kept?_of_current rfl rfl rfl (le_refl _)
    have next : (duoBetween.carryOut 1500000000 .beginning).1 = duoReplaying :=
      congrArg Prod.fst (Transport.startAnew_of_kept 1500000000 rfl current rfl)
    rw [← next]
    exact move
  -- the second loop opens, takes the device and lays both notes
  let fresh : LiveLoop ℝ := LiveLoop.ofPlan (duoBetween.livePlan duoScore)
  let entered : LiveLoop ℝ := { duoReopened with phase := .laying [duoFirst, duoSecond] }
  let waiting : LiveLoop ℝ := { duoReopened with phase := .laying [duoSecond] }
  let taken : Device ℝ := duoRestored.taken duoFirst
  have opens : Move ⟨1500000000, duoReplaying, none, marks⟩
      ⟨1500000000, { duoReplaying with loops := [duoEnded, duoReopened] }, none, marks⟩ := by
    have long : 0 < fresh.passLength := (LivePlan.laid_ofScore read_duoScore _ rfl).2.2
    have takes : fresh.step? 1500000000 duoRestored = some (duoReopened, duoRestored) := by
      show some (fresh.begin _, duoRestored) = _
      rw [LiveLoop.begin_of_pos long]
      rfl
    exact .step 1 fresh duoReopened duoRestored duoRestored rfl rfl takes
  have enters : Move
      ⟨1500000000, { duoReplaying with loops := [duoEnded, duoReopened] }, none, marks⟩
      ⟨1500000000, { duoReplaying with loops := [duoEnded, entered] }, none, marks⟩ :=
    .step 1 duoReopened entered duoRestored duoRestored rfl rfl rfl
  have lays : Move ⟨1500000000, { duoReplaying with loops := [duoEnded, entered] }, none, marks⟩
      ⟨1500000000, { duoReplaying with device := some taken, loops := [duoEnded, waiting] }, none,
        [⟨0, 0, duoEvent⟩, ⟨1, 0, duoFirst⟩]⟩ :=
    .step 1 entered waiting duoRestored taken rfl rfl (LiveLoop.step?_of_takes rfl rfl _)
  have lays' : Move
      ⟨1500000000, { duoReplaying with device := some taken, loops := [duoEnded, waiting] }, none,
        [⟨0, 0, duoEvent⟩, ⟨1, 0, duoFirst⟩]⟩ duoRelaid :=
    .step 1 waiting { duoReopened with phase := .laying [] } taken (taken.taken duoSecond) rfl rfl
      (LiveLoop.step?_of_takes rfl rfl _)
  have ended := (((run_duoBroken.tail waits).tail restarts).tail silences).tail recovers
  exact ((((ended.tail opened).tail opens).tail enters).tail lays).tail lays'

theorem now_duoRefused : duoRefused.now 1500000000 = 3 / 2 := by
  have now : duoRefused.now 1500000000 = (Scalar.ofNanoseconds 1500000000 : ℝ) := rfl
  rw [now, Scalar.ofNanoseconds_real]
  norm_num

/-- The note of the failed pass begins after a second, and would go on for a second. -/
theorem duoEvent_times : duoEvent.start = 1 ∧ duoEvent.finish = 2 := by
  have start : duoEvent.start =
      (0 : ℕ) + ((Scalar.ofNanoseconds 0 : ℝ) + 1 + (0 : ℕ) * duoReady.passLength) := rfl
  have finish : duoEvent.finish = (0 : ℕ) + chordSeconds none 60 +
      ((Scalar.ofNanoseconds 0 : ℝ) + 1 + (0 : ℕ) * duoReady.passLength) := rfl
  constructor
  · rw [start, Scalar.ofNanoseconds_real]
    norm_num
  · rw [finish, Scalar.ofNanoseconds_real]
    norm_num [chordSeconds, beatSeconds]

/-- Both notes of the chord begin a second behind the second start. -/
theorem duoFirst_times : duoFirst.start = 5 / 2 ∧ duoFirst.finish = 7 / 2 := by
  have start : duoFirst.start =
      (0 : ℕ) + (duoRefused.now 1500000000 + 1 + (0 : ℕ) * duoReopened.passLength) := rfl
  have finish : duoFirst.finish = (0 : ℕ) + chordSeconds none 60 +
      (duoRefused.now 1500000000 + 1 + (0 : ℕ) * duoReopened.passLength) := rfl
  constructor
  · rw [start, now_duoRefused]
    norm_num
  · rw [finish, now_duoRefused]
    norm_num [chordSeconds, beatSeconds]

/-- The tones that have been created: the one of the failed pass, cut off by the second start, and
the two of the chord. -/
theorem tones_duoRelaid : duoRelaid.tones =
    [Tone.cutAt ⟨0, duoEvent.path, duoEvent.start, duoEvent.finish, some duoEvent.envelope⟩ (3 / 2),
      ⟨1, duoFirst.path, duoFirst.start, duoFirst.finish, some duoFirst.envelope⟩,
      ⟨2, duoSecond.path, duoSecond.start, duoSecond.finish, some duoSecond.envelope⟩] := by
  have begun : duoRefused.tones.tones =
      [⟨0, duoEvent.path, duoEvent.start, duoEvent.finish, some duoEvent.envelope⟩] := rfl
  have kept : duoRestored.tones.tones = [Tone.cutAt
      ⟨0, duoEvent.path, duoEvent.start, duoEvent.finish, some duoEvent.envelope⟩ (3 / 2)] := by
    show (duoRefused.tones.cancelAfter (duoRefused.now 1500000000)).tones = _
    rw [ToneList.tones_cancelAfter, begun, now_duoRefused]
    norm_num [duoEvent_times.1]
  show ((duoRestored.tones.add duoFirst).add duoSecond).tones = _
  rw [ToneList.tones_add, ToneList.tones_add, kept]
  rfl

/-- The law behind a pass that has failed in the middle of a chord, and a second start: while the
note sounds that the failed pass has left, and while the chord of the second session does. -/
theorem one_chord_at_a_time_duo : 0 ≤ duoSettings.leadIn ∧ Run duoLaunch duoRelaid ∧
    (∃ left first second : Tone ℝ, duoRelaid.tones = [left, first, second] ∧
      left.isSoundingAt (5 / 4) = true ∧ left.finish = 3 / 2 ∧
      first.isSoundingAt 3 = true ∧ second.isSoundingAt 3 = true) ∧
    Unison duoRelaid (5 / 4) ∧ Unison duoRelaid 3 := by
  have leadIn : 0 ≤ duoSettings.leadIn := zero_le_one
  have law (t : ℝ) : Unison duoRelaid t := one_chord_at_a_time duoSettings leadIn duo 44100 44100
    ⟨some 1, none⟩ 0 0 duoRelaid run_duoRelaid t
  obtain ⟨start, finish⟩ := duoEvent_times
  obtain ⟨start', finish'⟩ := duoFirst_times
  have late : (3 : ℝ) / 2 < duoEvent.finish := by
    rw [finish]
    norm_num
  refine ⟨leadIn, run_duoRelaid, ⟨_, _, _, tones_duoRelaid, ?_, ?_, ?_, ?_⟩, law _, law _⟩
  · rw [Tone.isSoundingAt_iff, Tone.cutAt_start, Tone.cutAt, if_pos late, start]
    norm_num
  · rw [Tone.cutAt, if_pos late]
  · rw [Tone.isSoundingAt_iff, start', finish']
    norm_num
  · have same : duoSecond.start = duoFirst.start ∧ duoSecond.finish = duoFirst.finish := ⟨rfl, rfl⟩
    rw [Tone.isSoundingAt_iff, same.1, same.2, start', finish']
    norm_num

end Duo

end World

end Portamento
