import Portamento.Proofs.Live.Emission
import Portamento.Proofs.Live.Passes
import Portamento.Proofs.Sound.Playing

/-!
# What a live loop has sounding at a time

The passes of a loop lie end to end from its origin on, and so a time lies in one of them at most.
When every pass that begins by a time has been laid, what sounds then on the loop's device is what
sounds in that pass at the same distance from its beginning; passes that have been laid ahead, and
the front of a pass that is being laid, begin later and are not heard yet.
-/

namespace Portamento

/-- A list of parts of which all are empty but one. -/
theorem flatMap_range_eq {β : Type} (part : ℕ → List β) {k n : ℕ} (within : k < n)
    (others : ∀ j, j ≠ k → part j = []) : (List.range n).flatMap part = part k := by
  induction n with
  | zero => exact absurd within (Nat.not_lt_zero k)
  | succ n ih =>
    rw [List.range_succ, List.flatMap_append, List.flatMap_singleton]
    rcases Nat.lt_succ_iff_lt_or_eq.mp within with before | rfl
    · rw [ih before, others n (Nat.ne_of_gt before), List.append_nil]
    · have earlier : (List.range k).flatMap part = [] :=
        List.flatMap_eq_nil_iff.mpr fun j member =>
          others j (Nat.ne_of_lt (List.mem_range.mp member))
      rw [earlier, List.nil_append]

namespace LivePlan

variable {plan : LivePlan ℝ} {origin t : ℝ}

/-- Outside of a pass nothing of it sounds. -/
theorem soundingAt_passAt_eq_nil (laid : plan.pass.EndToEnd) (starts : plan.pass.start = 0)
    {pass : ℕ} (outside : t < (plan.passAt origin pass).start ∨
      (plan.passAt origin (pass + 1)).start ≤ t) :
    (plan.passAt origin pass).soundingAt t = [] := by
  rw [← plan.passAt_finish starts] at outside
  exact Timeline.soundingAt_eq_nil (laid.shifted _) outside

theorem passAt_start_mono (starts : plan.pass.start = 0) (long : 0 < plan.pass.duration)
    {pass later : ℕ} (order : pass ≤ later) :
    (plan.passAt origin pass).start ≤ (plan.passAt origin later).start := by
  rw [plan.passAt_start starts, plan.passAt_start starts]
  gcongr

/-- What sounds of all passes is what sounds of the one that the time lies in. -/
theorem filter_emission (laid : plan.pass.EndToEnd) (starts : plan.pass.start = 0)
    (long : 0 < plan.pass.duration) {pass passes : ℕ} (within : pass < passes)
    (begun : (plan.passAt origin pass).start ≤ t)
    (running : t < (plan.passAt origin (pass + 1)).start) :
    (plan.emission origin passes).filter (fun event => event.isSoundingAt t) =
      (plan.passAt origin pass).soundingAt t := by
  rw [emission, List.filter_flatMap]
  refine flatMap_range_eq (fun pass => (plan.passAt origin pass).soundingAt t) within
    fun other different => soundingAt_passAt_eq_nil laid starts ?_
  rcases Nat.lt_or_gt_of_ne different with before | behind
  · exact .inr ((passAt_start_mono starts long (Nat.succ_le_of_lt before)).trans begun)
  · exact .inl (running.trans_le (passAt_start_mono starts long (Nat.succ_le_of_lt behind)))

end LivePlan

namespace Scene

/-- Whether the loop has laid every pass that begins by a time on the clock. A loop that does not
repeat has one pass. -/
def HasLaidBy (s : Scene ℝ) (t : ℝ) : Prop :=
  ∀ pass : ℕ, (s.loop.plan.looping = true ∨ pass = 0) → s.loop.passStart pass ≤ t →
    pass < s.loop.passes

theorem HasLaidBy.of_le {s : Scene ℝ} {t t' : ℝ} (done : s.HasLaidBy t) (earlier : t' ≤ t) :
    s.HasLaidBy t' :=
  fun pass repeats begun => done pass repeats (begun.trans earlier)

section Sounding

variable {plan : LivePlan ℝ} {before : Device ℝ} {instant : Nat} {s : Scene ℝ} {clock t : ℝ}
  (laid : plan.pass.EndToEnd) (starts : plan.pass.start = 0) (long : 0 < plan.pass.duration)
  (run : Run (launch plan before instant) s) (opening : s.opening = some clock)

include long run

/-- A loop that does not repeat has laid one pass at most, and is not laying another. -/
theorem pass_eq_zero_of_once {pass : ℕ}
    (begun : pass < s.loop.passes + if s.loop.isMidPass then 1 else 0) :
    plan.looping = true ∨ pass = 0 := by
  have inv := (Invariant.launch plan before instant).run long run
  cases looping : plan.looping with
  | true => exact .inl rfl
  | false =>
    have few := inv.length_begun_le looping
    have counted := inv.counted
    exact .inr (by omega)

include starts opening

/-- The passes begin where the loop takes them to. -/
theorem passStart_eq (pass : ℕ) :
    s.loop.passStart pass = (plan.passAt (clock + plan.leadIn) pass).start := by
  have inv := (Invariant.launch plan before instant).run long run
  rw [plan.passAt_start starts, LiveLoop.passStart, LiveLoop.passLength, inv.origin_eq opening,
    inv.plan_eq, Scalar.ofNat_real]

/-- A loop that has laid so many passes has laid what begins before the end of the last. -/
theorem hasLaidBy_of_lt {passes : ℕ} (many : passes ≤ s.loop.passes)
    (before : t < (plan.passAt (clock + plan.leadIn) passes).start) : s.HasLaidBy t := by
  intro pass _ begun
  rw [passStart_eq starts long run opening] at begun
  refine Nat.lt_of_lt_of_le ?_ many
  by_contra late
  exact absurd (begun.trans_lt before)
    (LivePlan.passAt_start_mono starts long (Nat.le_of_not_lt late)).not_gt

include laid

/-- What sounds belongs to the passes that have been laid in full. -/
theorem voices_sounding (silent : before.tones = .empty) (done : s.HasLaidBy t) :
    List.Forall₂ Tone.Voices (s.device.tones.soundingAt t)
      ((plan.emission (clock + plan.leadIn) s.loop.passes).filter
        fun event => event.isSoundingAt t) := by
  have inv := (Invariant.launch plan before instant).run long run
  obtain ⟨part, later, joined, -, emitted, middle⟩ := inv.in_order opening
  rw [ToneList.foldlM_emit, Except.ok.injEq, silent] at emitted
  have none : List.Forall₂ Tone.Voices (ToneList.empty : ToneList ℝ).tones [] := .nil
  have voiced := ToneList.voices_soundingAt (ToneList.voices_foldl_add none
    (plan.emission (clock + plan.leadIn) s.loop.passes ++ part)) t
  rw [emitted, List.nil_append, List.filter_append] at voiced
  -- the front of a pass that is being laid begins later
  have unheard : part.filter (fun event => event.isSoundingAt t) = [] := by
    refine List.filter_eq_nil_iff.mpr fun event member sounding => ?_
    have inside : event ∈ (plan.passAt (clock + plan.leadIn) s.loop.passes).events := by
      rw [← joined]
      exact List.mem_append_left later member
    have begun := ((laid.shifted _).inside event inside).1
    have repeats : plan.looping = true ∨ s.loop.passes = 0 :=
      pass_eq_zero_of_once long run (by simp [middle (List.ne_nil_of_mem member)])
    rw [← inv.plan_eq] at repeats
    have due : s.loop.passStart s.loop.passes ≤ t := by
      rw [passStart_eq starts long run opening]
      exact begun.trans (Event.isSoundingAt_iff.mp sounding).1
    exact absurd (done _ repeats due) (lt_irrefl _)
  rwa [unheard, List.append_nil] at voiced

/-- At a time within a pass, what sounds is what sounds in a pass at that distance from its
beginning. -/
theorem voices_within (silent : before.tones = .empty) (done : s.HasLaidBy t) {pass : ℕ}
    {position : ℝ} (repeats : plan.looping = true ∨ pass = 0) (inside : 0 ≤ position)
    (within : position < plan.pass.duration)
    (elapsed : t - (clock + plan.leadIn) = pass * plan.pass.duration + position) :
    List.Forall₂ (fun tone event => tone.Voices (event.shifted (t - position)))
      (s.device.tones.soundingAt t) (plan.pass.soundingAt position) := by
  have begun : (plan.passAt (clock + plan.leadIn) pass).start = t - position := by
    rw [plan.passAt_start starts]
    linarith
  have next : (plan.passAt (clock + plan.leadIn) (pass + 1)).start =
      t - position + plan.pass.duration := by
    rw [← begun, plan.passAt_start starts, plan.passAt_start starts]
    push_cast
    ring
  have plan_eq := ((Invariant.launch plan before instant).run long run).plan_eq
  have finished : pass < s.loop.passes := by
    refine done pass (plan_eq ▸ repeats) ?_
    rw [passStart_eq starts long run opening, begun]
    linarith
  have voiced := voices_sounding laid starts long run opening silent done
  rw [LivePlan.filter_emission laid starts long finished (by linarith) (by linarith),
    LivePlan.passAt, Timeline.soundingAt_shifted, List.forall₂_map_right_iff,
    ← plan.passAt_start starts, begun, sub_sub_cancel] at voiced
  exact voiced

/-- So many notes sound as there do in a pass at that distance from its beginning. -/
theorem length_soundingAt (silent : before.tones = .empty) (done : s.HasLaidBy t) {pass : ℕ}
    {position : ℝ} (repeats : plan.looping = true ∨ pass = 0) (inside : 0 ≤ position)
    (within : position < plan.pass.duration)
    (elapsed : t - (clock + plan.leadIn) = pass * plan.pass.duration + position) :
    (s.device.tones.soundingAt t).length = (plan.pass.soundingAt position).length :=
  (voices_within laid starts long run opening silent done repeats inside within elapsed).length_eq

/-- At a time within no pass nothing sounds. -/
theorem soundingAt_eq_nil (silent : before.tones = .empty) (done : s.HasLaidBy t)
    (outside : ∀ (pass : ℕ) (position : ℝ), (plan.looping = true ∨ pass = 0) → 0 ≤ position →
      position < plan.pass.duration →
        t - (clock + plan.leadIn) ≠ pass * plan.pass.duration + position) :
    s.device.tones.soundingAt t = [] := by
  have voiced := voices_sounding laid starts long run opening silent done
  have quiet : (plan.emission (clock + plan.leadIn) s.loop.passes).filter
      (fun event => event.isSoundingAt t) = [] := by
    rw [LivePlan.emission, List.filter_flatMap, List.flatMap_eq_nil_iff]
    intro pass member
    refine LivePlan.soundingAt_passAt_eq_nil laid starts ?_
    by_contra within
    obtain ⟨begun, running⟩ := not_or.mp within
    rw [not_lt, plan.passAt_start starts] at begun
    rw [not_le, plan.passAt_start starts] at running
    push_cast at running
    have repeats : plan.looping = true ∨ pass = 0 :=
      pass_eq_zero_of_once long run (Nat.lt_add_right _ (List.mem_range.mp member))
    exact outside pass (t - (clock + plan.leadIn) - pass * plan.pass.duration) repeats
      (by linarith) (by linarith) (by ring)
  rw [quiet, List.forall₂_nil_right_iff] at voiced
  exact voiced

end Sounding

/-- A loop that repeats and takes its first step at once can come to have laid what begins by any
time. -/
theorem exists_hasLaidBy {plan : LivePlan ℝ} (starts : plan.pass.start = 0)
    (long : 0 < plan.pass.duration) (looping : plan.looping = true) (device : Device ℝ)
    (instant : Nat) (t : ℝ) : ∃ s, Run (launch plan device instant) s ∧
      s.opening = some (device.now instant) ∧ s.HasLaidBy t := by
  obtain ⟨passes, many⟩ :=
    exists_nat_gt ((t - (device.now instant + plan.leadIn)) / plan.pass.duration)
  obtain ⟨s, run, opening, laid⟩ := exists_run_of_looping looping long device instant passes
  refine ⟨s, run, opening, hasLaidBy_of_lt starts long run opening laid ?_⟩
  rw [div_lt_iff₀ long] at many
  rw [plan.passAt_start starts]
  linarith

end Scene

end Portamento
