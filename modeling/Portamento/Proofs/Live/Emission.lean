import Mathlib
import Portamento.Proofs.Live.Report
import Portamento.Proofs.Live.Schedule
import Portamento.Proofs.Sound.Time

/-!
# The emission law of the live loop

A live loop is watched from its first step on, while the clock of its device goes on, is suspended
and resumed, while the device comes to refuse tones or takes them again, and while the loop may be
told to stop, all in any order and at any point, the middle of a pass included. An observer notes
the reading of the clock at the first step, the readings at which passes are begun, and every call
on the device with its answer.

`emission_law` says what the notes hold after any run: the granted calls are those of one pass after
the other, from the first event to the last, each pass a pass length behind the one before; no pass
is begun too early, or after the loop has been told to stop; a pass that has been begun is left only
when it is complete or when the device refuses a tone, which is then the loop's result; and a loop
that repeats goes on to the next pass unless it is told to stop or refused a tone.
-/

namespace Portamento

/-- A live loop with the device it plays on, at an instant, and what has been noted of it. -/
structure Scene (α : Type) where
  instant : Nat
  device : Device α
  loop : LiveLoop α
  /-- The reading of the clock at the loop's first step, once that has been taken. -/
  opening : Option α
  /-- The readings of the clock at which the loop has taken the device to lay a pass. -/
  begun : List α
  /-- The loop's calls on the device, with their answers. -/
  calls : List (SinkCall α)

namespace Scene

section Moves

variable {α : Type} [Tonal α]

/-- A loop that has done nothing, on a device in whatever state. -/
def launch (plan : LivePlan α) (device : Device α) (instant : Nat) : Scene α :=
  ⟨instant, device, .ofPlan plan, none, [], []⟩

/-- The reading of the device's clock. -/
def now (s : Scene α) : α := s.device.now s.instant

/-- The scene after a step of the loop. -/
def after (s : Scene α) (loop : LiveLoop α) (device : Device α) : Scene α where
  instant := s.instant
  device
  loop
  opening := s.opening.or (some s.now)
  begun := if loop.holdsDevice && !s.loop.holdsDevice then s.begun ++ [s.now] else s.begun
  calls := s.calls ++ s.loop.calls s.device

/-- What can happen in a scene: time passes, somebody suspends or resumes the clock or tells the
loop to stop, the device gets other limits, or the loop takes a step. -/
inductive Move : Scene α → Scene α → Prop where
  | advance (s : Scene α) (nanoseconds : Nat) :
      Move s { s with instant := s.instant + nanoseconds }
  | suspend (s : Scene α) : Move s { s with device := s.device.suspend s.instant }
  | resume (s : Scene α) : Move s { s with device := s.device.resume s.instant }
  | cancel (s : Scene α) : Move s { s with loop := s.loop.cancel }
  | limit (s : Scene α) (limits : DeviceLimits) :
      Move s { s with device := s.device.limited limits }
  | step (s : Scene α) (loop : LiveLoop α) (device : Device α)
      (taken : s.loop.step? s.instant s.device = some (loop, device)) : Move s (s.after loop device)

/-- Any number of moves, in any order. -/
abbrev Run : Scene α → Scene α → Prop := Relation.ReflTransGen Move

/-- A step of the loop at this very instant. -/
def Advances (s t : Scene α) : Prop :=
  ∃ loop device, s.loop.step? s.instant s.device = some (loop, device) ∧ t = s.after loop device

/-- Any number of steps of the loop, with nothing in between. -/
abbrev Advance : Scene α → Scene α → Prop := Relation.ReflTransGen Advances

/-- A run at whose end the loop has taken the device for one more pass than before. -/
structure GoesOn (s t : Scene α) : Prop where
  run : Run s t
  more : s.begun.length < t.begun.length
  holds : t.loop.holdsDevice = true
  free : t.loop.cancelled = false

theorem GoesOn.behind {s t u : Scene α} (goesOn : GoesOn t u) (run : Run s t)
    (same : t.begun = s.begun) : GoesOn s u where
  run := run.trans goesOn.run
  more := same ▸ goesOn.more
  holds := goesOn.holds
  free := goesOn.free

theorem Advance.run {s t : Scene α} (advance : Advance s t) : Run s t := by
  induction advance with
  | refl => exact .refl
  | tail _ step ih =>
    obtain ⟨loop, device, taken, rfl⟩ := step
    exact ih.tail (.step _ loop device taken)

omit [Tonal α] in
/-- Whether the loop has returned with the fault that its last call was answered with, the first of
its calls to fail. -/
def BrokenOff (s : Scene α) (fault : SoundFault) : Prop :=
  s.loop.outcome? = some (.error fault) ∧ ∃ front call, s.calls = front ++ [call] ∧
    call.fault? = some fault ∧ ∀ call ∈ front, call.isGranted = true

end Moves

end Scene

namespace LivePlan

/-- The pass of the given number, if the first one begins at `origin`. -/
noncomputable def passAt (plan : LivePlan ℝ) (origin : ℝ) (pass : ℕ) : Timeline ℝ :=
  plan.pass.shifted (origin + pass * plan.pass.duration)

/-- The events of so many passes, one pass after the other. -/
noncomputable def emission (plan : LivePlan ℝ) (origin : ℝ) (passes : ℕ) : List (Event ℝ) :=
  (List.range passes).flatMap fun pass => (plan.passAt origin pass).events

theorem passAt_start (plan : LivePlan ℝ) (starts : plan.pass.start = 0) (origin : ℝ) (pass : ℕ) :
    (plan.passAt origin pass).start = origin + pass * plan.pass.duration := by
  simp only [passAt, Timeline.shifted, starts, zero_add]

/-- Each pass ends where the next one begins. -/
theorem passAt_finish (plan : LivePlan ℝ) (starts : plan.pass.start = 0) (origin : ℝ) (pass : ℕ) :
    (plan.passAt origin pass).finish = (plan.passAt origin (pass + 1)).start := by
  rw [passAt_start plan starts]
  simp only [passAt, Timeline.shifted, Timeline.duration, starts, sub_zero]
  push_cast
  ring

theorem map_snd_passesUpTo (loop : LiveLoop ℝ) (passes : ℕ) :
    (loop.passesUpTo passes).map Prod.snd = loop.plan.emission loop.origin passes := by
  simp only [LiveLoop.passesUpTo, emission, List.map_flatMap, List.map_map, Function.comp_def,
    List.map_id']
  rfl

end LivePlan

/-- A clock that runs comes to every time. -/
theorem Device.exists_le_now (device : Device ℝ) (running : device.clock.isRunning = true)
    (time : ℝ) (instant : Nat) :
    ∃ nanoseconds, time ≤ device.now (instant + nanoseconds) := by
  obtain ⟨start, resumed⟩ := Option.isSome_iff_exists.mp running
  refine ⟨start + ⌈time * 1000000000⌉₊, ?_⟩
  have counted : ⌈time * 1000000000⌉₊ ≤
      device.clock.elapsed (instant + (start + ⌈time * 1000000000⌉₊)) := by
    simp only [OutputClock.elapsed, resumed]
    omega
  rw [now, OutputClock.now, Scalar.ofNanoseconds_real, le_div_iff₀ (by norm_num)]
  exact (Nat.le_ceil _).trans (by exact_mod_cast counted)

namespace Scene

/-- What every move keeps. -/
structure Invariant (plan : LivePlan ℝ) (before : Device ℝ) (s : Scene ℝ) : Prop where
  plan_eq : s.loop.plan = plan
  unopened : s.loop.phase = .fresh → s.opening = none ∧ s.calls = []
  opened : s.loop.phase ≠ .fresh → ∃ clock, s.opening = some clock ∧
    s.loop.origin = clock + plan.leadIn
  laid : ∃ laid, s.loop.Ledger laid ∧
    s.calls.filter SinkCall.isGranted =
      SinkCall.script before.tones.nextId (laid.map Prod.snd) ∧
    s.device.tones = (laid.map Prod.snd).foldl ToneList.add before.tones
  reports : s.loop.Reports s.calls
  returns : ∀ passes, s.loop.phase = .ended (.ok passes) →
    s.loop.cancelled = true ∨ s.loop.plan.looping = false ∧ s.loop.passes = 1
  counted : s.begun.length = s.loop.passes + if s.loop.isMidPass then 1 else 0
  scheduled : s.loop.Scheduled s.now
  punctual : ∀ pass reading, s.begun[pass]? = some reading → 1 ≤ pass →
    s.loop.earliest pass ≤ reading

variable {plan : LivePlan ℝ} {before : Device ℝ} {s t : Scene ℝ}

theorem Invariant.launch (plan : LivePlan ℝ) (before : Device ℝ) (instant : Nat) :
    Invariant plan before (launch plan before instant) where
  plan_eq := rfl
  unopened _ := ⟨rfl, rfl⟩
  opened begun := absurd rfl begun
  laid := ⟨[], .ofPlan plan, rfl, rfl⟩
  reports := .ofPlan plan
  returns _ ended := nomatch ended
  counted := rfl
  scheduled := rfl
  punctual _ _ reading := nomatch reading

/-- A scene in which nothing has been begun has no readings. -/
theorem Invariant.begun_eq_nil (inv : Invariant plan before s) (fresh : s.loop.phase = .fresh) :
    s.begun = [] := by
  obtain ⟨laid, ledger, -⟩ := inv.laid
  have counted := inv.counted
  rw [ledger.none_fresh fresh] at counted
  simpa [LiveLoop.isMidPass, fresh] using counted

/-- The first pass of a loop that has opened begins a lead-in behind the clock of the first step. -/
theorem Invariant.origin_eq (inv : Invariant plan before s) {clock : ℝ}
    (opening : s.opening = some clock) : s.loop.origin = clock + plan.leadIn := by
  have begun : s.loop.phase ≠ .fresh := by
    intro fresh
    rw [(inv.unopened fresh).1] at opening
    cases opening
  obtain ⟨clock', opening', origin⟩ := inv.opened begun
  rw [opening] at opening'
  cases opening'
  exact origin

/-- A reading found after a step was there before, or is the one of the pass that the loop takes the
device for with the step. -/
theorem Invariant.reading_of_step (inv : Invariant plan before s) {loop : LiveLoop ℝ}
    {device : Device ℝ} (step : s.loop.Step s.instant s.device loop device) {pass : ℕ}
    {reading : ℝ} (noted : (s.after loop device).begun[pass]? = some reading) :
    s.begun[pass]? = some reading ∨
      pass = s.loop.passes ∧ reading = s.now ∧ s.loop.phase = .entering := by
  simp only [after] at noted
  split at noted
  · next takes =>
    simp only [Bool.and_eq_true, Bool.not_eq_true'] at takes
    have entering := (step.takes_device takes.2 takes.1).1
    have counted := inv.counted
    simp only [LiveLoop.isMidPass, entering, Bool.false_eq_true, if_false, Nat.add_zero] at counted
    rw [List.getElem?_append] at noted
    split at noted
    · exact .inl noted
    · obtain ⟨last, rfl⟩ := List.getElem?_eq_some_iff.mp noted
      simp only [List.length_singleton] at last
      exact .inr ⟨by omega, by simp, entering⟩
  · exact .inl noted

/-- A step of the loop. -/
theorem Invariant.step (inv : Invariant plan before s) (long : 0 < plan.pass.duration)
    {loop : LiveLoop ℝ} {device : Device ℝ}
    (step : s.loop.Step s.instant s.device loop device) :
    Invariant plan before (s.after loop device) where
  plan_eq := step.plan_eq.trans inv.plan_eq
  unopened fresh := absurd fresh step.phase_ne_fresh
  opened _ := by
    by_cases fresh : s.loop.phase = .fresh
    · have measured : ¬ s.loop.passLength ≤ Scalar.ofNat 0 := by
        rw [LiveLoop.passLength, inv.plan_eq]
        simpa using long
      refine ⟨s.now, by simp [after, (inv.unopened fresh).1], ?_⟩
      rw [← inv.plan_eq]
      exact step.origin_of_fresh fresh measured
    · obtain ⟨clock, opening, origin⟩ := inv.opened fresh
      exact ⟨clock, by simp [after, opening], (step.origin_eq fresh).trans origin⟩
  laid := by
    obtain ⟨laid, ledger, calls, tones⟩ := inv.laid
    refine ⟨_, step.ledger ledger, ?_, ?_⟩
    · have next : s.device.tones.nextId = before.tones.nextId + (laid.map Prod.snd).length := by
        rw [tones, ToneList.nextId_foldl_add]
      simp only [after, List.filter_append, calls, step.calls_granted, next, List.map_append,
        List.map_map, Function.comp_def, List.map_id', SinkCall.script_append]
    · simp only [after, step.tones_eq, tones, List.map_append, List.map_map, Function.comp_def,
        List.map_id', List.foldl_append]
  reports := by
    obtain ⟨laid, ledger, -⟩ := inv.laid
    exact step.reports ledger.none_fresh inv.reports
  returns passes ended := by
    have measured : 0 < s.loop.passLength := by rwa [LiveLoop.passLength, inv.plan_eq]
    exact step.told_or_single inv.scheduled measured ended
  counted := by
    have count := step.begun_count
    rw [← inv.counted] at count
    rw [after, ← count]
    dsimp only
    split <;> simp
  scheduled := step.scheduled inv.scheduled
  punctual pass reading noted late := by
    have begun : s.loop.phase ≠ .fresh := by
      intro fresh
      rcases inv.reading_of_step step noted with old | ⟨-, -, entering⟩
      · simp [inv.begun_eq_nil fresh] at old
      · rw [fresh] at entering
        cases entering
    have same : loop.earliest pass = s.loop.earliest pass := by
      simp only [LiveLoop.earliest, LiveLoop.passStart, LiveLoop.passLength, step.plan_eq,
        step.origin_eq begun]
    change loop.earliest pass ≤ reading
    rw [same]
    rcases inv.reading_of_step step noted with old | ⟨rfl, rfl, entering⟩
    · exact inv.punctual pass reading old late
    · -- the reading is the new one, and the schedule bounds it
      have scheduled := inv.scheduled
      simp only [LiveLoop.Scheduled, entering] at scheduled
      rcases scheduled with first | ⟨-, due⟩
      · omega
      · exact due

/-- Every move. -/
theorem Invariant.move (inv : Invariant plan before s) (long : 0 < plan.pass.duration)
    (move : Move s t) : Invariant plan before t := by
  cases move with
  | advance nanoseconds =>
    have order : s.now ≤ s.device.now (s.instant + nanoseconds) :=
      s.device.now_le (Nat.le_add_right _ _)
    exact { inv with scheduled := inv.scheduled.mono order }
  | suspend => exact { inv with }
  | resume =>
    refine { inv with scheduled := ?_ }
    have same : (s.device.resume s.instant).now s.instant = s.now := s.device.now_resume s.instant
    simpa only [now, same] using inv.scheduled
  | cancel =>
    obtain ⟨laid, ledger, calls, tones⟩ := inv.laid
    exact { inv with
      laid := ⟨laid, ledger.cancel, calls, tones⟩
      reports := inv.reports.cancel
      returns := fun _ _ => .inl rfl }
  | limit => exact { inv with }
  | step loop device taken => exact inv.step long (LiveLoop.step_of_step? taken)

theorem Invariant.run (inv : Invariant plan before s) (long : 0 < plan.pass.duration)
    (run : Run s t) : Invariant plan before t := by
  induction run with
  | refl => exact inv
  | tail _ move ih => exact ih.move long move

/-- The reading of the clock at the first step is not changed any more. -/
theorem opening_of_run {clock : ℝ} (run : Run s t) (opening : s.opening = some clock) :
    t.opening = some clock := by
  induction run with
  | refl => exact opening
  | tail _ move ih =>
    cases move with
    | step => simp [after, ih]
    | _ => exact ih

/-- A loop that has been told to stop begins no further pass. -/
theorem begun_eq_of_cancelled (run : Run s t) (told : s.loop.cancelled = true) :
    t.begun = s.begun ∧ t.loop.cancelled = true := by
  induction run with
  | refl => exact ⟨rfl, told⟩
  | @tail middle last _ move ih =>
    obtain ⟨begun, told⟩ := ih
    cases move with
    | step loop device taken =>
      have step := LiveLoop.step_of_step? taken
      refine ⟨?_, step.cancelled_eq.trans told⟩
      simp only [after]
      split
      · next takes =>
        simp only [Bool.and_eq_true, Bool.not_eq_true'] at takes
        have free := (step.takes_device takes.2 takes.1).2
        rw [told] at free
        cases free
      · exact begun
    | cancel => exact ⟨begun, rfl⟩
    | _ => exact ⟨begun, told⟩

/-- A loop in the middle of a pass gets to its end by its own steps, whoever has told it to stop,
unless the device refuses a tone; and one without limits refuses none. -/
theorem exists_advance_of_laying (later : List (Event ℝ)) (s : Scene ℝ)
    (laying : s.loop.phase = .laying later) :
    ∃ t, Advance s t ∧ t.begun = s.begun ∧ (t.loop = s.loop.passLaid ∨
      s.device.limits ≠ ⟨none, none⟩ ∧ ∃ fault, t.loop.outcome? = some (.error fault)) := by
  induction later generalizing s with
  | nil =>
    have taken : s.loop.step? s.instant s.device = some (s.loop.passLaid, s.device) := by
      simp only [LiveLoop.step?, laying]
    refine ⟨_, .single ⟨_, _, taken, rfl⟩, ?_, .inl rfl⟩
    simp [after, LiveLoop.holdsDevice, laying]
  | cons event later ih =>
    cases refusal : s.device.refusal? with
    | none =>
      have taken := LiveLoop.step?_of_takes laying refusal s.instant
      obtain ⟨t, advance, begun, ending⟩ :=
        ih (s.after { s.loop with phase := .laying later } (s.device.taken event)) rfl
      refine ⟨t, .head ⟨_, _, taken, rfl⟩ advance, begun.trans ?_, ending⟩
      simp [after, LiveLoop.holdsDevice, laying]
    | some fault =>
      have taken := LiveLoop.step?_of_refuses laying refusal s.instant
      refine ⟨_, .single ⟨_, _, taken, rfl⟩, ?_, .inr ⟨fun unlimited => ?_, fault, rfl⟩⟩
      · simp [after, LiveLoop.holdsDevice, laying]
      · rw [Device.refusal?_of_unlimited unlimited] at refusal
        cases refusal

section GoingOn

/-! How a loop that has not been told to stop comes to begin its next pass, phase by phase, if the
clock runs on and the device takes every tone. -/

theorem exists_goesOn_of_entering (s : Scene ℝ) (free : s.loop.cancelled = false)
    (entering : s.loop.phase = .entering) : ∃ t, GoesOn s t := by
  have taken : s.loop.step? s.instant s.device =
      some ({ s.loop with phase := .laying (s.loop.passEvents s.loop.passes) }, s.device) := by
    simp only [LiveLoop.step?, entering, free, Bool.false_eq_true, if_false]
  refine ⟨_, .single (.step s _ _ taken), ?_, rfl, free⟩
  simp [after, LiveLoop.holdsDevice, entering]

theorem exists_goesOn_of_checking (s : Scene ℝ) (free : s.loop.cancelled = false) {target : ℝ}
    (checking : s.loop.phase = .checking target false) : ∃ t, GoesOn s t := by
  let running : Scene ℝ := { s with device := s.device.resume s.instant }
  obtain ⟨nanoseconds, due⟩ :=
    running.device.exists_le_now (s.device.clock.isRunning_resume s.instant) target s.instant
  let late : Scene ℝ := { running with instant := s.instant + nanoseconds }
  have taken : late.loop.step? late.instant late.device =
      some ({ s.loop with phase := .entering }, late.device) := by
    have reached : target - late.device.now late.instant ≤ LiveLoop.tolerance := by
      rw [LiveLoop.tolerance_real]
      linarith
    simp only [late, running, LiveLoop.step?, checking, LiveLoop.check] at reached ⊢
    rw [if_pos reached]
    rfl
  have run : Run s (late.after { s.loop with phase := .entering } late.device) :=
    .head (.resume s) (.head (.advance running nanoseconds) (.single (.step late _ _ taken)))
  obtain ⟨t, goesOn⟩ := exists_goesOn_of_entering
    (late.after { s.loop with phase := .entering } late.device) free rfl
  exact ⟨t, goesOn.behind run (by simp [after, late, running, LiveLoop.holdsDevice])⟩

theorem exists_goesOn_of_resting (s : Scene ℝ) (free : s.loop.cancelled = false) {wake : Nat}
    {target : ℝ} (resting : s.loop.phase = .resting wake target false) : ∃ t, GoesOn s t := by
  let late : Scene ℝ := { s with instant := s.instant + wake }
  have taken : late.loop.step? late.instant late.device =
      some ({ s.loop with phase := .checking target false }, s.device) := by
    have due : wake ≤ s.instant + wake := Nat.le_add_left _ _
    simp only [late, LiveLoop.step?, resting, free, Bool.false_eq_true, if_false, if_pos due]
  have run : Run s (late.after { s.loop with phase := .checking target false } s.device) :=
    .head (.advance s wake) (.single (.step late _ _ taken))
  obtain ⟨t, goesOn⟩ := exists_goesOn_of_checking
    (late.after { s.loop with phase := .checking target false } s.device) free rfl
  exact ⟨t, goesOn.behind run (by simp [after, late, LiveLoop.holdsDevice])⟩

theorem exists_goesOn_of_laying (s : Scene ℝ) (free : s.loop.cancelled = false)
    (looping : s.loop.plan.looping = true) {later : List (Event ℝ)}
    (laying : s.loop.phase = .laying later) : ∃ t, GoesOn s t := by
  let unlimited : Scene ℝ := { s with device := s.device.limited ⟨none, none⟩ }
  obtain ⟨u, advance, begun, laid | ⟨limited, -⟩⟩ := exists_advance_of_laying later unlimited laying
  · have checking : u.loop.phase =
        .checking (s.loop.passStart (s.loop.passes + 1) - s.loop.plan.ahead) false := by
      rw [laid]
      exact if_pos looping
    have unmarked : u.loop.cancelled = false := by
      rw [laid]
      exact free
    obtain ⟨t, goesOn⟩ := exists_goesOn_of_checking u unmarked checking
    exact ⟨t, goesOn.behind (.head (.limit s ⟨none, none⟩) advance.run) begun⟩
  · exact absurd rfl limited

theorem Invariant.exists_goesOn (inv : Invariant plan before s) (long : 0 < plan.pass.duration)
    (free : s.loop.cancelled = false) (running : s.loop.isFinished = false)
    (more : plan.looping = true ∨ s.begun = []) : ∃ t, GoesOn s t := by
  have counted := inv.counted
  have scheduled := inv.scheduled
  -- a loop that repeats, or has begun nothing, does not wait for its end
  have open_ended {target : ℝ} {closing : Bool} (awaits : s.loop.Awaits target closing)
      (between : s.loop.isMidPass = false) : closing = false := by
    obtain ⟨closes, -, only⟩ := awaits
    rw [inv.plan_eq] at closes only
    cases looping : plan.looping with
    | true => rw [closes, looping, Bool.not_true]
    | false =>
      have nothing : s.begun = [] := by simpa [looping] using more
      rw [nothing, between, only looping] at counted
      cases counted
  cases phase : s.loop.phase with
  | fresh =>
    have measured : 0 < s.loop.passLength := by rwa [LiveLoop.passLength, inv.plan_eq]
    let opened : LiveLoop ℝ :=
      { s.loop with origin := s.now + s.loop.plan.leadIn, phase := .entering }
    have taken : s.loop.step? s.instant s.device = some (opened, s.device) := by
      simp only [LiveLoop.step?, phase, LiveLoop.begin_of_pos measured]
      rfl
    obtain ⟨t, goesOn⟩ := exists_goesOn_of_entering (s.after opened s.device) free rfl
    refine ⟨t, goesOn.behind (.single (.step s _ _ taken)) ?_⟩
    simp [after, opened, LiveLoop.holdsDevice]
  | checking target closing =>
    simp only [LiveLoop.Scheduled, phase] at scheduled
    obtain rfl := open_ended scheduled (by simp only [LiveLoop.isMidPass, phase])
    exact exists_goesOn_of_checking s free phase
  | resting wake target closing =>
    simp only [LiveLoop.Scheduled, phase] at scheduled
    obtain rfl := open_ended scheduled (by simp only [LiveLoop.isMidPass, phase])
    exact exists_goesOn_of_resting s free phase
  | entering => exact exists_goesOn_of_entering s free phase
  | laying later =>
    have looping : plan.looping = true := by
      refine more.resolve_right fun nothing => ?_
      simp [nothing, LiveLoop.isMidPass, phase] at counted
    exact exists_goesOn_of_laying s free (by rw [inv.plan_eq, looping]) phase
  | ended outcome => simp [LiveLoop.isFinished, phase] at running

/-- A loop that repeats can come to lay any number of passes. -/
theorem Invariant.exists_le_passes (inv : Invariant plan before s)
    (long : 0 < plan.pass.duration) (looping : plan.looping = true)
    (free : s.loop.cancelled = false) (running : s.loop.isFinished = false) (passes : ℕ) :
    ∃ t, Run s t ∧ passes ≤ t.loop.passes := by
  have begins : ∃ t, GoesOn s t ∧ passes < t.begun.length := by
    induction passes with
    | zero =>
      obtain ⟨t, goesOn⟩ := inv.exists_goesOn long free running (.inl looping)
      exact ⟨t, goesOn, Nat.zero_lt_of_lt goesOn.more⟩
    | succ passes ih =>
      obtain ⟨t, goesOn, begun⟩ := ih
      have unfinished := LiveLoop.isFinished_of_holdsDevice goesOn.holds
      obtain ⟨u, further⟩ :=
        (inv.run long goesOn.run).exists_goesOn long goesOn.free unfinished (.inl looping)
      have more := further.more
      exact ⟨u, ⟨goesOn.run.trans further.run, goesOn.more.trans more, further.holds,
        further.free⟩, by omega⟩
  obtain ⟨t, goesOn, begun⟩ := begins
  refine ⟨t, goesOn.run, ?_⟩
  have counted := (inv.run long goesOn.run).counted
  split at counted <;> omega

/-- So does a loop that repeats and takes its first step at once. -/
theorem exists_run_of_looping (looping : plan.looping = true) (long : 0 < plan.pass.duration)
    (device : Device ℝ) (instant passes : ℕ) :
    ∃ s, Run (launch plan device instant) s ∧ s.opening = some (device.now instant) ∧
      passes ≤ s.loop.passes := by
  let ready : LiveLoop ℝ :=
    { LiveLoop.ofPlan plan with origin := device.now instant + plan.leadIn, phase := .entering }
  have measured : 0 < (LiveLoop.ofPlan plan).passLength := long
  have begins : (LiveLoop.ofPlan plan).begin (device.now instant) = ready :=
    LiveLoop.begin_of_pos measured _
  have opens : Run (launch plan device instant) ((launch plan device instant).after ready device) :=
    .single (.step _ _ _ (by rw [← begins]; rfl))
  obtain ⟨s, run, laid⟩ := ((Invariant.launch plan device instant).run long opens).exists_le_passes
    long looping rfl rfl passes
  exact ⟨s, opens.trans run, opening_of_run run rfl, laid⟩

end GoingOn

/-! What the invariant says of the notes. -/

/-- The granted calls are those of whole passes and of the front of one more. -/
theorem Invariant.in_order (inv : Invariant plan before s) {clock : ℝ}
    (opening : s.opening = some clock) : ∃ part later,
    part ++ later = (plan.passAt (clock + plan.leadIn) s.loop.passes).events ∧
    s.calls.filter SinkCall.isGranted = SinkCall.script before.tones.nextId
      (plan.emission (clock + plan.leadIn) s.loop.passes ++ part) ∧
    (plan.emission (clock + plan.leadIn) s.loop.passes ++ part).foldlM ToneList.emit
      before.tones = .ok s.device.tones ∧
    (part ≠ [] → s.loop.isMidPass = true) := by
  obtain ⟨laid, ledger, calls, tones⟩ := inv.laid
  obtain ⟨part, later, joined, laid_eq, -, middle⟩ := ledger.laid_eq
  have events : laid.map Prod.snd =
      plan.emission (clock + plan.leadIn) s.loop.passes ++ part := by
    rw [laid_eq, List.map_append, LivePlan.map_snd_passesUpTo, inv.plan_eq, inv.origin_eq opening]
    simp only [List.map_map, Function.comp_def, List.map_id']
  refine ⟨part, later, ?_, ?_, ?_, middle⟩
  · rw [joined, ← inv.origin_eq opening, ← inv.plan_eq]
    rfl
  · rw [calls, events]
  · rw [ToneList.foldlM_emit, tones, events]

/-- A loop that does not repeat begins one pass at most. -/
theorem Invariant.length_begun_le (inv : Invariant plan before s) (single : plan.looping = false) :
    s.begun.length ≤ 1 := by
  rw [inv.counted]
  exact inv.scheduled.begun_le (by rw [inv.plan_eq, single])

/-- A loop that has returned with a fault has been refused its last call. -/
theorem Invariant.brokenOff (inv : Invariant plan before s) {fault : SoundFault}
    (outcome : s.loop.outcome? = some (.error fault)) : s.BrokenOff fault :=
  ⟨outcome, inv.reports.refused fault (LiveLoop.outcome?_eq_some_iff.mp outcome)⟩

/-- A loop that does not hold the device has laid all passes in full that it has begun, or has been
refused its last call. -/
theorem Invariant.finished (inv : Invariant plan before s) (idle : s.loop.holdsDevice = false) :
    s.begun.length = s.loop.passes ∨ ∃ fault, s.BrokenOff fault := by
  have counted := inv.counted
  cases middle : s.loop.isMidPass with
  | false =>
    rw [middle] at counted
    exact .inl counted
  | true =>
    unfold LiveLoop.isMidPass at middle
    split at middle
    · next later laying => simp [LiveLoop.holdsDevice, laying] at idle
    · next fault ended =>
      exact .inr ⟨fault, inv.brokenOff (LiveLoop.outcome?_eq_some_iff.mpr ended)⟩
    · cases middle

/-- What the notes taken of a scene hold, for a loop with the given plan on a device that was in the
given state before. -/
structure EmissionLaw (plan : LivePlan ℝ) (before : Device ℝ) (s : Scene ℝ) : Prop where
  /-- Before its first step the loop has asked for nothing. -/
  silent : s.opening = none → s.calls = [] ∧ s.begun = []
  /-- The granted calls are those of the passes laid in full and of the front of one more, which is
  empty unless the loop stands in the middle of that pass; the device has been given the same
  events. The first pass begins a lead-in behind the clock of the first step. -/
  in_order : ∀ clock, s.opening = some clock → ∃ part later,
    part ++ later = (plan.passAt (clock + plan.leadIn) s.loop.passes).events ∧
    s.calls.filter SinkCall.isGranted = SinkCall.script before.tones.nextId
      (plan.emission (clock + plan.leadIn) s.loop.passes ++ part) ∧
    (plan.emission (clock + plan.leadIn) s.loop.passes ++ part).foldlM ToneList.emit
      before.tones = .ok s.device.tones ∧
    (part ≠ [] → s.loop.isMidPass = true)
  /-- A pass ends where the next one begins. -/
  abutting : ∀ origin pass,
    (plan.passAt origin pass).finish = (plan.passAt origin (pass + 1)).start
  /-- The passes begun are those laid in full, and the one that the loop stands in. -/
  counted : s.begun.length = s.loop.passes + if s.loop.isMidPass then 1 else 0
  /-- No pass but the first is begun before the clock has come near its beginning. -/
  punctual : ∀ (clock : ℝ) (pass : ℕ) (reading : ℝ), s.opening = some clock →
    s.begun[pass]? = some reading → 1 ≤ pass →
    clock + plan.leadIn + pass * plan.pass.duration - plan.ahead - 1 / 1000000 ≤ reading
  /-- Once the loop has been told to stop, no pass is begun, whatever happens. -/
  obedient : s.loop.cancelled = true → ∀ t, Run s t → t.begun = s.begun
  /-- A loop that repeats, or has not begun yet, can come to begin one more pass as long as it has
  neither returned nor been told to stop. -/
  goes_on : s.loop.cancelled = false → s.loop.isFinished = false →
    (plan.looping = true ∨ s.begun = []) → ∃ t, GoesOn s t
  /-- A pass that has been begun is finished by the loop's own steps, whether the loop has been told
  to stop or not, unless the device refuses a tone. -/
  finishing : s.loop.holdsDevice = true → ∃ t, Advance s t ∧ t.begun = s.begun ∧
    (t.loop.passes = s.begun.length ∨ ∃ fault, t.BrokenOff fault)
  /-- So a loop that has let go of the device has finished all passes that it has begun. -/
  finished : s.loop.holdsDevice = false →
    s.begun.length = s.loop.passes ∨ ∃ fault, s.BrokenOff fault
  /-- A loop that does not repeat begins one pass at most. -/
  once : plan.looping = false → s.begun.length ≤ 1
  /-- A loop that returns tells the number of passes laid, and has left none unfinished. -/
  report : ∀ passes, s.loop.outcome? = some (.ok passes) →
    passes = s.loop.passes ∧ s.loop.isMidPass = false
  /-- It has been told to stop, or does not repeat and has laid its only pass. -/
  returns : ∀ passes, s.loop.outcome? = some (.ok passes) →
    s.loop.cancelled = true ∨ plan.looping = false ∧ passes = 1
  /-- A loop whose call has failed has returned with that failure. -/
  failing : ∀ call ∈ s.calls, ∀ fault, call.fault? = some fault →
    s.loop.outcome? = some (.error fault)
  /-- A loop returns with no other failure than that of its last call. -/
  broken : ∀ fault, s.loop.outcome? = some (.error fault) → s.BrokenOff fault

/-- Every run of a live loop obeys the emission law. -/
theorem emission_law (plan : LivePlan ℝ) (starts : plan.pass.start = 0)
    (long : 0 < plan.pass.duration) (before : Device ℝ) (instant : Nat) (s : Scene ℝ)
    (run : Run (launch plan before instant) s) : EmissionLaw plan before s := by
  have inv := (Invariant.launch plan before instant).run long run
  constructor
  case silent =>
    intro unopened
    have fresh : s.loop.phase = .fresh := by
      by_contra begun
      obtain ⟨clock, opening, -⟩ := inv.opened begun
      rw [unopened] at opening
      cases opening
    exact ⟨(inv.unopened fresh).2, inv.begun_eq_nil fresh⟩
  case in_order => exact fun clock opening => inv.in_order opening
  case abutting => exact plan.passAt_finish starts
  case counted => exact inv.counted
  case punctual =>
    intro clock pass reading opening noted late
    have bound := inv.punctual pass reading noted late
    simpa only [LiveLoop.earliest, LiveLoop.passStart, LiveLoop.passLength, inv.origin_eq opening,
      inv.plan_eq, Scalar.ofNat_real] using bound
  case obedient => exact fun told t later => (begun_eq_of_cancelled later told).1
  case goes_on => exact inv.exists_goesOn long
  case finishing =>
    intro holds
    unfold LiveLoop.holdsDevice at holds
    split at holds
    · next later laying =>
      obtain ⟨t, advance, begun, ending⟩ := exists_advance_of_laying later s laying
      have count := inv.counted
      simp only [LiveLoop.isMidPass, laying, if_true] at count
      refine ⟨t, advance, begun, ?_⟩
      rcases ending with laid | ⟨-, fault, outcome⟩
      · rw [laid, count]
        exact .inl rfl
      · exact .inr ⟨fault, (inv.run long advance.run).brokenOff outcome⟩
    · cases holds
  case finished => exact inv.finished
  case once => exact inv.length_begun_le
  case report =>
    intro passes outcome
    have ended := LiveLoop.outcome?_eq_some_iff.mp outcome
    exact ⟨inv.reports.counted passes ended, by simp only [LiveLoop.isMidPass, ended]⟩
  case returns =>
    intro passes outcome
    have ended := LiveLoop.outcome?_eq_some_iff.mp outcome
    have causes := inv.returns passes ended
    rwa [inv.plan_eq, ← inv.reports.counted passes ended] at causes
  case failing =>
    intro call member fault failed
    exact LiveLoop.outcome?_eq_some_iff.mpr (inv.reports.phase_eq member failed)
  case broken => exact fun fault => inv.brokenOff

/-- A note that lasts a second. -/
noncomputable def secondNote : Event ℝ := ⟨0, ⟨[]⟩, 0, 1, 1, ⟨1, 0, 1, 0, 0⟩⟩

/-- A plan to lay that note over and over. -/
noncomputable def oneNote : LivePlan ℝ := ⟨⟨0, 1, [], [secondNote]⟩, 0, true, 0⟩

/-- The law at a pass in whose middle the loop is told to stop: the loop goes on to its end. -/
theorem emission_law_oneNote : oneNote.pass.start = 0 ∧ 0 < oneNote.pass.duration ∧
    ∃ s, Run (launch oneNote (.new 8000) 0) s ∧ s.loop.cancelled = true ∧ s.loop.passes = 1 ∧
      s.calls.length = 2 ∧ EmissionLaw oneNote (.new 8000) s := by
  have long : 0 < oneNote.pass.duration := by simp [oneNote, Timeline.duration]
  let ready : LiveLoop ℝ := ⟨oneNote, (Device.new 8000).now 0 + 0, 0, .entering, false⟩
  let event := secondNote.shifted (ready.passStart 0)
  have measured : 0 < (LiveLoop.ofPlan oneNote).passLength := long
  have begins : (LiveLoop.ofPlan oneNote).begin ((Device.new 8000).now 0) = ready :=
    LiveLoop.begin_of_pos measured _
  have opens : (LiveLoop.ofPlan oneNote).step? 0 (.new 8000) = some (ready, .new 8000) := by
    rw [← begins]
    rfl
  let entered : LiveLoop ℝ := { ready with phase := .laying [event] }
  let laid : LiveLoop ℝ := { entered.cancel with phase := .laying [] }
  have enters : ready.step? 0 (.new 8000) = some (entered, .new 8000) := rfl
  have lays : entered.cancel.step? 0 (.new 8000) = some (laid, (Device.new 8000).taken event) := rfl
  have completes : laid.step? 0 ((Device.new 8000).taken event) =
      some (laid.passLaid, (Device.new 8000).taken event) := rfl
  have run : Run (launch oneNote (.new 8000) 0) _ :=
    ((((Relation.ReflTransGen.single (.step _ _ _ opens)).tail (.step _ _ _ enters)).tail
      (.cancel _)).tail (.step _ _ _ lays)).tail (.step _ _ _ completes)
  exact ⟨rfl, long, _, run, rfl, rfl, rfl, emission_law oneNote rfl long (.new 8000) 0 _ run⟩

end Scene

end Portamento
