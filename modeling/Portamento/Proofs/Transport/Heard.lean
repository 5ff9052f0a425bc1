import Portamento.Proofs.Score.Documented
import Portamento.Proofs.Transport.Recital

/-!
# What is heard of a performance

The loop of a performance and whoever looks at the clock both wait for times, and when the time of
both has come either may be first: so a loop can lay a tone after a look at the very instant at
which it should have been there.

No tone is ever logged twice, and one that has been passed over is never logged at all. That happens
to no tone that is laid a millisecond before it begins; and so it happens to none, if passes are
laid a millisecond ahead.
-/

namespace Portamento

namespace Recital

/-- A tone that a loop can lay after the time at which it is to be heard: not one of the first pass,
and one that begins less than a millisecond after the time from which the loop waits for it. -/
def Late (settings : Settings ℝ) (pass : Timeline ℝ) (mark : Mark ℝ) : Prop :=
  0 < mark.pass ∧ mark.event.start + settings.ahead <
    settings.leadIn + mark.pass * pass.duration + 1 / 1000

/-- How often each tone has been logged by the last look. -/
structure Told (settings : Settings ℝ) (r : Recital ℝ) : Prop where
  /-- No tone begins before its pass. -/
  placed : ∀ (id : Nat) (mark : Mark ℝ), r.marks[id]? = some mark →
    settings.leadIn + mark.pass * r.performance.pass.duration ≤ mark.event.start
  unborn : ∀ id, r.marks.length ≤ id → r.timesLogged id = 0
  ahead : ∀ id mark, r.marks[id]? = some mark → r.performance.last ≤ mark.event.start →
    r.timesLogged id = 0
  heard : ∀ id mark, r.marks[id]? = some mark → mark.event.start < r.performance.last →
    r.timesLogged id = 1 ∨ r.timesLogged id = 0 ∧ Late settings r.performance.pass mark

variable {settings : Settings ℝ} {seconds : ℝ} {r after : Recital ℝ} {loop : LiveLoop ℝ}
  {device : Device ℝ}

section Look

variable (playing : Playing settings r loop device)

include playing

/-- The look hears what has begun since the one before, and nothing else. -/
theorem Told.look (told : Told settings r) (seconds : ℝ) : Told settings (r.looked seconds) := by
  obtain ⟨last, pass, -⟩ := playing.looked_eq seconds
  have begins {id : Nat} {mark : Mark ℝ} (found : r.marks[id]? = some mark) (other : Mark ℝ)
      (same : r.marks[id]? = some other) : other.event.start = mark.event.start := by
    rw [found] at same
    cases same
    rfl
  constructor
  case placed =>
    rw [pass]
    exact told.placed
  case unborn =>
    intro id outside
    have outside : r.marks.length ≤ id := outside
    have none : ∀ mark, r.marks[id]? = some mark → mark.event.start = 0 := by
      intro mark found
      rw [List.getElem?_eq_none outside] at found
      cases found
    rw [playing.timesLogged_looked seconds none, told.unborn id outside, if_neg]
    exact fun inside => absurd inside.1 (Nat.not_lt.mpr outside)
  case ahead =>
    intro id mark found later
    rw [last] at later
    rw [playing.timesLogged_looked seconds (begins found),
      told.ahead id mark found (playing.last_le.trans later), if_neg]
    exact fun inside => absurd inside.2.2 later.not_gt
  case heard =>
    intro id mark found past
    rw [last] at past
    rw [playing.timesLogged_looked seconds (begins found), pass]
    by_cases fresh : r.performance.last ≤ mark.event.start
    · have inside := (List.getElem?_eq_some_iff.mp found).1
      rw [told.ahead id mark found fresh, if_pos ⟨inside, fresh, past⟩]
      exact .inl rfl
    · rw [if_neg fun inside => fresh inside.2.1]
      exact told.heard id mark found (not_le.mp fresh)

end Look

section Step

variable {next : LiveLoop ℝ} {device' : Device ℝ} (playing : Playing settings r loop device)
  (taken : loop.Step r.instant device next device')

include playing taken

/-- A tone that is laid behind the last look is one of a later pass, and begins less than a
millisecond after the time that the loop has waited for. -/
theorem Playing.late_of_granted {event : Event ℝ} (granted : event ∈ loop.granted device)
    (past : event.start < r.performance.last) :
    Late settings r.performance.pass ⟨0, loop.passes, event⟩ := by
  have begins := playing.start_of_granted taken granted
  have last := playing.last_le
  obtain ⟨opened, first | ⟨several, soon⟩⟩ := playing.inTime_of_granted granted
  · -- at the very beginning there is nothing behind the last look
    have leadIn : 0 ≤ settings.leadIn := by
      rw [← playing.leadIn_eq]
      exact playing.proper.leadIn
    have length : 0 < r.performance.pass.duration := by
      rw [← playing.pass_eq]
      exact playing.proper.long
    have before : 0 ≤ loop.passes * r.performance.pass.duration := by positivity
    linarith
  · rw [playing.passStart_eq opened, playing.ahead_eq] at soon
    have sooner : event.start + settings.ahead <
        settings.leadIn + loop.passes * r.performance.pass.duration + 1 / 1000 := by linarith
    exact ⟨several, sooner⟩

/-- A tone that a loop lays has not been logged, and is still to be heard unless it is late. -/
theorem Told.step (told : Told settings r) :
    Told settings (r.stepped 0 loop next device device') := by
  have marks : (r.stepped 0 loop next device device').marks =
    r.marks ++ (loop.granted device).map (⟨0, loop.passes, ·⟩) := rfl
  -- a mark is an old one, or that of a tone that has just been laid
  have cases_of {id : Nat} {mark : Mark ℝ}
      (found : (r.stepped 0 loop next device device').marks[id]? = some mark) :
      r.marks[id]? = some mark ∨ r.timesLogged id = 0 ∧
        ∃ event ∈ loop.granted device, mark = ⟨0, loop.passes, event⟩ := by
    rw [marks, List.getElem?_append] at found
    split at found
    · exact .inl found
    · next outside =>
      obtain ⟨event, granted, same⟩ := List.mem_map.mp (List.mem_of_getElem? found)
      exact .inr ⟨told.unborn id (Nat.not_lt.mp outside), event, granted, same.symm⟩
  constructor
  case placed =>
    intro id mark found
    rcases cases_of found with old | ⟨-, event, granted, rfl⟩
    · exact told.placed id mark old
    · exact playing.start_of_granted taken granted
  case unborn =>
    intro id outside
    rw [marks, List.length_append] at outside
    rw [timesLogged_stepped, told.unborn id (by omega)]
  case ahead =>
    intro id mark found later
    rw [timesLogged_stepped]
    rcases cases_of found with old | ⟨unlogged, -⟩
    · exact told.ahead id mark old later
    · exact unlogged
  case heard =>
    intro id mark found past
    rw [timesLogged_stepped]
    rcases cases_of found with old | ⟨unlogged, event, granted, rfl⟩
    · exact told.heard id mark old past
    · exact .inr ⟨unlogged, playing.late_of_granted taken granted past⟩

end Step

/-- Where a performance stands: it is on the way, or has been left at the time of its last look. -/
def OnTheWay (settings : Settings ℝ) (r : Recital ℝ) : Prop :=
  (∃ loop device, Playing settings r loop device) ∨
    r.result ≠ none ∧ r.performance.last = r.performance.transport.now r.instant

/-- Every move leaves each tone logged as often as it should be. -/
theorem Told.move (told : Told settings r) (way : OnTheWay settings r)
    (move : Move seconds r after) : Told settings after ∧ OnTheWay settings after := by
  have unfinished : r.result = none := by
    cases move <;> assumption
  rcases way with ⟨loop, device, playing⟩ | ⟨left, -⟩
  · cases move with
    | look =>
      refine ⟨told.look playing seconds, ?_⟩
      by_cases goes : (r.looked seconds).result = none
      · exact .inl ⟨loop, device, playing.look seconds goes⟩
      · obtain ⟨last, -, now⟩ := playing.looked_eq seconds
        exact .inr ⟨goes, last.trans now.symm⟩
    | step _ i found next device' after held numbered taken =>
      rw [playing.held] at held
      cases held
      rw [playing.alone, List.getElem?_singleton] at numbered
      split at numbered
      · next first =>
        cases numbered
        subst first
        have taken := LiveLoop.step_of_step? taken
        exact ⟨told.step playing taken, .inl ⟨next, after, playing.step taken⟩⟩
      · cases numbered
    | advance _ instant later look waits =>
      refine ⟨⟨told.placed, told.unborn, told.ahead, told.heard⟩, .inl ⟨loop, device, ?_⟩⟩
      exact playing.advance later (waits device playing.held loop (by simp [playing.alone]))
  · exact absurd unfinished left

/-- A tone that has been passed over is not logged by any move. -/
theorem timesLogged_of_past (way : OnTheWay settings r) (move : Move seconds r after) {id : Nat}
    {mark : Mark ℝ} (found : r.marks[id]? = some mark)
    (past : mark.event.start < r.performance.last) :
    after.marks[id]? = some mark ∧ mark.event.start < after.performance.last ∧
      after.timesLogged id = r.timesLogged id := by
  have unfinished : r.result = none := by
    cases move <;> assumption
  rcases way with ⟨loop, device, playing⟩ | ⟨left, -⟩
  · cases move with
    | look =>
      have passed : ∀ other, r.marks[id]? = some other →
          other.event.start < r.performance.last := by
        simpa [found] using past
      rw [playing.timesLogged_looked_of_past seconds passed, (playing.looked_eq seconds).1]
      exact ⟨found, past.trans_le playing.last_le, rfl⟩
    | step _ i found' next device' after' =>
      refine ⟨?_, past, timesLogged_stepped i id⟩
      exact (List.getElem?_append_left (List.getElem?_eq_some_iff.mp found).1).trans found
    | advance => exact ⟨found, past, rfl⟩
  · exact absurd unfinished left

/-- However a performance goes on, each tone is logged as often as it should be. -/
theorem Told.run (told : Told settings r) (way : OnTheWay settings r) (run : Run seconds r after) :
    Told settings after ∧ OnTheWay settings after := by
  induction run with
  | refl => exact ⟨told, way⟩
  | tail _ move ih => exact ih.1.move ih.2 move

/-- However a performance goes on, a tone that has been passed over is not logged any more. -/
theorem timesLogged_of_run (told : Told settings r) (way : OnTheWay settings r)
    (run : Run seconds r after) {id : Nat} {mark : Mark ℝ} (found : r.marks[id]? = some mark)
    (past : mark.event.start < r.performance.last) : after.timesLogged id = r.timesLogged id := by
  have passed : after.marks[id]? = some mark ∧ mark.event.start < after.performance.last ∧
      after.timesLogged id = r.timesLogged id := by
    induction run with
    | refl => exact ⟨found, past, rfl⟩
    | tail earlier move ih =>
      obtain ⟨found, past, same⟩ := ih
      have step := timesLogged_of_past (told.run way earlier).2 move found past
      exact ⟨step.1, step.2.1, step.2.2.trans same⟩
  exact passed.2.2

end Recital

section Begin

variable {settings : Settings ℝ} {text : List Char}

/-- When a performance is begun, no tone has been logged. -/
theorem Recital.Told.begun (score : Score ℝ) :
    Told settings (.ofPerformance (.begun settings text score)) :=
  ⟨fun _ _ found => (nomatch found), fun _ _ => rfl, fun _ _ found => (nomatch found),
    fun _ _ found => (nomatch found)⟩

/-- What has been logged of the tones that have been created, by the last look. -/
structure Recital.Faithful (settings : Settings ℝ) (r : Recital ℝ) : Prop where
  /-- A performance is left at the time of its last look. -/
  left : r.result ≠ none → r.performance.last = r.performance.transport.now r.instant
  /-- A tone that has begun has been logged once. If it has not been logged, then it was laid
  late. -/
  heard : ∀ id mark, r.marks[id]? = some mark → mark.event.start < r.performance.last →
    r.timesLogged id = 1 ∨ r.timesLogged id = 0 ∧ Late settings r.performance.pass mark
  /-- A tone that is still to begin has not been logged. -/
  ahead : ∀ id mark, r.marks[id]? = some mark → r.performance.last ≤ mark.event.start →
    r.timesLogged id = 0
  /-- Nothing is lost if passes are laid a millisecond ahead. -/
  complete : 1 / 1000 ≤ settings.ahead → ∀ id mark, r.marks[id]? = some mark →
    mark.event.start < r.performance.last → r.timesLogged id = 1

/-- However a performance and its loop take turns, every tone that begins before the performance is
left is logged once, unless it is laid late; and none is laid late if passes are laid a millisecond
ahead. -/
theorem Recital.logged_once_unless_late (settings : Settings ℝ) (valid : settings.validate = .ok ())
    (mode : settings.mode = .live) (text : List Char) (p : Performance ℝ)
    (begins : Performance.begin settings text 0 = .ok p) (seconds : ℝ) (r : Recital ℝ)
    (reached : Run seconds (.ofPerformance p) r) : Faithful settings r := by
  obtain ⟨score, reads, rfl⟩ := (Performance.begin_eq_ok_iff mode).mp begins
  have playing := Playing.begun (Settings.leadIn_nonneg valid) mode reads
  obtain ⟨told, way⟩ := (Told.begun score).run (.inl ⟨_, _, playing⟩) reached
  refine ⟨fun finished => ?_, told.heard, told.ahead, fun enough id mark found past => ?_⟩
  · rcases way with ⟨loop, device, playing⟩ | ⟨-, last⟩
    · exact absurd playing.unfinished finished
    · exact last
  · rcases told.heard id mark found past with once | ⟨-, -, late⟩
    · exact once
    · have placed := told.placed id mark found
      linarith

end Begin

namespace Recital

/-- A performance can have come to an instant, with the next look and the last one at these times,
with a loop that stands so, with the tones that have been marked, and without the tone with the
number 1 having been logged. -/
def Stands (settings : Settings ℝ) (p : Performance ℝ) (seconds : ℝ) (instant next : Nat) (last : ℝ)
    (loop : LiveLoop ℝ) (marks : List (Mark ℝ)) : Prop :=
  ∃ r device, Run seconds (.ofPerformance p) r ∧ Playing settings r loop device ∧
    device.limits = ⟨none, none⟩ ∧ r.instant = instant ∧ r.next = next ∧
    r.performance.last = last ∧ r.marks = marks ∧ r.timesLogged 1 = 0

namespace Stands

variable {settings : Settings ℝ} {p : Performance ℝ} {seconds : ℝ} {instant next : Nat} {last : ℝ}
  {loop : LiveLoop ℝ} {marks : List (Mark ℝ)}

/-- To look at the clock while the loop does not hold the device. -/
theorem look (stands : Stands settings p seconds instant next last loop marks)
    (due : next ≤ instant) (free : loop.holdsDevice = false) (plays : loop.outcome? = none)
    (more : ¬ seconds ≤ (instant : ℝ) / 1000000000)
    (gone : ∀ mark, marks[1]? = some mark → mark.event.start < last) :
    Stands settings p seconds instant (next + Performance.interval) (instant / 1000000000) loop
      marks := by
  obtain ⟨r, device, run, playing, limits, rfl, rfl, rfl, rfl, unlogged⟩ := stands
  have result : (r.looked seconds).result = none := by
    rw [playing.looked_result seconds plays, if_neg more]
  have silent : (r.looked seconds).timesLogged 1 = 0 := by
    rw [playing.timesLogged_looked_of_past seconds gone, unlogged]
  exact ⟨r.looked seconds, device, run.tail (playing.move_look due free),
    playing.look seconds result, limits, rfl, rfl, (playing.looked_eq seconds).1, rfl, silent⟩

/-- To look at the clock for the last time. -/
theorem close (stands : Stands settings p seconds instant next last loop marks)
    (due : next ≤ instant) (free : loop.holdsDevice = false) (plays : loop.outcome? = none)
    (enough : seconds ≤ (instant : ℝ) / 1000000000)
    (gone : ∀ mark, marks[1]? = some mark → mark.event.start < last) :
    ∃ r, Run seconds (.ofPerformance p) r ∧ r.result = some (.ok ()) ∧
      r.performance.transport.now r.instant = instant / 1000000000 ∧ r.marks = marks ∧
      r.timesLogged 1 = 0 := by
  obtain ⟨r, device, run, playing, limits, rfl, rfl, rfl, rfl, unlogged⟩ := stands
  have silent : (r.looked seconds).timesLogged 1 = 0 := by
    rw [playing.timesLogged_looked_of_past seconds gone, unlogged]
  have result : (r.looked seconds).result = some (.ok ()) := by
    rw [playing.looked_result seconds plays, if_pos enough]
  exact ⟨r.looked seconds, run.tail (playing.move_look due free), result,
    (playing.looked_eq seconds).2.2, rfl, silent⟩

/-- A step that leaves the device as it is. -/
theorem step {after : LiveLoop ℝ} (stands : Stands settings p seconds instant next last loop marks)
    (nothing : ∀ device, loop.granted device = [])
    (taken : ∀ device : Device ℝ, device.now instant = (instant : ℝ) / 1000000000 →
      loop.step? instant device = some (after, device)) :
    Stands settings p seconds instant next last after marks := by
  obtain ⟨r, device, run, playing, limits, rfl, rfl, rfl, rfl, unlogged⟩ := stands
  have takes := taken device (playing.now_eq r.instant)
  have numbered : r.performance.transport.loops[0]? = some loop := by rw [playing.alone]; rfl
  have move : Move seconds r (r.stepped 0 loop after device device) :=
    .step playing.unfinished 0 loop after device device playing.held numbered takes
  refine ⟨_, device, run.tail move, playing.step (LiveLoop.step_of_step? takes), limits, rfl, rfl,
    rfl, ?_, ?_⟩
  · show r.marks ++ _ = _
    rw [nothing, List.map_nil, List.append_nil]
  · rw [timesLogged_stepped, unlogged]

/-- To lay a tone. -/
theorem lay {event : Event ℝ} {later : List (Event ℝ)}
    (stands : Stands settings p seconds instant next last loop marks)
    (laying : loop.phase = .laying (event :: later)) :
    Stands settings p seconds instant next last { loop with phase := .laying later }
      (marks ++ [⟨0, loop.passes, event⟩]) := by
  obtain ⟨r, device, run, playing, limits, rfl, rfl, rfl, rfl, unlogged⟩ := stands
  have takes : device.refusal? = none := by
    simp only [Device.refusal?, limits, Device.isBeyond, Bool.false_eq_true, if_false]
  have numbered : r.performance.transport.loops[0]? = some loop := by rw [playing.alone]; rfl
  have taken : loop.step? r.instant device =
      some ({ loop with phase := .laying later }, device.taken event) := by
    simp only [LiveLoop.step?, laying, Device.emit_of_no_refusal takes]
  have granted : loop.granted device = [event] := by
    simp only [LiveLoop.granted, laying, Device.create_of_no_refusal takes]
  refine ⟨_, _, run.tail (.step playing.unfinished 0 loop _ device _ playing.held numbered taken),
    playing.step (LiveLoop.step_of_step? taken), limits, rfl, rfl, rfl, ?_, ?_⟩
  · show r.marks ++ _ = _
    rw [granted]
    rfl
  · rw [timesLogged_stepped, unlogged]

/-- To sleep, but not for too long. -/
theorem sleep {wake : Nat} {target : ℝ} {closing : Bool} {later : Nat}
    (stands : Stands settings p seconds instant next last loop marks)
    (resting : loop.phase = .resting wake target closing) (free : loop.cancelled = false)
    (order : instant ≤ later) (look : later ≤ next) (wakes : later ≤ wake) :
    Stands settings p seconds later next last loop marks := by
  obtain ⟨r, device, run, playing, limits, rfl, rfl, rfl, rfl, unlogged⟩ := stands
  have asleep (earlier : Nat) (before : earlier < later) : loop.step? earlier device = none := by
    have early : ¬ wake ≤ earlier := by omega
    simp only [LiveLoop.step?, resting, free, Bool.false_eq_true, if_false, early]
  have move : Move seconds r { r with instant := later } := by
    refine .advance playing.unfinished later order look fun other held loop' member earlier _ => ?_
    rw [playing.held] at held
    cases held
    rw [playing.alone] at member
    rw [List.mem_singleton.mp member]
    exact asleep earlier
  exact ⟨_, device, run.tail move, playing.advance order fun earlier _ => asleep earlier, limits,
    rfl, rfl, rfl, rfl, unlogged⟩

end Stands

section Hasty

/-! A note that is repeated twenty times a second, and is laid when it is to be heard. -/

/-- Settings under which a beat takes a bit less than the time between two looks. -/
noncomputable def hastySettings : Settings ℝ :=
  { Settings.usual with mode := .live, tempo := 40000 / 33, ahead := 0 }

theorem validate_hastySettings : hastySettings.validate = .ok () := by
  have positive : ¬ (40000 / 33 : ℝ) ≤ 0 := by norm_num
  simp [Settings.validate, hastySettings, Settings.usual, Settings.isLength, Scalar.isFinite,
    positive]

noncomputable def hastyScore : Score ℝ :=
  ⟨40000 / 33, [⟨['a'], chordSeconds none (40000 / 33), [[Note.hertz (.pitch .a none none)]]⟩]⟩

theorem read_hastyScore : Score.read ['a'] (40000 / 33 : ℝ) = .ok hastyScore := by
  have token : TokenText [[.pitch .a none none]] none ['a'] :=
    .beat _ (.plain _ (.single _ _ (.bare _ (.single _ _
      (.pitch 'a' .a (.inr rfl) none [] .natural none [] .usual)))))
  have playable : Playable ℝ [[.pitch .a none none]] := by
    refine ⟨by decide, .inr ?_⟩
    simp only [List.forall_mem_cons, List.not_mem_nil, false_implies, implies_true, and_true,
      isPlayable_usual]
  have means : Chord.Means (40000 / 33 : ℝ) ['a']
      ⟨['a'], chordSeconds none (40000 / 33), [[Note.hertz (.pitch .a none none)]]⟩ :=
    ⟨rfl, [[.pitch .a none none]], none, token, playable, Chord.lasts_iff.mpr rfl,
      fun rest => absurd rest (by decide), fun _ => rfl⟩
  exact Score.read_eq_ok.mpr ⟨rfl, by norm_num, [['a']], rfl, by simp, rfl,
    .cons (Chord.read_eq_ok_iff_means.mpr means) .nil⟩

/-- What is to be played. -/
noncomputable def hastyPlan : LivePlan ℝ where
  pass := .ofScore hastySettings.shape hastyScore (Scalar.ofNat 0)
  leadIn := Scalar.ofNat 0
  looping := true
  ahead := 0

/-- The loop once it has opened. -/
noncomputable def hastyLoop (passes : Nat) (phase : LivePhase ℝ) : LiveLoop ℝ :=
  ⟨hastyPlan, 0, passes, phase, false⟩

theorem passLength_hastyPlan : hastyPlan.pass.duration = 99 / 2000 := by
  have length : hastyPlan.pass.duration = (0 : ℕ) + chordSeconds none (40000 / 33) - (0 : ℕ) := rfl
  rw [length]
  norm_num [chordSeconds, beatSeconds]

theorem passStart_hastyLoop (passes pass : Nat) (phase : LivePhase ℝ) :
    (hastyLoop passes phase).passStart pass = pass * (99 / 2000) := by
  have start : (hastyLoop passes phase).passStart pass = 0 + pass * hastyPlan.pass.duration := rfl
  rw [start, passLength_hastyPlan, zero_add]

/-- The only event of a pass. -/
noncomputable def hastyEvent (pass : Nat) : Event ℝ :=
  ((hastyLoop pass .entering).passEvents pass).head (List.cons_ne_nil _ _)

theorem start_hastyEvent (pass : Nat) : (hastyEvent pass).start = pass * (99 / 2000) := by
  have start : (hastyEvent pass).start = (0 : ℕ) + (hastyLoop pass .entering).passStart pass := rfl
  rw [start, passStart_hastyLoop, Nat.cast_zero, zero_add]

/-- Where the performance of that note for a tenth of a second can have come to. -/
abbrev HastyStands (instant next : Nat) (last : ℝ) (loop : LiveLoop ℝ) (marks : List (Mark ℝ)) :
    Prop :=
  Stands hastySettings (.begun hastySettings ['a'] hastyScore) (1 / 10) instant next last loop marks

variable {instant next : Nat} {last : ℝ} {marks : List (Mark ℝ)}

theorem hasty_opens : HastyStands 0 0 0 (hastyLoop 0 .entering) [] := by
  have fresh : HastyStands 0 0 0 (Performance.firstLoop hastySettings ['a'] hastyScore) [] := by
    have leadIn : 0 ≤ hastySettings.leadIn := Nat.cast_nonneg 0
    exact ⟨_, _, .refl, .begun leadIn rfl read_hastyScore, rfl, rfl, rfl, Nat.cast_zero, rfl, rfl⟩
  refine fresh.step (fun _ => rfl) fun device now => ?_
  have origin : device.now 0 + hastyPlan.leadIn = 0 := by simp [now, hastyPlan]
  have opens : (Performance.firstLoop hastySettings ['a'] hastyScore).begin (device.now 0) =
      { hastyLoop 0 .entering with origin := device.now 0 + hastyPlan.leadIn } :=
    LiveLoop.begin_of_pos (LivePlan.laid_ofScore read_hastyScore _ rfl).2.2 _
  rw [origin] at opens
  show some (_, device) = some (_, device)
  rw [opens]
  rfl

/-- A pass is laid without a break. -/
theorem hasty_pass {pass : Nat}
    (stands : HastyStands instant next last (hastyLoop pass .entering) marks) :
    HastyStands instant next last
      (hastyLoop (pass + 1) (.checking ((pass + 1 : ℕ) * (99 / 2000)) false))
      (marks ++ [⟨0, pass, hastyEvent pass⟩]) := by
  have entered : HastyStands instant next last (hastyLoop pass (.laying [hastyEvent pass])) marks :=
    stands.step (fun _ => rfl) fun device _ => rfl
  have laid : HastyStands instant next last (hastyLoop pass (.laying []))
      (marks ++ [⟨0, pass, hastyEvent pass⟩]) := entered.lay rfl
  refine laid.step (fun _ => rfl) fun device _ => ?_
  have target : (hastyLoop pass (.laying [])).passStart (pass + 1) - 0 =
      (pass + 1 : ℕ) * (99 / 2000) := by rw [passStart_hastyLoop, sub_zero]
  rw [← target]
  rfl

/-- A loop that comes before its time goes to sleep. -/
theorem hasty_rests {pass : Nat} {target : ℝ} (rest : Nat)
    (stands : HastyStands instant next last (hastyLoop pass (.checking target false)) marks)
    (ahead : target - (instant : ℝ) / 1000000000 = rest / 1000000000)
    (long : 1000 < rest) (short : rest ≤ 50000000) :
    HastyStands instant next last
      (hastyLoop pass (.resting (LiveLoop.wakeInstant (instant + rest)) target false)) marks := by
  refine stands.step (fun _ => rfl) fun device now => ?_
  have early : ¬ (rest : ℝ) / 1000000000 ≤ LiveLoop.tolerance := by
    have long : (1000 : ℝ) < rest := by exact_mod_cast long
    rw [LiveLoop.tolerance_real]
    linarith
  have shortest : Scalar.min ((rest : ℝ) / 1000000000) LiveLoop.longestRest =
      (rest : ℝ) / 1000000000 := by
    have short : (rest : ℝ) ≤ 50000000 := by exact_mod_cast short
    rw [Scalar.min_real, min_eq_left]
    rw [LiveLoop.longestRest, Scalar.ratio_real]
    linarith
  simp only [hastyLoop, LiveLoop.step?, LiveLoop.check, now, ahead, if_neg early, shortest,
    Scalar.nanoseconds_div]

/-- A loop that is woken at its time, or after it, begins the next pass. -/
theorem hasty_enters {pass wake : Nat} {target : ℝ}
    (stands : HastyStands instant next last (hastyLoop pass (.resting wake target false)) marks)
    (due : wake ≤ instant) (past : target ≤ (instant : ℝ) / 1000000000) :
    HastyStands instant next last (hastyLoop pass .entering) marks := by
  have woken : HastyStands instant next last (hastyLoop pass (.checking target false)) marks := by
    refine stands.step (fun _ => rfl) fun device _ => ?_
    simp only [hastyLoop, LiveLoop.step?, Bool.false_eq_true, if_false, if_pos due]
  refine woken.step (fun _ => rfl) fun device now => ?_
  have come : target - (instant : ℝ) / 1000000000 ≤ LiveLoop.tolerance := by
    rw [LiveLoop.tolerance_real]
    linarith
  simp only [hastyLoop, LiveLoop.step?, LiveLoop.check, now, if_pos come, LiveLoop.arrive,
    Bool.false_eq_true, if_false]

/-- The second note of that performance is laid just after a look at the instant at which it should
have been there. -/
theorem run_hasty : ∃ r : Recital ℝ,
    Run (1 / 10) (.ofPerformance (.begun hastySettings ['a'] hastyScore)) r ∧
      r.result = some (.ok ()) ∧ r.performance.transport.now r.instant = 1 / 10 ∧
      r.marks = [⟨0, 0, hastyEvent 0⟩, ⟨0, 1, hastyEvent 1⟩, ⟨0, 2, hastyEvent 2⟩] ∧
      r.timesLogged 1 = 0 := by
  -- the first note is laid at once, and the loop sleeps until the second look
  have asleep : HastyStands 0 0 0
      (hastyLoop 1 (.resting 50000000 ((1 : ℕ) * (99 / 2000)) false)) [⟨0, 0, hastyEvent 0⟩] :=
    hasty_rests 49500000 (hasty_pass hasty_opens) (by norm_num) (by norm_num) (by norm_num)
  have woken := (asleep.look le_rfl rfl rfl (by norm_num) fun _ none => nomatch none).sleep
    rfl rfl (Nat.zero_le 50000000) le_rfl le_rfl
  -- at that instant the look comes first, and then the loop lays the second note
  have late := hasty_pass (hasty_enters
    (woken.look le_rfl rfl rfl (by norm_num) fun _ none => nomatch none) le_rfl (by norm_num))
  have onTime := (hasty_rests 49000000 late (by norm_num) (by norm_num) (by norm_num)).sleep
    rfl rfl (by norm_num : 50000000 ≤ 99000000) (by decide) le_rfl
  -- the third note is laid in time, and with the third look, which is the last, nothing is mended
  have third := hasty_pass (hasty_enters onTime le_rfl (by norm_num))
  have ending := (hasty_rests 49500000 third (by norm_num) (by norm_num) (by norm_num)).sleep
    rfl rfl (by norm_num : 99000000 ≤ 100000000) (by decide) (by decide)
  have passed (mark : Mark ℝ) (found : some ⟨0, 1, hastyEvent 1⟩ = some mark) :
      mark.event.start < (50000000 : ℕ) / 1000000000 := by
    cases found
    rw [start_hastyEvent]
    norm_num
  obtain ⟨r, run, result, now, marks, unlogged⟩ :=
    ending.close (by decide) rfl rfl (by norm_num) passed
  refine ⟨r, run, result, ?_, marks, unlogged⟩
  rw [now]
  norm_num

/-- The law at a performance that is over. -/
theorem logged_once_unless_late_hasty : ∃ r : Recital ℝ,
    hastySettings.validate = .ok () ∧ hastySettings.mode = .live ∧
      Performance.begin hastySettings ['a'] 0 = .ok (.begun hastySettings ['a'] hastyScore) ∧
      Run (1 / 10) (.ofPerformance (.begun hastySettings ['a'] hastyScore)) r ∧
      r.result = some (.ok ()) ∧ r.marks.length = 3 ∧ Faithful hastySettings r := by
  obtain ⟨r, run, result, -, marks, -⟩ := run_hasty
  have begins : Performance.begin hastySettings ['a'] 0 =
      .ok (.begun hastySettings ['a'] hastyScore) := Performance.begin_of_read rfl read_hastyScore
  exact ⟨r, validate_hastySettings, rfl, begins, run, result, by rw [marks]; rfl,
    logged_once_unless_late hastySettings validate_hastySettings rfl ['a'] _ begins (1 / 10) r run⟩

/-- A performance is left after a tenth of a second, and the second note, which has begun before
that, has not been logged. -/
theorem a_note_lost : ∃ p : Performance ℝ, ∃ r : Recital ℝ,
    hastySettings.validate = .ok () ∧ hastySettings.mode = .live ∧
      Performance.begin hastySettings ['a'] 0 = .ok p ∧ Run (1 / 10) (.ofPerformance p) r ∧
      r.result = some (.ok ()) ∧ ∃ mark, r.marks[1]? = some mark ∧ 0 ≤ mark.event.start ∧
        mark.event.start < r.performance.transport.now r.instant ∧ r.timesLogged 1 = 0 := by
  obtain ⟨r, run, result, now, marks, unlogged⟩ := run_hasty
  refine ⟨_, r, validate_hastySettings, rfl, Performance.begin_of_read rfl read_hastyScore, run,
    result, ⟨0, 1, hastyEvent 1⟩, by rw [marks]; rfl, ?_, ?_, unlogged⟩
  · rw [start_hastyEvent]
    positivity
  · rw [start_hastyEvent, now]
    norm_num

end Hasty

end Recital

end Portamento
