import Portamento.Proofs.Live.Punctual
import Portamento.Proofs.Transport.World

/-!
# Performances and their loops, in turns

A performance looks at the clock at regular instants, and logs the tones that have begun between its
last look and this one. Beside it a live loop lays its passes. Both wait for times, and when the
time of both has come either may be first: so a loop can lay a tone after a look at the very instant
at which it should have been there.

Here a performance and its loops are moved on in any order, as long as nobody is kept waiting. For a
performance with one loop it is said what each move does to the loop, to the device and to what has
been logged of the tones.
-/

namespace Portamento

/-- Whether a notice tells of the tone with the given number. -/
def Notice.announces {α : Type} (id : Nat) : Notice α → Bool
  | .toneBegan _ number _ _ => number == id
  | _ => false

/-- A performance on the way, with its live loops. -/
structure Recital (α : Type) where
  instant : Nat
  performance : Performance α
  /-- The instant of the next look. -/
  next : Nat
  /-- The result, when the performance has been left. -/
  result : Option (Except SoundFault Unit)
  /-- The marks of all tones that have been created, in the order of their numbers. -/
  marks : List (Mark α)

namespace Recital

variable {α : Type} [Tonal α]

/-- A performance that has been begun, and has not looked at the clock yet. -/
def ofPerformance (performance : Performance α) : Recital α := ⟨0, performance, 0, none, []⟩

/-- The recital after a look at the clock. -/
def looked (r : Recital α) (seconds : α) : Recital α :=
  { r with
    performance := (r.performance.look seconds r.instant).1
    next := r.next + Performance.interval
    result := (r.performance.look seconds r.instant).2 }

/-- The recital after a step of a loop on the device. -/
def stepped (r : Recital α) (i : Nat) (loop next : LiveLoop α) (device after : Device α) :
    Recital α :=
  { r with
    performance := { r.performance with
      transport := { r.performance.transport with
        device := some after
        loops := r.performance.transport.loops.set i next
        logged := r.performance.transport.logged.addAll (loop.words next) } }
    marks := r.marks ++ (loop.granted device).map (⟨i, loop.passes, ·⟩) }

/-- What can happen until a performance of so many seconds is left: it looks at the clock, a loop
takes a step, or time passes while nobody is kept waiting. -/
inductive Move (seconds : α) (r : Recital α) : Recital α → Prop where
  | look (unfinished : r.result = none) (due : r.next ≤ r.instant)
      (free : r.performance.transport.IsFree) : Move seconds r (r.looked seconds)
  | step (unfinished : r.result = none) (i : Nat) (loop next : LiveLoop α)
      (device after : Device α) (held : r.performance.transport.device = some device)
      (numbered : r.performance.transport.loops[i]? = some loop)
      (taken : loop.step? r.instant device = some (next, after)) :
      Move seconds r (r.stepped i loop next device after)
  | advance (unfinished : r.result = none) (instant : Nat) (later : r.instant ≤ instant)
      (look : instant ≤ r.next)
      (waits : ∀ device, r.performance.transport.device = some device →
        ∀ loop ∈ r.performance.transport.loops, ∀ earlier, r.instant ≤ earlier →
          earlier < instant → loop.step? earlier device = none) :
      Move seconds r { r with instant }

/-- Any number of moves, in any order. -/
abbrev Run (seconds : α) : Recital α → Recital α → Prop := Relation.ReflTransGen (Move seconds)

/-- How often a tone has been logged. -/
def timesLogged (r : Recital α) (id : Nat) : Nat :=
  r.performance.transport.notices.countP (Notice.announces id)

end Recital

section Look

variable {α : Type} [Tonal α]

/-- The notices of some tones tell of a tone as often as it is among them. -/
theorem Notice.announces_toneNotice (id : Nat) (tone : Tone α) :
    Notice.announces id (Performance.toneNotice tone) = (tone.id == id) := rfl

omit [Tonal α] in
/-- A loop says nothing of tones. -/
theorem LiveLoop.countP_words (before next : LiveLoop α) (id : Nat) :
    (before.words next).countP (Notice.announces id) = 0 := by
  unfold LiveLoop.words
  split <;> rfl

/-- To end a session changes neither the clock nor what has been logged. -/
theorem Transport.teardown_frame (t : Transport α) (instant : Nat) :
    (t.teardown instant).now instant = t.now instant ∧ (t.teardown instant).logged = t.logged := by
  unfold Transport.teardown
  split
  · exact ⟨rfl, rfl⟩
  · obtain ⟨loops, eq, -⟩ := t.revoke_eq
    rw [eq]
    refine ⟨?_, rfl⟩
    cases held : t.device with
    | none => simp [Transport.now, Transport.silence, Transport.onDevice, held]
    | some device =>
      simp only [Transport.now, Transport.silence, Transport.onDevice, held, Option.map_some]
      rfl

/-- To ask for the result of a loop changes neither the clock nor what has been logged of tones; and
if there is none, it changes nothing. -/
theorem Transport.pollLive_frame (t : Transport α) (instant : Nat) :
    (t.pollLive instant).1.now instant = t.now instant ∧
      (∀ id, (t.pollLive instant).1.notices.countP (Notice.announces id) =
        t.notices.countP (Notice.announces id)) ∧
      ((t.pollLive instant).2 = .ok none → (t.pollLive instant).1 = t) := by
  obtain ⟨now, logged⟩ := t.teardown_frame instant
  have kept (notice : Notice α) (silent : ∀ id, notice.announces id = false) (id : Nat) :
      ((t.teardown instant).log notice).notices.countP (Notice.announces id) =
        t.notices.countP (Notice.announces id) := by
    simp only [notices, log, logged, Log.notices_add, List.countP_append, List.countP_singleton,
      silent, Bool.false_eq_true, if_false, Nat.add_zero]
  unfold pollLive
  split
  · exact ⟨rfl, fun _ => rfl, fun _ => rfl⟩
  · exact ⟨now, kept _ fun _ => rfl, fun none => nomatch none⟩
  · exact ⟨now, kept _ fun _ => rfl, fun none => nomatch none⟩

/-- What a look does in live mode. -/
theorem Performance.look_live {p : Performance α} {device : Device α}
    (held : p.transport.device = some device) (mode : p.transport.settings.mode = .live)
    (seconds : α) (instant : Nat) : ∃ transport,
    (p.look seconds instant).1 = ⟨transport, p.pass, device.now instant, p.slot⟩ ∧
      transport.now instant = device.now instant ∧
      (∀ id, transport.notices.countP (Notice.announces id) =
        p.transport.notices.countP (Notice.announces id) +
          ((device.tones.startingBetween p.last (device.now instant)).map toneNotice).countP
            (Notice.announces id)) ∧
      ((p.look seconds instant).2 = none → transport = { p.transport with
        logged := p.transport.logged.addAll
          ((device.tones.startingBetween p.last (device.now instant)).map toneNotice) }) ∧
      (p.transport.sessionLoop?.bind LiveLoop.outcome? = none → (p.look seconds instant).2 =
        if seconds ≤ device.now instant then some (.ok ()) else none) := by
  let heard := (device.tones.startingBetween p.last (device.now instant)).map toneNotice
  let told : Transport α := { p.transport with logged := p.transport.logged.addAll heard }
  have now : p.transport.now instant = device.now instant := by
    simp only [Transport.now, held]
  have logs : p.logTones (device.now instant) = { p with transport := told } := by
    unfold logTones
    split
    · next none =>
      rw [held] at none
      cases none
    · next found same =>
      rw [held] at same
      cases same
      rfl
  obtain ⟨now', count, same⟩ := told.pollLive_frame instant
  refine ⟨(told.pollLive instant).1, ?_, now'.trans now, fun id => ?_, fun unfinished => ?_,
    fun plays => ?_⟩
  · simp only [look, now, mode, logs]
    split <;> next polled => rw [polled]
  · rw [count]
    simp only [told, Transport.notices, Log.notices_addAll, List.countP_append]
    rfl
  · refine same ?_
    simp only [look, now, mode, logs] at unfinished
    split at unfinished
    · cases unfinished
    · cases unfinished
    · next polled => rw [polled]
  · have polled : told.pollLive instant = (told, .ok none) := by
      have plays' : told.sessionLoop?.bind LiveLoop.outcome? = none := plays
      simp only [Transport.pollLive, plays']
    simp only [look, now, mode, logs, polled]

end Look

namespace Recital

section Count

variable {tones : List (Tone ℝ)} {count id : Nat}

/-- Of tones that are numbered in a row, each is there once. -/
theorem countP_id (numbered : tones.map Tone.id = List.range count) :
    tones.countP (fun tone => tone.id == id) = if id < count then 1 else 0 := by
  have ids : tones.countP (fun tone => tone.id == id) = (List.range count).count id := by
    rw [← numbered, List.count, List.countP_map]
    rfl
  rw [ids]
  split
  · next inside => exact List.count_eq_one_of_mem List.nodup_range (List.mem_range.mpr inside)
  · next outside => exact List.count_eq_zero_of_not_mem (mt List.mem_range.mp outside)

/-- Of the notices of some of these tones, one tells of a tone if that is among them. -/
theorem countP_toneNotice (numbered : tones.map Tone.id = List.range count) (low high start : ℝ)
    (begins : ∀ tone ∈ tones, tone.id = id → tone.start = start) :
    ((tones.filter fun tone => decide (low ≤ tone.start ∧ tone.start < high)).map
      Performance.toneNotice).countP (Notice.announces id) =
        if id < count ∧ low ≤ start ∧ start < high then 1 else 0 := by
  have same : ((tones.filter fun tone => decide (low ≤ tone.start ∧ tone.start < high)).map
      Performance.toneNotice).countP (Notice.announces id) =
        tones.countP fun tone => tone.id == id && decide (low ≤ start ∧ start < high) := by
    rw [List.countP_map, List.countP_filter]
    refine List.countP_congr fun tone member => ?_
    simp only [Function.comp_apply, Notice.announces_toneNotice, Bool.and_eq_true, beq_iff_eq,
      decide_eq_true_eq]
    exact and_congr_right fun ours => by rw [begins tone member ours]
  rw [same]
  by_cases inside : low ≤ start ∧ start < high
  · simp only [inside, and_true, decide_true, Bool.and_true]
    exact countP_id numbered
  · simp [inside]

end Count

/-- A performance on the way, whose loop has never been kept waiting. -/
structure Playing (settings : Settings ℝ) (r : Recital ℝ) (loop : LiveLoop ℝ)
    (device : Device ℝ) : Prop where
  unfinished : r.result = none
  held : r.performance.transport.device = some device
  alone : r.performance.transport.loops = [loop]
  current : r.performance.transport.current? = some 0
  mode : r.performance.transport.settings.mode = .live
  clock : device.clock = ⟨some 0, 0⟩
  proper : loop.plan.Proper
  leadIn_eq : loop.plan.leadIn = settings.leadIn
  ahead_eq : loop.plan.ahead = settings.ahead
  pass_eq : loop.plan.pass = r.performance.pass
  opened : loop.phase ≠ .fresh → loop.origin = settings.leadIn
  prompt : loop.Prompt r.instant
  ledger : loop.Ledger (r.marks.map fun mark => (mark.pass, mark.event))
  /-- The tones on the device are those that have been marked. -/
  numbered : device.tones.tones.map Tone.id = List.range r.marks.length
  nextId_eq : device.tones.nextId = r.marks.length
  marked : ∀ tone ∈ device.tones.tones, ∃ mark, r.marks[tone.id]? = some mark ∧
    tone.start = mark.event.start
  last_le : r.performance.last ≤ r.instant / 1000000000

variable {settings : Settings ℝ} {seconds : ℝ} {r after : Recital ℝ} {loop : LiveLoop ℝ}
  {device : Device ℝ}

theorem Playing.now_eq (playing : Playing settings r loop device) (instant : Nat) :
    device.now instant = (instant : ℝ) / 1000000000 := by
  have elapsed : device.clock.elapsed instant = instant := by
    rw [playing.clock]
    simp [OutputClock.elapsed]
  rw [Device.now, OutputClock.now, elapsed, Scalar.ofNanoseconds_real]

/-- The passes of the loop begin where those of the performance do. -/
theorem Playing.passStart_eq (playing : Playing settings r loop device)
    (opened : loop.phase ≠ .fresh) (pass : Nat) :
    loop.passStart pass = settings.leadIn + pass * r.performance.pass.duration := by
  rw [LiveLoop.passStart, LiveLoop.passLength, playing.opened opened, playing.pass_eq]
  rfl

/-- What a look adds to the number of times that a tone has been logged. -/
theorem Playing.countP_heard (playing : Playing settings r loop device) (low high : ℝ) (id : Nat)
    (start : ℝ) (begins : ∀ mark, r.marks[id]? = some mark → mark.event.start = start) :
    ((device.tones.startingBetween low high).map Performance.toneNotice).countP
      (Notice.announces id) =
        if id < r.marks.length ∧ low ≤ start ∧ start < high then 1 else 0 := by
  rw [ToneList.startingBetween, ToneList.select_eq_filter]
  refine countP_toneNotice playing.numbered low high start fun tone member ours => ?_
  obtain ⟨mark, found, same⟩ := playing.marked tone member
  rw [ours] at found
  rw [same, begins mark found]

section Look

variable (playing : Playing settings r loop device)

include playing

/-- A look adds what it hears to what has been logged. -/
theorem Playing.timesLogged_looked (seconds : ℝ) {id : Nat} {start : ℝ}
    (begins : ∀ mark, r.marks[id]? = some mark → mark.event.start = start) :
    (r.looked seconds).timesLogged id = r.timesLogged id +
      if id < r.marks.length ∧ r.performance.last ≤ start ∧ start < r.instant / 1000000000 then 1
      else 0 := by
  obtain ⟨transport, eq, -, count, -⟩ :=
    Performance.look_live playing.held playing.mode seconds r.instant
  have looked : (r.looked seconds).performance.transport = transport := by
    rw [Recital.looked, eq]
  rw [timesLogged, looked, count, playing.countP_heard _ _ id start begins, playing.now_eq]
  rfl

/-- A look never goes back: a tone that has been passed over is not logged any more. -/
theorem Playing.timesLogged_looked_of_past (seconds : ℝ) {id : Nat}
    (past : ∀ mark, r.marks[id]? = some mark → mark.event.start < r.performance.last) :
    (r.looked seconds).timesLogged id = r.timesLogged id := by
  cases found : r.marks[id]? with
  | none =>
    have unmarked : ∀ mark, r.marks[id]? = some mark → mark.event.start = 0 := by simp [found]
    have beyond := List.getElem?_eq_none_iff.mp found
    rw [playing.timesLogged_looked seconds unmarked, if_neg fun inside => inside.1.not_ge beyond]
    rfl
  | some mark =>
    have begins : ∀ other, r.marks[id]? = some other → other.event.start = mark.event.start := by
      simp [found]
    have passed := past mark found
    rw [playing.timesLogged_looked seconds begins, if_neg fun inside => inside.2.1.not_gt passed]
    rfl

/-- A look changes neither the clock nor the pass, and is the last one then. -/
theorem Playing.looked_eq (seconds : ℝ) :
    (r.looked seconds).performance.last = r.instant / 1000000000 ∧
      (r.looked seconds).performance.pass = r.performance.pass ∧
      (r.looked seconds).performance.transport.now r.instant = r.instant / 1000000000 := by
  obtain ⟨transport, eq, now, -⟩ :=
    Performance.look_live playing.held playing.mode seconds r.instant
  rw [Recital.looked, eq]
  exact ⟨playing.now_eq r.instant, rfl, now.trans (playing.now_eq r.instant)⟩

/-- A look that does not end the performance changes nothing but what has been logged. -/
theorem Playing.look (seconds : ℝ) (unfinished : (r.looked seconds).result = none) :
    Playing settings (r.looked seconds) loop device := by
  obtain ⟨last, pass, -⟩ := playing.looked_eq seconds
  obtain ⟨transport, eq, -, -, same, -⟩ :=
    Performance.look_live playing.held playing.mode seconds r.instant
  have looked : (r.looked seconds).performance.transport = transport := by
    rw [Recital.looked, eq]
  rw [same unfinished] at looked
  refine { playing with
    unfinished, held := ?_, alone := ?_, current := ?_, mode := ?_, pass_eq := ?_, last_le := ?_ }
  · rw [looked]
    exact playing.held
  · rw [looked]
    exact playing.alone
  · rw [looked]
    exact playing.current
  · rw [looked]
    exact playing.mode
  · rw [pass]
    exact playing.pass_eq
  · exact last.le

/-- The clock can be looked at when it is time, unless the loop holds the device. -/
theorem Playing.move_look (due : r.next ≤ r.instant) (free : loop.holdsDevice = false) :
    Move seconds r (r.looked seconds) := by
  refine .look playing.unfinished due fun other member => ?_
  rw [playing.alone] at member
  rwa [List.mem_singleton.mp member]

/-- While the loop goes on, only the time ends a performance. -/
theorem Playing.looked_result (seconds : ℝ) (plays : loop.outcome? = none) :
    (r.looked seconds).result =
      if seconds ≤ (r.instant : ℝ) / 1000000000 then some (.ok ()) else none := by
  obtain ⟨transport, -, -, -, -, result⟩ :=
    Performance.look_live playing.held playing.mode seconds r.instant
  rw [← playing.now_eq]
  refine result ?_
  rw [Transport.sessionLoop?_eq, playing.current, playing.alone]
  exact plays

end Look

section Step

variable {next : LiveLoop ℝ} {device' : Device ℝ} (playing : Playing settings r loop device)
  (taken : loop.Step r.instant device next device')

include playing taken

/-- Once the loop has opened, its first pass is known to begin after the lead-in. -/
theorem Playing.opened_of_step : next.origin = settings.leadIn := by
  by_cases fresh : loop.phase = .fresh
  · have measured : ¬ loop.passLength ≤ Scalar.ofNat 0 := by
      rw [LiveLoop.passLength]
      simpa using playing.proper.long
    have prompt := playing.prompt
    simp only [LiveLoop.Prompt, fresh] at prompt
    rw [taken.origin_of_fresh fresh measured, playing.now_eq, prompt, playing.leadIn_eq]
    simp
  · rw [taken.origin_eq fresh]
    exact playing.opened fresh

theorem Playing.step : Playing settings (r.stepped 0 loop next device device') next device' := by
  have marks : (r.stepped 0 loop next device device').marks =
    r.marks ++ (loop.granted device).map (⟨0, loop.passes, ·⟩) := rfl
  constructor
  case unfinished => exact playing.unfinished
  case held => rfl
  case alone =>
    simp only [stepped, playing.alone]
    rfl
  case current => exact playing.current
  case mode => exact playing.mode
  case clock => rw [taken.device_frame.1, playing.clock]
  case proper =>
    rw [taken.plan_eq]
    exact playing.proper
  case leadIn_eq => rw [taken.plan_eq, playing.leadIn_eq]
  case ahead_eq => rw [taken.plan_eq, playing.ahead_eq]
  case pass_eq =>
    rw [taken.plan_eq]
    exact playing.pass_eq
  case opened => exact fun _ => playing.opened_of_step taken
  case prompt => exact taken.prompt playing.proper (playing.now_eq r.instant) playing.prompt
  case ledger =>
    rw [marks, List.map_append, List.map_map]
    exact taken.ledger playing.ledger
  case numbered =>
    rcases taken.granted_or_not with ⟨nothing, tones⟩ | ⟨event, granted, tones, -⟩
    · rw [marks, nothing, tones, List.map_nil, List.append_nil]
      exact playing.numbered
    · rw [marks, granted, tones, ToneList.tones_add, List.map_append, playing.numbered,
        playing.nextId_eq, List.length_append, List.length_map, List.length_singleton,
        List.range_succ]
      rfl
  case nextId_eq =>
    rw [taken.tones_eq, ToneList.nextId_foldl_add, playing.nextId_eq, marks, List.length_append,
      List.length_map]
  case marked =>
    intro tone member
    rcases taken.granted_or_not with ⟨nothing, tones⟩ | ⟨event, granted, tones, -⟩
    · rw [tones] at member
      rw [marks, nothing, List.map_nil, List.append_nil]
      exact playing.marked tone member
    · rw [tones, ToneList.tones_add] at member
      rw [marks, granted]
      rcases List.mem_append.mp member with old | new
      · obtain ⟨mark, found, start⟩ := playing.marked tone old
        refine ⟨mark, ?_, start⟩
        rw [List.getElem?_append_left (List.getElem?_eq_some_iff.mp found).1, found]
      · rw [List.mem_singleton.mp new, playing.nextId_eq]
        exact ⟨⟨0, loop.passes, event⟩, by simp, rfl⟩
  case last_le => exact playing.last_le

omit playing taken in
/-- A step of a loop changes nothing of what has been logged of tones. -/
theorem timesLogged_stepped (i id : Nat) :
    (r.stepped i loop next device device').timesLogged id = r.timesLogged id := by
  simp only [timesLogged, stepped, Transport.notices, Log.notices_addAll, List.countP_append,
    LiveLoop.countP_words, Nat.add_zero]

/-- A tone that the loop lays is one of its pass, and so begins no earlier than that. -/
theorem Playing.start_of_granted {event : Event ℝ} (granted : event ∈ loop.granted device) :
    settings.leadIn + loop.passes * r.performance.pass.duration ≤ event.start := by
  have played := playing.step taken
  have inside := taken.mem_passEvents playing.ledger granted
  have begins := (LiveLoop.passEvents_inside played.proper inside).1
  rwa [played.passStart_eq taken.phase_ne_fresh] at begins

omit taken in
/-- A loop that lays something has come to its pass in time. -/
theorem Playing.inTime_of_granted {event : Event ℝ} (granted : event ∈ loop.granted device) :
    loop.phase ≠ .fresh ∧ loop.InTime (r.instant / 1000000000) loop.passes := by
  have prompt := playing.prompt
  unfold LiveLoop.granted at granted
  split at granted
  · next first later laying =>
    simp only [LiveLoop.Prompt, laying] at prompt
    exact ⟨by simp [laying], prompt⟩
  · cases granted

end Step

/-- When no one is kept waiting, the time that passes makes no difference. -/
theorem Playing.advance (playing : Playing settings r loop device) {instant : Nat}
    (later : r.instant ≤ instant)
    (waits : ∀ earlier, r.instant ≤ earlier → earlier < instant →
      loop.step? earlier device = none) : Playing settings { r with instant } loop device := by
  refine { playing with prompt := playing.prompt.advance later waits, last_le := ?_ }
  refine playing.last_le.trans ?_
  show (r.instant : ℝ) / 1000000000 ≤ instant / 1000000000
  gcongr

end Recital

section Begin

variable {α : Type} [Tonal α] {settings : Settings α} {text : List Char} {p : Performance α}

/-- A performance in live mode that has just been begun. -/
def Performance.begun (settings : Settings α) (text : List Char) (score : Score α) :
    Performance α :=
  ⟨(Transport.prepared settings text (.new settings.sampleRate) score).startLive 0 score,
    .ofScore settings.shape score (Scalar.ofNat 0), Scalar.ofNat 0, none⟩

theorem Performance.begin_of_read {score : Score α} (mode : settings.mode = .live)
    (reads : Score.read text settings.tempo = .ok score) :
    Performance.begin settings text 0 = .ok (.begun settings text score) := by
  have starts : (Transport.forPerformance settings text).start 0 =
      ((Transport.prepared settings text (.new settings.sampleRate) score).startLive 0 score,
        .ok ()) := Transport.startAnew_new 0 _ mode reads
  simp only [Performance.begin, reads, starts]
  rfl

/-- In live mode a performance is begun if its text is a score. -/
theorem Performance.begin_eq_ok_iff (mode : settings.mode = .live) :
    Performance.begin settings text 0 = .ok p ↔
      ∃ score, Score.read text settings.tempo = .ok score ∧ p = .begun settings text score := by
  cases reads : Score.read text settings.tempo with
  | error fault => simp [Performance.begin, reads]
  | ok score => simp [Performance.begin_of_read mode reads, eq_comm]

/-- The only loop of a performance that has just been begun. -/
def Performance.firstLoop (settings : Settings α) (text : List Char) (score : Score α) :
    LiveLoop α :=
  .ofPlan ((Transport.prepared settings text (.new settings.sampleRate) score).livePlan score)

end Begin

section

variable {settings : Settings ℝ} {text : List Char}

/-- Settings that are accepted have no lead-in less than zero. -/
theorem Settings.leadIn_nonneg (valid : settings.validate = .ok ()) : 0 ≤ settings.leadIn := by
  unfold Settings.validate at valid
  split_ifs at valid with _ lengthless
  simpa [Settings.isLength, Scalar.isFinite] using lengthless

theorem Recital.Playing.begun {score : Score ℝ} (leadIn : 0 ≤ settings.leadIn)
    (mode : settings.mode = .live) (reads : Score.read text settings.tempo = .ok score) :
    Playing settings (.ofPerformance (.begun settings text score))
      (Performance.firstLoop settings text score) ((Device.new settings.sampleRate).resume 0) := by
  constructor
  case unfinished => rfl
  case held => rfl
  case alone => rfl
  case current => rfl
  case mode => exact mode
  case clock => rfl
  case proper => exact LivePlan.proper_ofScore reads settings.shape rfl leadIn
  case leadIn_eq => rfl
  case ahead_eq => rfl
  case pass_eq => rfl
  case opened => exact fun begun => absurd rfl begun
  case prompt => exact .ofPlan _
  case ledger => exact .ofPlan _
  case numbered => rfl
  case nextId_eq => rfl
  case marked => exact fun tone member => (nomatch member)
  case last_le => simp [Recital.ofPerformance, Performance.begun]

end

end Portamento
