import Mathlib.Algebra.BigOperators.Fin
import Portamento.Proofs.Sound.Time

/-!
# The clock as an account of running time

A clock is resumed and suspended in any order and as often as anyone likes, and in between time goes
by. It keeps two numbers only, what it had counted before its last start and when that was. Here
they are compared with the whole history: a stretch of time counts if the last switch in front of it
set the clock going.

`counts_running_time` says that the clock shows the sum of those stretches, and what follows from
that for clocks that were never started, that are read again later, and that are switched to and
fro.
-/

namespace Portamento

/-- What can happen to a clock. -/
inductive ClockEvent where
  | resume
  | suspend
  /-- So many nanoseconds go by. -/
  | advance (length : Nat)
  deriving DecidableEq, Repr

namespace ClockEvent

/-- Whether an event sets the clock going or stops it. -/
def isSwitch : ClockEvent → Bool
  | resume => true
  | suspend => true
  | advance _ => false

/-- The time that goes by in an event. -/
def length : ClockEvent → Nat
  | advance length => length
  | _ => 0

/-- The last switch of a history, if there is one. -/
def lastSwitch? (history : List ClockEvent) : Option ClockEvent :=
  (history.filter isSwitch).getLast?

/-- The time that goes by in an event of a history if the clock is to run in front of it. -/
def counted (history : List ClockEvent) (index : Nat) : Nat :=
  if lastSwitch? (history.take index) = some resume then (history[index]?.map length).getD 0 else 0

/-- The time that goes by while a clock with a history is to run. -/
def runningTime (history : List ClockEvent) : Nat :=
  ∑ index ∈ Finset.range history.length, counted history index

theorem lastSwitch?_concat (history : List ClockEvent) (event : ClockEvent) :
    lastSwitch? (history ++ [event]) =
      if event.isSwitch then some event else lastSwitch? history := by
  unfold lastSwitch?
  rw [List.filter_append, List.filter_singleton]
  cases event.isSwitch <;> simp

/-- What happens later makes no difference to what is counted before. -/
theorem counted_append {history : List ClockEvent} {index : Nat} (inside : index < history.length)
    (later : List ClockEvent) : counted (history ++ later) index = counted history index := by
  unfold counted
  rw [List.take_append_of_le_length inside.le, List.getElem?_append_left inside]

theorem runningTime_concat (history : List ClockEvent) (event : ClockEvent) :
    runningTime (history ++ [event]) =
      runningTime history + if lastSwitch? history = some resume then event.length else 0 := by
  have last : counted (history ++ [event]) history.length =
      if lastSwitch? history = some resume then event.length else 0 := by
    simp [counted]
  unfold runningTime
  rw [List.length_append, List.length_singleton, Finset.sum_range_succ, last]
  congr 1
  refine Finset.sum_congr rfl fun index member => ?_
  exact counted_append (Finset.mem_range.mp member) [event]

/-- Time that has been counted stays counted. -/
theorem runningTime_le_append (history later : List ClockEvent) :
    runningTime history ≤ runningTime (history ++ later) := by
  induction later using List.reverseRecOn with
  | nil => rw [List.append_nil]
  | append_singleton later event ih =>
    rw [← List.append_assoc, runningTime_concat]
    exact ih.trans (Nat.le_add_right ..)

theorem runningTime_append_switches (history : List ClockEvent) {switches : List ClockEvent}
    (only : ∀ event ∈ switches, event.isSwitch = true) :
    runningTime (history ++ switches) = runningTime history := by
  induction switches using List.reverseRecOn with
  | nil => rw [List.append_nil]
  | append_singleton switches event ih =>
    obtain ⟨before, last⟩ := List.forall_mem_append.mp only
    have still : event.length = 0 := by
      cases event with
      | advance length =>
        have switch := last (.advance length) (List.mem_singleton_self _)
        cases switch
      | _ => rfl
    rw [← List.append_assoc, runningTime_concat, ih before, still, ite_self, Nat.add_zero]

/-- Without a start nothing counts. -/
theorem runningTime_eq_zero {history : List ClockEvent} (never : resume ∉ history) :
    runningTime history = 0 := by
  refine Finset.sum_eq_zero fun index _ => if_neg fun last => never ?_
  exact List.mem_of_mem_take (List.mem_of_mem_filter (List.mem_of_getLast? last))

end ClockEvent

open ClockEvent

/-- A clock and the instant that it is. -/
structure Watch where
  clock : OutputClock
  instant : Nat
  deriving DecidableEq, Repr

namespace Watch

/-- The nanoseconds that the clock shows. -/
def elapsed (watch : Watch) : Nat := watch.clock.elapsed watch.instant

/-- Lets something happen. -/
def act (watch : Watch) : ClockEvent → Watch
  | .resume => { watch with clock := watch.clock.resume watch.instant }
  | .suspend => { watch with clock := watch.clock.suspend watch.instant }
  | .advance length => { watch with instant := watch.instant + length }

/-- A new clock at an instant, and the history that it then has. -/
def after (start : Nat) (history : List ClockEvent) : Watch :=
  history.foldl act ⟨.new, start⟩

/-- No clock was started later than now. -/
def IsTimely (watch : Watch) : Prop :=
  ∀ start, watch.clock.resumedAt = some start → start ≤ watch.instant

theorem IsTimely.act {watch : Watch} (timely : watch.IsTimely) (event : ClockEvent) :
    (watch.act event).IsTimely := by
  cases event with
  | resume =>
    intro start found
    cases running : watch.clock.resumedAt with
    | none =>
      simp only [Watch.act, OutputClock.resume, running, Option.some.injEq] at found
      exact found.symm.le
    | some before =>
      simp only [Watch.act, OutputClock.resume, running, Option.some.injEq] at found
      exact found ▸ timely before running
  | suspend =>
    intro start found
    simp only [Watch.act, OutputClock.suspend, reduceCtorEq] at found
  | advance length => exact fun start found => (timely start found).trans (Nat.le_add_right ..)

/-- What an event adds to the clock: the time that goes by in it, if the clock runs. -/
theorem elapsed_act {watch : Watch} (timely : watch.IsTimely) (event : ClockEvent) :
    (watch.act event).elapsed =
      watch.elapsed + if watch.clock.isRunning then event.length else 0 := by
  cases event with
  | resume => simp [act, elapsed, ClockEvent.length]
  | suspend => simp [act, elapsed, ClockEvent.length]
  | advance length =>
    cases running : watch.clock.resumedAt with
    | none => simp [act, elapsed, OutputClock.elapsed, OutputClock.isRunning, running]
    | some start =>
      have order := timely start running
      simp only [act, elapsed, OutputClock.elapsed, OutputClock.isRunning, running,
        Option.isSome_some, if_true, ClockEvent.length]
      omega

theorem isRunning_act (watch : Watch) (event : ClockEvent) :
    (watch.act event).clock.isRunning = true ↔
      if event.isSwitch then event = .resume else watch.clock.isRunning = true := by
  cases event <;> simp [act, isSwitch]

/-- What the clock and its history have to do with each other. -/
structure Keeps (watch : Watch) (history : List ClockEvent) : Prop where
  timely : watch.IsTimely
  isRunning_iff : watch.clock.isRunning = true ↔ lastSwitch? history = some .resume
  elapsed_eq : watch.elapsed = runningTime history

theorem Keeps.act {watch : Watch} {history : List ClockEvent} (keeps : watch.Keeps history)
    (event : ClockEvent) : (watch.act event).Keeps (history ++ [event]) where
  timely := keeps.timely.act event
  isRunning_iff := by
    rw [isRunning_act, lastSwitch?_concat]
    split
    · exact Option.some_inj.symm
    · exact keeps.isRunning_iff
  elapsed_eq := by
    simp only [elapsed_act keeps.timely, runningTime_concat, keeps.elapsed_eq, keeps.isRunning_iff]

theorem after_append (start : Nat) (history later : List ClockEvent) :
    after start (history ++ later) = later.foldl act (after start history) :=
  List.foldl_append ..

/-- A new clock keeps to its history, whatever happens. -/
theorem keeps_after (start : Nat) (history : List ClockEvent) :
    (after start history).Keeps history := by
  induction history using List.reverseRecOn with
  | nil =>
    have stands : (after start []).clock.isRunning = false := rfl
    refine ⟨?_, by simp [stands, lastSwitch?], rfl⟩
    intro _ found
    cases found
  | append_singleton history event ih =>
    rw [after_append]
    exact ih.act event

end Watch

/-- The clock shows the time that has gone by while it was running, which is none before it is first
resumed and never less later on. It runs if the last switch was to resume it, and to switch it, once
or repeatedly, does not move it. -/
theorem OutputClock.counts_running_time (start : Nat) (history : List ClockEvent) :
    (Watch.after start history).elapsed = runningTime history ∧
    ((Watch.after start history).clock.isRunning = true ↔
      lastSwitch? history = some .resume) ∧
    (.resume ∉ history → (Watch.after start history).elapsed = 0) ∧
    (∀ later, (Watch.after start history).elapsed ≤
      (Watch.after start (history ++ later)).elapsed) ∧
    ∀ switches : List ClockEvent, (∀ event ∈ switches, event.isSwitch = true) →
      (Watch.after start (history ++ switches)).elapsed = (Watch.after start history).elapsed := by
  have shows (history : List ClockEvent) :
      (Watch.after start history).elapsed = runningTime history :=
    (Watch.keeps_after start history).elapsed_eq
  refine ⟨shows history, (Watch.keeps_after start history).isRunning_iff, ?_, ?_, ?_⟩
  · intro never
    rw [shows, runningTime_eq_zero never]
  · intro later
    rw [shows, shows]
    exact runningTime_le_append history later
  · intro switches only
    rw [shows, shows, runningTime_append_switches history only]

/-- A clock that is resumed twice and suspended twice in a row, with two stretches that count. -/
theorem OutputClock.counts_running_time_twoStretches :
    ClockEvent.resume ∉ [ClockEvent.advance 7, .suspend] ∧
    (Watch.after 100 [.advance 7, .suspend]).elapsed = 0 ∧
    (Watch.after 100 [.advance 7, .resume, .advance 2, .resume, .advance 3, .suspend, .suspend,
      .advance 9, .resume, .advance 4]).elapsed = 9 ∧
    (Watch.after 100 ([.advance 7, .resume, .advance 2] ++ [.resume, .suspend, .suspend])).elapsed =
      (Watch.after 100 [.advance 7, .resume, .advance 2]).elapsed := by
  refine ⟨by decide, ?_, ?_, ?_⟩
  · exact (counts_running_time 100 [.advance 7, .suspend]).2.2.1 (by decide)
  · exact (counts_running_time 100 _).1.trans (by decide)
  · exact (counts_running_time 100 _).2.2.2.2 [.resume, .suspend, .suspend] (by decide)

end Portamento
