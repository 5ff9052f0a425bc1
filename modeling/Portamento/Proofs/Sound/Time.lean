import Portamento.Proofs.Scalar.Ordered
import Portamento.Sound.Device

/-!
# Time on a device

The clock of a device never goes back, and it shows the same before and after it is suspended or
resumed. Nothing else that is done to a device touches its clock. To cut the sound off at a time
drops the tones that have not begun and leaves the others, none of them going on beyond that time.
-/

namespace Portamento

namespace OutputClock

@[simp] theorem elapsed_suspend (clock : OutputClock) (instant later : Nat) :
    (clock.suspend instant).elapsed later = clock.elapsed instant := rfl

@[simp] theorem elapsed_resume (clock : OutputClock) (instant : Nat) :
    (clock.resume instant).elapsed instant = clock.elapsed instant := by
  unfold resume
  split
  · rfl
  · next suspended => simp [elapsed, suspended]

@[simp] theorem isRunning_suspend (clock : OutputClock) (instant : Nat) :
    (clock.suspend instant).isRunning = false := rfl

@[simp] theorem isRunning_resume (clock : OutputClock) (instant : Nat) :
    (clock.resume instant).isRunning = true := by
  cases running : clock.resumedAt <;> simp [resume, isRunning, running]

theorem elapsed_le (clock : OutputClock) {instant later : Nat} (order : instant ≤ later) :
    clock.elapsed instant ≤ clock.elapsed later := by
  unfold elapsed
  split
  · omega
  · exact Nat.le_refl _

end OutputClock

namespace Device

variable {α : Type} [Tonal α]

@[simp] theorem now_suspend (device : Device α) (instant : Nat) :
    (device.suspend instant).now instant = device.now instant := rfl

@[simp] theorem now_resume (device : Device α) (instant : Nat) :
    (device.resume instant).now instant = device.now instant := by
  simp only [now, resume, OutputClock.now, OutputClock.elapsed_resume]

theorem now_le [Scalar.Ordered α] (device : Device α) {instant later : Nat}
    (order : instant ≤ later) : device.now instant ≤ device.now later :=
  Scalar.Ordered.ofNanoseconds_le _ _ (device.clock.elapsed_le order)

end Device

section Cut

variable {α : Type}

namespace ToneList

variable [Scalar α]

/-- What a cut leaves: the tones that have begun, each of them ended. -/
theorem mem_cancelAfter {list : ToneList α} {t : α} {tone : Tone α} :
    tone ∈ (list.cancelAfter t).tones ↔
      ∃ old ∈ list.tones, old.start ≤ t ∧ old.cutAt t = tone := by
  rw [tones_cancelAfter]
  simp only [List.mem_map, List.mem_filter, decide_eq_true_eq, and_assoc]

end ToneList

namespace Tone

variable [Scalar α]

@[simp] theorem cutAt_id (tone : Tone α) (t : α) : (tone.cutAt t).id = tone.id := by
  unfold cutAt
  split <;> rfl

@[simp] theorem cutAt_start (tone : Tone α) (t : α) : (tone.cutAt t).start = tone.start := by
  unfold cutAt
  split <;> rfl

@[simp] theorem cutAt_path (tone : Tone α) (t : α) : (tone.cutAt t).path = tone.path := by
  unfold cutAt
  split <;> rfl

end Tone

end Cut

end Portamento
