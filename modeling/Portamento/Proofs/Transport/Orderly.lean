import Portamento.Proofs.Transport.Effect

/-!
# The order between loops, device and session

Every loop but the one of the session has been told to stop and does not hold the device. So only
the loop of the session can lay anything, and while there is no session the device has no buffer and
no tone that is still to begin. Every effect keeps this order.
-/

namespace Portamento

variable {α : Type} [Tonal α]

namespace World

/-- What holds between the loops, the device and the session. -/
structure Orderly (w : World α) : Prop where
  /-- The loop of the session is the one that has been begun last. -/
  current_last : ∀ i, w.transport.current? = some i → i + 1 = w.transport.loops.length
  /-- A loop that is not the one of the session has been told to stop, and is in no pass. -/
  retired : ∀ i loop, w.transport.loops[i]? = some loop → w.transport.current? ≠ some i →
    loop.cancelled = true ∧ loop.holdsDevice = false
  /-- The next tone gets the next mark. -/
  numbered : w.device.tones.nextId = w.marks.length
  /-- Each tone has a mark of its own. -/
  distinct : (w.tones.map Tone.id).Sublist (List.range w.marks.length)
  marked : ∀ mark ∈ w.marks, mark.loop < w.transport.loops.length
  /-- Nothing is played any more when there is no session. -/
  quiet : w.transport.session = none →
    w.device.buffer = none ∧ ∀ tone ∈ w.tones, tone.start ≤ w.now

variable {w after : World α}

theorem Orderly.launch (settings : Settings α) (text : List Char) (rate rendererRate : Nat)
    (limits : DeviceLimits) (unavailable instant : Nat) :
    Orderly (launch settings text rate rendererRate limits unavailable instant) where
  current_last _ current := nomatch current
  retired _ _ found := nomatch found
  numbered := rfl
  distinct := .slnil
  marked _ member := nomatch member
  quiet _ := ⟨rfl, fun _ member => nomatch member⟩

/-- Only the loop of the session ever holds the device. -/
theorem Orderly.current_of_holdsDevice (orderly : Orderly w) {i : Nat} {loop : LiveLoop α}
    (numbered : w.transport.loops[i]? = some loop) (holds : loop.holdsDevice = true) :
    w.transport.current? = some i := by
  refine Classical.byContradiction fun other => ?_
  rw [(orderly.retired i loop numbered other).2] at holds
  cases holds

/-- If the loop of the session does not hold the device, nobody does. -/
theorem Orderly.isFree (orderly : Orderly w) (lets : ∀ i, w.transport.current? = some i →
    ∀ loop, w.transport.loops[i]? = some loop → loop.holdsDevice = false) :
    w.transport.IsFree := by
  intro loop member
  obtain ⟨i, numbered⟩ := List.mem_iff_getElem?.mp member
  by_cases current : w.transport.current? = some i
  · exact lets i current loop numbered
  · exact (orderly.retired i loop numbered current).2

/-- Without a session no loop holds the device. -/
theorem Orderly.isFree_of_idle (orderly : Orderly w) (idle : w.transport.session = none) :
    w.transport.IsFree :=
  orderly.isFree fun i current => by
    rw [Transport.current?_of_idle idle] at current
    cases current

/-- The marks of the tones that a loop has created. -/
def marksOf (w : World α) (i : Nat) : List (Mark α) := w.marks.filter fun mark => mark.loop == i

omit [Tonal α] in
theorem marksOf_congr (marks : after.marks = w.marks) : after.marksOf = w.marksOf := by
  funext i
  simp only [marksOf, marks]

omit [Tonal α] in
/-- The marks of a loop after a step of another one, or of itself. -/
theorem marksOf_of_step {i j : Nat} {loop : LiveLoop α} {device : Device α}
    (marks : after.marks = w.marks ++ (loop.granted device).map (⟨i, loop.passes, ·⟩)) :
    after.marksOf j = w.marksOf j ++
      if i = j then (loop.granted device).map (⟨i, loop.passes, ·⟩) else [] := by
  rw [marksOf, marks, List.filter_append, marksOf]
  congr 1
  split
  · next same =>
    refine List.filter_eq_self.mpr fun mark member => ?_
    obtain ⟨event, -, rfl⟩ := List.mem_map.mp member
    simpa using same
  · next other =>
    refine List.filter_eq_nil_iff.mpr fun mark member => ?_
    obtain ⟨event, -, rfl⟩ := List.mem_map.mp member
    simpa using other

/-- A tone on the device, with the mark that says what it was created for. -/
def Owned (w : World α) (tone : Tone α) (mark : Mark α) : Prop :=
  tone ∈ w.tones ∧ w.marks[tone.id]? = some mark

omit [Tonal α] in
theorem owned_congr (tones : after.device.tones = w.device.tones) (marks : after.marks = w.marks) :
    after.Owned = w.Owned := by
  funext tone mark
  simp only [Owned, World.tones, tones, marks]

/-- Every tone on the device has its mark. -/
theorem Orderly.exists_owned (orderly : Orderly w) {tone : Tone α} (member : tone ∈ w.tones) :
    ∃ mark, w.Owned tone mark := by
  have inside := orderly.distinct.subset (List.mem_map_of_mem member)
  rw [List.mem_range] at inside
  exact ⟨w.marks[tone.id], member, List.getElem?_eq_getElem inside⟩

/-- The loop that a tone belongs to has been begun. -/
theorem Orderly.lt_of_owned (orderly : Orderly w) {tone : Tone α} {mark : Mark α}
    (owned : w.Owned tone mark) : mark.loop < w.transport.loops.length :=
  orderly.marked mark (List.mem_of_getElem? owned.2)

/-- A loop that is still to be begun has created no tone. -/
theorem Orderly.marksOf_of_unbegun (orderly : Orderly w) :
    w.marksOf w.transport.loops.length = [] := by
  refine List.filter_eq_nil_iff.mpr fun mark member => ?_
  have inside := orderly.marked mark member
  rw [beq_iff_eq]
  omega

/-- After a step a tone is one from before, or the one that has been granted. -/
theorem Orderly.owned_of_step (orderly : Orderly w) {i : Nat} {loop next : LiveLoop α}
    (step : loop.Step w.instant w.device next after.device)
    (marks : after.marks = w.marks ++ (loop.granted w.device).map (⟨i, loop.passes, ·⟩))
    {tone : Tone α} {mark : Mark α} (owned : after.Owned tone mark) :
    w.Owned tone mark ∨ ∃ event, loop.granted w.device = [event] ∧ loop.holdsDevice = true ∧
      tone = ⟨w.marks.length, event.path, event.start, event.finish, some event.envelope⟩ ∧
      mark = ⟨i, loop.passes, event⟩ := by
  obtain ⟨member, found⟩ := owned
  rcases step.granted_or_not with ⟨nothing, tones⟩ | ⟨event, granted, tones, holds⟩
  · rw [World.tones, tones] at member
    rw [marks, nothing, List.map_nil, List.append_nil] at found
    exact .inl ⟨member, found⟩
  · rw [World.tones, tones, ToneList.tones_add] at member
    rw [marks, granted] at found
    rcases List.mem_append.mp member with old | new
    · obtain ⟨mark', owned⟩ := orderly.exists_owned old
      obtain ⟨inside, -⟩ := List.getElem?_eq_some_iff.mp owned.2
      rw [List.getElem?_append_left inside] at found
      exact .inl ⟨old, found⟩
    · rw [List.mem_singleton.mp new, orderly.numbered] at found ⊢
      simp only [List.map_cons, List.map_nil, List.getElem?_concat_length, Option.some.injEq]
        at found
      exact .inr ⟨event, granted, holds, rfl, found.symm⟩

/-- After a cut a tone is one from before that has been cut off. -/
theorem owned_of_cut {time : α} (tones : after.device.tones = w.device.tones.cancelAfter time)
    (marks : after.marks = w.marks) {tone : Tone α} {mark : Mark α}
    (owned : after.Owned tone mark) : ∃ old, w.Owned old mark ∧ tone = old.cutAt time := by
  obtain ⟨member, found⟩ := owned
  rw [World.tones, tones] at member
  obtain ⟨old, before, -, rfl⟩ := ToneList.mem_cancelAfter.mp member
  rw [marks, Tone.cutAt_id] at found
  exact ⟨old, ⟨before, found⟩, rfl⟩

section Effect

variable (orderly : Orderly w) (effect : Effect w after)

include orderly effect

theorem Orderly.current_last_of_effect (i : Nat) (current : after.transport.current? = some i) :
    i + 1 = after.transport.loops.length := by
  cases effect with
  | keeps _ _ loops _ same =>
    rw [same] at current
    rw [loops]
    exact orderly.current_last i current
  | steps _ _ _ _ _ _ loops _ session =>
    rw [Transport.current?_congr session] at current
    rw [loops, List.length_set]
    exact orderly.current_last i current
  | tells _ _ length _ _ session =>
    rw [Transport.current?_congr session] at current
    rw [length]
    exact orderly.current_last i current
  | cuts _ _ _ _ session =>
    rw [Transport.current?_of_idle session] at current
    cases current
  | begins _ _ _ _ loops _ _ last =>
    rw [last] at current
    cases current
    rw [loops, List.length_append, List.length_singleton]

theorem Orderly.retired_of_effect (i : Nat) (loop : LiveLoop α)
    (at_i : after.transport.loops[i]? = some loop) (other : after.transport.current? ≠ some i) :
    loop.cancelled = true ∧ loop.holdsDevice = false := by
  cases effect with
  | keeps _ _ loops _ same =>
    rw [same] at other
    rw [loops] at at_i
    exact orderly.retired i loop at_i other
  | steps j before next numbered step _ loops _ session =>
    rw [Transport.current?_congr session] at other
    rw [loops] at at_i
    rcases Transport.loop_of_set at_i with ⟨rfl, rfl⟩ | ⟨-, old⟩
    · obtain ⟨told, idle⟩ := orderly.retired _ before numbered other
      exact ⟨step.cancelled_eq.trans told, (step.retires told idle).1⟩
    · exact orderly.retired i loop old other
  | tells _ _ _ loops _ session =>
    rw [Transport.current?_congr session] at other
    obtain ⟨before, numbered, ⟨current, -⟩ | ⟨-, rfl⟩⟩ := Transport.loop_of_revoked loops at_i
    · exact absurd current other
    · exact orderly.retired i _ numbered other
  | cuts _ _ loops _ _ told free =>
    rw [loops] at at_i
    refine ⟨?_, free loop (List.mem_of_getElem? at_i)⟩
    by_cases ours : w.transport.current? = some i
    · exact told i ours loop at_i
    · exact (orderly.retired i loop at_i ours).1
  | begins _ _ _ _ loops _ idle last =>
    rw [last] at other
    rw [loops] at at_i
    rcases Transport.loop_of_concat at_i with old | ⟨rfl, -⟩
    · exact orderly.retired i loop old (by simp [Transport.current?_of_idle idle])
    · exact absurd rfl other

theorem Orderly.numbered_of_effect : after.device.tones.nextId = after.marks.length := by
  cases effect with
  | keeps tones _ _ marks =>
    rw [tones, marks]
    exact orderly.numbered
  | steps i loop next _ step _ _ marks =>
    rw [step.tones_eq, ToneList.nextId_foldl_add, orderly.numbered, marks]
    simp
  | tells device _ _ _ marks =>
    rw [device, marks]
    exact orderly.numbered
  | cuts device _ _ marks =>
    rw [tones_of_cut device, marks]
    exact orderly.numbered
  | begins _ _ device _ _ marks =>
    rw [tones_of_resume device, marks]
    exact orderly.numbered

theorem Orderly.distinct_of_effect :
    (after.tones.map Tone.id).Sublist (List.range after.marks.length) := by
  cases effect with
  | keeps tones _ _ marks =>
    rw [World.tones, tones, marks]
    exact orderly.distinct
  | steps i loop next _ step _ _ marks =>
    rcases step.granted_or_not with ⟨nothing, tones⟩ | ⟨event, granted, tones, -⟩
    · rw [World.tones, tones, marks, nothing, List.map_nil, List.append_nil]
      exact orderly.distinct
    · -- the new tone has the next number
      rw [World.tones, tones, ToneList.tones_add, marks, granted, List.map_append,
        List.length_append, List.length_map, List.length_singleton, List.range_succ]
      refine orderly.distinct.append ?_
      rw [orderly.numbered]
      exact .refl _
  | tells device _ _ _ marks =>
    rw [World.tones, device, marks]
    exact orderly.distinct
  | cuts device _ _ marks =>
    rw [World.tones, tones_of_cut device, marks, ToneList.tones_cancelAfter, List.map_map]
    have ids : Tone.id ∘ (fun tone => tone.cutAt w.now) = Tone.id :=
      funext fun tone => tone.cutAt_id w.now
    rw [ids]
    exact (List.filter_sublist.map Tone.id).trans orderly.distinct
  | begins _ _ device _ _ marks =>
    rw [World.tones, tones_of_resume device, marks]
    exact orderly.distinct

theorem Orderly.marked_of_effect (mark : Mark α) (member : mark ∈ after.marks) :
    mark.loop < after.transport.loops.length := by
  cases effect with
  | keeps _ _ loops marks =>
    rw [marks] at member
    rw [loops]
    exact orderly.marked mark member
  | steps i loop next numbered _ _ loops marks =>
    rw [loops, List.length_set]
    rw [marks] at member
    rcases List.mem_append.mp member with old | new
    · exact orderly.marked mark old
    · obtain ⟨event, -, rfl⟩ := List.mem_map.mp new
      exact (List.getElem?_eq_some_iff.mp numbered).1
  | tells _ _ length _ marks =>
    rw [marks] at member
    rw [length]
    exact orderly.marked mark member
  | cuts _ _ loops marks =>
    rw [marks] at member
    rw [loops]
    exact orderly.marked mark member
  | begins _ _ _ _ loops marks =>
    rw [marks] at member
    rw [loops, List.length_append]
    exact Nat.lt_of_lt_of_le (orderly.marked mark member) (Nat.le_add_right _ _)

theorem Orderly.quiet_of_effect [Scalar.Ordered α] (ended : after.transport.session = none) :
    after.device.buffer = none ∧ ∀ tone ∈ after.tones, tone.start ≤ after.now := by
  cases effect with
  | keeps tones now _ _ _ quiet =>
    obtain ⟨idle, buffer⟩ := quiet ended
    obtain ⟨silent, begun⟩ := orderly.quiet idle
    rw [World.tones, tones, buffer]
    exact ⟨silent, fun tone member => Scalar.Ordered.le_trans _ _ _ (begun tone member) now⟩
  | steps i loop next numbered step instant _ _ session =>
    -- the loop that takes a step has been told to stop, and so leaves the device alone
    rw [session] at ended
    obtain ⟨told, free⟩ :=
      orderly.retired i loop numbered (by simp [Transport.current?_of_idle ended])
    have same : after.device = w.device := (step.retires told free).2
    simp only [World.tones, World.now, same, instant]
    exact orderly.quiet ended
  | tells device instant _ _ _ session =>
    rw [session] at ended
    simp only [World.tones, World.now, device, instant]
    exact orderly.quiet ended
  | cuts device instant =>
    refine ⟨by rw [device]; rfl, fun tone member => ?_⟩
    rw [World.tones, tones_of_cut device] at member
    obtain ⟨old, -, begun, rfl⟩ := ToneList.mem_cancelAfter.mp member
    rw [Tone.cutAt_start, now_of_cut device instant]
    exact begun
  | begins _ _ _ _ _ _ _ last =>
    rw [Transport.current?_of_idle ended] at last
    cases last

end Effect

/-- Every effect keeps the order. -/
theorem Orderly.effect [Scalar.Ordered α] (orderly : Orderly w) (effect : Effect w after) :
    Orderly after where
  current_last := orderly.current_last_of_effect effect
  retired := orderly.retired_of_effect effect
  numbered := orderly.numbered_of_effect effect
  distinct := orderly.distinct_of_effect effect
  marked := orderly.marked_of_effect effect
  quiet := orderly.quiet_of_effect effect

/-- Without a session nothing is played, and nothing is still to come. -/
theorem Orderly.silent [Scalar.Ordered α] (orderly : Orderly w) (idle : w.transport.session = none)
    (device : Device α) (held : w.transport.device = some device) :
    device.buffer = none ∧ ∀ tone ∈ device.tones.tones, ¬ device.now w.instant < tone.start := by
  have found : w.device = device := Transport.heldDevice_eq held
  obtain ⟨buffer, begun⟩ := orderly.quiet idle
  rw [World.tones, World.now, found] at begun
  rw [found] at buffer
  exact ⟨buffer, fun tone member => Scalar.Ordered.not_lt_of_le _ _ (begun tone member)⟩

end World

end Portamento
