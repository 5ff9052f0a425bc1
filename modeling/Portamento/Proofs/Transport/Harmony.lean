import Portamento.Proofs.Live.Passes
import Portamento.Proofs.Sound.Gain
import Portamento.Proofs.Transport.Orderly
import Portamento.Proofs.Transport.Provenance

/-!
# One chord at a time

The tones of one loop are those of its passes, which lie end to end, and so two of them that sound
at one time belong to one chord. The tones of all loops but that of the session have been cut off,
or had ended, before the clock reached the present time; and a loop opens no earlier than that. So
the tones of two loops never sound at one time, whatever has been started, stopped, paused or
refused.
-/

namespace Portamento

namespace World

section Recorded

variable {α : Type} [Tonal α] {w after : World α}

/-- Whether every loop has created the tones of the front of its passes. -/
def Recorded (w : World α) : Prop :=
  ∀ i (loop : LiveLoop α), w.transport.loops[i]? = some loop →
    loop.Ledger ((w.marksOf i).map fun mark => (mark.pass, mark.event))

theorem Recorded.effect (recorded : w.Recorded) (orderly : Orderly w) (effect : Effect w after) :
    after.Recorded := by
  intro i loop at_i
  cases effect with
  | keeps _ _ loops marks =>
    rw [loops] at at_i
    rw [marksOf_congr marks]
    exact recorded i loop at_i
  | steps j before next numbered step _ loops marks =>
    rw [loops] at at_i
    rw [marksOf_of_step marks]
    rcases Transport.loop_of_set at_i with ⟨rfl, rfl⟩ | ⟨other, old⟩
    · rw [if_pos rfl, List.map_append, List.map_map]
      exact step.ledger (recorded _ before numbered)
    · rw [if_neg other, List.append_nil]
      exact recorded i loop old
  | tells _ _ _ loops marks =>
    rw [marksOf_congr marks]
    obtain ⟨before, numbered, ⟨-, rfl⟩ | ⟨-, rfl⟩⟩ := Transport.loop_of_revoked loops at_i
    · exact (recorded i before numbered).cancel
    · exact recorded i _ numbered
  | cuts _ _ loops marks =>
    rw [loops] at at_i
    rw [marksOf_congr marks]
    exact recorded i loop at_i
  | begins _ _ _ _ loops marks =>
    rw [loops] at at_i
    rw [marksOf_congr marks]
    rcases Transport.loop_of_concat at_i with old | ⟨rfl, rfl⟩
    · exact recorded i loop old
    · rw [orderly.marksOf_of_unbegun]
      exact .ofPlan _

end Recorded

/-- What the tones on the device have to do with the loops that have created them. -/
structure Harmony (w : World ℝ) : Prop where
  /-- A loop has created the tones of the front of its passes. -/
  recorded : ∀ i (loop : LiveLoop ℝ), w.transport.loops[i]? = some loop →
    loop.Ledger ((w.marksOf i).map fun mark => (mark.pass, mark.event))
  plays : ∀ tone mark, w.Owned tone mark → tone.Plays mark.event
  /-- A tone of a loop that is not the one of the session has ended. -/
  ceased : ∀ tone mark, w.Owned tone mark → w.transport.current? ≠ some mark.loop →
    tone.finish ≤ w.now
  /-- A tone ends before a later loop can have laid anything. -/
  succeeded : ∀ tone mark, w.Owned tone mark → ∀ i (loop : LiveLoop ℝ),
    w.transport.loops[i]? = some loop → mark.loop < i → loop.phase ≠ .fresh →
      tone.finish ≤ loop.origin

variable {w after : World ℝ} {settings : Settings ℝ}

/-- With a lead-in that is not negative the loops play proper plans. -/
theorem Provenance.proper (provenance : Provenance settings w) (leadIn : 0 ≤ settings.leadIn)
    {i : Nat} {loop : LiveLoop ℝ} (numbered : w.transport.loops[i]? = some loop) :
    loop.plan.Proper := by
  obtain ⟨same, score, ⟨text, tempo, reads⟩, pass⟩ :=
    provenance.planned loop (List.mem_of_getElem? numbered)
  exact LivePlan.proper_ofScore reads settings.shape pass (same ▸ leadIn)

theorem Harmony.launch (settings : Settings ℝ) (text : List Char) (rate rendererRate : Nat)
    (limits : DeviceLimits) (unavailable instant : Nat) :
    Harmony (launch settings text rate rendererRate limits unavailable instant) where
  recorded _ _ found := nomatch found
  plays _ _ owned := nomatch owned.1
  ceased _ _ owned := nomatch owned.1
  succeeded _ _ owned := nomatch owned.1

/-- A loop that opens begins its first pass after all tones of earlier loops have ended. -/
theorem Harmony.opens_after (harmony : Harmony w) (orderly : Orderly w) {i : Nat}
    {loop next : LiveLoop ℝ} {device : Device ℝ}
    (numbered : w.transport.loops[i]? = some loop)
    (step : loop.Step w.instant w.device next device) (fresh : loop.phase = .fresh)
    (proper : loop.plan.Proper) {tone : Tone ℝ} {mark : Mark ℝ} (owned : w.Owned tone mark)
    (before : mark.loop < i) : tone.finish ≤ next.origin := by
  have inside := (List.getElem?_eq_some_iff.mp numbered).1
  have earlier : w.transport.current? ≠ some mark.loop := by
    intro here
    have last := orderly.current_last _ here
    omega
  have measured : ¬ loop.passLength ≤ Scalar.ofNat 0 := by
    rw [LiveLoop.passLength]
    simpa using proper.long
  calc tone.finish
      ≤ w.now := harmony.ceased tone mark owned earlier
    _ ≤ w.now + loop.plan.leadIn := le_add_of_nonneg_right proper.leadIn
    _ = next.origin := (step.origin_of_fresh fresh measured).symm

section Effect

variable (harmony : Harmony w) (orderly : Orderly w) (effect : Effect w after)

include harmony orderly effect

theorem Harmony.plays_of_effect
    (proper : ∀ (i : Nat) loop, w.transport.loops[i]? = some loop → loop.plan.Proper)
    (tone : Tone ℝ) (mark : Mark ℝ) (owned : after.Owned tone mark) : tone.Plays mark.event := by
  cases effect with
  | keeps tones _ _ marks =>
    rw [owned_congr tones marks] at owned
    exact harmony.plays tone mark owned
  | steps i loop next numbered step _ _ marks =>
    rcases orderly.owned_of_step step marks owned with old | ⟨event, granted, -, rfl, rfl⟩
    · exact harmony.plays tone mark old
    · -- the event is one of the pass that the loop is laying
      have laid : event ∈ next.passEvents loop.passes :=
        step.mem_passEvents (harmony.recorded i loop numbered) (by rw [granted]; simp)
      have kept : next.plan.Proper := by
        rw [step.plan_eq]
        exact proper i loop numbered
      obtain ⟨-, finish, -⟩ := (kept.laid.shifted _).shaped event laid
      exact ⟨rfl, rfl, le_refl _, by simp only [← finish]⟩
  | tells device _ _ _ marks =>
    rw [owned_congr (by rw [device]) marks] at owned
    exact harmony.plays tone mark owned
  | cuts device _ _ marks =>
    obtain ⟨old, before, rfl⟩ := owned_of_cut (tones_of_cut device) marks owned
    exact (harmony.plays old mark before).cutAt w.now
  | begins _ _ device _ _ marks =>
    rw [owned_congr (tones_of_resume device) marks] at owned
    exact harmony.plays tone mark owned

theorem Harmony.ceased_of_effect (tone : Tone ℝ) (mark : Mark ℝ) (owned : after.Owned tone mark)
    (other : after.transport.current? ≠ some mark.loop) : tone.finish ≤ after.now := by
  cases effect with
  | keeps tones now _ marks same =>
    rw [owned_congr tones marks] at owned
    rw [same] at other
    exact (harmony.ceased tone mark owned other).trans now
  | steps i loop next numbered step instant _ marks session =>
    rw [Transport.current?_congr session] at other
    rw [now_of_step step instant]
    rcases orderly.owned_of_step step marks owned with old | ⟨event, -, holds, -, rfl⟩
    · exact harmony.ceased tone mark old other
    · exact absurd (orderly.current_of_holdsDevice numbered holds) other
  | tells device instant _ _ marks session =>
    rw [owned_congr (by rw [device]) marks] at owned
    rw [Transport.current?_congr session] at other
    simp only [World.now, device, instant]
    exact harmony.ceased tone mark owned other
  | cuts device instant _ marks =>
    obtain ⟨old, -, rfl⟩ := owned_of_cut (tones_of_cut device) marks owned
    rw [now_of_cut device instant]
    exact old.finish_cutAt_le w.now
  | begins _ _ device instant _ marks idle =>
    rw [owned_congr (tones_of_resume device) marks] at owned
    rw [now_of_resume device instant]
    exact harmony.ceased tone mark owned (by simp [Transport.current?_of_idle idle])

theorem Harmony.succeeded_of_effect
    (proper : ∀ (i : Nat) loop, w.transport.loops[i]? = some loop → loop.plan.Proper)
    (tone : Tone ℝ) (mark : Mark ℝ) (owned : after.Owned tone mark) (i : Nat) (loop : LiveLoop ℝ)
    (at_i : after.transport.loops[i]? = some loop) (before : mark.loop < i)
    (begun : loop.phase ≠ .fresh) : tone.finish ≤ loop.origin := by
  cases effect with
  | keeps tones _ loops marks =>
    rw [owned_congr tones marks] at owned
    rw [loops] at at_i
    exact harmony.succeeded tone mark owned i loop at_i before begun
  | steps j laying next numbered step _ loops marks =>
    rw [loops] at at_i
    have within := (List.getElem?_eq_some_iff.mp at_i).1
    rw [List.length_set] at within
    have old : w.Owned tone mark := by
      rcases orderly.owned_of_step step marks owned with old | ⟨event, -, holds, -, rfl⟩
      · exact old
      · -- the loop that is laying is the last one
        have last := orderly.current_last j (orderly.current_of_holdsDevice numbered holds)
        simp only at before
        omega
    rcases Transport.loop_of_set at_i with ⟨rfl, rfl⟩ | ⟨-, found⟩
    · by_cases fresh : laying.phase = .fresh
      · exact harmony.opens_after orderly numbered step fresh (proper _ laying numbered) old before
      · rw [step.origin_eq fresh]
        exact harmony.succeeded tone mark old _ laying numbered before fresh
    · exact harmony.succeeded tone mark old i loop found before begun
  | tells device _ _ loops marks =>
    rw [owned_congr (by rw [device]) marks] at owned
    obtain ⟨found, numbered, ⟨-, rfl⟩ | ⟨-, rfl⟩⟩ := Transport.loop_of_revoked loops at_i
    · exact harmony.succeeded tone mark owned i found numbered before begun
    · exact harmony.succeeded tone mark owned i _ numbered before begun
  | cuts device _ loops marks =>
    obtain ⟨old, belonged, rfl⟩ := owned_of_cut (tones_of_cut device) marks owned
    rw [loops] at at_i
    exact (old.finish_cutAt_le_finish w.now).trans
      (harmony.succeeded old mark belonged i loop at_i before begun)
  | begins _ _ device _ loops marks =>
    rw [owned_congr (tones_of_resume device) marks] at owned
    rw [loops] at at_i
    rcases Transport.loop_of_concat at_i with old | ⟨-, rfl⟩
    · exact harmony.succeeded tone mark owned i loop old before begun
    · exact absurd rfl begun

end Effect

/-- Every effect keeps the harmony. -/
theorem Harmony.effect (harmony : Harmony w) (orderly : Orderly w)
    (proper : ∀ (i : Nat) loop, w.transport.loops[i]? = some loop → loop.plan.Proper)
    (effect : Effect w after) : Harmony after where
  recorded := Recorded.effect harmony.recorded orderly effect
  plays := harmony.plays_of_effect orderly effect proper
  ceased := harmony.ceased_of_effect orderly effect
  succeeded := harmony.succeeded_of_effect orderly effect proper

section Together

variable {tone other : Tone ℝ} {mark mark' : Mark ℝ} {t : ℝ}

/-- The loop that a tone belongs to, with the event of the tone among those of its pass. -/
theorem Harmony.exists_loop (harmony : Harmony w) (orderly : Orderly w)
    (owned : w.Owned tone mark) : ∃ loop, w.transport.loops[mark.loop]? = some loop ∧
      mark.event ∈ loop.passEvents mark.pass ∧ loop.phase ≠ .fresh := by
  have found := List.getElem?_eq_getElem (orderly.lt_of_owned owned)
  have member : (mark.pass, mark.event) ∈
      (w.marksOf mark.loop).map fun mark => (mark.pass, mark.event) :=
    List.mem_map_of_mem
      (List.mem_filter.mpr ⟨List.mem_of_getElem? owned.2, beq_self_eq_true mark.loop⟩)
  have ledger := harmony.recorded mark.loop _ found
  exact ⟨_, found, ledger.mem_passEvents member,
    ledger.phase_ne_fresh (List.ne_nil_of_mem member)⟩

/-- Tones of two loops never sound at one time. -/
theorem Harmony.not_before (harmony : Harmony w) (orderly : Orderly w)
    (proper : ∀ (i : Nat) loop, w.transport.loops[i]? = some loop → loop.plan.Proper)
    (owned : w.Owned tone mark) (owned' : w.Owned other mark')
    (sounding : tone.isSoundingAt t = true) (sounding' : other.isSoundingAt t = true) :
    ¬ mark.loop < mark'.loop := by
  intro before
  obtain ⟨loop, found, member, begun⟩ := harmony.exists_loop orderly owned'
  have ended := harmony.succeeded tone mark owned mark'.loop loop found before begun
  have opened := LiveLoop.origin_le_passStart (proper _ loop found) mark'.pass
  have started := (LiveLoop.passEvents_inside (proper _ loop found) member).1
  have start := (harmony.plays other mark' owned').start_eq
  have running := (Tone.isSoundingAt_iff.mp sounding).2
  have reached := (Tone.isSoundingAt_iff.mp sounding').1
  linarith

/-- Tones that sound at one time belong to one chord of one pass of one loop. -/
theorem Harmony.together (harmony : Harmony w) (orderly : Orderly w)
    (proper : ∀ (i : Nat) loop, w.transport.loops[i]? = some loop → loop.plan.Proper)
    (owned : w.Owned tone mark) (owned' : w.Owned other mark')
    (sounding : tone.isSoundingAt t = true) (sounding' : other.isSoundingAt t = true) :
    mark.loop = mark'.loop ∧ mark.pass = mark'.pass ∧ mark.event.chord = mark'.event.chord := by
  have before := harmony.not_before orderly proper owned owned' sounding sounding'
  have behind := harmony.not_before orderly proper owned' owned sounding' sounding
  have same : mark.loop = mark'.loop := by omega
  obtain ⟨loop, found, member, -⟩ := harmony.exists_loop orderly owned
  obtain ⟨loop', found', member', -⟩ := harmony.exists_loop orderly owned'
  rw [← same, found] at found'
  cases found'
  have plays := harmony.plays tone mark owned
  have plays' := harmony.plays other mark' owned'
  obtain ⟨reached, running⟩ := Tone.isSoundingAt_iff.mp sounding
  obtain ⟨reached', running'⟩ := Tone.isSoundingAt_iff.mp sounding'
  have overlap : mark.event.start < mark'.event.finish := by
    linarith [plays.start_eq, plays'.finish_le]
  have overlap' : mark'.event.start < mark.event.finish := by
    linarith [plays'.start_eq, plays.finish_le]
  have pass := LiveLoop.pass_eq_of_overlap (proper _ loop found) member member' overlap overlap'
  rw [← pass] at member'
  exact ⟨same, pass,
    LiveLoop.chord_eq_of_overlap (proper _ loop found) member member' overlap overlap'⟩

end Together

end World

end Portamento
