import Portamento.Proofs.Transport.Effect

/-!
# Where the plans of the live loops come from

Every live loop plays a score that some text has been read as, laid out in the envelope shape and
after the lead-in of the settings that the transport was given; neither of these ever changes.
-/

namespace Portamento

variable {α : Type} [Tonal α]

/-- Whether a score is what some text reads as at some tempo. -/
def Score.IsRead {α : Type} [Scalar α] (score : Score α) : Prop :=
  ∃ text tempo, Score.read text tempo = .ok score

namespace World

/-- What becomes of the settings that a transport was given. -/
structure Provenance (settings : Settings α) (w : World α) : Prop where
  leadIn_eq : w.transport.settings.leadIn = settings.leadIn
  shape_eq : w.transport.shape = settings.shape
  kept : ∀ kept, w.transport.cache = some kept → kept.score.IsRead
  planned : ∀ loop ∈ w.transport.loops, loop.plan.leadIn = settings.leadIn ∧
    ∃ score : Score α, score.IsRead ∧
      loop.plan.pass = Timeline.ofScore settings.shape score (Scalar.ofNat 0)

variable {settings : Settings α} {w after : World α}

theorem Provenance.launch (settings : Settings α) (text : List Char) (rate rendererRate : Nat)
    (limits : DeviceLimits) (unavailable instant : Nat) :
    Provenance settings (launch settings text rate rendererRate limits unavailable instant) where
  leadIn_eq := rfl
  shape_eq := rfl
  kept _ found := nomatch found
  planned _ member := nomatch member

/-- A score that the transport can come to play is one that some text reads as. -/
theorem Provenance.isRead_of_knows (provenance : Provenance settings w) {score : Score α}
    (known : w.transport.Knows score) : score.IsRead := by
  rcases known with ⟨kept, found, rfl⟩ | read
  · exact provenance.kept kept found
  · exact ⟨_, _, read⟩

/-- Beginning anew changes no setting, and keeps no score but one that has been read. -/
theorem settings_eq_of_beginsAnew {t next : Transport α} {instant : Nat}
    {result : Except (TransportFault α) Unit} (begins : t.BeginsAnew instant (next, result)) :
    next.settings.leadIn = t.settings.leadIn ∧ next.shape = t.shape ∧ t.Keeps next.cache := by
  cases begins with
  | bare => exact ⟨rfl, rfl, .same⟩
  | failed source _ cache keeps => exact ⟨rfl, rfl, keeps⟩
  | rendered source _ kept keeps => exact ⟨rfl, rfl, keeps⟩
  | live source _ kept keeps => exact ⟨rfl, rfl, keeps⟩

/-- Nor does any other move, apart from the tempo. -/
theorem Move.settings_eq (move : Move w after) :
    after.transport.settings.leadIn = w.transport.settings.leadIn ∧
      after.transport.shape = w.transport.shape ∧
      w.transport.Keeps after.transport.cache := by
  cases move with
  | advance => exact ⟨rfl, rfl, .same⟩
  | limit => exact ⟨rfl, rfl, .same⟩
  | step => exact ⟨rfl, rfl, .same⟩
  | edit transport idle edits =>
    obtain ⟨text, tempo, cache, rfl, keeps⟩ := edits.eq
    exact ⟨rfl, rfl, keeps⟩
  | takeUp transport errand idle takes =>
    obtain ⟨loops, logged, rfl, -⟩ := takes.eq
    exact ⟨rfl, rfl, .same⟩
  | carryOut errand =>
    cases errand with
    | pausing => exact ⟨rfl, rfl, .same⟩
    | resuming => exact ⟨rfl, rfl, .same⟩
    | stopping => exact ⟨rfl, rfl, .same⟩
    | collecting outcome => cases outcome <;> exact ⟨rfl, rfl, .same⟩
    | restarting => exact ⟨rfl, rfl, .same⟩
    | beginning => exact settings_eq_of_beginsAnew (w.transport.startAnew_spec w.instant)

theorem Provenance.move (provenance : Provenance settings w) (move : Move w after)
    (effect : Effect w after) : Provenance settings after := by
  obtain ⟨leadIn, shape, keeps⟩ := move.settings_eq
  refine ⟨leadIn.trans provenance.leadIn_eq, shape.trans provenance.shape_eq,
    fun found found_eq => provenance.isRead_of_knows (keeps.knows found found_eq), ?_⟩
  have planned := provenance.planned
  cases effect with
  | keeps _ _ loops => rwa [loops]
  | steps i loop next numbered step _ loops =>
    intro found member
    rw [loops] at member
    rcases List.mem_or_eq_of_mem_set member with old | rfl
    · exact planned found old
    · rw [step.plan_eq]
      exact planned loop (List.mem_of_getElem? numbered)
  | tells _ _ _ loops =>
    intro found member
    obtain ⟨i, at_i⟩ := List.mem_iff_getElem?.mp member
    obtain ⟨before, numbered, ⟨-, rfl⟩ | ⟨-, rfl⟩⟩ := Transport.loop_of_revoked loops at_i
    · exact planned before (List.mem_of_getElem? numbered)
    · exact planned found (List.mem_of_getElem? numbered)
  | cuts _ _ loops => rwa [loops]
  | begins score known _ _ loops =>
    intro found member
    rw [loops] at member
    rcases List.mem_append.mp member with old | new
    · exact planned found old
    · rw [List.mem_singleton.mp new]
      refine ⟨provenance.leadIn_eq, score, provenance.isRead_of_knows known, ?_⟩
      rw [← provenance.shape_eq]
      rfl

end World

end Portamento
