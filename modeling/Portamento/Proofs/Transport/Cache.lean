import Portamento.Proofs.Score.Reading
import Portamento.Proofs.Transport.Final
import Portamento.Proofs.Transport.Provenance

/-!
# What is kept is what would be found anew

A transport keeps the last score that it has read, with the text and the tempo it was read from, and
the pass that has been rendered from it. A kept score is compared with text and tempo before it is
taken, a kept pass with nothing. That this is enough rests on the order of the two: whoever asks for
the pass has asked for the score just before, and another score is kept without a pass.
-/

namespace Portamento

variable {α : Type} [Tonal α]

/-- What is kept is genuine if it was read and rendered as it would be now. -/
structure ReadScore.IsGenuine (kept : ReadScore α) (shape : EnvelopeShape α) (rate : Nat) :
    Prop where
  read_eq : Score.read kept.text kept.tempo = .ok kept.score
  pass_eq : ∀ pass, kept.pass = some pass →
    Mixing.renderPass shape kept.score rate = .ok pass

namespace Transport

/-- Whether what the transport keeps is genuine, for its envelopes and the renderer of its device.
-/
def IsGenuine (t : Transport α) : Prop :=
  ∀ kept, t.cache = some kept → kept.IsGenuine t.shape t.heldDevice.rendererRate

/-- The device plays a pass of the current text at the current tempo, rendered anew. -/
def HandsOver (t next : Transport α) : Prop :=
  ∃ score pass device startedAt, Score.read t.text t.settings.tempo = .ok score ∧
    Mixing.renderPass t.shape score device.rendererRate = .ok pass ∧
    next.device = some device ∧ device.buffer = some ⟨pass, startedAt, t.settings.looping⟩

variable {t after : Transport α} {instant : Nat}

/-- Whatever the transport comes to keep is genuine. -/
theorem IsGenuine.keeps (genuine : t.IsGenuine) {cache : Option (ReadScore α)}
    (keeps : t.Keeps cache) :
    ∀ kept, cache = some kept → kept.IsGenuine t.shape t.heldDevice.rendererRate := by
  induction keeps with
  | same => exact genuine
  | read score reads =>
    intro kept found
    cases found
    exact ⟨reads, fun pass rendered => nomatch rendered⟩
  | rendered before _ pass renders ih =>
    intro kept found
    cases found
    refine ⟨(ih before rfl).read_eq, fun pass' found' => ?_⟩
    cases found'
    exact renders

/-- It stays so, for as long as envelopes and renderer are the same. -/
theorem IsGenuine.of_keeps (genuine : t.IsGenuine) (keeps : t.Keeps after.cache)
    (shape : after.shape = t.shape)
    (renderer : after.heldDevice.rendererRate = t.heldDevice.rendererRate) : after.IsGenuine := by
  unfold IsGenuine
  rw [shape, renderer]
  exact genuine.keeps keeps

section Renderer

omit [Tonal α] in
/-- Whatever is done to a device, if it leaves alone what is read of it. -/
theorem read_map (read : Device α → Nat) (change : Device α → Device α)
    (same : ∀ device, read (change device) = read device) (device : Option (Device α))
    (other : Device α) : read ((device.map change).getD other) = read (device.getD other) := by
  cases device with
  | none => rfl
  | some device => exact same device

theorem rendererRate_silence (t : Transport α) (instant : Nat) :
    (t.silence instant).heldDevice.rendererRate = t.heldDevice.rendererRate :=
  read_map Device.rendererRate (fun device => device.stopBuffer.cancelScheduled instant)
    (fun _ => rfl) _ _

/-- The device that is had is the one that was to be had. -/
theorem BeginsAnew.rendererRate_eq {result : Transport α × Except (TransportFault α) Unit}
    (begins : t.BeginsAnew instant result) :
    result.1.heldDevice.rendererRate = t.heldDevice.rendererRate := by
  cases begins with
  | bare source same => simp only [heldDevice, same]
  | failed source same cache keeps device like renderer => exact renderer
  | rendered source same kept keeps resolves device tones now renderer => exact renderer
  | live => rfl

end Renderer

section Fresh

variable [Scalar.Antisymmetric α] (genuine : t.IsGenuine)

include genuine

/-- A kept score is taken only for the text and the tempo that it was read from. -/
theorem IsGenuine.read_of_kept? {kept : ReadScore α} (found : t.kept? = some kept) :
    Score.read t.text t.settings.tempo = .ok kept.score := by
  obtain ⟨cached, same⟩ := Option.filter_eq_some_iff.mp found
  obtain ⟨text, low, high⟩ := of_decide_eq_true same
  have read := (genuine kept cached).read_eq
  obtain ⟨-, positive, -⟩ := Score.read_eq_ok.mp read
  rwa [text, Scalar.Antisymmetric.eq_of_le_of_le _ _ positive low high] at read

/-- To resolve is to read, faults included. -/
theorem IsGenuine.resolve_snd : t.resolve.2 = Score.read t.text t.settings.tempo := by
  unfold resolve
  split
  · next kept found => exact (genuine.read_of_kept? found).symm
  · split
    · next fault failed => exact failed.symm
    · next score read => exact read.symm

/-- A session that plays a rendered pass is begun with a pass of the current text at the current
tempo. -/
theorem BeginsAnew.handsOver {result : Transport α × Except (TransportFault α) Unit}
    (begins : t.BeginsAnew instant result) (mode : t.settings.mode = .rendered)
    (begun : result.2 = .ok ()) : t.HandsOver result.1 := by
  cases begins with
  | bare => cases begun
  | failed => cases begun
  | rendered source same kept keeps resolves device tones now renderer runs pass startedAt found
      plays =>
    have read := genuine.resolve_snd.symm.trans resolves
    have renders := (genuine.keeps keeps kept rfl).pass_eq pass found
    rw [← renderer] at renders
    exact ⟨kept.score, pass, device, startedAt, read, renders, rfl, plays⟩
  | live source same kept keeps resolves live => cases mode.symm.trans live

/-- So it is if there is a session to be ended before. -/
theorem IsGenuine.start_handsOver (unpaused : t.state ≠ .paused)
    (mode : t.settings.mode = .rendered) (begun : (t.start instant).2 = .ok ()) :
    t.HandsOver (t.start instant).1 := by
  unfold start at begun ⊢
  split at begun
  · next paused => exact absurd paused unpaused
  · unfold teardown at begun ⊢
    split at begun
    · exact (t.startAnew_spec instant).handsOver genuine mode begun
    · obtain ⟨loops, eq, -⟩ := t.revoke_eq
      rw [eq] at begun ⊢
      have genuine' : (silence { t with loops } instant).IsGenuine :=
        genuine.of_keeps .same rfl (rendererRate_silence _ instant)
      exact (startAnew_spec _ instant).handsOver genuine' mode begun

end Fresh

end Transport

namespace World

variable {w after : World α}

/-- A device keeps its renderer, and no other device takes its place. -/
theorem Move.rendererRate_eq (move : Move w after) :
    after.device.rendererRate = w.device.rendererRate := by
  cases move with
  | advance => rfl
  | limit limits =>
    simp only [World.device, w.transport.heldDevice_limited limits]
    rfl
  | step i loop next device after held numbered taken =>
    have before : w.device = device := Transport.heldDevice_eq held
    rw [before]
    exact (LiveLoop.step_of_step? taken).rendererRate_eq
  | edit transport idle edits =>
    obtain ⟨text, tempo, cache, rfl, -⟩ := edits.eq
    rfl
  | takeUp transport errand idle takes =>
    obtain ⟨loops, logged, rfl, -⟩ := takes.eq
    rfl
  | carryOut errand =>
    have cut := w.transport.rendererRate_silence w.instant
    cases errand with
    | pausing =>
      exact Transport.read_map Device.rendererRate (fun device => device.suspend w.instant)
        (fun _ => rfl) _ _
    | resuming =>
      exact Transport.read_map Device.rendererRate (fun device => device.resume w.instant)
        (fun _ => rfl) _ _
    | stopping => exact cut
    | collecting outcome => cases outcome <;> exact cut
    | restarting => exact cut
    | beginning => exact (w.transport.startAnew_spec w.instant).rendererRate_eq

/-- Every move keeps what is genuine. -/
theorem genuine_of_move (genuine : w.transport.IsGenuine) (move : Move w after) :
    after.transport.IsGenuine := by
  obtain ⟨-, shape, keeps⟩ := move.settings_eq
  exact genuine.of_keeps keeps shape move.rendererRate_eq

/-- And so does every run, from a transport that has kept nothing. -/
theorem genuine_of_run {settings : Settings α} {text : List Char} {rate rendererRate : Nat}
    {limits : DeviceLimits} {unavailable instant : Nat}
    (reached : Run (launch settings text rate rendererRate limits unavailable instant) w) :
    w.transport.IsGenuine := by
  induction reached with
  | refl => exact fun _ cached => nomatch cached
  | tail _ move genuine => exact genuine_of_move genuine move

/-- What a transport answers and plays, said without its cache. -/
structure Fresh (w : World α) : Prop where
  resolves : w.transport.resolve.2 = Score.read w.transport.text w.transport.settings.tempo
  /-- From the top, whatever has been kept. -/
  plays : w.transport.state ≠ .paused → w.transport.settings.mode = .rendered →
    (w.transport.start w.instant).2 = .ok () →
    w.transport.HandsOver (w.transport.start w.instant).1
  /-- So does a beginning that has been put off until a loop had let go of the device. -/
  plays_later : w.errand = some .beginning → w.transport.settings.mode = .rendered →
    (w.transport.startAnew w.instant).2 = .ok () →
    w.transport.HandsOver (w.carriedOut .beginning).transport

/-- Whatever has been edited, read, begun and ended before, and with whatever success: nothing that
the transport has kept is out of date when it is taken. -/
theorem cache_is_never_stale [Scalar.Antisymmetric α] (settings : Settings α) (text : List Char)
    (rate rendererRate : Nat) (limits : DeviceLimits) (unavailable instant : Nat) (w : World α)
    (reached : Run (launch settings text rate rendererRate limits unavailable instant) w) :
    Fresh w := by
  have genuine := genuine_of_run reached
  constructor
  case resolves => exact genuine.resolve_snd
  case plays => exact genuine.start_handsOver
  case plays_later => exact fun _ => (w.transport.startAnew_spec w.instant).handsOver genuine

section OneNote

/-- Settings under which a text is played as a rendered pass, a beat a second. -/
noncomputable def renderedSettings : Settings ℝ := { liveSettings with mode := .rendered }

theorem renderPass_oneNote : ∃ pass : Buffer ℝ,
    Mixing.renderPass renderedSettings.shape oneNoteScore 8 = .ok pass ∧ pass.rate = 8 := by
  obtain ⟨list, emitted⟩ : ∃ list, ToneList.empty.emitAll
      (Timeline.ofScore renderedSettings.shape oneNoteScore (Scalar.ofNat 0)) = .ok list :=
    ⟨_, rfl⟩
  have seconds : oneNoteScore.totalSeconds = 1 := by
    simp [Score.totalSeconds, oneNoteScore, Scalar.sum]
  have length : Mixing.framesFor oneNoteScore.totalSeconds 8 = 8 := by
    have count : ⌊(8 : ℝ) + 2⁻¹⌋₊ = 8 := by
      rw [Nat.floor_eq_iff (by norm_num)]
      norm_num
    simpa [Mixing.framesFor, Scalar.max, Scalar.nearestCount, seconds] using count
  refine ⟨Mixing.render list oneNoteScore.totalSeconds 8, ?_, rfl⟩
  simp only [Mixing.renderPass, emitted, bind, Except.bind, Mixing.render?, length]
  rfl

/-- A world in which that text is about to be played. -/
noncomputable def renderedLaunch : World ℝ :=
  launch renderedSettings ['a'] 8 8 ⟨none, none⟩ 0 0

/-- The transport when the score has been read on a device, with what is kept of it. -/
noncomputable def renderedReady (pass : Option (Buffer ℝ)) : Transport ℝ :=
  { renderedLaunch.transport with
    source := { renderedLaunch.transport.source with requests := 1 }
    device := some renderedLaunch.device
    cache := some ⟨['a'], renderedSettings.tempo, oneNoteScore, pass⟩ }

/-- The device when it plays a pass. -/
noncomputable def renderedDevice (pass : Buffer ℝ) : Device ℝ :=
  { renderedLaunch.device.resume 0 with
    buffer := some ⟨pass, (renderedLaunch.device.resume 0).now 0 + renderedSettings.leadIn,
      renderedSettings.looping⟩ }

/-- The transport when the session has been begun. -/
noncomputable def renderedPlaying (pass : Buffer ℝ) : Transport ℝ :=
  { renderedReady (some pass) with device := some (renderedDevice pass) }.begin oneNoteScore
    (.rendered pass ((renderedLaunch.device.resume 0).now 0 + renderedSettings.leadIn))

theorem startAnew_rendered {pass : Buffer ℝ}
    (rendered : Mixing.renderPass renderedSettings.shape oneNoteScore 8 = .ok pass)
    (rate : pass.rate = 8) :
    renderedLaunch.transport.startAnew 0 = (renderedPlaying pass, .ok ()) := by
  let acquired : Transport ℝ :=
    { renderedLaunch.transport with
      source := { renderedLaunch.transport.source with requests := 1 }
      device := some renderedLaunch.device }
  have acquires : renderedLaunch.transport.acquire = (acquired, .ok renderedLaunch.device) := rfl
  have read : Score.read acquired.text acquired.settings.tempo = .ok oneNoteScore :=
    read_oneNoteScore
  have resolves : acquired.resolve = (renderedReady none, .ok oneNoteScore) := by
    simp only [Transport.resolve, read]
    rfl
  have renders : (renderedReady none).renderedPass renderedLaunch.device oneNoteScore =
      (renderedReady (some pass), .ok pass) := by
    have fresh : Mixing.renderPass (renderedReady none).shape oneNoteScore
      renderedLaunch.device.rendererRate = .ok pass := rendered
    have nothing : (renderedReady none).cache.bind ReadScore.pass = none := rfl
    simp only [Transport.renderedPass, nothing, fresh]
    rfl
  have plays : (renderedLaunch.device.resume 0).play pass
      ((renderedLaunch.device.resume 0).now 0 + (renderedReady (some pass)).settings.leadIn)
      (renderedReady (some pass)).settings.looping = .ok (renderedDevice pass) := by
    rw [Device.play, if_pos]
    · rfl
    · exact rate
  have mode : (renderedReady none).settings.mode = .rendered := rfl
  simp only [Transport.startAnew, acquires, resolves, mode, Transport.startRendered, renders, plays]
  rfl

/-- A pass that is kept is played again. -/
theorem start_rendered {pass : Buffer ℝ} (rate : pass.rate = 8) :
    ((renderedPlaying pass).start 0).2 = .ok () := by
  let silent : Transport ℝ := (renderedPlaying pass).silence 0
  have starts : (renderedPlaying pass).start 0 = silent.startAnew 0 := rfl
  let device : Device ℝ := (renderedDevice pass).stopBuffer.cancelScheduled 0
  have acquires : silent.acquire = (silent, .ok device) := rfl
  have kept : silent.kept? = some ⟨['a'], renderedSettings.tempo, oneNoteScore, some pass⟩ :=
    Transport.kept?_of_current rfl rfl rfl (le_refl _)
  have resolves : silent.resolve = (silent, .ok oneNoteScore) := by
    simp only [Transport.resolve, kept]
  have renders : silent.renderedPass device oneNoteScore = (silent, .ok pass) := rfl
  have mode : silent.settings.mode = .rendered := rfl
  have plays (startedAt : ℝ) (looping : Bool) : (device.resume 0).play pass startedAt looping =
      .ok { device.resume 0 with buffer := some ⟨pass, startedAt, looping⟩ } := by
    rw [Device.play, if_pos]
    exact rate
  simp only [starts, Transport.startAnew, acquires, resolves, mode, Transport.startRendered,
    renders, plays]

/-- The law at a start from the top, while a pass is playing that has been rendered before. -/
theorem cache_is_never_stale_oneNote : ∃ w : World ℝ, Run renderedLaunch w ∧
    w.transport.state = .playing ∧
      (∃ kept, w.transport.cache = some kept ∧ kept.pass.isSome = true) ∧ Fresh w ∧
      (w.transport.start w.instant).2 = .ok () ∧
      w.transport.HandsOver (w.transport.start w.instant).1 := by
  obtain ⟨pass, rendered, rate⟩ := renderPass_oneNote
  let playing : World ℝ := ⟨0, renderedPlaying pass, none, []⟩
  have starts : Move renderedLaunch { renderedLaunch with errand := some .beginning } :=
    .takeUp _ _ rfl (.start rfl)
  have opened : Move { renderedLaunch with errand := some .beginning } playing := by
    have move : Move { renderedLaunch with errand := some .beginning } _ :=
      .carryOut .beginning rfl fun _ member => absurd member List.not_mem_nil
    have next : (renderedLaunch.transport.carryOut 0 .beginning).1 = renderedPlaying pass :=
      congrArg Prod.fst (startAnew_rendered rendered rate)
    rw [show playing = _ from congrArg (World.mk 0 · none []) next.symm]
    exact move
  have run : Run renderedLaunch playing := (Relation.ReflTransGen.single starts).tail opened
  have law := cache_is_never_stale renderedSettings ['a'] 8 8 ⟨none, none⟩ 0 0 playing run
  have again : (playing.transport.start playing.instant).2 = .ok () := start_rendered rate
  have unpaused : playing.transport.state ≠ .paused := by
    rw [show playing.transport.state = .playing from rfl]
    decide
  exact ⟨playing, run, rfl, ⟨_, rfl, rfl⟩, law, again, law.plays unpaused rfl again⟩

end OneNote

end World

end Portamento
