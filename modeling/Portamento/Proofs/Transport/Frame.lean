import Portamento.Proofs.Transport.Errand

/-!
# What the parts of an operation change

Telling a loop to stop sets its mark. Silencing ends the session and cuts the sound off; holding and
releasing touch the clock. Beginning anew leaves the old loops alone: it fails, or hands a rendered
pass to the device, or adds a loop that has done nothing.
-/

namespace Portamento

variable {α : Type}

/-- The same sound: tones, buffer and the reading of the clock at an instant. -/
structure Device.SoundsLike [Tonal α] (device other : Device α) (instant : Nat) : Prop where
  tones_eq : device.tones = other.tones
  buffer_eq : device.buffer = other.buffer
  now_eq : device.now instant = other.now instant

namespace Transport

/-- The session's loop is told to stop, if there is one, and nothing else changes. -/
theorem revoke_eq (t : Transport α) : ∃ loops, t.revoke = { t with loops } ∧
    loops.length = t.loops.length ∧ ∀ i, loops[i]? =
      if t.current? = some i then t.loops[i]?.map LiveLoop.cancel else t.loops[i]? := by
  obtain ⟨settings, shape, text, source, device, cache, session, loops, logged⟩ := t
  rcases session with _ | ⟨_ | loop, looping, paused⟩
  · exact ⟨loops, rfl, rfl, fun i => by simp [current?]⟩
  · exact ⟨loops, rfl, rfl, fun i => by simp [current?]⟩
  · refine ⟨loops.modify loop LiveLoop.cancel, rfl, List.length_modify .., fun i => ?_⟩
    simp only [current?, Option.some.injEq, List.getElem?_modify]
    split <;> simp

section Loops

variable {loops : List (LiveLoop α)} {i j : Nat} {next found : LiveLoop α}

/-- A loop of a transport that has told the loop of its session to stop. -/
theorem loop_of_revoked {t : Transport α} (revoked : ∀ i, loops[i]? =
      if t.current? = some i then t.loops[i]?.map LiveLoop.cancel else t.loops[i]?)
    (at_i : loops[i]? = some found) : ∃ before, t.loops[i]? = some before ∧
      (t.current? = some i ∧ found = before.cancel ∨ t.current? ≠ some i ∧ found = before) := by
  rw [revoked i] at at_i
  split at at_i
  · next current =>
    obtain ⟨before, numbered, rfl⟩ := Option.map_eq_some_iff.mp at_i
    exact ⟨before, numbered, .inl ⟨current, rfl⟩⟩
  · next other => exact ⟨found, at_i, .inr ⟨other, rfl⟩⟩

/-- A loop when the one with the number `i` has become another. -/
theorem loop_of_set (at_j : (loops.set i next)[j]? = some found) :
    i = j ∧ found = next ∨ i ≠ j ∧ loops[j]? = some found := by
  rw [List.getElem?_set] at at_j
  split at at_j
  · next same =>
    split at at_j
    · cases at_j
      exact .inl ⟨same, rfl⟩
    · cases at_j
  · next other => exact .inr ⟨other, at_j⟩

/-- A loop when another one has been added. -/
theorem loop_of_concat (at_j : (loops ++ [next])[j]? = some found) :
    loops[j]? = some found ∨ j = loops.length ∧ found = next := by
  rw [List.getElem?_append] at at_j
  split at at_j
  · exact .inl at_j
  · next outside =>
    obtain ⟨first, rfl⟩ := List.getElem?_eq_some_iff.mp at_j
    rw [List.length_singleton] at first
    exact .inr ⟨by omega, List.getElem_singleton _⟩

/-- Which loop is the one of the session depends on the session alone. -/
theorem current?_congr {t u : Transport α} (session : t.session = u.session) :
    t.current? = u.current? := by
  simp only [current?, session]

/-- Without a session there is no loop of one. -/
theorem current?_of_idle {t : Transport α} (idle : t.session = none) : t.current? = none := by
  simp only [current?, idle]

end Loops

variable [Tonal α] (t : Transport α) (instant : Nat)

/-- A score that the transport can come to play: the one that it has kept, or the one that its text
reads as at its tempo. -/
def Knows (score : Score α) : Prop :=
  (∃ kept, t.cache = some kept ∧ kept.score = score) ∨
    Score.read t.text t.settings.tempo = .ok score

/-- What the transport can come to keep: what it has kept, or the score that its text reads as at
its tempo, without a pass; and either with the pass that its device's renderer makes of it. -/
inductive Keeps : Option (ReadScore α) → Prop where
  | same : Keeps t.cache
  | read (score : Score α) (reads : Score.read t.text t.settings.tempo = .ok score) :
      Keeps (some ⟨t.text, t.settings.tempo, score, none⟩)
  | rendered (kept : ReadScore α) (keeps : Keeps (some kept)) (pass : Buffer α)
      (renders : Mixing.renderPass t.shape kept.score t.heldDevice.rendererRate = .ok pass) :
      Keeps (some { kept with pass := some pass })

variable {t} in
theorem Keeps.knows {cache : Option (ReadScore α)} (keeps : t.Keeps cache) :
    ∀ kept, cache = some kept → t.Knows kept.score := by
  induction keeps with
  | same => exact fun kept found => .inl ⟨kept, found, rfl⟩
  | read score reads =>
    intro kept found
    cases found
    exact .inr reads
  | rendered before _ pass _ ih =>
    intro kept found
    cases found
    exact ih before rfl

variable {t} in
/-- To have got hold of the device makes no difference. -/
theorem Keeps.of_held {source : DeviceSource α} {cache : Option (ReadScore α)}
    (keeps : Keeps { t with source, device := some t.heldDevice } cache) : t.Keeps cache := by
  induction keeps with
  | same => exact .same
  | read score reads => exact .read score reads
  | rendered kept _ pass renders ih => exact .rendered kept ih pass renders

/-- Reading the score anew changes only what is kept of it, and a score that has been read is
kept. -/
theorem resolve_eq : ∃ cache, t.resolve.1 = { t with cache } ∧ t.Keeps cache ∧
    ∀ score, t.resolve.2 = .ok score → ∃ kept, cache = some kept ∧ kept.score = score := by
  unfold resolve
  split
  · next kept found =>
    refine ⟨t.cache, rfl, .same, fun score read => ⟨kept, ?_, Except.ok.inj read⟩⟩
    exact (Option.filter_eq_some_iff.mp found).1
  · split
    · exact ⟨t.cache, rfl, .same, fun score read => nomatch read⟩
    · next score read =>
      exact ⟨_, rfl, .read score read, fun score' read' => ⟨_, rfl, Except.ok.inj read'⟩⟩

/-- The score depends on what is kept, the text and the tempo alone. -/
theorem resolve_snd_of_held (source : DeviceSource α) (device : Option (Device α)) :
    (resolve { t with source, device }).2 = t.resolve.2 := by
  have kept : kept? { t with source, device } = t.kept? := rfl
  unfold resolve
  rw [kept]
  dsimp only
  split
  · rfl
  · split <;> rfl

omit [Tonal α] in
/-- A device that has been asked for is the one that was held, or the one to be had. -/
theorem acquire_eq : ∃ source, source.device = t.source.device ∧
    ((∃ fault, t.acquire = ({ t with source }, .error fault)) ∨
      t.acquire = ({ t with source, device := some t.heldDevice }, .ok t.heldDevice)) := by
  obtain ⟨settings, shape, text, source, device, cache, session, loops, logged⟩ := t
  cases device with
  | some device => exact ⟨source, rfl, .inr rfl⟩
  | none =>
    refine ⟨{ source with requests := source.requests + 1 }, rfl, ?_⟩
    by_cases early : source.requests + 1 ≤ source.unavailable
    · refine .inl ⟨.deviceUnavailable "no output", ?_⟩
      simp only [acquire, DeviceSource.acquire, early, if_true]
    · refine .inr ?_
      simp only [acquire, DeviceSource.acquire, early, if_false]
      rfl

/-- The pass of a score that is kept is the one that is kept with it, or else is rendered and kept.
-/
theorem renderedPass_eq (kept : ReadScore α) (device : Device α) :
    (∃ fault, renderedPass { t with cache := some kept } device kept.score =
        ({ t with cache := some kept }, .error fault)) ∨
      ∃ found pass, renderedPass { t with cache := some kept } device kept.score =
          ({ t with cache := some found }, .ok pass) ∧
        found.score = kept.score ∧ found.pass = some pass ∧ (found = kept ∨
          Mixing.renderPass t.shape kept.score device.rendererRate = .ok pass ∧
            found = { kept with pass := some pass }) := by
  unfold renderedPass
  cases found : kept.pass with
  | some pass =>
    simp only [Option.bind_some, found]
    exact .inr ⟨kept, pass, rfl, rfl, found, .inl rfl⟩
  | none =>
    simp only [Option.bind_some, found]
    cases renders : Mixing.renderPass t.shape kept.score device.rendererRate with
    | error fault => exact .inl ⟨fault, rfl⟩
    | ok pass => exact .inr ⟨{ kept with pass := some pass }, pass, rfl, rfl, rfl, .inr ⟨rfl, rfl⟩⟩

/-- What beginning anew makes of a transport, and with which result. -/
inductive BeginsAnew : Transport α × Except (TransportFault α) Unit → Prop where
  /-- There is no device to be had. -/
  | bare (source : DeviceSource α) (same : source.device = t.source.device)
      (fault : TransportFault α) : BeginsAnew ({ t with source }, .error fault)
  /-- There is a device, but the text does not read as a score, or the pass cannot be rendered or
  played. -/
  | failed (source : DeviceSource α) (same : source.device = t.source.device)
      (cache : Option (ReadScore α)) (keeps : t.Keeps cache) (device : Device α)
      (like : device.SoundsLike t.heldDevice instant)
      (renderer : device.rendererRate = t.heldDevice.rendererRate) (fault : TransportFault α) :
      BeginsAnew ({ t with source, cache, device := some device }, .error fault)
  | rendered (source : DeviceSource α) (same : source.device = t.source.device)
      (kept : ReadScore α) (keeps : t.Keeps (some kept)) (resolves : t.resolve.2 = .ok kept.score)
      (device : Device α) (tones : device.tones = t.heldDevice.tones)
      (now : device.now instant = t.heldDevice.now instant)
      (renderer : device.rendererRate = t.heldDevice.rendererRate)
      (runs : device.clock.isRunning = true) (pass : Buffer α) (startedAt : α)
      (found : kept.pass = some pass)
      (plays : device.buffer = some ⟨pass, startedAt, t.settings.looping⟩) :
      BeginsAnew ({ t with source, cache := some kept, device := some device }.begin kept.score
        (.rendered pass startedAt), .ok ())
  | live (source : DeviceSource α) (same : source.device = t.source.device)
      (kept : ReadScore α) (keeps : t.Keeps (some kept)) (resolves : t.resolve.2 = .ok kept.score)
      (mode : t.settings.mode = .live) :
      BeginsAnew ({ t with source, cache := some kept, device := some t.heldDevice }.startLive
        instant kept.score, .ok ())

/-- Beginning to play a rendered pass. -/
theorem startRendered_spec (source : DeviceSource α) (same : source.device = t.source.device)
    (kept : ReadScore α) (keeps : t.Keeps (some kept)) (resolves : t.resolve.2 = .ok kept.score) :
    t.BeginsAnew instant ({ t with
      source, cache := some kept, device := some t.heldDevice }.startRendered instant t.heldDevice
        kept.score) := by
  obtain ⟨fault, failed⟩ | ⟨found, pass, done, score, with_pass, origin⟩ := renderedPass_eq
    { t with source, device := some t.heldDevice } kept t.heldDevice
  · simp only [startRendered, failed]
    exact .failed source same (some kept) keeps t.heldDevice ⟨rfl, rfl, rfl⟩ rfl _
  · -- the pass may have been rendered for an earlier session, or just now
    have keeps' : t.Keeps (some found) := by
      rcases origin with rfl | ⟨renders, rfl⟩
      · exact keeps
      · exact .rendered kept keeps pass renders
    simp only [startRendered, done]
    rw [← score] at resolves ⊢
    split
    · exact .failed source same (some found) keeps' (t.heldDevice.resume instant)
        ⟨rfl, rfl, t.heldDevice.now_resume instant⟩ rfl _
    · next playing plays =>
      unfold Device.play at plays
      split at plays
      · cases plays
        refine .rendered source same found keeps' resolves _ ?_ ?_ ?_ ?_ pass _ with_pass rfl
        · rfl
        · exact t.heldDevice.now_resume instant
        · rfl
        · exact t.heldDevice.clock.isRunning_resume instant
      · cases plays

theorem startAnew_spec : t.BeginsAnew instant (t.startAnew instant) := by
  obtain ⟨source, same, ⟨fault, refused⟩ | acquired⟩ := t.acquire_eq
  · simp only [startAnew, refused]
    exact .bare source same _
  · simp only [startAnew, acquired]
    obtain ⟨cache, eq, keeps, present⟩ :=
      resolve_eq { t with source, device := some t.heldDevice }
    have resolves := t.resolve_snd_of_held source (some t.heldDevice)
    split
    · next resolved fault failed =>
      rw [failed] at eq
      rw [show resolved = _ from eq]
      exact .failed source same cache keeps.of_held t.heldDevice ⟨rfl, rfl, rfl⟩ rfl _
    · next resolved score read =>
      rw [read] at eq present resolves
      rw [show resolved = _ from eq]
      obtain ⟨kept, rfl, rfl⟩ := present score rfl
      split
      · exact t.startRendered_spec instant source same kept keeps.of_held resolves.symm
      · next mode => exact .live source same kept keeps.of_held resolves.symm mode

/-- A new transport with a device at hand, and with envelopes of the given shape. -/
def newShaped (settings : Settings α) (shape : EnvelopeShape α) (text : List Char)
    (device : Device α) : Transport α :=
  { new settings text ⟨device, 0, 0⟩ with shape }

/-- A transport that has got its device and read its text, and has begun nothing. -/
def prepared (settings : Settings α) (text : List Char) (device : Device α) (score : Score α) :
    Transport α :=
  { new settings text ⟨device, 0, 1⟩ with
    device := some device
    cache := some ⟨text, settings.tempo, score, none⟩ }

/-- What a new transport begins, if its text reads as a score. -/
theorem startAnew_newShaped {settings : Settings α} {text : List Char} {score : Score α}
    (shape : EnvelopeShape α) (device : Device α)
    (reads : Score.read text settings.tempo = .ok score) :
    (newShaped settings shape text device).startAnew instant =
      match settings.mode with
      | .rendered => startRendered { prepared settings text device score with shape } instant device
          score
      | .live => (startLive { prepared settings text device score with shape } instant score,
          .ok ()) := by
  let acquired : Transport α :=
    { new settings text ⟨device, 0, 1⟩ with shape, device := some device }
  have acquires : (newShaped settings shape text device).acquire = (acquired, .ok device) := rfl
  have resolves : acquired.resolve =
      ({ prepared settings text device score with shape }, .ok score) := by
    have read : Score.read acquired.text acquired.settings.tempo = .ok score := reads
    simp only [resolve, read]
    rfl
  simp only [startAnew, acquires, resolves]
  rfl

/-- What a new transport begins with a live loop, if its text reads as a score. -/
theorem startAnew_new {settings : Settings α} {text : List Char} {score : Score α}
    (device : Device α) (mode : settings.mode = .live)
    (reads : Score.read text settings.tempo = .ok score) :
    (new settings text ⟨device, 0, 0⟩).startAnew instant =
      ((prepared settings text device score).startLive instant score, .ok ()) := by
  have begins := startAnew_newShaped instant settings.shape device reads
  rw [mode] at begins
  exact begins

/-- A score that was read from the current text at the current tempo is current. -/
theorem kept?_of_current {t : Transport α} {kept : ReadScore α} (cached : t.cache = some kept)
    (text : kept.text = t.text) (tempo : kept.tempo = t.settings.tempo)
    (equal : kept.tempo ≤ kept.tempo) : t.kept? = some kept := by
  rw [kept?, cached]
  refine Option.filter_eq_some_iff.mpr ⟨rfl, decide_eq_true ⟨text, ?_, ?_⟩⟩
  · rwa [← tempo]
  · rwa [← tempo]

/-- What is begun with a live loop on a device that is held, if the score is kept. -/
theorem startAnew_of_kept {t : Transport α} {device : Device α} {kept : ReadScore α}
    (held : t.device = some device) (current : t.kept? = some kept)
    (mode : t.settings.mode = .live) :
    t.startAnew instant = (t.startLive instant kept.score, .ok ()) := by
  simp only [startAnew, acquire, held, resolve, current, mode]

end Transport

end Portamento
