import Portamento.Proofs.Toml.Figure
import Portamento.Proofs.Toml.Quotation
import Portamento.Settings.Sources

/-!
# Printed settings are read back

Settings that pass the check are read back from their printed form, bit for bit, provided that the
name of the log level consists of legible characters. Nobody checks that name; with another
character in it the printed form is no configuration file at all.
-/

namespace Portamento.Settings

open Decimal Toml

/-- The line that sets a name to a double. -/
def numberLine (name : String) (x : Float) : Line :=
  .entry name (literal.show x).toList (some (.float x))

/-- The printed settings, line by line. -/
def lines (s : Settings Float) : List Line :=
  [.header "playback",
   numberLine "tempo" s.tempo,
   numberLine "lead_in_seconds" s.leadIn,
   .entry "loop" (truthText s.looping).toList (some (.boolean s.looping)),
   .entry "mode" (Text.quoted s.mode.name.toList) (some (.text s.mode.name)),
   .entry "sample_rate" (Nat.repr s.sampleRate).toList (some (.integer s.sampleRate)),
   numberLine "schedule_ahead_seconds" s.ahead,
   .header "envelope",
   numberLine "attack_ms" s.attackMs,
   numberLine "release_ms" s.releaseMs,
   .header "telemetry",
   .entry "log_level" (Text.quoted s.logLevel.toList)
    (if s.logLevel.toList.all isLegible then some (.text s.logLevel) else none)]

/-- The settings as a table. -/
def table (s : Settings Float) : Table :=
  [("playback", .table
    [("tempo", .float s.tempo), ("lead_in_seconds", .float s.leadIn), ("loop", .boolean s.looping),
     ("mode", .text s.mode.name), ("sample_rate", .integer s.sampleRate),
     ("schedule_ahead_seconds", .float s.ahead)]),
   ("envelope", .table [("attack_ms", .float s.attackMs), ("release_ms", .float s.releaseMs)]),
   ("telemetry", .table [("log_level", .text s.logLevel)])]

/-- The statements of the printed settings. -/
def statements (s : Settings Float) : List Statement :=
  [.header ⟨[], "playback"⟩,
   .entry ⟨[], "tempo"⟩ (.float s.tempo),
   .entry ⟨[], "lead_in_seconds"⟩ (.float s.leadIn),
   .entry ⟨[], "loop"⟩ (.boolean s.looping),
   .entry ⟨[], "mode"⟩ (.text s.mode.name),
   .entry ⟨[], "sample_rate"⟩ (.integer s.sampleRate),
   .entry ⟨[], "schedule_ahead_seconds"⟩ (.float s.ahead),
   .header ⟨[], "envelope"⟩,
   .entry ⟨[], "attack_ms"⟩ (.float s.attackMs),
   .entry ⟨[], "release_ms"⟩ (.float s.releaseMs),
   .header ⟨[], "telemetry"⟩,
   .entry ⟨[], "log_level"⟩ (.text s.logLevel)]

/-- The name of a mode needs no escapes. -/
theorem quoted_name (mode : PlaybackMode) :
    Text.quoted mode.name.toList = '"' :: (mode.name.toList ++ ['"']) := by
  cases mode <;> decide +kernel

/-- The printed form consists of a title and the lines. -/
theorem toList_print (s : Settings Float) :
    s.print.toList = "# glissando configuration\n".toList ++ s.lines.flatMap Line.chars := by
  unfold print
  simp only [lines, numberLine, Line.chars, quoted_name, Text.quote, String.toList_append,
    String.toList_ofList, List.flatMap_cons, List.flatMap_nil, List.append_assoc, List.cons_append,
    List.nil_append, List.append_nil]
  simp only [String.reduceToList, List.cons_append, List.nil_append]

section Lines

theorem isReadAs_truthText (b : Bool) : IsReadAs (truthText b).toList (some (.boolean b)) := by
  cases b
  · exact ⟨flush_cons (by decide), fun _ _ => rfl⟩
  · exact ⟨flush_cons (by decide), fun _ _ => rfl⟩

theorem isReadAs_name (mode : PlaybackMode) :
    IsReadAs (Text.quoted mode.name.toList) (some (.text mode.name)) := by
  have legible : mode.name.toList.all isLegible = true := by
    cases mode <;> decide +kernel
  simpa [legible] using isReadAs_quoted mode.name.toList

variable {s : Settings Float}

theorem isFinite_of_isLength {x : Float} (length : isLength x = true) : x.isFinite = true :=
  (of_decide_eq_true length).1

/-- What of the check matters in print. -/
theorem finite_of_accepted (accepted : s.validate = .ok ()) :
    s.tempo.isFinite ∧ s.leadIn.isFinite ∧ s.ahead.isFinite ∧ s.attackMs.isFinite ∧
      s.releaseMs.isFinite ∧ 0 < s.sampleRate := by
  unfold validate at accepted
  split at accepted
  · cases accepted
  next tempo =>
  split at accepted
  · cases accepted
  next leadIn =>
  split at accepted
  · cases accepted
  next rate =>
  split at accepted
  · cases accepted
  next ahead =>
  split at accepted
  · cases accepted
  next attack =>
  split at accepted
  · cases accepted
  next release =>
  exact ⟨not_not.mp fun infinite => tempo (.inl infinite), isFinite_of_isLength (not_not.mp leadIn),
    isFinite_of_isLength (not_not.mp ahead), isFinite_of_isLength (not_not.mp attack),
    isFinite_of_isLength (not_not.mp release), Nat.pos_of_ne_zero rate⟩

theorem isSound_numberLine {name : String} (plain : IsPlain name) {x : Float}
    (finite : x.isFinite = true) : (numberLine name x).IsSound :=
  ⟨plain, isReadAs_show finite⟩

theorem isSound_lines (accepted : s.validate = .ok ()) (rate : s.sampleRate ≤ greatestRate) :
    ∀ line ∈ s.lines, line.IsSound := by
  obtain ⟨tempo, leadIn, ahead, attack, release, some⟩ := finite_of_accepted accepted
  have bound : (greatestRate : ℤ) < integerBound := by decide
  have fits : (s.sampleRate : ℤ) < integerBound := by omega
  have level := isReadAs_quoted s.logLevel.toList
  rw [String.ofList_toList] at level
  simp only [lines, List.forall_mem_cons, List.not_mem_nil, false_implies, implies_true, and_true]
  exact ⟨isPlain_of_all (by decide),
    isSound_numberLine (isPlain_of_all (by decide)) tempo,
    isSound_numberLine (isPlain_of_all (by decide)) leadIn,
    ⟨isPlain_of_all (by decide), isReadAs_truthText _⟩,
    ⟨isPlain_of_all (by decide), isReadAs_name _⟩,
    ⟨isPlain_of_all (by decide), isReadAs_repr some fits⟩,
    isSound_numberLine (isPlain_of_all (by decide)) ahead,
    isPlain_of_all (by decide),
    isSound_numberLine (isPlain_of_all (by decide)) attack,
    isSound_numberLine (isPlain_of_all (by decide)) release,
    isPlain_of_all (by decide),
    ⟨isPlain_of_all (by decide), level⟩⟩

theorem mapM_lines : s.lines.mapM Line.statement? =
    if s.logLevel.toList.all isLegible then some s.statements else none := by
  unfold lines
  cases s.logLevel.toList.all isLegible <;> rfl

end Lines

section Table

variable {s : Settings Float}

theorem foldlM_statements :
    ((s.statements.foldlM Draft.add Draft.start).bind fun draft =>
      settledEntries? draft.tree.values) = some s.table :=
  rfl

/-- An entry that is there is taken over before the others are looked at. -/
theorem readTable_cons {entries : Table} {field : Field} {later : List Field} {t : Settings Float}
    {value : Value} (found : entries.lookup field.name = some value)
    (set : field.set value s = some t) :
    readTable entries (field :: later) s = readTable entries later t := by
  rw [readTable, found]
  simp only [set, Option.bind_some]

theorem modeNamed?_name (mode : PlaybackMode) : modeNamed? mode.name = some mode := by
  cases mode <;> rfl

/-- The table says what the settings are. -/
theorem ofTable?_table (rate : s.sampleRate ≤ greatestRate) : ofTable? s.table = some s := by
  have natural : rate? (.integer s.sampleRate) = some s.sampleRate := by
    rw [rate?, if_pos ⟨Int.natCast_nonneg _, by exact_mod_cast rate⟩, Int.toNat_natCast]
  have setMode (t : Settings Float) : ((mode? (.text s.mode.name)).map fun mode =>
      { t with mode }) = some { t with mode := s.mode } := by
    rw [mode?, modeNamed?_name, Option.map_some]
  have setRate (t : Settings Float) : ((rate? (.integer s.sampleRate)).map fun sampleRate =>
      { t with sampleRate }) = some { t with sampleRate := s.sampleRate } := by
    rw [natural, Option.map_some]
  have playback (t : Settings Float) : readTable
      [("tempo", .float s.tempo), ("lead_in_seconds", .float s.leadIn),
        ("loop", .boolean s.looping), ("mode", .text s.mode.name),
        ("sample_rate", .integer s.sampleRate), ("schedule_ahead_seconds", .float s.ahead)]
      playbackFields t = some { s with
        attackMs := t.attackMs, releaseMs := t.releaseMs, logLevel := t.logLevel } :=
    calc
      _ = _ := readTable_cons rfl rfl
      _ = _ := readTable_cons rfl rfl
      _ = _ := readTable_cons rfl rfl
      _ = _ := readTable_cons rfl (setMode _)
      _ = _ := readTable_cons rfl (setRate _)
      _ = _ := readTable_cons rfl rfl
  calc ofTable? s.table
      = readTable s.table sections .usual := rfl
    _ = _ := readTable_cons rfl (playback _)
    _ = _ := readTable_cons rfl rfl
    _ = _ := readTable_cons rfl rfl

end Table

/-- The printed form is read line by line. -/
theorem readAll_print {s : Settings Float} (sound : ∀ line ∈ s.lines, line.IsSound) :
    Statement.readAll (s.print.toList.length + 1) s.print.toList =
      s.lines.mapM Line.statement? := by
  have lines : s.lines.length = 12 := rfl
  have title : "# glissando configuration\n".toList.length = 26 := by decide
  obtain ⟨later, form⟩ : ∃ later, s.lines.flatMap Line.chars = '\n' :: '[' :: later := ⟨_, rfl⟩
  obtain ⟨k, length⟩ : ∃ k, s.print.toList.length = k + 26 := by
    refine ⟨(s.lines.flatMap Line.chars).length, ?_⟩
    rw [toList_print, List.length_append, title, Nat.add_comm]
  -- The title is skipped together with the empty line before the first header.
  have skipped : skipLines (k + 26) s.print.toList =
      skipLines (k + 26) (s.lines.flatMap Line.chars) := by
    rw [toList_print, form]
    have solid : IsSolid '[' := ⟨by decide, by decide⟩
    exact (skipLines_cons solid (k + 24)).trans (skipLines_cons solid (k + 25)).symm
  have enough : s.lines.length < k + 26 + 1 := by omega
  rw [← readAll_lines sound enough, length, Statement.readAll, Statement.readAll, skipped]

/-- Accepted settings in print say what the settings are, or nothing at all. -/
theorem read_print {s : Settings Float} (accepted : s.validate = .ok ())
    (rate : s.sampleRate ≤ greatestRate) : Table.read s.print.toList =
      if s.logLevel.toList.all isLegible then some s.table else none := by
  have mark : withoutMark s.print.toList = s.print.toList := by
    rw [toList_print]
    rfl
  have read := readAll_print (isSound_lines accepted rate)
  rw [mapM_lines] at read
  rw [Table.read]
  simp only [mark, read]
  split
  · exact foldlM_statements
  · rfl

/-- Whatever settings the check accepts are read back from their printed form, each double with all
its bits, if the name of the log level is legible. If it is not, the printed form is refused. -/
theorem reads_back_if_legible (s : Settings Float) (accepted : s.validate = .ok ())
    (rate : s.sampleRate ≤ greatestRate) :
    Table.read s.print.toList =
        (if s.logLevel.toList.all isLegible then some s.table else none) ∧
      ofTable? s.table = some s :=
  ⟨read_print accepted rate, ofTable?_table rate⟩

/-- Settings with a double that shows a power of ten, the negative zero, the least of all doubles,
and characters that need an escape. -/
def unusual : Settings Float :=
  { usual with tempo := 1e300, leadIn := -0.0, attackMs := 5e-324, logLevel := "\"in\\fo\"\n" }

theorem reads_back_if_legible_unusual :
    unusual.validate = .ok () ∧ unusual.sampleRate ≤ greatestRate ∧
      (Table.read unusual.print.toList).bind ofTable? = some unusual := by
  have accepted : unusual.validate = .ok () := by decide +kernel
  have rate : unusual.sampleRate ≤ greatestRate := by decide
  have legible : unusual.logLevel.toList.all isLegible = true := by decide +kernel
  obtain ⟨read, same⟩ := reads_back_if_legible unusual accepted rate
  refine ⟨accepted, rate, ?_⟩
  rw [read, if_pos legible, Option.bind_some, same]

/-- The usual settings with a control behind the name of the log level: nothing objects to them, and
nothing reads what is printed of them. -/
theorem delete_is_accepted_and_not_read_back :
    ({ usual with logLevel := "info\x7f" } : Settings Float).validate = .ok () ∧
      Table.read ({ usual with logLevel := "info\x7f" } : Settings Float).print.toList = none := by
  have accepted : ({ usual with logLevel := "info\x7f" } : Settings Float).validate = .ok () := by
    rfl
  have illegible : ("info\x7f".toList.all isLegible) = false := by decide +kernel
  refine ⟨accepted, (read_print accepted (by decide)).trans ?_⟩
  rw [illegible]
  rfl

end Portamento.Settings
