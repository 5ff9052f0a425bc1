import Portamento.Proofs.Toml.Overlay
import Portamento.Settings.Sources

/-!
# Which tables give settings

A setting has the value that a table gives it or keeps the one that it has, and whether it takes a
value does not depend on the other settings. So a table gives settings if each of its entries alone
is taken, and it makes sense to ask this of tables that were laid over each other entry by entry.
Laid over each other, tables that give settings give settings again, unless two of them write the
mode as a table and do not name the same one.
-/

namespace Portamento.Settings

open Toml (Value Table)

namespace Field

/-- Whether a value can be taken over, whatever the settings are so far. -/
def Accepts (field : Field) (value : Value) : Prop :=
  ∀ s : Settings Float, (field.set value s).isSome = true

/-- Whether it does not depend on the settings so far if a value can be taken over. -/
def IsUniform (field : Field) : Prop :=
  ∀ value (s t : Settings Float), (field.set value s).isSome = (field.set value t).isSome

theorem IsUniform.accepts {field : Field} (uniform : field.IsUniform) {value : Value}
    {s t : Settings Float} (set : field.set value s = some t) : field.Accepts value := fun u => by
  rw [uniform value u s, set, Option.isSome_some]

end Field

/-- Whether every entry of a table that gives a setting can be taken over. -/
def AreAccepted (fields : List Field) (entries : Table) : Prop :=
  ∀ field ∈ fields, ∀ value, entries.lookup field.name = some value → field.Accepts value

theorem areAccepted_cons {field : Field} {later : List Field} {entries : Table} :
    AreAccepted (field :: later) entries ↔
      (∀ value, entries.lookup field.name = some value → field.Accepts value) ∧
        AreAccepted later entries := by
  simp only [AreAccepted, List.forall_mem_cons]

/-- A table is taken over if its entries are. -/
theorem isSome_readTable_iff {fields : List Field} (uniform : ∀ field ∈ fields, field.IsUniform)
    (entries : Table) (s : Settings Float) :
    (readTable entries fields s).isSome = true ↔ AreAccepted fields entries := by
  induction fields generalizing s with
  | nil => simp [readTable, AreAccepted]
  | cons field later ih =>
    obtain ⟨here, uniform⟩ := List.forall_mem_cons.mp uniform
    rw [areAccepted_cons, readTable]
    split
    · next missing =>
      rw [ih uniform]
      exact ⟨fun rest => ⟨fun _ found => (nomatch missing.symm.trans found), rest⟩, And.right⟩
    · next value found =>
      cases set : field.set value s with
      | none =>
        refine ⟨fun some => (nomatch some), fun accepted => ?_⟩
        have taken := accepted.1 value found s
        rw [set] at taken
        cases taken
      | some t =>
        rw [Option.bind_some, ih uniform]
        refine ⟨fun rest => ⟨fun other same => ?_, rest⟩, And.right⟩
        obtain rfl := Option.some.inj (found.symm.trans same)
        exact here.accepts set

theorem isSome_readList_eq {fields : List Field} (uniform : ∀ field ∈ fields, field.IsUniform)
    (items : List Value) (s t : Settings Float) :
    (readList items fields s).isSome = (readList items fields t).isSome := by
  induction items generalizing fields s t with
  | nil => rfl
  | cons value values ih =>
    cases fields with
    | nil => rfl
    | cons field later =>
      obtain ⟨here, uniform⟩ := List.forall_mem_cons.mp uniform
      rw [readList, readList]
      have same := here value s t
      cases first : field.set value s with
      | none =>
        rw [first] at same
        have second : field.set value t = none :=
          Option.isNone_iff_eq_none.mp (Option.isSome_eq_false_iff.mp same.symm)
        rw [second]
      | some s' =>
        rw [first] at same
        obtain ⟨t', second⟩ := Option.isSome_iff_exists.mp same.symm
        rw [second]
        exact ih uniform s' t'

section Sections

/-- A section of a configuration file, with its settings. -/
def sectionField (name : String) (fields : List Field) : Field :=
  ⟨name, fun v s => readSection fields s v⟩

/-- The sections by their names, with their settings. -/
def parts : List (String × List Field) :=
  [("playback", playbackFields), ("envelope", envelopeFields), ("telemetry", telemetryFields)]

theorem sections_eq : sections = parts.map fun part => sectionField part.1 part.2 := rfl

/-- The settings of all sections. -/
def settingFields : List Field := parts.flatMap Prod.snd

theorem subset_settingFields {part : String × List Field} (member : part ∈ parts) :
    part.2 ⊆ settingFields := fun _ within => List.mem_flatMap.mpr ⟨part, member, within⟩

variable {name : String} {fields : List Field} (uniform : ∀ field ∈ fields, field.IsUniform)

include uniform

theorem isUniform_sectionField : (sectionField name fields).IsUniform := by
  intro value s t
  cases value with
  | table entries =>
    exact Bool.eq_iff_iff.mpr ((isSome_readTable_iff uniform entries s).trans
      (isSome_readTable_iff uniform entries t).symm)
  | list items => exact isSome_readList_eq uniform items s t
  | _ => rfl

theorem accepts_section_table_iff {entries : Table} :
    (sectionField name fields).Accepts (.table entries) ↔ AreAccepted fields entries :=
  ⟨fun accepted => (isSome_readTable_iff uniform entries .usual).mp (accepted .usual),
    fun accepted s => (isSome_readTable_iff uniform entries s).mpr accepted⟩

end Sections

theorem isUniform_settingFields : ∀ field ∈ settingFields, field.IsUniform := by
  simp [settingFields, parts, playbackFields, envelopeFields, telemetryFields, Field.IsUniform]

theorem isUniform_part {part : String × List Field} (member : part ∈ parts) :
    ∀ field ∈ part.2, field.IsUniform := fun field within =>
  isUniform_settingFields field (subset_settingFields member within)

theorem isUniform_sections : ∀ field ∈ sections, field.IsUniform := by
  rw [sections_eq, List.forall_mem_map]
  exact fun part member => isUniform_sectionField (isUniform_part member)

/-- A file gives settings if each of its sections can be taken over. -/
theorem isSome_ofTable?_iff {table : Table} :
    (ofTable? table).isSome = true ↔ AreAccepted sections table :=
  isSome_readTable_iff isUniform_sections table .usual

/-- One table laid over another is taken over if both are, and if the tables that they both have
under a name are taken over in their place. -/
theorem AreAccepted.overlay {fields : List Field} {lower upper : Table}
    (below : AreAccepted fields lower) (above : AreAccepted fields upper)
    (distinct : (upper.map Prod.fst).Nodup)
    (joins : ∀ field ∈ fields, ∀ under upon, lower.lookup field.name = some (.table under) →
      upper.lookup field.name = some (.table upon) → field.Accepts (.table under) →
        field.Accepts (.table upon) → field.Accepts (.table (Toml.overlay under upon))) :
    AreAccepted fields (Toml.overlay lower upper) := by
  intro field member value found
  rcases Toml.lookup_overlay_cases distinct found with
    ⟨-, old⟩ | new | ⟨under, upon, old, new, rfl⟩
  · exact below field member value old
  · exact above field member value new
  · exact joins field member under upon old new (below field member _ old)
      (above field member _ new)

section Mode

/-- What a section of a table says under a name. -/
def stated? (table : Table) (part name : String) : Option Value :=
  match table.lookup part with
  | some (.table entries) => entries.lookup name
  | _ => none

theorem stated?_of_lookup {table entries : Table} {part : String}
    (found : table.lookup part = some (.table entries)) (name : String) :
    stated? table part name = entries.lookup name := by
  rw [stated?, found]

/-- The first name in a value that is a table. -/
def firstName? : Option Value → Option String
  | some (.table ((name, _) :: _)) => some name
  | _ => none

/-- The mode that a file names, if it does so by a table with the name of the mode in it. -/
def tabledMode? (table : Table) : Option String := firstName? (stated? table "playback" "mode")

/-- Whether two values name two modes by a table each. -/
def NameTwoModes (lower upper : Option Value) : Prop :=
  ∃ mode other, firstName? lower = some mode ∧ firstName? upper = some other ∧ mode ≠ other

/-- A table that stands for a mode has one entry, and that is empty. -/
theorem isSome_mode?_table_iff {entries : Table} : (mode? (.table entries)).isSome = true ↔
    ∃ name, (modeNamed? name).isSome = true ∧
      (entries = [(name, .table [])] ∨ entries = [(name, .list [])]) := by
  constructor
  · intro some
    unfold mode? at some
    split at some
    · next same => cases same
    · next name same =>
      cases same
      exact ⟨name, some, .inl rfl⟩
    · next name same =>
      cases same
      exact ⟨name, some, .inr rfl⟩
    · cases some
  · rintro ⟨name, named, rfl | rfl⟩ <;> exact named

/-- Two tables for one mode are a table for it when they are laid over each other. -/
theorem isSome_mode?_overlay {under upon : Table} (below : (mode? (.table under)).isSome = true)
    (above : (mode? (.table upon)).isSome = true)
    (apart : ¬ NameTwoModes (some (.table under)) (some (.table upon))) :
    (mode? (.table (Toml.overlay under upon))).isSome = true := by
  obtain ⟨name, named, under_eq⟩ := isSome_mode?_table_iff.mp below
  obtain ⟨other, -, over_eq⟩ := isSome_mode?_table_iff.mp above
  obtain rfl : name = other := by
    refine not_not.mp fun different => apart ⟨name, other, ?_, ?_, different⟩
    · rcases under_eq with rfl | rfl <;> rfl
    · rcases over_eq with rfl | rfl <;> rfl
  refine isSome_mode?_table_iff.mpr ⟨name, named, ?_⟩
  rcases under_eq with rfl | rfl <;> rcases over_eq with rfl | rfl <;>
    simp [Toml.overlay, Toml.overlayValue, Toml.put]

/-- Of all settings only the mode takes a table. -/
theorem accepts_table_iff {field : Field} (member : field ∈ settingFields) {entries : Table} :
    field.Accepts (.table entries) ↔
      field.name = "mode" ∧ (mode? (.table entries)).isSome = true := by
  have one : Nonempty (Settings Float) := ⟨.usual⟩
  simp only [settingFields, parts, playbackFields, envelopeFields, telemetryFields,
    List.flatMap_cons, List.flatMap_nil, List.cons_append, List.nil_append, List.mem_cons,
    List.not_mem_nil, or_false] at member
  rcases member with rfl | rfl | rfl | rfl | rfl | rfl | rfl | rfl | rfl <;>
    simp [Field.Accepts, number?, flag?, rate?, text?]

/-- The mode stands in the first section. -/
theorem part_eq_of_mode : ∀ part ∈ parts, ∀ field ∈ part.2, field.name = "mode" →
    part.1 = "playback" := by
  simp [parts, playbackFields, envelopeFields, telemetryFields]

/-- A section gives settings again when it is laid over one that does, unless the two name two
modes. -/
theorem AreAccepted.overlay_section {fields : List Field} (all : fields ⊆ settingFields)
    {lower upper : Table} (below : AreAccepted fields lower) (above : AreAccepted fields upper)
    (distinct : (upper.map Prod.fst).Nodup)
    (apart : ∀ field ∈ fields, field.name = "mode" →
      ¬ NameTwoModes (lower.lookup "mode") (upper.lookup "mode")) :
    AreAccepted fields (Toml.overlay lower upper) := by
  refine below.overlay above distinct fun field member under upon old new taken taken' => ?_
  rw [accepts_table_iff (all member)] at taken taken' ⊢
  refine ⟨taken.1, isSome_mode?_overlay taken.2 taken'.2 ?_⟩
  have modes := apart field member taken.1
  rw [taken.1] at old new
  rwa [old, new] at modes

end Mode

/-- A file gives settings again when it is laid over one that does, unless the two name two modes.
-/
theorem isSome_ofTable?_overlay {lower upper : Table} (below : (ofTable? lower).isSome = true)
    (above : (ofTable? upper).isSome = true) (distinct : Toml.IsDistinct upper)
    (apart : ¬ NameTwoModes (stated? lower "playback" "mode") (stated? upper "playback" "mode")) :
    (ofTable? (Toml.overlay lower upper)).isSome = true := by
  rw [isSome_ofTable?_iff] at below above ⊢
  refine below.overlay above distinct.nodup fun field member under upon old new taken taken' => ?_
  obtain ⟨part, within, rfl⟩ := List.mem_map.mp (sections_eq ▸ member)
  rw [accepts_section_table_iff (isUniform_part within)] at taken taken' ⊢
  refine taken.overlay_section (subset_settingFields within) taken'
    (Toml.IsDistinct.nodup (distinct.value new)) fun field inside named => ?_
  have first : part.1 = "playback" := part_eq_of_mode part within field inside named
  have below : stated? lower "playback" "mode" = _ := first ▸ stated?_of_lookup old "mode"
  have above : stated? upper "playback" "mode" = _ := first ▸ stated?_of_lookup new "mode"
  rwa [below, above] at apart

/-- Whether two files name two modes by a table each. -/
def ModesMeet (tables : List Table) : Prop :=
  ∃ lower ∈ tables, ∃ upper ∈ tables,
    NameTwoModes (stated? lower "playback" "mode") (stated? upper "playback" "mode")

theorem firstName?_put (entries : Table) (name : String) (value : Value) :
    firstName? (some (.table (Toml.put entries name value))) =
      (firstName? (some (.table entries))).or (some name) := by
  cases entries with
  | nil => rfl
  | cons entry later =>
    rw [Toml.put]
    split
    · rfl
    · rfl

/-- The first name in a table laid over another is that of the lower one, if it has any. -/
theorem firstName?_overlay (lower upper : Table) :
    firstName? (some (.table (Toml.overlay lower upper))) =
      (firstName? (some (.table lower))).or (firstName? (some (.table upper))) := by
  induction upper generalizing lower with
  | nil => exact (Option.or_none).symm
  | cons entry later ih =>
    rw [Toml.overlay, ih, firstName?_put, Option.or_assoc]
    rfl

/-- Where an entry of a section comes from in a file laid over another. -/
theorem stated?_overlay_cases {lower upper : Table} (distinct : Toml.IsDistinct upper)
    {part name : String} {value : Value}
    (found : stated? (Toml.overlay lower upper) part name = some value) :
    stated? lower part name = some value ∨ stated? upper part name = some value ∨
    ∃ under upon, stated? lower part name = some (.table under) ∧
      stated? upper part name = some (.table upon) ∧ value = .table (Toml.overlay under upon) := by
  unfold stated? at found
  split at found
  · next entries whole =>
    rcases Toml.lookup_overlay_cases distinct.nodup whole with
      ⟨-, old⟩ | new | ⟨under, upon, old, new, same⟩
    · exact .inl ((stated?_of_lookup old name).trans found)
    · exact .inr (.inl ((stated?_of_lookup new name).trans found))
    · cases same
      have inner : (upon.map Prod.fst).Nodup := Toml.IsDistinct.nodup (distinct.value new)
      rw [stated?_of_lookup old, stated?_of_lookup new]
      rcases Toml.lookup_overlay_cases inner found with ⟨-, old⟩ | new | both
      · exact .inl old
      · exact .inr (.inl new)
      · exact .inr (.inr both)
  · cases found

/-- A file laid over another names a mode by a table only if one of the two does. -/
theorem tabledMode?_overlay {lower upper : Table} (distinct : Toml.IsDistinct upper) {mode : String}
    (found : tabledMode? (Toml.overlay lower upper) = some mode) :
    tabledMode? lower = some mode ∨ tabledMode? upper = some mode := by
  unfold tabledMode? at found ⊢
  cases whole : stated? (Toml.overlay lower upper) "playback" "mode" with
  | none =>
    rw [whole] at found
    cases found
  | some value =>
    rw [whole] at found
    rcases stated?_overlay_cases distinct whole with old | new | ⟨under, upon, old, new, rfl⟩
    · exact .inl (old ▸ found)
    · exact .inr (new ▸ found)
    · rw [firstName?_overlay, ← old, ← new] at found
      exact (Option.or_eq_some_iff.mp found).imp id And.right

/-- Files laid over one that gives settings give settings, if they all do and whichever of them name
a mode by a table name the same one. -/
theorem isSome_ofTable?_foldl {tables : List Table} {lower : Table} (mode : String)
    (sound : ∀ table ∈ tables, Toml.IsDistinct table ∧ (ofTable? table).isSome = true)
    (below : (ofTable? lower).isSome = true)
    (agree : ∀ table ∈ lower :: tables, ∀ name, tabledMode? table = some name → name = mode) :
    (ofTable? (tables.foldl Toml.overlay lower)).isSome = true := by
  induction tables generalizing lower with
  | nil => exact below
  | cons upper later ih =>
    obtain ⟨⟨distinct, above⟩, sound⟩ := List.forall_mem_cons.mp sound
    obtain ⟨under, upon, agree⟩ := by simpa only [List.forall_mem_cons] using agree
    refine ih sound (isSome_ofTable?_overlay below above distinct ?_) ?_
    · rintro ⟨name, other, old, new, different⟩
      exact different ((under name old).trans (upon other new).symm)
    · refine List.forall_mem_cons.mpr ⟨fun name found => ?_, agree⟩
      exact (tabledMode?_overlay distinct found).elim (under name) (upon name)

section Files

variable {files : FileReader}

/-- What a configuration file says that passes by itself: its text is the document of a table, and
the table gives settings. -/
structure Passes (files : FileReader) (path : String) (table : Table) : Prop where
  document : ∃ text, files.text path = .ok text ∧ Table.read text.toList = some table
  given : (ofTable? table).isSome = true

/-- A file is loaded if it passes, and as what it says: nothing is added to that. -/
theorem loadFile_eq_ok_iff {path : String} {table : Table} :
    loadFile files path = .ok table ↔ Passes files path table := by
  constructor
  · intro loads
    unfold loadFile at loads
    split at loads
    · cases loads
    · next text textual =>
      split at loads
      · cases loads
      · next found =>
        cases loads
        obtain ⟨read, well, checked⟩ := Option.bind_eq_some_iff.mp found
        obtain ⟨settings, given, checked⟩ := Option.bind_eq_some_iff.mp checked
        cases checked
        exact ⟨⟨text, textual, well⟩, Option.isSome_iff_exists.mpr ⟨settings, given⟩⟩
  · rintro ⟨⟨text, textual, read⟩, given⟩
    obtain ⟨settings, given⟩ := Option.isSome_iff_exists.mp given
    have checked : readFile? text = some table := by
      rw [readFile?, read]
      show (ofTable? table).bind (fun _ => some table) = some table
      rw [given, Option.bind_some]
    simp only [loadFile, textual, checked]

theorem Passes.isDistinct {path : String} {table : Table} (passes : Passes files path table) :
    Toml.IsDistinct table := by
  obtain ⟨text, -, read⟩ := passes.document
  exact Toml.Table.isDistinct_of_read read

/-- A file that holds the bytes of a text has that text. -/
theorem text_of_toUTF8 {path text : String} (holds : files path = .ok text.toUTF8) :
    files.text path = .ok text := by
  have valid : String.fromUTF8? text.toUTF8 = some text := dif_pos text.isValidUTF8
  simp only [FileReader.text, holds, bind, Except.bind, valid]
  rfl

/-- What files say that pass one by one. -/
abbrev Load (files : FileReader) : List String → List Table → Prop :=
  List.Forall₂ (Passes files)

theorem Load.sound {paths : List String} {tables : List Table} (loads : Load files paths tables) :
    ∀ table ∈ tables, Toml.IsDistinct table ∧ (ofTable? table).isSome = true := by
  induction loads with
  | nil => exact List.forall_mem_nil _
  | cons here _ ih => exact List.forall_mem_cons.mpr ⟨⟨here.isDistinct, here.given⟩, ih⟩

/-- Files of which no two name two modes give settings together. -/
theorem isSome_ofTable?_of_load {paths : List String} {tables : List Table}
    (loads : Load files paths tables) (apart : ¬ ModesMeet tables) :
    (ofTable? (tables.foldl Toml.overlay [])).isSome = true := by
  have empty : (ofTable? []).isSome = true := rfl
  by_cases named : ∃ table ∈ tables, ∃ mode, tabledMode? table = some mode
  · obtain ⟨table, member, mode, found⟩ := named
    refine isSome_ofTable?_foldl mode loads.sound empty
      (List.forall_mem_cons.mpr ⟨fun _ none => (nomatch none), fun other within name found' => ?_⟩)
    exact not_not.mp fun different =>
      apart ⟨other, within, table, member, name, mode, found', found, different⟩
  · refine isSome_ofTable?_foldl "" loads.sound empty
      (List.forall_mem_cons.mpr ⟨fun _ none => (nomatch none), fun other within name found => ?_⟩)
    exact absurd ⟨other, within, name, found⟩ named

/-- Files that can be loaded are laid over each other, the later over the earlier. -/
theorem layer_of_load {paths : List String} {tables : List Table} (loads : Load files paths tables)
    (lower : Table) : layer files lower paths = .ok (tables.foldl Toml.overlay lower) := by
  induction loads generalizing lower with
  | nil => rfl
  | cons here _ ih =>
    rw [layer, loadFile_eq_ok_iff.mpr here]
    exact ih _

/-- What files that can be loaded one by one make together. -/
theorem loadFiles_of_load {paths : List String} {tables : List Table}
    (loads : Load files paths tables) : loadFiles files paths =
      match ofTable? (tables.foldl Toml.overlay []) with
      | some settings => .ok settings
      | none => .error (.malformed (paths.getLast?.getD noFile)) := by
  rw [loadFiles, layer_of_load loads]
  rfl

/-- Otherwise the first file that cannot be loaded is the reason. -/
theorem layer_eq_error {paths : List String} {lower : Table} {fault : SettingsFault}
    (fails : layer files lower paths = .error fault) :
    ∃ before path after, paths = before ++ path :: after ∧ (∃ tables, Load files before tables) ∧
      loadFile files path = .error fault := by
  induction paths generalizing lower with
  | nil => cases fails
  | cons path later ih =>
    rw [layer] at fails
    cases here : loadFile files path with
    | error fault' =>
      rw [here] at fails
      cases fails
      exact ⟨[], path, later, rfl, ⟨[], .nil⟩, here⟩
    | ok upper =>
      rw [here] at fails
      obtain ⟨before, bad, after, rfl, ⟨tables, loads⟩, cause⟩ := ih fails
      have passes := loadFile_eq_ok_iff.mp here
      exact ⟨path :: before, bad, after, rfl, ⟨upper :: tables, .cons passes loads⟩, cause⟩

theorem layer_eq_ok {paths : List String} {lower table : Table}
    (succeeds : layer files lower paths = .ok table) : ∃ tables, Load files paths tables := by
  induction paths generalizing lower with
  | nil => exact ⟨[], .nil⟩
  | cons path later ih =>
    rw [layer] at succeeds
    cases here : loadFile files path with
    | error fault =>
      rw [here] at succeeds
      cases succeeds
    | ok upper =>
      rw [here] at succeeds
      obtain ⟨tables, loads⟩ := ih succeeds
      exact ⟨upper :: tables, .cons (loadFile_eq_ok_iff.mp here) loads⟩

end Files

end Portamento.Settings
