import Mathlib
import Portamento.Proofs.Settings.Layers

/-!
# Where the value of a setting comes from

Nine settings, each with its place in a configuration file and with the variables of the environment
that override it. The strongest variable that is set and understood decides; without one, the last
file that holds anything about the setting; without one, the usual value stands. No setting has any
influence on another.
-/

namespace Portamento

open Toml (Value Table)

/-- A setting and where its value may come from. -/
structure Setting (β : Type) where
  /-- The section of a configuration file that it stands in. -/
  part : String
  name : String
  /-- The value that a file gives it. -/
  ofValue? : Value → Option β
  /-- The variables of the environment that override it, the strongest one first. -/
  variableNames : List String
  /-- The value that a variable gives it. -/
  ofText? : List Char → Option β
  get : Settings Float → β
  /-- The settings with another value for this one. -/
  put : β → Settings Float → Settings Float

namespace Setting

open Settings (number? flag? rate? text? mode? readFlag? greatestRate)

def tempo : Setting Float where
  part := "playback"
  name := "tempo"
  ofValue? := number?
  variableNames := ["GLISSANDO_TEMPO"]
  ofText? text := Decimal.readFloat? (Text.trim text)
  get := Settings.tempo
  put tempo s := { s with tempo }

def leadIn : Setting Float where
  part := "playback"
  name := "lead_in_seconds"
  ofValue? := number?
  variableNames := ["GLISSANDO_LEAD_IN"]
  ofText? text := Decimal.readFloat? (Text.trim text)
  get := Settings.leadIn
  put leadIn s := { s with leadIn }

def looping : Setting Bool where
  part := "playback"
  name := "loop"
  ofValue? := flag?
  variableNames := ["GLISSANDO_LOOP"]
  ofText? := readFlag?
  get := Settings.looping
  put looping s := { s with looping }

def mode : Setting PlaybackMode where
  part := "playback"
  name := "mode"
  ofValue? := mode?
  variableNames := ["GLISSANDO_MODE"]
  ofText? text := (PlaybackMode.read text).toOption
  get := Settings.mode
  put mode s := { s with mode }

def sampleRate : Setting Nat where
  part := "playback"
  name := "sample_rate"
  ofValue? := rate?
  variableNames := ["GLISSANDO_SAMPLE_RATE"]
  ofText? text := Decimal.readNatural? greatestRate (Text.trim text)
  get := Settings.sampleRate
  put sampleRate s := { s with sampleRate }

/-- A length of time that no variable overrides. -/
def unoverridden (part name : String) (get : Settings Float → Float)
    (put : Float → Settings Float → Settings Float) : Setting Float where
  part
  name
  ofValue? := number?
  variableNames := []
  ofText? _ := none
  get
  put

def ahead : Setting Float :=
  unoverridden "playback" "schedule_ahead_seconds" Settings.ahead fun ahead s => { s with ahead }

def attackMs : Setting Float :=
  unoverridden "envelope" "attack_ms" Settings.attackMs fun attackMs s => { s with attackMs }

def releaseMs : Setting Float :=
  unoverridden "envelope" "release_ms" Settings.releaseMs fun releaseMs s => { s with releaseMs }

def logLevel : Setting String where
  part := "telemetry"
  name := "log_level"
  ofValue? := text?
  variableNames := ["RUST_LOG", "GLISSANDO_LOG_LEVEL"]
  ofText? text := some (String.ofList text)
  get := Settings.logLevel
  put logLevel s := { s with logLevel }

/-- A setting of any kind of values. -/
abbrev AnySetting := Σ β : Type, Setting β

/-- The nine settings. -/
def all : List AnySetting :=
  [⟨_, tempo⟩, ⟨_, leadIn⟩, ⟨_, looping⟩, ⟨_, mode⟩, ⟨_, sampleRate⟩, ⟨_, ahead⟩, ⟨_, attackMs⟩,
    ⟨_, releaseMs⟩, ⟨_, logLevel⟩]

/-- The variables with what they override, in the order in which those that were used are told. -/
def overridden : List (String × AnySetting) :=
  [("GLISSANDO_TEMPO", ⟨_, tempo⟩), ("GLISSANDO_LEAD_IN", ⟨_, leadIn⟩),
    ("GLISSANDO_LOOP", ⟨_, looping⟩), ("GLISSANDO_MODE", ⟨_, mode⟩),
    ("GLISSANDO_SAMPLE_RATE", ⟨_, sampleRate⟩), ("GLISSANDO_LOG_LEVEL", ⟨_, logLevel⟩),
    ("RUST_LOG", ⟨_, logLevel⟩)]

section Sources

variable {β : Type}

/-- The value that a variable gives a setting, if the variable is set and can be understood. -/
def ofVariable? (x : Setting β) (environment : Environment) (variableName : String) : Option β :=
  (environment.get? variableName).bind fun text => x.ofText? text.toList

/-- The value that the environment gives a setting. -/
def ofEnvironment? (x : Setting β) (environment : Environment) : Option β :=
  x.variableNames.findSome? (x.ofVariable? environment)

/-- What a file says about a setting. -/
def stated? (x : Setting β) (table : Table) : Option Value :=
  Settings.stated? table x.part x.name

/-- The value that a setting has, with the environment and the files in their order given. -/
inductive Prevails (x : Setting β) (environment : Environment) (tables : List Table) : β → Prop
  /-- The environment decides. -/
  | environment {b : β} (given : x.ofEnvironment? environment = some b) :
      Prevails x environment tables b
  /-- The last file that holds anything about the setting decides. -/
  | file {before after : List Table} {table : Table} {value : Value} {b : β}
      (unset : x.ofEnvironment? environment = none) (split : tables = before ++ table :: after)
      (states : x.stated? table = some value) (last : ∀ later ∈ after, x.stated? later = none)
      (takes : x.ofValue? value = some b) : Prevails x environment tables b
  /-- Nobody has said anything. -/
  | usual (unset : x.ofEnvironment? environment = none)
      (unsaid : ∀ table ∈ tables, x.stated? table = none) :
      Prevails x environment tables (x.get .usual)

variable {x : Setting β} {environment : Environment} {tables : List Table} {b b' : β}

/-- The last file that says anything is found by looking from the end. -/
theorem findSome?_stated {before after : List Table} {table : Table} {value : Value}
    (split : tables = before ++ table :: after) (states : x.stated? table = some value)
    (last : ∀ later ∈ after, x.stated? later = none) :
    tables.reverse.findSome? x.stated? = some value := by
  subst split
  have silent : after.reverse.findSome? x.stated? = none := by simpa using last
  simp [List.findSome?_append, silent, states]

/-- No more than one value prevails. -/
theorem Prevails.unique (prevails : x.Prevails environment tables b)
    (other : x.Prevails environment tables b') : b = b' := by
  cases prevails with
  | environment given =>
    cases other with
    | environment given' => exact Option.some.inj (given.symm.trans given')
    | file unset => cases given.symm.trans unset
    | usual unset => cases given.symm.trans unset
  | file unset split states last takes =>
    have found := findSome?_stated split states last
    cases other with
    | environment given => cases unset.symm.trans given
    | file unset' split' states' last' takes' =>
      have found' := findSome?_stated split' states' last'
      rw [found] at found'
      cases found'
      exact Option.some.inj (takes.symm.trans takes')
    | usual _ unsaid =>
      have unsaid' := unsaid _ (split ▸ List.mem_append_right _ List.mem_cons_self)
      cases states.symm.trans unsaid'
  | usual unset unsaid =>
    cases other with
    | environment given => cases unset.symm.trans given
    | file _ split states =>
      have unsaid' := unsaid _ (split ▸ List.mem_append_right _ List.mem_cons_self)
      cases states.symm.trans unsaid'
    | usual => rfl

end Sources

end Setting

namespace Settings

section Fields

variable {β : Type} {get : Settings Float → β} {fields : List Field} {entries : Table}
  {s t : Settings Float}

/-- What is read of a table leaves alone what none of its fields touches. -/
theorem get_readTable_of_leaves
    (leaves : ∀ field ∈ fields, ∀ value, entries.lookup field.name = some value →
      ∀ s t, field.set value s = some t → get t = get s)
    (reads : readTable entries fields s = some t) : get t = get s := by
  induction fields generalizing s with
  | nil =>
    cases reads
    rfl
  | cons field later ih =>
    obtain ⟨here, leaves⟩ := List.forall_mem_cons.mp leaves
    rw [readTable] at reads
    split at reads
    · exact ih leaves reads
    · next value found =>
      obtain ⟨middle, set, rest⟩ := Option.bind_eq_some_iff.mp reads
      exact (ih leaves rest).trans (here value found s middle set)

/-- What is read of a table says of one field what the table says under its name. -/
theorem get_readTable {name : String} (Holds : Value → β → β → Prop)
    (distinct : (fields.map Field.name).Nodup)
    (serves : ∀ field ∈ fields, ∀ value, entries.lookup field.name = some value → ∀ s t,
      field.set value s = some t →
        if field.name = name then Holds value (get s) (get t) else get t = get s)
    (member : name ∈ fields.map Field.name) (reads : readTable entries fields s = some t) :
    match entries.lookup name with
    | none => get t = get s
    | some value => Holds value (get s) (get t) := by
  induction fields generalizing s with
  | nil => cases member
  | cons field later ih =>
    obtain ⟨apart, distinct⟩ := List.nodup_cons.mp distinct
    obtain ⟨here, serves⟩ := List.forall_mem_cons.mp serves
    rw [readTable] at reads
    by_cases own : field.name = name
    · subst own
      -- behind its own field nothing touches it any more
      have leaves : ∀ other ∈ later, ∀ value, entries.lookup other.name = some value →
          ∀ s t, other.set value s = some t → get t = get s := by
        intro other within value found s t set
        have different : other.name ≠ field.name := fun same =>
          apart (same ▸ List.mem_map_of_mem within)
        have unchanged := serves other within value found s t set
        rwa [if_neg different] at unchanged
      cases found : entries.lookup field.name with
      | none =>
        rw [found] at reads
        exact get_readTable_of_leaves leaves reads
      | some value =>
        rw [found] at reads
        obtain ⟨middle, set, rest⟩ := Option.bind_eq_some_iff.mp reads
        have holds := here value found s middle set
        rw [if_pos rfl] at holds
        dsimp only
        rw [get_readTable_of_leaves leaves rest]
        exact holds
    · have behind : name ∈ later.map Field.name :=
        (List.mem_cons.mp member).resolve_left fun same => own same.symm
      split at reads
      · exact ih distinct serves behind reads
      · next value found =>
        obtain ⟨middle, set, rest⟩ := Option.bind_eq_some_iff.mp reads
        have unchanged := here value found s middle set
        rw [if_neg own] at unchanged
        rw [← unchanged]
        exact ih distinct serves behind rest

end Fields

/-- Whether a name, if it is there, stands for a table. -/
def IsSection (table : Table) (part : String) : Prop :=
  ∀ value, table.lookup part = some value → ∃ entries, value = .table entries

/-- A file that gives settings in sections that are tables, and the mode by its name. -/
structure IsOrdinary (table : Table) : Prop where
  sections : ∀ part ∈ parts, IsSection table part.1
  mode : ∀ value, stated? table "playback" "mode" = some value → ∃ text, value = .text text

theorem IsSection.overlay {lower upper : Table} {part : String} (below : IsSection lower part)
    (above : IsSection upper part) (distinct : Toml.IsDistinct upper) :
    IsSection (Toml.overlay lower upper) part := by
  intro value found
  rcases Toml.lookup_overlay_cases distinct.nodup found with
    ⟨-, old⟩ | new | ⟨under, upon, -, -, rfl⟩
  · exact below value old
  · exact above value new
  · exact ⟨_, rfl⟩

/-- Of two files laid over each other the upper one decides if it says anything. -/
theorem stated?_overlay {lower upper : Table} {part name : String} (below : IsSection lower part)
    (above : IsSection upper part) (distinct : Toml.IsDistinct upper)
    (single : ∀ value, stated? upper part name = some value → ∀ entries, value ≠ .table entries) :
    stated? (Toml.overlay lower upper) part name =
      (stated? upper part name).or (stated? lower part name) := by
  cases new : upper.lookup part with
  | none =>
    have same : (Toml.overlay lower upper).lookup part = lower.lookup part := by
      rw [Toml.lookup_overlay distinct.nodup, new]
    rw [stated?, same, stated?, new]
    rfl
  | some value =>
    obtain ⟨upon, rfl⟩ := above value new
    rw [stated?_of_lookup new] at single ⊢
    have whole : (Toml.overlay lower upper).lookup part =
        some (Toml.overlayValue (lower.lookup part) (.table upon)) := by
      rw [Toml.lookup_overlay distinct.nodup, new]
    cases old : lower.lookup part with
    | none =>
      rw [old] at whole
      rw [stated?_of_lookup whole, stated?, old, Option.or_none]
    | some value =>
      obtain ⟨under, rfl⟩ := below value old
      rw [old] at whole
      have inner : (upon.map Prod.fst).Nodup := Toml.IsDistinct.nodup (distinct.value new)
      rw [stated?_of_lookup whole, stated?_of_lookup old, Toml.lookup_overlay inner]
      cases above : upon.lookup name with
      | none => rfl
      | some value =>
        exact congrArg some (Toml.overlayValue_of_not_table (single value above) _)

end Settings

namespace Setting

open Settings (Field Override parts sectionField settingFields readTable ofTable? AreAccepted
  applyOverrides)

section Laws

variable {β : Type}

/-- A setting as one that is read of a file. -/
def field (x : Setting β) : Field :=
  ⟨x.name, fun value s => (x.ofValue? value).map fun b => x.put b s⟩

/-- A variable that overrides a setting. -/
def override (x : Setting β) (variableName : String) : Override :=
  ⟨variableName, fun text s => (x.ofText? text).map fun b => x.put b s⟩

end Laws

theorem settingFields_eq : settingFields = all.map fun x => x.2.field := rfl

theorem overrides_eq : Settings.overrides = overridden.map fun v => v.2.2.override v.1 := rfl

theorem nodup_names : (all.map fun x => x.2.name).Nodup := by decide

variable {x y : AnySetting}

theorem eq_of_name (member : x ∈ all) (other : y ∈ all) (same : y.2.name = x.2.name) : y = x :=
  List.inj_on_of_nodup_map nodup_names other member same

theorem get_put : ∀ x ∈ all, ∀ b s, x.2.get (x.2.put b s) = b := by
  simp only [all, List.forall_mem_cons]
  exact ⟨fun _ _ => rfl, fun _ _ => rfl, fun _ _ => rfl, fun _ _ => rfl, fun _ _ => rfl,
    fun _ _ => rfl, fun _ _ => rfl, fun _ _ => rfl, fun _ _ => rfl, List.forall_mem_nil _⟩

theorem get_put_of_ne : ∀ x ∈ all, ∀ y ∈ all, x.2.name ≠ y.2.name → ∀ b s,
    x.2.get (y.2.put b s) = x.2.get s := by
  simp [all, tempo, leadIn, looping, mode, sampleRate, unoverridden, ahead, attackMs, releaseMs,
    logLevel]

theorem mem_overridden : ∀ v ∈ overridden, v.2 ∈ all := by
  simp [overridden, all]

/-- Which variables override which setting. -/
theorem mem_variableNames_iff : ∀ x ∈ all, ∀ v ∈ overridden,
    v.1 ∈ x.2.variableNames ↔ v.2.2.name = x.2.name := by
  decide

theorem exists_of_mem_variableNames : ∀ x ∈ all, ∀ name ∈ x.2.variableNames,
    name ∈ overridden.map Prod.fst := by
  decide

/-- Of the variables for one setting a stronger one is looked at later. -/
theorem filter_overridden : ∀ x ∈ all,
    ((overridden.map Prod.fst).filter fun name => name ∈ x.2.variableNames) =
      x.2.variableNames.reverse := by
  decide

/-- Where a setting stands. -/
theorem mem_part_iff : ∀ x ∈ all, ∀ part ∈ parts,
    x.2.name ∈ part.2.map Field.name ↔ part.1 = x.2.part := by
  decide

theorem part_mem : ∀ x ∈ all, x.2.part ∈ parts.map Prod.fst := by
  decide

section Environment

variable (environment : Environment)

/-- What a variable does to the settings. -/
theorem applyOverrides_cons (v : String × AnySetting) (later : List (String × AnySetting))
    (s : Settings Float) :
    applyOverrides environment ((v :: later).map fun v => v.2.2.override v.1) s =
      match v.2.2.ofVariable? environment v.1 with
      | none => applyOverrides environment (later.map fun v => v.2.2.override v.1) s
      | some b =>
        let (s, names) :=
          applyOverrides environment (later.map fun v => v.2.2.override v.1) (v.2.2.put b s)
        (s, v.1 :: names) := by
  have set : ((environment.get? (v.2.2.override v.1).name).bind fun text =>
      (v.2.2.override v.1).set text.toList s) =
        (v.2.2.ofVariable? environment v.1).map fun b => v.2.2.put b s := by
    rw [ofVariable?, Option.map_bind]
    rfl
  rw [List.map_cons, applyOverrides, set]
  cases v.2.2.ofVariable? environment v.1 <;> rfl

/-- A setting has the value of the last variable for it that is set and understood, or else the one
it had. -/
theorem get_applyOverrides (member : x ∈ all)
    (vs : List (String × AnySetting)) (known : vs ⊆ overridden)
    (s : Settings Float) :
    x.2.get (applyOverrides environment (vs.map fun v => v.2.2.override v.1) s).1 =
      ((((vs.map Prod.fst).filter fun name => name ∈ x.2.variableNames).reverse.findSome?
        (x.2.ofVariable? environment)).getD (x.2.get s)) := by
  induction vs generalizing s with
  | nil => rfl
  | cons v later ih =>
    obtain ⟨here, known⟩ := List.cons_subset.mp known
    have belongs := mem_variableNames_iff x member v here
    have among := mem_overridden v here
    rw [applyOverrides_cons, List.map_cons]
    by_cases own : v.1 ∈ x.2.variableNames
    · have same : v.2 = x := eq_of_name member among (belongs.mp own)
      subst same
      rw [List.filter_cons_of_pos (by simpa using own), List.reverse_cons, List.findSome?_append,
        List.findSome?_singleton]
      cases given : v.2.2.ofVariable? environment v.1 with
      | none => rw [Option.or_none, ih known]
      | some b =>
        refine (ih known _).trans ?_
        rw [get_put v.2 member]
        cases List.findSome? _ _ <;> rfl
    · have other : x.2.name ≠ v.2.2.name := fun same => own (belongs.mpr same.symm)
      rw [List.filter_cons_of_neg (by simpa using own)]
      cases v.2.2.ofVariable? environment v.1 with
      | none => exact ih known s
      | some b => exact (ih known _).trans (by rw [get_put_of_ne x member v.2 among other])

/-- The variables that are told are those that are set and understood. -/
theorem applyOverrides_snd (vs : List (String × AnySetting)) (s : Settings Float) :
    (applyOverrides environment (vs.map fun v => v.2.2.override v.1) s).2 =
      (vs.filter fun v => (v.2.2.ofVariable? environment v.1).isSome).map Prod.fst := by
  induction vs generalizing s with
  | nil => rfl
  | cons v later ih =>
    rw [applyOverrides_cons, List.filter_cons]
    cases v.2.2.ofVariable? environment v.1 with
    | none => exact ih s
    | some b => exact congrArg (v.1 :: ·) (ih _)

/-- What the environment makes of a setting. -/
theorem get_overriddenBy (member : x ∈ all) (s : Settings Float) :
    x.2.get (s.overriddenBy environment).1 =
      (x.2.ofEnvironment? environment).getD (x.2.get s) := by
  rw [Settings.overriddenBy, overrides_eq,
    get_applyOverrides environment member overridden (List.Subset.refl _),
    filter_overridden x member, List.reverse_reverse, ofEnvironment?]

end Environment

section Files

variable {table : Table} {s t : Settings Float}

/-- What is read for one setting changes that setting only. -/
theorem get_of_set (member : x ∈ all) : ∀ field ∈ settingFields, ∀ value s t,
    field.set value s = some t →
      if field.name = x.2.name then x.2.ofValue? value = some (x.2.get t)
      else x.2.get t = x.2.get s := by
  rw [settingFields_eq, List.forall_mem_map]
  intro y among value s t set
  obtain ⟨b, taken, rfl⟩ := Option.map_eq_some_iff.mp set
  split
  · next same =>
    obtain rfl := eq_of_name member among same
    rw [get_put y member]
    exact taken
  · next other => exact get_put_of_ne x member y among (Ne.symm other) b s

/-- What a section says about a setting that stands in it. -/
theorem get_readTable_part (member : x ∈ all) {part : String × List Field} (within : part ∈ parts)
    (own : part.1 = x.2.part) {entries : Table}
    (reads : readTable entries part.2 s = some t) :
    match entries.lookup x.2.name with
    | none => x.2.get t = x.2.get s
    | some value => x.2.ofValue? value = some (x.2.get t) := by
  have distinct : ∀ part ∈ parts, (part.2.map Field.name).Nodup := by decide
  exact Settings.get_readTable (fun value _ b => x.2.ofValue? value = some b)
    (distinct part within)
    (fun field inside value _ => get_of_set member field
      (Settings.subset_settingFields within inside) value)
    ((mem_part_iff x member part within).mpr own) reads

/-- Another section does not change it. -/
theorem get_readTable_other (member : x ∈ all) {part : String × List Field}
    (within : part ∈ parts) (other : part.1 ≠ x.2.part) {entries : Table}
    (reads : readTable entries part.2 s = some t) : x.2.get t = x.2.get s := by
  refine Settings.get_readTable_of_leaves (fun field inside value _ s t set => ?_) reads
  have keeps := get_of_set member field (Settings.subset_settingFields within inside) value s t set
  have different : field.name ≠ x.2.name := fun same =>
    other ((mem_part_iff x member part within).mp (same ▸ List.mem_map_of_mem inside))
  rwa [if_neg different] at keeps

/-- What a file whose sections are tables says about a setting. -/
theorem get_ofTable? (member : x ∈ all)
    (plain : ∀ part ∈ parts, Settings.IsSection table part.1)
    (reads : ofTable? table = some s) :
    match x.2.stated? table with
    | none => x.2.get s = x.2.get .usual
    | some value => x.2.ofValue? value = some (x.2.get s) := by
  -- what a section says of the setting, given the value before and the one behind
  let Holds (value : Value) (old new : x.1) : Prop :=
    ∃ entries, value = .table entries ∧
      match entries.lookup x.2.name with
      | none => new = old
      | some inner => x.2.ofValue? inner = some new
  have distinct : (Settings.sections.map Field.name).Nodup := by decide
  have listed : x.2.part ∈ Settings.sections.map Field.name := part_mem x member
  have serves : ∀ field ∈ Settings.sections, ∀ value, table.lookup field.name = some value →
      ∀ s t, field.set value s = some t →
        if field.name = x.2.part then Holds value (x.2.get s) (x.2.get t)
        else x.2.get t = x.2.get s := by
    rw [Settings.sections_eq, List.forall_mem_map]
    intro part within value found s t set
    obtain ⟨entries, rfl⟩ := plain part within value found
    split
    · next own => exact ⟨entries, rfl, get_readTable_part member within own set⟩
    · next other => exact get_readTable_other member within other set
  have whole := Settings.get_readTable Holds distinct serves listed reads
  unfold stated? Settings.stated?
  cases found : table.lookup x.2.part with
  | none =>
    rw [found] at whole
    exact whole
  | some value =>
    rw [found] at whole
    obtain ⟨entries, rfl, inner⟩ := whole
    exact inner

/-- A setting has a single value, not a table, in an ordinary file. -/
theorem stated?_ne_table (member : x ∈ all) (ordinary : Settings.IsOrdinary table)
    (sound : (ofTable? table).isSome = true) {value : Value}
    (found : x.2.stated? table = some value) (entries : Table) : value ≠ .table entries := by
  rintro rfl
  obtain ⟨part, within, own⟩ := List.mem_map.mp (part_mem x member)
  obtain ⟨field, inside, named⟩ :=
    List.mem_map.mp ((mem_part_iff x member part within).mpr own)
  have accepted := Settings.isSome_ofTable?_iff.mp sound (sectionField part.1 part.2)
    (Settings.sections_eq ▸ List.mem_map_of_mem within)
  unfold stated? at found
  rw [← own, ← named] at found
  obtain ⟨whole, there, inner⟩ : ∃ whole, table.lookup part.1 = some (.table whole) ∧
      whole.lookup field.name = some (.table entries) := by
    unfold Settings.stated? at found
    split at found
    · next whole there => exact ⟨whole, there, found⟩
    · cases found
  have taken := (Settings.accepts_section_table_iff (Settings.isUniform_part within)).mp
    (accepted _ there) field inside _ inner
  obtain ⟨mode, -⟩ :=
    (Settings.accepts_table_iff (Settings.subset_settingFields within inside)).mp taken
  have first := Settings.part_eq_of_mode part within field inside mode
  rw [first, mode] at found
  obtain ⟨text, single⟩ := ordinary.mode _ found
  cases single

/-- What files laid over each other say about a setting: what the last one says that says anything,
or what was there before. -/
theorem stated?_foldl (member : x ∈ all) {tables : List Table} {lower : Table}
    (below : ∀ part ∈ parts, Settings.IsSection lower part.1)
    (ordinary : ∀ table ∈ tables, Settings.IsOrdinary table)
    (sound : ∀ table ∈ tables, Toml.IsDistinct table ∧ (ofTable? table).isSome = true) :
    (∃ before table after value, tables = before ++ table :: after ∧
      x.2.stated? table = some value ∧ (∀ later ∈ after, x.2.stated? later = none) ∧
      x.2.stated? (tables.foldl Toml.overlay lower) = some value) ∨
    ((∀ table ∈ tables, x.2.stated? table = none) ∧
      x.2.stated? (tables.foldl Toml.overlay lower) = x.2.stated? lower) := by
  induction tables generalizing lower with
  | nil => exact .inr ⟨List.forall_mem_nil _, rfl⟩
  | cons upper later ih =>
    obtain ⟨simple, ordinary⟩ := List.forall_mem_cons.mp ordinary
    obtain ⟨⟨distinct, given⟩, sound⟩ := List.forall_mem_cons.mp sound
    have joined : x.2.stated? (Toml.overlay lower upper) =
        (x.2.stated? upper).or (x.2.stated? lower) := by
      obtain ⟨part, within, own⟩ := List.mem_map.mp (part_mem x member)
      refine Settings.stated?_overlay (own ▸ below part within) (own ▸ simple.sections part within)
        distinct fun value found => stated?_ne_table member simple given found
    have sections : ∀ part ∈ parts, Settings.IsSection (Toml.overlay lower upper) part.1 :=
      fun part within => (below part within).overlay (simple.sections part within) distinct
    rcases ih sections ordinary sound with
      ⟨before, table, after, value, rfl, found, last, whole⟩ | ⟨unsaid, whole⟩
    · exact .inl ⟨upper :: before, table, after, value, rfl, found, last, whole⟩
    · cases said : x.2.stated? upper with
      | none =>
        rw [said] at joined
        exact .inr ⟨List.forall_mem_cons.mpr ⟨said, unsaid⟩, whole.trans joined⟩
      | some value =>
        rw [said] at joined
        exact .inl ⟨[], upper, later, value, rfl, said, unsaid, whole.trans joined⟩

/-- Files laid over each other have sections that are tables if they all have. -/
theorem isSection_foldl {tables : List Table} {lower : Table}
    (below : ∀ part ∈ parts, Settings.IsSection lower part.1)
    (ordinary : ∀ table ∈ tables, Settings.IsOrdinary table)
    (distinct : ∀ table ∈ tables, Toml.IsDistinct table) :
    ∀ part ∈ parts, Settings.IsSection (tables.foldl Toml.overlay lower) part.1 := by
  induction tables generalizing lower with
  | nil => exact below
  | cons upper later ih =>
    obtain ⟨simple, ordinary⟩ := List.forall_mem_cons.mp ordinary
    obtain ⟨here, distinct⟩ := List.forall_mem_cons.mp distinct
    exact ih (fun part within => (below part within).overlay (simple.sections part within) here)
      ordinary distinct

end Files

/-- Whether a variable overrides a setting: it is set, and what it is set to is understood. -/
def IsHeeded (environment : Environment) (variableName : String) : Prop :=
  ∃ x ∈ all, variableName ∈ x.2.variableNames ∧
    (x.2.ofVariable? environment variableName).isSome = true

/-- The variables that are told are just those that are heeded, in their order. -/
theorem overriddenBy_snd (environment : Environment) (s : Settings Float) :
    (s.overriddenBy environment).2.Sublist (overridden.map Prod.fst) ∧
      ∀ name, name ∈ (s.overriddenBy environment).2 ↔ IsHeeded environment name := by
  have told : (s.overriddenBy environment).2 =
      (overridden.filter fun v => (v.2.2.ofVariable? environment v.1).isSome).map Prod.fst := by
    rw [Settings.overriddenBy, overrides_eq, applyOverrides_snd]
  rw [told]
  refine ⟨List.filter_sublist.map Prod.fst, fun name => ⟨fun member => ?_, ?_⟩⟩
  · obtain ⟨v, inside, rfl⟩ := List.mem_map.mp member
    obtain ⟨here, given⟩ := List.mem_filter.mp inside
    exact ⟨v.2, mem_overridden v here,
      (mem_variableNames_iff v.2 (mem_overridden v here) v here).mpr rfl, given⟩
  · rintro ⟨x, member, own, given⟩
    obtain ⟨v, here, rfl⟩ := List.mem_map.mp (exists_of_mem_variableNames x member name own)
    obtain rfl : v.2 = x := eq_of_name member (mem_overridden v here)
      ((mem_variableNames_iff x member v here).mp own)
    exact List.mem_map_of_mem (List.mem_filter.mpr ⟨here, given⟩)

end Setting

namespace Settings

/-- What loading gives: the files, the variables that were heeded, and the values that prevail. -/
structure Precedence (environment : Environment) (paths : List String) (tables : List Table)
    (loaded : LoadedSettings) : Prop where
  files : loaded.files = paths
  /-- The variables that were heeded, each once, in the order of all of them. -/
  overrides : loaded.overrides.Sublist
    ["GLISSANDO_TEMPO", "GLISSANDO_LEAD_IN", "GLISSANDO_LOOP", "GLISSANDO_MODE",
      "GLISSANDO_SAMPLE_RATE", "GLISSANDO_LOG_LEVEL", "RUST_LOG"]
  heeded : ∀ name, name ∈ loaded.overrides ↔ Setting.IsHeeded environment name
  prevails : ∀ x ∈ Setting.all, x.2.Prevails environment tables (x.2.get loaded.settings)

/-- Files that can be loaded one by one and are ordinary are loaded together, whatever the
environment is, and each setting has the value that prevails. -/
theorem load_precedence (files : FileReader) (environment : Environment) (paths : List String)
    (tables : List Table) (loads : Load files paths tables)
    (ordinary : ∀ table ∈ tables, IsOrdinary table) :
    ∃ loaded, load files environment paths = .ok loaded ∧
      Precedence environment paths tables loaded := by
  have apart : ¬ ModesMeet tables := by
    rintro ⟨lower, member, -, -, mode, -, named, -⟩
    cases said : stated? lower "playback" "mode" with
    | none =>
      rw [said] at named
      cases named
    | some value =>
      obtain ⟨text, rfl⟩ := (ordinary lower member).mode value said
      rw [said] at named
      cases named
  obtain ⟨s, given⟩ := Option.isSome_iff_exists.mp (isSome_ofTable?_of_load loads apart)
  have loaded : loadFiles files paths = .ok s := by rw [loadFiles_of_load loads, given]
  obtain ⟨order, heeded⟩ := Setting.overriddenBy_snd environment s
  refine ⟨⟨(s.overriddenBy environment).1, paths, (s.overriddenBy environment).2⟩, ?_, rfl, order,
    heeded, fun x member => ?_⟩
  · rw [load, loaded]
    rfl
  · have distinct : ∀ table ∈ tables, Toml.IsDistinct table := fun table within =>
      (loads.sound table within).1
    have nothing : ∀ part ∈ parts, IsSection [] part.1 := fun _ _ _ found => (nomatch found)
    have whole :=
      Setting.get_ofTable? member (Setting.isSection_foldl nothing ordinary distinct) given
    show x.2.Prevails environment tables (x.2.get (s.overriddenBy environment).1)
    rw [Setting.get_overriddenBy environment member]
    cases unset : x.2.ofEnvironment? environment with
    | some b => exact .environment unset
    | none =>
      rcases Setting.stated?_foldl member nothing ordinary loads.sound with
        ⟨before, table, after, value, split, said, last, found⟩ | ⟨unsaid, found⟩
      · rw [found] at whole
        exact .file unset split said last whole
      · rw [found] at whole
        exact whole ▸ .usual unset unsaid

/-- Two files that set the tempo, the first of which turns the repetition off as well. -/
def twoTempos : FileReader
  | "system.toml" => .ok "[playback]\ntempo = 90\nloop = false\n".toUTF8
  | "user.toml" => .ok "[playback]\ntempo = 140\n".toUTF8
  | _ => .error .missing

/-- What the first file says. -/
def systemTable : Table := [("playback", .table [("tempo", .integer 90), ("loop", .boolean false)])]

/-- What the second one says. -/
def userTable : Table := [("playback", .table [("tempo", .integer 140)])]

/-- An environment with a log level and a repetition that nobody understands. -/
def perhapsLooping : Environment where
  get?
    | "RUST_LOG" => some "debug"
    | "GLISSANDO_LOOP" => some "maybe"
    | _ => none
  accountHome := none

theorem load_twoTempos :
    Load twoTempos ["system.toml", "user.toml"] [systemTable, userTable] := by
  have system : Table.read "[playback]\ntempo = 90\nloop = false\n".toList = some systemTable := by
    cbv
  have user : Table.read "[playback]\ntempo = 140\n".toList = some userTable := by
    cbv
  exact .cons ⟨⟨_, text_of_toUTF8 rfl, system⟩, rfl⟩
    (.cons ⟨⟨_, text_of_toUTF8 rfl, user⟩, rfl⟩ .nil)

theorem isOrdinary_twoTempos : ∀ table ∈ [systemTable, userTable], IsOrdinary table := by
  have simple (entries : Table) (unset : entries.lookup "mode" = none) :
      IsOrdinary [("playback", .table entries)] := by
    refine ⟨fun part _ value found => ?_, fun value found => ?_⟩
    · rw [List.lookup_cons] at found
      split at found
      · exact ⟨entries, (Option.some.inj found).symm⟩
      · cases found
    · cases unset.symm.trans found
  exact List.forall_mem_cons.mpr ⟨simple _ rfl, List.forall_mem_singleton.mpr (simple _ rfl)⟩

/-- The later file decides on the tempo, and the earlier one on the repetition, of which the later
one says nothing and the environment nothing that is understood. -/
theorem load_precedence_twoTempos :
    Load twoTempos ["system.toml", "user.toml"] [systemTable, userTable] ∧
      (∀ table ∈ [systemTable, userTable], IsOrdinary table) ∧
      ∃ loaded, load twoTempos perhapsLooping ["system.toml", "user.toml"] = .ok loaded ∧
        Precedence perhapsLooping ["system.toml", "user.toml"] [systemTable, userTable] loaded ∧
        loaded.settings.tempo = 140 ∧ loaded.settings.looping = false ∧
        loaded.settings.logLevel = "debug" := by
  obtain ⟨loaded, loads, law⟩ := load_precedence twoTempos perhapsLooping
    ["system.toml", "user.toml"] [systemTable, userTable] load_twoTempos isOrdinary_twoTempos
  have tempo : Setting.tempo.Prevails perhapsLooping [systemTable, userTable] 140 := by
    have last : [systemTable, userTable] = [systemTable] ++ userTable :: [] := rfl
    exact .file rfl last rfl (List.forall_mem_nil _) rfl
  have looping : Setting.looping.Prevails perhapsLooping [systemTable, userTable] false := by
    have first : [systemTable, userTable] = [] ++ systemTable :: [userTable] := rfl
    exact .file rfl first rfl (List.forall_mem_singleton.mpr rfl) rfl
  have logLevel : Setting.logLevel.Prevails perhapsLooping [systemTable, userTable] "debug" :=
    .environment rfl
  refine ⟨load_twoTempos, isOrdinary_twoTempos, loaded, loads, law, ?_, ?_, ?_⟩
  · exact (law.prevails ⟨_, Setting.tempo⟩ (by simp [Setting.all])).unique tempo
  · exact (law.prevails ⟨_, Setting.looping⟩ (by simp [Setting.all])).unique looping
  · exact (law.prevails ⟨_, Setting.logLevel⟩ (by simp [Setting.all])).unique logLevel

end Settings

end Portamento
