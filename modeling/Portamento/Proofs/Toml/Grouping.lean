import Portamento.Proofs.Toml.Path

/-!
# Layers in groups

A table laid over another twice does no more than once. Of three tables it does not matter which two
are laid over each other first, and neither does it of a whole pile of them, as long as no path
leads to a table in one and to another value in a second: such a value in the middle would hide the
lower table's entries from the upper one's, and leave them alone if it came with the upper one.
-/

namespace Portamento.Toml

theorem sizeOf_lt_of_lookup {table entries : Table} {name : String}
    (found : table.lookup name = some (.table entries)) : sizeOf entries < sizeOf table := by
  have within : sizeOf (name, Value.table entries) < sizeOf table :=
    List.sizeOf_lt_of_mem (mem_of_lookup found)
  rw [Prod.mk.sizeOf_spec, Value.table.sizeOf_spec] at within
  omega

/-- What holds of a table whenever it holds of the tables that are its entries holds of every table.
-/
theorem Table.induction {P : Table → Prop}
    (step : ∀ table : Table, (∀ name entries, table.lookup name = some (.table entries) →
      P entries) → P table) (table : Table) : P table :=
  step table fun _ entries found =>
    have := sizeOf_lt_of_lookup found
    Table.induction step entries
termination_by sizeOf table

/-- Whether no path leads to a table in one of two tables and to another value in the other. -/
def AgreeInShape (one other : Table) : Prop :=
  ∀ path value found, (Value.table one).at? path = some value →
    (Value.table other).at? path = some found → value.isTable = found.isTable

namespace AgreeInShape

variable {one other : Table} {name : String}

theorem refl (table : Table) : AgreeInShape table table := fun _ _ _ here there => by
  rw [Option.some.inj (here.symm.trans there)]

theorem symm (agree : AgreeInShape one other) : AgreeInShape other one :=
  fun path value found here there => (agree path found value there here).symm

/-- Two entries under one name are both tables or neither is. -/
theorem kind (agree : AgreeInShape one other) {value found : Value}
    (here : one.lookup name = some value) (there : other.lookup name = some found) :
    value.isTable = found.isTable := by
  refine agree [name] value found ?_ ?_
  · rw [Value.at?_table_cons, here, Option.bind_some, Value.at?_nil]
  · rw [Value.at?_table_cons, there, Option.bind_some, Value.at?_nil]

/-- Two tables under one name agree in their turn. -/
theorem entries (agree : AgreeInShape one other) {inner within : Table}
    (here : one.lookup name = some (.table inner))
    (there : other.lookup name = some (.table within)) : AgreeInShape inner within := by
  intro path value found first second
  refine agree (name :: path) value found ?_ ?_
  · rw [Value.at?_table_cons, here, Option.bind_some, first]
  · rw [Value.at?_table_cons, there, Option.bind_some, second]

end AgreeInShape

/-- Whether all entries of a table are tables, and all of theirs are none. -/
def IsOfSections (table : Table) : Prop :=
  ∀ part ∈ table, part.2.isTable = true ∧
    ∀ setting ∈ entriesOf (some part.2), setting.2.isTable = false

instance (table : Table) : Decidable (IsOfSections table) :=
  inferInstanceAs (Decidable (∀ part ∈ table, part.2.isTable = true ∧
    ∀ setting ∈ entriesOf (some part.2), setting.2.isTable = false))

/-- In a table of sections one step leads to a table, and two lead to another value. -/
theorem IsOfSections.isTable_eq {table : Table} (sections : IsOfSections table)
    {path : List String} {value : Value} (found : (Value.table table).at? path = some value) :
    value.isTable = decide (path.length < 2) := by
  match path with
  | [] =>
    cases found
    rfl
  | name :: path =>
    obtain ⟨inner, here, found⟩ := Option.bind_eq_some_iff.mp found
    obtain ⟨kind, plain⟩ := sections _ (mem_of_lookup here)
    match path with
    | [] =>
      rw [Value.at?_nil] at found
      rw [← Option.some.inj found]
      exact kind
    | key :: path =>
      obtain ⟨entries, rfl⟩ := Value.exists_of_isTable kind
      obtain ⟨setting, there, found⟩ := Option.bind_eq_some_iff.mp found
      have single : setting.isTable = false := plain _ (mem_of_lookup there)
      match path with
      | [] =>
        rw [Value.at?_nil] at found
        rw [← Option.some.inj found]
        exact single
      | _ :: _ =>
        rw [Value.at?_cons_of_not_table single] at found
        cases found

/-- Tables of sections agree, whatever is set in them. -/
theorem IsOfSections.agreeInShape {one other : Table} (sections : IsOfSections one)
    (parts : IsOfSections other) : AgreeInShape one other :=
  fun _ _ _ here there => (sections.isTable_eq here).trans (parts.isTable_eq there).symm

section Laws

variable {lower middle upper : Table}

theorem names_overlay_overlay (between : (middle.map Prod.fst).Nodup)
    (paired : ((overlay middle upper).map Prod.fst).Nodup) (above : (upper.map Prod.fst).Nodup) :
    (overlay (overlay lower middle) upper).map Prod.fst =
      (overlay lower (overlay middle upper)).map Prod.fst := by
  rw [names_overlay paired, names_overlay above, names_overlay above, names_overlay between,
    List.filter_append, List.filter_filter, List.append_assoc]
  refine congrArg _ (congrArg _ (List.filter_congr fun name _ => ?_))
  simp only [List.mem_append, List.mem_filter, decide_eq_true_eq]
  rw [← Bool.decide_and, decide_eq_decide]
  tauto

/-- It does not matter which two of three values are laid over each other first, if the two upper
ones are both tables or neither is and if it does not matter for tables. -/
theorem overlayValue_overlayValue {under : Option Value} {value top : Value}
    (between : value.IsDistinct) (above : top.IsDistinct) (same : value.isTable = top.isTable)
    (tables : ∀ within upon, value = .table within → top = .table upon →
      overlay (overlay (entriesOf under) within) upon =
        overlay (entriesOf under) (overlay within upon)) :
    overlayValue (some (overlayValue under value)) top =
      overlayValue under (overlayValue (some value) top) := by
  cases kind : top.isTable with
  | false => simp only [(overlayValue_eq_iff kind).mpr rfl]
  | true =>
    obtain ⟨upon, rfl⟩ := Value.exists_of_isTable kind
    obtain ⟨within, rfl⟩ := Value.exists_of_isTable (same.trans kind)
    have amid : IsDistinct within := between
    have last : IsDistinct upon := above
    calc overlayValue (some (overlayValue under (.table within))) (.table upon)
        = .table (overlay (overlay (entriesOf under) within) upon) := by
          rw [overlayValue_table amid.nodup]
          rfl
      _ = .table (overlay (entriesOf under) (overlay within upon)) := by
          rw [tables within upon rfl rfl]
      _ = overlayValue under (.table (overlay within upon)) :=
          (overlayValue_table (amid.overlay last).nodup under).symm

/-- It does not matter which two of three tables are laid over each other first, if the two upper
ones agree about what is a table. -/
theorem overlay_assoc (below : IsDistinct lower) (between : IsDistinct middle)
    (above : IsDistinct upper) (agree : AgreeInShape middle upper) :
    overlay (overlay lower middle) upper = overlay lower (overlay middle upper) := by
  induction upper using Table.induction generalizing lower middle with
  | step upper ih =>
    have paired : IsDistinct (overlay middle upper) := between.overlay above
    have whole : IsDistinct (overlay lower (overlay middle upper)) := below.overlay paired
    have names : (overlay (overlay lower middle) upper).map Prod.fst =
        (overlay lower (overlay middle upper)).map Prod.fst :=
      names_overlay_overlay between.nodup paired.nodup above.nodup
    refine eq_of_lookup names (names ▸ whole.nodup) fun name => ?_
    rw [lookup_overlay above.nodup, lookup_overlay between.nodup, lookup_overlay paired.nodup,
      lookup_overlay above.nodup]
    cases last : upper.lookup name with
    | none => rfl
    | some top =>
      cases second : middle.lookup name with
      | none => exact congrArg _ (congrArg _ (overlayValue_none top).symm)
      | some value =>
        refine congrArg some (overlayValue_overlayValue (between.value second) (above.value last)
          (agree.kind second last) ?_)
        rintro within upon rfl rfl
        have under : IsDistinct (entriesOf (lower.lookup name)) :=
          IsDistinct.entriesOf fun _ => below.value
        exact ih name upon last under (between.value second) (above.value last)
          (agree.entries second last)

/-- A text between two tables for one name hides the lower one if it is laid over that first, and
nothing if the upper one is laid over it first. -/
example : let live : Table := [("mode", .table [("live", .boolean true)])]
    let named : Table := [("mode", .text "live")]
    let empty : Table := [("mode", .table [])]
    overlay (overlay live named) empty = empty ∧ overlay live (overlay named empty) = live :=
  ⟨rfl, rfl⟩

theorem overlay_self (distinct : IsDistinct upper) : overlay upper upper = upper := by
  induction upper using Table.induction with
  | step upper ih =>
    have names : (overlay upper upper).map Prod.fst = upper.map Prod.fst := by
      rw [names_overlay distinct.nodup, List.append_right_eq_self, List.filter_eq_nil_iff]
      intro name member
      simp only [member, not_true, decide_false, Bool.false_eq_true, not_false_eq_true]
    refine eq_of_lookup names (names ▸ distinct.nodup) fun name => ?_
    rw [lookup_overlay distinct.nodup]
    cases found : upper.lookup name with
    | none => rfl
    | some value =>
      refine congrArg some ?_
      cases value with
      | table entries => exact congrArg _ (ih name entries found (distinct.value found))
      | _ => rfl

/-- What is laid over a table for a second time is there already. -/
theorem overlay_overlay_self (below : IsDistinct lower) (above : IsDistinct upper) :
    overlay (overlay lower upper) upper = overlay lower upper := by
  rw [overlay_assoc below above above (AgreeInShape.refl upper), overlay_self above]

/-- A table laid over another agrees with whatever both of them agree with. -/
theorem AgreeInShape.overlay {one : Table} (above : IsDistinct upper)
    (under : AgreeInShape one lower) (upon : AgreeInShape one upper) :
    AgreeInShape one (overlay lower upper) := by
  intro path value found here there
  rcases at?_overlay_cases lower above path with
    ⟨top, stands, joined⟩ | ⟨-, joined⟩ | ⟨-, -, joined⟩
  · rw [joined] at there
    rw [← Option.some.inj there, isTable_overlayValue]
    exact upon path value top here stands
  · exact under path value found here (joined ▸ there)
  · rw [joined] at there
    cases there

/-- However many tables are laid over two, they may as well be laid over the upper one first. -/
theorem foldl_overlay {more : List Table} (below : IsDistinct lower) (above : IsDistinct upper)
    (distinct : ∀ table ∈ more, IsDistinct table)
    (agree : (upper :: more).Pairwise AgreeInShape) :
    more.foldl overlay (overlay lower upper) = overlay lower (more.foldl overlay upper) := by
  induction more generalizing upper with
  | nil => rfl
  | cons next later ih =>
    obtain ⟨here, distinct⟩ := List.forall_mem_cons.mp distinct
    obtain ⟨first, rest⟩ := List.pairwise_cons.mp agree
    obtain ⟨second, rest⟩ := List.pairwise_cons.mp rest
    obtain ⟨met, first⟩ := List.forall_mem_cons.mp first
    rw [List.foldl_cons, List.foldl_cons, overlay_assoc below above here met]
    refine ih (above.overlay here) distinct (List.pairwise_cons.mpr ⟨fun table member => ?_, rest⟩)
    exact ((first table member).symm.overlay here (second table member).symm).symm

end Laws

/-- The laws by which one table is laid over another. -/
structure LayerAlgebra (lower upper : Table) : Prop where
  /-- A value of the upper table that is no table stands where it stood. -/
  keeps_upper : ∀ path value, value.isTable = false →
    (Value.table upper).at? path = some value →
      (Value.table (overlay lower upper)).at? path = some value
  /-- So does one of the lower table if the upper one has nothing there and no such value on the
  way. -/
  keeps_lower : ∀ path value, value.isTable = false →
    (Value.table lower).at? path = some value → (Value.table upper).LeavesOpen path →
      (Value.table (overlay lower upper)).at? path = some value
  /-- There are no others. -/
  adds_nothing : ∀ path value, value.isTable = false →
    (Value.table (overlay lower upper)).at? path = some value →
      (Value.table upper).at? path = some value ∨
        (Value.table lower).at? path = some value ∧ (Value.table upper).LeavesOpen path
  /-- Names stay different, so that the result is a table. -/
  distinct : IsDistinct (overlay lower upper)
  over_nothing : overlay [] upper = upper
  under_nothing : overlay lower [] = lower
  twice : overlay (overlay lower upper) upper = overlay lower upper
  /-- Three tables that agree about what is a table may be laid over each other in any grouping. -/
  regroups : ∀ top, IsDistinct top → [lower, upper, top].Pairwise AgreeInShape →
    overlay (overlay lower upper) top = overlay lower (overlay upper top)
  /-- The same goes for any number of them, and it takes no more than that those over the lowest one
  agree. -/
  piles_up : ∀ more, (∀ table ∈ more, IsDistinct table) →
    (upper :: more).Pairwise AgreeInShape →
      more.foldl overlay (overlay lower upper) = overlay lower (more.foldl overlay upper)

/-- Laying one table over another obeys these laws, whatever the two tables are. That no name occurs
twice in them makes them tables; it holds of all that are read and of what they make together. -/
theorem layer_algebra {lower upper : Table} (below : IsDistinct lower) (above : IsDistinct upper) :
    LayerAlgebra lower upper where
  keeps_upper path _ single found := (at?_overlay_eq_some_iff above single path).mpr (.inl found)
  keeps_lower path _ single found clear :=
    (at?_overlay_eq_some_iff above single path).mpr (.inr ⟨found, clear⟩)
  adds_nothing path _ single found := (at?_overlay_eq_some_iff above single path).mp found
  distinct := below.overlay above
  over_nothing := overlay_nil above.nodup
  under_nothing := rfl
  twice := overlay_overlay_self below above
  regroups top last agree := by
    obtain ⟨-, agree⟩ := List.pairwise_cons.mp agree
    exact overlay_assoc below above last (List.rel_of_pairwise_cons agree List.mem_cons_self)
  piles_up _ distinct agree := foldl_overlay below above distinct agree

/-- What one file says about the playback. -/
def playbackLayer : Table :=
  [("playback", .table [("tempo", .integer 90), ("loop", .boolean false)])]

/-- Another tempo, and a section that the first file does not have. -/
def tempoLayer : Table :=
  [("telemetry", .table [("log_level", .text "debug")]),
    ("playback", .table [("tempo", .integer 140)])]

/-- One more setting for each section of the second file. -/
def modeLayer : Table :=
  [("playback", .table [("mode", .text "live"), ("loop", .boolean true)]),
    ("telemetry", .table [("log_level", .text "warn")])]

theorem layer_algebra_threeFiles :
    IsDistinct playbackLayer ∧ IsDistinct tempoLayer ∧ IsDistinct modeLayer ∧
      [playbackLayer, tempoLayer, modeLayer].Pairwise AgreeInShape ∧
      LayerAlgebra playbackLayer tempoLayer ∧
      (Value.table (overlay playbackLayer tempoLayer)).at? ["playback", "loop"] =
        some (.boolean false) ∧
      overlay (overlay playbackLayer tempoLayer) modeLayer =
        overlay playbackLayer (overlay tempoLayer modeLayer) := by
  have below : IsDistinct playbackLayer := by
    simp [playbackLayer, IsDistinct, Value.IsDistinct]
  have above : IsDistinct tempoLayer := by simp [tempoLayer, IsDistinct, Value.IsDistinct]
  have last : IsDistinct modeLayer := by simp [modeLayer, IsDistinct, Value.IsDistinct]
  have sections : ∀ table ∈ [playbackLayer, tempoLayer, modeLayer], IsOfSections table := by
    decide
  have agree : [playbackLayer, tempoLayer, modeLayer].Pairwise AgreeInShape :=
    List.pairwise_of_forall_mem_list fun one member other within =>
      (sections one member).agreeInShape (sections other within)
  have silent : (Value.table tempoLayer).LeavesOpen ["playback", "loop"] := by
    simp [tempoLayer, Value.leavesOpen_table_cons, List.lookup_cons]
  have laws : LayerAlgebra playbackLayer tempoLayer := layer_algebra below above
  exact ⟨below, above, last, agree, laws, laws.keeps_lower _ _ rfl rfl silent,
    laws.regroups modeLayer last agree⟩

end Portamento.Toml
