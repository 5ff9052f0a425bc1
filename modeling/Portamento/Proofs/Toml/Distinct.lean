import Mathlib.Data.List.Basic
import Portamento.Toml.Document

/-!
# Names are different from each other

In a table that has been read no name occurs twice, and the same goes for every table within it.
A tree that is being put together has that property at any time, because each way to add to it looks
for the name first. So what one table says under a name is what its only entry of that name says.
-/

namespace Portamento.Toml

mutual

/-- Whether in each table within a value the names are different from each other. -/
def Value.IsDistinct : Value → Prop
  | .list items => AreDistinct items
  | .table entries => IsDistinct entries
  | _ => True

/-- The same of all values of a list. -/
def AreDistinct : List Value → Prop
  | [] => True
  | item :: later => item.IsDistinct ∧ AreDistinct later

/-- The same of a table: neither it nor one within it has a name twice. -/
def IsDistinct : List (String × Value) → Prop
  | [] => True
  | (name, value) :: later =>
    name ∉ later.map Prod.fst ∧ value.IsDistinct ∧ IsDistinct later

end

theorem areDistinct_iff {items : List Value} :
    AreDistinct items ↔ ∀ item ∈ items, item.IsDistinct := by
  induction items with
  | nil => simp [AreDistinct]
  | cons item later ih => simp only [AreDistinct, ih, List.forall_mem_cons]

theorem isDistinct_iff {entries : Table} : IsDistinct entries ↔
    (entries.map Prod.fst).Nodup ∧ ∀ entry ∈ entries, entry.2.IsDistinct := by
  induction entries with
  | nil => simp [IsDistinct]
  | cons entry later ih =>
    simp only [IsDistinct, ih, List.map_cons, List.nodup_cons, List.forall_mem_cons]
    tauto

theorem IsDistinct.nodup {entries : Table} (distinct : IsDistinct entries) :
    (entries.map Prod.fst).Nodup :=
  (isDistinct_iff.mp distinct).1

theorem mem_of_lookup {β : Type} {entries : List (String × β)} {name : String} {value : β}
    (found : entries.lookup name = some value) : (name, value) ∈ entries := by
  obtain ⟨before, after, rfl, -⟩ := List.lookup_eq_some_iff.mp found
  exact List.mem_append_right before List.mem_cons_self

theorem IsDistinct.value {entries : Table} {name : String} {value : Value}
    (distinct : IsDistinct entries) (found : entries.lookup name = some value) :
    value.IsDistinct :=
  (isDistinct_iff.mp distinct).2 (name, value) (mem_of_lookup found)

/-- A name keeps its place if there is an entry for it, and comes last if there is none. -/
theorem names_put {β : Type} (entries : List (String × β)) (name : String) (value : β) :
    (put entries name value).map Prod.fst =
      if name ∈ entries.map Prod.fst then entries.map Prod.fst
      else entries.map Prod.fst ++ [name] := by
  induction entries with
  | nil => rfl
  | cons entry later ih =>
    rw [put]
    split
    · next same => simp [← same]
    · next other =>
      simp only [List.map_cons, ih, List.mem_cons, Ne.symm other, false_or]
      split <;> rfl

/-- The names after an entry has been put in are those before and its own. -/
theorem mem_names_put {β : Type} {entries : List (String × β)} {name key : String} {value : β} :
    key ∈ (put entries name value).map Prod.fst ↔ key ∈ entries.map Prod.fst ∨ key = name := by
  rw [names_put]
  split
  · next known => exact ⟨.inl, fun either => either.elim id fun same => same ▸ known⟩
  · rw [List.mem_append, List.mem_singleton]

theorem IsDistinct.put {entries : Table} (distinct : IsDistinct entries) (name : String)
    {value : Value} (inner : value.IsDistinct) : IsDistinct (put entries name value) := by
  induction entries with
  | nil => exact ⟨List.not_mem_nil, inner, trivial⟩
  | cons entry later ih =>
    obtain ⟨apart, here, rest⟩ := distinct
    rw [Toml.put]
    split
    · exact ⟨apart, inner, rest⟩
    · next other =>
      exact ⟨fun member => (mem_names_put.mp member).elim apart other, here, ih rest⟩

theorem IsDistinct.filter {entries : Table} (distinct : IsDistinct entries)
    (isWanted : String × Value → Bool) : IsDistinct (entries.filter isWanted) := by
  rw [isDistinct_iff] at distinct ⊢
  exact ⟨distinct.1.sublist (List.filter_sublist.map Prod.fst),
    fun entry member => distinct.2 entry (List.mem_of_mem_filter member)⟩

section Tree

theorem entryValues_eq_map (tree : Tree) :
    entryValues tree = tree.map fun entry => (entry.1, entry.2.value) := by
  induction tree with
  | nil => rfl
  | cons entry later ih => exact congrArg (_ :: ·) ih

theorem rowValues_eq_map (rows : List Tree) :
    rowValues rows = rows.map fun row => .table (entryValues row) := by
  induction rows with
  | nil => rfl
  | cons row later ih => exact congrArg (_ :: ·) ih

theorem entryValues_put (tree : Tree) (name : String) (node : Node) :
    entryValues (put tree name node) = put (entryValues tree) name node.value := by
  induction tree with
  | nil => rfl
  | cons entry later ih =>
    obtain ⟨key, old⟩ := entry
    rw [put, entryValues, put]
    split
    · rfl
    · exact congrArg (_ :: ·) ih

theorem lookup_entryValues (tree : Tree) (name : String) :
    (entryValues tree).lookup name = (tree.lookup name).map Node.value := by
  induction tree with
  | nil => rfl
  | cons entry later ih =>
    obtain ⟨key, node⟩ := entry
    simp only [entryValues, List.lookup_cons]
    split <;> simp [ih]

/-- A change that keeps the names of a tree different from each other. -/
def TreeChange.KeepsDistinct (change : TreeChange) : Prop :=
  ∀ origin tree after, IsDistinct (entryValues tree) → change origin tree = some after →
    IsDistinct (entryValues after)

namespace Tree

variable {name : String} {tree : Tree}

theorem isDistinct_put (distinct : IsDistinct (entryValues tree)) (name : String) {node : Node}
    (inner : node.value.IsDistinct) : IsDistinct (entryValues (put tree name node)) := by
  rw [entryValues_put]
  exact distinct.put name inner

/-- A part of a tree with different names has different names as well. -/
theorem isDistinct_of_lookup (distinct : IsDistinct (entryValues tree)) {node : Node}
    (found : tree.lookup name = some node) : node.value.IsDistinct :=
  distinct.value (by rw [lookup_entryValues, found, Option.map_some])

theorem isDistinct_rows {rows : List Tree} :
    (Node.rows rows).value.IsDistinct ↔ ∀ row ∈ rows, IsDistinct (entryValues row) := by
  rw [Node.value, Value.IsDistinct, rowValues_eq_map, areDistinct_iff, List.forall_mem_map]
  rfl

theorem keepsDistinct_changeAt (manner : Origin) {change : TreeChange}
    (keeps : change.KeepsDistinct) (path : List String) :
    TreeChange.KeepsDistinct (changeAt manner change path) := by
  induction path with
  | nil => exact keeps
  | cons name path ih =>
    intro origin tree after distinct changed
    unfold changeAt at changed
    split at changed
    · obtain ⟨inner, opened, rfl⟩ := Option.map_eq_some_iff.mp changed
      exact isDistinct_put distinct name (ih _ empty _ trivial opened)
    · cases changed
    · next opened inner found =>
      have within : IsDistinct (entryValues inner) := isDistinct_of_lookup distinct found
      split at changed
      · cases changed
      · obtain ⟨inner', step, rfl⟩ := Option.map_eq_some_iff.mp changed
        exact isDistinct_put distinct name (ih _ _ _ within step)
    · next rows found =>
      have within := isDistinct_rows.mp (isDistinct_of_lookup distinct found)
      split at changed
      · cases changed
      · next last others order =>
        -- the rows stand in reverse order, and only the last one of them is changed
        have all : ∀ row ∈ last :: others, IsDistinct (entryValues row) := fun row member =>
          within row (List.mem_reverse.mp (order ▸ member))
        obtain ⟨last', step, rfl⟩ := Option.map_eq_some_iff.mp changed
        refine isDistinct_put distinct name (isDistinct_rows.mpr fun row member => ?_)
        rcases List.mem_cons.mp (List.mem_reverse.mp member) with rfl | member
        · exact ih _ _ _ (all last List.mem_cons_self) step
        · exact all row (List.mem_cons_of_mem last member)

theorem keepsDistinct_addLeaf (byDots : Bool) (name : String) {value : Value}
    (inner : value.IsDistinct) : (addLeaf byDots name value).KeepsDistinct := by
  intro origin tree after distinct added
  unfold addLeaf at added
  split at added
  · split at added
    · cases added
      exact isDistinct_put distinct name inner
    · cases added
  · cases added

theorem keepsDistinct_openTable (name : String) : (openTable name).KeepsDistinct := by
  intro origin tree after distinct opened
  unfold openTable at opened
  split at opened
  · cases opened
    exact isDistinct_put distinct name trivial
  · next inner found =>
    cases opened
    have without : IsDistinct (entryValues (tree.filter fun entry => entry.1 != name)) := by
      have same : entryValues (tree.filter fun entry => entry.1 != name) =
          (entryValues tree).filter fun entry => entry.1 != name := by
        rw [entryValues_eq_map, entryValues_eq_map, List.filter_map]
        rfl
      rw [same]
      exact distinct.filter _
    have within : IsDistinct (entryValues inner) := isDistinct_of_lookup distinct found
    exact isDistinct_put without name within
  · cases opened

theorem keepsDistinct_openRow (name : String) : (openRow name).KeepsDistinct := by
  intro origin tree after distinct opened
  unfold openRow at opened
  split at opened
  · cases opened
    exact isDistinct_put distinct name ⟨trivial, trivial⟩
  · next rows found =>
    cases opened
    have within := isDistinct_rows.mp (isDistinct_of_lookup distinct found)
    refine isDistinct_put distinct name (isDistinct_rows.mpr fun row member => ?_)
    rcases List.mem_append.mp member with old | new
    · exact within row old
    · cases List.mem_singleton.mp new
      trivial
  · cases opened

theorem isDistinct_assign {path : NamePath} {value : Value} {after : Tree}
    (distinct : IsDistinct (entryValues tree)) (inner : value.IsDistinct)
    (assigned : tree.assign path value = some after) : IsDistinct (entryValues after) :=
  keepsDistinct_changeAt .dotted (keepsDistinct_addLeaf _ _ inner) path.parents _ _ _ distinct
    assigned

end Tree

end Tree

section Reading

/-- Whether whatever a reader reads has a property. -/
def Gives {β : Type} (reader : Reader β) (P : β → Prop) : Prop :=
  ∀ text b rest, reader text = some (b, rest) → P b

theorem gives_readItems {item : Reader Value} (gives : Gives item Value.IsDistinct) (fuel : Nat) :
    Gives (readItems item fuel) AreDistinct := by
  induction fuel with
  | zero => exact fun _ _ _ read => nomatch read
  | succ fuel ih =>
    intro text items rest read
    unfold readItems at read
    split at read
    · cases read
      trivial
    · obtain ⟨⟨value, later⟩, first, read⟩ := Option.bind_eq_some_iff.mp read
      have inner := gives _ _ _ first
      dsimp only at read
      split at read
      · obtain ⟨⟨values, later⟩, others, read⟩ := Option.bind_eq_some_iff.mp read
        cases read
        exact ⟨inner, ih _ _ _ others⟩
      · cases read
        exact ⟨inner, trivial⟩
      · cases read

theorem gives_readEntries {item : Reader Value} (gives : Gives item Value.IsDistinct)
    (fuel : Nat) :
    Gives (readEntries item fuel) fun entries => ∀ entry ∈ entries, entry.2.IsDistinct := by
  have one : Gives (readEntry item) fun entry => entry.2.IsDistinct := by
    intro text entry rest read
    obtain ⟨⟨path, later⟩, -, read⟩ := Option.bind_eq_some_iff.mp read
    obtain ⟨later, -, read⟩ := Option.bind_eq_some_iff.mp read
    obtain ⟨⟨value, later⟩, first, read⟩ := Option.bind_eq_some_iff.mp read
    cases read
    exact gives _ _ _ first
  induction fuel with
  | zero => exact fun _ _ _ read => nomatch read
  | succ fuel ih =>
    intro text entries rest read
    unfold readEntries at read
    obtain ⟨⟨entry, later⟩, first, read⟩ := Option.bind_eq_some_iff.mp read
    have inner := one _ _ _ first
    dsimp only at read
    split at read
    · obtain ⟨⟨entries, later⟩, others, read⟩ := Option.bind_eq_some_iff.mp read
      cases read
      exact List.forall_mem_cons.mpr ⟨inner, ih _ _ _ others⟩
    · cases read
      exact List.forall_mem_singleton.mpr inner
    · cases read

/-- Entries that are assigned one after the other keep the names different from each other. -/
theorem isDistinct_foldlM_assign {entries : List (NamePath × Value)} {tree after : Tree}
    (distinct : IsDistinct (entryValues tree)) (inner : ∀ entry ∈ entries, entry.2.IsDistinct)
    (assigned : entries.foldlM (fun tree (path, value) => tree.assign path value) tree =
      some after) : IsDistinct (entryValues after) := by
  induction entries generalizing tree with
  | nil =>
    cases assigned
    exact distinct
  | cons entry later ih =>
    obtain ⟨here, inner⟩ := List.forall_mem_cons.mp inner
    rw [List.foldlM_cons] at assigned
    obtain ⟨middle, first, assigned⟩ := Option.bind_eq_some_iff.mp assigned
    exact ih (Tree.isDistinct_assign distinct here first) inner assigned

theorem gives_readInline {item : Reader Value} (gives : Gives item Value.IsDistinct) (fuel : Nat) :
    Gives (readInline item fuel) Value.IsDistinct := by
  intro text value rest read
  unfold readInline at read
  split at read
  · cases read
    trivial
  · obtain ⟨⟨entries, later⟩, all, read⟩ := Option.bind_eq_some_iff.mp read
    obtain ⟨tree, assigned, read⟩ := Option.bind_eq_some_iff.mp read
    cases read
    have none : IsDistinct (entryValues Tree.empty) := trivial
    exact isDistinct_foldlM_assign none (gives_readEntries gives _ _ _ _ all) assigned

theorem isDistinct_of_integer? {n : Int} {value : Value} (made : integer? n = some value) :
    value.IsDistinct := by
  unfold integer? at made
  split at made
  · cases made
    trivial
  · cases made

theorem isDistinct_of_float? {negative : Bool} {whole fraction : List Char} {exponent : Int}
    {value : Value} (made : float? negative whole fraction exponent = some value) :
    value.IsDistinct := by
  unfold float? at made
  dsimp only at made
  split at made
  · cases made
    trivial
  · split at made
    · cases made
    · cases made
      trivial

theorem gives_readUnsigned (negative : Bool) :
    Gives (readUnsigned negative) Value.IsDistinct := by
  intro text value rest read
  unfold readUnsigned at read
  split at read
  · cases read
    trivial
  · cases read
    trivial
  · obtain ⟨⟨whole, later⟩, -, read⟩ := Option.bind_eq_some_iff.mp read
    obtain ⟨⟨fraction, later⟩, -, read⟩ := Option.bind_eq_some_iff.mp read
    obtain ⟨⟨exponent, later⟩, -, read⟩ := Option.bind_eq_some_iff.mp read
    dsimp only at read
    split at read
    · obtain ⟨found, made, read⟩ := Option.bind_eq_some_iff.mp read
      obtain ⟨n, -, made⟩ := Option.bind_eq_some_iff.mp made
      cases read
      exact isDistinct_of_integer? made
    · obtain ⟨found, made, read⟩ := Option.bind_eq_some_iff.mp read
      cases read
      exact isDistinct_of_float? made

theorem gives_readInBase (base : Nat) (isDigit : Char → Bool) :
    Gives (readInBase base isDigit) Value.IsDistinct := by
  intro text value rest read
  obtain ⟨⟨digits, later⟩, -, read⟩ := Option.bind_eq_some_iff.mp read
  obtain ⟨found, made, read⟩ := Option.bind_eq_some_iff.mp read
  cases read
  exact isDistinct_of_integer? made

theorem gives_readFigure : Gives readFigure Value.IsDistinct := by
  intro text value rest read
  unfold readFigure at read
  split at read
  · cases read
    trivial
  · unfold readNumber at read
    split at read
    · exact gives_readUnsigned _ _ _ _ read
    · exact gives_readUnsigned _ _ _ _ read
    · exact gives_readInBase _ _ _ _ _ read
    · exact gives_readInBase _ _ _ _ _ read
    · exact gives_readInBase _ _ _ _ _ read
    · exact gives_readUnsigned _ _ _ _ read

theorem gives_readValue (fuel depth : Nat) : Gives (readValue fuel depth) Value.IsDistinct := by
  induction depth using Nat.strongRecOn with
  | ind depth ih =>
    intro text value rest read
    unfold readValue at read
    split at read
    · obtain ⟨⟨content, later⟩, -, made⟩ := Option.map_eq_some_iff.mp read
      cases made
      trivial
    · obtain ⟨⟨content, later⟩, -, made⟩ := Option.map_eq_some_iff.mp read
      cases made
      trivial
    · cases read
      trivial
    · cases read
      trivial
    · cases depth with
      | zero => cases read
      | succ depth =>
        obtain ⟨⟨items, later⟩, inner, made⟩ := Option.map_eq_some_iff.mp read
        cases made
        exact gives_readItems (ih depth depth.lt_succ_self) _ _ _ _ inner
    · cases depth with
      | zero => cases read
      | succ depth => exact gives_readInline (ih depth depth.lt_succ_self) _ _ _ _ read
    · exact gives_readFigure _ _ _ read

/-- Whether the value that a statement sets, if it sets one, has different names. -/
def Statement.IsDistinct : Statement → Prop
  | .entry _ value => value.IsDistinct
  | _ => True

theorem gives_readStatement (fuel : Nat) : Gives (Statement.read fuel) Statement.IsDistinct := by
  intro text statement rest read
  unfold Statement.read at read
  split at read
  · obtain ⟨⟨path, later⟩, -, read⟩ := Option.bind_eq_some_iff.mp read
    obtain ⟨later, -, read⟩ := Option.bind_eq_some_iff.mp read
    obtain ⟨later, -, read⟩ := Option.bind_eq_some_iff.mp read
    obtain ⟨later, -, read⟩ := Option.bind_eq_some_iff.mp read
    cases read
    trivial
  · obtain ⟨⟨path, later⟩, -, read⟩ := Option.bind_eq_some_iff.mp read
    obtain ⟨later, -, read⟩ := Option.bind_eq_some_iff.mp read
    obtain ⟨later, -, read⟩ := Option.bind_eq_some_iff.mp read
    cases read
    trivial
  · obtain ⟨⟨path, later⟩, -, read⟩ := Option.bind_eq_some_iff.mp read
    obtain ⟨later, -, read⟩ := Option.bind_eq_some_iff.mp read
    obtain ⟨⟨value, later⟩, inner, read⟩ := Option.bind_eq_some_iff.mp read
    obtain ⟨later, -, read⟩ := Option.bind_eq_some_iff.mp read
    cases read
    exact gives_readValue _ _ _ _ _ inner

theorem isDistinct_of_readAll {fuel : Nat} {text : List Char} {statements : List Statement}
    (read : Statement.readAll fuel text = some statements) :
    ∀ statement ∈ statements, statement.IsDistinct := by
  induction fuel generalizing text statements with
  | zero => cases read
  | succ fuel ih =>
    unfold Statement.readAll at read
    split at read
    · cases read
      exact List.forall_mem_nil _
    · split at read
      · cases read
        exact List.forall_mem_nil _
      · cases read
    · obtain ⟨⟨statement, later⟩, first, read⟩ := Option.bind_eq_some_iff.mp read
      obtain ⟨others, all, read⟩ := Option.bind_eq_some_iff.mp read
      cases read
      exact List.forall_mem_cons.mpr ⟨gives_readStatement _ _ _ _ first, ih all⟩

theorem Draft.isDistinct_add {draft after : Draft} {statement : Statement}
    (distinct : Toml.IsDistinct (entryValues draft.tree)) (inner : statement.IsDistinct)
    (added : draft.add statement = some after) : Toml.IsDistinct (entryValues after.tree) := by
  cases statement with
  | entry path value =>
    obtain ⟨tree, changed, rfl⟩ := Option.map_eq_some_iff.mp added
    have assigns : TreeChange.KeepsDistinct fun _ tree => tree.assign path value :=
      fun _ _ _ distinct assigned => Tree.isDistinct_assign distinct inner assigned
    exact Tree.keepsDistinct_changeAt .implied assigns _ _ _ _ distinct changed
  | header path =>
    obtain ⟨tree, changed, rfl⟩ := Option.map_eq_some_iff.mp added
    exact Tree.keepsDistinct_changeAt .implied (Tree.keepsDistinct_openTable _) _ _ _ _ distinct
      changed
  | row path =>
    obtain ⟨tree, changed, rfl⟩ := Option.map_eq_some_iff.mp added
    exact Tree.keepsDistinct_changeAt .implied (Tree.keepsDistinct_openRow _) _ _ _ _ distinct
      changed

theorem Draft.isDistinct_foldlM {statements : List Statement} {draft after : Draft}
    (distinct : Toml.IsDistinct (entryValues draft.tree))
    (inner : ∀ statement ∈ statements, statement.IsDistinct)
    (added : statements.foldlM Draft.add draft = some after) :
    Toml.IsDistinct (entryValues after.tree) := by
  induction statements generalizing draft with
  | nil =>
    cases added
    exact distinct
  | cons statement later ih =>
    obtain ⟨here, inner⟩ := List.forall_mem_cons.mp inner
    rw [List.foldlM_cons] at added
    obtain ⟨middle, first, added⟩ := Option.bind_eq_some_iff.mp added
    exact ih (isDistinct_add distinct here first) inner added

end Reading

section Settled

mutual

/-- What a value stands for has different names if the value has. -/
theorem Value.isDistinct_of_settled? {value after : Value} (distinct : value.IsDistinct)
    (settled : value.settled? = some after) : after.IsDistinct := by
  cases value with
  | list items =>
    obtain ⟨items', inner, rfl⟩ := Option.map_eq_some_iff.mp settled
    exact areDistinct_of_settledItems? distinct inner
  | table entries =>
    unfold Value.settled? at settled
    split at settled
    · obtain ⟨entries', inner, rfl⟩ := Option.map_eq_some_iff.mp settled
      exact (isDistinct_of_settledEntries? distinct inner).1
    · obtain ⟨moment, -, rfl⟩ := Option.map_eq_some_iff.mp settled
      trivial
    · cases settled
  | _ =>
    cases settled
    trivial

theorem areDistinct_of_settledItems? {items after : List Value} (distinct : AreDistinct items)
    (settled : settledItems? items = some after) : AreDistinct after := by
  cases items with
  | nil =>
    cases settled
    trivial
  | cons item later =>
    unfold settledItems? at settled
    split at settled
    · next first others =>
      cases settled
      exact ⟨Value.isDistinct_of_settled? distinct.1 first,
        areDistinct_of_settledItems? distinct.2 others⟩
    · cases settled

theorem isDistinct_of_settledEntries? {entries after : Table} (distinct : IsDistinct entries)
    (settled : settledEntries? entries = some after) :
    IsDistinct after ∧ after.map Prod.fst = entries.map Prod.fst := by
  cases entries with
  | nil =>
    cases settled
    exact ⟨trivial, rfl⟩
  | cons entry later =>
    obtain ⟨apart, here, rest⟩ := distinct
    unfold settledEntries? at settled
    split at settled
    · next first others =>
      cases settled
      obtain ⟨inner, names⟩ := isDistinct_of_settledEntries? rest others
      exact ⟨⟨names ▸ apart, Value.isDistinct_of_settled? here first, inner⟩,
        congrArg (_ :: ·) names⟩
    · cases settled

end

end Settled

/-- In a table that has been read, and in each table within it, no name occurs twice. -/
theorem Table.isDistinct_of_read {text : List Char} {table : Table}
    (read : Table.read text = some table) : IsDistinct table := by
  obtain ⟨statements, all, read⟩ := Option.bind_eq_some_iff.mp read
  obtain ⟨draft, added, settled⟩ := Option.bind_eq_some_iff.mp read
  have none : IsDistinct (entryValues Draft.start.tree) := trivial
  have drafted : IsDistinct (entryValues draft.tree) :=
    Draft.isDistinct_foldlM none (isDistinct_of_readAll all) added
  exact (isDistinct_of_settledEntries? drafted settled).1

end Portamento.Toml
