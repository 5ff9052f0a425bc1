import Portamento.Proofs.Toml.Overlay

/-!
# What stands at the end of a path

A path of names leads from a table, through tables within it, to a value. In a table laid over
another, the values of the upper one that are no tables stand where they stood, and cover what the
lower one has in their place or behind it. What is not covered of the lower one stands there too,
and nothing else does.
-/

namespace Portamento.Toml

namespace Value

/-- Whether a value is a table. -/
def isTable : Value → Bool
  | .table _ => true
  | _ => false

/-- The value to which a path of names leads from a value, through tables. -/
def at? : Value → List String → Option Value
  | value, [] => some value
  | .table entries, name :: path => (entries.lookup name).bind fun inner => inner.at? path
  | _, _ :: _ => none

/-- Whether a value leaves the end of a path to what it is laid over: nothing stands there, and
nothing but tables stands on the way. -/
def LeavesOpen (value : Value) (path : List String) : Prop :=
  value.at? path = none ∧
    ∀ before, before <+: path → before ≠ path → ∀ inner, value.at? before = some inner →
      inner.isTable = true

variable {value : Value} {entries : Table} {name : String} {path : List String}

theorem exists_of_isTable (kind : value.isTable = true) : ∃ entries, value = .table entries := by
  cases value with
  | table entries => exact ⟨entries, rfl⟩
  | _ => cases kind

theorem at?_nil (value : Value) : value.at? [] = some value := by
  cases value <;> rfl

theorem at?_table_cons : (table entries).at? (name :: path) =
    (entries.lookup name).bind fun inner => inner.at? path := rfl

theorem at?_cons_of_not_table (single : value.isTable = false) (name : String)
    (path : List String) : value.at? (name :: path) = none := by
  cases value with
  | table entries => cases single
  | _ => rfl

/-- The first step of a path leads to an entry. -/
theorem bind_at?_cons (under : Option Value) (name : String) (path : List String) :
    (under.bind fun bottom => bottom.at? (name :: path)) =
      ((entriesOf under).lookup name).bind fun inner => inner.at? path := by
  cases under with
  | none => rfl
  | some bottom => cases bottom <;> rfl

theorem not_leavesOpen_nil (value : Value) : ¬ value.LeavesOpen [] := fun ⟨nothing, _⟩ => by
  rw [at?_nil] at nothing
  cases nothing

theorem not_leavesOpen_of_not_table (single : value.isTable = false) (path : List String) :
    ¬ value.LeavesOpen path := by
  cases path with
  | nil => exact value.not_leavesOpen_nil
  | cons name path =>
    rintro ⟨-, clear⟩
    have here := clear [] List.nil_prefix (List.cons_ne_nil name path).symm value value.at?_nil
    rw [single] at here
    cases here

/-- A table leaves the end of a path open if the entry for the first step, if there is one, leaves
the end of the other steps open. -/
theorem leavesOpen_table_cons : (table entries).LeavesOpen (name :: path) ↔
    ∀ inner, entries.lookup name = some inner → inner.LeavesOpen path := by
  constructor
  · rintro ⟨nothing, clear⟩ inner found
    have step (rest : List String) : (table entries).at? (name :: rest) = inner.at? rest := by
      rw [at?_table_cons, found, Option.bind_some]
    refine ⟨(step path).symm.trans nothing, fun before ahead short value here => ?_⟩
    exact clear (name :: before) (List.cons_prefix_cons.mpr ⟨rfl, ahead⟩)
      (fun same => short (List.cons.inj same).2) value ((step before).trans here)
  · intro leaves
    refine ⟨?_, fun before ahead short value here => ?_⟩
    · rw [at?_table_cons]
      exact Option.bind_eq_none_iff.mpr fun inner found => (leaves inner found).1
    · cases before with
      | nil =>
        cases here
        rfl
      | cons key before =>
        obtain ⟨rfl, behind⟩ := List.cons_prefix_cons.mp ahead
        obtain ⟨inner, found, here⟩ := Option.bind_eq_some_iff.mp here
        exact (leaves inner found).2 before behind (fun same => short (congrArg _ same)) value here

end Value

section Overlay

variable {under : Option Value} {top value : Value}

theorem isTable_overlayValue (under : Option Value) (value : Value) :
    (overlayValue under value).isTable = value.isTable := by
  cases value with
  | table upper =>
    cases under with
    | none => rfl
    | some bottom => cases bottom <;> rfl
  | _ => rfl

/-- A value is what it is laid over something, if it is no table. -/
theorem overlayValue_eq_iff (single : value.isTable = false) :
    overlayValue under top = value ↔ top = value := by
  have unchanged : top.isTable = false → overlayValue under top = top := fun kind =>
    overlayValue_of_not_table (fun entries same => by rw [same] at kind; cases kind) under
  constructor
  · intro same
    have kind : top.isTable = false := by rw [← isTable_overlayValue under top, same, single]
    rwa [unchanged kind] at same
  · rintro rfl
    exact unchanged single

/-- What stands at the end of a path in a value laid over another: what the upper one has there,
laid over what the lower one has there; or what the lower one has there, if the upper one leaves it
open; or nothing, if the upper one has another value than a table on the way. -/
theorem at?_overlayValue_cases (distinct : top.IsDistinct) (path : List String) :
    (∃ value, top.at? path = some value ∧ (overlayValue under top).at? path =
      some (overlayValue (under.bind fun bottom => bottom.at? path) value)) ∨
    (top.LeavesOpen path ∧
      (overlayValue under top).at? path = under.bind fun bottom => bottom.at? path) ∨
    (top.at? path = none ∧ ¬ top.LeavesOpen path ∧ (overlayValue under top).at? path = none) := by
  induction path generalizing under top with
  | nil =>
    have same : (under.bind fun bottom => bottom.at? []) = under := by
      cases under with
      | none => rfl
      | some bottom => exact bottom.at?_nil
    refine .inl ⟨top, top.at?_nil, ?_⟩
    rw [same, Value.at?_nil]
  | cons name path ih =>
    cases kind : top.isTable with
    | false =>
      have nothing := Value.at?_cons_of_not_table kind name path
      rw [(overlayValue_eq_iff kind).mpr rfl]
      exact .inr (.inr ⟨nothing, Value.not_leavesOpen_of_not_table kind _, nothing⟩)
    | true =>
      obtain ⟨upper, rfl⟩ := Value.exists_of_isTable kind
      have names : (upper.map Prod.fst).Nodup := IsDistinct.nodup distinct
      rw [overlayValue_table names, Value.bind_at?_cons, Value.at?_table_cons,
        Value.at?_table_cons, Value.leavesOpen_table_cons, lookup_overlay names]
      cases found : upper.lookup name with
      | none => exact .inr (.inl ⟨fun _ here => (nomatch here), rfl⟩)
      | some inner =>
        simp only [Option.bind_some, Option.some.injEq, forall_eq']
        exact ih (IsDistinct.value distinct found)

variable {lower upper : Table}

theorem at?_overlay_cases (lower : Table) (distinct : IsDistinct upper) (path : List String) :
    (∃ value, (Value.table upper).at? path = some value ∧
      (Value.table (overlay lower upper)).at? path =
        some (overlayValue ((Value.table lower).at? path) value)) ∨
    ((Value.table upper).LeavesOpen path ∧
      (Value.table (overlay lower upper)).at? path = (Value.table lower).at? path) ∨
    ((Value.table upper).at? path = none ∧ ¬ (Value.table upper).LeavesOpen path ∧
      (Value.table (overlay lower upper)).at? path = none) := by
  have joined : overlayValue (some (.table lower)) (.table upper) =
      .table (overlay lower upper) := rfl
  have inner : (Value.table upper).IsDistinct := distinct
  rw [← joined]
  exact at?_overlayValue_cases inner path

/-- A value that is no table stands at the end of a path in a table laid over another if it stands
there in the upper one, or if it stands there in the lower one and the upper one leaves it open. -/
theorem at?_overlay_eq_some_iff (distinct : IsDistinct upper) (single : value.isTable = false)
    (path : List String) :
    (Value.table (overlay lower upper)).at? path = some value ↔
      (Value.table upper).at? path = some value ∨
        (Value.table lower).at? path = some value ∧ (Value.table upper).LeavesOpen path := by
  rcases at?_overlay_cases lower distinct path with
    ⟨top, here, joined⟩ | ⟨clear, joined⟩ | ⟨nothing, covered, joined⟩
  · have taken : ¬ (Value.table upper).LeavesOpen path := fun clear => by
      rw [clear.1] at here
      cases here
    simp only [joined, here, Option.some.injEq, overlayValue_eq_iff single, taken, and_false,
      or_false]
  · simp only [joined, clear.1, clear, and_true, reduceCtorEq, false_or]
  · simp only [joined, nothing, covered, reduceCtorEq, and_false, or_false]

end Overlay

end Portamento.Toml
