import Portamento.Proofs.Toml.Distinct
import Portamento.Toml.Layer

/-!
# What stands in a table laid over another

Laid over a table, another one decides what stands under its own names and leaves the others alone;
where both have a table under a name, these two are laid over each other in the same way. The names
of the lower table keep their places, the new ones come behind them, and none occurs twice.
-/

namespace Portamento.Toml

section Put

variable {β : Type}

theorem lookup_eq_none_iff {entries : List (String × β)} {name : String} :
    entries.lookup name = none ↔ name ∉ entries.map Prod.fst := by
  rw [List.lookup_eq_none_iff]
  simp only [bne_iff_ne, List.mem_map, not_exists, not_and, ne_comm, ne_eq]

theorem lookup_cons_of_ne {entries : List (String × β)} {name key : String} {value : β}
    (other : name ≠ key) : ((key, value) :: entries).lookup name = entries.lookup name := by
  rw [List.lookup_cons, beq_eq_false_iff_ne.mpr other]

/-- Entries with the same names, in the same order, are the same if the same stands under each name.
-/
theorem eq_of_lookup {entries others : List (String × β)}
    (names : entries.map Prod.fst = others.map Prod.fst) (distinct : (entries.map Prod.fst).Nodup)
    (same : ∀ name, entries.lookup name = others.lookup name) : entries = others := by
  induction entries generalizing others with
  | nil => exact (List.map_eq_nil_iff.mp names.symm).symm
  | cons entry later ih =>
    obtain ⟨name, value⟩ := entry
    cases others with
    | nil => cases names
    | cons other others =>
      obtain ⟨key, found⟩ := other
      obtain ⟨rfl, rest⟩ := List.cons.inj names
      obtain ⟨apart, distinct⟩ := List.nodup_cons.mp distinct
      have first := same name
      rw [List.lookup_cons_self, List.lookup_cons_self] at first
      obtain rfl := Option.some.inj first
      refine congrArg _ (ih rest distinct fun key => ?_)
      by_cases here : key = name
      · rw [here, lookup_eq_none_iff.mpr apart, lookup_eq_none_iff.mpr (rest ▸ apart)]
      · have behind := same key
        rwa [lookup_cons_of_ne here, lookup_cons_of_ne here] at behind

variable (entries : List (String × β)) (name : String) (value : β)

@[simp] theorem lookup_put_self : (put entries name value).lookup name = some value := by
  induction entries with
  | nil => simp [put]
  | cons entry later ih =>
    obtain ⟨first, old⟩ := entry
    rw [put]
    split
    · next same => simp [same]
    · next other => rw [lookup_cons_of_ne (Ne.symm other), ih]

theorem lookup_put_of_ne {key : String} (other : key ≠ name) :
    (put entries name value).lookup key = entries.lookup key := by
  induction entries with
  | nil => exact lookup_cons_of_ne other
  | cons entry later ih =>
    obtain ⟨first, old⟩ := entry
    rw [put]
    split
    · next same =>
      rw [← same] at other
      rw [lookup_cons_of_ne other, lookup_cons_of_ne other]
    · simp only [List.lookup_cons, ih]

end Put

variable {lower upper : Table} {name : String}

/-- Under each name of the upper table stands what its value and the lower one make; the other names
are those of the lower table. -/
theorem lookup_overlay (distinct : (upper.map Prod.fst).Nodup) :
    (overlay lower upper).lookup name =
      match upper.lookup name with
      | none => lower.lookup name
      | some value => some (overlayValue (lower.lookup name) value) := by
  induction upper generalizing lower with
  | nil => rfl
  | cons entry later ih =>
    obtain ⟨key, value⟩ := entry
    obtain ⟨apart, distinct⟩ := List.nodup_cons.mp distinct
    rw [overlay, ih distinct, List.lookup_cons]
    by_cases same : name = key
    · subst same
      rw [lookup_eq_none_iff.mpr apart]
      simp
    · rw [lookup_put_of_ne _ _ _ same, beq_eq_false_iff_ne.mpr same]

/-- The names of a table laid over another come behind those of the lower one, without those that
are there already. -/
theorem names_overlay (distinct : (upper.map Prod.fst).Nodup) :
    (overlay lower upper).map Prod.fst =
      lower.map Prod.fst ++ (upper.map Prod.fst).filter (· ∉ lower.map Prod.fst) := by
  induction upper generalizing lower with
  | nil => exact (List.append_nil _).symm
  | cons entry later ih =>
    obtain ⟨name, value⟩ := entry
    obtain ⟨apart, distinct⟩ := List.nodup_cons.mp distinct
    rw [overlay, ih distinct, names_put, List.map_cons]
    by_cases known : name ∈ lower.map Prod.fst
    · rw [if_pos known, List.filter_cons_of_neg (by simpa using known)]
    · rw [if_neg known, List.filter_cons_of_pos (by simpa using known), List.append_assoc]
      refine congrArg _ (congrArg (name :: ·) (List.filter_congr fun key member => ?_))
      have other : key ≠ name := fun same => apart (same ▸ member)
      simp only [List.mem_append, List.mem_singleton, other, or_false]

theorem overlayValue_of_not_table {value : Value} (single : ∀ entries, value ≠ .table entries)
    (under : Option Value) : overlayValue under value = value := by
  cases value with
  | table entries => exact absurd rfl (single entries)
  | _ => rfl

/-- Where a value in a table laid over another comes from: from one of the two, or from two tables
that stand under its name in both. -/
theorem lookup_overlay_cases (distinct : (upper.map Prod.fst).Nodup) {value : Value}
    (found : (overlay lower upper).lookup name = some value) :
    (upper.lookup name = none ∧ lower.lookup name = some value) ∨
    upper.lookup name = some value ∨
    ∃ under upon, lower.lookup name = some (.table under) ∧
      upper.lookup name = some (.table upon) ∧ value = .table (overlay under upon) := by
  rw [lookup_overlay distinct] at found
  cases above : upper.lookup name with
  | none =>
    rw [above] at found
    exact .inl ⟨rfl, found⟩
  | some top =>
    rw [above] at found
    obtain rfl := Option.some.inj found
    by_cases both : ∃ under upon, lower.lookup name = some (.table under) ∧ top = .table upon
    · obtain ⟨under, upon, below, rfl⟩ := both
      refine .inr (.inr ⟨under, upon, below, rfl, ?_⟩)
      rw [below]
      rfl
    · refine .inr (.inl (congrArg some ?_))
      cases top with
      | table upon =>
        cases below : lower.lookup name with
        | none => rfl
        | some bottom =>
          cases bottom with
          | table under => exact absurd ⟨under, upon, below, rfl⟩ both
          | _ => rfl
      | _ => rfl

theorem overlayValue_none (value : Value) : overlayValue none value = value := by
  cases value <;> rfl

theorem overlay_nil (distinct : (upper.map Prod.fst).Nodup) : overlay [] upper = upper := by
  have names : (overlay [] upper).map Prod.fst = upper.map Prod.fst := by
    rw [names_overlay distinct]
    simp
  refine eq_of_lookup names (names ▸ distinct) fun name => ?_
  rw [lookup_overlay distinct]
  cases upper.lookup name with
  | none => rfl
  | some value => exact congrArg some (overlayValue_none value)

/-- The entries of a value: those of a table, and otherwise none. -/
def entriesOf : Option Value → Table
  | some (.table entries) => entries
  | _ => []

/-- A table is laid over the entries of what is under it. -/
theorem overlayValue_table (distinct : (upper.map Prod.fst).Nodup) (under : Option Value) :
    overlayValue under (.table upper) = .table (overlay (entriesOf under) upper) := by
  have alone : Value.table upper = .table (overlay [] upper) := by rw [overlay_nil distinct]
  cases under with
  | none => exact alone
  | some bottom =>
    cases bottom with
    | table entries => rfl
    | _ => exact alone

theorem IsDistinct.entriesOf {under : Option Value}
    (distinct : ∀ value, under = some value → value.IsDistinct) : IsDistinct (entriesOf under) := by
  cases under with
  | none => trivial
  | some bottom =>
    cases bottom with
    | table entries => exact distinct _ rfl
    | _ => trivial

mutual

/-- A value that is laid over another has different names if both have. -/
theorem Value.IsDistinct.overlayValue {under : Option Value} {value : Value}
    (above : value.IsDistinct) (below : ∀ bottom, under = some bottom → bottom.IsDistinct) :
    (overlayValue under value).IsDistinct := by
  cases value with
  | table upper =>
    rw [overlayValue_table (IsDistinct.nodup above)]
    exact (IsDistinct.entriesOf below).overlay above
  | _ => exact above

theorem IsDistinct.overlay {lower upper : Table} (below : IsDistinct lower)
    (above : IsDistinct upper) : IsDistinct (overlay lower upper) := by
  cases upper with
  | nil => exact below
  | cons entry later =>
    obtain ⟨name, value⟩ := entry
    obtain ⟨-, here, rest⟩ := above
    rw [Toml.overlay]
    exact (below.put name (here.overlayValue fun bottom found => below.value found)).overlay rest

end

end Portamento.Toml
