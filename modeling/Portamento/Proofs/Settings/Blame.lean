import Mathlib
import Portamento.Proofs.Settings.Layers

/-!
# Which file is blamed

A malformed file is found when it is read, before anything is laid over anything: it is the first
one of its kind, and it is blamed. There is one other way for files to be refused. Each of them may
be well formed, and two of them name two modes by a table with the mode's name in it; laid over each
other, the two tables have two entries and stand for no mode. The last file is blamed then, whatever
it says.
-/

namespace Portamento.Settings

open Toml (Value Table)

/-- Whom loading blames. -/
structure BlameLaw (files : FileReader) (paths : List String) : Prop where
  /-- Whoever is blamed is the first malformed file, or the last file while two modes meet. -/
  blamed : ∀ path, loadFiles files paths = .error (.malformed path) →
    (∃ before after, paths = before ++ path :: after ∧ (∃ tables, Load files before tables) ∧
      loadFile files path = .error (.malformed path)) ∨
    ∃ tables, Load files paths tables ∧ ModesMeet tables ∧ paths.getLast? = some path
  /-- Files that can be loaded one by one can be loaded together, unless two modes meet. -/
  loads : ∀ tables, Load files paths tables → ¬ ModesMeet tables →
    ∃ settings, loadFiles files paths = .ok settings

/-- A malformed file is blamed itself, and before any that follows it; a file that is not malformed
is blamed only if two of the files name two modes by a table. -/
theorem blamed_if_malformed_unless_modes_meet (files : FileReader) (paths : List String) :
    BlameLaw files paths where
  blamed path fails := by
    cases layered : layer files [] paths with
    | error fault =>
      have same : fault = .malformed path := by
        rw [loadFiles, layered] at fails
        exact Except.error.inj fails
      obtain ⟨before, bad, after, split, loads, cause⟩ := layer_eq_error layered
      rw [same] at cause
      have here : bad = path := by
        unfold loadFile at cause
        split at cause
        · cases cause
        · split at cause
          · cases cause
            rfl
          · cases cause
      exact .inl ⟨before, after, here ▸ split, loads, here ▸ cause⟩
    | ok table =>
      obtain ⟨tables, loads⟩ := layer_eq_ok layered
      obtain rfl : tables.foldl Toml.overlay [] = table :=
        Except.ok.inj ((layer_of_load loads []).symm.trans layered)
      rw [loadFiles_of_load loads] at fails
      cases given : ofTable? (tables.foldl Toml.overlay []) with
      | some settings =>
        rw [given] at fails
        cases fails
      | none =>
        rw [given] at fails
        refine .inr ⟨tables, loads, not_not.mp fun apart => ?_, ?_⟩
        · have some := isSome_ofTable?_of_load loads apart
          rw [given] at some
          cases some
        · -- there is a last file, for without any the usual settings are given
          cases last : paths.getLast? with
          | none =>
            obtain rfl := List.getLast?_eq_none_iff.mp last
            cases loads
            cases given
          | some final =>
            rw [last] at fails
            cases fails
            rfl
  loads tables loads apart := by
    obtain ⟨settings, given⟩ := Option.isSome_iff_exists.mp (isSome_ofTable?_of_load loads apart)
    exact ⟨settings, by rw [loadFiles_of_load loads, given]⟩

/-- Two files, each of which names a mode by a table. -/
def twoModes : FileReader
  | "a.toml" => .ok "[playback]\nmode = \x7blive = \x7b\x7d\x7d\n".toUTF8
  | "b.toml" => .ok "[playback]\nmode = \x7brendered = \x7b\x7d\x7d\n".toUTF8
  | _ => .error .missing

/-- What a file says that does nothing but name a mode by a table. -/
def modeTable (mode : String) : Table :=
  [("playback", .table [("mode", .table [(mode, .table [])])])]

/-- Each of the two files can be loaded, and together they cannot; the second one is blamed. -/
theorem blamed_and_not_malformed :
    loadFile twoModes "a.toml" = .ok (modeTable "live") ∧
      loadFile twoModes "b.toml" = .ok (modeTable "rendered") ∧
        loadFiles twoModes ["a.toml", "b.toml"] = .error (.malformed "b.toml") := by
  have live : Table.read "[playback]\nmode = \x7blive = \x7b\x7d\x7d\n".toList =
      some (modeTable "live") := by
    cbv
  have rendered : Table.read "[playback]\nmode = \x7brendered = \x7b\x7d\x7d\n".toList =
      some (modeTable "rendered") := by
    cbv
  have first : Passes twoModes "a.toml" (modeTable "live") := ⟨⟨_, text_of_toUTF8 rfl, live⟩, rfl⟩
  have second : Passes twoModes "b.toml" (modeTable "rendered") :=
    ⟨⟨_, text_of_toUTF8 rfl, rendered⟩, rfl⟩
  refine ⟨loadFile_eq_ok_iff.mpr first, loadFile_eq_ok_iff.mpr second, ?_⟩
  rw [loadFiles_of_load (.cons first (.cons second .nil))]
  rfl

end Portamento.Settings
