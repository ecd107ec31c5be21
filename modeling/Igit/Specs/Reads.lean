import Igit.Library.Tables
import Igit.Specs.Stores

/-!
# Reading after an import

What a sequence of records leaves at each place of the storage that the checks of later records, or
the readers of the suite, look at. `ImportRecord.repositoryAt` and its like say what one record
writes there; the lemmas about `Suite.imported` say what remains of a whole sequence.
-/

namespace Igit

/-- A write to one place. -/
def writeIf {V : Type} (p : Prop) [Decidable p] (value : V) : Option V := if p then some value else none

/-- A conditional write writes its value exactly when its condition holds. -/
theorem writeIf_eq_some {V : Type} {p : Prop} [Decidable p] {value other : V} :
    writeIf p value = some other ↔ p ∧ value = other := by
  unfold writeIf
  split
  · next h => simp [h]
  · next h => simp [h]

/-- A conditional write writes nothing exactly when its condition fails. -/
theorem writeIf_eq_none {V : Type} {p : Prop} [Decidable p] {value : V} :
    writeIf p value = none ↔ ¬ p := by
  unfold writeIf
  split
  · next h => simp [h]
  · next h => simp [h]

/-- A table updated at a key reads the value written there and its old entry elsewhere. -/
theorem update_apply_writeIf {κ V : Type} [DecidableEq κ] {table : κ → V} {key target : κ}
    {value : V} :
    Function.update table key value target = (writeIf (key = target) value).getD (table target) := by
  unfold writeIf
  by_cases h : key = target
  · rw [if_pos h, h, Function.update_self]
    rfl
  · rw [if_neg h, Function.update_of_ne (Ne.symm h)]
    rfl

/-- The stored form of a repository record. -/
def ImportRepository.toRepository (record : ImportRepository) : Repository where
  id := record.id
  owner := record.owner
  name := record.name
  description := record.description
  defaultBranch := record.defaultBranch
  forkedFrom := record.forkedFrom
  createdAt := record.createdAt
  updatedAt := record.updatedAt
  present := true

/-! ## What one record writes -/

namespace ImportRecord

variable (keccak : Keccak)

/-- The repository a record stores under an id. -/
def repositoryAt (id : Bytes32) : ImportRecord → Option Repository
  | .repository r => writeIf (r.id = id) r.toRepository
  | _ => none

/-- The repository a record stores under a locator. -/
def locatorAt (locator : Bytes32) : ImportRecord → Option Bytes32
  | .repository r => writeIf (keccak.locator r.owner r.name = locator) r.id
  | .repositoryAlias r => writeIf (keccak.locator r.owner r.name = locator) r.repoId
  | _ => none

end ImportRecord

/-! ## What a sequence leaves -/

namespace Suite

open ImportRecord

variable {keccak : Keccak} {s : Suite} {records : List ImportRecord}

/-- The suite after a sequence of records. -/
def imported (keccak : Keccak) (s : Suite) (records : List ImportRecord) : Suite :=
  records.foldl (stored keccak) s

/-- After an import the repository under an id is that of the last record that stores one there. -/
theorem imported_repositories (id : Bytes32) :
    (s.imported keccak records).core.repositories id =
      (latest (repositoryAt id) records).getD (s.core.repositories id) :=
  foldl_latest (fun s : Suite => s.core.repositories id) fun s record => by
    cases record with
    | repository r => exact update_apply_writeIf
    | _ => rfl

/-- A repository is there when it was, or when a record brings it. -/
theorem present_imported {id : Bytes32} :
    ((s.imported keccak records).core.repositories id).present = true ↔
      (s.core.repositories id).present = true ∨ ∃ r, .repository r ∈ records ∧ r.id = id := by
  have hwritten : ∀ record ∈ records, ∀ value, repositoryAt id record = some value →
      ¬ value.present = false := by
    intro record _ value hwrite
    cases record with
    | repository r =>
        obtain ⟨-, rfl⟩ := writeIf_eq_some.mp hwrite
        exact Bool.noConfusion
    | _ => cases hwrite
  have hfree := latest_getD_free (fun repository : Repository => repository.present = false)
    (s.core.repositories id) hwritten
  rw [← imported_repositories] at hfree
  rw [← Bool.not_eq_false, hfree, ← Bool.not_eq_false, not_and_or, not_forall]
  refine or_congr Iff.rfl ⟨fun h => ?_, fun h => ?_⟩
  · obtain ⟨record, hrecord⟩ := h
    obtain ⟨hmem, hwrite⟩ := Classical.not_imp.mp hrecord
    cases record with
    | repository r => exact ⟨r, hmem, Classical.not_not.mp fun h => hwrite (writeIf_eq_none.mpr h)⟩
    | _ => exact absurd rfl hwrite
  · obtain ⟨r, hmem, hid⟩ := h
    exact ⟨.repository r, fun hnone => writeIf_eq_none.mp (hnone hmem) hid⟩

/-- After an import a locator points where the last record that writes it says. -/
theorem imported_locators (locator : Bytes32) :
    (s.imported keccak records).core.locators locator =
      (latest (locatorAt keccak locator) records).getD (s.core.locators locator) :=
  foldl_latest (fun s : Suite => s.core.locators locator) fun s record => by
    cases record with
    | repository r => exact update_apply_writeIf
    | repositoryAlias r => exact update_apply_writeIf
    | _ => rfl

/-- No record reserves a locator. -/
theorem imported_reservedLocators :
    (s.imported keccak records).core.reservedLocators = s.core.reservedLocators := by
  unfold imported
  induction records generalizing s with
  | nil => rfl
  | cons record rest ih =>
      rw [List.foldl_cons, ih]
      cases record <;> rfl

end Suite

end Igit
