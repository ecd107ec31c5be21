import Igit.Migration.Lineages
import Igit.Specs.Reads

/-!
# Repositories, forks and aliases

The planner and the core check the same table of repositories and aliases in different ways: the
planner looks up fork parents anywhere in the snapshot and then searches for cycles, the core wants
every parent to be there already. `RepositoryTable` is what both come to.
`validateRepositories_eq_ok` says so of the planner and `fitInTurn_iff` of the core, which also wants
IDs other than zero and parents first. Sorting by fork depth puts parents first.
-/

namespace Igit.Migration

open Fallible

/-! ## Values and their texts -/

/-- The snapshot entry of a repository. No fork parent is the empty text. -/
def CoreRepositoryABI.written (r : CoreRepositoryABI) : SnapshotRepository where
  id := .canonical r.id
  owner := .canonical r.owner
  name := r.name
  description := r.description
  defaultBranch := r.defaultBranch
  forkedFrom := if r.forkedFrom = 0 then .empty else .canonical r.forkedFrom
  createdAt := r.createdAt
  updatedAt := r.updatedAt

/-- The snapshot entry of an alias. -/
def CoreAliasABI.written (a : CoreAliasABI) : SnapshotAlias :=
  ⟨.canonical a.repoId, .canonical a.owner, a.name⟩

/-- A repository written out reads back. -/
theorem CoreRepositoryABI.toABI_written (r : CoreRepositoryABI) : r.written.toABI = r := by
  have hfork : (if r.forkedFrom = 0 then Text.empty else Text.canonical r.forkedFrom).valueD 0 =
      r.forkedFrom := by
    split
    · next h => exact h.symm
    · rfl
  unfold SnapshotRepository.toABI written
  rw [hfork]
  rfl

/-- An alias written out reads back. -/
theorem CoreAliasABI.toABI_written (a : CoreAliasABI) : a.written.toABI = a := rfl

/-- The locator of a repository. -/
def CoreRepositoryABI.locator (r : CoreRepositoryABI) : Address × Bytes := (r.owner, r.name)

/-- The locator of an alias. -/
def CoreAliasABI.locator (a : CoreAliasABI) : Address × Bytes := (a.owner, a.name)

/-- The fork parent of a repository, if it has one. -/
def CoreRepositoryABI.parent (r : CoreRepositoryABI) : Option Bytes32 :=
  if r.forkedFrom = 0 then none else some r.forkedFrom

theorem CoreRepositoryABI.parent_eq_some {r : CoreRepositoryABI} {p : Bytes32} :
    r.parent = some p ↔ r.forkedFrom ≠ 0 ∧ r.forkedFrom = p := by
  unfold parent
  split
  · next h => simp [h]
  · next h => simp [h]

/-- A repository that passes the checks on its own fields that the planner makes. -/
structure CoreRepositoryABI.Valid (r : CoreRepositoryABI) : Prop where
  owner_ne_zero : r.owner ≠ 0
  name_valid : validRepositoryName r.name = true
  description_le : r.description.length ≤ maxDescriptionLength
  defaultBranch_le : r.defaultBranch.length ≤ maxNameLength
  createdAt_ne_zero : r.createdAt ≠ 0
  createdAt_le : r.createdAt ≤ r.updatedAt

/-- An alias that passes the checks on its own fields. -/
structure CoreAliasABI.Valid (a : CoreAliasABI) : Prop where
  owner_ne_zero : a.owner ≠ 0
  name_valid : validRepositoryName a.name = true

/-- The planner and the core accept the same names. -/
theorem validRepoName_eq (name : Bytes) : validRepoName name = validRepositoryName name := by
  have hchar : isTokenChar = isNameByte := rfl
  have hlength : (!(name.length == 0 || decide (name.length > 64))) =
      (decide (name.length ≠ 0) && decide (name.length ≤ maxNameLength)) := by
    rw [Bool.eq_iff_iff, Bool.and_eq_true, decide_eq_true_iff, decide_eq_true_iff]
    simp [maxNameLength]
  unfold validRepoName validToken validRepositoryName
  rw [hchar, hlength]

/-- The planner checks a repository on its own as the core does, but for its ID. -/
theorem CoreRepositoryABI.wellFormed_toImport {r : CoreRepositoryABI} :
    r.toImport.WellFormed ↔ r.id ≠ 0 ∧ r.Valid := by
  have hcreated : r.createdAt.toNat ≠ 0 ↔ r.createdAt ≠ 0 := by
    rw [ne_eq, ne_eq, ← UInt64.toNat_inj]
    rfl
  constructor
  · intro h
    exact ⟨h.id_ne_zero, h.owner_ne_zero, h.name_valid, h.description_le, h.defaultBranch_le,
      hcreated.mp h.createdAt_ne_zero, UInt64.le_iff_toNat_le.mpr h.createdAt_le⟩
  · intro h
    obtain ⟨hid, hvalid⟩ := h
    exact ⟨hid, hvalid.owner_ne_zero, hcreated.mpr hvalid.createdAt_ne_zero,
      UInt64.le_iff_toNat_le.mp hvalid.createdAt_le, hvalid.name_valid, hvalid.description_le,
      hvalid.defaultBranch_le⟩

theorem CoreAliasABI.wellFormed_toImport {a : CoreAliasABI} : a.toImport.WellFormed ↔ a.Valid :=
  ⟨fun h => ⟨h.owner_ne_zero, h.name_valid⟩, fun h => ⟨h.name_valid, h.owner_ne_zero⟩⟩

/-! ## The table -/

/-- `parent` of the repository with an ID. -/
def parentOf (repos : List CoreRepositoryABI) (id : Bytes32) : Option Bytes32 :=
  (repos.find? fun r => decide (r.id = id)).bind CoreRepositoryABI.parent

/-- Repositories and aliases that form a table: IDs and locators name one entry, parents and
aliased repositories are there, and every lineage ends. -/
structure RepositoryTable (repos : List CoreRepositoryABI) (aliases : List CoreAliasABI) : Prop where
  valid : ∀ r ∈ repos, r.Valid
  ids : (repos.map CoreRepositoryABI.id).Nodup
  locators : (repos.map CoreRepositoryABI.locator ++ aliases.map CoreAliasABI.locator).Nodup
  parents : ∀ r ∈ repos, ∀ p, r.parent = some p → p ∈ repos.map CoreRepositoryABI.id
  lineages : ∀ r ∈ repos, ∃ n, Depth (parentOf repos) r.id n
  aliases_valid : ∀ a ∈ aliases, a.Valid
  aliases_known : ∀ a ∈ aliases, a.repoId ∈ repos.map CoreRepositoryABI.id

variable {repos order : List CoreRepositoryABI} {aliases : List CoreAliasABI}

/-- With distinct IDs a repository is found by its ID. -/
theorem parentOf_eq (hids : (repos.map CoreRepositoryABI.id).Nodup) {r : CoreRepositoryABI}
    (hr : r ∈ repos) : parentOf repos r.id = r.parent := by
  unfold parentOf
  rw [(find?_key_eq_some hids).mpr ⟨hr, rfl⟩]
  rfl

/-- The text of a fork parent. -/
def forkText : Option Bytes32 → Text Bytes32
  | none => .empty
  | some p => .canonical p

theorem CoreRepositoryABI.forkedFrom_written (r : CoreRepositoryABI) :
    r.written.forkedFrom = forkText r.parent := by
  unfold written parent
  dsimp only
  split
  · rfl
  · rfl

theorem forkText_eq_empty {p : Option Bytes32} : forkText p = .empty ↔ p = none := by
  cases p with
  | none => exact iff_of_true rfl rfl
  | some p => simp [forkText, Text.empty]

/-- The planner's look-up of a parent. -/
theorem forkParent_written (id : Bytes32) :
    forkParent (repos.map CoreRepositoryABI.written) (.canonical id) =
      forkText (parentOf repos id) := by
  have hpred : ((fun r : SnapshotRepository => decide (r.id = .canonical id)) ∘
      CoreRepositoryABI.written) = fun r => decide (r.id = id) := by
    funext r
    simp [CoreRepositoryABI.written]
  unfold forkParent parentOf
  rw [List.find?_map, hpred]
  cases repos.find? (fun r => decide (r.id = id)) with
  | none => rfl
  | some r => exact r.forkedFrom_written

/-! ## Lineages -/

/-- The planner's look-up of a fork parent follows the table. -/
theorem forkOf_written (id : Bytes32) :
    forkOf (repos.map CoreRepositoryABI.written) (.canonical id) =
      (parentOf repos id).map Text.canonical := by
  unfold forkOf
  rw [forkParent_written]
  cases parentOf repos id with
  | none => rfl
  | some p => rfl

/-- The forks written out are as deep as the repositories they are of. -/
theorem depth_written {id : Bytes32} {n : Nat} :
    Depth (forkOf (repos.map CoreRepositoryABI.written)) (.canonical id) n ↔
      Depth (parentOf repos) id n :=
  Depth.map_iff forkOf_written

/-- The parents of a table are in it. -/
theorem mem_ids_of_parentOf (hids : (repos.map CoreRepositoryABI.id).Nodup)
    (hparents : ∀ r ∈ repos, ∀ p, r.parent = some p → p ∈ repos.map CoreRepositoryABI.id) :
    ∀ id ∈ repos.map CoreRepositoryABI.id, ∀ p, parentOf repos id = some p →
      p ∈ repos.map CoreRepositoryABI.id := by
  intro id hid p hp
  obtain ⟨r, hr, rfl⟩ := List.mem_map.mp hid
  rw [parentOf_eq hids hr] at hp
  exact hparents r hr p hp

/-- Written out, repositories with ids of their own and known parents are known forks. -/
theorem forksKnown_written (hids : (repos.map CoreRepositoryABI.id).Nodup)
    (hparents : ∀ r ∈ repos, ∀ p, r.parent = some p → p ∈ repos.map CoreRepositoryABI.id) :
    ForksKnown (repos.map CoreRepositoryABI.written) := by
  have htexts : (repos.map CoreRepositoryABI.written).map SnapshotRepository.id =
      (repos.map CoreRepositoryABI.id).map Text.canonical := by
    rw [List.map_map, List.map_map]
    rfl
  constructor
  · rw [htexts]
    exact hids.map fun a b h => Text.canonical.inj h
  · rw [htexts, List.forall_mem_map]
    intro r hr hfork
    rw [r.forkedFrom_written] at hfork ⊢
    cases hparent : r.parent with
    | none =>
        rw [hparent] at hfork
        exact absurd rfl hfork
    | some p => exact List.mem_map_of_mem (hparents r hr p hparent)

/-- The lineages written out pass when every repository has a depth. -/
theorem checkLineage_written {u : Unit} (hids : (repos.map CoreRepositoryABI.id).Nodup)
    (hparents : ∀ r ∈ repos, ∀ p, r.parent = some p → p ∈ repos.map CoreRepositoryABI.id) :
    checkLineage (repos.map CoreRepositoryABI.written) = .ok u ↔
      ∀ r ∈ repos, ∃ n, Depth (parentOf repos) r.id n := by
  rw [(forksKnown_written hids hparents).checkLineage_eq_ok, List.forall_mem_map]
  exact forall₂_congr fun r _ => exists_congr fun n => depth_written

/-! ## The planner accepts tables -/

theorem canonicalAddress_canonical {label : String} {address value : Address} :
    canonicalAddress label (.canonical address) = .ok value ↔ address ≠ 0 ∧ address = value := by
  unfold canonicalAddress
  rw [bind_eq_ok, exists_unit, revertIf_eq_ok, pure_eq_ok]

/-- A repository written out passes when it is valid and its id and locator are new. -/
theorem checkRepository_written {before : List CoreRepositoryABI} {r : CoreRepositoryABI} {u : Unit} :
    checkRepository (before.map CoreRepositoryABI.written) r.written = .ok u ↔
      r.Valid ∧ (∀ other ∈ before, other.id ≠ r.id) ∧
        ∀ other ∈ before, other.locator ≠ r.locator := by
  have hname : validRepoName r.written.name = validRepositoryName r.name := validRepoName_eq r.name
  have hid : (∃ other ∈ before.map CoreRepositoryABI.written, other.id = r.written.id) ↔
      ∃ other ∈ before, other.id = r.id := by
    simp only [List.mem_map, exists_exists_and_eq_and, CoreRepositoryABI.written,
      Text.canonical.injEq]
  have hlocator : (∃ other ∈ before.map CoreRepositoryABI.written,
      other.owner = r.written.owner ∧ other.name = r.written.name) ↔
      ∃ other ∈ before, other.locator = r.locator := by
    simp only [List.mem_map, exists_exists_and_eq_and, CoreRepositoryABI.written,
      Text.canonical.injEq, CoreRepositoryABI.locator, Prod.mk.injEq]
  unfold checkRepository
  simp only [bind_eq_ok, exists_unit, mapError_eq_ok, revertIf_eq_ok, hname, hid, hlocator,
    Bool.not_eq_false]
  constructor
  · intro h
    obtain ⟨_, -, _, howner, hvalid, hlengths, htimes, hnew, hfree⟩ := h
    obtain ⟨hzero, -⟩ := canonicalAddress_canonical.mp howner
    refine ⟨⟨hzero, hvalid, ?_, ?_, fun h => htimes (Or.inl h), ?_⟩, ?_, ?_⟩
    · exact Nat.le_of_not_lt fun h => hlengths (Or.inl h)
    · exact Nat.le_of_not_lt fun h => hlengths (Or.inr h)
    · exact UInt64.not_lt.mp fun h => htimes (Or.inr h)
    · exact fun other hother h => hnew ⟨other, hother, h⟩
    · exact fun other hother h => hfree ⟨other, hother, h⟩
  · intro h
    obtain ⟨hvalid, hnew, hfree⟩ := h
    refine ⟨r.id, rfl, r.owner, canonicalAddress_canonical.mpr ⟨hvalid.owner_ne_zero, rfl⟩,
      hvalid.name_valid, not_or.mpr ⟨?_, ?_⟩, not_or.mpr ⟨hvalid.createdAt_ne_zero, ?_⟩, ?_, ?_⟩
    · exact Nat.not_lt.mpr hvalid.description_le
    · exact Nat.not_lt.mpr hvalid.defaultBranch_le
    · exact UInt64.not_lt.mpr hvalid.createdAt_le
    · intro h
      obtain ⟨other, hother, hsame⟩ := h
      exact hnew other hother hsame
    · intro h
      obtain ⟨other, hother, hsame⟩ := h
      exact hfree other hother hsame

/-- A fork written out passes when its parent is another repository of the list. -/
theorem checkFork_written {r : CoreRepositoryABI} {u : Unit} :
    checkFork (repos.map CoreRepositoryABI.written) r.written = .ok u ↔
      ∀ p, r.parent = some p → p ≠ r.id ∧ p ∈ repos.map CoreRepositoryABI.id := by
  unfold checkFork
  rw [r.forkedFrom_written]
  cases hparent : r.parent with
  | none => simp [forkText, Text.empty, pure, Except.pure]
  | some p =>
      rw [if_neg (fun h => absurd (forkText_eq_empty.mp h) (Option.some_ne_none p))]
      simp only [bind_eq_ok, exists_unit, revertIf_eq_ok, not_not, forkText, Option.some.injEq,
        forall_eq', List.mem_map, exists_exists_and_eq_and, CoreRepositoryABI.written,
        Text.canonical.injEq, ne_eq]

theorem locatorHolder_written {before : List CoreAliasABI} {a : CoreAliasABI} :
    locatorHolder (repos.map CoreRepositoryABI.written) (before.map CoreAliasABI.written)
        a.written.owner a.written.name = none ↔
      (∀ r ∈ repos, r.locator ≠ a.locator) ∧ ∀ other ∈ before, other.locator ≠ a.locator := by
  unfold locatorHolder
  rw [Option.or_eq_none_iff, Option.map_eq_none_iff, Option.map_eq_none_iff, List.find?_eq_none,
    List.find?_eq_none]
  simp only [List.forall_mem_map, decide_eq_true_eq, CoreRepositoryABI.written,
    CoreAliasABI.written, Text.canonical.injEq, CoreRepositoryABI.locator, CoreAliasABI.locator,
    ne_eq, Prod.mk.injEq]

/-- An alias written out passes when its repository is there and its locator is new. -/
theorem checkAlias_written {before : List CoreAliasABI} {a : CoreAliasABI} {u : Unit} :
    checkAlias (repos.map CoreRepositoryABI.written) (before.map CoreAliasABI.written) a.written =
        .ok u ↔
      (a.repoId ∈ repos.map CoreRepositoryABI.id ∧ a.Valid) ∧
        (∀ r ∈ repos, r.locator ≠ a.locator) ∧ ∀ other ∈ before, other.locator ≠ a.locator := by
  have hname : validRepoName a.written.name = validRepositoryName a.name := validRepoName_eq a.name
  have hknown : (∃ r ∈ repos.map CoreRepositoryABI.written, r.id = a.written.repoId) ↔
      a.repoId ∈ repos.map CoreRepositoryABI.id := by
    simp only [List.mem_map, exists_exists_and_eq_and, CoreRepositoryABI.written,
      CoreAliasABI.written, Text.canonical.injEq]
  have howner : ∀ value, canonicalAddress "alias owner" a.written.owner = .ok value ↔
      a.owner ≠ 0 ∧ a.owner = value := fun value => canonicalAddress_canonical
  unfold checkAlias
  rw [← locatorHolder_written]
  simp only [bind_eq_ok, exists_unit, revertIf_eq_ok, hname, hknown, howner, not_not,
    Bool.not_eq_false]
  cases locatorHolder (repos.map CoreRepositoryABI.written) (before.map CoreAliasABI.written)
      a.written.owner a.written.name with
  | none =>
      constructor
      · intro h
        obtain ⟨hin, _, ⟨hzero, -⟩, hvalid, -⟩ := h
        exact ⟨⟨hin, hzero, hvalid⟩, rfl⟩
      · intro h
        obtain ⟨⟨hin, hvalid⟩, -⟩ := h
        exact ⟨hin, a.owner, ⟨hvalid.owner_ne_zero, rfl⟩, hvalid.name_valid, rfl⟩
  | some existing =>
      refine iff_of_false (fun h => ?_) fun h => absurd h.2 (Option.some_ne_none existing)
      obtain ⟨-, _, -, -, hthrow⟩ := h
      dsimp only at hthrow
      split at hthrow
      · cases hthrow
      · cases hthrow

/-- The planner accepts exactly the tables. -/
theorem validateRepositories_eq_ok {u : Unit} :
    validateRepositories (repos.map CoreRepositoryABI.written)
        (aliases.map CoreAliasABI.written) = .ok u ↔ RepositoryTable repos aliases := by
  have hrepositories : checkAll checkRepository [] (repos.map CoreRepositoryABI.written) = .ok () ↔
      (∀ r ∈ repos, r.Valid) ∧ (repos.map CoreRepositoryABI.id).Nodup ∧
        (repos.map CoreRepositoryABI.locator).Nodup := by
    rw [checkAll_map_eq_ok, ← forall_split_iff, ← forall_split_new_iff, ← forall_split_new_iff]
    simp only [checkRepository_written, imp_and, forall_and]
  have hforks : (repos.map CoreRepositoryABI.written).forM
      (checkFork (repos.map CoreRepositoryABI.written)) = .ok () ↔
      ∀ r ∈ repos, ∀ p, r.parent = some p → p ≠ r.id ∧ p ∈ repos.map CoreRepositoryABI.id := by
    rw [forM_eq_ok, List.forall_mem_map]
    simp only [checkFork_written]
  have haliases : checkAll (checkAlias (repos.map CoreRepositoryABI.written)) []
      (aliases.map CoreAliasABI.written) = .ok () ↔
      (∀ a ∈ aliases, a.repoId ∈ repos.map CoreRepositoryABI.id ∧ a.Valid) ∧
        (∀ a ∈ aliases, ∀ r ∈ repos, r.locator ≠ a.locator) ∧
        (aliases.map CoreAliasABI.locator).Nodup := by
    rw [checkAll_map_eq_ok, ← forall_split_iff, ← forall_split_iff, ← forall_split_new_iff]
    simp only [checkAlias_written, imp_and, forall_and]
  unfold validateRepositories
  simp only [bind_eq_ok, exists_unit, hrepositories, hforks, haliases]
  constructor
  · intro h
    obtain ⟨⟨hvalid, hids, hlocators⟩, hparents, hlineage, hknown, hfree, halias⟩ := h
    have hin : ∀ r ∈ repos, ∀ p, r.parent = some p → p ∈ repos.map CoreRepositoryABI.id :=
      fun r hr p hp => (hparents r hr p hp).2
    refine ⟨hvalid, hids, List.nodup_append.mpr ⟨hlocators, halias, ?_⟩, hin,
      (checkLineage_written hids hin).mp hlineage, fun a ha => (hknown a ha).2,
      fun a ha => (hknown a ha).1⟩
    intro locator hlocator other hother
    obtain ⟨r, hr, rfl⟩ := List.mem_map.mp hlocator
    obtain ⟨a, ha, rfl⟩ := List.mem_map.mp hother
    exact hfree a ha r hr
  · intro h
    obtain ⟨hlocators, halias, hfree⟩ := List.nodup_append.mp h.locators
    refine ⟨⟨h.valid, h.ids, hlocators⟩, fun r hr p hp => ⟨?_, h.parents r hr p hp⟩,
      (checkLineage_written h.ids h.parents).mpr h.lineages,
      fun a ha => ⟨h.aliases_known a ha, h.aliases_valid a ha⟩, fun a ha r hr => ?_, halias⟩
    · obtain ⟨n, hdepth⟩ := h.lineages r hr
      intro hself
      apply hdepth.ne_parent
      rw [parentOf_eq h.ids hr, hp, hself]
    · exact hfree _ (List.mem_map_of_mem hr) _ (List.mem_map_of_mem ha)

/-! ## The core imports tables with parents first -/

/-- The record of a repository. -/
def CoreRepositoryABI.record (r : CoreRepositoryABI) : ImportRecord := .repository r.toImport

/-- The record of an alias. -/
def CoreAliasABI.record (a : CoreAliasABI) : ImportRecord := .repositoryAlias a.toImport

/-- Repositories followed by aliases, as they are imported. -/
def coreRecords (order : List CoreRepositoryABI) (aliases : List CoreAliasABI) : List ImportRecord :=
  order.map CoreRepositoryABI.record ++ aliases.map CoreAliasABI.record

/-- Every repository comes after its fork parent. -/
def ParentsBefore (order : List CoreRepositoryABI) : Prop :=
  ∀ before r after, order = before ++ r :: after →
    ∀ p, r.parent = some p → p ∈ before.map CoreRepositoryABI.id

/-- A suite whose core holds nothing. -/
def emptyCore (s : Suite) : Suite := s.setCore default

variable {keccak : Keccak} {s : Suite}

theorem mem_coreRecords_repository {r : ImportRepository} :
    ImportRecord.repository r ∈ coreRecords order aliases ↔ ∃ x ∈ order, x.toImport = r := by
  unfold coreRecords
  rw [List.mem_append, List.mem_map, List.mem_map]
  constructor
  · intro h
    rcases h with ⟨x, hx, heq⟩ | ⟨a, -, heq⟩
    · exact ⟨x, hx, ImportRecord.repository.inj heq⟩
    · cases heq
  · intro h
    obtain ⟨x, hx, rfl⟩ := h
    exact Or.inl ⟨x, hx, rfl⟩

/-- The repositories that are there after some records. -/
theorem present_coreRecords {id : Bytes32} :
    (((emptyCore s).imported keccak (coreRecords order aliases)).core.repositories id).present =
        true ↔ id ∈ order.map CoreRepositoryABI.id := by
  rw [Suite.present_imported]
  constructor
  · intro h
    rcases h with hold | ⟨r, hr, rfl⟩
    · cases hold
    · obtain ⟨x, hx, rfl⟩ := mem_coreRecords_repository.mp hr
      exact List.mem_map_of_mem hx
  · intro h
    obtain ⟨x, hx, rfl⟩ := List.mem_map.mp h
    exact Or.inr ⟨x.toImport, mem_coreRecords_repository.mpr ⟨x, hx, rfl⟩, rfl⟩

/-- A locator is free after some records, all with IDs, when none of them has it. -/
theorem vacant_coreRecords {owner : Address} {name : Bytes} (hids : ∀ r ∈ order, r.id ≠ 0)
    (hknown : ∀ a ∈ aliases, a.repoId ≠ 0) :
    ((emptyCore s).imported keccak (coreRecords order aliases)).Vacant (keccak.locator owner name) ↔
      (∀ r ∈ order, r.locator ≠ (owner, name)) ∧ ∀ a ∈ aliases, a.locator ≠ (owner, name) := by
  have hwritten : ∀ record ∈ coreRecords order aliases, ∀ value,
      record.locatorAt keccak (keccak.locator owner name) = some value → ¬ value = 0 := by
    intro record hrecord value hwrite
    rcases List.mem_append.mp hrecord with hrepository | halias
    · obtain ⟨r, hr, rfl⟩ := List.mem_map.mp hrepository
      obtain ⟨-, rfl⟩ := writeIf_eq_some.mp hwrite
      exact hids r hr
    · obtain ⟨a, ha, rfl⟩ := List.mem_map.mp halias
      obtain ⟨-, rfl⟩ := writeIf_eq_some.mp hwrite
      exact hknown a ha
  have hnone : (∀ record ∈ coreRecords order aliases,
      record.locatorAt keccak (keccak.locator owner name) = none) ↔
      (∀ r ∈ order, r.locator ≠ (owner, name)) ∧ ∀ a ∈ aliases, a.locator ≠ (owner, name) := by
    unfold coreRecords
    rw [List.forall_mem_append, List.forall_mem_map, List.forall_mem_map]
    simp only [CoreRepositoryABI.record, CoreAliasABI.record, ImportRecord.locatorAt,
      writeIf_eq_none, Keccak.locator_inj, CoreRepositoryABI.toImport, CoreAliasABI.toImport,
      CoreRepositoryABI.locator, CoreAliasABI.locator, ne_eq, Prod.mk.injEq]
  unfold Suite.Vacant
  rw [Suite.imported_locators, Suite.imported_reservedLocators,
    latest_getD_free (fun id : Bytes32 => id = 0) _ hwritten, hnone]
  exact ⟨fun h => h.1.2, fun h => ⟨⟨rfl, h⟩, rfl⟩⟩

/-- When a repository fits after others. -/
theorem fits_repository {before : List CoreRepositoryABI} {r : CoreRepositoryABI}
    (hids : ∀ other ∈ before, other.id ≠ 0) :
    ((emptyCore s).imported keccak (before.map CoreRepositoryABI.record)).Fits keccak r.record ↔
      (∀ p, r.parent = some p → p ∈ before.map CoreRepositoryABI.id) ∧
        (∀ other ∈ before, other.id ≠ r.id) ∧ ∀ other ∈ before, other.locator ≠ r.locator := by
  have hrecords : before.map CoreRepositoryABI.record = coreRecords before [] :=
    (List.append_nil _).symm
  have hvacant : ((emptyCore s).imported keccak (coreRecords before [])).Vacant
      (keccak.locator r.owner r.name) ↔ _ := vacant_coreRecords hids (by simp)
  rw [hrecords]
  show (_ ∧ _ ∧ _) ↔ _
  refine and_congr ?_ (and_congr ?_ ?_)
  · rw [present_coreRecords]
    constructor
    · intro h p hp
      obtain ⟨hne, rfl⟩ := CoreRepositoryABI.parent_eq_some.mp hp
      exact h hne
    · intro h hne
      exact h _ (CoreRepositoryABI.parent_eq_some.mpr ⟨hne, rfl⟩)
  · rw [← Bool.not_eq_true, present_coreRecords, List.mem_map]
    constructor
    · exact fun h other hother hsame => h ⟨other, hother, hsame⟩
    · intro h hin
      obtain ⟨other, hother, hsame⟩ := hin
      exact h other hother hsame
  · exact hvacant.trans ⟨fun h => h.1, fun h => ⟨h, by simp⟩⟩

/-- When an alias fits after the repositories and other aliases. -/
theorem fits_alias {before : List CoreAliasABI} {a : CoreAliasABI} (hids : ∀ r ∈ order, r.id ≠ 0)
    (hknown : ∀ other ∈ before, other.repoId ≠ 0) :
    ((emptyCore s).imported keccak (coreRecords order before)).Fits keccak a.record ↔
      a.repoId ∈ order.map CoreRepositoryABI.id ∧
        (∀ r ∈ order, r.locator ≠ a.locator) ∧ ∀ other ∈ before, other.locator ≠ a.locator :=
  and_congr present_coreRecords (vacant_coreRecords hids hknown)

/-- What the core asks of repositories in an order and of the aliases after them. -/
structure ImportOrder (order : List CoreRepositoryABI) (aliases : List CoreAliasABI) : Prop where
  ids_ne_zero : ∀ r ∈ order, r.id ≠ 0
  valid : ∀ r ∈ order, r.Valid
  ids : (order.map CoreRepositoryABI.id).Nodup
  locators : (order.map CoreRepositoryABI.locator ++ aliases.map CoreAliasABI.locator).Nodup
  parents : ParentsBefore order
  aliases_valid : ∀ a ∈ aliases, a.Valid
  aliases_known : ∀ a ∈ aliases, a.repoId ∈ order.map CoreRepositoryABI.id

/-- The core imports repositories and aliases exactly in such an order. -/
theorem fitInTurn_iff :
    (emptyCore s).FitInTurn keccak (coreRecords order aliases) ↔ ImportOrder order aliases := by
  have hsplit : (emptyCore s).FitInTurn keccak (coreRecords order aliases) ↔
      (∀ before r after, order = before ++ r :: after → r.record.WellFormed ∧
        ((emptyCore s).imported keccak (before.map CoreRepositoryABI.record)).Fits keccak r.record) ∧
      ∀ before a after, aliases = before ++ a :: after → a.record.WellFormed ∧
        ((emptyCore s).imported keccak (coreRecords order before)).Fits keccak a.record := by
    unfold Suite.FitInTurn coreRecords Suite.imported
    rw [along_append, along_map_iff, along_map_iff]
    simp only [List.foldl_append]
  have hmem : ∀ {before after : List CoreRepositoryABI} {r : CoreRepositoryABI},
      order = before ++ r :: after → ∀ other ∈ before, other ∈ order := by
    intro before after r h other hother
    rw [h]
    exact List.mem_append_left _ hother
  have hmemAlias : ∀ {before after : List CoreAliasABI} {a : CoreAliasABI},
      aliases = before ++ a :: after → ∀ other ∈ before, other ∈ aliases := by
    intro before after a h other hother
    rw [h]
    exact List.mem_append_left _ hother
  rw [hsplit]
  constructor
  · intro h
    obtain ⟨hrepos, haliases⟩ := h
    have hwell : ∀ r ∈ order, r.id ≠ 0 ∧ r.Valid := forall_split_iff.mp fun before r after heq =>
      CoreRepositoryABI.wellFormed_toImport.mp (hrepos before r after heq).1
    have hids : ∀ r ∈ order, r.id ≠ 0 := fun r hr => (hwell r hr).1
    have hfits := fun before r after heq =>
      (fits_repository fun other hother => hids other (hmem heq other hother)).mp
        (hrepos before r after heq).2
    -- an alias names a repository that is there, so its ID is not zero either
    have hin : ∀ a ∈ aliases, a.repoId ∈ order.map CoreRepositoryABI.id :=
      forall_split_iff.mp fun before a after heq =>
        present_coreRecords.mp (haliases before a after heq).2.1
    have hknown : ∀ a ∈ aliases, a.repoId ≠ 0 := by
      intro a ha
      obtain ⟨r, hr, hid⟩ := List.mem_map.mp (hin a ha)
      rw [← hid]
      exact hids r hr
    have hfitsAlias := fun before a after heq =>
      (fits_alias hids fun other hother => hknown other (hmemAlias heq other hother)).mp
        (haliases before a after heq).2
    refine ⟨hids, fun r hr => (hwell r hr).2, ?_, List.nodup_append.mpr ⟨?_, ?_, ?_⟩, ?_, ?_, hin⟩
    · exact forall_split_new_iff.mp fun before r after heq => (hfits before r after heq).2.1
    · exact forall_split_new_iff.mp fun before r after heq => (hfits before r after heq).2.2
    · exact forall_split_new_iff.mp fun before a after heq => (hfitsAlias before a after heq).2.2
    · intro locator hlocator other hother
      obtain ⟨r, hr, rfl⟩ := List.mem_map.mp hlocator
      obtain ⟨a, ha, rfl⟩ := List.mem_map.mp hother
      obtain ⟨before, after, heq⟩ := List.append_of_mem ha
      exact (hfitsAlias before a after heq).2.1 r hr
    · exact fun before r after heq => (hfits before r after heq).1
    · exact forall_split_iff.mp fun before a after heq =>
        CoreAliasABI.wellFormed_toImport.mp (haliases before a after heq).1
  · intro h
    obtain ⟨hlocators, halias, hfree⟩ := List.nodup_append.mp h.locators
    have hknown : ∀ a ∈ aliases, a.repoId ≠ 0 := by
      intro a ha
      obtain ⟨r, hr, hid⟩ := List.mem_map.mp (h.aliases_known a ha)
      rw [← hid]
      exact h.ids_ne_zero r hr
    constructor
    · intro before r after heq
      have hr : r ∈ order := by
        rw [heq]
        exact List.mem_append_right _ List.mem_cons_self
      refine ⟨CoreRepositoryABI.wellFormed_toImport.mpr ⟨h.ids_ne_zero r hr, h.valid r hr⟩,
        (fits_repository fun other hother => h.ids_ne_zero other (hmem heq other hother)).mpr
          ⟨h.parents before r after heq, ?_, ?_⟩⟩
      · exact forall_split_new_iff.mpr h.ids before r after heq
      · exact forall_split_new_iff.mpr hlocators before r after heq
    · intro before a after heq
      have ha : a ∈ aliases := by
        rw [heq]
        exact List.mem_append_right _ List.mem_cons_self
      refine ⟨CoreAliasABI.wellFormed_toImport.mpr (h.aliases_valid a ha),
        (fits_alias h.ids_ne_zero fun other hother => hknown other (hmemAlias heq other hother)).mpr
          ⟨h.aliases_known a ha, fun r hr => ?_, ?_⟩⟩
      · exact hfree _ (List.mem_map_of_mem hr) _ (List.mem_map_of_mem ha)
      · exact forall_split_new_iff.mpr halias before a after heq

/-! ## From one to the other -/

/-- Parents before their forks, in terms of IDs. -/
theorem parentsBefore_iff (hids : (repos.map CoreRepositoryABI.id).Nodup) (hperm : order.Perm repos) :
    ParentsBefore order ↔ ParentsFirst (parentOf repos) (order.map CoreRepositoryABI.id) := by
  have hparent : ∀ r ∈ order, parentOf repos r.id = r.parent :=
    fun r hr => parentOf_eq hids (hperm.mem_iff.mp hr)
  unfold ParentsFirst ParentsBefore
  rw [forall_split_map_iff (P := fun before a => ∀ p, parentOf repos a = some p → p ∈ before)]
  constructor
  · intro h before r after heq p hp
    rw [hparent r (by rw [heq]; exact List.mem_append_right _ List.mem_cons_self)] at hp
    exact h before r after heq p hp
  · intro h before r after heq p hp
    refine h before r after heq p ?_
    rw [hparent r (by rw [heq]; exact List.mem_append_right _ List.mem_cons_self)]
    exact hp

/-- What the core imports in some order is a table. -/
theorem ImportOrder.table (h : ImportOrder order aliases) (hperm : order.Perm repos) :
    RepositoryTable repos aliases := by
  have hids : (repos.map CoreRepositoryABI.id).Nodup := (hperm.map _).nodup_iff.mp h.ids
  have hfirst := (parentsBefore_iff hids hperm).mp h.parents
  refine ⟨fun r hr => h.valid r (hperm.mem_iff.mpr hr), hids, ?_, fun r hr p hp => ?_,
    fun r hr => ?_, h.aliases_valid, fun a ha => ?_⟩
  · exact ((hperm.map CoreRepositoryABI.locator).append_right _).nodup_iff.mp h.locators
  · obtain ⟨before, after, heq⟩ := List.append_of_mem (hperm.mem_iff.mpr hr)
    obtain ⟨q, hq, rfl⟩ := List.mem_map.mp (h.parents before r after heq p hp)
    refine List.mem_map_of_mem (hperm.mem_iff.mp ?_)
    rw [heq]
    exact List.mem_append_left _ hq
  · exact hfirst.depth r.id (List.mem_map_of_mem (hperm.mem_iff.mpr hr))
  · exact (hperm.map CoreRepositoryABI.id).mem_iff.mp (h.aliases_known a ha)

/-- A table with IDs is imported in every order with parents first. -/
theorem RepositoryTable.importOrder {aliases' : List CoreAliasABI} (h : RepositoryTable repos aliases)
    (hids : ∀ r ∈ repos, r.id ≠ 0) (hperm : order.Perm repos) (haliases : aliases'.Perm aliases)
    (hparents : ParentsBefore order) : ImportOrder order aliases' where
  ids_ne_zero := fun r hr => hids r (hperm.mem_iff.mp hr)
  valid := fun r hr => h.valid r (hperm.mem_iff.mp hr)
  ids := (hperm.map _).nodup_iff.mpr h.ids
  locators := ((hperm.map _).append (haliases.map _)).nodup_iff.mpr h.locators
  parents := hparents
  aliases_valid := fun a ha => h.aliases_valid a (haliases.mem_iff.mp ha)
  aliases_known := fun a ha =>
    (hperm.map CoreRepositoryABI.id).mem_iff.mpr (h.aliases_known a (haliases.mem_iff.mp ha))

/-! ## The planner's order -/

/-- The repositories in the planner's order. -/
def plannedRepositories (repos : List CoreRepositoryABI) : List CoreRepositoryABI :=
  (sortRepositories (repos.map CoreRepositoryABI.written)).map SnapshotRepository.toABI

/-- The aliases in the planner's order. -/
def plannedAliases (aliases : List CoreAliasABI) : List CoreAliasABI :=
  (sortAliases (aliases.map CoreAliasABI.written)).map SnapshotAlias.toABI

/-- Sorting loses nothing and adds nothing. -/
theorem sortSlice_perm {α : Type} (less : α → α → Bool) (items : List α) :
    (sortSlice less items).Perm items :=
  List.perm_insertionSort _ items

theorem sortRepositories_perm (texts : List SnapshotRepository) :
    (sortRepositories texts).Perm texts :=
  sortSlice_perm _ texts

theorem sortAliases_perm (texts : List SnapshotAlias) : (sortAliases texts).Perm texts :=
  sortSlice_perm _ texts

/-- The plan has every repository once. -/
theorem plannedRepositories_perm : (plannedRepositories repos).Perm repos := by
  have hperm := (sortRepositories_perm (repos.map CoreRepositoryABI.written)).map
    SnapshotRepository.toABI
  rw [List.map_map] at hperm
  have hback : SnapshotRepository.toABI ∘ CoreRepositoryABI.written = id :=
    funext CoreRepositoryABI.toABI_written
  rw [hback, List.map_id] at hperm
  exact hperm

/-- The plan has every alias once. -/
theorem plannedAliases_perm : (plannedAliases aliases).Perm aliases := by
  have hperm := (sortAliases_perm (aliases.map CoreAliasABI.written)).map SnapshotAlias.toABI
  rw [List.map_map] at hperm
  have hback : SnapshotAlias.toABI ∘ CoreAliasABI.written = id :=
    funext CoreAliasABI.toABI_written
  rw [hback, List.map_id] at hperm
  exact hperm

/-- The planner sorts by fork depth. -/
theorem sortRepositories_pairwise (texts : List SnapshotRepository) :
    (sortRepositories texts).Pairwise fun a b =>
      forkDepth texts texts.length a.id ≤ forkDepth texts texts.length b.id := by
  refine insertionSort_pairwise_rank (fun a b h => ?_) (fun a b h => ?_) texts
  · by_contra hlt
    have hne : forkDepth texts texts.length b.id ≠ forkDepth texts texts.length a.id := by omega
    simp only [lessThen, if_pos hne, decide_eq_false_iff_not] at h
    omega
  · by_contra hlt
    have hne : forkDepth texts texts.length b.id ≠ forkDepth texts texts.length a.id := by omega
    simp only [lessThen, if_pos hne, decide_eq_false_iff_not, not_not] at h
    omega

/-- The planner puts the parents of a table first. -/
theorem RepositoryTable.parentsBefore_planned (h : RepositoryTable repos aliases) :
    ParentsBefore (plannedRepositories repos) := by
  have hclosed := mem_ids_of_parentOf h.ids h.parents
  have hdepth : ∀ id ∈ repos.map CoreRepositoryABI.id, ∃ n, Depth (parentOf repos) id n ∧
      forkDepth (repos.map CoreRepositoryABI.written)
        (repos.map CoreRepositoryABI.written).length (.canonical id) = n := by
    intro id hid
    obtain ⟨r, hr, rfl⟩ := List.mem_map.mp hid
    obtain ⟨n, hn⟩ := h.lineages r hr
    have hlt := hn.lt_length hid hclosed
    rw [List.length_map] at hlt
    exact ⟨n, hn, forkDepth_eq (depth_written.mpr hn) (by rw [List.length_map]; omega)⟩
  have hmem : ∀ id, id ∈ (plannedRepositories repos).map CoreRepositoryABI.id ↔
      id ∈ repos.map CoreRepositoryABI.id :=
    fun id => (plannedRepositories_perm.map CoreRepositoryABI.id).mem_iff
  rw [parentsBefore_iff h.ids plannedRepositories_perm]
  refine parentsFirst_of_depth (fun id => forkDepth (repos.map CoreRepositoryABI.written)
    (repos.map CoreRepositoryABI.written).length (.canonical id)) ?_ fun id hid p hp => ?_
  · -- every text the planner sorts is the canonical one of its ID
    have htext : ∀ x ∈ sortRepositories (repos.map CoreRepositoryABI.written),
        Text.canonical x.toABI.id = x.id := by
      intro x hx
      obtain ⟨r, -, rfl⟩ := List.mem_map.mp ((sortRepositories_perm _).mem_iff.mp hx)
      rfl
    unfold plannedRepositories
    rw [List.map_map, List.pairwise_map]
    refine (sortRepositories_pairwise _).imp_of_mem fun {a b} ha hb hle => ?_
    show forkDepth _ _ (.canonical a.toABI.id) ≤ forkDepth _ _ (.canonical b.toABI.id)
    rw [htext a ha, htext b hb]
    exact hle
  · have hin := (hmem id).mp hid
    obtain ⟨n, hn, hfork⟩ := hdepth id hin
    obtain ⟨m, hm, hforkParent⟩ := hdepth p (hclosed id hin p hp)
    refine ⟨(hmem p).mpr (hclosed id hin p hp), ?_⟩
    have hchild := (Depth.child hp hm).unique hn
    rw [hfork, hforkParent]
    omega

/-! ## The validator and the importer -/

/-- The part of `validateSnapshot` about repositories and aliases accepts the values. -/
def Accepted (repos : List CoreRepositoryABI) (aliases : List CoreAliasABI) : Prop :=
  validateRepositories (repos.map CoreRepositoryABI.written)
    (aliases.map CoreAliasABI.written) = .ok ()

/-- Repositories in an order, followed by aliases, import into an empty core. -/
def Imports (d : Deployment) (s : Suite) (order : List CoreRepositoryABI)
    (aliases : List CoreAliasABI) : Prop :=
  ∃ s', (coreRecords order aliases).foldlM (Suite.storeRecord d) (emptyCore s) = .ok s'

/-- The core imports the records in an order exactly when that is an import order. -/
theorem imports_iff {d : Deployment} : Imports d s order aliases ↔ ImportOrder order aliases := by
  unfold Imports
  have hfit : (emptyCore s).FitInTurn d.keccak (coreRecords order aliases) ↔ _ := fitInTurn_iff
  rw [← hfit]
  simp only [Suite.foldlM_storeRecord_eq_ok]
  exact ⟨fun h => h.choose_spec.1, fun h => ⟨_, h, rfl⟩⟩

/-- The planner and the core agree on repositories and aliases unless the planner accepts a
repository whose ID is zero. -/
theorem accepted_iff_imports_iff (d : Deployment) (s : Suite) (repos : List CoreRepositoryABI)
    (aliases : List CoreAliasABI) :
    ((Accepted repos aliases ↔
        ∃ order, order.Perm repos ∧ ParentsBefore order ∧ Imports d s order aliases) ∧
      (Accepted repos aliases →
        Imports d s (plannedRepositories repos) (plannedAliases aliases))) ↔
      ¬ (Accepted repos aliases ∧ ∃ r ∈ repos, r.id = 0) := by
  have hplanned : (∀ r ∈ repos, r.id ≠ 0) → RepositoryTable repos aliases →
      ∀ {aliases'}, aliases'.Perm aliases →
        Imports d s (plannedRepositories repos) aliases' := by
    intro hids htable aliases' hperm
    exact imports_iff.mpr (htable.importOrder hids plannedRepositories_perm hperm
      htable.parentsBefore_planned)
  constructor
  · intro h hzero
    obtain ⟨haccepted, r, hr, hid⟩ := hzero
    obtain ⟨order, hperm, -, himports⟩ := h.1.mp haccepted
    exact (imports_iff.mp himports).ids_ne_zero r (hperm.mem_iff.mpr hr) hid
  · intro h
    have hids : Accepted repos aliases → ∀ r ∈ repos, r.id ≠ 0 :=
      fun haccepted r hr hid => h ⟨haccepted, r, hr, hid⟩
    refine ⟨⟨fun haccepted => ?_, fun himports => ?_⟩, fun haccepted => ?_⟩
    · have htable := validateRepositories_eq_ok.mp haccepted
      exact ⟨_, plannedRepositories_perm, htable.parentsBefore_planned,
        hplanned (hids haccepted) htable (List.Perm.refl _)⟩
    · obtain ⟨order, hperm, -, himports⟩ := himports
      exact validateRepositories_eq_ok.mpr ((imports_iff.mp himports).table hperm)
    · exact hplanned (hids haccepted) (validateRepositories_eq_ok.mp haccepted) plannedAliases_perm

namespace Sample

/-- A repository whose ID is zero. -/
def nameless : CoreRepositoryABI where
  id := 0
  owner := 0xa11ce
  name := ascii "demo"
  description := []
  defaultBranch := ascii "main"
  forkedFrom := 0
  createdAt := 1
  updatedAt := 1

/-- A repository and a fork of it, which comes first in the list. -/
def family : List CoreRepositoryABI :=
  [{ nameless with id := 7, name := ascii "fork", forkedFrom := 9 }, { nameless with id := 9 }]

/-- The planner accepts the repository, and no order of it imports. -/
theorem zero_id_accepted_not_imported :
    Accepted [nameless] [] ∧
      ∀ s order, order.Perm [nameless] → ¬ Imports Igit.Sample.deployment s order [] := by
  refine ⟨rfl, fun s order hperm himports => ?_⟩
  exact (imports_iff.mp himports).ids_ne_zero nameless (hperm.mem_iff.mpr List.mem_cons_self) rfl

/-- A fork listed before its parent is accepted and imported in the planner's order. -/
theorem family_planned :
    ∀ s, Imports Igit.Sample.deployment s (plannedRepositories family) (plannedAliases []) := by
  intro s
  have hids : ¬ (Accepted family [] ∧ ∃ r ∈ family, r.id = 0) := by
    intro h
    obtain ⟨-, r, hr, hid⟩ := h
    revert hid
    revert r
    decide
  exact ((accepted_iff_imports_iff Igit.Sample.deployment s family []).mpr hids).2 rfl

end Sample

end Igit.Migration
