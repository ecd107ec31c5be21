import Igit.Contracts.ModerationModule
import Igit.Contracts.OtherModules

/-!
# Pages

The views through which the lists of `RepositoryCore.sol`, `BadgeModule.sol` and `ReleaseModule.sol`
are read. Each checks the page size and the cursor, in `_requirePage` and `_pageEnd` or in its own
body, as `Suite.pageEnd` does.
-/

namespace Igit

open Fallible

namespace Suite

/-- A page of the entries that a list names, and the cursor after it. -/
def pageOf {κ V : Type} (read : κ → V) (source : List κ) (cursor limit : Nat) :
    Except Revert (List V × Nat) := do
  let stop ← pageEnd cursor limit source.length
  pure (((source.drop cursor).take (stop - cursor)).map read, stop)

variable (d : Deployment) (s : Suite)

/-! ## RepositoryCore -/

/-- `listRepositoriesPage`. -/
def listRepositoriesPage (owner : Address) (cursor limit : Nat) :
    Except Revert (List Repository × Nat) :=
  pageOf s.core.repositories (s.core.ownerRepositories owner) cursor limit

/-- `listRefsPage`: the names and the refs, in two arrays. -/
def listRefsPage (repoId : Bytes32) (cursor limit : Nat) :
    Except Revert (List Bytes × List GitRef × Nat) := do
  let _repository ← s.requireRepository repoId
  let (names, stop) ← pageOf id (s.core.refNames repoId) cursor limit
  pure (names, names.map fun name => s.core.refs repoId (d.keccak.ofBytes name), stop)

/-- `listCollaboratorsPage`: the accounts and their roles, in two arrays. -/
def listCollaboratorsPage (repoId : Bytes32) (cursor limit : Nat) :
    Except Revert (List Address × List Role × Nat) := do
  let _repository ← s.requireRepository repoId
  let (accounts, stop) ← pageOf id (s.core.collaborators repoId) cursor limit
  pure (accounts, accounts.map (s.core.roles repoId), stop)

/-! ## BadgeModule -/

/-- `listBadgesByRecipientPage`. -/
def listBadgesByRecipientPage (recipient : Address) (cursor limit : Nat) :
    Except Revert (List Badge × Nat) :=
  pageOf s.badges.badges (s.badges.recipientBadgeIds recipient) cursor limit

/-- `listBadgesByRepositoryPage`. -/
def listBadgesByRepositoryPage (repoId : Bytes32) (cursor limit : Nat) :
    Except Revert (List Badge × Nat) := do
  let _repository ← s.repository repoId
  pageOf s.badges.badges (s.badges.repoBadgeIds repoId) cursor limit

/-! ## ReleaseModule -/

/-- `listArtifactsPage`. -/
def listArtifactsPage (version : Bytes) (cursor limit : Nat) :
    Except Revert (List Artifact × Nat) :=
  pageOf (fun platform => s.releases.artifacts (Releases.artifactKey d.keccak version platform))
    (s.releases.platformsByVersion (d.keccak.ofBytes version)) cursor limit

/-! ## ModerationModule -/

/-- `effectiveStatus`. -/
def effectiveStatus (repoId : Bytes32) : Except Revert RepoStatus := do
  let _repository ← s.repository repoId
  pure (s.moderation.statuses repoId)

/-! ## What a page holds -/

/-- A cursor inside the list and a page size within the limit give the next entries. -/
theorem pageOf_eq_ok {κ V : Type} (read : κ → V) {source : List κ} {cursor limit : Nat}
    (hlimit : 0 < limit) (hsize : limit ≤ maxQueryPageSize) (hcursor : cursor ≤ source.length)
    (hroom : cursor + limit ≤ uint256Max) :
    pageOf read source cursor limit =
      .ok (((source.map read).drop cursor).take limit, min (cursor + limit) source.length) := by
  have hstop : (if cursor + limit > source.length then source.length else cursor + limit) =
      min (cursor + limit) source.length := by
    split <;> omega
  have htake : (source.drop cursor).take (min (cursor + limit) source.length - cursor) =
      (source.drop cursor).take limit := by
    rw [List.take_eq_take_iff, List.length_drop]
    omega
  have hend : pageEnd cursor limit source.length = .ok (min (cursor + limit) source.length) := by
    simp only [pageEnd, bind_eq_ok, revertIf_eq_ok, exists_unit, checkedAdd_eq_ok, pure_eq_ok]
    exact ⟨by omega, by omega, cursor + limit, ⟨hroom, rfl⟩, hstop⟩
  simp only [pageOf, bind_eq_ok, pure_eq_ok]
  refine ⟨_, hend, ?_⟩
  rw [htake, List.map_take, List.map_drop]

end Suite

end Igit
