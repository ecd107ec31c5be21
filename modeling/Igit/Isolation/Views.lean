import Igit.Isolation.Registers
import Igit.Moderation.Reports

/-!
# What the modules show of one repository

Almost every map of the suite is keyed by a repository, a few by a report or a badge that belongs to
one. `Suite.view` collects everything that is stored for a repository, under all of these keys. The
lemmas say which writes leave the view of a repository alone: all those under the key of another one.
-/

namespace Igit

open Fallible

/-- What the core stores for a repository. -/
structure CoreView where
  record : Repository
  refs : Bytes32 → GitRef
  refNames : List Bytes
  roles : Address → Role
  collaborators : List Address
  collaboratorIndexes : Address → Nat
  pendingTransfer : PendingOwnershipTransfer

/-- What the recovery module stores for a repository. -/
structure RecoveryView where
  config : GuardianConfig
  isGuardian : Address → Bool
  proposal : Proposal
  approvals : Nat → Address → Bool
  proposalNonce : Nat

/-- A report with its trail and its commitments. -/
structure ReportView where
  report : Report
  trail : List TrailEntry
  resolutionHash : Bytes
  appealHash : Bytes
  deriving DecidableEq

/-- What the moderation module stores for a repository. -/
structure ModerationView where
  status : RepoStatus
  statusTrail : List StatusTrailEntry
  reports : List ReportView
  deriving DecidableEq

/-- What the economic module stores for a repository. -/
structure EconomicView where
  splits : List Split
  totals : Bytes32 → Nat
  denoms : List Bytes
  knownDenom : Bytes32 → Bool

/-- Everything the suite stores for a repository. -/
structure RepositoryView where
  core : CoreView
  recovery : RecoveryView
  moderation : ModerationView
  economic : EconomicView
  badges : List Badge

/-! ## The core -/

namespace Core

/-- The view of `r` in the core. -/
def view (c : Core) (r : Bytes32) : CoreView where
  record := c.repositories r
  refs := c.refs r
  refNames := c.refNames r
  roles := c.roles r
  collaborators := c.collaborators r
  collaboratorIndexes := c.collaboratorIndexes r
  pendingTransfer := c.pendingTransfers r

variable {c c' : Core} {r other : Bytes32}

/-- Storing a repository is seen by no other. -/
theorem view_putRepository {locator : Bytes32} {imported : ImportRepository}
    (hne : other ≠ imported.id) : (c.putRepository locator imported).view other = c.view other := by
  simp only [view, putRepository, Function.update_of_ne hne]

/-- Writing a ref is seen by no other repository. -/
theorem view_putRef (hne : other ≠ r) (refId : Bytes32) (gitRef : GitRef) :
    (c.putRef r refId gitRef).view other = c.view other := by
  simp only [view, putRef, Function.update_of_ne hne]

/-- Listing the refs anew is seen by no other repository. -/
theorem view_setRefNames (hne : other ≠ r) (names : List Bytes) :
    (c.setRefNames r names).view other = c.view other := by
  simp only [view, setRefNames, Function.update_of_ne hne]

/-- Changing the record of a repository is seen by no other. -/
theorem view_setRepository (hne : other ≠ r) (repository : Repository) :
    (c.setRepository r repository).view other = c.view other := by
  simp only [view, setRepository, Function.update_of_ne hne]

/-- Giving a role is seen by no other repository. -/
theorem view_setRole (hne : other ≠ r) (account : Address) (role : Role) :
    (c.setRole r account role).view other = c.view other := by
  simp only [view, setRole, Function.update_of_ne hne]

theorem view_pushCollaborator (hne : other ≠ r) (account : Address) :
    (c.pushCollaborator r account).view other = c.view other := by
  simp only [view, pushCollaborator, Function.update_of_ne hne]

theorem view_popCollaborator (hne : other ≠ r) (moved : Address) (index : Nat) :
    (c.popCollaborator r moved index).view other = c.view other := by
  simp only [view, popCollaborator, Function.update_of_ne hne]

theorem view_forgetCollaborator (hne : other ≠ r) (account : Address) :
    (c.forgetCollaborator r account).view other = c.view other := by
  simp only [view, forgetCollaborator, Function.update_of_ne hne]

/-- Announcing a transfer is seen by no other repository. -/
theorem view_putPending (hne : other ≠ r) (locator : Bytes32) (pending : PendingOwnershipTransfer) :
    (c.putPending r locator pending).view other = c.view other := by
  simp only [view, putPending, Function.update_of_ne hne]

/-- Ending a transfer is seen by no other repository. -/
theorem view_clearPending (hne : other ≠ r) (locator : Bytes32) :
    (c.clearPending r locator).view other = c.view other := by
  simp only [view, clearPending, Function.update_of_ne hne]

/-- The copy loop of a fork writes to the fork alone. -/
theorem view_copied {keccak : Keccak} {source fork : Bytes32} (hne : other ≠ fork) (now : Nat)
    (sender : Address) (names : List Bytes) :
    (Suite.copied keccak c source fork now sender names).view other = c.view other := by
  simp only [view, Suite.copied, Function.update_of_ne hne]

/-- Removing a collaborator is seen by no other repository. -/
theorem view_removeCollaborator {account : Address} (hne : other ≠ r)
    (h : c.removeCollaborator r account = .ok c') : c'.view other = c.view other := by
  simp only [removeCollaborator, ne_eq, ite_not] at h
  split at h
  · rw [pure_eq_ok] at h
    rw [← h, view_forgetCollaborator hne]
  · split at h
    · simp at h
    · simp only [bind_eq_ok, pure_eq_ok] at h
      obtain ⟨_, -, rfl⟩ := h
      rw [view_forgetCollaborator hne, view_popCollaborator hne]

/-- No change of roles is seen by another repository. -/
theorem RoleChange.view_eq {account : Address} (hne : other ≠ r) (h : c.RoleChange r account c') :
    c'.view other = c.view other := by
  cases h with
  | keep => rfl
  | grant => rw [view_setRole hne, view_pushCollaborator hne]
  | regrade => exact view_setRole hne _ _
  | revoke _ hremoved => exact view_removeCollaborator hne hremoved

/-- A transfer moves the repository between the lists of two owners, which no view shows. -/
theorem view_transferred {d : Deployment} {newOwner : Address} {moved : Bytes32} (hne : other ≠ r) :
    (c.transferred d r newOwner moved).view other = c.view other := by
  rw [transferred, Suite.transferCore, view_clearPending hne, view_setRepository hne]
  rfl

end Core

/-! ## The recovery module -/

namespace Recovery

/-- The view of `r` in the recovery module. -/
def view (m : Recovery) (r : Bytes32) : RecoveryView where
  config := m.configs r
  isGuardian := m.isGuardian r
  proposal := m.proposals r
  approvals := m.approvals r
  proposalNonce := m.proposalNonces r

variable {m : Recovery} {r other : Bytes32}

/-- Naming guardians is seen by no other repository. -/
theorem view_configured (hne : other ≠ r) (owner : Address) (guardians : List Address)
    (threshold : Nat) : (m.configured r owner guardians threshold).view other = m.view other := by
  simp only [view, configured, Function.update_of_ne hne]

/-- A proposal is seen by no other repository. -/
theorem view_putProposal (hne : other ≠ r) (proposal : Proposal) :
    (m.putProposal r proposal).view other = m.view other := by
  simp only [view, putProposal, Function.update_of_ne hne]

/-- An approval is seen by no other repository. -/
theorem view_putApproval (hne : other ≠ r) (guardian : Address) :
    (m.putApproval r guardian).view other = m.view other := by
  simp only [view, putApproval, Function.update_of_ne hne]

theorem view_deleteProposal (hne : other ≠ r) : (m.deleteProposal r).view other = m.view other := by
  simp only [view, deleteProposal, Function.update_of_ne hne]

theorem view_clearConfig (hne : other ≠ r) : (m.clearConfig r).view other = m.view other := by
  simp only [view, clearConfig, Function.update_of_ne hne]

end Recovery

/-! ## The moderation module -/

namespace Moderation

/-- A report as it is stored under its number. -/
def reportView (m : Moderation) (id : Nat) : ReportView where
  report := m.reports id
  trail := m.trails id
  resolutionHash := m.resolutionHashes id
  appealHash := m.appealHashes id

/-- The view of `r` in the moderation module. -/
def view (m : Moderation) (r : Bytes32) : ModerationView where
  status := m.statuses r
  statusTrail := m.statusTrails r
  reports := (m.repoReportIds r).map m.reportView

variable {m m' : Moderation} {r other : Bytes32} {reportId : Nat}

/-- A report does not see changes to another one. -/
theorem reportView_of_ne (hsame : m.SameElsewhere m' reportId) {id : Nat} (hne : id ≠ reportId) :
    m'.reportView id = m.reportView id := by
  simp only [reportView, hsame.reports id hne, hsame.trails id hne, hsame.resolutionHashes id hne,
    hsame.appealHashes id hne]

/-- A repository does not see changes to a report it does not list. -/
theorem view_eq (reportId : Nat) (hsame : m.SameElsewhere m' reportId)
    (hout : reportId ∉ m.repoReportIds other)
    (hlist : m'.repoReportIds other = m.repoReportIds other)
    (hstatus : m'.statuses other = m.statuses other)
    (htrail : m'.statusTrails other = m.statusTrails other) : m'.view other = m.view other := by
  have hreports : (m'.repoReportIds other).map m'.reportView =
      (m.repoReportIds other).map m.reportView := by
    rw [hlist]
    refine List.map_congr_left fun id hin => reportView_of_ne hsame ?_
    rintro rfl
    exact hout hin
  simp only [view, hreports, hstatus, htrail]

/-- A new status is seen by no other repository. -/
theorem view_recordStatus (hne : other ≠ r) (entry : StatusTrailEntry) :
    (m.recordStatus r entry).view other = m.view other := by
  simp only [view, recordStatus, Function.update_of_ne hne]
  rfl

/-- A repository lists its own reports, so none of another one. -/
theorem Kept.not_listed (h : m.Kept) (hne : other ≠ (m.reports reportId).repoId) :
    reportId ∉ m.repoReportIds other :=
  fun hin => hne ((h.listed other reportId).mp hin).2.symm

/-- The next number is not listed yet. -/
theorem Kept.next_not_listed (h : m.Kept) : m.nextReportId ∉ m.repoReportIds other := by
  intro hin
  obtain ⟨-, -, hlt⟩ := h.numbered _ ((h.listed other m.nextReportId).mp hin).1
  exact Nat.lt_irrefl _ hlt

/-- A report is seen by no other repository than the one it is about. -/
theorem view_submitted (h : m.Kept) (hne : other ≠ r) (sender : Address) (reasonHash : Bytes)
    (now : Nat) : (m.submitted r sender reasonHash now).view other = m.view other := by
  refine view_eq m.nextReportId ⟨?_, ?_, fun _ _ => rfl, fun _ _ => rfl⟩
    h.next_not_listed ?_ rfl rfl
  · intro id hid
    exact Function.update_of_ne hid _ _
  · intro id hid
    exact Function.update_of_ne hid _ _
  · exact Function.update_of_ne hne _ _

/-- A decision is seen by no other repository than the one its report is about. -/
theorem view_decided (h : m.Kept) (hne : other ≠ (m.reports reportId).repoId) (next : ReportStatus)
    (action : TrailAction) (sender : Address) (status : RepoStatus) (reasonHash : Bytes) (now : Nat) :
    (m.decided next action reportId sender status reasonHash now).view other = m.view other := by
  rw [decided, view_recordStatus hne]
  refine view_eq reportId ⟨?_, ?_, ?_, fun _ _ => rfl⟩ (h.not_listed hne) rfl rfl rfl
  · intro id hid
    exact Function.update_of_ne hid _ _
  · intro id hid
    exact Function.update_of_ne hid _ _
  · intro id hid
    exact Function.update_of_ne hid _ _

/-- An appeal is seen by no other repository than the one its report is about. -/
theorem view_appealed (h : m.Kept) (hne : other ≠ (m.reports reportId).repoId) (sender : Address)
    (reasonHash : Bytes) (now : Nat) :
    (m.appealed reportId sender reasonHash now).view other = m.view other := by
  refine view_eq reportId ⟨?_, ?_, fun _ _ => rfl, ?_⟩ (h.not_listed hne) rfl rfl rfl
  · intro id hid
    exact Function.update_of_ne hid _ _
  · intro id hid
    exact Function.update_of_ne hid _ _
  · intro id hid
    exact Function.update_of_ne hid _ _

end Moderation

/-! ## The economic module -/

namespace Economic

/-- The view of `r` in the economic module. -/
def view (e : Economic) (r : Bytes32) : EconomicView where
  splits := e.splits r
  totals := e.totals r
  denoms := e.denoms r
  knownDenom := e.knownDenom r

variable {e : Economic} {r other : Bytes32}

/-- A split table is seen by no other repository. -/
theorem view_setSplits (hne : other ≠ r) (splits : List Split) :
    (e.setSplits r splits).view other = e.view other := by
  simp only [view, setSplits, Function.update_of_ne hne]

/-- A sponsored total is seen by no other repository. -/
theorem view_withTotal {keccak : Keccak} (hne : other ≠ r) (denom : Bytes) (amount : Nat) :
    (e.withTotal keccak r denom amount).view other = e.view other := by
  unfold withTotal withDenom
  split
  · simp only [view, Function.update_of_ne hne]
  · simp only [view, Function.update_of_ne hne]

end Economic

/-! ## The badge module -/

namespace Badges

/-- The badges of `r`, in the order they were given. -/
def view (b : Badges) (r : Bytes32) : List Badge := (b.repoBadgeIds r).map b.badges

variable {b : Badges} {other : Bytes32}

/-- A new badge is seen by its own repository alone. -/
theorem view_awarded {badge : Badge} (h : b.Filed) (hid : badge.id = b.nextBadgeId)
    (hne : other ≠ badge.repoId) : (b.awarded badge).view other = b.view other := by
  have hlist : (b.awarded badge).repoBadgeIds other = b.repoBadgeIds other :=
    Function.update_of_ne hne _ _
  rw [view, hlist]
  refine List.map_congr_left fun id hin => Function.update_of_ne ?_ _ _
  have hlt := h.lt_next id (h.by_repository.only id other hin).1
  omega

end Badges

/-! ## The suite -/

/-- The view of `r`. -/
def Suite.view (s : Suite) (r : Bytes32) : RepositoryView where
  core := s.core.view r
  recovery := s.recovery.view r
  moderation := s.moderation.view r
  economic := s.economic.view r
  badges := s.badges.view r

end Igit
