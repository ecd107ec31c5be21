import Igit.Specs.Stores

/-!
# The functions of the moderation module

What a successful call of the moderation module found and what it leaves behind. Every decision is
recorded three times, in the report, in its trail and in the status trail of the repository, and
touches the repository in the core.
-/

namespace Igit

open Fallible

namespace Moderation

variable (m : Moderation)

/-- The moderation state after `submitReport`. -/
def submitted (repoId : Bytes32) (sender : Address) (reasonHash : Bytes) (now : Nat) : Moderation :=
  { m.recordReport m.nextReportId
      ⟨m.nextReportId, repoId, sender, .opened, .active, reasonHash, now, now, true⟩
      ⟨.submitted, sender, .active, reasonHash, now⟩ with
    nextReportId := m.nextReportId + 1
    repoReportIds := Function.update m.repoReportIds repoId
      (m.repoReportIds repoId ++ [m.nextReportId]) }

/-- The moderation state after the committee's decision on a report. -/
def decided (next : ReportStatus) (action : TrailAction) (reportId : Nat) (sender : Address)
    (status : RepoStatus) (reasonHash : Bytes) (now : Nat) : Moderation :=
  let recorded := m.recordReport reportId
    { m.reports reportId with status := next, resolution := status, updatedAt := now }
    ⟨action, sender, status, reasonHash, now⟩
  ({ recorded with
    resolutionHashes := Function.update recorded.resolutionHashes reportId reasonHash
  } : Moderation).recordStatus (m.reports reportId).repoId ⟨status, sender, reasonHash, now, reportId⟩

/-- The moderation state after `appealReport`. -/
def appealed (reportId : Nat) (sender : Address) (reasonHash : Bytes) (now : Nat) : Moderation :=
  let recorded := m.recordReport reportId
    { m.reports reportId with status := .appealed, updatedAt := now }
    ⟨.appealed, sender, (m.reports reportId).resolution, reasonHash, now⟩
  { recorded with appealHashes := Function.update recorded.appealHashes reportId reasonHash }

end Moderation

namespace Suite

variable {d : Deployment} {s s' : Suite} {msg : Message} {repoId : Bytes32}

/-- The suite with a repository marked as updated. -/
def touched (s : Suite) (repoId : Bytes32) (now : Nat) : Suite :=
  s.setCore (s.core.setRepository repoId { s.core.repositories repoId with updatedAt := now })

theorem returns_onlyActiveSuite {P : Unit → Prop} :
    Returns s.onlyActiveSuite P ↔ (s.IsActive → P ()) := by
  simp only [Returns, onlyActiveSuite_eq_ok]
  exact ⟨fun h => h (), fun h _ => h⟩

/-- What is proved after `requireRepository` may assume that the repository is there. -/
theorem returns_requireRepository {P : Repository → Prop} :
    Returns (s.requireRepository repoId) P ↔
      ((s.core.repositories repoId).present = true → P (s.core.repositories repoId)) := by
  simp [Returns]

theorem returns_now64 {P : Nat → Prop} :
    Returns (now64 msg) P ↔ (msg.timestamp ≤ uint64Max → P msg.timestamp) := by
  simp [Returns]

/-- What `updateMetadata` finds and leaves. -/
theorem updateMetadata_ok {setDescription setBranch : Bool} {description branch : Bytes} :
    Returns (s.updateMetadata msg repoId setDescription description setBranch branch) fun s' =>
      s.IsActive ∧ (s.core.repositories repoId).present = true ∧
        s' = s.setCore (s.core.setRepository repoId { s.core.repositories repoId with
          description := if setDescription then description
            else (s.core.repositories repoId).description
          defaultBranch := if setBranch then branch
            else (s.core.repositories repoId).defaultBranch
          updatedAt := msg.timestamp }) := by
  simp +contextual [updateMetadata, returns_onlyActiveSuite, returns_requireRepository,
    returns_now64]

/-- A touched repository is marked as updated, and that is all. -/
theorem touchRepository_ok :
    Returns (s.touchRepository d msg repoId) fun s' => s' = s.touched repoId msg.timestamp := by
  simp only [touchRepository, returns_bind]
  exact returns_true.mono fun _ _ => updateMetadata_ok.mono fun _ h => h.2.2

theorem setCommittee_ok {newCommittee : Address}
    (h : s.setCommittee d msg newCommittee = .ok s') :
    newCommittee ≠ 0 ∧
      s' = s.setModeration { s.moderation with committee := newCommittee } := by
  simp only [setCommittee, bind_eq_ok, revertIf_eq_ok, exists_unit, pure_eq_ok] at h
  obtain ⟨_, -, hzero, rfl⟩ := h
  exact ⟨hzero, rfl⟩

/-- `setRepositoryStatus` is the committee's, and adds to the status trail of the repository. -/
theorem setRepositoryStatus_ok {status : RepoStatus} {reasonHash : Bytes}
    (h : s.setRepositoryStatus d msg repoId status reasonHash = .ok s') :
    msg.sender = s.moderation.committee ∧ (s.core.repositories repoId).present = true ∧
      s' = (s.setModeration (s.moderation.recordStatus repoId
        ⟨status, msg.sender, reasonHash, msg.timestamp, 0⟩)).touched repoId msg.timestamp := by
  simp only [setRepositoryStatus, onlyCommittee, validateOptionalReason, bind_eq_ok,
    onlyActiveSuite_eq_ok, revertIf_eq_ok, repository_eq_ok, now64_eq_ok, exists_unit, not_not] at h
  obtain ⟨-, hsender, _, ⟨-, hpresent, rfl⟩, -, _, ⟨-, rfl⟩, htouch⟩ := h
  exact ⟨hsender, hpresent, touchRepository_ok _ htouch⟩

/-- `submitReport` files a report under the next number. -/
theorem submitReport_ok {reasonHash : Bytes} {submitted : Suite × Nat}
    (h : s.submitReport msg repoId reasonHash = .ok submitted) :
    (s.core.repositories repoId).present = true ∧ ValidReason reasonHash ∧
      submitted = (s.setModeration (s.moderation.submitted repoId msg.sender reasonHash msg.timestamp),
        s.moderation.nextReportId) := by
  simp only [submitReport, bind_eq_ok, onlyActiveSuite_eq_ok, revertIf_eq_ok, repository_eq_ok,
    validateReason_eq_ok, now64_eq_ok, exists_unit, pure_eq_ok] at h
  obtain ⟨-, _, ⟨-, hpresent, rfl⟩, hreason, -, _, ⟨-, rfl⟩, rfl⟩ := h
  exact ⟨hpresent, hreason, rfl⟩

/-- `resolveReport` and `resolveAppeal` are the committee's, take a report in the status they expect
and set the status of its repository. -/
theorem decideReport_ok {expected next : ReportStatus} {action : TrailAction} {reportId : Nat}
    {status : RepoStatus} {reasonHash : Bytes}
    (h : s.decideReport d msg expected next action reportId status reasonHash = .ok s') :
    msg.sender = s.moderation.committee ∧ (s.moderation.reports reportId).present = true ∧
      (s.moderation.reports reportId).status = expected ∧ ValidReason reasonHash ∧
      s' = (s.setModeration (s.moderation.decided next action reportId msg.sender status reasonHash
        msg.timestamp)).touched (s.moderation.reports reportId).repoId msg.timestamp := by
  simp only [decideReport, onlyCommittee, requireReport, bind_eq_ok, onlyActiveSuite_eq_ok,
    revertIf_eq_ok, validateReason_eq_ok, now64_eq_ok, exists_unit, pure_eq_ok, not_not,
    Bool.not_eq_false] at h
  obtain ⟨-, hsender, _, ⟨hpresent, rfl⟩, hstatus, hreason, _, ⟨-, rfl⟩, htouch⟩ := h
  exact ⟨hsender, hpresent, hstatus, hreason, touchRepository_ok _ htouch⟩

/-- `appealReport` takes a resolved report and is for the owner of its repository. -/
theorem appealReport_ok {reportId : Nat} {reasonHash : Bytes}
    (h : s.appealReport d msg reportId reasonHash = .ok s') :
    (s.moderation.reports reportId).present = true ∧
      (s.moderation.reports reportId).status = .resolved ∧
      (s.core.repositories (s.moderation.reports reportId).repoId).present = true ∧
      msg.sender = (s.core.repositories (s.moderation.reports reportId).repoId).owner ∧
      ValidReason reasonHash ∧
      s' = (s.setModeration (s.moderation.appealed reportId msg.sender reasonHash
        msg.timestamp)).touched (s.moderation.reports reportId).repoId msg.timestamp := by
  simp only [appealReport, requireReport, bind_eq_ok, onlyActiveSuite_eq_ok, revertIf_eq_ok,
    repository_eq_ok, validateReason_eq_ok, now64_eq_ok, exists_unit, pure_eq_ok, not_not,
    Bool.not_eq_false] at h
  obtain ⟨-, _, ⟨hpresent, rfl⟩, hstatus, _, ⟨-, hknown, rfl⟩, hsender, hreason, _, ⟨-, rfl⟩,
    htouch⟩ := h
  exact ⟨hpresent, hstatus, hknown, hsender, hreason, touchRepository_ok _ htouch⟩

end Suite

end Igit
