import Igit.Contracts.RepositoryCore

/-!
# ModerationModule

`contracts/evm-v2/src/modules/ModerationModule.sol`. The policy checks other modules call are in
`Contracts.Hooks`.
-/

namespace Igit

open Fallible

def maxReasonHashLength : Nat := 128
def maxQueryPageSize : Nat := 64

/-- `_validateOptionalReason`. -/
def validateOptionalReason (reasonHash : Bytes) : Except Revert Unit :=
  revertIf (reasonHash.length > maxReasonHashLength) (.invalidReasonHash reasonHash)

/-- `_validateReason`. -/
def validateReason (reasonHash : Bytes) : Except Revert Unit :=
  revertIf (reasonHash.length = 0 ∨ reasonHash.length > maxReasonHashLength)
    (.invalidReasonHash reasonHash)

namespace Moderation

variable (m : Moderation)

/-- Set the status of a repository and append to its status trail. -/
def recordStatus (repoId : Bytes32) (entry : StatusTrailEntry) : Moderation :=
  { m with
    statuses := Function.update m.statuses repoId entry.status
    statusTrails := Function.update m.statusTrails repoId (m.statusTrails repoId ++ [entry]) }

/-- Replace a report and append to its trail. -/
def recordReport (reportId : Nat) (report : Report) (entry : TrailEntry) : Moderation :=
  { m with
    reports := Function.update m.reports reportId report
    trails := Function.update m.trails reportId (m.trails reportId ++ [entry]) }

end Moderation

namespace Suite

variable (d : Deployment) (s : Suite)

/-- Replace the storage of the moderation module. -/
def setModeration (moderation : Moderation) : Suite := { s with moderation := moderation }

/-- The modifier `onlyCommittee`. -/
def onlyCommittee (msg : Message) : Except Revert Unit :=
  revertIf (msg.sender ≠ s.moderation.committee) (.unauthorized msg.sender)

/-- `_report`. -/
def requireReport (reportId : Nat) : Except Revert Report := do
  revertIf ((s.moderation.reports reportId).present = false) (.reportNotFound reportId)
  pure (s.moderation.reports reportId)

/-- `_touchRepository`: the moderation module calls `updateMetadata` as itself. -/
def touchRepository (msg : Message) (repoId : Bytes32) : Except Revert Suite := do
  let _core ← s.requireModule .core
  s.updateMetadata ⟨d.moduleAt .moderation, msg.timestamp⟩ repoId false [] false []

/-- `setCommittee`. -/
def setCommittee (msg : Message) (newCommittee : Address) : Except Revert Suite := do
  s.onlyActiveSuite
  revertIf (msg.sender ≠ d.moderationAdmin) (.unauthorized msg.sender)
  revertIf (newCommittee = 0) .invalidCommittee
  pure (s.setModeration { s.moderation with committee := newCommittee })

/-- `setRepositoryStatus`. -/
def setRepositoryStatus (msg : Message) (repoId : Bytes32) (status : RepoStatus)
    (reasonHash : Bytes) : Except Revert Suite := do
  s.onlyActiveSuite
  s.onlyCommittee msg
  let _repository ← s.repository repoId
  validateOptionalReason reasonHash
  let now ← now64 msg
  let recorded := s.setModeration
    (s.moderation.recordStatus repoId ⟨status, msg.sender, reasonHash, now, 0⟩)
  recorded.touchRepository d msg repoId

/-- `submitReport`. -/
def submitReport (msg : Message) (repoId : Bytes32) (reasonHash : Bytes) :
    Except Revert (Suite × Nat) := do
  s.onlyActiveSuite
  let _repository ← s.repository repoId
  validateReason reasonHash
  let reportId := s.moderation.nextReportId
  revertIf (reportId ≥ uint256Max) (.panic 0x11)
  let now ← now64 msg
  let recorded := s.moderation.recordReport reportId
    ⟨reportId, repoId, msg.sender, .opened, .active, reasonHash, now, now, true⟩
    ⟨.submitted, msg.sender, .active, reasonHash, now⟩
  pure (s.setModeration { recorded with
    nextReportId := reportId + 1
    repoReportIds := Function.update recorded.repoReportIds repoId
      (recorded.repoReportIds repoId ++ [reportId]) }, reportId)

/-- The committee's decision on a report, shared by `resolveReport` and `resolveAppeal`: the
report must be in state `expected` and moves to `next`, and the decision becomes the status of
the repository. -/
def decideReport (msg : Message) (expected next : ReportStatus) (action : TrailAction)
    (reportId : Nat) (status : RepoStatus) (reasonHash : Bytes) : Except Revert Suite := do
  s.onlyActiveSuite
  s.onlyCommittee msg
  let report ← s.requireReport reportId
  revertIf (report.status ≠ expected) (.invalidReportState reportId expected report.status)
  validateReason reasonHash
  let now ← now64 msg
  let recorded := s.moderation.recordReport reportId
    { report with status := next, resolution := status, updatedAt := now }
    ⟨action, msg.sender, status, reasonHash, now⟩
  let decided := { recorded with
    resolutionHashes := Function.update recorded.resolutionHashes reportId reasonHash }
  let published := s.setModeration
    (decided.recordStatus report.repoId ⟨status, msg.sender, reasonHash, now, reportId⟩)
  published.touchRepository d msg report.repoId

/-- `resolveReport`. -/
def resolveReport (msg : Message) (reportId : Nat) (status : RepoStatus) (reasonHash : Bytes) :
    Except Revert Suite :=
  s.decideReport d msg .opened .resolved .resolved reportId status reasonHash

/-- `appealReport`. -/
def appealReport (msg : Message) (reportId : Nat) (reasonHash : Bytes) : Except Revert Suite := do
  s.onlyActiveSuite
  let report ← s.requireReport reportId
  revertIf (report.status ≠ .resolved) (.invalidReportState reportId .resolved report.status)
  let repository ← s.repository report.repoId
  revertIf (msg.sender ≠ repository.owner) (.unauthorized msg.sender)
  validateReason reasonHash
  let now ← now64 msg
  let recorded := s.moderation.recordReport reportId
    { report with status := .appealed, updatedAt := now }
    ⟨.appealed, msg.sender, report.resolution, reasonHash, now⟩
  let appealed := s.setModeration { recorded with
    appealHashes := Function.update recorded.appealHashes reportId reasonHash }
  appealed.touchRepository d msg report.repoId

/-- `resolveAppeal`. -/
def resolveAppeal (msg : Message) (reportId : Nat) (status : RepoStatus) (reasonHash : Bytes) :
    Except Revert Suite :=
  s.decideReport d msg .appealed .appealResolved .appealResolved reportId status reasonHash

/-! ## Queries -/

/-- `getReport`. -/
def getReport (reportId : Nat) : Except Revert Report := s.requireReport reportId

/-- `reportCommitments`: the reason of the report and the hashes of its decision and appeal. -/
def reportCommitments (reportId : Nat) : Except Revert (Bytes × Bytes × Bytes) := do
  let report ← s.requireReport reportId
  pure (report.reasonHash, s.moderation.resolutionHashes reportId,
    s.moderation.appealHashes reportId)

/-- `_page`: the end of a page that starts at `cursor`. -/
def pageEnd (cursor limit total : Nat) : Except Revert Nat := do
  revertIf (limit = 0 ∨ limit > maxQueryPageSize) (.invalidPageSize limit maxQueryPageSize)
  revertIf (cursor > total) (.invalidCursor cursor total)
  let stop ← checkedAdd cursor limit
  pure (if stop > total then total else stop)

/-- `listReportTrailPage`. -/
def listReportTrailPage (reportId cursor limit : Nat) : Except Revert (List TrailEntry × Nat) := do
  let _report ← s.requireReport reportId
  let source := s.moderation.trails reportId
  let stop ← pageEnd cursor limit source.length
  pure ((source.drop cursor).take (stop - cursor), stop)

/-! ## Import -/

/-- One record of import kind 0. -/
def storeStatus (imported : ImportStatus) : Except Revert Suite := do
  let _repository ← s.repository imported.repoId
  revertIf (s.moderation.importedStatuses imported.repoId = true) .invalidImportRecord
  pure (s.setModeration { s.moderation with
    importedStatuses := Function.update s.moderation.importedStatuses imported.repoId true
    statuses := Function.update s.moderation.statuses imported.repoId imported.status })

/-- The trail actions of a report, in order. -/
def expectedAction : Nat → TrailAction
  | 1 => .resolved
  | 2 => .appealed
  | 3 => .appealResolved
  | _ => .submitted

/-- The number of trail entries of a report in each status. -/
def expectedTrailLength : ReportStatus → Nat
  | .opened => 1
  | .resolved => 2
  | .appealed => 3
  | .appealResolved => 4

/-- What the trail loop of `_storeImportedReport` carries: the next index, the hashes met so far
and the last timestamp. -/
structure TrailScan where
  index : Nat
  resolutionHash : Bytes
  appealHash : Bytes
  previousTimestamp : Nat

/-- One round of the trail loop of `_storeImportedReport`. -/
def scanTrailEntry (report : Report) (scan : TrailScan) (entry : TrailEntry) :
    Except Revert TrailScan := do
  revertIf (entry.actor = 0 ∨ entry.timestamp = 0 ∨ entry.timestamp < scan.previousTimestamp ∨
    entry.action = .statusSet) .invalidImportRecord
  validateReason entry.reasonHash
  revertIf (entry.action ≠ expectedAction scan.index) .invalidImportRecord
  if scan.index = 0 then
    revertIf (entry.action ≠ .submitted ∨ entry.actor ≠ report.reporter ∨
      entry.status ≠ .active ∨ entry.timestamp ≠ report.createdAt) .invalidImportRecord
    revertIf (d.keccak.ofBytes entry.reasonHash ≠ d.keccak.ofBytes report.reasonHash)
      .invalidImportRecord
  pure
    { index := scan.index + 1
      resolutionHash := if entry.action = .resolved ∨ entry.action = .appealResolved
        then entry.reasonHash else scan.resolutionHash
      appealHash := if entry.action = .appealed then entry.reasonHash else scan.appealHash
      previousTimestamp := entry.timestamp }

/-- `_storeImportedReport`. -/
def storeImportedReport (imported : ImportReport) : Except Revert Suite := do
  let report := imported.report
  revertIf (report.id = 0 ∨ report.id ≥ uint64Max ∨ report.present = false ∨
    (s.moderation.reports report.id).present = true ∨ report.repoId = 0 ∨ report.reporter = 0 ∨
    report.createdAt = 0 ∨ report.updatedAt < report.createdAt ∨ imported.trail.length = 0)
    .invalidImportRecord
  let _repository ← s.repository report.repoId
  validateReason report.reasonHash
  revertIf (report.status = .opened ∧ report.resolution ≠ .active) .invalidImportRecord
  revertIf (imported.trail.length ≠ expectedTrailLength report.status) .invalidImportRecord
  let scan ← imported.trail.foldlM (scanTrailEntry d report) ⟨0, [], [], 0⟩
  revertIf (imported.trail.getLast?.map TrailEntry.status ≠ some report.resolution)
    .invalidImportRecord
  let statusAt := fun i => (imported.trail[i]?).map TrailEntry.status
  if report.status = .appealResolved then
    revertIf (statusAt 2 ≠ statusAt 1) .invalidImportRecord
  else
    revertIf (report.status ≠ .opened ∧ statusAt 1 ≠ some report.resolution) .invalidImportRecord
  revertIf (report.updatedAt ≠ scan.previousTimestamp) .invalidImportRecord
  let m := s.moderation
  pure (s.setModeration { m with
    reports := Function.update m.reports report.id report
    repoReportIds := Function.update m.repoReportIds report.repoId
      (m.repoReportIds report.repoId ++ [report.id])
    trails := Function.update m.trails report.id (m.trails report.id ++ imported.trail)
    resolutionHashes := Function.update m.resolutionHashes report.id scan.resolutionHash
    appealHashes := Function.update m.appealHashes report.id scan.appealHash
    nextReportId := if report.id ≥ m.nextReportId then report.id + 1 else m.nextReportId })

/-- One round of the loop of `_storeImportedStatusTrail`, over the last timestamp. -/
def checkStatusTrailEntry (repoId : Bytes32) (previousTimestamp : Nat) (entry : StatusTrailEntry) :
    Except Revert Nat := do
  revertIf (entry.actor = 0 ∨ entry.timestamp = 0 ∨ entry.timestamp < previousTimestamp)
    .invalidImportRecord
  validateOptionalReason entry.reasonHash
  let report := s.moderation.reports entry.reportId
  revertIf (entry.reportId ≠ 0 ∧ (report.present = false ∨ report.repoId ≠ repoId))
    .invalidImportRecord
  pure entry.timestamp

/-- `_storeImportedStatusTrail`. -/
def storeImportedStatusTrail (imported : ImportStatusTrail) : Except Revert Suite := do
  let _repository ← s.repository imported.repoId
  revertIf (s.moderation.importedStatuses imported.repoId = false ∨ imported.trail.length = 0 ∨
    (s.moderation.statusTrails imported.repoId).length ≠ 0) .invalidImportRecord
  let _last ← imported.trail.foldlM (s.checkStatusTrailEntry imported.repoId) 0
  revertIf (imported.trail.getLast?.map StatusTrailEntry.status ≠
    some (s.moderation.statuses imported.repoId)) .invalidImportRecord
  pure (s.setModeration { s.moderation with
    statusTrails := Function.update s.moderation.statusTrails imported.repoId
      (s.moderation.statusTrails imported.repoId ++ imported.trail) })

end Suite

end Igit
