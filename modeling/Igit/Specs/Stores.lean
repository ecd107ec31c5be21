import Igit.Specs.Recovery

/-!
# Storing one imported record

When a record can be stored, and what it leaves behind. The checks of the fourteen store functions
are of two sorts: `ImportRecord.WellFormed` is about the record alone, `Suite.Fits` about its place
among the records already there. `Suite.stored` is the result, which depends on the storage of the
record's own module only. `storeRecord_eq_ok` ties the three to the code.
-/

namespace Igit

open Fallible

/-! ## Records on their own -/

/-- A repository record that passes the checks of `_storeRepository` on its own fields. -/
structure ImportRepository.WellFormed (record : ImportRepository) : Prop where
  id_ne_zero : record.id ≠ 0
  owner_ne_zero : record.owner ≠ 0
  createdAt_ne_zero : record.createdAt ≠ 0
  createdAt_le : record.createdAt ≤ record.updatedAt
  name_valid : validRepositoryName record.name = true
  description_le : record.description.length ≤ maxDescriptionLength
  defaultBranch_le : record.defaultBranch.length ≤ maxNameLength

/-- An alias with a valid name and an owner. -/
structure ImportAlias.WellFormed (record : ImportAlias) : Prop where
  name_valid : validRepositoryName record.name = true
  owner_ne_zero : record.owner ≠ 0

/-- A ref record that passes the checks of `_storeImportedRef` on its own fields. -/
structure ImportRef.WellFormed (record : ImportRef) : Prop where
  name_valid : validRefName record.refName = true
  commit_valid : validCommitSha record.commitSha = true
  packs_ne_zero : record.packUris.length ≠ 0
  packs_le : record.packUris.length ≤ maxPackUris
  updatedAt_ne_zero : record.updatedAt ≠ 0
  updatedBy_ne_zero : record.updatedBy ≠ 0
  packs_valid : ∀ uri ∈ record.packUris, validPackUri uri = true

/-- A reason hash `_validateReason` accepts. -/
def ValidReason (reasonHash : Bytes) : Prop :=
  reasonHash.length ≠ 0 ∧ reasonHash.length ≤ maxReasonHashLength

/-- The trail loop of `_storeImportedReport` without its checks. -/
def Suite.TrailScan.advance (scan : Suite.TrailScan) (entry : TrailEntry) : Suite.TrailScan :=
  { index := scan.index + 1
    resolutionHash := if entry.action = .resolved ∨ entry.action = .appealResolved
      then entry.reasonHash else scan.resolutionHash
    appealHash := if entry.action = .appealed then entry.reasonHash else scan.appealHash
    previousTimestamp := entry.timestamp }

/-- The checks of the trail loop at one entry. -/
structure Report.Accepts (report : Report) (scan : Suite.TrailScan) (entry : TrailEntry) : Prop where
  actor_ne_zero : entry.actor ≠ 0
  timestamp_ne_zero : entry.timestamp ≠ 0
  ordered : scan.previousTimestamp ≤ entry.timestamp
  not_statusSet : entry.action ≠ .statusSet
  reason_valid : ValidReason entry.reasonHash
  action : entry.action = Suite.expectedAction scan.index
  submission : scan.index = 0 → entry.action = .submitted ∧ entry.actor = report.reporter ∧
    entry.status = .active ∧ entry.timestamp = report.createdAt ∧
    entry.reasonHash = report.reasonHash

/-- What the trail loop has found at the end of a trail. -/
def scanned (trail : List TrailEntry) : Suite.TrailScan :=
  trail.foldl Suite.TrailScan.advance ⟨0, [], [], 0⟩

/-- The status at a position of a trail. -/
def statusAt (trail : List TrailEntry) (i : Nat) : Option RepoStatus :=
  (trail[i]?).map TrailEntry.status

/-- A report that passes the checks of `_storeImportedReport` on its own fields and trail. -/
structure ImportReport.WellFormed (record : ImportReport) : Prop where
  id_ne_zero : record.report.id ≠ 0
  id_lt : record.report.id < uint64Max
  present : record.report.present = true
  repoId_ne_zero : record.report.repoId ≠ 0
  reporter_ne_zero : record.report.reporter ≠ 0
  createdAt_ne_zero : record.report.createdAt ≠ 0
  createdAt_le : record.report.createdAt ≤ record.report.updatedAt
  reason_valid : ValidReason record.report.reasonHash
  opened : record.report.status = .opened → record.report.resolution = .active
  trail_length : record.trail.length = Suite.expectedTrailLength record.report.status
  trail : Along record.report.Accepts Suite.TrailScan.advance ⟨0, [], [], 0⟩ record.trail
  last : record.trail.getLast?.map TrailEntry.status = some record.report.resolution
  appeal : record.report.status = .appealResolved → statusAt record.trail 2 = statusAt record.trail 1
  decision : record.report.status ≠ .appealResolved → record.report.status ≠ .opened →
    statusAt record.trail 1 = some record.report.resolution
  updatedAt : record.report.updatedAt = (scanned record.trail).previousTimestamp

/-- The checks of `_storeImportedStatusTrail` at one entry that do not look at reports. -/
structure StatusTrailEntry.Follows (previousTimestamp : Nat) (entry : StatusTrailEntry) : Prop where
  actor_ne_zero : entry.actor ≠ 0
  timestamp_ne_zero : entry.timestamp ≠ 0
  ordered : previousTimestamp ≤ entry.timestamp
  reason_le : entry.reasonHash.length ≤ maxReasonHashLength

/-- A status trail with entries, in order of time. -/
structure ImportStatusTrail.WellFormed (record : ImportStatusTrail) : Prop where
  trail_ne_nil : record.trail.length ≠ 0
  trail : Along StatusTrailEntry.Follows (fun _ entry => entry.timestamp) 0 record.trail

/-- The bps of a split table together. -/
def bpsTotal (splits : List Split) : Nat := (splits.map Split.bps).sum

/-- A split table that can be stored for a repository of `owner`. -/
structure ValidSplits (owner : Address) (splits : List Split) : Prop where
  length_le : splits.length ≤ maxSplitRecipients
  recipient_ne_zero : ∀ split ∈ splits, split.recipient ≠ 0
  recipient_ne_owner : ∀ split ∈ splits, split.recipient ≠ owner
  bps_ne_zero : ∀ split ∈ splits, split.bps ≠ 0
  nodup : (splits.map Split.recipient).Nodup
  total_le : bpsTotal splits ≤ bpsDenominator

/-- A total with an amount and a denom. -/
structure ImportTotal.WellFormed (record : ImportTotal) : Prop where
  amount_ne_zero : record.amount ≠ 0
  amount_le : record.amount ≤ uint256Max
  denom_ne_nil : record.denom.length ≠ 0
  denom_le : record.denom.length ≤ maxDenomLength

/-- A badge that passes the checks of its import on its own fields. -/
structure Badge.WellFormed (badge : Badge) : Prop where
  id_ne_zero : badge.id ≠ 0
  present : badge.present = true
  recipient_ne_zero : badge.recipient ≠ 0
  awardedBy_ne_zero : badge.awardedBy ≠ 0
  id_ne_max : badge.id ≠ uint256Max
  awardedAt_ne_zero : badge.awardedAt ≠ 0
  recipient_ne : badge.recipient ≠ badge.awardedBy
  reason_ne_nil : badge.reason.length ≠ 0
  reason_le : badge.reason.length ≤ maxBadgeReasonLength

/-- A token of a release, such as its version. -/
def ValidToken (value : Bytes) (maximum : Nat) : Prop :=
  value.length ≠ 0 ∧ value.length ≤ maximum ∧ value.all isTokenByte = true

/-- An artifact that passes the checks of its import on its own fields. -/
structure Artifact.WellFormed (artifact : Artifact) : Prop where
  present : artifact.present = true
  digest_ne_zero : artifact.sha256 ≠ 0
  registeredBy_ne_zero : artifact.registeredBy ≠ 0
  registeredAt_ne_zero : artifact.registeredAt ≠ 0
  version_valid : ValidToken artifact.version maxVersionLength
  platform_valid : ValidToken artifact.platform maxPlatformLength

/-- A record passes the checks on its own fields. -/
def ImportRecord.WellFormed : ImportRecord → Prop
  | .repository record => record.WellFormed
  | .repositoryAlias record => record.WellFormed
  | .ref record => record.WellFormed
  | .collaborator record => record.account ≠ 0 ∧ record.role ≠ .none
  | .guardianConfig record =>
      Recovery.ValidGuardians record.configuredBy record.guardians record.threshold
  | .status _ => True
  | .report record => record.WellFormed
  | .statusTrail record => record.WellFormed
  | .splits _ => True
  | .total record => record.WellFormed
  | .originalOwner record => validUsername record.name = true ∧ record.owner ≠ 0
  | .reservedName name => validUsername name = true
  | .badge record => record.WellFormed
  | .artifact record => record.WellFormed

/-! ## Storage after a record -/

/-- The core after `_storeImportedRef`. -/
def Core.withImportedRef (keccak : Keccak) (c : Core) (record : ImportRef) : Core :=
  (c.putRef record.repoId (keccak.ofBytes record.refName)
    ⟨record.commitSha, record.packUris, record.updatedAt, record.updatedBy, true⟩).setRefNames
    record.repoId (c.refNames record.repoId ++ [record.refName])

/-- The core after `_storeImportedCollaborator`. -/
def Core.withImportedCollaborator (c : Core) (record : ImportCollaborator) : Core :=
  (c.setRole record.repoId record.account record.role).pushCollaborator record.repoId record.account

/-- The moderation state after a status record. -/
def Moderation.withStatus (m : Moderation) (record : ImportStatus) : Moderation :=
  { m with
    importedStatuses := Function.update m.importedStatuses record.repoId true
    statuses := Function.update m.statuses record.repoId record.status }

/-- The moderation state after `_storeImportedReport`. -/
def Moderation.withReport (m : Moderation) (record : ImportReport) : Moderation :=
  { m with
    reports := Function.update m.reports record.report.id record.report
    repoReportIds := Function.update m.repoReportIds record.report.repoId
      (m.repoReportIds record.report.repoId ++ [record.report.id])
    trails := Function.update m.trails record.report.id (m.trails record.report.id ++ record.trail)
    resolutionHashes := Function.update m.resolutionHashes record.report.id
      (scanned record.trail).resolutionHash
    appealHashes := Function.update m.appealHashes record.report.id (scanned record.trail).appealHash
    nextReportId := if record.report.id ≥ m.nextReportId then record.report.id + 1
      else m.nextReportId }

/-- The moderation state after `_storeImportedStatusTrail`. -/
def Moderation.withStatusTrail (m : Moderation) (record : ImportStatusTrail) : Moderation :=
  { m with
    statusTrails := Function.update m.statusTrails record.repoId
      (m.statusTrails record.repoId ++ record.trail) }

/-- The economic state after `_importSplits`. -/
def Economic.withSplits (e : Economic) (record : ImportSplits) : Economic :=
  { e with
    importedSplits := Function.update e.importedSplits record.repoId true
    splits := Function.update e.splits record.repoId (e.splits record.repoId ++ record.splits) }

/-- The economic state with a denom listed. -/
def Economic.withDenom (keccak : Keccak) (e : Economic) (repoId : Bytes32) (denom : Bytes) :
    Economic :=
  if e.knownDenom repoId (keccak.ofBytes denom) then e else
    { e with
      knownDenom := Function.update e.knownDenom repoId
        (Function.update (e.knownDenom repoId) (keccak.ofBytes denom) true)
      denoms := Function.update e.denoms repoId (e.denoms repoId ++ [denom]) }

/-- The economic state after `_addTotal`. -/
def Economic.withTotal (keccak : Keccak) (e : Economic) (repoId : Bytes32) (denom : Bytes)
    (amount : Nat) : Economic :=
  { e.withDenom keccak repoId denom with
    totals := Function.update e.totals repoId (Function.update (e.totals repoId)
      (keccak.ofBytes denom) (e.totals repoId (keccak.ofBytes denom) + amount)) }

/-- The username state after an original owner. -/
def Username.withOriginalOwner (keccak : Keccak) (u : Username) (record : ImportOriginalOwner) :
    Username :=
  { u with
    snapshotOriginalOwner :=
      Function.update u.snapshotOriginalOwner (keccak.ofBytes record.name) record.owner }

/-- The username state after a reserved name. -/
def Username.withReserved (keccak : Keccak) (u : Username) (name : Bytes) : Username :=
  { u with
    reserved := Function.update u.reserved (keccak.ofBytes name) true
    reservedUsernameCount := u.reservedUsernameCount + 1 }

/-- The badge state after an imported badge. -/
def Badges.withBadge (b : Badges) (badge : Badge) : Badges where
  nextBadgeId := if badge.id ≥ b.nextBadgeId then badge.id + 1 else b.nextBadgeId
  badges := Function.update b.badges badge.id badge
  recipientBadgeIds := Function.update b.recipientBadgeIds badge.recipient
    (b.recipientBadgeIds badge.recipient ++ [badge.id])
  repoBadgeIds := Function.update b.repoBadgeIds badge.repoId (b.repoBadgeIds badge.repoId ++ [badge.id])

/-- The release state after an artifact. -/
def Releases.withArtifact (keccak : Keccak) (r : Releases) (artifact : Artifact) : Releases where
  artifacts := Function.update r.artifacts
    (artifactKey keccak artifact.version artifact.platform) artifact
  platformsByVersion := Function.update r.platformsByVersion (keccak.ofBytes artifact.version)
    (r.platformsByVersion (keccak.ofBytes artifact.version) ++ [artifact.platform])

/-- Artifacts have a place of their own for each version and platform. -/
theorem Releases.artifactKey_inj {keccak : Keccak} {version version' platform platform' : Bytes} :
    artifactKey keccak version platform = artifactKey keccak version' platform' ↔
      version = version' ∧ platform = platform' := by
  constructor
  · intro h
    have hsame := keccak.injective (p := .artifact version platform)
      (q := .artifact version' platform') rfl h
    exact Preimage.artifact.inj hsame
  · rintro ⟨rfl, rfl⟩
    rfl

namespace Suite

/-- The suite after a record is stored. -/
def stored (keccak : Keccak) (s : Suite) : ImportRecord → Suite
  | .repository record =>
      s.setCore (s.core.putRepository (keccak.locator record.owner record.name) record)
  | .repositoryAlias record =>
      s.setCore (s.core.putLocator (keccak.locator record.owner record.name) record.repoId)
  | .ref record => s.setCore (s.core.withImportedRef keccak record)
  | .collaborator record => s.setCore (s.core.withImportedCollaborator record)
  | .guardianConfig record => s.setRecovery (s.recovery.configured record.repoId record.configuredBy
      record.guardians record.threshold)
  | .status record => s.setModeration (s.moderation.withStatus record)
  | .report record => s.setModeration (s.moderation.withReport record)
  | .statusTrail record => s.setModeration (s.moderation.withStatusTrail record)
  | .splits record => s.setEconomic (s.economic.withSplits record)
  | .total record =>
      s.setEconomic (s.economic.withTotal keccak record.repoId record.denom record.amount)
  | .originalOwner record => s.setUsername (s.username.withOriginalOwner keccak record)
  | .reservedName name => s.setUsername (s.username.withReserved keccak name)
  | .badge record => s.setBadges (s.badges.withBadge record)
  | .artifact record => s.setReleases (s.releases.withArtifact keccak record)

/-! ## A record among the others -/

/-- The modules find the repository in the core. -/
def Knows (s : Suite) (repoId : Bytes32) : Prop :=
  s.moduleAddress .core ≠ 0 ∧ (s.core.repositories repoId).present = true

/-- A locator is neither taken nor reserved. -/
def Vacant (s : Suite) (locator : Bytes32) : Prop :=
  s.core.locators locator = 0 ∧ s.core.reservedLocators locator = 0

/-- A record passes the checks against what is stored already. -/
def Fits (keccak : Keccak) (s : Suite) : ImportRecord → Prop
  | .repository record =>
      (record.forkedFrom ≠ 0 → (s.core.repositories record.forkedFrom).present = true) ∧
        (s.core.repositories record.id).present = false ∧
        s.Vacant (keccak.locator record.owner record.name)
  | .repositoryAlias record =>
      (s.core.repositories record.repoId).present = true ∧
        s.Vacant (keccak.locator record.owner record.name)
  | .ref record =>
      (s.core.repositories record.repoId).present = true ∧
        (s.core.refs record.repoId (keccak.ofBytes record.refName)).present = false ∧
        (s.core.refNames record.repoId).length < maxRefsPerRepo
  | .collaborator record =>
      (s.core.repositories record.repoId).present = true ∧
        record.account ≠ (s.core.repositories record.repoId).owner ∧
        s.core.roles record.repoId record.account = .none ∧
        (s.core.collaborators record.repoId).length < maxCollaboratorsPerRepo
  | .guardianConfig record =>
      s.Knows record.repoId ∧ (s.core.repositories record.repoId).owner = record.configuredBy ∧
        (s.recovery.configs record.repoId).threshold = 0 ∧
        s.recovery.Unflagged record.repoId record.guardians
  | .status record => s.Knows record.repoId ∧ s.moderation.importedStatuses record.repoId = false
  | .report record =>
      s.Knows record.report.repoId ∧ (s.moderation.reports record.report.id).present = false
  | .statusTrail record =>
      s.Knows record.repoId ∧ s.moderation.importedStatuses record.repoId = true ∧
        (s.moderation.statusTrails record.repoId).length = 0 ∧
        (∀ entry ∈ record.trail, entry.reportId ≠ 0 →
          (s.moderation.reports entry.reportId).present = true ∧
            (s.moderation.reports entry.reportId).repoId = record.repoId) ∧
        record.trail.getLast?.map StatusTrailEntry.status =
          some (s.moderation.statuses record.repoId)
  | .splits record =>
      s.Knows record.repoId ∧ s.economic.importedSplits record.repoId = false ∧
        ValidSplits (s.core.repositories record.repoId).owner record.splits
  | .total record =>
      s.Knows record.repoId ∧ s.economic.totals record.repoId (keccak.ofBytes record.denom) = 0
  | .originalOwner record => s.username.snapshotOriginalOwner (keccak.ofBytes record.name) = 0
  | .reservedName name =>
      s.username.reserved (keccak.ofBytes name) = false ∧
        s.username.reservedUsernameCount < maxReservedUsernames
  | .badge record => s.Knows record.repoId ∧ (s.badges.badges record.id).present = false
  | .artifact record =>
      (s.releases.artifacts (Releases.artifactKey keccak record.version record.platform)).present = false

end Suite

/-! ## The loops -/

/-- The check of a reason hash is its specification. -/
theorem validateReason_eq_ok {reasonHash : Bytes} {u : Unit} :
    validateReason reasonHash = .ok u ↔ ValidReason reasonHash := by
  simp only [validateReason, revertIf_eq_ok, not_or, ValidReason, gt_iff_lt, Nat.not_lt, ne_eq]

namespace Suite

variable {d : Deployment} {s s' : Suite}

/-- One round of the loop over the trail of a report accepts an entry that fits and moves on by it.
-/
theorem scanTrailEntry_eq_ok {report : Report} {scan scan' : TrailScan} {entry : TrailEntry} :
    scanTrailEntry d report scan entry = .ok scan' ↔
      report.Accepts scan entry ∧ scan' = scan.advance entry := by
  by_cases hzero : scan.index = 0
  · simp only [scanTrailEntry, hzero, if_true, bind_eq_ok, revertIf_eq_ok, exists_unit, pure_eq_ok,
      validateReason_eq_ok, not_or, not_not, Nat.not_lt, Keccak.ofBytes_inj]
    constructor
    · rintro ⟨⟨hactor, htimestamp, hordered, hset⟩, hreason, haction, ⟨hsubmitted, hreporter, hactive,
        hcreated⟩, hsame, rfl⟩
      refine ⟨⟨hactor, htimestamp, hordered, hset, hreason, hzero ▸ haction, fun _ => ?_⟩, ?_⟩
      · exact ⟨hsubmitted, hreporter, hactive, hcreated, hsame⟩
      · simp [TrailScan.advance, hzero]
    · rintro ⟨⟨hactor, htimestamp, hordered, hset, hreason, haction, hsubmission⟩, rfl⟩
      obtain ⟨hsubmitted, hreporter, hactive, hcreated, hsame⟩ := hsubmission hzero
      refine ⟨⟨hactor, htimestamp, hordered, hset⟩, hreason, hzero ▸ haction, ⟨hsubmitted, hreporter,
        hactive, hcreated⟩, hsame, ?_⟩
      simp [TrailScan.advance, hzero]
  · simp only [scanTrailEntry, hzero, if_false, bind_eq_ok, revertIf_eq_ok, exists_unit, pure_eq_ok,
      validateReason_eq_ok, not_or, not_not, Nat.not_lt]
    constructor
    · rintro ⟨⟨hactor, htimestamp, hordered, hset⟩, hreason, haction, rfl⟩
      exact ⟨⟨hactor, htimestamp, hordered, hset, hreason, haction, fun h => absurd h hzero⟩, rfl⟩
    · rintro ⟨⟨hactor, htimestamp, hordered, hset, hreason, haction, -⟩, rfl⟩
      exact ⟨⟨hactor, htimestamp, hordered, hset⟩, hreason, haction, rfl⟩

/-- One round of the loop over a status trail accepts an entry that is not older than the last one
and whose report, if it names one, is about the repository. -/
theorem checkStatusTrailEntry_eq_ok {repoId : Bytes32} {previous timestamp : Nat}
    {entry : StatusTrailEntry} :
    s.checkStatusTrailEntry repoId previous entry = .ok timestamp ↔
      (entry.Follows previous ∧ (entry.reportId ≠ 0 →
        (s.moderation.reports entry.reportId).present = true ∧
          (s.moderation.reports entry.reportId).repoId = repoId)) ∧ timestamp = entry.timestamp := by
  simp only [checkStatusTrailEntry, validateOptionalReason, bind_eq_ok, revertIf_eq_ok, exists_unit,
    pure_eq_ok, not_or, not_and, not_not, Nat.not_lt, gt_iff_lt, Bool.not_eq_false]
  constructor
  · rintro ⟨⟨hactor, htimestamp, hordered⟩, hreason, hreport, rfl⟩
    exact ⟨⟨⟨hactor, htimestamp, hordered, hreason⟩, hreport⟩, rfl⟩
  · rintro ⟨⟨⟨hactor, htimestamp, hordered, hreason⟩, hreport⟩, rfl⟩
    exact ⟨⟨hactor, htimestamp, hordered⟩, hreason, hreport, rfl⟩

/-- The checks of the split loops at one split, over the splits stored so far and their total. -/
structure SplitFits (owner : Address) (acc : List Split × Nat) (split : Split) : Prop where
  recipient_ne_zero : split.recipient ≠ 0
  recipient_ne_owner : split.recipient ≠ owner
  bps_ne_zero : split.bps ≠ 0
  recipient_new : split.recipient ∉ acc.1.map Split.recipient
  total_le : acc.2 + split.bps ≤ bpsDenominator

/-- One round of a split loop without its checks. -/
def withSplit (acc : List Split × Nat) (split : Split) : List Split × Nat :=
  (acc.1 ++ [split], acc.2 + split.bps)

/-- `setRevenueSplits` and `_importSplits` check each split alike. -/
theorem addSplit_eq_ok {owner : Address} {acc acc' : List Split × Nat} {split : Split} :
    addSplit owner acc split = .ok acc' ↔ SplitFits owner acc split ∧ acc' = withSplit acc split := by
  simp only [addSplit, bind_eq_ok, revertIf_eq_ok, exists_unit, pure_eq_ok, gt_iff_lt, Nat.not_lt]
  constructor
  · rintro ⟨hzero, howner, hbps, hnew, htotal, rfl⟩
    exact ⟨⟨hzero, howner, hbps, hnew, htotal⟩, rfl⟩
  · rintro ⟨⟨hzero, howner, hbps, hnew, htotal⟩, rfl⟩
    exact ⟨hzero, howner, hbps, hnew, htotal, rfl⟩

/-- The import checks a split in another order than `setRevenueSplits`, to the same effect. -/
theorem addImportedSplit_eq_ok {owner : Address} {acc acc' : List Split × Nat} {split : Split} :
    addImportedSplit owner acc split = .ok acc' ↔
      SplitFits owner acc split ∧ acc' = withSplit acc split := by
  simp only [addImportedSplit, bind_eq_ok, revertIf_eq_ok, exists_unit, pure_eq_ok, not_or,
    gt_iff_lt, Nat.not_lt]
  constructor
  · rintro ⟨⟨hzero, howner, hbps⟩, hnew, htotal, rfl⟩
    exact ⟨⟨hzero, howner, hbps, hnew, htotal⟩, rfl⟩
  · rintro ⟨⟨hzero, howner, hbps, hnew, htotal⟩, rfl⟩
    exact ⟨⟨hzero, howner, hbps⟩, hnew, htotal, rfl⟩

/-- The split loops append every split and add up their shares. -/
theorem foldl_withSplit {splits done : List Split} {total : Nat} :
    splits.foldl withSplit (done, total) = (done ++ splits, total + bpsTotal splits) := by
  induction splits generalizing done total with
  | nil => simp [bpsTotal]
  | cons split rest ih =>
      rw [List.foldl_cons, withSplit, ih]
      simp [bpsTotal, Nat.add_assoc]

/-- The split loop accepts a table when each recipient is new to it and the total fits. -/
theorem along_splitFits {owner : Address} {splits done : List Split} {total : Nat}
    (htotal : total ≤ bpsDenominator) :
    Along (SplitFits owner) withSplit (done, total) splits ↔
      (∀ split ∈ splits, split.recipient ≠ 0 ∧ split.recipient ≠ owner ∧ split.bps ≠ 0 ∧
        split.recipient ∉ done.map Split.recipient) ∧
      (splits.map Split.recipient).Nodup ∧ total + bpsTotal splits ≤ bpsDenominator := by
  induction splits generalizing done total with
  | nil => simp [Along, bpsTotal, htotal]
  | cons split rest ih =>
      have hsum : total + bpsTotal (split :: rest) = total + split.bps + bpsTotal rest := by
        simp [bpsTotal, Nat.add_assoc]
      rw [Along, hsum, List.forall_mem_cons, List.map_cons, List.nodup_cons]
      constructor
      · rintro ⟨⟨hzero, howner, hbps, hnew, hle⟩, halong⟩
        obtain ⟨hall, hnodup, hrest⟩ := (ih hle).mp halong
        refine ⟨⟨⟨hzero, howner, hbps, hnew⟩, fun other hother => ?_⟩, ⟨?_, hnodup⟩, hrest⟩
        · obtain ⟨hozero, hoowner, hobps, honew⟩ := hall other hother
          refine ⟨hozero, hoowner, hobps, fun hmem => honew ?_⟩
          simp only [List.map_append, List.mem_append]
          exact .inl hmem
        · intro hmem
          obtain ⟨other, hother, heq⟩ := List.mem_map.mp hmem
          apply (hall other hother).2.2.2
          simp [heq]
      · rintro ⟨⟨⟨hzero, howner, hbps, hnew⟩, hall⟩, ⟨hnotMem, hnodup⟩, hrest⟩
        have hle : total + split.bps ≤ bpsDenominator := by omega
        refine ⟨⟨hzero, howner, hbps, hnew, hle⟩, (ih hle).mpr ⟨fun other hother => ?_, hnodup, hrest⟩⟩
        obtain ⟨hozero, hoowner, hobps, honew⟩ := hall other hother
        refine ⟨hozero, hoowner, hobps, fun hmem => ?_⟩
        simp only [List.map_append, List.mem_append, List.map_cons, List.map_nil,
          List.mem_singleton] at hmem
        rcases hmem with hmem | heq
        · exact honew hmem
        · exact hnotMem (heq ▸ List.mem_map_of_mem hother)

/-- A table passes a split loop and the length check exactly when it is valid. -/
theorem validSplits_iff {owner : Address} {splits : List Split} :
    ValidSplits owner splits ↔ splits.length ≤ maxSplitRecipients ∧
      Along (SplitFits owner) withSplit ([], 0) splits := by
  rw [along_splitFits (Nat.zero_le _)]
  constructor
  · rintro ⟨hlength, hzero, howner, hbps, hnodup, htotal⟩
    refine ⟨hlength, fun split hsplit => ?_, hnodup, by omega⟩
    exact ⟨hzero split hsplit, howner split hsplit, hbps split hsplit, by simp⟩
  · rintro ⟨hlength, hall, hnodup, htotal⟩
    exact ⟨hlength, fun split h => (hall split h).1, fun split h => (hall split h).2.1,
      fun split h => (hall split h).2.2.1, hnodup, by omega⟩

end Suite

/-- `_addTotal` is refused when the total no longer fits 256 bits. -/
theorem Economic.addTotal_eq_ok {keccak : Keccak} {e e' : Economic} {repoId : Bytes32}
    {denom : Bytes} {amount : Nat} :
    e.addTotal keccak repoId denom amount = .ok e' ↔
      e.totals repoId (keccak.ofBytes denom) + amount ≤ uint256Max ∧
        e' = e.withTotal keccak repoId denom amount := by
  have htotals : (e.withDenom keccak repoId denom).totals = e.totals := by
    unfold withDenom
    split <;> rfl
  show (checkedAdd ((e.withDenom keccak repoId denom).totals repoId (keccak.ofBytes denom)) amount >>=
    fun total => pure { e.withDenom keccak repoId denom with
      totals := Function.update (e.withDenom keccak repoId denom).totals repoId
        (Function.update ((e.withDenom keccak repoId denom).totals repoId)
          (keccak.ofBytes denom) total) }) = .ok e' ↔ _
  rw [htotals]
  simp only [bind_eq_ok, checkedAdd_eq_ok, pure_eq_ok]
  constructor
  · rintro ⟨_, ⟨hfits, rfl⟩, rfl⟩
    exact ⟨hfits, rfl⟩
  · rintro ⟨hfits, rfl⟩
    exact ⟨_, ⟨hfits, rfl⟩, rfl⟩

/-! ## The store functions -/

namespace Suite

variable {d : Deployment} {s s' : Suite}

/-- A repository is stored when it is well formed, its id and locator are free and its parent is
there. -/
theorem storeRepository_eq_ok {record : ImportRepository} :
    s.storeRepository d record = .ok s' ↔ record.WellFormed ∧ s.Fits d.keccak (.repository record) ∧
      s' = s.stored d.keccak (.repository record) := by
  simp only [storeRepository, validateRepositoryName, requireLength, bind_eq_ok, revertIf_eq_ok,
    exists_unit, pure_eq_ok, requireLocatorAvailable_eq_ok, not_or, not_and, Nat.not_lt, gt_iff_lt,
    Bool.not_eq_false, Bool.not_eq_true]
  constructor
  · rintro ⟨⟨hid, howner, hcreated, hupdated⟩, hparent, hname, hdescription, hbranch, habsent, hvacant,
      rfl⟩
    exact ⟨⟨hid, howner, hcreated, hupdated, hname, hdescription, hbranch⟩,
      ⟨hparent, habsent, hvacant⟩, rfl⟩
  · rintro ⟨⟨hid, howner, hcreated, hupdated, hname, hdescription, hbranch⟩,
      ⟨hparent, habsent, hvacant⟩, rfl⟩
    exact ⟨⟨hid, howner, hcreated, hupdated⟩, hparent, hname, hdescription, hbranch, habsent, hvacant,
      rfl⟩

/-- An alias is stored when its locator is free and its repository is there. -/
theorem storeAlias_eq_ok {record : ImportAlias} :
    s.storeAlias d record = .ok s' ↔ record.WellFormed ∧
      s.Fits d.keccak (.repositoryAlias record) ∧
      s' = s.stored d.keccak (.repositoryAlias record) := by
  simp only [storeAlias, validateRepositoryName, bind_eq_ok, revertIf_eq_ok, exists_unit, pure_eq_ok,
    requireRepository_eq_ok, not_or, not_not, Bool.not_eq_false]
  constructor
  · rintro ⟨_, ⟨hpresent, rfl⟩, hname, howner, hvacant, rfl⟩
    exact ⟨⟨hname, howner⟩, ⟨hpresent, hvacant⟩, rfl⟩
  · rintro ⟨⟨hname, howner⟩, ⟨hpresent, hvacant⟩, rfl⟩
    exact ⟨_, ⟨hpresent, rfl⟩, hname, howner, hvacant, rfl⟩

/-- A ref is stored when it is well formed and new to its repository. -/
theorem storeImportedRef_eq_ok {record : ImportRef} :
    s.storeImportedRef d record = .ok s' ↔ record.WellFormed ∧ s.Fits d.keccak (.ref record) ∧
      s' = s.stored d.keccak (.ref record) := by
  simp only [storeImportedRef, bind_eq_ok, revertIf_eq_ok, exists_unit, pure_eq_ok,
    requireRepository_eq_ok, validateRefName_eq_ok, validateCommitSha_eq_ok, forM_eq_ok,
    validatePackUri_eq_ok, not_or, Nat.not_lt, gt_iff_lt, Bool.not_eq_true, List.length_append,
    List.length_singleton]
  constructor
  · rintro ⟨_, ⟨hpresent, rfl⟩, hname, hcommit, ⟨hpacks, hmax, hat, hby⟩, habsent, hvalid, hroom, rfl⟩
    exact ⟨⟨hname, hcommit, hpacks, hmax, hat, hby, hvalid⟩, ⟨hpresent, habsent, hroom⟩, rfl⟩
  · rintro ⟨⟨hname, hcommit, hpacks, hmax, hat, hby, hvalid⟩, ⟨hpresent, habsent, hroom⟩, rfl⟩
    exact ⟨_, ⟨hpresent, rfl⟩, hname, hcommit, ⟨hpacks, hmax, hat, hby⟩, habsent, hvalid, hroom, rfl⟩

/-- A collaborator is stored when the account has no role in the repository yet. -/
theorem storeImportedCollaborator_eq_ok {record : ImportCollaborator} :
    s.storeImportedCollaborator record = .ok s' ↔ (record.account ≠ 0 ∧ record.role ≠ .none) ∧
      s.Fits d.keccak (.collaborator record) ∧
      s' = s.stored d.keccak (.collaborator record) := by
  have hcount : ((s.core.withImportedCollaborator record).collaborators record.repoId).length =
      (s.core.collaborators record.repoId).length + 1 := by
    simp [Core.withImportedCollaborator, Core.pushCollaborator, Core.setRole]
  simp only [storeImportedCollaborator, bind_eq_ok, revertIf_eq_ok, exists_unit, pure_eq_ok,
    requireRepository_eq_ok, not_or, not_not, Nat.not_lt, gt_iff_lt]
  constructor
  · rintro ⟨_, ⟨hpresent, rfl⟩, ⟨haccount, howner, hrole⟩, hnew, hroom, rfl⟩
    exact ⟨⟨haccount, hrole⟩, ⟨hpresent, howner, hnew, hcount.symm.trans_le hroom⟩, rfl⟩
  · rintro ⟨⟨haccount, hrole⟩, ⟨hpresent, howner, hnew, hroom⟩, rfl⟩
    exact ⟨_, ⟨hpresent, rfl⟩, ⟨haccount, howner, hrole⟩, hnew, hcount.trans_le hroom, rfl⟩

/-- Guardians are stored for the owner of a repository that has none. -/
theorem storeGuardianConfig_eq_ok {record : ImportGuardianConfig} :
    s.storeGuardianConfig record = .ok s' ↔
      Recovery.ValidGuardians record.configuredBy record.guardians record.threshold ∧
      s.Fits d.keccak (.guardianConfig record) ∧ s' = s.stored d.keccak (.guardianConfig record) := by
  simp only [storeGuardianConfig, bind_eq_ok, revertIf_eq_ok, exists_unit, pure_eq_ok,
    repository_eq_ok, Recovery.setGuardians_eq_ok, not_or, not_not]
  constructor
  · rintro ⟨_, ⟨hcore, hpresent, rfl⟩, ⟨howner, hnone⟩, _, ⟨hvalid, hunflagged, rfl⟩, rfl⟩
    exact ⟨hvalid, ⟨⟨hcore, hpresent⟩, howner, hnone, hunflagged⟩, rfl⟩
  · rintro ⟨hvalid, ⟨⟨hcore, hpresent⟩, howner, hnone, hunflagged⟩, rfl⟩
    exact ⟨_, ⟨hcore, hpresent, rfl⟩, ⟨howner, hnone⟩, _, ⟨hvalid, hunflagged, rfl⟩, rfl⟩

theorem storeStatus_eq_ok {record : ImportStatus} :
    s.storeStatus record = .ok s' ↔ s.Fits d.keccak (.status record) ∧
      s' = s.stored d.keccak (.status record) := by
  simp only [storeStatus, bind_eq_ok, revertIf_eq_ok, exists_unit, pure_eq_ok, repository_eq_ok,
    Bool.not_eq_true]
  constructor
  · rintro ⟨_, ⟨hcore, hpresent, rfl⟩, hnew, rfl⟩
    exact ⟨⟨⟨hcore, hpresent⟩, hnew⟩, rfl⟩
  · rintro ⟨⟨⟨hcore, hpresent⟩, hnew⟩, rfl⟩
    exact ⟨_, ⟨hcore, hpresent, rfl⟩, hnew, rfl⟩

/-- A report is stored under a number that is free when its trail leads to its status. -/
theorem storeImportedReport_eq_ok {record : ImportReport} :
    s.storeImportedReport d record = .ok s' ↔ record.WellFormed ∧ s.Fits d.keccak (.report record) ∧
      s' = s.stored d.keccak (.report record) := by
  have hloop : ∀ scan, record.trail.foldlM (scanTrailEntry d record.report) ⟨0, [], [], 0⟩ =
      .ok scan ↔ Along record.report.Accepts TrailScan.advance ⟨0, [], [], 0⟩ record.trail ∧
        scan = scanned record.trail := fun scan =>
    foldlM_eq_ok fun before entry after => scanTrailEntry_eq_ok
  have hpositive : expectedTrailLength record.report.status ≠ 0 := by
    cases record.report.status <;> simp [expectedTrailLength]
  simp only [storeImportedReport, bind_eq_ok, revertIf_eq_ok, exists_unit, pure_eq_ok,
    repository_eq_ok, validateReason_eq_ok, hloop, ite_revertIf_eq_ok, not_or, not_and, not_not,
    Nat.not_lt, Nat.not_le, ge_iff_le, Bool.not_eq_true, Bool.not_eq_false]
  constructor
  · rintro ⟨⟨hid, hlt, hpresent, habsent, hrepo, hreporter, hcreated, hupdated, -⟩, _,
      ⟨hcore, hknown, rfl⟩, hreason, hopened, hlength, _, ⟨halong, rfl⟩, hlast, happeal, hdecision,
      hat, rfl⟩
    exact ⟨⟨hid, hlt, hpresent, hrepo, hreporter, hcreated, hupdated, hreason, hopened, hlength,
      halong, hlast, happeal, hdecision, hat⟩, ⟨⟨hcore, hknown⟩, habsent⟩, rfl⟩
  · rintro ⟨⟨hid, hlt, hpresent, hrepo, hreporter, hcreated, hupdated, hreason, hopened, hlength,
      halong, hlast, happeal, hdecision, hat⟩, ⟨⟨hcore, hknown⟩, habsent⟩, rfl⟩
    refine ⟨⟨hid, hlt, hpresent, habsent, hrepo, hreporter, hcreated, hupdated, ?_⟩, _,
      ⟨hcore, hknown, rfl⟩, hreason, hopened, hlength, _, ⟨halong, rfl⟩, hlast, happeal, hdecision,
      hat, rfl⟩
    rw [hlength]
    exact hpositive

/-- A status trail is stored when it is in order and ends in the status of its repository. -/
theorem storeImportedStatusTrail_eq_ok {record : ImportStatusTrail} :
    s.storeImportedStatusTrail record = .ok s' ↔ record.WellFormed ∧
      s.Fits d.keccak (.statusTrail record) ∧ s' = s.stored d.keccak (.statusTrail record) := by
  have hloop : ∀ last, record.trail.foldlM (s.checkStatusTrailEntry record.repoId) 0 = .ok last ↔
      (Along StatusTrailEntry.Follows (fun _ entry => entry.timestamp) 0 record.trail ∧
        ∀ entry ∈ record.trail, entry.reportId ≠ 0 →
          (s.moderation.reports entry.reportId).present = true ∧
            (s.moderation.reports entry.reportId).repoId = record.repoId) ∧
      last = record.trail.foldl (fun _ entry => entry.timestamp) 0 := by
    intro last
    rw [← along_and_forall]
    exact foldlM_eq_ok fun before entry after => checkStatusTrailEntry_eq_ok
  simp only [storeImportedStatusTrail, bind_eq_ok, revertIf_eq_ok, exists_unit, pure_eq_ok,
    repository_eq_ok, hloop, not_or, not_not, Bool.not_eq_false]
  constructor
  · rintro ⟨_, ⟨hcore, hknown, rfl⟩, ⟨himported, htrail, hfresh⟩, _, ⟨⟨halong, hreports⟩, -⟩, hlast, rfl⟩
    exact ⟨⟨htrail, halong⟩, ⟨⟨hcore, hknown⟩, himported, hfresh, hreports, hlast⟩, rfl⟩
  · rintro ⟨⟨htrail, halong⟩, ⟨⟨hcore, hknown⟩, himported, hfresh, hreports, hlast⟩, rfl⟩
    exact ⟨_, ⟨hcore, hknown, rfl⟩, ⟨himported, htrail, hfresh⟩, _, ⟨⟨halong, hreports⟩, rfl⟩, hlast,
      rfl⟩

/-- A split table is stored once for a repository, when its splits are valid for the owner. -/
theorem storeSplits_eq_ok {record : ImportSplits} :
    s.storeSplits record = .ok s' ↔ s.Fits d.keccak (.splits record) ∧
      s' = s.stored d.keccak (.splits record) := by
  have hloop : ∀ owner added, record.splits.foldlM (addImportedSplit owner) ([], 0) = .ok added ↔
      Along (SplitFits owner) withSplit ([], 0) record.splits ∧
        added = record.splits.foldl withSplit ([], 0) := fun owner added =>
    foldlM_eq_ok fun before split after => addImportedSplit_eq_ok
  simp only [storeSplits, bind_eq_ok, revertIf_eq_ok, exists_unit, pure_eq_ok, repository_eq_ok,
    hloop, not_or, Nat.not_lt, gt_iff_lt, Bool.not_eq_true]
  constructor
  · rintro ⟨_, ⟨hcore, hknown, rfl⟩, ⟨hnew, hlength⟩, _, ⟨halong, rfl⟩, rfl⟩
    refine ⟨⟨⟨hcore, hknown⟩, hnew, validSplits_iff.mpr ⟨hlength, halong⟩⟩, ?_⟩
    rw [foldl_withSplit]
    rfl
  · rintro ⟨⟨⟨hcore, hknown⟩, hnew, hvalid⟩, rfl⟩
    obtain ⟨hlength, halong⟩ := validSplits_iff.mp hvalid
    refine ⟨_, ⟨hcore, hknown, rfl⟩, ⟨hnew, hlength⟩, _, ⟨halong, rfl⟩, ?_⟩
    rw [foldl_withSplit]
    rfl

/-- A sponsored total is stored once for a repository and a denomination. -/
theorem storeTotal_eq_ok {record : ImportTotal} :
    s.storeTotal d record = .ok s' ↔ record.WellFormed ∧ s.Fits d.keccak (.total record) ∧
      s' = s.stored d.keccak (.total record) := by
  simp only [storeTotal, validateDenom, bind_eq_ok, revertIf_eq_ok, exists_unit, pure_eq_ok,
    repository_eq_ok, Economic.addTotal_eq_ok, not_or, not_not, Nat.not_lt, gt_iff_lt]
  constructor
  · rintro ⟨_, ⟨hcore, hknown, rfl⟩, hamount, ⟨hdenom, hlength⟩, hnew, _, ⟨hfits, rfl⟩, rfl⟩
    rw [hnew, Nat.zero_add] at hfits
    exact ⟨⟨hamount, hfits, hdenom, hlength⟩, ⟨⟨hcore, hknown⟩, hnew⟩, rfl⟩
  · rintro ⟨⟨hamount, hfits, hdenom, hlength⟩, ⟨⟨hcore, hknown⟩, hnew⟩, rfl⟩
    refine ⟨_, ⟨hcore, hknown, rfl⟩, hamount, ⟨hdenom, hlength⟩, hnew, _, ⟨?_, rfl⟩, rfl⟩
    rw [hnew, Nat.zero_add]
    exact hfits

theorem validateAndHash_eq_ok {keccak : Keccak} {name : Bytes} {key : Bytes32} :
    validateAndHash keccak name = .ok key ↔ validUsername name = true ∧ keccak.ofBytes name = key := by
  simp only [validateAndHash, bind_eq_ok, revertIf_eq_ok, exists_unit, pure_eq_ok, Bool.not_eq_false]

/-- The first owner of a name is stored once. -/
theorem storeOriginalOwner_eq_ok {record : ImportOriginalOwner} :
    s.storeOriginalOwner d record = .ok s' ↔ (validUsername record.name = true ∧ record.owner ≠ 0) ∧
      s.Fits d.keccak (.originalOwner record) ∧ s' = s.stored d.keccak (.originalOwner record) := by
  simp only [storeOriginalOwner, bind_eq_ok, revertIf_eq_ok, exists_unit, pure_eq_ok,
    validateAndHash_eq_ok, not_or, not_not]
  constructor
  · rintro ⟨_, ⟨hname, rfl⟩, ⟨howner, hnew⟩, rfl⟩
    exact ⟨⟨hname, howner⟩, hnew, rfl⟩
  · rintro ⟨⟨hname, howner⟩, hnew, rfl⟩
    exact ⟨_, ⟨hname, rfl⟩, ⟨howner, hnew⟩, rfl⟩

theorem storeReservedName_eq_ok {name : Bytes} :
    s.storeReservedName d name = .ok s' ↔ validUsername name = true ∧
      s.Fits d.keccak (.reservedName name) ∧ s' = s.stored d.keccak (.reservedName name) := by
  simp only [storeReservedName, bind_eq_ok, revertIf_eq_ok, exists_unit, pure_eq_ok,
    validateAndHash_eq_ok, not_or, Nat.not_le, ge_iff_le, Bool.not_eq_true]
  constructor
  · rintro ⟨_, ⟨hname, rfl⟩, ⟨hnew, hroom⟩, rfl⟩
    exact ⟨hname, ⟨hnew, hroom⟩, rfl⟩
  · rintro ⟨hname, ⟨hnew, hroom⟩, rfl⟩
    exact ⟨_, ⟨hname, rfl⟩, ⟨hnew, hroom⟩, rfl⟩

/-- A badge is stored under a number that is free. -/
theorem storeImportedBadge_eq_ok {record : Badge} :
    s.storeImportedBadge record = .ok s' ↔ record.WellFormed ∧ s.Fits d.keccak (.badge record) ∧
      s' = s.stored d.keccak (.badge record) := by
  have hstored : (if record.id ≥ (s.storeBadge record).badges.nextBadgeId then
      (s.storeBadge record).setNextBadgeId (record.id + 1) else s.storeBadge record) =
      s.stored d.keccak (.badge record) := by
    have hnext : (s.storeBadge record).badges.nextBadgeId = s.badges.nextBadgeId := rfl
    rw [hnext]
    by_cases hid : record.id ≥ s.badges.nextBadgeId
    · simp [stored, Badges.withBadge, hid, setNextBadgeId, storeBadge, setBadges]
    · simp [stored, Badges.withBadge, hid, storeBadge, setBadges]
  simp only [storeImportedBadge, bind_eq_ok, revertIf_eq_ok, exists_unit, pure_eq_ok,
    repository_eq_ok, hstored, not_or, Nat.not_lt, gt_iff_lt, Bool.not_eq_true, Bool.not_eq_false]
  constructor
  · rintro ⟨⟨hid, hpresent, hrecipient, hby, hmax, hat, hnew, hself⟩, _, ⟨hcore, hknown, rfl⟩,
      ⟨hreason, hlength⟩, rfl⟩
    exact ⟨⟨hid, hpresent, hrecipient, hby, hmax, hat, hself, hreason, hlength⟩,
      ⟨⟨hcore, hknown⟩, hnew⟩, rfl⟩
  · rintro ⟨⟨hid, hpresent, hrecipient, hby, hmax, hat, hself, hreason, hlength⟩,
      ⟨⟨hcore, hknown⟩, hnew⟩, rfl⟩
    exact ⟨⟨hid, hpresent, hrecipient, hby, hmax, hat, hnew, hself⟩, _, ⟨hcore, hknown, rfl⟩,
      ⟨hreason, hlength⟩, rfl⟩

theorem validateToken_eq_ok {value : Bytes} {maximum : Nat} {reason : Bytes → Revert} {u : Unit} :
    validateToken value maximum reason = .ok u ↔ ValidToken value maximum := by
  simp only [validateToken, revertIf_eq_ok, not_or, ValidToken, gt_iff_lt, Nat.not_lt, ne_eq,
    Bool.not_eq_false]

/-- An artifact is stored once for a version and a platform. -/
theorem storeImportedArtifact_eq_ok {record : Artifact} :
    s.storeImportedArtifact d record = .ok s' ↔ record.WellFormed ∧
      s.Fits d.keccak (.artifact record) ∧ s' = s.stored d.keccak (.artifact record) := by
  simp only [storeImportedArtifact, storeArtifact, bind_eq_ok, revertIf_eq_ok, exists_unit,
    pure_eq_ok, validateToken_eq_ok, not_or, Bool.not_eq_true, Bool.not_eq_false]
  constructor
  · rintro ⟨⟨hpresent, hdigest, hby, hat⟩, hversion, hplatform, hnew, rfl⟩
    exact ⟨⟨hpresent, hdigest, hby, hat, hversion, hplatform⟩, hnew, rfl⟩
  · rintro ⟨⟨hpresent, hdigest, hby, hat, hversion, hplatform⟩, hnew, rfl⟩
    exact ⟨⟨hpresent, hdigest, hby, hat⟩, hversion, hplatform, hnew, rfl⟩

/-- A record is stored exactly when it is well formed and fits. -/
theorem storeRecord_eq_ok {record : ImportRecord} :
    s.storeRecord d record = .ok s' ↔
      record.WellFormed ∧ s.Fits d.keccak record ∧ s' = s.stored d.keccak record := by
  cases record with
  | repository record => exact storeRepository_eq_ok
  | repositoryAlias record => exact storeAlias_eq_ok
  | ref record => exact storeImportedRef_eq_ok
  | collaborator record => exact storeImportedCollaborator_eq_ok
  | guardianConfig record => exact storeGuardianConfig_eq_ok
  | status record =>
      rw [ImportRecord.WellFormed, true_and]
      exact storeStatus_eq_ok
  | report record => exact storeImportedReport_eq_ok
  | statusTrail record => exact storeImportedStatusTrail_eq_ok
  | splits record =>
      rw [ImportRecord.WellFormed, true_and]
      exact storeSplits_eq_ok
  | total record => exact storeTotal_eq_ok
  | originalOwner record => exact storeOriginalOwner_eq_ok
  | reservedName name => exact storeReservedName_eq_ok
  | badge record => exact storeImportedBadge_eq_ok
  | artifact record => exact storeImportedArtifact_eq_ok

/-- Every record is well formed and fits when its turn comes. -/
def FitInTurn (keccak : Keccak) (s : Suite) (records : List ImportRecord) : Prop :=
  Along (fun s record => record.WellFormed ∧ s.Fits keccak record) (stored keccak) s records

/-- Records that fit in turn are well formed, whatever their turns. -/
theorem FitInTurn.wellFormed {keccak : Keccak} {records : List ImportRecord}
    (h : s.FitInTurn keccak records) : ∀ record ∈ records, record.WellFormed := by
  induction records generalizing s with
  | nil => simp
  | cons record rest ih =>
      obtain ⟨⟨hfirst, -⟩, hrest⟩ := h
      exact List.forall_mem_cons.mpr ⟨hfirst, ih hrest⟩

/-- A list of records is stored exactly when they fit in turn. -/
theorem foldlM_storeRecord_eq_ok {records : List ImportRecord} :
    records.foldlM (storeRecord d) s = .ok s' ↔
      s.FitInTurn d.keccak records ∧ s' = records.foldl (stored d.keccak) s :=
  foldlM_eq_ok fun before record after => by rw [storeRecord_eq_ok, and_assoc]

end Suite

end Igit
