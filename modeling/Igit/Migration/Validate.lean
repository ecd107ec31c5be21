import Igit.Library.Tables
import Igit.Migration.Schema

/-!
# Validating a snapshot

`validateSnapshot` of `cli/internal/suitemigration/plan.go`, one function for each of its loops. The
maps a loop fills are the items it has gone through: a check that looks into a map looks through the
items before the current one. Go goes through a map in no fixed order, and where several entries are
wrong it may name any of them; here it is the first.
-/

namespace Igit.Migration

open Fallible

/-- The errors of `validateSnapshot`, with what their texts name. -/
inductive SnapshotError where
  | schema (schema : Bytes)
  | sourceRequired
  | invalidHash (label : String)
  | invalidAddress (label : String)
  | platformFee
  | repositoryAt (index : Nat) (cause : SnapshotError)
  | repository (id : Text Bytes32) (cause : SnapshotError)
  | repositoryName (id : Text Bytes32)
  | repositoryMetadata (id : Text Bytes32)
  | repositoryTimestamps (id : Text Bytes32)
  | duplicateRepository (id : Text Bytes32)
  | duplicateRepositoryLocator (owner : Text Address) (name : Bytes)
  | forksItself (id : Text Bytes32)
  | unknownForkParent (id parent : Text Bytes32)
  | forkCycle (id : Text Bytes32)
  | aliasUnknownRepository (index : Nat)
  | aliasName (index : Nat)
  | aliasCollides (existing : Text Bytes32)
  | aliasDuplicates (index : Nat)
  | refUnknownRepository (index : Nat)
  | refLimits (index : Nat)
  | refPackUri (index : Nat)
  | refTimestamp (index : Nat)
  | duplicateRef (repoId : Text Bytes32) (refName : Bytes)
  | refLimit (repoId : Text Bytes32)
  | collaboratorUnknownRepository (index : Nat)
  | collaboratorIsOwner (repoId : Text Bytes32)
  | invalidRole (value : Bytes)
  | duplicateCollaborator (repoId : Text Bytes32) (account : Text Address)
  | collaboratorLimit (repoId : Text Bytes32)
  | guardianUnknownRepository (repoId : Text Bytes32)
  | duplicateGuardianConfig (repoId : Text Bytes32)
  | guardianConfigStale (repoId : Text Bytes32)
  | guardianThreshold (repoId : Text Bytes32)
  | guardianIsOwner (repoId : Text Bytes32)
  | duplicateGuardian (repoId : Text Bytes32)
  | statusUnknownRepository (repoId : Text Bytes32)
  | duplicateFinalStatus (repoId : Text Bytes32)
  | invalidRepositoryStatus (value : Bytes)
  | statusCoverage (covered total : Nat)
  | reportId (id : UInt64)
  | duplicateReport (id : UInt64)
  | reportUnknownRepository (id : UInt64)
  | invalidReportStatus (value : Bytes)
  | reportRecord (id : UInt64)
  | reportOpenResolution (id : UInt64)
  | reportTrailLength (id : UInt64) (length expected : Nat)
  | invalidTrailAction (value : Bytes)
  | reportTrailAction (id : UInt64) (index : Nat) (action expected : Bytes)
  | reportTrail (id : UInt64)
  | reportSubmission (id : UInt64)
  | reportUpdatedAt (id : UInt64)
  | reportFinalStatus (id : UInt64)
  | reportAppeal (id : UInt64)
  | reportResolution (id : UInt64)
  | trailUnknownRepository (repoId : Text Bytes32)
  | duplicateStatusTrail (repoId : Text Bytes32)
  | emptyStatusTrail (repoId : Text Bytes32)
  | statusTrail (repoId : Text Bytes32)
  | statusTrailReport (repoId : Text Bytes32) (reportId : UInt64)
  | statusTrailEnd (repoId : Text Bytes32)
  | splitsUnknownRepository (repoId : Text Bytes32)
  | duplicateSplits (repoId : Text Bytes32)
  | splitCount (repoId : Text Bytes32)
  | splitOwner (repoId : Text Bytes32)
  | splitZero (repoId : Text Bytes32)
  | splitRecipient (repoId : Text Bytes32)
  | splitTotal (repoId : Text Bytes32)
  | totalUnknownRepository (repoId : Text Bytes32)
  | totalDenom (denom : Bytes)
  | invalidDecimal (label : String)
  | duplicateTotal (repoId : Text Bytes32) (denom : Bytes)
  | invalidUsername (name : Bytes)
  | duplicateUsername (name : Bytes)
  | usernameOwner (owner : Text Address) (existing name : Bytes)
  | reservedLimit
  | invalidReservedUsername (name : Bytes)
  | reservedOverlaps (name : Bytes)
  | duplicateReservedUsername (name : Bytes)
  | escrowIncomplete
  | escrowContract
  | escrowHeight
  | escrowDenom
  | badgeIdZero
  | duplicateBadge (id : UInt64)
  | badgeUnknownRepository (id : UInt64)
  | badgeSelfAward (id : UInt64)
  | badge (id : UInt64)
  | duplicateBadgeRecipientIndex (recipient : Text Address)
  | recipientIndex (id : UInt64)
  | duplicateBadgeRepositoryIndex (repoId : Text Bytes32)
  | repositoryIndex (id : UInt64)
  | badgeIndexes
  | badgeNotIndexed (id : UInt64)
  | releaseKey (version platform : Bytes)
  | releaseTimestamp (version platform : Bytes)
  | duplicateRelease (version platform : Bytes)
  | releaseIndexVersion (version : Bytes)
  | duplicateReleaseIndex (version : Bytes)
  | releaseIndexCoverage
  | releaseIndexMissing (version : Bytes)
  | releaseIndexCount (version : Bytes)
  | releaseIndexMismatch (version : Bytes)
  deriving DecidableEq, Repr

/-! ## Parsers -/

/-- `parseHash`. -/
def parseHash (label : String) : Text Bytes32 → Except SnapshotError Bytes32
  | .canonical hash => pure hash
  | .other _ => throw (.invalidHash label)

/-- `rawSHA256`, which refuses the zero digest. -/
def rawSHA256 (label : String) : Text Bytes32 → Except SnapshotError Bytes32
  | .canonical digest => do
      revertIf (digest = 0) (.invalidHash label)
      pure digest
  | .other _ => throw (.invalidHash label)

/-- `canonicalAddress`, which refuses the zero address. -/
def canonicalAddress (label : String) : Text Address → Except SnapshotError Address
  | .canonical address => do
      revertIf (address = 0) (.invalidAddress label)
      pure address
  | .other _ => throw (.invalidAddress label)

/-- `positiveDecimal`: a canonical number from 1 to the largest `uint256`. -/
def positiveDecimal (label : String) : Text Nat → Except SnapshotError Nat
  | .canonical number => do
      revertIf (number = 0 ∨ number > uint256Max) (.invalidDecimal label)
      pure number
  | .other _ => throw (.invalidDecimal label)

/-- `roleCode`. -/
def roleCode (value : Bytes) : Except SnapshotError UInt8 :=
  if value = ascii "maintainer" then pure 1
  else if value = ascii "reader" then pure 2
  else throw (.invalidRole value)

/-- `repoStatusCode`. -/
def repoStatusCode (value : Bytes) : Except SnapshotError UInt8 :=
  if value = ascii "active" then pure 0
  else if value = ascii "frozen" then pure 1
  else if value = ascii "delisted" then pure 2
  else throw (.invalidRepositoryStatus value)

/-- `reportStatusCode`. -/
def reportStatusCode (value : Bytes) : Except SnapshotError UInt8 :=
  if value = ascii "open" then pure 0
  else if value = ascii "resolved" then pure 1
  else if value = ascii "appealed" then pure 2
  else if value = ascii "appeal_resolved" then pure 3
  else throw (.invalidReportStatus value)

/-- `trailActionCode`. -/
def trailActionCode (value : Bytes) : Except SnapshotError UInt8 :=
  if value = ascii "submitted" then pure 0
  else if value = ascii "resolved" then pure 1
  else if value = ascii "appealed" then pure 2
  else if value = ascii "appeal_resolved" then pure 3
  else if value = ascii "status_set" then pure 4
  else throw (.invalidTrailAction value)

/-- A letter, a digit, `-`, `_` or `.`. -/
def isTokenChar (c : UInt8) : Bool :=
  (0x61 ≤ c && c ≤ 0x7a) || (0x41 ≤ c && c ≤ 0x5a) || (0x30 ≤ c && c ≤ 0x39) ||
    c == 0x2d || c == 0x5f || c == 0x2e

/-- `validToken`. -/
def validToken (value : Bytes) (maximum : Nat) : Bool :=
  !(value.length == 0 || decide (value.length > maximum)) && value.all isTokenChar

/-- `validRepoName`. -/
def validRepoName (value : Bytes) : Bool := validToken value 64

/-- `validUsername`. -/
def validUsername (value : Bytes) : Bool :=
  !(decide (value.length < 3) || decide (value.length > 32) || value.head? == some 0x2d ||
    value.getLast? == some 0x2d || (ascii "inj1").isPrefixOf value) &&
    value.all fun c => (0x61 ≤ c && c ≤ 0x7a) || (0x30 ≤ c && c ≤ 0x39) || c == 0x2d

/-- `validSHA`. -/
def validSHA (value : Bytes) : Bool :=
  (value.length == 40 || value.length == 64) && value.all fun c =>
    (0x30 ≤ c && c ≤ 0x39) || (0x61 ≤ c && c ≤ 0x66) || (0x41 ≤ c && c ≤ 0x46)

/-- `strings.Contains` for two dots. -/
def containsDots : Bytes → Bool
  | c :: c' :: rest => (c == 0x2e && c' == 0x2e) || containsDots (c' :: rest)
  | _ => false

/-- `validRefName`. -/
def validRefName (value : Bytes) : Bool :=
  !(decide (value.length < 5) || decide (value.length > 256) ||
    !(ascii "refs/").isPrefixOf value || containsDots value) &&
    value.all fun c =>
      !(c < 0x21 || c > 0x7e || c == 0x7e || c == 0x5e || c == 0x3a || c == 0x5c)

/-! ## Repositories, forks and aliases -/

/-- A repository against those before it. -/
def checkRepository (seen : List SnapshotRepository) (r : SnapshotRepository) :
    Except SnapshotError Unit := do
  let _ ← (parseHash "repository ID" r.id).mapError (.repositoryAt seen.length)
  let _ ← (canonicalAddress "repository owner" r.owner).mapError (.repository r.id)
  revertIf (validRepoName r.name = false) (.repositoryName r.id)
  revertIf (r.description.length > 1024 ∨ r.defaultBranch.length > 64) (.repositoryMetadata r.id)
  revertIf (r.createdAt = 0 ∨ r.updatedAt < r.createdAt) (.repositoryTimestamps r.id)
  revertIf (∃ other ∈ seen, other.id = r.id) (.duplicateRepository r.id)
  revertIf (∃ other ∈ seen, other.owner = r.owner ∧ other.name = r.name)
    (.duplicateRepositoryLocator r.owner r.name)

/-- The parent of a fork is another repository of the snapshot. -/
def checkFork (repos : List SnapshotRepository) (r : SnapshotRepository) :
    Except SnapshotError Unit :=
  if r.forkedFrom = .empty then pure ()
  else do
    revertIf (r.forkedFrom = r.id) (.forksItself r.id)
    revertIf (¬ ∃ other ∈ repos, other.id = r.forkedFrom) (.unknownForkParent r.id r.forkedFrom)

/-- `repos[id].ForkedFrom`, which is empty for an unknown ID. -/
def forkParent (repos : List SnapshotRepository) (id : Text Bytes32) : Text Bytes32 :=
  match repos.find? (fun r => decide (r.id = id)) with
  | some r => r.forkedFrom
  | none => .empty

/-- `visitFork`, which returns the visited IDs. Every call but the last follows a fork and adds its
ID to `visiting`, so that as many calls as there are repositories, and one, are enough. -/
def visitFork (repos : List SnapshotRepository) :
    Nat → List (Text Bytes32) → List (Text Bytes32) → Text Bytes32 →
      Except SnapshotError (List (Text Bytes32))
  | fuel, visiting, visited, id =>
      if id ∈ visiting then throw (.forkCycle id)
      else if id ∈ visited then pure visited
      else if forkParent repos id = .empty then pure (id :: visited)
      else match fuel with
        | 0 => throw (.forkCycle id)
        | fuel + 1 => do
            let visited ← visitFork repos fuel (id :: visiting) visited (forkParent repos id)
            pure (id :: visited)

/-- The lineage of every repository ends. -/
def checkLineage (repos : List SnapshotRepository) : Except SnapshotError Unit := do
  let _ ← (repos.map SnapshotRepository.id).foldlM (visitFork repos repos.length []) []
  pure ()

/-- The repository a locator belongs to, as a repository or as an alias gone through before. -/
def locatorHolder (repos : List SnapshotRepository) (seen : List SnapshotAlias)
    (owner : Text Address) (name : Bytes) : Option (Text Bytes32) :=
  ((repos.find? fun r => decide (r.owner = owner ∧ r.name = name)).map SnapshotRepository.id).or
    ((seen.find? fun a => decide (a.owner = owner ∧ a.name = name)).map SnapshotAlias.repoId)

/-- An alias against the repositories and the aliases before it. -/
def checkAlias (repos : List SnapshotRepository) (seen : List SnapshotAlias) (a : SnapshotAlias) :
    Except SnapshotError Unit := do
  revertIf (¬ ∃ r ∈ repos, r.id = a.repoId) (.aliasUnknownRepository seen.length)
  let _ ← canonicalAddress "alias owner" a.owner
  revertIf (validRepoName a.name = false) (.aliasName seen.length)
  match locatorHolder repos seen a.owner a.name with
  | none => pure ()
  | some existing =>
      if existing ≠ a.repoId then throw (.aliasCollides existing)
      else throw (.aliasDuplicates seen.length)

/-- The part of `validateSnapshot` about repositories, forks and aliases. -/
def validateRepositories (repos : List SnapshotRepository) (aliases : List SnapshotAlias) :
    Except SnapshotError Unit := do
  checkAll checkRepository [] repos
  repos.forM (checkFork repos)
  checkLineage repos
  checkAll (checkAlias repos) [] aliases

/-! ## Refs, collaborators and guardians -/

/-- The pack locations a ref may have. -/
def checkPackUri (index : Nat) (uri : Bytes) : Except SnapshotError Unit :=
  revertIf (uri.length ≤ 7 ∨ uri.length > 512 ∨ (ascii "ipfs://").isPrefixOf uri = false)
    (.refPackUri index)

/-- A ref against those before it. -/
def checkRef (repos : List SnapshotRepository) (seen : List SnapshotRef) (r : SnapshotRef) :
    Except SnapshotError Unit := do
  revertIf (¬ ∃ repo ∈ repos, repo.id = r.repoId) (.refUnknownRepository seen.length)
  revertIf (validRefName r.refName = false ∨ validSHA r.commitSha = false ∨
    r.packUris.length = 0 ∨ r.packUris.length > 128) (.refLimits seen.length)
  r.packUris.forM (checkPackUri seen.length)
  revertIf (r.updatedAt = 0) (.refTimestamp seen.length)
  let _ ← canonicalAddress "ref updated_by" r.updatedBy
  revertIf (∃ other ∈ seen, other.repoId = r.repoId ∧ other.refName = r.refName)
    (.duplicateRef r.repoId r.refName)
  revertIf (seen.countP (fun other => decide (other.repoId = r.repoId)) + 1 > 1024)
    (.refLimit r.repoId)

/-- The repository with an ID. -/
def repoWithId (repos : List SnapshotRepository) (id : Text Bytes32) : Option SnapshotRepository :=
  repos.find? fun r => decide (r.id = id)

/-- A collaborator against those before it. -/
def checkCollaborator (repos : List SnapshotRepository) (seen : List SnapshotCollaborator)
    (c : SnapshotCollaborator) : Except SnapshotError Unit := do
  let some repo := repoWithId repos c.repoId | throw (.collaboratorUnknownRepository seen.length)
  let _ ← canonicalAddress "collaborator account" c.account
  revertIf (c.account = repo.owner) (.collaboratorIsOwner c.repoId)
  let _ ← roleCode c.role
  revertIf (∃ other ∈ seen, other.repoId = c.repoId ∧ other.account = c.account)
    (.duplicateCollaborator c.repoId c.account)
  revertIf (seen.countP (fun other => decide (other.repoId = c.repoId)) + 1 > 256)
    (.collaboratorLimit c.repoId)

/-- A guardian of a repository against those before it. -/
def checkGuardian (repo : SnapshotRepository) (g : SnapshotGuardianConfig)
    (seen : List (Text Address)) (address : Text Address) : Except SnapshotError Unit := do
  let _ ← canonicalAddress "guardian" address
  revertIf (address = repo.owner) (.guardianIsOwner g.repoId)
  revertIf (address ∈ seen) (.duplicateGuardian g.repoId)

/-- A guardian configuration against those before it. -/
def checkGuardianConfig (repos : List SnapshotRepository) (seen : List SnapshotGuardianConfig)
    (g : SnapshotGuardianConfig) : Except SnapshotError Unit := do
  let some repo := repoWithId repos g.repoId | throw (.guardianUnknownRepository g.repoId)
  revertIf (∃ other ∈ seen, other.repoId = g.repoId) (.duplicateGuardianConfig g.repoId)
  revertIf (g.configuredBy ≠ repo.owner) (.guardianConfigStale g.repoId)
  revertIf (g.guardians.length = 0 ∨ g.guardians.length > 10 ∨ g.threshold = 0 ∨
    g.threshold.toNat > g.guardians.length) (.guardianThreshold g.repoId)
  checkAll (checkGuardian repo g) [] g.guardians

/-! ## Moderation -/

/-- A final status against those before it. -/
def checkFinalStatus (repos : List SnapshotRepository) (seen : List SnapshotFinalStatus)
    (status : SnapshotFinalStatus) : Except SnapshotError Unit := do
  revertIf (¬ ∃ repo ∈ repos, repo.id = status.repoId) (.statusUnknownRepository status.repoId)
  revertIf (∃ other ∈ seen, other.repoId = status.repoId) (.duplicateFinalStatus status.repoId)
  let _ ← repoStatusCode status.status
  pure ()

/-- The number of trail entries of a report in a status, of which an unknown one has none. -/
def expectedTrailLength (status : Bytes) : Nat :=
  if status = ascii "open" then 1
  else if status = ascii "resolved" then 2
  else if status = ascii "appealed" then 3
  else if status = ascii "appeal_resolved" then 4
  else 0

def expectedActions : List Bytes :=
  [ascii "submitted", ascii "resolved", ascii "appealed", ascii "appeal_resolved"]

/-- The timestamp of the last entry gone through. -/
def previousTimestamp {α : Type} (timestamp : α → UInt64) (seen : List α) : UInt64 :=
  (seen.getLast?.map timestamp).getD 0

/-- An entry of a report's trail after those before it. -/
def checkReportEntry (r : SnapshotReport) (seen : List SnapshotReportTrail)
    (entry : SnapshotReportTrail) : Except SnapshotError Unit := do
  let _ ← trailActionCode entry.action
  let expected := expectedActions.getD seen.length []
  revertIf (entry.action ≠ expected) (.reportTrailAction r.id seen.length entry.action expected)
  let _ ← canonicalAddress "report trail actor" entry.actor
  let _ ← repoStatusCode entry.status
  revertIf (entry.reasonHash.length = 0 ∨ entry.reasonHash.length > 128 ∨ entry.timestamp = 0 ∨
    entry.timestamp < previousTimestamp SnapshotReportTrail.timestamp seen) (.reportTrail r.id)
  revertIf (seen.length = 0 ∧ (entry.actor ≠ r.reporter ∨ entry.status ≠ ascii "active" ∨
    entry.timestamp ≠ r.createdAt ∨ entry.reasonHash ≠ r.reasonHash)) (.reportSubmission r.id)

/-- The status of an entry of a trail. -/
def trailStatus (trail : List SnapshotReportTrail) (index : Nat) : Option Bytes :=
  (trail[index]?).map SnapshotReportTrail.status

/-- A report against those before it. -/
def checkReport (repos : List SnapshotRepository) (seen : List SnapshotReport) (r : SnapshotReport) :
    Except SnapshotError Unit := do
  revertIf (r.id = 0 ∨ r.id = 0xffffffffffffffff) (.reportId r.id)
  revertIf (∃ other ∈ seen, other.id = r.id) (.duplicateReport r.id)
  revertIf (¬ ∃ repo ∈ repos, repo.id = r.repoId) (.reportUnknownRepository r.id)
  let _ ← canonicalAddress "reporter" r.reporter
  let _ ← reportStatusCode r.status
  let _ ← repoStatusCode r.resolution
  revertIf (r.reasonHash.length = 0 ∨ r.reasonHash.length > 128 ∨ r.createdAt = 0 ∨
    r.updatedAt < r.createdAt ∨ r.trail.length = 0) (.reportRecord r.id)
  revertIf (r.status = ascii "open" ∧ r.resolution ≠ ascii "active") (.reportOpenResolution r.id)
  revertIf (r.trail.length ≠ expectedTrailLength r.status)
    (.reportTrailLength r.id r.trail.length (expectedTrailLength r.status))
  checkAll (checkReportEntry r) [] r.trail
  revertIf (previousTimestamp SnapshotReportTrail.timestamp r.trail ≠ r.updatedAt)
    (.reportUpdatedAt r.id)
  revertIf (trailStatus r.trail (r.trail.length - 1) ≠ some r.resolution) (.reportFinalStatus r.id)
  revertIf (r.status = ascii "appeal_resolved" ∧ trailStatus r.trail 2 ≠ trailStatus r.trail 1)
    (.reportAppeal r.id)
  revertIf (r.status ≠ ascii "open" ∧ r.status ≠ ascii "appeal_resolved" ∧
    trailStatus r.trail 1 ≠ some r.resolution) (.reportResolution r.id)

/-- An entry of a status trail after those before it. -/
def checkStatusEntry (reports : List SnapshotReport) (repoId : Text Bytes32)
    (seen : List SnapshotRepositoryStatusLog) (entry : SnapshotRepositoryStatusLog) :
    Except SnapshotError Unit := do
  let _ ← repoStatusCode entry.status
  let _ ← canonicalAddress "status trail actor" entry.actor
  revertIf (entry.reasonHash.length > 128 ∨ entry.timestamp = 0 ∨
    entry.timestamp < previousTimestamp SnapshotRepositoryStatusLog.timestamp seen)
    (.statusTrail repoId)
  revertIf (entry.reportId ≠ 0 ∧
    ¬ ∃ report ∈ reports, report.id = entry.reportId ∧ report.repoId = repoId)
    (.statusTrailReport repoId entry.reportId)

/-- The final status of a repository. -/
def finalStatus (statuses : List SnapshotFinalStatus) (repoId : Text Bytes32) : Option Bytes :=
  (statuses.find? fun status => decide (status.repoId = repoId)).map SnapshotFinalStatus.status

/-- A status trail against those before it. -/
def checkStatusTrail (s : Snapshot) (seen : List SnapshotStatusTrail) (r : SnapshotStatusTrail) :
    Except SnapshotError Unit := do
  revertIf (¬ ∃ repo ∈ s.repositories, repo.id = r.repoId) (.trailUnknownRepository r.repoId)
  revertIf (∃ other ∈ seen, other.repoId = r.repoId) (.duplicateStatusTrail r.repoId)
  revertIf (r.trail.length = 0) (.emptyStatusTrail r.repoId)
  checkAll (checkStatusEntry s.reports r.repoId) [] r.trail
  revertIf (r.trail.getLast?.map SnapshotRepositoryStatusLog.status ≠
    finalStatus s.finalStatuses r.repoId) (.statusTrailEnd r.repoId)

/-! ## Splits and totals -/

/-- A split of a table against those before it. -/
def checkSplit (repo : SnapshotRepository) (r : SnapshotRevenueSplits) (seen : List SnapshotSplit)
    (entry : SnapshotSplit) : Except SnapshotError Unit := do
  let _ ← canonicalAddress "split recipient" entry.recipient
  revertIf (entry.recipient = repo.owner) (.splitOwner r.repoId)
  revertIf (entry.bps = 0) (.splitZero r.repoId)
  revertIf (∃ other ∈ seen, other.recipient = entry.recipient) (.splitRecipient r.repoId)

/-- A split table against those before it. -/
def checkSplits (repos : List SnapshotRepository) (seen : List SnapshotRevenueSplits)
    (r : SnapshotRevenueSplits) : Except SnapshotError Unit := do
  let some repo := repoWithId repos r.repoId | throw (.splitsUnknownRepository r.repoId)
  revertIf (∃ other ∈ seen, other.repoId = r.repoId) (.duplicateSplits r.repoId)
  revertIf (r.splits.length > 20) (.splitCount r.repoId)
  checkAll (checkSplit repo r) [] r.splits
  revertIf ((r.splits.map fun entry => entry.bps.toNat).sum > 10000) (.splitTotal r.repoId)

/-- A sponsor total against those before it. -/
def checkTotal (repos : List SnapshotRepository) (seen : List SnapshotSponsorTotal)
    (r : SnapshotSponsorTotal) : Except SnapshotError Unit := do
  revertIf (¬ ∃ repo ∈ repos, repo.id = r.repoId) (.totalUnknownRepository r.repoId)
  revertIf (r.denom.length = 0 ∨ r.denom.length > 128) (.totalDenom r.denom)
  let _ ← positiveDecimal "sponsor total" r.amount
  revertIf (∃ other ∈ seen, other.repoId = r.repoId ∧ other.denom = r.denom)
    (.duplicateTotal r.repoId r.denom)

/-! ## Usernames -/

/-- An original owner against those before it. -/
def checkOriginalOwner (seen : List SnapshotOriginalUsername) (r : SnapshotOriginalUsername) :
    Except SnapshotError Unit := do
  revertIf (validUsername r.name = false) (.invalidUsername r.name)
  let _ ← canonicalAddress "username owner" r.owner
  revertIf (∃ other ∈ seen, other.name = r.name) (.duplicateUsername r.name)
  match seen.find? (fun other => decide (other.owner = r.owner)) with
  | some existing => throw (.usernameOwner r.owner existing.name r.name)
  | none => pure ()

/-- A reserved name against those before it. -/
def checkReservedName (owners : List SnapshotOriginalUsername) (seen : List Bytes) (name : Bytes) :
    Except SnapshotError Unit := do
  revertIf (validUsername name = false) (.invalidReservedUsername name)
  revertIf (∃ other ∈ owners, other.name = name) (.reservedOverlaps name)
  revertIf (name ∈ seen) (.duplicateReservedUsername name)

/-- `validateEscrowRelease`. `blank` tells the texts `strings.TrimSpace` leaves empty. -/
def validateEscrowRelease (blank : Bytes → Bool) (escrow : UsernameEscrowRelease)
    (sourceContract : Bytes) (sourceHeight : UInt64) : Except SnapshotError Unit := do
  revertIf (escrow.allReleased = false) .escrowIncomplete
  revertIf (escrow.contract ≠ sourceContract) .escrowContract
  revertIf (escrow.height < sourceHeight) .escrowHeight
  revertIf (escrow.escrowBalance ≠ .canonical 0) (.invalidDecimal "username escrow balance")
  revertIf (blank escrow.denom = true) .escrowDenom
  let _ ← rawSHA256 "username escrow block hash" escrow.blockHash
  let _ ← rawSHA256 "username escrow evidence SHA-256" escrow.evidenceSha256
  pure ()

/-! ## Badges and releases -/

/-- A badge against those before it. -/
def checkBadge (repos : List SnapshotRepository) (seen : List SnapshotBadge) (b : SnapshotBadge) :
    Except SnapshotError Unit := do
  revertIf (b.id = 0) .badgeIdZero
  revertIf (∃ other ∈ seen, other.id = b.id) (.duplicateBadge b.id)
  revertIf (¬ ∃ repo ∈ repos, repo.id = b.repoId) (.badgeUnknownRepository b.id)
  let _ ← canonicalAddress "badge recipient" b.recipient
  let _ ← canonicalAddress "badge awarded_by" b.awardedBy
  revertIf (b.recipient = b.awardedBy) (.badgeSelfAward b.id)
  revertIf (b.reason.length = 0 ∨ b.reason.length > 256 ∨ b.awardedAt = 0) (.badge b.id)

/-- An index of badge IDs lists those of the badges with a key, each once and in any order. -/
def sameIndex {κ : Type} [DecidableEq κ] (index : List (κ × List UInt64))
    (badges : List (κ × UInt64)) : Prop :=
  (∀ entry ∈ index, ∃ badge ∈ badges, badge.1 = entry.1) ∧
    ∀ badge ∈ badges, ∃ entry ∈ index, entry.1 = badge.1 ∧ entry.2.Nodup ∧
      entry.2.Perm ((badges.filter fun other => decide (other.1 = badge.1)).map Prod.snd)

instance {κ : Type} [DecidableEq κ] (index : List (κ × List UInt64)) (badges : List (κ × UInt64)) :
    Decidable (sameIndex index badges) :=
  inferInstanceAs (Decidable ((∀ entry ∈ index, ∃ badge ∈ badges, badge.1 = entry.1) ∧
    ∀ badge ∈ badges, ∃ entry ∈ index, entry.1 = badge.1 ∧ entry.2.Nodup ∧
      entry.2.Perm ((badges.filter fun other => decide (other.1 = badge.1)).map Prod.snd)))

/-- An entry of the index by recipient against those before it. -/
def checkRecipientIndex (badges : List SnapshotBadge) (seen : List SnapshotBadgeRecipientIndex)
    (g : SnapshotBadgeRecipientIndex) : Except SnapshotError Unit := do
  let _ ← canonicalAddress "badge index recipient" g.recipient
  revertIf (∃ other ∈ seen, other.recipient = g.recipient) (.duplicateBadgeRecipientIndex g.recipient)
  g.badgeIds.forM fun id =>
    revertIf (¬ ∃ badge ∈ badges, badge.id = id ∧ badge.recipient = g.recipient) (.recipientIndex id)

/-- An entry of the index by repository against those before it. -/
def checkRepositoryIndex (badges : List SnapshotBadge) (seen : List SnapshotBadgeRepositoryIndex)
    (g : SnapshotBadgeRepositoryIndex) : Except SnapshotError Unit := do
  revertIf (∃ other ∈ seen, other.repoId = g.repoId) (.duplicateBadgeRepositoryIndex g.repoId)
  g.badgeIds.forM fun id =>
    revertIf (¬ ∃ badge ∈ badges, badge.id = id ∧ badge.repoId = g.repoId) (.repositoryIndex id)

/-- `validateBadgeIndexes`. -/
def validateBadgeIndexes (s : Snapshot) : Except SnapshotError Unit := do
  checkAll (checkRecipientIndex s.badges) [] s.badgesByRecipient
  checkAll (checkRepositoryIndex s.badges) [] s.badgesByRepository
  revertIf (¬ sameIndex (s.badgesByRecipient.map fun g => (g.recipient, g.badgeIds))
      (s.badges.map fun b => (b.recipient, b.id)) ∨
    ¬ sameIndex (s.badgesByRepository.map fun g => (g.repoId, g.badgeIds))
      (s.badges.map fun b => (b.repoId, b.id))) .badgeIndexes
  s.badges.forM fun b => revertIf
    ((s.badgesByRecipient.flatMap SnapshotBadgeRecipientIndex.badgeIds ++
      s.badgesByRepository.flatMap SnapshotBadgeRepositoryIndex.badgeIds).count b.id ≠ 2)
    (.badgeNotIndexed b.id)

/-- A release against those before it. -/
def checkRelease (seen : List SnapshotRelease) (r : SnapshotRelease) : Except SnapshotError Unit := do
  revertIf (validToken r.version 64 = false ∨ validToken r.platform 64 = false)
    (.releaseKey r.version r.platform)
  let _ ← rawSHA256 "release SHA-256" r.sha256
  let _ ← canonicalAddress "release registered_by" r.registeredBy
  revertIf (r.registeredAt = 0) (.releaseTimestamp r.version r.platform)
  revertIf (∃ other ∈ seen, other.version = r.version ∧ other.platform = r.platform)
    (.duplicateRelease r.version r.platform)

/-- An entry of the release index against those before it. -/
def checkReleaseIndex (seen : List SnapshotReleaseVersion) (g : SnapshotReleaseVersion) :
    Except SnapshotError Unit := do
  revertIf (validToken g.version 64 = false) (.releaseIndexVersion g.version)
  revertIf (∃ other ∈ seen, other.version = g.version) (.duplicateReleaseIndex g.version)

/-- The index entry of a version lists its platforms. -/
def checkIndexedVersion (s : Snapshot) (version : Bytes) : Except SnapshotError Unit := do
  let platforms := (s.releases.filter fun r => decide (r.version = version)).map
    SnapshotRelease.platform
  match s.releaseVersions.find? (fun g => decide (g.version = version)) with
  | none => throw (.releaseIndexMissing version)
  | some g => do
      revertIf (g.platforms.length ≠ platforms.length) (.releaseIndexCount version)
      revertIf (¬ (g.platforms.all (validToken · 64) ∧ g.platforms.Perm platforms ∧
        g.platforms.Nodup)) (.releaseIndexMismatch version)

/-- `validateReleaseIndexes`. -/
def validateReleaseIndexes (s : Snapshot) : Except SnapshotError Unit := do
  checkAll checkReleaseIndex [] s.releaseVersions
  let versions := (s.releases.map SnapshotRelease.version).dedup
  revertIf (s.releaseVersions.length ≠ versions.length) .releaseIndexCoverage
  versions.forM (checkIndexedVersion s)

/-! ## The snapshot -/

/-- `SnapshotSchema`. -/
def snapshotSchema : Bytes := ascii "igit.cosmwasm-v1.suite-snapshot.v1"

/-- `validateContractPolicy`. -/
def validateContractPolicy (policy : ContractPolicy) : Except SnapshotError Unit := do
  let _ ← canonicalAddress "policy admin" policy.admin
  let _ ← canonicalAddress "treasury" policy.treasury
  let _ ← canonicalAddress "committee" policy.committee
  let _ ← canonicalAddress "release authority" policy.releaseAuthority
  let _ ← canonicalAddress "username policy admin" policy.usernamePolicyAdmin
  revertIf (policy.platformFeeBps > 500) .platformFee

/-- The synthetic source a demo may have instead of a block hash: the digest of zeros. -/
def syntheticSource (source : SnapshotSource) : Prop :=
  source.chainId = ascii "injective-evm-testnet-demo" ∧
    source.contract = ascii "synthetic-demo-suite" ∧ source.height = 1 ∧
    source.blockHash = .canonical 0

instance (source : SnapshotSource) : Decidable (syntheticSource source) :=
  inferInstanceAs (Decidable (_ ∧ _))

/-- The digests of a source. -/
def checkDigests (source : SnapshotSource) : Except SnapshotError Unit := do
  if syntheticSource source then pure ()
  else do
    let _ ← rawSHA256 "source block hash" source.blockHash
    pure ()
  let _ ← rawSHA256 "inventory SHA-256" source.inventorySha256
  let _ ← rawSHA256 "tx_search SHA-256" source.txSearchSha256
  let _ ← rawSHA256 "block evidence SHA-256" source.blockEvidenceSha256
  let _ ← rawSHA256 "event commitment SHA-256" source.eventCommitmentSha256
  pure ()

/-- The source of a snapshot. -/
def checkSource (blank : Bytes → Bool) (source : SnapshotSource) : Except SnapshotError Unit := do
  revertIf (blank source.chainId = true ∨ blank source.contract = true ∨ source.height = 0)
    .sourceRequired
  checkDigests source

/-- `validateSnapshot`. -/
def validateSnapshot (blank : Bytes → Bool) (s : Snapshot) : Except SnapshotError Unit := do
  revertIf (s.schema ≠ snapshotSchema) (.schema s.schema)
  checkSource blank s.source
  validateContractPolicy s.contractPolicy
  validateRepositories s.repositories s.aliases
  checkAll (checkRef s.repositories) [] s.refs
  checkAll (checkCollaborator s.repositories) [] s.collaborators
  checkAll (checkGuardianConfig s.repositories) [] s.guardianConfigs
  checkAll (checkFinalStatus s.repositories) [] s.finalStatuses
  revertIf (s.finalStatuses.length ≠ s.repositories.length)
    (.statusCoverage s.finalStatuses.length s.repositories.length)
  checkAll (checkReport s.repositories) [] s.reports
  checkAll (checkStatusTrail s) [] s.statusTrails
  checkAll (checkSplits s.repositories) [] s.splits
  checkAll (checkTotal s.repositories) [] s.totals
  checkAll checkOriginalOwner [] s.originalOwners
  revertIf (s.reservedNames.length > 128) .reservedLimit
  checkAll (checkReservedName s.originalOwners) [] s.reservedNames
  validateEscrowRelease blank s.escrowRelease s.source.contract s.source.height
  checkAll (checkBadge s.repositories) [] s.badges
  validateBadgeIndexes s
  checkAll checkRelease [] s.releases
  validateReleaseIndexes s

end Igit.Migration
