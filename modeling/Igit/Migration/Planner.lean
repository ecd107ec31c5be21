import Igit.Migration.Validate

/-!
# Plans and their calls

`BuildPlan`, `ValidatePlan` and `BuildCalldataManifest` of `cli/internal/suitemigration`. `Env` is
what the planner takes from its libraries: the two hashes, geth's ABI packing and the JSON decoder.
The ABI types of a kind are fixed, so that packing is a function for each kind, and a plan is
accepted only if packing what was unpacked gives the payload back.

The calldata of the manifest is the call it stands for. `Sample.codecEnv` is a planner whose packing
the decoders of `Sample.importing` read, and `Sample.plan` a plan of it.
-/

namespace Igit.Migration

open Fallible

/-- What the planner takes from its libraries. `hashText`, `addressText` and `decimalText` are the
texts of hashes, addresses and numbers, of which item keys are made. -/
structure Env where
  keccak : Keccak
  sha256 : Bytes → Bytes32
  blank : Bytes → Bool
  hashText : Text Bytes32 → Bytes
  addressText : Text Address → Bytes
  decimalText : UInt64 → Bytes
  packKind : UInt8 → Bytes → Bytes
  unpackKind : Bytes → Option (UInt8 × Bytes)
  pack : (k : Kind) → List k.Record → Bytes
  unpack : (k : Kind) → Bytes → Option (List k.Record)
  decodeSnapshot : Bytes → Option Snapshot

/-- Solidity decodes what geth packs and reads back. Numbers that do not fit their ABI type are packed
too, but not read back. -/
structure Env.Faithful (env : Env) (abi : AbiDecode) : Prop where
  kind : ∀ code records, abi.kindAndRecords (env.packKind code records) = some (code.toNat, records)
  records : ∀ k records, env.unpack k (env.pack k records) = some records →
    abi.records k (env.pack k records) = records.mapM k.toImport

/-- `MaximumBatchItems`. -/
def maximumBatchItems : Nat := 128
/-- `MaximumPayloadBytes`. -/
def maximumPayloadBytes : Nat := 96000
/-- `RequiredModuleCount`. -/
def requiredModuleCount : Nat := 7
/-- `SuiteVersion`. -/
def suiteVersion : UInt64 := 3
/-- `DefaultBatchSize`. -/
def defaultBatchSize : Int := 64

/-! ## The plan -/

/-- `PlanBatch`. -/
structure PlanBatch where
  sequence : UInt64
  kind : Bytes
  kindCode : UInt8
  count : UInt64
  itemKeys : List Bytes
  payload : Text Bytes
  payloadHash : Text Bytes32
  rollingRoot : Text Bytes32
  deriving DecidableEq, Repr

/-- `ModulePlan`. A batch takes 112 bytes of a 64-bit address space, so that there are fewer than
`2 ^ 57` of them. -/
structure ModulePlan where
  order : Int
  name : Bytes
  id : Text ModuleId
  expectedCount : UInt64
  expectedBatches : UInt64
  expectedRoot : Text Bytes32
  batches : List PlanBatch
  batches_fit : batches.length < 2 ^ 57

/-- `PlanSnapshot`. -/
structure PlanSnapshot where
  schema : Bytes
  sha256 : Text Bytes32
  root : Text Bytes32
  sourceChainId : Bytes
  sourceContract : Bytes
  sourceHeight : UInt64
  sourceBlockHash : Text Bytes32
  inventorySha256 : Text Bytes32
  txSearchSha256 : Text Bytes32
  blockEvidenceSha256 : Text Bytes32
  eventCommitmentSha256 : Text Bytes32
  deriving DecidableEq, Repr

/-- `PlanTarget`. -/
structure PlanTarget where
  chainId : UInt64
  suiteVersion : UInt64
  directory : Text Address
  coordinator : Text Address
  deriving DecidableEq, Repr

/-- `PlanLimits`. -/
structure PlanLimits where
  batchSize : Int
  maxBatchItems : Int
  maxPayloadBytes : Int
  deriving DecidableEq, Repr

/-- `PlanSummary`, with its fourteen record counts as one function. -/
structure PlanSummary where
  count : Kind → Int
  batchCount : Int
  transactionCount : Int

/-- `Plan`. -/
structure Plan where
  schema : Bytes
  executable : Bool
  snapshot : PlanSnapshot
  target : PlanTarget
  contractPolicy : ContractPolicy
  usernameEscrowRelease : UsernameEscrowRelease
  usernameEscrowEvidenceHash : Text Bytes32
  limits : PlanLimits
  modules : List ModulePlan
  summary : PlanSummary

/-- The errors of `BuildPlan`, `ValidatePlan` and `BuildCalldataManifest`. -/
inductive PlanError where
  | emptySnapshot
  | decodeSnapshot
  | snapshot (cause : SnapshotError)
  | targetChain
  | sameAddress
  | batchSize
  | recordKeys
  | recordTooLarge (key : Bytes) (size : Nat)
  | tooManyBatches
  | unsupported
  | snapshotSchema (schema : Bytes)
  | snapshotRoot
  | sourceHeight
  | sourceRequired
  | target
  | limits
  | evidenceHash
  | moduleCount (count : Nat)
  | moduleNotCanonical (order : Nat)
  | batchSequence (name : Bytes) (index : Nat)
  | batchItemKey (name : Bytes) (index : Nat)
  | batchPayload
  | batchPayloadSize (name : Bytes) (index size : Nat)
  | batchDecode (name : Bytes) (index : Nat)
  | batchCount (name : Bytes) (index actual count : Nat)
  | batchKind (name : Bytes) (index : Nat)
  | batchKindOrder (name : Bytes) (index : Nat)
  | batchKindContiguous (name : Bytes) (index : Nat)
  | batchPayloadHash (name : Bytes) (index : Nat)
  | batchRollingRoot (name : Bytes) (index : Nat)
  | moduleExpected (name : Bytes)
  | summaryCounts
  | summaryItems
  | summaryKind (k : Kind)
  | transactionCount (generated : Nat)
  deriving DecidableEq, Repr

/-- The domain name of a module without `igit.module.`. -/
def moduleName : Module → Bytes
  | .core => ascii "repository-core"
  | .recovery => ascii "recovery"
  | .moderation => ascii "moderation"
  | .economic => ascii "economic"
  | .username => ascii "username"
  | .badge => ascii "badge"
  | .release => ascii "release"

/-- The kinds in the order of the summary. -/
def allKinds : List Kind :=
  [.repositories, .aliases, .refs, .collaborators, .guardianConfigs, .finalStatuses, .reports,
    .statusTrails, .splits, .totals, .originalOwners, .reservedNames, .badges, .artifacts]

/-- `PlanSchema`. -/
def planSchema : Bytes := ascii "igit.evm-suite.bootstrap-plan.v1"

/-! ## Payloads and roots -/

namespace Env

variable (env : Env)

/-- `encodeKindPayload` or `encodeDirectPayload`. -/
def encode (k : Kind) (records : List k.Record) : Bytes :=
  if k.wrapped then env.packKind k.code (env.pack k records) else env.pack k records

/-- The records inside the wrapper of a payload. -/
def unwrap (k : Kind) (payload : Bytes) : Option Bytes :=
  if k.wrapped then do
    let outer ← env.unpackKind payload
    if outer.1 = k.code ∧ env.packKind outer.1 outer.2 = payload then some outer.2 else none
  else some payload

/-- `decodePayloadCount`. -/
def decodePayloadCount (m : Module) (code : UInt8) (payload : Bytes) : Option Nat := do
  let k ← kindAt m code
  let encoded ← env.unwrap k payload
  let records ← env.unpack k encoded
  if env.pack k records = encoded then some records.length else none

/-- `rollingSeed`. -/
def rollingSeed (id : ModuleId) (snapshotRoot : Bytes32) : Bytes32 :=
  env.keccak.hash (.rollingSeed id snapshotRoot)

/-- `rollingStep`. -/
def rollingStep (previous : Bytes32) (id : ModuleId) (sequence count : UInt64)
    (payloadHash : Bytes32) : Bytes32 :=
  env.keccak.hash (.rollingStep previous id sequence.toNat count.toNat payloadHash)

end Env

/-! ## The records of a module -/

/-- `bytes` order of strings. -/
def bytesLess : Bytes → Bytes → Bool
  | _, [] => false
  | [], _ :: _ => true
  | a :: as, b :: bs => if a = b then bytesLess as bs else decide (a < b)

/-- The order of two hashes by their texts, which have one length. -/
def hashLess (a b : Text Bytes32) : Bool := decide (a.valueD 0 < b.valueD 0)

/-- The order of two addresses by their texts, which have one length. -/
def addressLess (a b : Text Address) : Bool := decide ((a.valueD 0).toNat < (b.valueD 0).toNat)

/-- Compare by a first key, and by a second where the first is the same. -/
def lessThen {α κ : Type} [DecidableEq κ] (key : α → κ) (less : κ → κ → Bool)
    (next : α → α → Bool) (a b : α) : Bool :=
  if key a ≠ key b then less (key a) (key b) else next a b

/-- `sort.Slice`. -/
def sortSlice {α : Type} (less : α → α → Bool) (items : List α) : List α :=
  items.insertionSort fun a b => less b a = false

/-- `forkDepth`. A lineage that ends is shorter than the list of repositories. -/
def forkDepth (repos : List SnapshotRepository) : Nat → Text Bytes32 → Nat
  | 0, _ => 0
  | fuel + 1, id =>
      if forkParent repos id = .empty then 0 else forkDepth repos fuel (forkParent repos id) + 1

/-- The repositories by fork depth, then ID. -/
def sortRepositories (repos : List SnapshotRepository) : List SnapshotRepository :=
  sortSlice (lessThen (fun r => forkDepth repos repos.length r.id) (fun a b => decide (a < b))
    fun a b => hashLess a.id b.id) repos

/-- A repository as `snapshotModuleRecords` packs it. -/
def SnapshotRepository.toABI (r : SnapshotRepository) : CoreRepositoryABI where
  id := r.id.valueD 0
  owner := r.owner.valueD 0
  name := r.name
  description := r.description
  defaultBranch := r.defaultBranch
  forkedFrom := r.forkedFrom.valueD 0
  createdAt := r.createdAt
  updatedAt := r.updatedAt

/-- The aliases by owner, then name. -/
def sortAliases (aliases : List SnapshotAlias) : List SnapshotAlias :=
  sortSlice (lessThen SnapshotAlias.owner addressLess fun a b => bytesLess a.name b.name) aliases

/-- An alias as `snapshotModuleRecords` packs it. -/
def SnapshotAlias.toABI (r : SnapshotAlias) : CoreAliasABI :=
  ⟨r.repoId.valueD 0, r.owner.valueD 0, r.name⟩

/-- The refs by repository, then name. -/
def sortRefs (refs : List SnapshotRef) : List SnapshotRef :=
  sortSlice (lessThen SnapshotRef.repoId hashLess fun a b => bytesLess a.refName b.refName) refs

/-- A ref as `snapshotModuleRecords` packs it. -/
def SnapshotRef.toABI (r : SnapshotRef) : CoreRefABI :=
  ⟨r.repoId.valueD 0, r.refName, r.commitSha, r.packUris, r.updatedAt, r.updatedBy.valueD 0⟩

/-- The collaborators by repository, then account. -/
def sortCollaborators (collaborators : List SnapshotCollaborator) : List SnapshotCollaborator :=
  sortSlice (lessThen SnapshotCollaborator.repoId hashLess
    fun a b => addressLess a.account b.account) collaborators

/-- A collaborator as `snapshotModuleRecords` packs it. -/
def SnapshotCollaborator.toABI (r : SnapshotCollaborator) : CoreCollaboratorABI :=
  ⟨r.repoId.valueD 0, r.account.valueD 0, (roleCode r.role).toOption.getD 0⟩

/-- The guardians by repository. -/
def sortGuardianConfigs (guardians : List SnapshotGuardianConfig) : List SnapshotGuardianConfig :=
  sortSlice (fun a b => hashLess a.repoId b.repoId) guardians

/-- The guardians of a repository as `snapshotModuleRecords` packs it. -/
def SnapshotGuardianConfig.toABI (r : SnapshotGuardianConfig) : GuardianConfigABI :=
  ⟨r.repoId.valueD 0, r.configuredBy.valueD 0, r.threshold, r.guardians.map (Text.valueD 0)⟩

/-- The statuses by repository. -/
def sortFinalStatuses (statuses : List SnapshotFinalStatus) : List SnapshotFinalStatus :=
  sortSlice (fun a b => hashLess a.repoId b.repoId) statuses

/-- The status of a repository as `snapshotModuleRecords` packs it. -/
def SnapshotFinalStatus.toABI (r : SnapshotFinalStatus) : ModerationStatusABI :=
  ⟨r.repoId.valueD 0, (repoStatusCode r.status).toOption.getD 0⟩

/-- The reports by number. -/
def sortReports (reports : List SnapshotReport) : List SnapshotReport :=
  sortSlice (fun a b => decide (a.id < b.id)) reports

/-- An entry of the trail of a report as `snapshotModuleRecords` packs it. -/
def SnapshotReportTrail.toABI (e : SnapshotReportTrail) : ModerationReportTrailABI :=
  ⟨(trailActionCode e.action).toOption.getD 0, e.actor.valueD 0,
    (repoStatusCode e.status).toOption.getD 0, e.reasonHash, e.timestamp⟩

/-- A report as `snapshotModuleRecords` packs it. -/
def SnapshotReport.toABI (r : SnapshotReport) : ModerationReportABI where
  id := r.id.toNat
  repoId := r.repoId.valueD 0
  reporter := r.reporter.valueD 0
  status := (reportStatusCode r.status).toOption.getD 0
  resolution := (repoStatusCode r.resolution).toOption.getD 0
  reasonHash := r.reasonHash
  createdAt := r.createdAt
  updatedAt := r.updatedAt
  present := true
  trail := r.trail.map SnapshotReportTrail.toABI

/-- The trails of statuses by repository. -/
def sortStatusTrails (trails : List SnapshotStatusTrail) : List SnapshotStatusTrail :=
  sortSlice (fun a b => hashLess a.repoId b.repoId) trails

/-- An entry of the trail of a status as `snapshotModuleRecords` packs it. -/
def SnapshotRepositoryStatusLog.toABI (e : SnapshotRepositoryStatusLog) : ModerationStatusLogABI :=
  ⟨(repoStatusCode e.status).toOption.getD 0, e.actor.valueD 0, e.reasonHash, e.timestamp,
    e.reportId.toNat⟩

/-- The trail of a status as `snapshotModuleRecords` packs it. -/
def SnapshotStatusTrail.toABI (r : SnapshotStatusTrail) : ModerationStatusTrailABI :=
  ⟨r.repoId.valueD 0, r.trail.map SnapshotRepositoryStatusLog.toABI⟩

/-- The tables of shares by repository. -/
def sortSplits (splits : List SnapshotRevenueSplits) : List SnapshotRevenueSplits :=
  sortSlice (fun a b => hashLess a.repoId b.repoId) splits

/-- The shares of a repository as `snapshotModuleRecords` packs it. -/
def SnapshotRevenueSplits.toABI (r : SnapshotRevenueSplits) : EconomicSplitsABI :=
  ⟨r.repoId.valueD 0, r.splits.map fun e => ⟨e.recipient.valueD 0, e.bps⟩⟩

/-- The totals by repository, then denomination. -/
def sortTotals (totals : List SnapshotSponsorTotal) : List SnapshotSponsorTotal :=
  sortSlice (lessThen SnapshotSponsorTotal.repoId hashLess fun a b => bytesLess a.denom b.denom)
    totals

/-- A total as `snapshotModuleRecords` packs it. -/
def SnapshotSponsorTotal.toABI (r : SnapshotSponsorTotal) : EconomicTotalABI :=
  ⟨r.repoId.valueD 0, r.denom, r.amount.valueD 0⟩

/-- The owners by name. -/
def sortOriginalOwners (owners : List SnapshotOriginalUsername) : List SnapshotOriginalUsername :=
  sortSlice (fun a b => bytesLess a.name b.name) owners

/-- The owner of a name as `snapshotModuleRecords` packs it. -/
def SnapshotOriginalUsername.toABI (r : SnapshotOriginalUsername) : UsernameOwnerABI :=
  ⟨r.name, r.owner.valueD 0⟩

/-- The names by their bytes. -/
def sortReservedNames (names : List Bytes) : List Bytes := sortSlice bytesLess names

/-- The badges by number. -/
def sortBadges (badges : List SnapshotBadge) : List SnapshotBadge :=
  sortSlice (fun a b => decide (a.id < b.id)) badges

/-- A badge as `snapshotModuleRecords` packs it. -/
def SnapshotBadge.toABI (r : SnapshotBadge) : BadgeABI :=
  ⟨r.id.toNat, r.repoId.valueD 0, r.recipient.valueD 0, r.awardedBy.valueD 0, r.reason, r.awardedAt,
    true⟩

/-- The artifacts by version, then platform. -/
def sortReleases (releases : List SnapshotRelease) : List SnapshotRelease :=
  sortSlice (lessThen SnapshotRelease.version bytesLess fun a b => bytesLess a.platform b.platform)
    releases

/-- An artifact as `snapshotModuleRecords` packs it. -/
def SnapshotRelease.toABI (r : SnapshotRelease) : ReleaseABI :=
  ⟨r.version, r.platform, r.sha256.valueD 0, r.registeredBy.valueD 0, r.registeredAt, true⟩

/-- What stands between the parts of an item key. -/
def colon : Bytes := ascii ":"

namespace Kind

/-- The type of the entries of a list of the snapshot. -/
def Item : Kind → Type
  | repositories => SnapshotRepository
  | aliases => SnapshotAlias
  | refs => SnapshotRef
  | collaborators => SnapshotCollaborator
  | guardianConfigs => SnapshotGuardianConfig
  | finalStatuses => SnapshotFinalStatus
  | reports => SnapshotReport
  | statusTrails => SnapshotStatusTrail
  | splits => SnapshotRevenueSplits
  | totals => SnapshotSponsorTotal
  | originalOwners => SnapshotOriginalUsername
  | reservedNames => Bytes
  | badges => SnapshotBadge
  | artifacts => SnapshotRelease

/-- The record of an entry. -/
def toABI : (k : Kind) → k.Item → k.Record
  | repositories => SnapshotRepository.toABI
  | aliases => SnapshotAlias.toABI
  | refs => SnapshotRef.toABI
  | collaborators => SnapshotCollaborator.toABI
  | guardianConfigs => SnapshotGuardianConfig.toABI
  | finalStatuses => SnapshotFinalStatus.toABI
  | reports => SnapshotReport.toABI
  | statusTrails => SnapshotStatusTrail.toABI
  | splits => SnapshotRevenueSplits.toABI
  | totals => SnapshotSponsorTotal.toABI
  | originalOwners => SnapshotOriginalUsername.toABI
  | reservedNames => id
  | badges => SnapshotBadge.toABI
  | artifacts => SnapshotRelease.toABI

/-- The item key of an entry. -/
def itemKey (env : Env) : (k : Kind) → k.Item → Bytes
  | repositories => fun r : SnapshotRepository => env.hashText r.id
  | aliases => fun r : SnapshotAlias => env.addressText r.owner ++ ascii "/" ++ r.name
  | refs => fun r : SnapshotRef => env.hashText r.repoId ++ colon ++ r.refName
  | collaborators => fun r : SnapshotCollaborator =>
      env.hashText r.repoId ++ colon ++ env.addressText r.account
  | guardianConfigs => fun r : SnapshotGuardianConfig => env.hashText r.repoId
  | finalStatuses => fun r : SnapshotFinalStatus => env.hashText r.repoId
  | reports => fun r : SnapshotReport => env.decimalText r.id
  | statusTrails => fun r : SnapshotStatusTrail => env.hashText r.repoId
  | splits => fun r : SnapshotRevenueSplits => env.hashText r.repoId
  | totals => fun r : SnapshotSponsorTotal => env.hashText r.repoId ++ colon ++ r.denom
  | originalOwners => SnapshotOriginalUsername.name
  | reservedNames => id
  | badges => fun r : SnapshotBadge => env.decimalText r.id
  | artifacts => fun r : SnapshotRelease => r.version ++ colon ++ r.platform

end Kind

namespace Snapshot

/-- The list of a kind. -/
def items (s : Snapshot) : (k : Kind) → List k.Item
  | .repositories => s.repositories
  | .aliases => s.aliases
  | .refs => s.refs
  | .collaborators => s.collaborators
  | .guardianConfigs => s.guardianConfigs
  | .finalStatuses => s.finalStatuses
  | .reports => s.reports
  | .statusTrails => s.statusTrails
  | .splits => s.splits
  | .totals => s.totals
  | .originalOwners => s.originalOwners
  | .reservedNames => s.reservedNames
  | .badges => s.badges
  | .artifacts => s.releases

/-- The list of a kind, sorted. -/
def sorted (s : Snapshot) : (k : Kind) → List k.Item
  | .repositories => sortRepositories s.repositories
  | .aliases => sortAliases s.aliases
  | .refs => sortRefs s.refs
  | .collaborators => sortCollaborators s.collaborators
  | .guardianConfigs => sortGuardianConfigs s.guardianConfigs
  | .finalStatuses => sortFinalStatuses s.finalStatuses
  | .reports => sortReports s.reports
  | .statusTrails => sortStatusTrails s.statusTrails
  | .splits => sortSplits s.splits
  | .totals => sortTotals s.totals
  | .originalOwners => sortOriginalOwners s.originalOwners
  | .reservedNames => sortReservedNames s.reservedNames
  | .badges => sortBadges s.badges
  | .artifacts => sortReleases s.releases

/-- The values of `snapshotModuleRecords` for a kind. -/
def values (s : Snapshot) (k : Kind) : List k.Record := (s.sorted k).map k.toABI

/-- The item keys of `snapshotModuleRecords` for a kind. -/
def itemKeys (env : Env) (s : Snapshot) (k : Kind) : List Bytes := (s.sorted k).map (k.itemKey env)

/-- The number of records of a kind, as the summary counts them. -/
def recordCount (s : Snapshot) (k : Kind) : Nat := (s.items k).length

end Snapshot

/-! ## Batches -/

/-- The inner loop of `appendRecordBatches`: halve the batch until its payload fits. Halving a number
leads to one in fewer steps than the number. -/
def fitBatch (env : Env) (k : Kind) (values : List k.Record) (key : Bytes) :
    Nat → Nat → Except PlanError Nat
  | fuel, size =>
      let length := (env.encode k (values.take size)).length
      if length ≤ maximumPayloadBytes then pure size
      else match fuel with
        | 0 => throw (.recordTooLarge key length)
        | fuel + 1 =>
            if size = 1 then throw (.recordTooLarge key length)
            else fitBatch env k values key fuel (size / 2)

/-- The outer loop of `appendRecordBatches`: the values of a group, batch by batch, with their keys.
Each round takes a value at least. -/
def splitBatches (env : Env) (k : Kind) (batchSize : Nat) :
    Nat → List k.Record → List Bytes → Except PlanError (List (List k.Record × List Bytes))
  | 0, _, _ => pure []
  | fuel + 1, values, keys =>
      if values.length = 0 then pure []
      else do
        let first := min batchSize values.length
        let size ← fitBatch env k values (keys.headD []) first first
        let rest ← splitBatches env k batchSize fuel (values.drop size) (keys.drop size)
        pure ((values.take size, keys.take size) :: rest)

/-- A module plan in the making. -/
structure Builder where
  batches : List PlanBatch
  count : UInt64
  root : Bytes32

/-- Append a batch with an encoded payload. -/
def Builder.push (env : Env) (id : ModuleId) (kind : Bytes) (code : UInt8) (b : Builder) (size : Nat)
    (keys : List Bytes) (payload : Bytes) : Builder :=
  let count := UInt64.ofNat size
  let sequence := UInt64.ofNat b.batches.length
  let payloadHash := env.keccak.ofBytes payload
  let root := env.rollingStep b.root id sequence count payloadHash
  { batches := b.batches ++ [⟨sequence, kind, code, count, keys, .canonical payload,
      .canonical payloadHash, .canonical root⟩]
    count := b.count + count
    root := root }

/-- Append one batch of records with their keys. -/
def Builder.append (env : Env) (m : Module) (k : Kind) (b : Builder)
    (batch : List k.Record × List Bytes) : Builder :=
  b.push env (.suite m) k.name k.code batch.1.length batch.2 (env.encode k batch.1)

/-- `appendRecordBatches`. -/
def appendRecordBatches (env : Env) (s : Snapshot) (m : Module) (batchSize : Nat) (b : Builder)
    (k : Kind) : Except PlanError Builder := do
  revertIf ((s.values k).length ≠ (s.itemKeys env k).length) .recordKeys
  let batches ← splitBatches env k batchSize (s.values k).length (s.values k) (s.itemKeys env k)
  pure (batches.foldl (Builder.append env m k) b)

/-- The plan of a module. -/
def buildModule (env : Env) (s : Snapshot) (snapshotRoot : Bytes32) (batchSize : Nat) (m : Module) :
    Except PlanError ModulePlan := do
  let b ← (kindsOf m).foldlM (appendRecordBatches env s m batchSize)
    ⟨[], 0, env.rollingSeed (.suite m) snapshotRoot⟩
  if h : b.batches.length < 2 ^ 57 then
    pure ⟨m.index, moduleName m, .canonical (.suite m), b.count, UInt64.ofNat b.batches.length,
      .canonical b.root, b.batches, h⟩
  else throw .tooManyBatches

/-! ## Validating a plan -/

/-- What the loop of `ValidatePlan` over the batches of a module carries. -/
structure BatchScan where
  index : Nat
  root : Bytes32
  count : UInt64
  lastKind : UInt8
  seenKinds : List UInt8

/-- One round of the loop over the batches of a module. -/
def validateBatch (env : Env) (batchSize : Int) (m : Module) (scan : BatchScan)
    (batch : PlanBatch) : Except PlanError BatchScan := do
  let name := moduleName m
  revertIf (batch.sequence ≠ UInt64.ofNat scan.index ∨ batch.count = 0 ∨
    batch.count.toNat > maximumBatchItems ∨ (batch.count.toNat : Int) > batchSize ∨
    batch.itemKeys.length ≠ batch.count.toNat) (.batchSequence name scan.index)
  revertIf (∃ key ∈ batch.itemKeys, env.blank key = true) (.batchItemKey name scan.index)
  match batch.payload with
  | .other _ => throw .batchPayload
  | .canonical payload => do
      revertIf (payload.length = 0 ∨ payload.length > maximumPayloadBytes)
        (.batchPayloadSize name scan.index payload.length)
      match env.decodePayloadCount m batch.kindCode payload with
      | none => throw (.batchDecode name scan.index)
      | some actualCount => do
          revertIf (actualCount ≠ batch.count.toNat)
            (.batchCount name scan.index actualCount batch.count.toNat)
          revertIf ((kindAt m batch.kindCode).map Kind.name ≠ some batch.kind)
            (.batchKind name scan.index)
          revertIf (scan.index ≠ 0 ∧ batch.kindCode < scan.lastKind)
            (.batchKindOrder name scan.index)
          revertIf (batch.kindCode ∈ scan.seenKinds ∧ batch.kindCode ≠ scan.lastKind)
            (.batchKindContiguous name scan.index)
          let payloadHash := env.keccak.ofBytes payload
          revertIf (batch.payloadHash ≠ .canonical payloadHash) (.batchPayloadHash name scan.index)
          let root := env.rollingStep scan.root (.suite m) batch.sequence batch.count payloadHash
          revertIf (batch.rollingRoot ≠ .canonical root) (.batchRollingRoot name scan.index)
          pure ⟨scan.index + 1, root, scan.count + batch.count, batch.kindCode,
            batch.kindCode :: scan.seenKinds⟩

/-- One round of the loop over the modules. -/
def validateModule (env : Env) (snapshotRoot : Bytes32) (batchSize : Int) (m : Module)
    (module : ModulePlan) : Except PlanError Unit := do
  revertIf (module.order ≠ m.index ∨ module.name ≠ moduleName m ∨ module.id ≠ .canonical (.suite m))
    (.moduleNotCanonical m.index)
  let scan ← module.batches.foldlM (validateBatch env batchSize m)
    ⟨0, env.rollingSeed (.suite m) snapshotRoot, 0, 0, []⟩
  revertIf (module.expectedCount ≠ scan.count ∨
    module.expectedBatches ≠ UInt64.ofNat module.batches.length ∨
    module.expectedRoot ≠ .canonical scan.root) (.moduleExpected module.name)

/-- The modules of a plan, each with its own. -/
def validateModules (env : Env) (snapshotRoot : Bytes32) (batchSize : Int) :
    List Module → List ModulePlan → Except PlanError Unit
  | m :: rest, module :: modules => do
      validateModule env snapshotRoot batchSize m module
      validateModules env snapshotRoot batchSize rest modules
  | _, _ => pure ()

/-- The records of a batch list that a kind has. -/
def kindCount (plan : Plan) (k : Kind) : UInt64 :=
  ((plan.modules.filter fun module => decide (module.name = moduleName k.module)).flatMap
    ModulePlan.batches).foldl
    (fun count batch => if batch.kind = k.name then count + batch.count else count) 0

/-- The records of all batches. -/
def totalCount (plan : Plan) : UInt64 :=
  (plan.modules.flatMap ModulePlan.batches).foldl (fun count batch => count + batch.count) 0

/-- The number of all batches. -/
def totalBatches (modules : List ModulePlan) : Nat :=
  (modules.map fun module => module.batches.length).sum

/-- The summary of a plan. -/
def validateSummary (plan : Plan) : Except PlanError Unit := do
  let batchCount : Int := totalBatches plan.modules
  revertIf (plan.summary.batchCount ≠ batchCount ∨
    plan.summary.transactionCount ≠ 2 * requiredModuleCount + batchCount + 2) .summaryCounts
  revertIf (totalCount plan ≠ UInt64.ofInt (allKinds.map plan.summary.count).sum) .summaryItems
  allKinds.forM fun k => revertIf (plan.summary.count k < 0 ∨
    kindCount plan k ≠ UInt64.ofInt (plan.summary.count k)) (.summaryKind k)

/-- The source of the snapshot of a plan, with the digests as `validateSnapshot` has them. -/
def PlanSnapshot.source (s : PlanSnapshot) : SnapshotSource where
  chainId := s.sourceChainId
  contract := s.sourceContract
  height := s.sourceHeight
  blockHash := s.sourceBlockHash
  inventorySha256 := s.inventorySha256
  txSearchSha256 := s.txSearchSha256
  blockEvidenceSha256 := s.blockEvidenceSha256
  eventCommitmentSha256 := s.eventCommitmentSha256

/-- `ValidatePlan`. -/
def validatePlan (env : Env) (plan : Plan) : Except PlanError Unit := do
  revertIf (plan.schema ≠ planSchema ∨ plan.executable = false) .unsupported
  revertIf (plan.snapshot.schema ≠ snapshotSchema) (.snapshotSchema plan.snapshot.schema)
  let digest ← (rawSHA256 "snapshot SHA-256" plan.snapshot.sha256).mapError .snapshot
  let snapshotRoot ← (parseHash "snapshot root" plan.snapshot.root).mapError .snapshot
  revertIf (snapshotRoot ≠ digest) .snapshotRoot
  revertIf (plan.snapshot.sourceHeight = 0) .sourceHeight
  revertIf (env.blank plan.snapshot.sourceChainId = true ∨
    env.blank plan.snapshot.sourceContract = true) .sourceRequired
  (checkDigests plan.snapshot.source).mapError .snapshot
  revertIf (plan.target.chainId = 0 ∨ plan.target.suiteVersion ≠ suiteVersion) .target
  let _ ← (canonicalAddress "SuiteDirectory" plan.target.directory).mapError .snapshot
  let _ ← (canonicalAddress "BootstrapCoordinator" plan.target.coordinator).mapError .snapshot
  revertIf (plan.target.directory = plan.target.coordinator) .sameAddress
  (validateContractPolicy plan.contractPolicy).mapError .snapshot
  (validateEscrowRelease env.blank plan.usernameEscrowRelease plan.snapshot.sourceContract
    plan.snapshot.sourceHeight).mapError .snapshot
  revertIf (plan.limits.batchSize < 1 ∨ plan.limits.batchSize > maximumBatchItems ∨
    plan.limits.maxBatchItems ≠ maximumBatchItems ∨
    plan.limits.maxPayloadBytes ≠ maximumPayloadBytes) .limits
  let _ ← (parseHash "username escrow evidence hash"
    plan.usernameEscrowEvidenceHash).mapError .snapshot
  revertIf (plan.usernameEscrowEvidenceHash ≠ plan.usernameEscrowRelease.evidenceSha256)
    .evidenceHash
  revertIf (plan.modules.length ≠ requiredModuleCount) (.moduleCount plan.modules.length)
  validateModules env snapshotRoot plan.limits.batchSize requiredModules plan.modules
  validateSummary plan

/-! ## Building a plan -/

/-- `BuildOptions`. -/
structure BuildOptions where
  targetChainId : UInt64
  directory : Text Address
  coordinator : Text Address
  batchSize : Int
  deriving DecidableEq, Repr

/-- `BuildPlan`. -/
def buildPlan (env : Env) (raw : Bytes) (options : BuildOptions) : Except PlanError Plan := do
  revertIf (raw.length = 0) .emptySnapshot
  let some snapshot := env.decodeSnapshot raw | throw .decodeSnapshot
  (validateSnapshot env.blank snapshot).mapError .snapshot
  revertIf (options.targetChainId = 0) .targetChain
  let _ ← (canonicalAddress "SuiteDirectory" options.directory).mapError .snapshot
  let _ ← (canonicalAddress "BootstrapCoordinator" options.coordinator).mapError .snapshot
  revertIf (options.directory = options.coordinator) .sameAddress
  let batchSize := if options.batchSize = 0 then defaultBatchSize else options.batchSize
  revertIf (batchSize < 1 ∨ batchSize > maximumBatchItems) .batchSize
  let snapshotRoot := env.sha256 raw
  let modules ← requiredModules.mapM (buildModule env snapshot snapshotRoot batchSize.toNat)
  let plan : Plan :=
    { schema := planSchema
      executable := true
      snapshot :=
        { schema := snapshot.schema
          sha256 := .canonical snapshotRoot
          root := .canonical snapshotRoot
          sourceChainId := snapshot.source.chainId
          sourceContract := snapshot.source.contract
          sourceHeight := snapshot.source.height
          sourceBlockHash := snapshot.source.blockHash
          inventorySha256 := snapshot.source.inventorySha256
          txSearchSha256 := snapshot.source.txSearchSha256
          blockEvidenceSha256 := snapshot.source.blockEvidenceSha256
          eventCommitmentSha256 := snapshot.source.eventCommitmentSha256 }
      target := ⟨options.targetChainId, suiteVersion, options.directory, options.coordinator⟩
      contractPolicy := snapshot.contractPolicy
      usernameEscrowRelease := snapshot.escrowRelease
      usernameEscrowEvidenceHash := snapshot.escrowRelease.evidenceSha256
      limits := ⟨batchSize, maximumBatchItems, maximumPayloadBytes⟩
      modules := modules
      summary :=
        { count := fun k => snapshot.recordCount k
          batchCount := totalBatches modules
          transactionCount := 2 * requiredModuleCount + totalBatches modules + 2 } }
  validatePlan env plan
  pure plan

/-! ## The manifest -/

/-- The call of a batch. -/
def PlanBatch.call (id : ModuleId) (batch : PlanBatch) : BootstrapOp :=
  .importBatch id batch.sequence.toNat batch.count.toNat (batch.payloadHash.valueD 0)
    (batch.payload.valueD [])

/-- The calls of a module. The escrow is attested after the batches of the username module. -/
def ModulePlan.calls (plan : Plan) (module : ModulePlan) : List BootstrapOp :=
  let id := module.id.valueD (.other 0)
  .beginNextModule id module.expectedCount.toNat module.expectedBatches.toNat
      (module.expectedRoot.valueD 0) ::
    module.batches.map (PlanBatch.call id) ++
    (if module.name = moduleName .username then
      [.attestUsernameEscrowReleased (plan.usernameEscrowEvidenceHash.valueD 0)] else []) ++
    [.finalizeCurrentModule id]

/-- The calls of a plan. -/
def Plan.calls (plan : Plan) : List BootstrapOp :=
  plan.modules.flatMap (ModulePlan.calls plan) ++ [.activateSuite]

/-- `BuildCalldataManifest`. -/
def buildCalldataManifest (env : Env) (plan : Plan) : Except PlanError (List BootstrapOp) := do
  validatePlan env plan
  revertIf ((plan.calls.length : Int) ≠ plan.summary.transactionCount)
    (.transactionCount plan.calls.length)
  pure plan.calls

end Igit.Migration

/-! ## A planner that exists -/

namespace Igit

namespace Sample

open Fallible Migration

/-- Pack what Solidity decodes. Records that it refuses are packed as nothing it reads. -/
def packed {α β : Type} (codec : Codec β) (toImport : α → Option β) (records : List α) : Bytes :=
  ((records.mapM toImport).map codec.list.encode).getD []

/-- What was packed is read, tagged with its kind. -/
theorem read_packed {α β : Type} (codec : Codec β) (toImport : α → Option β)
    (tag : β → ImportRecord) (records : List α) :
    (codec.list.read (packed codec toImport records)).map (List.map tag) =
      records.mapM fun record => (toImport record).map tag := by
  have hmap : (records.mapM fun record => (toImport record).map tag) =
      (records.mapM toImport).map (List.map tag) := by
    induction records with
    | nil => rfl
    | cons first rest ih =>
        rw [List.mapM_cons, List.mapM_cons, ih]
        cases toImport first with
        | none => rfl
        | some item => cases rest.mapM toImport <;> rfl
  rw [hmap, packed]
  cases records.mapM toImport with
  | none => rfl
  | some items => exact congrArg (Option.map (List.map tag)) (codec.list.read_encode items)

/-- Packing for each kind. -/
def packRecords : (k : Kind) → List k.Record → Bytes
  | .repositories => packed Codec.importRepository fun r => some (CoreRepositoryABI.toImport r)
  | .aliases => packed Codec.importAlias fun r => some (CoreAliasABI.toImport r)
  | .refs => packed Codec.importRef fun r => some (CoreRefABI.toImport r)
  | .collaborators => packed Codec.importCollaborator CoreCollaboratorABI.toImport
  | .guardianConfigs => packed Codec.importGuardianConfig fun r => some (GuardianConfigABI.toImport r)
  | .finalStatuses => packed Codec.importStatus ModerationStatusABI.toImport
  | .reports => packed Codec.importReport ModerationReportABI.toImport
  | .statusTrails => packed Codec.importStatusTrail ModerationStatusTrailABI.toImport
  | .splits => packed Codec.importSplits fun r => some (EconomicSplitsABI.toImport r)
  | .totals => packed Codec.importTotal fun r => some (EconomicTotalABI.toImport r)
  | .originalOwners => packed Codec.importOriginalOwner fun r => some (UsernameOwnerABI.toImport r)
  | .reservedNames => packed Codec.bytes fun r => some r
  | .badges => packed Codec.badge fun r => some (BadgeABI.toImport r)
  | .artifacts => packed Codec.artifact fun r => some (ReleaseABI.toImport r)

/-- Unpacking, for the kinds of the plan below. -/
def unpackRecords : (k : Kind) → Bytes → Option (List k.Record)
  | .repositories, bytes => (Codec.importRepository.list.read bytes).map <| List.map fun r =>
      ⟨r.id, r.owner, r.name, r.description, r.defaultBranch, r.forkedFrom, .ofNat r.createdAt,
        .ofNat r.updatedAt⟩
  | .finalStatuses, bytes => (Codec.importStatus.list.read bytes).map <| List.map fun r =>
      ⟨r.repoId, .ofNat (repoStatuses.idxOf r.status)⟩
  | _, _ => none

/-- A snapshot with one repository. -/
def snapshot : Snapshot where
  schema := snapshotSchema
  source := ⟨ascii "chain", ascii "registry", 9, .canonical 1, .canonical 2, .canonical 3, .canonical 4,
    .canonical 5⟩
  contractPolicy := ⟨.canonical 0xa3, .canonical 0xa6, .canonical 0xa4, .canonical 0xa8, .canonical 0xa7,
    100⟩
  repositories := [⟨.canonical 1, .canonical 0xa11ce, ascii "ab", [], ascii "main", .empty, 5, 5⟩]
  aliases := []
  refs := []
  collaborators := []
  guardianConfigs := []
  finalStatuses := [⟨.canonical 1, ascii "frozen"⟩]
  reports := []
  statusTrails := []
  splits := []
  totals := []
  originalOwners := []
  reservedNames := []
  escrowRelease := ⟨true, ascii "registry", 9, .canonical 6, ascii "inj", .canonical 0, .canonical 7⟩
  badges := []
  badgesByRecipient := []
  badgesByRepository := []
  releases := []
  releaseVersions := []

/-- Its text. -/
def rawSnapshot : Bytes := ascii "snapshot"

/-- A planner whose packing the sample decoders read. -/
def codecEnv : Env where
  keccak := .positional
  sha256 := fun _ => 7
  blank := List.isEmpty
  hashText := fun hash => Codec.nat.encode (hash.valueD 0)
  addressText := fun address => Codec.address.encode (address.valueD 0)
  decimalText := fun number => Codec.nat.encode number.toNat
  packKind := fun code records => Codec.kindAndRecords.encode (code.toNat, records)
  unpackKind := fun payload =>
    (Codec.kindAndRecords.read payload).map fun outer => (.ofNat outer.1, outer.2)
  pack := packRecords
  unpack := unpackRecords
  decodeSnapshot := fun raw => if raw = rawSnapshot then some snapshot else none

/-- The sample decoders read what this planner packs. -/
theorem codecEnv_faithful : codecEnv.Faithful importing.abi where
  kind := fun code records => Codec.kindAndRecords.read_encode (code.toNat, records)
  records := by
    intro k records _
    cases k <;> exact read_packed _ _ _ _

/-- How the plan is built. -/
def options : BuildOptions := ⟨1439, .canonical 0xd1, .canonical 0xd2, 2⟩

theorem plan_built : ((buildPlan codecEnv rawSnapshot options).toOption).isSome = true := by
  decide +kernel

/-- The plan of the snapshot. -/
def plan : Plan := (buildPlan codecEnv rawSnapshot options).toOption.get plan_built

theorem buildPlan_eq : buildPlan codecEnv rawSnapshot options = .ok plan := by
  have hget : some plan = (buildPlan codecEnv rawSnapshot options).toOption :=
    Option.some_get plan_built
  cases hbuild : buildPlan codecEnv rawSnapshot options with
  | error reason =>
      rw [hbuild] at hget
      cases hget
  | ok built =>
      rw [hbuild] at hget
      exact congrArg Except.ok (Option.some.inj hget).symm

end Sample

end Igit
