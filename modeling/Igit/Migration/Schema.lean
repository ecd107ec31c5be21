import Igit.Specs.Imports

/-!
# The snapshot and the records of the importers

The data of `cli/internal/suitemigration`: `Snapshot` of `schema.go`, which the exporter writes, and
the ABI record types of `codec.go`, which the importers of the seven modules read. The JSON texts of
the snapshot are byte strings. A text that has to be the hexadecimal or decimal form of a value is a
`Text`: the canonical form of one value, which is unique, or any other text, which every parser of
the planner refuses.

`Kind.toImport` is the value Solidity's decoder gives for a record that was packed with the types of
`codec.go`. A number that is no member of the enumeration it stands for makes the decoder revert.
-/

namespace Igit.Migration

/-- The bytes of an ASCII text. -/
def ascii (text : String) : Bytes := text.toList.map fun c => UInt8.ofNat c.toNat

/-- A text that stands for a value: its canonical form, or a text that is not canonical. -/
inductive Text (α : Type) where
  | canonical (value : α)
  | other (text : Bytes)
  deriving DecidableEq, Repr

/-- The empty text. -/
def Text.empty {α : Type} : Text α := .other []

/-- The value of a text that was checked before, and a default for any other. -/
def Text.valueD {α : Type} (default : α) : Text α → α
  | .canonical value => value
  | .other _ => default

/-! ## The snapshot -/

/-- `SnapshotSource`. -/
structure SnapshotSource where
  chainId : Bytes
  contract : Bytes
  height : UInt64
  blockHash : Text Bytes32
  inventorySha256 : Text Bytes32
  txSearchSha256 : Text Bytes32
  blockEvidenceSha256 : Text Bytes32
  eventCommitmentSha256 : Text Bytes32
  deriving DecidableEq, Repr

/-- `ContractPolicy`. -/
structure ContractPolicy where
  admin : Text Address
  treasury : Text Address
  committee : Text Address
  releaseAuthority : Text Address
  usernamePolicyAdmin : Text Address
  platformFeeBps : UInt16
  deriving DecidableEq, Repr

/-- `SnapshotRepository`. A repository that is no fork has an empty `forkedFrom`. -/
structure SnapshotRepository where
  id : Text Bytes32
  owner : Text Address
  name : Bytes
  description : Bytes
  defaultBranch : Bytes
  forkedFrom : Text Bytes32
  createdAt : UInt64
  updatedAt : UInt64
  deriving DecidableEq, Repr

/-- `SnapshotAlias`. -/
structure SnapshotAlias where
  repoId : Text Bytes32
  owner : Text Address
  name : Bytes
  deriving DecidableEq, Repr

/-- `SnapshotRef`. -/
structure SnapshotRef where
  repoId : Text Bytes32
  refName : Bytes
  commitSha : Bytes
  packUris : List Bytes
  updatedAt : UInt64
  updatedBy : Text Address
  deriving DecidableEq, Repr

/-- `SnapshotCollaborator`. -/
structure SnapshotCollaborator where
  repoId : Text Bytes32
  account : Text Address
  role : Bytes
  deriving DecidableEq, Repr

/-- `SnapshotGuardianConfig`. -/
structure SnapshotGuardianConfig where
  repoId : Text Bytes32
  configuredBy : Text Address
  threshold : UInt8
  guardians : List (Text Address)
  deriving DecidableEq, Repr

/-- `SnapshotFinalStatus`. -/
structure SnapshotFinalStatus where
  repoId : Text Bytes32
  status : Bytes
  deriving DecidableEq, Repr

/-- `SnapshotReportTrail`. -/
structure SnapshotReportTrail where
  action : Bytes
  actor : Text Address
  status : Bytes
  reasonHash : Bytes
  timestamp : UInt64
  deriving DecidableEq, Repr

/-- `SnapshotReport`. -/
structure SnapshotReport where
  id : UInt64
  repoId : Text Bytes32
  reporter : Text Address
  status : Bytes
  resolution : Bytes
  reasonHash : Bytes
  createdAt : UInt64
  updatedAt : UInt64
  trail : List SnapshotReportTrail
  deriving DecidableEq, Repr

/-- `SnapshotRepositoryStatusLog`. -/
structure SnapshotRepositoryStatusLog where
  status : Bytes
  actor : Text Address
  reasonHash : Bytes
  timestamp : UInt64
  reportId : UInt64
  deriving DecidableEq, Repr

/-- `SnapshotStatusTrail`. -/
structure SnapshotStatusTrail where
  repoId : Text Bytes32
  trail : List SnapshotRepositoryStatusLog
  deriving DecidableEq, Repr

/-- `SnapshotSplit`. -/
structure SnapshotSplit where
  recipient : Text Address
  bps : UInt16
  deriving DecidableEq, Repr

/-- `SnapshotRevenueSplits`. -/
structure SnapshotRevenueSplits where
  repoId : Text Bytes32
  splits : List SnapshotSplit
  deriving DecidableEq, Repr

/-- `SnapshotSponsorTotal`. -/
structure SnapshotSponsorTotal where
  repoId : Text Bytes32
  denom : Bytes
  amount : Text Nat
  deriving DecidableEq, Repr

/-- `SnapshotOriginalUsername`. -/
structure SnapshotOriginalUsername where
  name : Bytes
  owner : Text Address
  deriving DecidableEq, Repr

/-- `UsernameEscrowRelease`. -/
structure UsernameEscrowRelease where
  allReleased : Bool
  contract : Bytes
  height : UInt64
  blockHash : Text Bytes32
  denom : Bytes
  escrowBalance : Text Nat
  evidenceSha256 : Text Bytes32
  deriving DecidableEq, Repr

/-- `SnapshotBadge`. -/
structure SnapshotBadge where
  id : UInt64
  repoId : Text Bytes32
  recipient : Text Address
  awardedBy : Text Address
  reason : Bytes
  awardedAt : UInt64
  deriving DecidableEq, Repr

/-- `SnapshotBadgeRecipientIndex`. -/
structure SnapshotBadgeRecipientIndex where
  recipient : Text Address
  badgeIds : List UInt64
  deriving DecidableEq, Repr

/-- `SnapshotBadgeRepositoryIndex`. -/
structure SnapshotBadgeRepositoryIndex where
  repoId : Text Bytes32
  badgeIds : List UInt64
  deriving DecidableEq, Repr

/-- `SnapshotRelease`. -/
structure SnapshotRelease where
  version : Bytes
  platform : Bytes
  sha256 : Text Bytes32
  registeredBy : Text Address
  registeredAt : UInt64
  deriving DecidableEq, Repr

/-- `SnapshotReleaseVersion`. -/
structure SnapshotReleaseVersion where
  version : Bytes
  platforms : List Bytes
  deriving DecidableEq, Repr

/-- `Snapshot`, with the lists of its moderation, economic and username parts side by side. -/
structure Snapshot where
  schema : Bytes
  source : SnapshotSource
  contractPolicy : ContractPolicy
  repositories : List SnapshotRepository
  aliases : List SnapshotAlias
  refs : List SnapshotRef
  collaborators : List SnapshotCollaborator
  guardianConfigs : List SnapshotGuardianConfig
  finalStatuses : List SnapshotFinalStatus
  reports : List SnapshotReport
  statusTrails : List SnapshotStatusTrail
  splits : List SnapshotRevenueSplits
  totals : List SnapshotSponsorTotal
  originalOwners : List SnapshotOriginalUsername
  reservedNames : List Bytes
  escrowRelease : UsernameEscrowRelease
  badges : List SnapshotBadge
  badgesByRecipient : List SnapshotBadgeRecipientIndex
  badgesByRepository : List SnapshotBadgeRepositoryIndex
  releases : List SnapshotRelease
  releaseVersions : List SnapshotReleaseVersion
  deriving DecidableEq, Repr

/-! ## The records of the importers -/

/-- `coreRepositoryABI`. -/
structure CoreRepositoryABI where
  id : Bytes32
  owner : Address
  name : Bytes
  description : Bytes
  defaultBranch : Bytes
  forkedFrom : Bytes32
  createdAt : UInt64
  updatedAt : UInt64
  deriving DecidableEq, Repr

/-- `coreAliasABI`. -/
structure CoreAliasABI where
  repoId : Bytes32
  owner : Address
  name : Bytes
  deriving DecidableEq, Repr

/-- `coreRefABI`. -/
structure CoreRefABI where
  repoId : Bytes32
  refName : Bytes
  commitSha : Bytes
  packUris : List Bytes
  updatedAt : UInt64
  updatedBy : Address
  deriving DecidableEq, Repr

/-- `coreCollaboratorABI`. -/
structure CoreCollaboratorABI where
  repoId : Bytes32
  account : Address
  role : UInt8
  deriving DecidableEq, Repr

/-- `guardianConfigABI`. -/
structure GuardianConfigABI where
  repoId : Bytes32
  configuredBy : Address
  threshold : UInt8
  guardians : List Address
  deriving DecidableEq, Repr

/-- `moderationStatusABI`. -/
structure ModerationStatusABI where
  repoId : Bytes32
  status : UInt8
  deriving DecidableEq, Repr

/-- `moderationReportTrailABI`. -/
structure ModerationReportTrailABI where
  action : UInt8
  actor : Address
  status : UInt8
  reasonHash : Bytes
  timestamp : UInt64
  deriving DecidableEq, Repr

/-- `moderationReportABI` with the fields of its `moderationReportRecordABI`. -/
structure ModerationReportABI where
  id : Nat
  repoId : Bytes32
  reporter : Address
  status : UInt8
  resolution : UInt8
  reasonHash : Bytes
  createdAt : UInt64
  updatedAt : UInt64
  present : Bool
  trail : List ModerationReportTrailABI
  deriving DecidableEq, Repr

/-- `moderationStatusLogABI`. -/
structure ModerationStatusLogABI where
  status : UInt8
  actor : Address
  reasonHash : Bytes
  timestamp : UInt64
  reportId : Nat
  deriving DecidableEq, Repr

/-- `moderationStatusTrailABI`. -/
structure ModerationStatusTrailABI where
  repoId : Bytes32
  trail : List ModerationStatusLogABI
  deriving DecidableEq, Repr

/-- `economicSplitABI`. -/
structure EconomicSplitABI where
  recipient : Address
  bps : UInt16
  deriving DecidableEq, Repr

/-- `economicSplitsABI`. -/
structure EconomicSplitsABI where
  repoId : Bytes32
  splits : List EconomicSplitABI
  deriving DecidableEq, Repr

/-- `economicTotalABI`. -/
structure EconomicTotalABI where
  repoId : Bytes32
  denom : Bytes
  amount : Nat
  deriving DecidableEq, Repr

/-- `usernameOwnerABI`. -/
structure UsernameOwnerABI where
  name : Bytes
  owner : Address
  deriving DecidableEq, Repr

/-- `badgeABI`. -/
structure BadgeABI where
  id : Nat
  repoId : Bytes32
  recipient : Address
  awardedBy : Address
  reason : Bytes
  awardedAt : UInt64
  present : Bool
  deriving DecidableEq, Repr

/-- `releaseABI`. -/
structure ReleaseABI where
  version : Bytes
  platform : Bytes
  sha256 : Bytes32
  registeredBy : Address
  registeredAt : UInt64
  present : Bool
  deriving DecidableEq, Repr

/-- A kind of records. -/
inductive Kind where
  | repositories
  | aliases
  | refs
  | collaborators
  | guardianConfigs
  | finalStatuses
  | reports
  | statusTrails
  | splits
  | totals
  | originalOwners
  | reservedNames
  | badges
  | artifacts
  deriving DecidableEq, Repr

namespace Kind

/-- The type a record of the kind is packed at. -/
def Record : Kind → Type
  | repositories => CoreRepositoryABI
  | aliases => CoreAliasABI
  | refs => CoreRefABI
  | collaborators => CoreCollaboratorABI
  | guardianConfigs => GuardianConfigABI
  | finalStatuses => ModerationStatusABI
  | reports => ModerationReportABI
  | statusTrails => ModerationStatusTrailABI
  | splits => EconomicSplitsABI
  | totals => EconomicTotalABI
  | originalOwners => UsernameOwnerABI
  | reservedNames => Bytes
  | badges => BadgeABI
  | artifacts => ReleaseABI

/-- The module that imports the kind. -/
def module : Kind → Module
  | repositories | aliases | refs | collaborators => .core
  | guardianConfigs => .recovery
  | finalStatuses | reports | statusTrails => .moderation
  | splits | totals => .economic
  | originalOwners | reservedNames => .username
  | badges => .badge
  | artifacts => .release

/-- The number of the kind in its module. -/
def code : Kind → UInt8
  | repositories | guardianConfigs | finalStatuses | splits | originalOwners | badges | artifacts => 0
  | aliases | reports | totals | reservedNames => 1
  | refs | statusTrails => 2
  | collaborators => 3

/-- The name of the kind, as in `kindName`. -/
def name : Kind → Bytes
  | repositories => ascii "repositories"
  | aliases => ascii "aliases"
  | refs => ascii "refs"
  | collaborators => ascii "collaborators"
  | guardianConfigs => ascii "guardian-configs"
  | finalStatuses => ascii "final-statuses"
  | reports => ascii "reports"
  | statusTrails => ascii "status-trails"
  | splits => ascii "splits"
  | totals => ascii "all-denom-totals"
  | originalOwners => ascii "original-owners"
  | reservedNames => ascii "reserved-names"
  | badges => ascii "badges"
  | artifacts => ascii "artifacts"

/-- The payloads of a module with several kinds start with the number of the kind. -/
def wrapped : Kind → Bool
  | guardianConfigs | badges | artifacts => false
  | _ => true

end Kind

/-- The kinds of a module in the order of their numbers. -/
def kindsOf : Module → List Kind
  | .core => [.repositories, .aliases, .refs, .collaborators]
  | .recovery => [.guardianConfigs]
  | .moderation => [.finalStatuses, .reports, .statusTrails]
  | .economic => [.splits, .totals]
  | .username => [.originalOwners, .reservedNames]
  | .badge => [.badges]
  | .release => [.artifacts]

/-- The kind with a number in a module: the tables of `payloadArguments` and `kindName`. -/
def kindAt (m : Module) (code : UInt8) : Option Kind := (kindsOf m)[code.toNat]?

/-- The kind at a code is a kind of the module with that code. -/
theorem kindAt_eq_some {m : Module} {code : UInt8} {k : Kind} (h : kindAt m code = some k) :
    k.module = m ∧ k.code = code := by
  obtain ⟨hlt, hget⟩ := List.getElem?_eq_some_iff.mp h
  have hcode : code = UInt8.ofNat code.toNat := UInt8.ofNat_toNat.symm
  generalize code.toNat = i at hlt hget hcode
  subst hcode
  cases m with
  | core =>
      have hcases : i = 0 ∨ i = 1 ∨ i = 2 ∨ i = 3 := by
        simp only [kindsOf, List.length_cons, List.length_nil] at hlt
        omega
      rcases hcases with rfl | rfl | rfl | rfl <;> (subst hget; exact ⟨rfl, rfl⟩)
  | moderation =>
      have hcases : i = 0 ∨ i = 1 ∨ i = 2 := by
        simp only [kindsOf, List.length_cons, List.length_nil] at hlt
        omega
      rcases hcases with rfl | rfl | rfl <;> (subst hget; exact ⟨rfl, rfl⟩)
  | economic | username =>
      have hcases : i = 0 ∨ i = 1 := by
        simp only [kindsOf, List.length_cons, List.length_nil] at hlt
        omega
      rcases hcases with rfl | rfl <;> (subst hget; exact ⟨rfl, rfl⟩)
  | recovery | badge | release =>
      have hcases : i = 0 := by
        simp only [kindsOf, List.length_cons, List.length_nil] at hlt
        omega
      subst hcases
      subst hget
      exact ⟨rfl, rfl⟩

/-! ## What Solidity decodes -/

/-- A member of an enumeration by its number. -/
def enumOf {α : Type} (values : List α) (code : UInt8) : Option α := values[code.toNat]?

/-- The roles by their codes. -/
def roles : List Role := [.none, .maintainer, .reader]
/-- The statuses of repositories by their codes. -/
def repoStatuses : List RepoStatus := [.active, .frozen, .delisted]
/-- The statuses of reports by their codes. -/
def reportStatuses : List ReportStatus := [.opened, .resolved, .appealed, .appealResolved]
/-- The actions of a trail by their codes. -/
def trailActions : List TrailAction :=
  [.submitted, .resolved, .appealed, .appealResolved, .statusSet]

/-- The record the core decodes. -/
def CoreRepositoryABI.toImport (r : CoreRepositoryABI) : ImportRepository where
  id := r.id
  owner := r.owner
  name := r.name
  description := r.description
  defaultBranch := r.defaultBranch
  forkedFrom := r.forkedFrom
  createdAt := r.createdAt.toNat
  updatedAt := r.updatedAt.toNat

def CoreAliasABI.toImport (r : CoreAliasABI) : ImportAlias := ⟨r.repoId, r.owner, r.name⟩

def CoreRefABI.toImport (r : CoreRefABI) : ImportRef where
  repoId := r.repoId
  refName := r.refName
  commitSha := r.commitSha
  packUris := r.packUris
  updatedAt := r.updatedAt.toNat
  updatedBy := r.updatedBy

/-- The record the core decodes, if the role has a code. -/
def CoreCollaboratorABI.toImport (r : CoreCollaboratorABI) : Option ImportCollaborator := do
  let role ← enumOf roles r.role
  pure ⟨r.repoId, r.account, role⟩

/-- The record the recovery module decodes. -/
def GuardianConfigABI.toImport (r : GuardianConfigABI) : ImportGuardianConfig :=
  ⟨r.repoId, r.configuredBy, r.threshold.toNat, r.guardians⟩

def ModerationStatusABI.toImport (r : ModerationStatusABI) : Option ImportStatus := do
  let status ← enumOf repoStatuses r.status
  pure ⟨r.repoId, status⟩

def ModerationReportTrailABI.toImport (r : ModerationReportTrailABI) : Option TrailEntry := do
  let action ← enumOf trailActions r.action
  let status ← enumOf repoStatuses r.status
  pure ⟨action, r.actor, status, r.reasonHash, r.timestamp.toNat⟩

/-- The record the moderation module decodes, if every status and action has a code. -/
def ModerationReportABI.toImport (r : ModerationReportABI) : Option ImportReport := do
  let status ← enumOf reportStatuses r.status
  let resolution ← enumOf repoStatuses r.resolution
  let trail ← r.trail.mapM ModerationReportTrailABI.toImport
  pure ⟨⟨r.id, r.repoId, r.reporter, status, resolution, r.reasonHash, r.createdAt.toNat,
    r.updatedAt.toNat, r.present⟩, trail⟩

def ModerationStatusLogABI.toImport (r : ModerationStatusLogABI) : Option StatusTrailEntry := do
  let status ← enumOf repoStatuses r.status
  pure ⟨status, r.actor, r.reasonHash, r.timestamp.toNat, r.reportId⟩

/-- The status trail the moderation module decodes. -/
def ModerationStatusTrailABI.toImport (r : ModerationStatusTrailABI) : Option ImportStatusTrail := do
  let trail ← r.trail.mapM ModerationStatusLogABI.toImport
  pure ⟨r.repoId, trail⟩

/-- The split table the economic module decodes. -/
def EconomicSplitsABI.toImport (r : EconomicSplitsABI) : ImportSplits :=
  ⟨r.repoId, r.splits.map fun split => ⟨split.recipient, split.bps.toNat⟩⟩

def EconomicTotalABI.toImport (r : EconomicTotalABI) : ImportTotal := ⟨r.repoId, r.denom, r.amount⟩

/-- The record the username module decodes. -/
def UsernameOwnerABI.toImport (r : UsernameOwnerABI) : ImportOriginalOwner := ⟨r.name, r.owner⟩

/-- The record the badge module decodes. -/
def BadgeABI.toImport (r : BadgeABI) : Badge :=
  ⟨r.id, r.repoId, r.recipient, r.awardedBy, r.reason, r.awardedAt.toNat, r.present⟩

/-- The record the release module decodes. -/
def ReleaseABI.toImport (r : ReleaseABI) : Artifact :=
  ⟨r.version, r.platform, r.sha256, r.registeredBy, r.registeredAt.toNat, r.present⟩

/-- The record Solidity decodes, if it decodes one. -/
def Kind.toImport : (k : Kind) → k.Record → Option ImportRecord
  | .repositories, r => some (.repository (CoreRepositoryABI.toImport r))
  | .aliases, r => some (.repositoryAlias (CoreAliasABI.toImport r))
  | .refs, r => some (.ref (CoreRefABI.toImport r))
  | .collaborators, r => (CoreCollaboratorABI.toImport r).map .collaborator
  | .guardianConfigs, r => some (.guardianConfig (GuardianConfigABI.toImport r))
  | .finalStatuses, r => (ModerationStatusABI.toImport r).map .status
  | .reports, r => (ModerationReportABI.toImport r).map .report
  | .statusTrails, r => (ModerationStatusTrailABI.toImport r).map .statusTrail
  | .splits, r => some (.splits (EconomicSplitsABI.toImport r))
  | .totals, r => some (.total (EconomicTotalABI.toImport r))
  | .originalOwners, r => some (.originalOwner (UsernameOwnerABI.toImport r))
  | .reservedNames, r => some (.reservedName r)
  | .badges, r => some (.badge (BadgeABI.toImport r))
  | .artifacts, r => some (.artifact (ReleaseABI.toImport r))

end Igit.Migration

namespace Igit

open Migration

/-- `abi.decode` of the records of a kind. -/
def AbiDecode.records (abi : AbiDecode) : Kind → Bytes → Option (List ImportRecord)
  | .repositories, bytes => (abi.repositories bytes).map (List.map .repository)
  | .aliases, bytes => (abi.aliases bytes).map (List.map .repositoryAlias)
  | .refs, bytes => (abi.refs bytes).map (List.map .ref)
  | .collaborators, bytes => (abi.collaborators bytes).map (List.map .collaborator)
  | .guardianConfigs, bytes => (abi.guardianConfigs bytes).map (List.map .guardianConfig)
  | .finalStatuses, bytes => (abi.statuses bytes).map (List.map .status)
  | .reports, bytes => (abi.reports bytes).map (List.map .report)
  | .statusTrails, bytes => (abi.statusTrails bytes).map (List.map .statusTrail)
  | .splits, bytes => (abi.splits bytes).map (List.map .splits)
  | .totals, bytes => (abi.totals bytes).map (List.map .total)
  | .originalOwners, bytes => (abi.originalOwners bytes).map (List.map .originalOwner)
  | .reservedNames, bytes => (abi.reservedNames bytes).map (List.map .reservedName)
  | .badges, bytes => (abi.badges bytes).map (List.map .badge)
  | .artifacts, bytes => (abi.artifacts bytes).map (List.map .artifact)

end Igit
