import Igit.Evm.Revert

/-!
# Storage of the suite

The records of the nine contracts under `contracts/evm-v2/src`: `SuiteDirectory`,
`BootstrapCoordinator` and the seven modules. A Solidity mapping is a total function that is
zero where nothing was written, and an array is a list. `present` is the source's `exists`.
Events are not storage and no contract reads them, so they are not modelled.
-/

namespace Igit

/-- A mapping to arrays is empty everywhere before it is written. Without this the default of a map
from numbers to lists of numbers would be the function that makes singletons. -/
instance unwrittenLists {α β : Type} : Inhabited (α → List β) := ⟨fun _ => []⟩

/-! ## RepositoryCore -/

/-- `RepositoryCore.Role`. -/
inductive Role where
  | none
  | maintainer
  | reader
  deriving DecidableEq, Repr, Inhabited

/-- `IRepositoryCore.Repository`. -/
structure Repository where
  id : Bytes32
  owner : Address
  name : Bytes
  description : Bytes
  defaultBranch : Bytes
  forkedFrom : Bytes32
  createdAt : Nat
  updatedAt : Nat
  present : Bool
  deriving DecidableEq, Repr, Inhabited

/-- `RepositoryCore.GitRef`. -/
structure GitRef where
  commitSha : Bytes
  packUris : List Bytes
  updatedAt : Nat
  updatedBy : Address
  present : Bool
  deriving DecidableEq, Repr, Inhabited

/-- `RepositoryCore.PendingOwnershipTransfer`. No transfer is pending when `newOwner` is zero. -/
structure PendingOwnershipTransfer where
  newOwner : Address
  executeAfter : Nat
  expiresAt : Nat
  deriving DecidableEq, Repr, Inhabited

/-- `RepositoryCore.ImportRepository`. -/
structure ImportRepository where
  id : Bytes32
  owner : Address
  name : Bytes
  description : Bytes
  defaultBranch : Bytes
  forkedFrom : Bytes32
  createdAt : Nat
  updatedAt : Nat
  deriving DecidableEq, Repr

/-- `RepositoryCore.ImportAlias`. -/
structure ImportAlias where
  repoId : Bytes32
  owner : Address
  name : Bytes
  deriving DecidableEq, Repr

/-- `RepositoryCore.ImportRef`. -/
structure ImportRef where
  repoId : Bytes32
  refName : Bytes
  commitSha : Bytes
  packUris : List Bytes
  updatedAt : Nat
  updatedBy : Address
  deriving DecidableEq, Repr

/-- `RepositoryCore.ImportCollaborator`. -/
structure ImportCollaborator where
  repoId : Bytes32
  account : Address
  role : Role
  deriving DecidableEq, Repr

/-- Storage of `RepositoryCore`. Index maps count from one. -/
structure Core where
  repositories : Bytes32 → Repository
  locators : Bytes32 → Bytes32
  refs : Bytes32 → Bytes32 → GitRef
  refNames : Bytes32 → List Bytes
  roles : Bytes32 → Address → Role
  collaborators : Bytes32 → List Address
  collaboratorIndexes : Bytes32 → Address → Nat
  ownerRepositories : Address → List Bytes32
  ownerRepositoryIndexes : Bytes32 → Nat
  pendingTransfers : Bytes32 → PendingOwnershipTransfer
  reservedLocators : Bytes32 → Bytes32
  deriving Inhabited

/-! ## RecoveryModule -/

/-- `RecoveryModule.GuardianConfig`. Nothing is configured when `threshold` is zero. -/
structure GuardianConfig where
  configuredBy : Address
  threshold : Nat
  guardians : List Address
  deriving DecidableEq, Repr, Inhabited

/-- `RecoveryModule.Proposal`. Nothing is proposed when `newOwner` is zero. -/
structure Proposal where
  proposedBy : Address
  newOwner : Address
  executeAfter : Nat
  expiresAt : Nat
  nonce : Nat
  approvals : Nat
  deriving DecidableEq, Repr, Inhabited

/-- `RecoveryModule.ImportGuardianConfig`. -/
structure ImportGuardianConfig where
  repoId : Bytes32
  configuredBy : Address
  threshold : Nat
  guardians : List Address
  deriving DecidableEq, Repr

/-- Storage of `RecoveryModule`. -/
structure Recovery where
  configs : Bytes32 → GuardianConfig
  isGuardian : Bytes32 → Address → Bool
  proposals : Bytes32 → Proposal
  approvals : Bytes32 → Nat → Address → Bool
  proposalNonces : Bytes32 → Nat
  deriving Inhabited

/-! ## ModerationModule -/

/-- `ModerationModule.TrailAction`. -/
inductive TrailAction where
  | submitted
  | resolved
  | appealed
  | appealResolved
  | statusSet
  deriving DecidableEq, Repr, Inhabited

/-- `ModerationModule.Report`. -/
structure Report where
  id : Nat
  repoId : Bytes32
  reporter : Address
  status : ReportStatus
  resolution : RepoStatus
  reasonHash : Bytes
  createdAt : Nat
  updatedAt : Nat
  present : Bool
  deriving DecidableEq, Repr, Inhabited

/-- `ModerationModule.TrailEntry`. -/
structure TrailEntry where
  action : TrailAction
  actor : Address
  status : RepoStatus
  reasonHash : Bytes
  timestamp : Nat
  deriving DecidableEq, Repr

/-- `ModerationModule.ImportStatus`. -/
structure ImportStatus where
  repoId : Bytes32
  status : RepoStatus
  deriving DecidableEq, Repr

/-- `ModerationModule.ImportReport`. -/
structure ImportReport where
  report : Report
  trail : List TrailEntry
  deriving DecidableEq, Repr

/-- `ModerationModule.StatusTrailEntry`. -/
structure StatusTrailEntry where
  status : RepoStatus
  actor : Address
  reasonHash : Bytes
  timestamp : Nat
  reportId : Nat
  deriving DecidableEq, Repr

/-- `ModerationModule.ImportStatusTrail`. -/
structure ImportStatusTrail where
  repoId : Bytes32
  trail : List StatusTrailEntry
  deriving DecidableEq, Repr

/-- Storage of `ModerationModule`. -/
structure Moderation where
  committee : Address
  nextReportId : Nat
  statuses : Bytes32 → RepoStatus
  reports : Nat → Report
  resolutionHashes : Nat → Bytes
  appealHashes : Nat → Bytes
  trails : Nat → List TrailEntry
  repoReportIds : Bytes32 → List Nat
  statusTrails : Bytes32 → List StatusTrailEntry
  importedStatuses : Bytes32 → Bool
  deriving Inhabited

/-! ## EconomicModule -/

/-- `EconomicModule.Split`. -/
structure Split where
  recipient : Address
  bps : Nat
  deriving DecidableEq, Repr

/-- `EconomicModule.ImportSplits`. -/
structure ImportSplits where
  repoId : Bytes32
  splits : List Split
  deriving DecidableEq, Repr

/-- `EconomicModule.ImportTotal`. -/
structure ImportTotal where
  repoId : Bytes32
  denom : Bytes
  amount : Nat
  deriving DecidableEq, Repr

/-- Storage of `EconomicModule`. The settlement lock is 1 when open and 2 during a payout. -/
structure Economic where
  treasury : Address
  platformFeeBps : Nat
  settlementLock : Nat
  splits : Bytes32 → List Split
  importedSplits : Bytes32 → Bool
  totals : Bytes32 → Bytes32 → Nat
  denoms : Bytes32 → List Bytes
  knownDenom : Bytes32 → Bytes32 → Bool
  deriving Inhabited

/-! ## UsernameModule, BadgeModule and ReleaseModule -/

/-- `UsernameModule.UsernameRecord`. -/
structure UsernameRecord where
  owner : Address
  registeredAt : Nat
  deriving DecidableEq, Repr, Inhabited

/-- `UsernameModule.ImportOriginalOwner`. -/
structure ImportOriginalOwner where
  name : Bytes
  owner : Address
  deriving DecidableEq, Repr

/-- Storage of `UsernameModule`. -/
structure Username where
  originalOwnerClaimDeadline : Nat
  reservedUsernameCount : Nat
  records : Bytes32 → UsernameRecord
  names : Bytes32 → Bytes
  reverse : Address → Bytes
  reserved : Bytes32 → Bool
  snapshotOriginalOwner : Bytes32 → Address
  deriving Inhabited

/-- `BadgeModule.Badge`. -/
structure Badge where
  id : Nat
  repoId : Bytes32
  recipient : Address
  awardedBy : Address
  reason : Bytes
  awardedAt : Nat
  present : Bool
  deriving DecidableEq, Repr, Inhabited

/-- Storage of `BadgeModule`. -/
structure Badges where
  nextBadgeId : Nat
  badges : Nat → Badge
  recipientBadgeIds : Address → List Nat
  repoBadgeIds : Bytes32 → List Nat
  deriving Inhabited

/-- `ReleaseModule.Artifact`. -/
structure Artifact where
  version : Bytes
  platform : Bytes
  sha256 : Bytes32
  registeredBy : Address
  registeredAt : Nat
  present : Bool
  deriving DecidableEq, Repr, Inhabited

/-- Storage of `ReleaseModule`. -/
structure Releases where
  artifacts : Bytes32 → Artifact
  platformsByVersion : Bytes32 → List Bytes
  deriving Inhabited

/-! ## Directory, coordinator and the bootstrap state of a module -/

/-- `SuiteDirectory.State`. -/
inductive DirectoryState where
  | bootstrapping
  | active
  deriving DecidableEq, Repr, Inhabited

/-- Storage of `SuiteDirectory`. A zero module address is an unregistered module. -/
structure Directory where
  state : DirectoryState
  bootstrapAuthority : Address
  bootstrapCoordinator : Address
  bootstrapCoordinatorCodeHash : Bytes32
  moduleAddress : Module → Address
  moduleCodeHash : Module → Bytes32
  registeredModuleCount : Nat
  deriving Inhabited

/-- `BootstrapCoordinator.ModuleProgress`. -/
structure ModuleProgress where
  started : Bool
  finalized : Bool
  expectedCount : Nat
  expectedBatches : Nat
  importedCount : Nat
  nextSequence : Nat
  expectedRoot : Bytes32
  rollingRoot : Bytes32
  deriving DecidableEq, Repr, Inhabited

/-- Storage of `BootstrapCoordinator`. -/
structure Coordinator where
  nextModuleIndex : Nat
  usernameEscrowEvidenceHash : Bytes32
  activated : Bool
  moduleProgress : Module → ModuleProgress
  deriving Inhabited

/-- The storage every module inherits from `SuiteModule`. -/
structure Bootstrap where
  bootstrapStarted : Bool
  bootstrapFinalized : Bool
  expectedImportCount : Nat
  expectedImportBatches : Nat
  importedCount : Nat
  nextImportSequence : Nat
  expectedImportRoot : Bytes32
  rollingImportRoot : Bytes32
  deriving DecidableEq, Repr, Inhabited

/-- The whole suite. `bootstrap` is the `SuiteModule` part of each module's storage. -/
structure Suite where
  directory : Directory
  coordinator : Coordinator
  bootstrap : Module → Bootstrap
  core : Core
  recovery : Recovery
  moderation : Moderation
  economic : Economic
  username : Username
  badges : Badges
  releases : Releases
  deriving Inhabited

end Igit
