import Igit.Contracts.EconomicModule
import Igit.Contracts.ModerationModule
import Igit.Contracts.OtherModules
import Igit.Contracts.RecoveryModule

/-!
# SuiteModule, SuiteDirectory and BootstrapCoordinator

The bootstrap of a suite: `contracts/evm-v2/src/suite/SuiteModule.sol`, `SuiteDirectory.sol` and
`BootstrapCoordinator.sol`. The operator registers the seven modules through the coordinator,
imports them one after the other in batches, and activates the directory. The contracts bound to
one directory are the ones of the `Deployment`, so an address answers the directory's binding
questions exactly when it is the one recorded there.
-/

namespace Igit

open Fallible

def maxImportBatchItems : Nat := 128
def maxImportPayloadBytes : Nat := 96000

/-- Unchecked `uint256` arithmetic. -/
def wrap256 (n : Nat) : Nat := n % 2 ^ 256

/-- The result of `abi.decode`, which reverts on malformed input. -/
def decoded {α : Type} : Option α → Except Revert α
  | some value => pure value
  | none => throw .abiDecode

namespace Suite

variable (d : Deployment) (s : Suite)

/-! ## The importers -/

/-- Decode a list of records and store them one by one. The count is the number of records. -/
def importRecords {α : Type} (records : Option (List α))
    (store : Suite → α → Except Revert Suite) : Except Revert (Suite × Nat) := do
  let items ← decoded records
  let stored ← items.foldlM store s
  pure (stored, items.length)

/-- `RepositoryCore._importPayload`. -/
def importCore (payload : Bytes) : Except Revert (Suite × Nat) := do
  let (kind, records) ← decoded (d.abi.kindAndRecords payload)
  if kind = 0 then
    s.importRecords (d.abi.repositories records) fun s imported => s.storeRepository d imported
  else if kind = 1 then
    s.importRecords (d.abi.aliases records) fun s imported => s.storeAlias d imported
  else if kind = 2 then
    s.importRecords (d.abi.refs records) fun s imported => s.storeImportedRef d imported
  else if kind = 3 then
    s.importRecords (d.abi.collaborators records) storeImportedCollaborator
  else throw (.invalidImportKind kind)

/-- `RecoveryModule._importPayload`. -/
def importRecovery (payload : Bytes) : Except Revert (Suite × Nat) :=
  s.importRecords (d.abi.guardianConfigs payload) storeGuardianConfig

/-- `ModerationModule._importPayload`. -/
def importModeration (payload : Bytes) : Except Revert (Suite × Nat) := do
  let (kind, records) ← decoded (d.abi.kindAndRecords payload)
  if kind = 0 then s.importRecords (d.abi.statuses records) storeStatus
  else if kind = 1 then
    s.importRecords (d.abi.reports records) fun s imported => s.storeImportedReport d imported
  else if kind = 2 then s.importRecords (d.abi.statusTrails records) storeImportedStatusTrail
  else throw (.invalidImportKind kind)

/-- `EconomicModule._importPayload`. -/
def importEconomic (payload : Bytes) : Except Revert (Suite × Nat) := do
  let (kind, records) ← decoded (d.abi.kindAndRecords payload)
  if kind = 0 then s.importRecords (d.abi.splits records) storeSplits
  else if kind = 1 then
    s.importRecords (d.abi.totals records) fun s imported => s.storeTotal d imported
  else throw (.invalidImportKind kind)

/-- `UsernameModule._importPayload`. -/
def importUsername (payload : Bytes) : Except Revert (Suite × Nat) := do
  let (kind, records) ← decoded (d.abi.kindAndRecords payload)
  if kind = 0 then
    s.importRecords (d.abi.originalOwners records) fun s imported => s.storeOriginalOwner d imported
  else if kind = 1 then
    s.importRecords (d.abi.reservedNames records) fun s name => s.storeReservedName d name
  else throw (.invalidImportKind kind)

/-- `BadgeModule._importPayload`. -/
def importBadge (payload : Bytes) : Except Revert (Suite × Nat) :=
  s.importRecords (d.abi.badges payload) storeImportedBadge

/-- `ReleaseModule._importPayload`. -/
def importRelease (payload : Bytes) : Except Revert (Suite × Nat) :=
  s.importRecords (d.abi.artifacts payload) fun s artifact => s.storeImportedArtifact d artifact

/-- The `_importPayload` of a module. -/
def importPayload : Module → Bytes → Except Revert (Suite × Nat)
  | .core, payload => s.importCore d payload
  | .recovery, payload => s.importRecovery d payload
  | .moderation, payload => s.importModeration d payload
  | .economic, payload => s.importEconomic d payload
  | .username, payload => s.importUsername d payload
  | .badge, payload => s.importBadge d payload
  | .release, payload => s.importRelease d payload

/-! ## SuiteModule -/

/-- Replace the bootstrap state of a module. -/
def setBootstrap (m : Module) (bootstrap : Bootstrap) : Suite :=
  { s with bootstrap := Function.update s.bootstrap m bootstrap }

/-- The modifier `onlyBootstrap`. -/
def onlyBootstrap (msg : Message) : Except Revert Unit :=
  revertIf (msg.sender ≠ d.bootstrapCoordinator) (.unauthorizedBootstrap msg.sender)

/-- `SuiteModule.beginBootstrap`. -/
def beginBootstrap (msg : Message) (m : Module) (expectedCount expectedBatches : Nat)
    (expectedRoot snapshotRoot : Bytes32) : Except Revert Suite := do
  onlyBootstrap d msg
  let b := s.bootstrap m
  revertIf (b.bootstrapStarted = true) .bootstrapAlreadyStarted
  revertIf (expectedRoot = 0 ∨ snapshotRoot = 0) .invalidImportRoot
  pure (s.setBootstrap m { b with
    bootstrapStarted := true
    expectedImportCount := expectedCount
    expectedImportBatches := expectedBatches
    expectedImportRoot := expectedRoot
    rollingImportRoot := d.keccak.hash (.rollingSeed (.suite m) snapshotRoot) })

/-- `SuiteModule.bootstrapImport`. The counters wrap, as in the source's `unchecked` block. -/
def bootstrapImport (msg : Message) (m : Module) (sequence count : Nat) (payloadHash : Bytes32)
    (payload : Bytes) : Except Revert Suite := do
  onlyBootstrap d msg
  let b := s.bootstrap m
  revertIf (b.bootstrapStarted = false) .bootstrapNotStarted
  revertIf (b.bootstrapFinalized = true) .bootstrapAlreadyFinalized
  revertIf (sequence ≠ b.nextImportSequence)
    (.importSequenceMismatch b.nextImportSequence sequence)
  revertIf (count = 0 ∨ count > maxImportBatchItems)
    (.importBatchTooLarge count maxImportBatchItems)
  revertIf (payload.length = 0 ∨ payload.length > maxImportPayloadBytes)
    (.importPayloadTooLarge payload.length maxImportPayloadBytes)
  revertIf (d.keccak.ofBytes payload ≠ payloadHash)
    (.importPayloadHashMismatch payloadHash (d.keccak.ofBytes payload))
  let (stored, actualCount) ← s.importPayload d m payload
  revertIf (actualCount ≠ count) (.importCountMismatch count actualCount)
  let importedCount := wrap256 (b.importedCount + count)
  let nextImportSequence := wrap256 (sequence + 1)
  revertIf (importedCount > b.expectedImportCount ∨ nextImportSequence > b.expectedImportBatches)
    (.importCountMismatch b.expectedImportCount importedCount)
  pure (stored.setBootstrap m { b with
    importedCount := importedCount
    nextImportSequence := nextImportSequence
    rollingImportRoot := d.keccak.hash
      (.rollingStep b.rollingImportRoot (.suite m) sequence count payloadHash) })

/-- `_beforeBootstrapFinalized`, which only the username module overrides. -/
def beforeBootstrapFinalized (msg : Message) : Module → Except Revert Suite
  | .username => s.openClaimWindow msg
  | _ => pure s

/-- `SuiteModule.finalizeBootstrap`. -/
def finalizeBootstrap (msg : Message) (m : Module) : Except Revert Suite := do
  onlyBootstrap d msg
  let b := s.bootstrap m
  revertIf (b.bootstrapStarted = false) .bootstrapNotStarted
  revertIf (b.bootstrapFinalized = true) .bootstrapAlreadyFinalized
  revertIf (b.importedCount ≠ b.expectedImportCount)
    (.importCountMismatch b.expectedImportCount b.importedCount)
  revertIf (b.nextImportSequence ≠ b.expectedImportBatches)
    (.importBatchCountMismatch b.expectedImportBatches b.nextImportSequence)
  revertIf (b.rollingImportRoot ≠ b.expectedImportRoot)
    (.importRootMismatch b.expectedImportRoot b.rollingImportRoot)
  let opened ← s.beforeBootstrapFinalized msg m
  pure (opened.setBootstrap m { b with bootstrapFinalized := true })

/-! ## SuiteDirectory -/

/-- Replace the storage of the directory. -/
def setDirectory (directory : Directory) : Suite := { s with directory := directory }

/-- `requiredModuleAt`. -/
def requiredModuleAt (index : Nat) : Except Revert Module :=
  match requiredModules[index]? with
  | some m => pure m
  | none => throw (.invalidModuleId (.other index))

/-- `BootstrapCoordinator.readyForActivation`. -/
def readyForActivation : Prop :=
  s.coordinator.activated = false ∧ s.coordinator.nextModuleIndex = requiredModules.length ∧
    s.coordinator.usernameEscrowEvidenceHash ≠ 0

instance : Decidable s.readyForActivation := inferInstanceAs (Decidable (_ ∧ _))

/-- `setBootstrapCoordinator`. The only coordinator bound to this directory and its snapshot root
is the deployed one. -/
def setBootstrapCoordinator (msg : Message) (coordinator : Address) (expectedCodeHash : Bytes32) :
    Except Revert Suite := do
  revertIf (s.directory.state ≠ .bootstrapping) .directoryAlreadyActive
  revertIf (msg.sender ≠ s.directory.bootstrapAuthority) (.unauthorized msg.sender)
  revertIf (s.directory.bootstrapCoordinator ≠ 0) .coordinatorAlreadyConfigured
  revertIf (coordinator = 0 ∨ d.codeLength coordinator = 0) .invalidCoordinator
  revertIf (expectedCodeHash = 0 ∨ d.codeHash coordinator ≠ expectedCodeHash)
    (.codeHashMismatch expectedCodeHash (d.codeHash coordinator))
  revertIf (coordinator ≠ d.bootstrapCoordinator) .invalidCoordinator
  pure (s.setDirectory { s.directory with
    bootstrapCoordinator := coordinator
    bootstrapCoordinatorCodeHash := d.codeHash coordinator
    bootstrapAuthority := 0 })

/-- `configureModule`, open to the coordinator alone. -/
def configureModule (msg : Message) (id : ModuleId) (module : Address)
    (expectedCodeHash : Bytes32) : Except Revert Suite := do
  revertIf (s.directory.state ≠ .bootstrapping) .directoryAlreadyActive
  revertIf (msg.sender ≠ s.directory.bootstrapCoordinator ∨ msg.sender = 0)
    (.unauthorized msg.sender)
  match id with
  | .other _ => throw (.invalidModuleId id)
  | .suite m => do
      revertIf (s.directory.moduleAddress m ≠ 0) (.moduleAlreadyConfigured id)
      revertIf (module = 0 ∨ d.codeLength module = 0) (.invalidModule module)
      revertIf (expectedCodeHash = 0 ∨ d.codeHash module ≠ expectedCodeHash)
        (.codeHashMismatch expectedCodeHash (d.codeHash module))
      revertIf (module ≠ d.moduleAt m ∨
        d.bootstrapCoordinator ≠ s.directory.bootstrapCoordinator)
        (.moduleBindingMismatch id module)
      pure (s.setDirectory { s.directory with
        moduleAddress := Function.update s.directory.moduleAddress m module
        moduleCodeHash := Function.update s.directory.moduleCodeHash m (d.codeHash module)
        registeredModuleCount := wrap256 (s.directory.registeredModuleCount + 1) })

/-- One round of the loop of `activate`. -/
def checkModule (m : Module) : Except Revert Unit := do
  let module := s.directory.moduleAddress m
  revertIf (module = 0) (.missingModule (.suite m))
  revertIf (d.codeHash module ≠ s.directory.moduleCodeHash m)
    (.codeHashMismatch (s.directory.moduleCodeHash m) (d.codeHash module))
  revertIf ((s.bootstrap m).bootstrapFinalized = false) .coordinatorNotReady

/-- `activate`. The configured chain id is the one the directory was created on. -/
def activate (msg : Message) : Except Revert Suite := do
  revertIf (s.directory.state ≠ .bootstrapping) .directoryAlreadyActive
  revertIf (msg.sender ≠ s.directory.bootstrapCoordinator ∨ msg.sender = 0)
    (.unauthorized msg.sender)
  requiredModules.forM (s.checkModule d)
  revertIf (¬ s.readyForActivation) .coordinatorNotReady
  pure (s.setDirectory { s.directory with state := .active })

/-! ## BootstrapCoordinator -/

/-- Replace the storage of the coordinator. -/
def setCoordinator (coordinator : Coordinator) : Suite := { s with coordinator := coordinator }

/-- Replace the progress record of a module. -/
def setProgress (m : Module) (progress : ModuleProgress) : Suite :=
  s.setCoordinator { s.coordinator with
    moduleProgress := Function.update s.coordinator.moduleProgress m progress }

/-- The modifier `onlyOperator`. -/
def onlyOperator (msg : Message) : Except Revert Unit := do
  revertIf (msg.sender ≠ d.operator) (.unauthorized msg.sender)
  revertIf (s.coordinator.activated = true) .suiteAlreadyActivated

/-- The message of a call the coordinator makes. -/
def asCoordinator (msg : Message) : Message := ⟨d.bootstrapCoordinator, msg.timestamp⟩

/-- The module whose turn it is, which `id` must name. -/
def currentModule (id : ModuleId) : Except Revert Module := do
  let m ← requiredModuleAt s.coordinator.nextModuleIndex
  revertIf (id ≠ .suite m) (.moduleOrderMismatch (.suite m) id)
  pure m

/-- `registerModule`. -/
def registerModule (msg : Message) (id : ModuleId) (module : Address) (codeHash : Bytes32) :
    Except Revert Suite := do
  s.onlyOperator d msg
  revertIf (codeHash = 0) .invalidCodeHash
  s.configureModule d (asCoordinator d msg) id module codeHash

/-- `beginNextModule`. -/
def beginNextModule (msg : Message) (id : ModuleId) (expectedCount expectedBatches : Nat)
    (expectedRoot : Bytes32) : Except Revert Suite := do
  s.onlyOperator d msg
  let m ← s.currentModule id
  revertIf (s.directory.moduleAddress m = 0) (.moduleNotConfigured id)
  let progress := s.coordinator.moduleProgress m
  revertIf (progress.started = true) (.moduleAlreadyStarted id)
  let begun := s.setProgress m { progress with
    started := true
    expectedCount := expectedCount
    expectedBatches := expectedBatches
    expectedRoot := expectedRoot
    rollingRoot := d.keccak.hash (.rollingSeed id d.snapshotRoot) }
  begun.beginBootstrap d (asCoordinator d msg) m expectedCount expectedBatches expectedRoot
    d.snapshotRoot

/-- `importBatch`. -/
def importBatch (msg : Message) (id : ModuleId) (sequence count : Nat) (payloadHash : Bytes32)
    (payload : Bytes) : Except Revert Suite := do
  s.onlyOperator d msg
  let m ← s.currentModule id
  let progress := s.coordinator.moduleProgress m
  revertIf (progress.started = false) (.moduleNotStarted id)
  revertIf (progress.finalized = true) (.moduleAlreadyFinalized id)
  revertIf (sequence ≠ progress.nextSequence) (.sequenceMismatch progress.nextSequence sequence)
  revertIf (d.keccak.ofBytes payload ≠ payloadHash)
    (.rootMismatch payloadHash (d.keccak.ofBytes payload))
  let newCount ← checkedAdd progress.importedCount count
  revertIf (newCount > progress.expectedCount) (.countExceeded progress.expectedCount newCount)
  let newSequence ← checkedAdd sequence 1
  revertIf (newSequence > progress.expectedBatches)
    (.batchCountExceeded progress.expectedBatches newSequence)
  let imported ← s.bootstrapImport d (asCoordinator d msg) m sequence count payloadHash payload
  pure (imported.setProgress m { progress with
    importedCount := newCount
    nextSequence := newSequence
    rollingRoot := d.keccak.hash
      (.rollingStep progress.rollingRoot id sequence count payloadHash) })

/-- `finalizeCurrentModule`. -/
def finalizeCurrentModule (msg : Message) (id : ModuleId) : Except Revert Suite := do
  s.onlyOperator d msg
  let m ← s.currentModule id
  let progress := s.coordinator.moduleProgress m
  revertIf (progress.started = false) (.moduleNotStarted id)
  revertIf (progress.finalized = true) (.moduleAlreadyFinalized id)
  revertIf (progress.importedCount ≠ progress.expectedCount)
    (.countExceeded progress.expectedCount progress.importedCount)
  revertIf (progress.nextSequence ≠ progress.expectedBatches)
    (.batchCountExceeded progress.expectedBatches progress.nextSequence)
  revertIf (progress.rollingRoot ≠ progress.expectedRoot)
    (.rootMismatch progress.expectedRoot progress.rollingRoot)
  revertIf (m = .username ∧ s.coordinator.usernameEscrowEvidenceHash = 0)
    .usernameEscrowEvidenceRequired
  let finalized ← s.finalizeBootstrap d (asCoordinator d msg) m
  let marked := finalized.setProgress m { progress with finalized := true }
  pure (marked.setCoordinator { marked.coordinator with
    nextModuleIndex := wrap256 (marked.coordinator.nextModuleIndex + 1) })

/-- `attestUsernameEscrowReleased`. -/
def attestUsernameEscrowReleased (msg : Message) (evidenceHash : Bytes32) :
    Except Revert Suite := do
  s.onlyOperator d msg
  revertIf (evidenceHash = 0) .usernameEscrowEvidenceRequired
  revertIf (s.coordinator.usernameEscrowEvidenceHash ≠ 0) .usernameEscrowEvidenceAlreadySet
  pure (s.setCoordinator { s.coordinator with usernameEscrowEvidenceHash := evidenceHash })

/-- `activateSuite`. -/
def activateSuite (msg : Message) : Except Revert Suite := do
  s.onlyOperator d msg
  revertIf (¬ s.readyForActivation)
    (.modulesIncomplete s.coordinator.nextModuleIndex requiredModules.length)
  let active ← s.activate d (asCoordinator d msg)
  pure (active.setCoordinator { active.coordinator with activated := true })

end Suite

end Igit
