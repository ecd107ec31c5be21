import Igit.Contracts.Hooks
import Igit.Library.SwapPop

/-!
# RepositoryCore

`contracts/evm-v2/src/modules/RepositoryCore.sol`, function by function and check by check in
source order. Each external function takes the suite and the message and returns the new suite,
or the revert data of the first check that fails. The writes are collected in small functions on
`Core` so that what an operation changes can be stated apart from when it succeeds.
-/

namespace Igit

open Fallible

/-! ## Limits and validation -/

def maxNameLength : Nat := 64
def maxDescriptionLength : Nat := 1024
def maxRefNameLength : Nat := 256
def maxPackUris : Nat := 128
def maxPackUriLength : Nat := 512
def maxRefsPerRepo : Nat := 1024
def maxCollaboratorsPerRepo : Nat := 256
def maxForkRefs : Nat := 64
def ownershipTransferDelay : Nat := 7 * days
def ownershipTransferWindow : Nat := 30 * days

/-- The bytes of `"main"`. -/
def mainBranch : Bytes := [0x6d, 0x61, 0x69, 0x6e]

/-- A letter, a digit, `-`, `_` or `.`. -/
def isNameByte (c : UInt8) : Bool :=
  (0x61 ≤ c && c ≤ 0x7a) || (0x41 ≤ c && c ≤ 0x5a) || (0x30 ≤ c && c ≤ 0x39) ||
    c == 0x2d || c == 0x5f || c == 0x2e

/-- The names `_validateRepositoryName` accepts. -/
def validRepositoryName (value : Bytes) : Bool :=
  value.length ≠ 0 && value.length ≤ maxNameLength && value.all isNameByte

/-- `_validateRepositoryName`. -/
def validateRepositoryName (value : Bytes) : Except Revert Unit :=
  revertIf (validRepositoryName value = false) (.invalidRepositoryName value)

/-- The bytes of a ref name after `previous`: printable, none of `~ ^ : \`, no two dots in a row. -/
def validRefTail (previous : UInt8) : Bytes → Bool
  | [] => true
  | c :: rest =>
      !(c < 0x21 || c > 0x7e || c == 0x7e || c == 0x5e || c == 0x3a || c == 0x5c) &&
        !(c == 0x2e && previous == 0x2e) && validRefTail c rest

/-- The ref names `_validateRefName` accepts: 5 to 256 bytes that start with `refs/`. -/
def validRefName (value : Bytes) : Bool :=
  5 ≤ value.length && value.length ≤ maxRefNameLength &&
    value.take 5 == [0x72, 0x65, 0x66, 0x73, 0x2f] && validRefTail 0x2f (value.drop 5)

/-- `_validateRefName`. -/
def validateRefName (value : Bytes) : Except Revert Unit :=
  revertIf (validRefName value = false) (.invalidRefName value)

/-- A hexadecimal digit in either case. -/
def isHexByte (c : UInt8) : Bool :=
  (0x30 ≤ c && c ≤ 0x39) || (0x61 ≤ c && c ≤ 0x66) || (0x41 ≤ c && c ≤ 0x46)

/-- The commit ids `_validateCommitSha` accepts: 40 or 64 hexadecimal digits. -/
def validCommitSha (value : Bytes) : Bool :=
  (value.length == 40 || value.length == 64) && value.all isHexByte

/-- `_validateCommitSha`. -/
def validateCommitSha (value : Bytes) : Except Revert Unit :=
  revertIf (validCommitSha value = false) (.invalidCommitSha value)

/-- The bytes of `"ipfs://"`. -/
def ipfsScheme : Bytes := [0x69, 0x70, 0x66, 0x73, 0x3a, 0x2f, 0x2f]

/-- The pack locations `_validatePackUri` accepts: 8 to 512 bytes that start with `ipfs://`. -/
def validPackUri (value : Bytes) : Bool :=
  7 < value.length && value.length ≤ maxPackUriLength && value.take 7 == ipfsScheme

/-- `_validatePackUri`. -/
def validatePackUri (value : Bytes) : Except Revert Unit :=
  revertIf (validPackUri value = false) (.invalidPackUri value)

/-- `_requireLength`. -/
def requireLength (value : Bytes) (maximum : Nat) : Except Revert Unit :=
  revertIf (value.length > maximum) (.inputTooLong value.length maximum)

/-! ## Writes -/

namespace Core

variable (c : Core)

/-- The writes of `_storeRepository`: the record, its locator and its place in the owner's list. -/
def putRepository (locator : Bytes32) (imported : ImportRepository) : Core :=
  { c with
    repositories := Function.update c.repositories imported.id
      { id := imported.id
        owner := imported.owner
        name := imported.name
        description := imported.description
        defaultBranch := imported.defaultBranch
        forkedFrom := imported.forkedFrom
        createdAt := imported.createdAt
        updatedAt := imported.updatedAt
        present := true }
    locators := Function.update c.locators locator imported.id
    ownerRepositoryIndexes := Function.update c.ownerRepositoryIndexes imported.id
      ((c.ownerRepositories imported.owner).length + 1)
    ownerRepositories := Function.update c.ownerRepositories imported.owner
      (c.ownerRepositories imported.owner ++ [imported.id]) }

/-- `_locators[locator] = repoId`. -/
def putLocator (locator repoId : Bytes32) : Core :=
  { c with locators := Function.update c.locators locator repoId }

/-- Write one ref record. -/
def putRef (repoId refId : Bytes32) (gitRef : GitRef) : Core :=
  { c with refs := Function.update c.refs repoId (Function.update (c.refs repoId) refId gitRef) }

/-- Replace the list of ref names of a repository. -/
def setRefNames (repoId : Bytes32) (names : List Bytes) : Core :=
  { c with refNames := Function.update c.refNames repoId names }

/-- Replace a repository record. -/
def setRepository (repoId : Bytes32) (repository : Repository) : Core :=
  { c with repositories := Function.update c.repositories repoId repository }

/-- `_roles[repoId][account] = role`. -/
def setRole (repoId : Bytes32) (account : Address) (role : Role) : Core :=
  { c with roles := Function.update c.roles repoId (Function.update (c.roles repoId) account role) }

/-- Append an account to the collaborator list and record its position. -/
def pushCollaborator (repoId : Bytes32) (account : Address) : Core :=
  { c with
    collaborators := Function.update c.collaborators repoId (c.collaborators repoId ++ [account])
    collaboratorIndexes := Function.update c.collaboratorIndexes repoId
      (Function.update (c.collaboratorIndexes repoId) account
        ((c.collaborators repoId).length + 1)) }

/-- Record a pending transfer and reserve its target locator. -/
def putPending (repoId targetLocator : Bytes32) (pending : PendingOwnershipTransfer) : Core :=
  { c with
    pendingTransfers := Function.update c.pendingTransfers repoId pending
    reservedLocators := Function.update c.reservedLocators targetLocator repoId }

/-- `_clearPending`: free the reserved locator and forget the transfer. -/
def clearPending (repoId reservedLocator : Bytes32) : Core :=
  { c with
    reservedLocators := Function.update c.reservedLocators reservedLocator 0
    pendingTransfers := Function.update c.pendingTransfers repoId default }

/-- The writes of the swap-and-pop in `_removeCollaborator` once the position is known. -/
def popCollaborator (repoId : Bytes32) (moved : Address) (index : Nat) : Core :=
  { c with
    collaborators := Function.update c.collaborators repoId
      (swapPop (c.collaborators repoId) index)
    collaboratorIndexes := Function.update c.collaboratorIndexes repoId
      (Function.update (c.collaboratorIndexes repoId) moved (index + 1)) }

/-- The last writes of `_removeCollaborator`: the position and the role of the account. -/
def forgetCollaborator (repoId : Bytes32) (account : Address) : Core :=
  { c with
    collaboratorIndexes := Function.update c.collaboratorIndexes repoId
      (Function.update (c.collaboratorIndexes repoId) account 0)
    roles := Function.update c.roles repoId (Function.update (c.roles repoId) account .none) }

/-- `_removeCollaborator`. -/
def removeCollaborator (repoId : Bytes32) (account : Address) : Except Revert Core :=
  let indexPlusOne := c.collaboratorIndexes repoId account
  if indexPlusOne ≠ 0 then
    match (c.collaborators repoId).getLast? with
    | none => throw (.panic 0x11)
    | some moved => do
        revertIf ((c.collaborators repoId).length ≤ indexPlusOne - 1) (.panic 0x32)
        pure ((c.popCollaborator repoId moved (indexPlusOne - 1)).forgetCollaborator repoId account)
  else pure (c.forgetCollaborator repoId account)

/-- The writes of `_moveOwnerIndex` once the old list and position are known. -/
def moveOwner (repoId : Bytes32) (oldOwner newOwner : Address) (moved : Bytes32) (index : Nat) :
    Core :=
  let lists := Function.update c.ownerRepositories oldOwner
    (swapPop (c.ownerRepositories oldOwner) index)
  { c with
    ownerRepositoryIndexes := Function.update
      (Function.update c.ownerRepositoryIndexes moved (index + 1)) repoId
      ((lists newOwner).length + 1)
    ownerRepositories := Function.update lists newOwner (lists newOwner ++ [repoId]) }

/-- `_moveOwnerIndex`. -/
def moveOwnerIndex (repoId : Bytes32) (oldOwner newOwner : Address) : Except Revert Core := do
  let indexPlusOne := c.ownerRepositoryIndexes repoId
  revertIf (indexPlusOne = 0) .invalidImportRecord
  match (c.ownerRepositories oldOwner).getLast? with
  | none => throw (.panic 0x11)
  | some moved => do
      revertIf ((c.ownerRepositories oldOwner).length ≤ indexPlusOne - 1) (.panic 0x32)
      pure (c.moveOwner repoId oldOwner newOwner moved (indexPlusOne - 1))

/-- `_contains`: compare digests, as the source does. -/
def containsUri (keccak : Keccak) (values : List Bytes) (candidate : Bytes) : Bool :=
  values.any fun value => keccak.ofBytes value == keccak.ofBytes candidate

end Core

namespace Suite

variable (d : Deployment) (s : Suite)

/-- Replace the storage of the core. -/
def setCore (core : Core) : Suite := { s with core := core }

/-! ## Internal checks -/

/-- `_requireLocatorAvailable`. -/
def requireLocatorAvailable (locator : Bytes32) (owner : Address) (name : Bytes) :
    Except Revert Unit :=
  revertIf (s.core.locators locator ≠ 0 ∨ s.core.reservedLocators locator ≠ 0)
    (.locatorUnavailable owner name)

/-- `_requireLocatorAvailableFor`: a locator the repository itself holds or reserved will do. -/
def requireLocatorAvailableFor (repoId locator : Bytes32) (owner : Address) (name : Bytes) :
    Except Revert Unit :=
  revertIf
    ((s.core.locators locator ≠ 0 ∧ s.core.locators locator ≠ repoId) ∨
      (s.core.reservedLocators locator ≠ 0 ∧ s.core.reservedLocators locator ≠ repoId))
    (.locatorUnavailable owner name)

/-- `_canMaintain`. -/
def canMaintain (repoId : Bytes32) (owner actor : Address) : Prop :=
  actor = owner ∨ s.core.roles repoId actor = .maintainer

instance (repoId : Bytes32) (owner actor : Address) : Decidable (s.canMaintain repoId owner actor) :=
  inferInstanceAs (Decidable (_ ∨ _))

/-- `_storeRepository`. -/
def storeRepository (imported : ImportRepository) : Except Revert Suite := do
  revertIf (imported.id = 0 ∨ imported.owner = 0 ∨ imported.createdAt = 0 ∨
    imported.updatedAt < imported.createdAt) .invalidImportRecord
  revertIf (imported.forkedFrom ≠ 0 ∧
    (s.core.repositories imported.forkedFrom).present = false) .invalidImportRecord
  validateRepositoryName imported.name
  requireLength imported.description maxDescriptionLength
  requireLength imported.defaultBranch maxNameLength
  revertIf ((s.core.repositories imported.id).present = true) (.repositoryAlreadyExists imported.id)
  let locator := d.locator imported.owner imported.name
  s.requireLocatorAvailable locator imported.owner imported.name
  pure (s.setCore (s.core.putRepository locator imported))

/-! ## External functions -/

/-- `createRepository`. -/
def createRepository (msg : Message) (name description defaultBranch : Bytes) :
    Except Revert (Suite × Bytes32) := do
  s.onlyActiveSuite
  validateRepositoryName name
  requireLength description maxDescriptionLength
  requireLength defaultBranch maxNameLength
  let branch := if defaultBranch.length = 0 then mainBranch else defaultBranch
  s.requireLocatorAvailable (d.locator msg.sender name) msg.sender name
  let repoId := d.repositoryId msg.sender name
  revertIf ((s.core.repositories repoId).present = true) (.repositoryAlreadyExists repoId)
  let now ← now64 msg
  let stored ← s.storeRepository d ⟨repoId, msg.sender, name, description, branch, 0, now, now⟩
  pure (stored, repoId)

/-- One round of the copy loop of `forkRepository`. -/
def copyRef (source fork : Bytes32) (now : Nat) (sender : Address) (c : Core) (refName : Bytes) :
    Core :=
  let original := c.refs source (d.keccak.ofBytes refName)
  let copied := c.putRef fork (d.keccak.ofBytes refName)
    { commitSha := original.commitSha
      packUris := original.packUris
      updatedAt := now
      updatedBy := sender
      present := true }
  copied.setRefNames fork (copied.refNames fork ++ [refName])

/-- `forkRepository`. -/
def forkRepository (msg : Message) (sourceRepoId : Bytes32) (newName : Bytes) :
    Except Revert (Suite × Bytes32) := do
  s.onlyActiveSuite
  let source ← s.requireRepository sourceRepoId
  let _moderation ← s.requireModule .moderation
  s.requireFork sourceRepoId
  let names := s.core.refNames sourceRepoId
  revertIf (names.length > maxForkRefs) (.forkTooLarge names.length maxForkRefs)
  validateRepositoryName newName
  s.requireLocatorAvailable (d.locator msg.sender newName) msg.sender newName
  let forkId := d.repositoryId msg.sender newName
  revertIf ((s.core.repositories forkId).present = true) (.repositoryAlreadyExists forkId)
  let now ← now64 msg
  let stored ← s.storeRepository d
    ⟨forkId, msg.sender, newName, source.description, source.defaultBranch, sourceRepoId, now, now⟩
  pure (stored.setCore (names.foldl (copyRef d sourceRepoId forkId now msg.sender) stored.core),
    forkId)

/-- `updateMetadata`. The moderation module may touch the timestamp but no field. -/
def updateMetadata (msg : Message) (repoId : Bytes32) (updateDescription : Bool)
    (description : Bytes) (updateDefaultBranch : Bool) (defaultBranch : Bytes) :
    Except Revert Suite := do
  s.onlyActiveSuite
  let repository ← s.requireRepository repoId
  if msg.sender ≠ repository.owner then do
    -- `_moderation()` is evaluated only when neither field is to change
    if updateDescription || updateDefaultBranch then throw (.unauthorized msg.sender) else do
      let moderation ← s.requireModule .moderation
      revertIf (msg.sender ≠ moderation) (.unauthorized msg.sender)
  if updateDescription then requireLength description maxDescriptionLength
  if updateDefaultBranch then requireLength defaultBranch maxNameLength
  let now ← now64 msg
  pure (s.setCore (s.core.setRepository repoId
    { repository with
      description := if updateDescription then description else repository.description
      defaultBranch := if updateDefaultBranch then defaultBranch else repository.defaultBranch
      updatedAt := now }))

/-- One round of the append loop of `updateRef`. -/
def appendPackUri (uris : List Bytes) (uri : Bytes) : Except Revert (List Bytes) :=
  if Core.containsUri d.keccak uris uri then pure uris
  else do
    revertIf (uris.length ≥ maxPackUris) (.tooManyPackUris (uris.length + 1) maxPackUris)
    pure (uris ++ [uri])

/-- The pack list `updateRef` stores: replaced by a forced push or on an empty list, else extended
by the URIs it does not hold yet. -/
def mergePackUris (current packUris : List Bytes) (force : Bool) : Except Revert (List Bytes) :=
  if force = true ∨ current.length = 0 then pure packUris
  else packUris.foldlM (appendPackUri d) current

/-- `updateRef`. -/
def updateRef (msg : Message) (repoId : Bytes32) (refName commitSha : Bytes)
    (packUris : List Bytes) (expectedSha : Bytes) (force : Bool) : Except Revert Suite := do
  s.onlyActiveSuite
  let repository ← s.requireRepository repoId
  revertIf (¬ s.canMaintain repoId repository.owner msg.sender) (.unauthorized msg.sender)
  let _moderation ← s.requireModule .moderation
  s.requireRefMutation repoId
  validateRefName refName
  validateCommitSha commitSha
  revertIf (packUris.length = 0 ∨ packUris.length > maxPackUris)
    (.tooManyPackUris packUris.length maxPackUris)
  packUris.forM validatePackUri
  let refId := d.keccak.ofBytes refName
  let target := s.core.refs repoId refId
  revertIf (force = false ∧ target.present = true ∧
    d.keccak.ofBytes target.commitSha ≠ d.keccak.ofBytes expectedSha)
    (.shaMismatch expectedSha target.commitSha)
  let names := s.core.refNames repoId
  revertIf (target.present = false ∧ names.length ≥ maxRefsPerRepo)
    (.tooManyRefs (names.length + 1) maxRefsPerRepo)
  let uris ← mergePackUris d target.packUris packUris force
  let now ← now64 msg
  let named := if target.present then s.core else s.core.setRefNames repoId (names ++ [refName])
  let written := named.putRef repoId refId
    { commitSha := commitSha
      packUris := uris
      updatedAt := now
      updatedBy := msg.sender
      present := true }
  pure (s.setCore (written.setRepository repoId { repository with updatedAt := now }))

/-- The list of names after `deleteRef`: the first name with the deleted digest is swapped out. -/
def removeRefName (names : List Bytes) (refId : Bytes32) : List Bytes :=
  match names.findIdx? (fun name => d.keccak.ofBytes name == refId) with
  | some i => swapPop names i
  | none => names

/-- `deleteRef`. -/
def deleteRef (msg : Message) (repoId : Bytes32) (refName : Bytes) : Except Revert Suite := do
  s.onlyActiveSuite
  let repository ← s.requireRepository repoId
  revertIf (¬ s.canMaintain repoId repository.owner msg.sender) (.unauthorized msg.sender)
  let _moderation ← s.requireModule .moderation
  s.requireRefMutation repoId
  let refId := d.keccak.ofBytes refName
  revertIf ((s.core.refs repoId refId).present = false) (.refNotFound repoId refId)
  let now ← now64 msg
  let deleted := s.core.putRef repoId refId default
  let renamed := deleted.setRefNames repoId (removeRefName d (s.core.refNames repoId) refId)
  pure (s.setCore (renamed.setRepository repoId { repository with updatedAt := now }))

/-- `setCollaborator`. -/
def setCollaborator (msg : Message) (repoId : Bytes32) (account : Address) (role : Role) :
    Except Revert Suite := do
  s.onlyActiveSuite
  let repository ← s.requireRepository repoId
  revertIf (msg.sender ≠ repository.owner) (.unauthorized msg.sender)
  revertIf (account = 0 ∨ account = repository.owner) (.invalidCollaborator account)
  let previous := s.core.roles repoId account
  if role = .none then
    if previous ≠ .none then do
      let removed ← s.core.removeCollaborator repoId account
      pure (s.setCore removed)
    else pure s
  else if previous = .none then do
    let count := (s.core.collaborators repoId).length
    revertIf (count ≥ maxCollaboratorsPerRepo)
      (.tooManyCollaborators (count + 1) maxCollaboratorsPerRepo)
    pure (s.setCore ((s.core.pushCollaborator repoId account).setRole repoId account role))
  else pure (s.setCore (s.core.setRole repoId account role))

/-- `beginOwnershipTransfer`. -/
def beginOwnershipTransfer (msg : Message) (repoId : Bytes32) (newOwner : Address) :
    Except Revert Suite := do
  s.onlyActiveSuite
  let repository ← s.requireRepository repoId
  revertIf (msg.sender ≠ repository.owner) (.unauthorized msg.sender)
  revertIf (newOwner = 0 ∨ newOwner = repository.owner) (.invalidTransferTarget newOwner)
  revertIf ((s.core.pendingTransfers repoId).newOwner ≠ 0) (.transferAlreadyPending repoId)
  let _recovery ← s.requireModule .recovery
  revertIf (s.hasPendingRecovery repoId = true) (.recoveryPending repoId)
  let targetLocator := d.locator newOwner repository.name
  s.requireLocatorAvailable targetLocator newOwner repository.name
  let now ← now64 msg
  let executeAfter ← addTime now ownershipTransferDelay
  let expiresAt ← addTime executeAfter ownershipTransferWindow
  pure (s.setCore (s.core.putPending repoId targetLocator ⟨newOwner, executeAfter, expiresAt⟩))

/-- `cancelOwnershipTransfer`. -/
def cancelOwnershipTransfer (msg : Message) (repoId : Bytes32) : Except Revert Suite := do
  s.onlyActiveSuite
  let repository ← s.requireRepository repoId
  let pending := s.core.pendingTransfers repoId
  revertIf (pending.newOwner = 0) (.transferNotPending repoId)
  revertIf (msg.sender ≠ repository.owner ∧ msg.sender ≠ pending.newOwner)
    (.unauthorized msg.sender)
  pure (s.setCore (s.core.clearPending repoId (d.locator pending.newOwner repository.name)))

/-- The writes of `_transferOwnership` inside the core. -/
def transferCore (c : Core) (repoId : Bytes32) (repository : Repository) (newOwner : Address) :
    Core :=
  let relocated := (c.putLocator (d.locator repository.owner repository.name) repoId).putLocator
    (d.locator newOwner repository.name) repoId
  (relocated.setRepository repoId { repository with owner := newOwner }).clearPending repoId
    (d.locator newOwner repository.name)

/-- `_transferOwnership`. The core calls the economic hook as itself. -/
def transferOwnership (msg : Message) (repoId : Bytes32) (repository : Repository)
    (newOwner : Address) : Except Revert Suite := do
  let newLocator := d.locator newOwner repository.name
  s.requireLocatorAvailableFor repoId newLocator newOwner repository.name
  let moved ← s.core.moveOwnerIndex repoId repository.owner newOwner
  let transferred := s.setCore (transferCore d moved repoId repository newOwner)
  let _economic ← transferred.requireModule .economic
  transferred.clearRevenueSplitsOnOwnershipTransfer d ⟨d.moduleAt .core, msg.timestamp⟩ repoId

/-- `acceptOwnershipTransfer`. -/
def acceptOwnershipTransfer (msg : Message) (repoId : Bytes32) : Except Revert Suite := do
  s.onlyActiveSuite
  let repository ← s.requireRepository repoId
  let pending := s.core.pendingTransfers repoId
  revertIf (pending.newOwner = 0) (.transferNotPending repoId)
  revertIf (msg.sender ≠ pending.newOwner) (.unauthorized msg.sender)
  let now ← now64 msg
  revertIf (now < pending.executeAfter) (.transferTooEarly pending.executeAfter)
  revertIf (now > pending.expiresAt) (.transferExpired pending.expiresAt)
  s.transferOwnership d msg repoId repository pending.newOwner

/-- `expireOwnershipTransfer`. -/
def expireOwnershipTransfer (msg : Message) (repoId : Bytes32) : Except Revert Suite := do
  s.onlyActiveSuite
  let repository ← s.requireRepository repoId
  let pending := s.core.pendingTransfers repoId
  revertIf (pending.newOwner = 0) (.transferNotPending repoId)
  let now ← now64 msg
  revertIf (now ≤ pending.expiresAt) (.transferNotExpired pending.expiresAt)
  pure (s.setCore (s.core.clearPending repoId (d.locator pending.newOwner repository.name)))

/-- `recoverOwnership`, open to the recovery module alone. -/
def recoverOwnership (msg : Message) (repoId : Bytes32) (newOwner : Address) :
    Except Revert Suite := do
  s.onlyActiveSuite
  let recovery := s.moduleAddress .recovery
  revertIf (msg.sender ≠ recovery ∨ recovery = 0) (.unauthorized msg.sender)
  let repository ← s.requireRepository repoId
  revertIf (newOwner = 0 ∨ newOwner = repository.owner) (.invalidTransferTarget newOwner)
  s.requireLocatorAvailableFor repoId (d.locator newOwner repository.name) newOwner repository.name
  revertIf ((s.core.pendingTransfers repoId).newOwner ≠ 0) (.transferAlreadyPending repoId)
  s.transferOwnership d msg repoId repository newOwner

/-! ## Views -/

/-- `resolveRepository`: the repository a locator stands for, and whether the locator is the one its
record gives. -/
def resolveRepository (owner : Address) (name : Bytes) : Except Revert (Repository × Bool) := do
  let repoId := s.core.locators (d.locator owner name)
  revertIf (repoId = 0) (.locatorNotFound owner name)
  let repository := s.core.repositories repoId
  pure (repository, decide (repository.owner = owner) &&
    decide (d.keccak.ofBytes repository.name = d.keccak.ofBytes name))

/-! ## Import -/

/-- One record of import kind 1. -/
def storeAlias (imported : ImportAlias) : Except Revert Suite := do
  let _repository ← s.requireRepository imported.repoId
  validateRepositoryName imported.name
  revertIf (imported.owner = 0) .invalidImportRecord
  let locator := d.locator imported.owner imported.name
  revertIf (s.core.locators locator ≠ 0 ∨ s.core.reservedLocators locator ≠ 0)
    .invalidImportRecord
  pure (s.setCore (s.core.putLocator locator imported.repoId))

/-- `_storeImportedRef`. -/
def storeImportedRef (imported : ImportRef) : Except Revert Suite := do
  let _repository ← s.requireRepository imported.repoId
  validateRefName imported.refName
  validateCommitSha imported.commitSha
  revertIf (imported.packUris.length = 0 ∨ imported.packUris.length > maxPackUris ∨
    imported.updatedAt = 0 ∨ imported.updatedBy = 0) .invalidImportRecord
  let refId := d.keccak.ofBytes imported.refName
  revertIf ((s.core.refs imported.repoId refId).present = true) .invalidImportRecord
  imported.packUris.forM validatePackUri
  let names := s.core.refNames imported.repoId ++ [imported.refName]
  let written := (s.core.putRef imported.repoId refId
    { commitSha := imported.commitSha
      packUris := imported.packUris
      updatedAt := imported.updatedAt
      updatedBy := imported.updatedBy
      present := true }).setRefNames imported.repoId names
  revertIf (names.length > maxRefsPerRepo) (.tooManyRefs names.length maxRefsPerRepo)
  pure (s.setCore written)

/-- `_storeImportedCollaborator`. -/
def storeImportedCollaborator (imported : ImportCollaborator) : Except Revert Suite := do
  let repository ← s.requireRepository imported.repoId
  revertIf (imported.account = 0 ∨ imported.account = repository.owner ∨ imported.role = .none)
    .invalidImportRecord
  revertIf (s.core.roles imported.repoId imported.account ≠ .none) .invalidImportRecord
  let written := (s.core.setRole imported.repoId imported.account imported.role).pushCollaborator
    imported.repoId imported.account
  let count := (written.collaborators imported.repoId).length
  revertIf (count > maxCollaboratorsPerRepo) (.tooManyCollaborators count maxCollaboratorsPerRepo)
  pure (s.setCore written)

end Suite

end Igit
