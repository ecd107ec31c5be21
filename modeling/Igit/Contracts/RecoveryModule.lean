import Igit.Contracts.RepositoryCore

/-!
# RecoveryModule

`contracts/evm-v2/src/modules/RecoveryModule.sol`. `cancelRecovery` is in `Contracts.Hooks`,
because an ownership transfer in the core runs through it.
-/

namespace Igit

open Fallible

def maxGuardians : Nat := 10
def recoveryDelay : Nat := 7 * days
def recoveryWindow : Nat := 30 * days

/-- `type(uint8).max`. -/
def uint8Max : Nat := 255

namespace Recovery

/-- One round of the loop of `_setGuardians`. -/
def addGuardian (repoId : Bytes32) (owner : Address) (r : Recovery) (guardian : Address) :
    Except Revert Recovery := do
  revertIf (guardian = 0 ∨ guardian = owner) (.invalidGuardian guardian)
  revertIf (r.isGuardian repoId guardian = true) (.duplicateGuardian guardian)
  pure { r with
    isGuardian := Function.update r.isGuardian repoId
      (Function.update (r.isGuardian repoId) guardian true)
    configs := Function.update r.configs repoId
      { r.configs repoId with guardians := (r.configs repoId).guardians ++ [guardian] } }

/-- `_setGuardians`. -/
def setGuardians (r : Recovery) (repoId : Bytes32) (owner : Address) (guardians : List Address)
    (threshold : Nat) : Except Revert Recovery := do
  revertIf (guardians.length = 0 ∨ guardians.length > maxGuardians ∨ threshold = 0 ∨
    threshold > guardians.length) (.invalidGuardianThreshold threshold guardians.length)
  let cleared := r.clearConfig repoId
  let started := { cleared with
    configs := Function.update cleared.configs repoId ⟨owner, threshold, []⟩ }
  guardians.foldlM (addGuardian repoId owner) started

/-- `_activeConfig`: the stored configuration, which the current owner must have made. -/
def activeConfig (r : Recovery) (repoId : Bytes32) (currentOwner : Address) :
    Except Revert GuardianConfig := do
  let config := r.configs repoId
  revertIf (config.threshold = 0) (.invalidGuardianThreshold 0 0)
  revertIf (config.configuredBy ≠ currentOwner)
    (.guardianConfigStale config.configuredBy currentOwner)
  pure config

/-- The writes of `proposeRecovery`: a fresh nonce, the proposal, and the proposer's approval. -/
def putProposal (r : Recovery) (repoId : Bytes32) (proposal : Proposal) : Recovery :=
  { r with
    proposalNonces := Function.update r.proposalNonces repoId proposal.nonce
    proposals := Function.update r.proposals repoId proposal
    approvals := Function.update r.approvals repoId
      (Function.update (r.approvals repoId) proposal.nonce
        (Function.update (r.approvals repoId proposal.nonce) proposal.proposedBy true)) }

/-- The writes of `approveRecovery`. -/
def putApproval (r : Recovery) (repoId : Bytes32) (guardian : Address) : Recovery :=
  let proposal := r.proposals repoId
  { r with
    approvals := Function.update r.approvals repoId
      (Function.update (r.approvals repoId) proposal.nonce
        (Function.update (r.approvals repoId proposal.nonce) guardian true))
    proposals := Function.update r.proposals repoId
      { proposal with approvals := proposal.approvals + 1 } }

end Recovery

namespace Suite

variable (d : Deployment) (s : Suite)

/-- Replace the storage of the recovery module. -/
def setRecovery (recovery : Recovery) : Suite := { s with recovery := recovery }

/-- `setGuardians`. A new guardian set also withdraws a pending proposal. -/
def setGuardians (msg : Message) (repoId : Bytes32) (guardians : List Address) (threshold : Nat) :
    Except Revert Suite := do
  s.onlyActiveSuite
  let repository ← s.repository repoId
  revertIf (msg.sender ≠ repository.owner) (.unauthorized msg.sender)
  let configured ← s.recovery.setGuardians repoId repository.owner guardians threshold
  pure (s.setRecovery (configured.deleteProposal repoId))

/-- `proposeRecovery`. The proposer's approval is the first one. -/
def proposeRecovery (msg : Message) (repoId : Bytes32) (newOwner : Address) :
    Except Revert Suite := do
  s.onlyActiveSuite
  let repository ← s.repository repoId
  let config ← s.recovery.activeConfig repoId repository.owner
  revertIf (s.recovery.isGuardian repoId msg.sender = false) (.unauthorized msg.sender)
  revertIf (newOwner = 0 ∨ newOwner = repository.owner) (.invalidRecoveryOwner newOwner)
  revertIf ((s.recovery.proposals repoId).newOwner ≠ 0) (.recoveryAlreadyPending repoId)
  let _core ← s.requireModule .core
  let _repository ← s.requireRepository repoId
  revertIf ((s.core.pendingTransfers repoId).newOwner ≠ 0) (.ownershipTransferPending repoId)
  -- `++_proposalNonces[repoId]` is checked 64-bit arithmetic
  revertIf (s.recovery.proposalNonces repoId ≥ uint64Max) (.panic 0x11)
  let nonce := s.recovery.proposalNonces repoId + 1
  let now ← now64 msg
  let executeAfter ← addTime now recoveryDelay
  let expiresAt ← addTime executeAfter recoveryWindow
  let proposed := s.recovery.putProposal repoId
    ⟨msg.sender, newOwner, executeAfter, expiresAt, nonce, 1⟩
  revertIf (config.threshold = 0) (.invalidGuardianThreshold 0 config.guardians.length)
  pure (s.setRecovery proposed)

/-- `approveRecovery`. -/
def approveRecovery (msg : Message) (repoId : Bytes32) : Except Revert Suite := do
  s.onlyActiveSuite
  let repository ← s.repository repoId
  let _config ← s.recovery.activeConfig repoId repository.owner
  let proposal := s.recovery.proposals repoId
  revertIf (proposal.newOwner = 0) (.recoveryNotPending repoId)
  let now ← now64 msg
  revertIf (now > proposal.expiresAt) (.recoveryExpired proposal.expiresAt)
  revertIf (s.recovery.isGuardian repoId msg.sender = false) (.unauthorized msg.sender)
  revertIf (s.recovery.approvals repoId proposal.nonce msg.sender = true)
    (.recoveryAlreadyApproved msg.sender)
  revertIf (proposal.approvals ≥ uint8Max) (.panic 0x11)
  pure (s.setRecovery (s.recovery.putApproval repoId msg.sender))

/-- `executeRecovery`. The recovery module calls the core as itself, after clearing its own
state. -/
def executeRecovery (msg : Message) (repoId : Bytes32) : Except Revert Suite := do
  s.onlyActiveSuite
  let repository ← s.repository repoId
  let config ← s.recovery.activeConfig repoId repository.owner
  let proposal := s.recovery.proposals repoId
  revertIf (proposal.newOwner = 0) (.recoveryNotPending repoId)
  revertIf (msg.sender ≠ proposal.newOwner) (.unauthorized msg.sender)
  let now ← now64 msg
  revertIf (now < proposal.executeAfter) (.recoveryTooEarly proposal.executeAfter)
  revertIf (now > proposal.expiresAt) (.recoveryExpired proposal.expiresAt)
  revertIf (proposal.approvals < config.threshold)
    (.recoveryApprovalThreshold config.threshold proposal.approvals)
  let cleared := s.setRecovery ((s.recovery.deleteProposal repoId).clearConfig repoId)
  let _core ← cleared.requireModule .core
  cleared.recoverOwnership d ⟨d.moduleAt .recovery, msg.timestamp⟩ repoId proposal.newOwner

/-- One record of the guardian import. -/
def storeGuardianConfig (imported : ImportGuardianConfig) : Except Revert Suite := do
  let repository ← s.repository imported.repoId
  revertIf (repository.owner ≠ imported.configuredBy ∨
    (s.recovery.configs imported.repoId).threshold ≠ 0) .invalidImportRecord
  let configured ← s.recovery.setGuardians imported.repoId imported.configuredBy
    imported.guardians imported.threshold
  pure (s.setRecovery configured)

end Suite

end Igit
