import Igit.Contracts.Deployment

/-!
# Calls between modules

The views and hooks of `ISuite.sol` that one module calls on another: repository lookup, the
moderation policy, the recovery state, and the ownership hook that runs from the core through the
economic module into the recovery module. They come before the modules themselves because
`RepositoryCore` needs all of them.
-/

namespace Igit

open Fallible

namespace Suite

variable (d : Deployment) (s : Suite)

/-- The modifier `onlyActiveSuite`. -/
def onlyActiveSuite : Except Revert Unit :=
  revertIf (s.directory.state ≠ .active) .suiteNotActive

/-- `SuiteDirectory.moduleAddress`, zero for an unregistered module. -/
def moduleAddress (m : Module) : Address := s.directory.moduleAddress m

/-- `_core` and `_moderation`: the address of a module that must be registered. -/
def requireModule (m : Module) : Except Revert Address := do
  revertIf (s.moduleAddress m = 0) .suiteNotActive
  pure (s.moduleAddress m)

/-- `RepositoryCore._requireRepository`, which `getRepository` also is. -/
def requireRepository (repoId : Bytes32) : Except Revert Repository := do
  revertIf ((s.core.repositories repoId).present = false) (.repositoryNotFound repoId)
  pure (s.core.repositories repoId)

/-- `_repository` of the other modules: look the repository up in the core, turning any failure
of the core into `RepositoryNotFound`. -/
def repository (repoId : Bytes32) : Except Revert Repository := do
  let _core ← s.requireModule .core
  match s.requireRepository repoId with
  | .ok value => pure value
  | .error _ => throw (.repositoryNotFound repoId)

/-! ## The moderation policy -/

/-- The check shared by ref changes and sponsorship. -/
def requireNotFrozen (repoId : Bytes32) : Except Revert Unit := do
  let _repository ← s.repository repoId
  revertIf (s.moderation.statuses repoId = .frozen) (.repositoryFrozen repoId)

/-- `ModerationModule._requireActiveRepository`. -/
def requireActiveRepository (repoId : Bytes32) : Except Revert Unit := do
  let _repository ← s.repository repoId
  revertIf (s.moderation.statuses repoId ≠ .active)
    (.repositoryNotActive repoId (s.moderation.statuses repoId))

/-- `ModerationModule.requireRefMutation`. -/
def requireRefMutation (repoId : Bytes32) : Except Revert Unit := s.requireNotFrozen repoId

/-- `ModerationModule.requireEconomicAction`. -/
def requireEconomicAction (repoId : Bytes32) : Except Revert Unit := s.requireNotFrozen repoId

/-- `ModerationModule.requireFork`. -/
def requireFork (repoId : Bytes32) : Except Revert Unit := s.requireActiveRepository repoId

/-- `ModerationModule.requireBadgeAward`. -/
def requireBadgeAward (repoId : Bytes32) : Except Revert Unit := s.requireActiveRepository repoId

/-! ## The recovery state -/

/-- `RecoveryModule.hasPendingRecovery`. -/
def hasPendingRecovery (repoId : Bytes32) : Bool :=
  decide ((s.recovery.proposals repoId).newOwner ≠ 0)

end Suite

/-- `RecoveryModule._clearConfig`: every listed guardian loses its flag, then the configuration
is deleted. -/
def Recovery.clearConfig (r : Recovery) (repoId : Bytes32) : Recovery :=
  { r with
    isGuardian := Function.update r.isGuardian repoId
      ((r.configs repoId).guardians.foldl (fun flags guardian => Function.update flags guardian false)
        (r.isGuardian repoId))
    configs := Function.update r.configs repoId default }

/-- `delete _proposals[repoId]`. -/
def Recovery.deleteProposal (r : Recovery) (repoId : Bytes32) : Recovery :=
  { r with proposals := Function.update r.proposals repoId default }

namespace Suite

variable (d : Deployment) (s : Suite)

/-- `RecoveryModule.cancelRecovery`. The core and the economic module clear the configuration with
the proposal. Anyone else may only withdraw a pending proposal, as the owner or its target. -/
def cancelRecovery (msg : Message) (repoId : Bytes32) : Except Revert Suite := do
  s.onlyActiveSuite
  let repository ← s.repository repoId
  let proposal := s.recovery.proposals repoId
  let core ← s.requireModule .core
  let economic := s.moduleAddress .economic
  if msg.sender = core ∨ msg.sender = economic then
    pure { s with recovery := (s.recovery.clearConfig repoId).deleteProposal repoId }
  else do
    revertIf (proposal.newOwner = 0) (.recoveryNotPending repoId)
    revertIf (msg.sender ≠ repository.owner ∧ msg.sender ≠ proposal.newOwner)
      (.unauthorized msg.sender)
    pure { s with recovery := s.recovery.deleteProposal repoId }

/-- `delete _splits[repoId]`. -/
def deleteSplits (repoId : Bytes32) : Suite :=
  { s with economic := { s.economic with splits := Function.update s.economic.splits repoId [] } }

/-- `EconomicModule.clearRevenueSplitsOnOwnershipTransfer`. The economic module goes on to call
`cancelRecovery` as itself. -/
def clearRevenueSplitsOnOwnershipTransfer (msg : Message) (repoId : Bytes32) :
    Except Revert Suite := do
  s.onlyActiveSuite
  let core := s.moduleAddress .core
  revertIf (core = 0 ∨ msg.sender ≠ core) (.unauthorized msg.sender)
  let _repository ← s.repository repoId
  let cleared := s.deleteSplits repoId
  let _recovery ← cleared.requireModule .recovery
  cleared.cancelRecovery ⟨d.moduleAt .economic, msg.timestamp⟩ repoId

end Suite

end Igit
