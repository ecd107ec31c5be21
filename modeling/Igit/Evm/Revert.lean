import Igit.Evm.Primitives

/-!
# Revert data

The custom errors of the contracts, under their own names and with their own arguments. Two
contracts that declare the same error signature produce the same revert data, so an error that
several modules share appears once. `panic` is the checked-arithmetic and array-bounds failure
of the compiler, and `gasExhausted` is a payment whose callee never returned.
-/

namespace Igit

/-- `ModerationModule.RepoStatus`. -/
inductive RepoStatus where
  | active
  | frozen
  | delisted
  deriving DecidableEq, Repr, Inhabited

/-- `ModerationModule.ReportStatus`. -/
inductive ReportStatus where
  | opened
  | resolved
  | appealed
  | appealResolved
  deriving DecidableEq, Repr, Inhabited

/-- Why a call was reverted. -/
inductive Revert where
  -- RepositoryCore
  | invalidRepositoryName (name : Bytes)
  | invalidRefName (name : Bytes)
  | invalidCommitSha (commitSha : Bytes)
  | invalidPackUri (uri : Bytes)
  | inputTooLong (length maximum : Nat)
  | tooManyPackUris (count maximum : Nat)
  | tooManyRefs (count maximum : Nat)
  | tooManyCollaborators (count maximum : Nat)
  | forkTooLarge (count maximum : Nat)
  | repositoryNotFound (repoId : Bytes32)
  | locatorNotFound (owner : Address) (name : Bytes)
  | locatorUnavailable (owner : Address) (name : Bytes)
  | repositoryAlreadyExists (repoId : Bytes32)
  | unauthorized (caller : Address)
  | invalidCollaborator (account : Address)
  | refNotFound (repoId refId : Bytes32)
  | shaMismatch (expected actual : Bytes)
  | invalidTransferTarget (target : Address)
  | transferAlreadyPending (repoId : Bytes32)
  | transferNotPending (repoId : Bytes32)
  | transferTooEarly (executeAfter : Nat)
  | transferExpired (expiresAt : Nat)
  | transferNotExpired (expiresAt : Nat)
  | recoveryPending (repoId : Bytes32)
  | timestampOverflow (timestamp : Nat)
  | invalidImportKind (kind : Nat)
  | invalidImportRecord
  -- RecoveryModule
  | invalidGuardian (guardian : Address)
  | duplicateGuardian (guardian : Address)
  | invalidGuardianThreshold (threshold count : Nat)
  | invalidRecoveryOwner (owner : Address)
  | guardianConfigStale (configuredBy currentOwner : Address)
  | recoveryAlreadyPending (repoId : Bytes32)
  | recoveryNotPending (repoId : Bytes32)
  | recoveryAlreadyApproved (guardian : Address)
  | recoveryApprovalThreshold (required actual : Nat)
  | recoveryTooEarly (executeAfter : Nat)
  | recoveryExpired (expiresAt : Nat)
  | ownershipTransferPending (repoId : Bytes32)
  -- ModerationModule
  | invalidCommittee
  | repositoryFrozen (repoId : Bytes32)
  | repositoryNotActive (repoId : Bytes32) (status : RepoStatus)
  | invalidReasonHash (reasonHash : Bytes)
  | reportNotFound (reportId : Nat)
  | invalidReportState (reportId : Nat) (expected actual : ReportStatus)
  | invalidPageSize (size maximum : Nat)
  | invalidCursor (cursor total : Nat)
  -- EconomicModule
  | invalidTreasury
  | noFunds
  | invalidMessageLength (length maximum : Nat)
  | tooManySplitRecipients (count maximum : Nat)
  | invalidSplitRecipient (recipient : Address)
  | ownerCannotReceiveRevenueSplit (owner : Address)
  | duplicateSplitRecipient (recipient : Address)
  | invalidSplitBps (recipient : Address) (bps : Nat)
  | splitTotalTooHigh (total maximum : Nat)
  | platformFeeTooHigh (bps maximum : Nat)
  | payoutFailed (recipient : Address) (amount : Nat)
  | reentrantSettlement
  | invalidDenom (denom : Bytes)
  -- UsernameModule
  | invalidUsername (name : Bytes)
  | usernameReserved (name : Bytes)
  | usernameUnavailable (name : Bytes)
  | addressAlreadyNamed (owner : Address)
  | usernameNotFound (name : Bytes)
  | originalOwnerClaimExpired (deadline : Nat)
  | originalOwnerMismatch (expected actual : Address)
  | tooManyReservedUsernames (count maximum : Nat)
  -- BadgeModule
  | invalidRecipient (recipient : Address)
  | ownerCannotReceiveBadge (owner : Address)
  | invalidReasonLength (length maximum : Nat)
  -- ReleaseModule
  | invalidVersion (version : Bytes)
  | invalidPlatform (platform : Bytes)
  | invalidSHA256
  | artifactAlreadyRegistered (version platform : Bytes)
  -- SuiteModule
  | unauthorizedBootstrap (caller : Address)
  | suiteNotActive
  | bootstrapAlreadyStarted
  | bootstrapNotStarted
  | bootstrapAlreadyFinalized
  | invalidImportRoot
  | importSequenceMismatch (expected actual : Nat)
  | importBatchTooLarge (count maximum : Nat)
  | importPayloadTooLarge (length maximum : Nat)
  | importPayloadHashMismatch (expected actual : Bytes32)
  | importCountMismatch (expected actual : Nat)
  | importBatchCountMismatch (expected actual : Nat)
  | importRootMismatch (expected actual : Bytes32)
  -- SuiteDirectory
  | directoryAlreadyActive
  | coordinatorAlreadyConfigured
  | invalidCoordinator
  | invalidModuleId (id : ModuleId)
  | moduleAlreadyConfigured (id : ModuleId)
  | invalidModule (module : Address)
  | codeHashMismatch (expected actual : Bytes32)
  | moduleBindingMismatch (id : ModuleId) (module : Address)
  | missingModule (id : ModuleId)
  | coordinatorNotReady
  -- BootstrapCoordinator
  | suiteAlreadyActivated
  | invalidCodeHash
  | moduleOrderMismatch (expected actual : ModuleId)
  | moduleNotConfigured (id : ModuleId)
  | moduleAlreadyStarted (id : ModuleId)
  | moduleNotStarted (id : ModuleId)
  | moduleAlreadyFinalized (id : ModuleId)
  | sequenceMismatch (expected actual : Nat)
  | countExceeded (expected actual : Nat)
  | batchCountExceeded (expected actual : Nat)
  | rootMismatch (expected actual : Bytes32)
  | usernameEscrowEvidenceRequired
  | usernameEscrowEvidenceAlreadySet
  | modulesIncomplete (finalized required : Nat)
  -- the compiler and the machine
  | panic (code : Nat)
  | abiDecode
  | gasExhausted
  deriving DecidableEq, Repr

open Fallible

/-- `_now64`: the block timestamp, refused when it does not fit 64 bits. -/
def now64 (msg : Message) : Except Revert Nat := do
  revertIf (msg.timestamp > uint64Max) (.timestampOverflow msg.timestamp)
  pure msg.timestamp

/-- `_addTime`: a later 64-bit timestamp. -/
def addTime (timestamp delay : Nat) : Except Revert Nat := do
  revertIf (timestamp + delay > uint64Max) (.timestampOverflow (timestamp + delay))
  pure (timestamp + delay)

/-- Solidity's checked `uint256` addition. -/
def checkedAdd (a b : Nat) : Except Revert Nat := do
  revertIf (a + b > uint256Max) (.panic 0x11)
  pure (a + b)

/-- Solidity's checked `uint256` subtraction. -/
def checkedSub (a b : Nat) : Except Revert Nat := do
  revertIf (a < b) (.panic 0x11)
  pure (a - b)

/-- Solidity's checked `uint256` multiplication. -/
def checkedMul (a b : Nat) : Except Revert Nat := do
  revertIf (a * b > uint256Max) (.panic 0x11)
  pure (a * b)

/-- The clock is read when it fits 64 bits. -/
@[simp] theorem now64_eq_ok {msg : Message} {now : Nat} :
    now64 msg = .ok now ↔ msg.timestamp ≤ uint64Max ∧ now = msg.timestamp := by
  simp only [now64, bind_eq_ok, revertIf_eq_ok, exists_unit, pure_eq_ok, Nat.not_lt, gt_iff_lt]
  exact and_congr_right fun _ => eq_comm

/-- A delay is added when the sum fits 64 bits. -/
@[simp] theorem addTime_eq_ok {timestamp delay later : Nat} :
    addTime timestamp delay = .ok later ↔
      timestamp + delay ≤ uint64Max ∧ later = timestamp + delay := by
  simp only [addTime, bind_eq_ok, revertIf_eq_ok, exists_unit, pure_eq_ok, Nat.not_lt, gt_iff_lt]
  exact and_congr_right fun _ => eq_comm

/-- A sum is returned when it fits 256 bits. -/
@[simp] theorem checkedAdd_eq_ok {a b sum : Nat} :
    checkedAdd a b = .ok sum ↔ a + b ≤ uint256Max ∧ sum = a + b := by
  simp only [checkedAdd, bind_eq_ok, revertIf_eq_ok, exists_unit, pure_eq_ok, Nat.not_lt, gt_iff_lt]
  exact and_congr_right fun _ => eq_comm

/-- A difference is returned when it is not negative. -/
@[simp] theorem checkedSub_eq_ok {a b difference : Nat} :
    checkedSub a b = .ok difference ↔ b ≤ a ∧ difference = a - b := by
  simp only [checkedSub, bind_eq_ok, revertIf_eq_ok, exists_unit, pure_eq_ok, Nat.not_lt]
  exact and_congr_right fun _ => eq_comm

/-- A product is returned when it fits 256 bits. -/
@[simp] theorem checkedMul_eq_ok {a b product : Nat} :
    checkedMul a b = .ok product ↔ a * b ≤ uint256Max ∧ product = a * b := by
  simp only [checkedMul, bind_eq_ok, revertIf_eq_ok, exists_unit, pure_eq_ok, Nat.not_lt, gt_iff_lt]
  exact and_congr_right fun _ => eq_comm

end Igit
