import Igit.Contracts.RepositoryCore

/-!
# EconomicModule

`contracts/evm-v2/src/modules/EconomicModule.sol`, apart from the ownership hook, which is in
`Contracts.Hooks`. `sponsor` pays accounts that may call back into the suite before it ends, so
it is cut at its payouts: `openSponsor` is everything up to the first one, `nextPayout` is the
way to the next one, and `closeSponsor` is what follows the last. The calls made
in between are put back in `Contracts.World`.
-/

namespace Igit

open Fallible

def maxPlatformFeeBps : Nat := 500
def maxSplitRecipients : Nat := 20
def maxMessageLength : Nat := 256
def maxDenomLength : Nat := 128
def bpsDenominator : Nat := 10000

/-- The bytes of `"inj"`. -/
def injDenom : Bytes := [0x69, 0x6e, 0x6a]

/-- `_validateDenom`. -/
def validateDenom (denom : Bytes) : Except Revert Unit :=
  revertIf (denom.length = 0 ∨ denom.length > maxDenomLength) (.invalidDenom denom)

/-- `_addTotal`. -/
def Economic.addTotal (keccak : Keccak) (e : Economic) (repoId : Bytes32) (denom : Bytes)
    (amount : Nat) : Except Revert Economic := do
  let key := keccak.ofBytes denom
  let listed := if e.knownDenom repoId key then e else
    { e with
      knownDenom := Function.update e.knownDenom repoId
        (Function.update (e.knownDenom repoId) key true)
      denoms := Function.update e.denoms repoId (e.denoms repoId ++ [denom]) }
  let total ← checkedAdd (listed.totals repoId key) amount
  pure { listed with
    totals := Function.update listed.totals repoId
      (Function.update (listed.totals repoId) key total) }

/-- Replace the split table of a repository. -/
def Economic.setSplits (e : Economic) (repoId : Bytes32) (splits : List Split) : Economic :=
  { e with splits := Function.update e.splits repoId splits }

namespace Suite

variable (d : Deployment) (s : Suite)

/-- Replace the storage of the economic module. -/
def setEconomic (economic : Economic) : Suite := { s with economic := economic }

/-- One round of the loop of `setRevenueSplits`, over the splits stored so far and their total. -/
def addSplit (owner : Address) (acc : List Split × Nat) (split : Split) :
    Except Revert (List Split × Nat) := do
  revertIf (split.recipient = 0) (.invalidSplitRecipient split.recipient)
  revertIf (split.recipient = owner) (.ownerCannotReceiveRevenueSplit owner)
  revertIf (split.bps = 0) (.invalidSplitBps split.recipient split.bps)
  revertIf (split.recipient ∈ acc.1.map Split.recipient)
    (.duplicateSplitRecipient split.recipient)
  revertIf (acc.2 + split.bps > bpsDenominator)
    (.splitTotalTooHigh (acc.2 + split.bps) bpsDenominator)
  pure (acc.1 ++ [split], acc.2 + split.bps)

/-- `setRevenueSplits`. -/
def setRevenueSplits (msg : Message) (repoId : Bytes32) (recipients : List Address)
    (bps : List Nat) : Except Revert Suite := do
  s.onlyActiveSuite
  let repository ← s.repository repoId
  revertIf (msg.sender ≠ repository.owner) (.unauthorized msg.sender)
  revertIf (recipients.length ≠ bps.length ∨ recipients.length > maxSplitRecipients)
    (.tooManySplitRecipients recipients.length maxSplitRecipients)
  let added ← (List.zipWith Split.mk recipients bps).foldlM (addSplit repository.owner) ([], 0)
  pure (s.setEconomic (s.economic.setSplits repoId added.1))

/-- `setFeeConfig`. -/
def setFeeConfig (msg : Message) (newTreasury : Address) (newPlatformFeeBps : Nat) :
    Except Revert Suite := do
  s.onlyActiveSuite
  revertIf (msg.sender ≠ d.economicAdmin) (.unauthorized msg.sender)
  revertIf (newTreasury = 0) .invalidTreasury
  revertIf (newPlatformFeeBps > maxPlatformFeeBps)
    (.platformFeeTooHigh newPlatformFeeBps maxPlatformFeeBps)
  pure (s.setEconomic { s.economic with
    treasury := newTreasury, platformFeeBps := newPlatformFeeBps })

/-! ## Sponsorship -/

/-- The local variables of a running `sponsor` call. `owner` and `treasury` were read before the
first payout. -/
structure Settlement where
  repoId : Bytes32
  owner : Address
  treasury : Address
  fee : Nat
  distributable : Nat
  deriving DecidableEq, Repr

/-- `sponsor` up to its first payout: the checks, the lock, the recorded total and the fee. -/
def openSponsor (repoId : Bytes32) (message : Bytes) (value : Nat) :
    Except Revert (Suite × Settlement) := do
  s.onlyActiveSuite
  revertIf (s.economic.settlementLock ≠ 1) .reentrantSettlement
  revertIf (value = 0) .noFunds
  revertIf (message.length > maxMessageLength)
    (.invalidMessageLength message.length maxMessageLength)
  let repository ← s.repository repoId
  let _moderation ← s.requireModule .moderation
  s.requireEconomicAction repoId
  let locked := { s.economic with settlementLock := 2 }
  let recorded ← locked.addTotal d.keccak repoId injDenom value
  let product ← checkedMul value recorded.platformFeeBps
  let fee := product / bpsDenominator
  let distributable ← checkedSub value fee
  pure (s.setEconomic recorded,
    ⟨repoId, repository.owner, recorded.treasury, fee, distributable⟩)

/-- The payout loop of `sponsor` from split `i` on: skip the shares that round to zero, and
return the position, recipient and amount of the next payout, if there is one. -/
def findPayout (distributable : Nat) (i : Nat) :
    List Split → Except Revert (Option (Nat × Address × Nat))
  | [] => pure none
  | split :: rest => do
      let product ← checkedMul distributable split.bps
      let amount := product / bpsDenominator
      if amount ≠ 0 then pure (some (i, split.recipient, amount))
      else findPayout distributable (i + 1) rest

/-- A payment a `sponsor` call makes. -/
structure Payment where
  recipient : Address
  amount : Nat
  deriving DecidableEq, Repr

/-- Where a running `sponsor` call stands: before the treasury's payout, or at split `i` with
`distributed` given to the splits before. -/
inductive Stage where
  | treasury
  | split (i distributed : Nat)
  deriving DecidableEq, Repr

/-- The payout from split `i` on, and where the call goes on afterwards. The split table is read
again after every payout. When no split is left, the owner gets the rest and the call ends. -/
def splitPayout (settlement : Settlement) (i distributed : Nat) :
    Except Revert (Payment × Option Stage) := do
  let payout ← findPayout settlement.distributable i
    ((s.economic.splits settlement.repoId).drop i)
  match payout with
  | some (j, recipient, amount) => do
      let total ← checkedAdd distributed amount
      pure (⟨recipient, amount⟩, some (.split (j + 1) total))
  | none => do
      let remainder ← checkedSub settlement.distributable distributed
      pure (⟨settlement.owner, remainder⟩, none)

/-- The next payout of a running `sponsor` call. A zero fee is not paid out. -/
def nextPayout (settlement : Settlement) : Stage → Except Revert (Payment × Option Stage)
  | .treasury =>
      if settlement.fee ≠ 0 then
        pure (⟨settlement.treasury, settlement.fee⟩, some (.split 0 0))
      else s.splitPayout settlement 0 0
  | .split i distributed => s.splitPayout settlement i distributed

/-- The end of `sponsor`: the lock opens again. -/
def closeSponsor : Suite := s.setEconomic { s.economic with settlementLock := 1 }

/-! ## Import -/

/-- One round of the loop of `_importSplits`. -/
def addImportedSplit (owner : Address) (acc : List Split × Nat) (split : Split) :
    Except Revert (List Split × Nat) := do
  revertIf (split.recipient = 0 ∨ split.recipient = owner ∨ split.bps = 0) .invalidImportRecord
  revertIf (split.recipient ∈ acc.1.map Split.recipient) .invalidImportRecord
  revertIf (acc.2 + split.bps > bpsDenominator) .invalidImportRecord
  pure (acc.1 ++ [split], acc.2 + split.bps)

/-- `_importSplits`. -/
def storeSplits (imported : ImportSplits) : Except Revert Suite := do
  let repository ← s.repository imported.repoId
  revertIf (s.economic.importedSplits imported.repoId = true ∨
    imported.splits.length > maxSplitRecipients) .invalidImportRecord
  let marked := { s.economic with
    importedSplits := Function.update s.economic.importedSplits imported.repoId true }
  let added ← imported.splits.foldlM (addImportedSplit repository.owner) ([], 0)
  pure (s.setEconomic (marked.setSplits imported.repoId
    (marked.splits imported.repoId ++ added.1)))

/-- One record of import kind 1. -/
def storeTotal (imported : ImportTotal) : Except Revert Suite := do
  let _repository ← s.repository imported.repoId
  revertIf (imported.amount = 0) .invalidImportRecord
  validateDenom imported.denom
  revertIf (s.economic.totals imported.repoId (d.keccak.ofBytes imported.denom) ≠ 0)
    .invalidImportRecord
  let added ← s.economic.addTotal d.keccak imported.repoId imported.denom imported.amount
  pure (s.setEconomic added)

end Suite

end Igit
