import Igit.Bootstrap.Effects
import Igit.Bootstrap.Replay
import Igit.Library.Tally
import Igit.Ownership.Protocol

/-!
# What the calls do to the economic module

The split tables are written by `setRevenueSplits`, by the ownership hook and by imports, and the
totals by `sponsor` and by imports. `EconomicStep` says so for every call and every bootstrap step,
with the guards under which the tables are written and the ownership change that comes with the
hook.
-/

namespace Igit

open Fallible

/-- The totals and denoms of the economic module. -/
def Economic.tally (e : Economic) : Tally Bytes32 Bytes Bytes32 := ⟨e.totals, e.denoms, e.knownDenom⟩

/-- `_addTotal` adds one entry. -/
theorem Economic.tally_withTotal {keccak : Keccak} {e : Economic} {repoId : Bytes32} {denom : Bytes}
    {amount : Nat} :
    (e.withTotal keccak repoId denom amount).tally =
      e.tally.add keccak.ofBytes ⟨repoId, denom, amount⟩ := by
  unfold withTotal withDenom tally Tally.add
  split <;> simp_all

/-- `_addTotal` leaves the split tables alone. -/
theorem Economic.withTotal_splits (keccak : Keccak) (e : Economic) (repoId : Bytes32) (denom : Bytes)
    (amount : Nat) :
    (e.withTotal keccak repoId denom amount).splits = e.splits ∧
      (e.withTotal keccak repoId denom amount).importedSplits = e.importedSplits := by
  unfold withTotal withDenom
  split <;> exact ⟨rfl, rfl⟩

namespace Suite

/-- What a call does to the split tables and the totals. -/
inductive EconomicStep (d : Deployment) (s : Suite) (op : Op) (s' : Suite) : Prop where
  | keep (hphase : op.Unbatched) (htarget : s.transferTarget op = none)
      (hsplits : s'.economic.splits = s.economic.splits)
      (himported : s'.economic.importedSplits = s.economic.importedSplits)
      (htally : s'.economic.tally = s.economic.tally)
  | setSplits (repoId : Bytes32) (splits : List Split) (hphase : op.Unbatched)
      (hactive : s.IsActive) (hpresent : (s.core.repositories repoId).present = true)
      (hvalid : ValidSplits (s.core.repositories repoId).owner splits)
      (h : s' = s.setEconomic (s.economic.setSplits repoId splits))
  | handOver (repoId : Bytes32) (newOwner : Address) (hphase : op.Unbatched)
      (hactive : s.IsActive) (htarget : s.transferTarget op = some (repoId, newOwner))
      (h : s'.economic = s.economic.setSplits repoId [])
  | batch (m : Module) (batch : Batch) (u : Setup) (hphase : op.phase = some (.imported m batch))
      (hinactive : ¬ s.IsActive) (hfit : s.FitInTurn d.keccak (batch.records d.abi m))
      (h : s' = ((batch.records d.abi m).foldl (stored d.keccak) s).withSetup u)

variable {d : Deployment} {s s' : Suite}

/-- Every call of an active suite takes one step on the economic module. -/
theorem Effect.economicStep {sender : Address} {now : Nat} {op : Op} (hactive : s.IsActive)
    (h : Effect d s sender now op s') : EconomicStep d s op s' := by
  have hbatch := Op.unbatched h.setup_eq.2
  cases h with
  | setRevenueSplits hpresent hvalid => exact .setSplits _ _ hbatch hactive hpresent hvalid rfl
  | acceptOwnershipTransfer => exact .handOver _ _ hbatch hactive rfl rfl
  | executeRecovery => exact .handOver _ _ hbatch hactive rfl rfl
  | _ => exact .keep hbatch rfl rfl rfl rfl

/-- A step of the bootstrap stores the records of its batch. -/
theorem BootstrapStep.economicStep {op : BootstrapOp} (h : BootstrapStep d s op s') :
    EconomicStep d s (.bootstrap op) s' := by
  cases h with
  | books hinactive hbatch hstep => exact .keep hbatch rfl rfl rfl rfl
  | openClaims => exact .keep (fun _ _ => by simp [Op.phase]) rfl rfl rfl rfl
  | @batch u m sequence count payloadHash payload records hinactive hdecode hfit hstep =>
      have hbatch : (⟨count, payload⟩ : Batch).records d.abi m = records := by
        rw [Batch.records, hdecode]
      refine .batch m ⟨count, payload⟩ u rfl hinactive ?_ ?_
      · rw [hbatch]
        exact hfit
      · rw [hbatch]

end Suite

end Igit
