import Igit.Bootstrap.Books
import Igit.Library.HashChain

/-!
# A root determines what was imported

The rolling root of a module is the hash chain of the batches it imported (`Chained`), and until the
suite is active its storage is what storing the records of these batches in turn gives
(`Reachable.replayed`). So two bootstraps of a module that end in one root imported the same
batches and hold the same records, whatever else was tried in between.
-/

namespace Igit

open Fallible

/-! ## Batches and roots -/

/-- The batch a phase imported into a module. -/
def Phase.batchOf (m : Module) : Phase → Option Batch
  | .imported n batch => if n = m then some batch else none
  | _ => none

/-- The batches of a module among the phases, oldest first. -/
def batchesOf (m : Module) (phases : List Phase) : List Batch := phases.filterMap (Phase.batchOf m)

/-- A call that imports no batch adds none. -/
theorem batchesOf_unbatched {m : Module} {op : Op} (h : op.Unbatched) :
    batchesOf m op.phase.toList = [] := by
  cases hphase : op.phase with
  | none => rfl
  | some phase =>
      cases phase with
      | imported n batch => exact absurd hphase (h n batch)
      | began | finalized => rfl

/-- The step of a module's rolling root. -/
def rollingStep (keccak : Keccak) (m : Module) (root : Bytes32) (sequence : Nat) (batch : Batch) :
    Bytes32 :=
  keccak.hash (.rollingStep root (.suite m) sequence batch.count (keccak.ofBytes batch.payload))

/-- The rolling root of a module after some batches. -/
def rollingRoot (keccak : Keccak) (m : Module) (snapshotRoot : Bytes32) (batches : List Batch) :
    Bytes32 :=
  chain (rollingStep keccak m) (keccak.hash (.rollingSeed (.suite m) snapshotRoot)) batches

/-- Different batches have different roots. -/
theorem rollingRoot_injective {keccak : Keccak} {m : Module} {snapshotRoot : Bytes32}
    {batches other : List Batch}
    (h : rollingRoot keccak m snapshotRoot batches = rollingRoot keccak m snapshotRoot other) :
    batches = other := by
  refine chain_injective ?_ ?_ h
  · intro root root' i j batch batch' hstep
    have hpreimage := keccak.injective (by rfl) hstep
    simp only [Preimage.rollingStep.injEq, Keccak.ofBytes_inj] at hpreimage
    obtain ⟨hroot, -, -, hcount, hpayload⟩ := hpreimage
    refine ⟨hroot, ?_⟩
    cases batch
    cases batch'
    simp_all
  · intro root i batch hstep
    have hpreimage := keccak.injective (by rfl) hstep
    cases hpreimage

/-- The counters and the root of a module are those of the batches it imported. -/
structure Bootstrap.Chained (d : Deployment) (m : Module) (own : Bootstrap) (batches : List Batch) :
    Prop where
  unstarted : own.bootstrapStarted = false → batches = []
  sequence : own.nextImportSequence = batches.length
  root : own.bootstrapStarted = true →
    own.rollingImportRoot = rollingRoot d.keccak m d.snapshotRoot batches
  finished : own.bootstrapFinalized = true →
    own.bootstrapStarted = true ∧ own.rollingImportRoot = own.expectedImportRoot

namespace Setup

variable {d : Deployment} {u u' : Setup} {history : List Phase} {phase : Option Phase}

/-- The counters and roots of all modules are those of the batches in the history. -/
def Chained (d : Deployment) (u : Setup) (history : List Phase) : Prop :=
  ∀ m, (u.bootstrap m).Chained d m (batchesOf m history)

/-- A phase of one module changes that module's chain only. -/
theorem Chained.update (h : u.Chained d history) {m : Module} {own : Bootstrap} {phase : Phase}
    (hother : ∀ n, n ≠ m → phase.batchOf n = none)
    (hown : own.Chained d m (batchesOf m (history ++ [phase]))) (n : Module) :
    (Function.update u.bootstrap m own n).Chained d n (batchesOf n (history ++ [phase])) := by
  by_cases hn : n = m
  · subst hn
    rw [Function.update_self]
    exact hown
  · have hsame : batchesOf n (history ++ [phase]) = batchesOf n history := by
      simp [batchesOf, hother n hn]
    rw [Function.update_of_ne hn, hsame]
    exact h n

/-- One step keeps the chains. -/
theorem Chained.step (h : u.Chained d history) (hstep : SetupStep d u phase u') :
    u'.Chained d (history ++ phase.toList) := by
  cases hstep with
  | idle | coordinate | enroll | attest | activate =>
      rw [Option.toList_none, List.append_nil]
      exact h
  | start m count batches root hopen hcan =>
      refine h.update (fun _ _ => rfl) ?_
      have hnone : batchesOf m (history ++ [.began m]) = [] := by
        rw [← (h m).unstarted hcan.unstarted]
        simp [batchesOf, Phase.batchOf]
      rw [hnone]
      refine ⟨fun _ => rfl, ?_, fun _ => rfl, fun hfinalized => ?_⟩
      · show (u.bootstrap m).nextImportSequence = 0
        rw [(h m).sequence, (h m).unstarted hcan.unstarted]
        rfl
      · have hstarted := ((h m).finished hfinalized).1
        rw [hcan.unstarted] at hstarted
        cases hstarted
  | batch m sequence batch hopen hcan =>
      have hlater : batchesOf m (history ++ [.imported m batch]) = batchesOf m history ++ [batch] := by
        simp [batchesOf, Phase.batchOf]
      refine h.update (fun n hn => if_neg (Ne.symm hn)) ?_
      rw [hlater]
      have hsequence : sequence = (batchesOf m history).length :=
        hcan.own_sequence_eq.trans (h m).sequence
      refine ⟨fun hunstarted => ?_, ?_, fun _ => ?_, fun hfinalized => ?_⟩
      · have hstarted := hcan.started
        rw [show (u.bootstrap m).bootstrapStarted = false from hunstarted] at hstarted
        cases hstarted
      · show wrap256 (sequence + 1) = (batchesOf m history ++ [batch]).length
        rw [wrap256_eq hcan.sequence_fits, hsequence, List.length_append, List.length_singleton]
      · show rollingStep d.keccak m (u.bootstrap m).rollingImportRoot sequence batch = _
        rw [(h m).root hcan.started, hsequence, rollingRoot, rollingRoot, chain_concat]
      · have hunfinalized := hcan.unfinalized
        rw [show (u.bootstrap m).bootstrapFinalized = true from hfinalized] at hunfinalized
        cases hunfinalized
  | finish m hopen hcan =>
      have hsame : batchesOf m (history ++ [.finalized m]) = batchesOf m history := by
        simp [batchesOf, Phase.batchOf]
      refine h.update (fun _ _ => rfl) ?_
      rw [hsame]
      exact ⟨(h m).unstarted, (h m).sequence, (h m).root, fun _ => ⟨hcan.started, hcan.own_root_eq⟩⟩

end Setup

/-- The chains hold in every run. -/
theorem Reachable.chained {d : Deployment} {w : World} (h : Reachable d w) :
    w.suite.setup.Chained d (phases w.history) := by
  refine h.run_invariant (P := fun w => w.suite.setup.Chained d (phases w.history)) ?_ ?_
  · intro m
    exact ⟨fun _ => rfl, rfl, fun hstarted => (Bool.false_ne_true hstarted).elim,
      fun hfinalized => (Bool.false_ne_true hfinalized).elim⟩
  · intro before after move hreach hnext hbefore
    obtain ⟨phase, hstep, hphases⟩ := (hreach.effect hnext).setupStep
    rw [hphases]
    exact hbefore.step hstep

/-! ## Records -/

/-- The records of one module. -/
inductive ModuleRecords where
  | core (storage : Core)
  | recovery (storage : Recovery)
  | moderation (storage : Moderation)
  | economic (storage : Economic)
  | username (storage : Username)
  | badge (storage : Badges)
  | release (storage : Releases)

namespace Suite

variable {d : Deployment} {s s' : Suite} {m : Module} {keccak : Keccak} {record : ImportRecord}

/-- The storage of a module without what is set rather than imported: the committee, the fee and the
settlement lock, and the deadline of the username claims. -/
def records (s : Suite) : Module → ModuleRecords
  | .core => .core s.core
  | .recovery => .recovery s.recovery
  | .moderation => .moderation { s.moderation with committee := 0 }
  | .economic => .economic
      { s.economic with treasury := 0, platformFeeBps := 0, settlementLock := 0 }
  | .username => .username { s.username with originalOwnerClaimDeadline := 0 }
  | .badge => .badge s.badges
  | .release => .release s.releases

/-- A record stays out of the other modules. -/
theorem records_stored_other (hm : record.module ≠ m) :
    (s.stored keccak record).records m = s.records m := by
  cases m <;> cases record <;> first | exact absurd rfl hm | rfl

/-- The fee settings and the lock have no part in a total. -/
theorem withTotal_unset {e : Economic} {repoId : Bytes32} {denom : Bytes} {amount : Nat} :
    { e.withTotal keccak repoId denom amount with
      treasury := 0, platformFeeBps := 0, settlementLock := 0 } =
    ({ e with treasury := 0, platformFeeBps := 0, settlementLock := 0 } : Economic).withTotal keccak
      repoId denom amount := by
  unfold Economic.withTotal Economic.withDenom
  cases e.knownDenom repoId (keccak.ofBytes denom) <;> rfl

/-- What a record leaves in its module depends on what was there. -/
theorem records_stored_congr (hm : record.module = m) (h : s.records m = s'.records m) :
    (s.stored keccak record).records m = (s'.stored keccak record).records m := by
  subst hm
  cases record with
  | repository imported =>
      exact congrArg (fun c : Core => ModuleRecords.core
        (c.putRepository (keccak.locator imported.owner imported.name) imported))
        (ModuleRecords.core.inj h)
  | repositoryAlias imported =>
      exact congrArg (fun c : Core => ModuleRecords.core
        (c.putLocator (keccak.locator imported.owner imported.name) imported.repoId))
        (ModuleRecords.core.inj h)
  | ref imported =>
      exact congrArg (fun c : Core => ModuleRecords.core (c.withImportedRef keccak imported))
        (ModuleRecords.core.inj h)
  | collaborator imported =>
      exact congrArg (fun c : Core => ModuleRecords.core (c.withImportedCollaborator imported))
        (ModuleRecords.core.inj h)
  | guardianConfig imported =>
      exact congrArg (fun r : Recovery => ModuleRecords.recovery (r.configured imported.repoId
        imported.configuredBy imported.guardians imported.threshold)) (ModuleRecords.recovery.inj h)
  | status imported =>
      exact congrArg (fun m : Moderation => ModuleRecords.moderation (m.withStatus imported))
        (ModuleRecords.moderation.inj h)
  | report imported =>
      exact congrArg (fun m : Moderation => ModuleRecords.moderation (m.withReport imported))
        (ModuleRecords.moderation.inj h)
  | statusTrail imported =>
      exact congrArg (fun m : Moderation => ModuleRecords.moderation (m.withStatusTrail imported))
        (ModuleRecords.moderation.inj h)
  | splits imported =>
      exact congrArg (fun e : Economic => ModuleRecords.economic (e.withSplits imported))
        (ModuleRecords.economic.inj h)
  | total imported =>
      show ModuleRecords.economic { s.economic.withTotal keccak imported.repoId imported.denom
          imported.amount with treasury := 0, platformFeeBps := 0, settlementLock := 0 } =
        .economic { s'.economic.withTotal keccak imported.repoId imported.denom imported.amount with
          treasury := 0, platformFeeBps := 0, settlementLock := 0 }
      rw [withTotal_unset, withTotal_unset, ModuleRecords.economic.inj h]
  | originalOwner imported =>
      exact congrArg (fun u : Username => ModuleRecords.username (u.withOriginalOwner keccak imported))
        (ModuleRecords.username.inj h)
  | reservedName name =>
      exact congrArg (fun u : Username => ModuleRecords.username (u.withReserved keccak name))
        (ModuleRecords.username.inj h)
  | badge imported =>
      exact congrArg (fun b : Badges => ModuleRecords.badge (b.withBadge imported))
        (ModuleRecords.badge.inj h)
  | artifact imported =>
      exact congrArg (fun r : Releases => ModuleRecords.release (r.withArtifact keccak imported))
        (ModuleRecords.release.inj h)

/-- Records of other modules leave a module alone. -/
theorem records_foldl_other {items : List ImportRecord} (hm : ∀ x ∈ items, x.module ≠ m) :
    (items.foldl (stored keccak) s).records m = s.records m := by
  induction items generalizing s with
  | nil => rfl
  | cons first rest ih =>
      obtain ⟨hfirst, hrest⟩ := List.forall_mem_cons.mp hm
      rw [List.foldl_cons, ih hrest, records_stored_other hfirst]

/-- What records leave in their module depends on what was there. -/
theorem records_foldl_congr {items : List ImportRecord} (hm : ∀ x ∈ items, x.module = m)
    (h : s.records m = s'.records m) :
    (items.foldl (stored keccak) s).records m = (items.foldl (stored keccak) s').records m := by
  induction items generalizing s s' with
  | nil => exact h
  | cons first rest ih =>
      obtain ⟨hfirst, hrest⟩ := List.forall_mem_cons.mp hm
      exact ih hrest (records_stored_congr hfirst h)

end Suite

/-- The records a batch of a module holds. -/
def Batch.records (abi : AbiDecode) (m : Module) (batch : Batch) : List ImportRecord :=
  match decodeRecords abi m batch.payload with
  | .ok records => records
  | .error _ => []

theorem Batch.records_module {abi : AbiDecode} {m : Module} {batch : Batch} :
    ∀ x ∈ batch.records abi m, x.module = m := by
  unfold Batch.records
  cases hdecode : decodeRecords abi m batch.payload with
  | ok records => exact Suite.decodeRecords_module records hdecode
  | error reason => simp

/-- What a module holds after the records of some batches are stored in a fresh suite. -/
def replayed (d : Deployment) (m : Module) (batches : List Batch) : ModuleRecords :=
  ((batches.flatMap (Batch.records d.abi m)).foldl (Suite.stored d.keccak) d.initialSuite).records m

/-- Replaying depends on the decoders and the hash only. -/
theorem replayed_congr {d d' : Deployment} (hkeccak : d.keccak = d'.keccak) (habi : d.abi = d'.abi)
    (m : Module) (batches : List Batch) : replayed d m batches = replayed d' m batches := by
  rw [replayed, replayed, hkeccak, habi]
  refine Suite.records_foldl_congr ?_ ?_
  · intro x hx
    obtain ⟨batch, -, hx⟩ := List.mem_flatMap.mp hx
    exact Batch.records_module x hx
  · cases m <;> rfl

namespace Suite

variable {d : Deployment} {s s' : Suite} {msg : Message}

/-- The books are no records. -/
theorem records_withSetup {u : Setup} (m : Module) : (s.withSetup u).records m = s.records m := by
  cases m <;> rfl

/-- The suite with the batches of some phases stored. -/
def followed (d : Deployment) (s : Suite) (m : Module) (history : List Phase) : Suite :=
  ((batchesOf m history).flatMap (Batch.records d.abi m)).foldl (stored d.keccak) s

/-- A bootstrap call stores the batch of its phase, and nothing else. -/
theorem BootstrapStep.records_eq {op : BootstrapOp} (h : BootstrapStep d s op s') (m : Module) :
    s'.records m = (s.followed d m (Op.bootstrap op).phase.toList).records m := by
  cases h with
  | books hinactive hbatch hstep =>
      rw [followed, batchesOf_unbatched hbatch]
      exact records_withSetup m
  | openClaims => cases m <;> rfl
  | @batch u importing sequence count payloadHash payload records hinactive hdecode hfit hstep =>
      rw [records_withSetup]
      show _ = (((batchesOf m [.imported importing ⟨count, payload⟩]).flatMap
        (Batch.records d.abi m)).foldl (Suite.stored d.keccak) s).records m
      by_cases hm : importing = m
      · subst hm
        have hbatch : ((batchesOf importing [.imported importing ⟨count, payload⟩]).flatMap
            (Batch.records d.abi importing)) = records := by
          simp [batchesOf, Phase.batchOf, Batch.records, hdecode]
        rw [hbatch]
      · have hnone : batchesOf m [.imported importing ⟨count, payload⟩] = [] := by
          simp [batchesOf, Phase.batchOf, hm]
        have hmodule := decodeRecords_module records hdecode
        rw [hnone]
        exact records_foldl_other fun x hx heq => hm ((hmodule x hx).symm.trans heq)

end Suite

/-- Before activation a move stores the batch of its phase, and nothing else. -/
theorem World.Effect.records_eq {d : Deployment} {w w' : World} {move : Move d}
    (h : w.Effect d move w') (hinactive : ¬ w.suite.IsActive) (m : Module) :
    ∃ later, phases w'.history = phases w.history ++ later ∧
      w'.suite.records m = (w.suite.followed d m later).records m := by
  cases h with
  | call hactive => exact absurd hactive hinactive
  | bootstrap hstep => exact ⟨_, phases_push, hstep.records_eq m⟩
  | openSponsor hactive => exact absurd hactive hinactive
  | closeSponsor =>
      refine ⟨[], (List.append_nil _).symm, ?_⟩
      cases m <;> rfl
  | wait => exact ⟨[], (List.append_nil _).symm, rfl⟩

/-- More batches are replayed on top of those before. -/
theorem replayed_append {d : Deployment} {s : Suite} {m : Module} {earlier later : List Phase}
    (h : s.records m = replayed d m (batchesOf m earlier)) :
    (s.followed d m later).records m = replayed d m (batchesOf m (earlier ++ later)) := by
  have hall : batchesOf m (earlier ++ later) = batchesOf m earlier ++ batchesOf m later :=
    List.filterMap_append
  rw [replayed, hall, List.flatMap_append, List.foldl_append]
  refine Suite.records_foldl_congr ?_ h
  intro x hx
  obtain ⟨batch, -, hx⟩ := List.mem_flatMap.mp hx
  exact Batch.records_module x hx

/-- Until the suite is active, a module holds what its batches replayed in a fresh suite give. -/
theorem Reachable.replayed {d : Deployment} {w : World} (h : Reachable d w)
    (hinactive : ¬ w.suite.IsActive) (m : Module) :
    w.suite.records m = Igit.replayed d m (batchesOf m (phases w.history)) := by
  refine h.run_invariant (P := fun w => ¬ w.suite.IsActive →
    w.suite.records m = Igit.replayed d m (batchesOf m (phases w.history))) (fun _ => rfl) ?_ hinactive
  intro before after move hreach hnext hbefore hafter
  have hinactive : ¬ before.suite.IsActive := fun hactive => hafter (hreach.active_next hactive hnext)
  obtain ⟨later, hphases, hrecords⟩ := (hreach.effect hnext).records_eq hinactive m
  rw [hphases, hrecords]
  exact replayed_append (hbefore hinactive)

/-- Two bootstraps of a module from one snapshot root that were both finalized with one expected
root imported the same batches of counts and payloads in the same order, and until activation the
module holds the same records in both. -/
theorem root_determines_import {d d' : Deployment} (hkeccak : d.keccak = d'.keccak)
    (habi : d.abi = d'.abi) (hsnapshot : d.snapshotRoot = d'.snapshotRoot) {w w' : World}
    (h : Reachable d w) (h' : Reachable d' w') {m : Module}
    (hfinalized : (w.suite.bootstrap m).bootstrapFinalized = true)
    (hfinalized' : (w'.suite.bootstrap m).bootstrapFinalized = true)
    (hroot : (w.suite.bootstrap m).expectedImportRoot = (w'.suite.bootstrap m).expectedImportRoot) :
    batchesOf m (phases w.history) = batchesOf m (phases w'.history) ∧
    (¬ w.suite.IsActive → ¬ w'.suite.IsActive → w.suite.records m = w'.suite.records m) := by
  have hchained : (w.suite.bootstrap m).Chained d m (batchesOf m (phases w.history)) := h.chained m
  have hchained' : (w'.suite.bootstrap m).Chained d' m (batchesOf m (phases w'.history)) :=
    h'.chained m
  obtain ⟨hstarted, hreached⟩ := hchained.finished hfinalized
  obtain ⟨hstarted', hreached'⟩ := hchained'.finished hfinalized'
  have hroots : rollingRoot d.keccak m d.snapshotRoot (batchesOf m (phases w.history)) =
      rollingRoot d.keccak m d.snapshotRoot (batchesOf m (phases w'.history)) := by
    calc rollingRoot d.keccak m d.snapshotRoot (batchesOf m (phases w.history))
        = (w.suite.bootstrap m).expectedImportRoot := (hchained.root hstarted).symm.trans hreached
      _ = (w'.suite.bootstrap m).expectedImportRoot := hroot
      _ = rollingRoot d'.keccak m d'.snapshotRoot (batchesOf m (phases w'.history)) :=
          hreached'.symm.trans (hchained'.root hstarted')
      _ = rollingRoot d.keccak m d.snapshotRoot (batchesOf m (phases w'.history)) := by
          rw [hkeccak, hsnapshot]
  have hbatches := rollingRoot_injective hroots
  refine ⟨hbatches, fun hinactive hinactive' => ?_⟩
  rw [h.replayed hinactive, h'.replayed hinactive', hbatches]
  exact replayed_congr hkeccak habi m _

namespace Sample

/-- A repository to import. -/
def firstRepository : ImportRepository := ⟨1, alice.address, [0x61, 0x62], [], [], 0, 5, 5⟩

/-- The payload that holds it. -/
def firstPayload : Bytes :=
  Codec.kindAndRecords.encode (0, Codec.importRepository.list.encode [firstRepository])

/-- The call that imports it into the core. -/
def importFirst (count : Nat) : BootstrapOp :=
  .importBatch (.suite .core) 0 count (importing.keccak.ofBytes firstPayload) firstPayload

/-- The calls up to the finalization of the core, with `attempts` made before the import. -/
def coreCalls (attempts : List (Account importing × BootstrapOp)) :
    List (Account importing × BootstrapOp) :=
  [(importAuthority, .setBootstrapCoordinator 0xd2 1),
   (importOperator, .registerModule (.suite .core) 0xd3 1),
   (importOperator, .beginNextModule (.suite .core) 1 1
     (rollingRoot importing.keccak .core importing.snapshotRoot [⟨1, firstPayload⟩]))] ++
  attempts ++ [(importOperator, importFirst 1), (importOperator, .finalizeCurrentModule (.suite .core))]

/-- The world after these calls, one every `elapsed` seconds. -/
def afterCore (elapsed : Nat) (attempts : List (Account importing × BootstrapOp)) : World :=
  (World.initial importing).run
    ((coreCalls attempts).map fun call => (elapsed, .call call.1 (.bootstrap call.2)))

/-- A straight import of the core. -/
def straight : World := afterCore 1 []

/-- A slower one, with a batch of the wrong count and a foreign call refused on the way. -/
def detour : World :=
  afterCore 9 [(importOperator, importFirst 2), (importAuthority, importFirst 1)]

theorem straight_reachable : Reachable importing straight := reachable_run _

theorem detour_reachable : Reachable importing detour := reachable_run _

/-- Both imported one batch, and hold the same records. -/
theorem straight_detour_same :
    batchesOf .core (phases straight.history) = [⟨1, firstPayload⟩] ∧
      batchesOf .core (phases straight.history) = batchesOf .core (phases detour.history) ∧
      straight.suite.records .core = detour.suite.records .core := by
  have hsame := root_determines_import rfl rfl rfl straight_reachable detour_reachable
    (show (straight.suite.bootstrap .core).bootstrapFinalized = true by decide +kernel)
    (show (detour.suite.bootstrap .core).bootstrapFinalized = true by decide +kernel)
    (show (straight.suite.bootstrap .core).expectedImportRoot =
      (detour.suite.bootstrap .core).expectedImportRoot by decide +kernel)
  exact ⟨by decide +kernel, hsame.1, hsame.2 (by decide +kernel) (by decide +kernel)⟩

end Sample

end Igit
