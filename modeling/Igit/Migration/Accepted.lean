import Igit.Bootstrap.Replay
import Igit.Migration.Planner

/-!
# What an accepted plan says

`ValidatePlan` recomputes the counters and the rolling root of every module in one pass over its
batches. `Plan.Checked` is what the pass establishes, in the terms of the contracts: each batch
stands at its position, packs as many records as it declares and fits the limits, and each module
declares the sum, the number and the rolling root of its batches (`checked_of_validatePlan`).
-/

namespace Igit.Migration

open Fallible

/-! ## Payloads -/

/-- A decoded list of one kind, as a decoded list of records. -/
theorem tagged_eq {α : Type} (tag : α → ImportRecord) (records : Option (List α)) :
    tagged tag records = decoded (records.map (List.map tag)) := by
  cases records <;> rfl

/-- Solidity decodes a payload of the planner to the records it decodes one by one. -/
theorem Env.Faithful.decodeRecords_encode {env : Env} {abi : AbiDecode} (h : env.Faithful abi)
    {k : Kind} {records : List k.Record}
    (hback : env.unpack k (env.pack k records) = some records) :
    decodeRecords abi k.module (env.encode k records) = decoded (records.mapM k.toImport) := by
  rw [← h.records k records hback]
  cases k with
  | guardianConfigs | badges | artifacts => exact tagged_eq _ _
  | _ =>
      simp only [decodeRecords, Env.encode, Kind.wrapped, Kind.module, Kind.code, if_true, h.kind]
      exact tagged_eq _ _

/-- A payload with a number of records is one the planner packs. -/
theorem encode_of_decodePayloadCount {env : Env} {m : Module} {code : UInt8} {payload : Bytes}
    {n : Nat} (h : env.decodePayloadCount m code payload = some n) :
    ∃ (k : Kind) (records : List k.Record), k.module = m ∧ payload = env.encode k records ∧
      env.unpack k (env.pack k records) = some records ∧ records.length = n := by
  simp only [Env.decodePayloadCount, Option.bind_eq_bind, Option.bind_eq_some_iff,
    Option.ite_none_right_eq_some, Option.some.injEq] at h
  obtain ⟨k, hkind, encoded, hunwrap, records, hunpack, hpack, hlength⟩ := h
  refine ⟨k, records, (kindAt_eq_some hkind).1, ?_, hpack ▸ hunpack, hlength⟩
  unfold Env.unwrap at hunwrap
  unfold Env.encode
  cases hwrapped : k.wrapped with
  | false =>
      rw [hwrapped] at hunwrap
      rw [hpack]
      exact Option.some.inj hunwrap
  | true =>
      rw [hwrapped] at hunwrap
      simp only [if_true, Option.bind_eq_bind, Option.bind_eq_some_iff,
        Option.ite_none_right_eq_some, Option.some.injEq] at hunwrap
      obtain ⟨outer, -, ⟨hcode, hpayload⟩, hencoded⟩ := hunwrap
      rw [if_pos rfl, hpack, ← hencoded, ← hcode, hpayload]

/-! ## Rolling roots -/

/-- A batch of a plan as the coordinator receives it. -/
def PlanBatch.toBatch (batch : PlanBatch) : Batch := ⟨batch.count.toNat, batch.payload.valueD []⟩

/-- The loop of the planner over a batch sequence: the root after the batches, of which the first
has a position. -/
def Env.rollFrom (env : Env) (id : ModuleId) : Nat → Bytes32 → List (UInt64 × Bytes) → Bytes32
  | _, root, [] => root
  | position, root, (count, payload) :: rest =>
      env.rollFrom id (position + 1)
        (env.rollingStep root id (UInt64.ofNat position) count (env.keccak.ofBytes payload)) rest

/-- The planner and the contracts roll from one position on to the same root. -/
theorem rollFrom_eq_chainFrom {env : Env} {m : Module} {batches : List (UInt64 × Bytes)}
    {position : Nat} {root : Bytes32} (hlength : position + batches.length ≤ 2 ^ 64) :
    env.rollFrom (.suite m) position root batches =
      chainFrom (rollingStep env.keccak m) position root
        (batches.map fun batch => ⟨batch.1.toNat, batch.2⟩) := by
  induction batches generalizing position root with
  | nil => rfl
  | cons first rest ih =>
      rw [List.length_cons] at hlength
      have hposition : (UInt64.ofNat position).toNat = position := by
        rw [UInt64.toNat_ofNat']
        exact Nat.mod_eq_of_lt (by omega)
      rw [Env.rollFrom, List.map_cons, chainFrom, ih (by omega), Env.rollingStep, hposition]
      rfl

/-- The planner and the contracts have one rolling root for every sequence of batches. The planner
numbers them by a `uint64`. -/
theorem rollFrom_eq_rollingRoot {env : Env} {m : Module} {snapshotRoot : Bytes32}
    {batches : List (UInt64 × Bytes)} (hlength : batches.length ≤ 2 ^ 64) :
    env.rollFrom (.suite m) 0 (env.rollingSeed (.suite m) snapshotRoot) batches =
      rollingRoot env.keccak m snapshotRoot (batches.map fun batch => ⟨batch.1.toNat, batch.2⟩) :=
  rollFrom_eq_chainFrom (by omega)

/-! ## Batches -/

/-- What is checked about the batch of a module at a position. -/
structure PlanBatch.Checked (env : Env) (m : Module) (position : Nat) (batch : PlanBatch) :
    Prop where
  sequence : batch.sequence.toNat = position
  count_ne_zero : batch.count.toNat ≠ 0
  count_le : batch.count.toNat ≤ maximumBatchItems
  records : ∃ (k : Kind) (records : List k.Record), k.module = m ∧
    batch.payload.valueD [] = env.encode k records ∧
    env.unpack k (env.pack k records) = some records ∧ records.length = batch.count.toNat
  fits : Suite.PayloadFits (batch.payload.valueD [])
  payloadHash : batch.payloadHash.valueD 0 = env.keccak.ofBytes (batch.payload.valueD [])

/-- The records some batches declare. -/
def declared (batches : List PlanBatch) : Nat := (batches.map fun batch => batch.count.toNat).sum

theorem declared_concat {batches : List PlanBatch} {batch : PlanBatch} :
    declared (batches ++ [batch]) = declared batches + batch.count.toNat := by
  simp [declared]

/-- The root after some batches of a plan. -/
def rolled (env : Env) (m : Module) (snapshotRoot : Bytes32) (batches : List PlanBatch) : Bytes32 :=
  rollingRoot env.keccak m snapshotRoot (batches.map PlanBatch.toBatch)

theorem rolled_concat {env : Env} {m : Module} {snapshotRoot : Bytes32} {batches : List PlanBatch}
    {batch : PlanBatch} :
    rolled env m snapshotRoot (batches ++ [batch]) =
      rollingStep env.keccak m (rolled env m snapshotRoot batches) batches.length batch.toBatch := by
  rw [rolled, List.map_append, List.map_singleton, rollingRoot, chain_concat, List.length_map]
  rfl

/-- What the loop over the batches carries after some of them. -/
structure BatchScan.After (env : Env) (m : Module) (snapshotRoot : Bytes32)
    (done : List PlanBatch) (scan : BatchScan) : Prop where
  index : scan.index = done.length
  root : scan.root = rolled env m snapshotRoot done
  count : scan.count = UInt64.ofNat (declared done)

section Scan

variable {env : Env} {m : Module} {snapshotRoot : Bytes32} {batchSize : Int}
  {scan scan' : BatchScan} {done batches : List PlanBatch} {batch : PlanBatch}

/-- One round of the loop checks the batch and accounts for it. -/
theorem BatchScan.After.next (h : scan.After env m snapshotRoot done)
    (hfits : done.length < 2 ^ 57) (hround : validateBatch env batchSize m scan batch = .ok scan') :
    batch.Checked env m done.length ∧ scan'.After env m snapshotRoot (done ++ [batch]) := by
  simp only [validateBatch, bind_eq_ok, revertIf_eq_ok, exists_unit, not_or, not_not] at hround
  obtain ⟨⟨hsequence, hzero, hmax, -, -⟩, -, hround⟩ := hround
  cases hpayload : batch.payload with
  | other text => simp [hpayload] at hround
  | canonical payload =>
      simp only [hpayload, bind_eq_ok, revertIf_eq_ok, exists_unit, not_or] at hround
      obtain ⟨⟨hempty, hlarge⟩, hround⟩ := hround
      cases hdecode : env.decodePayloadCount m batch.kindCode payload with
      | none => simp [hdecode] at hround
      | some actualCount =>
          simp only [hdecode, bind_eq_ok, revertIf_eq_ok, exists_unit, not_not, ne_eq,
            pure_eq_ok] at hround
          obtain ⟨hcount, -, -, -, hhash, -, rfl⟩ := hround
          have hposition : batch.sequence.toNat = done.length := by
            rw [hsequence, h.index, UInt64.toNat_ofNat']
            exact Nat.mod_eq_of_lt (by omega)
          have hvalue : batch.payload.valueD [] = payload := by
            rw [hpayload]
            rfl
          obtain ⟨k, records, hk, hencode, hback, hlength⟩ := encode_of_decodePayloadCount hdecode
          refine ⟨⟨hposition, ?_, Nat.le_of_not_lt hmax, ?_, ?_, ?_⟩, ?_, ?_, ?_⟩
          · intro hcountZero
            exact hzero (UInt64.toNat_inj.mp hcountZero)
          · exact ⟨k, records, hk, hvalue.trans hencode, hback, hlength.trans hcount⟩
          · rw [hvalue]
            exact ⟨hempty, Nat.le_of_not_lt hlarge⟩
          · rw [hvalue, hhash]
            rfl
          · rw [List.length_append, h.index]
            rfl
          · rw [rolled_concat, ← h.root, rollingStep, PlanBatch.toBatch, hvalue, ← hposition]
            rfl
          · rw [declared_concat, UInt64.ofNat_add, ← h.count, UInt64.ofNat_toNat]

/-- The loop checks every batch at its position. The induction is on the batches that are left. -/
theorem BatchScan.After.loop (h : scan.After env m snapshotRoot done)
    (hfits : (done ++ batches).length < 2 ^ 57)
    (hloop : batches.foldlM (validateBatch env batchSize m) scan = .ok scan') :
    (∀ before batch after, batches = before ++ batch :: after →
      batch.Checked env m (done.length + before.length)) ∧
      scan'.After env m snapshotRoot (done ++ batches) := by
  induction batches generalizing done scan with
  | nil =>
      rw [List.foldlM_nil, pure_eq_ok] at hloop
      subst hloop
      rw [List.append_nil]
      exact ⟨fun before batch after hsplit => absurd hsplit (by simp), h⟩
  | cons first rest ih =>
      rw [List.foldlM_cons, bind_eq_ok] at hloop
      obtain ⟨middle, hround, hrest⟩ := hloop
      rw [List.append_cons] at hfits ⊢
      have hlength : done.length < 2 ^ 57 := by
        simp only [List.length_append] at hfits
        omega
      obtain ⟨hfirst, hmiddle⟩ := h.next hlength hround
      obtain ⟨hbatches, hlast⟩ := ih hmiddle hfits hrest
      refine ⟨fun before batch after hsplit => ?_, hlast⟩
      cases before with
      | nil =>
          obtain ⟨rfl, -⟩ := List.cons.inj hsplit
          exact hfirst
      | cons head earlier =>
          obtain ⟨rfl, hrest⟩ := List.cons.inj hsplit
          have hbatch := hbatches earlier batch after hrest
          rw [List.length_append, List.length_singleton] at hbatch
          rw [List.length_cons, Nat.add_comm earlier.length, ← Nat.add_assoc]
          exact hbatch

end Scan

/-! ## Modules -/

/-- What is checked about the plan of a module. -/
structure ModulePlan.Checked (env : Env) (snapshotRoot : Bytes32) (m : Module)
    (module : ModulePlan) : Prop where
  name : module.name = moduleName m
  id : module.id = .canonical (.suite m)
  batches : ∀ before batch after, module.batches = before ++ batch :: after →
    batch.Checked env m before.length
  expectedCount : module.expectedCount.toNat = declared module.batches
  expectedBatches : module.expectedBatches.toNat = module.batches.length
  expectedRoot : module.expectedRoot = .canonical (rolled env m snapshotRoot module.batches)

/-- Batches within the limit declare at most so many records. -/
theorem declared_le {env : Env} {m : Module} {batches : List PlanBatch}
    (h : ∀ before batch after, batches = before ++ batch :: after →
      batch.Checked env m before.length) : declared batches ≤ maximumBatchItems * batches.length := by
  have hcounts : ∀ n ∈ batches.map fun batch => batch.count.toNat, n ≤ maximumBatchItems := by
    intro n hn
    obtain ⟨batch, hbatch, rfl⟩ := List.mem_map.mp hn
    obtain ⟨before, after, hsplit⟩ := List.append_of_mem hbatch
    exact (h before batch after hsplit).count_le
  have hsum := List.sum_le_card_nsmul _ _ hcounts
  rw [List.length_map, smul_eq_mul, Nat.mul_comm] at hsum
  exact hsum

theorem checked_of_validateModule {env : Env} {snapshotRoot : Bytes32} {batchSize : Int}
    {m : Module} {module : ModulePlan}
    (h : validateModule env snapshotRoot batchSize m module = .ok ()) :
    module.Checked env snapshotRoot m := by
  simp only [validateModule, bind_eq_ok, revertIf_eq_ok, exists_unit, not_or, not_not] at h
  obtain ⟨⟨-, hname, hid⟩, scan, hloop, hcount, hlength, hroot⟩ := h
  have hstart : BatchScan.After env m snapshotRoot []
      ⟨0, env.rollingSeed (.suite m) snapshotRoot, 0, 0, []⟩ := ⟨rfl, rfl, rfl⟩
  obtain ⟨hbatches, hscan⟩ := hstart.loop module.batches_fit hloop
  rw [List.nil_append] at hscan
  have hchecked : ∀ before batch after, module.batches = before ++ batch :: after →
      batch.Checked env m before.length := by
    intro before batch after hsplit
    have hbatch := hbatches before batch after hsplit
    rw [List.length_nil, Nat.zero_add] at hbatch
    exact hbatch
  have hfits := module.batches_fit
  have hlt : declared module.batches < 2 ^ 64 := by
    have hle := declared_le hchecked
    unfold maximumBatchItems at hle
    omega
  refine ⟨hname, hid, hchecked, ?_, ?_, ?_⟩
  · -- at most 128 records in each of fewer than 2 ^ 57 batches: the sum does not wrap
    rw [hcount, hscan.count, UInt64.toNat_ofNat']
    exact Nat.mod_eq_of_lt hlt
  · rw [hlength, UInt64.toNat_ofNat']
    exact Nat.mod_eq_of_lt (by omega)
  · rw [hroot, hscan.root]

/-! ## Plans -/

/-- What is checked about a plan, as far as its calls go. -/
structure Plan.Checked (env : Env) (snapshotRoot : Bytes32) (plan : Plan) : Prop where
  evidence : plan.usernameEscrowEvidenceHash.valueD 0 ≠ 0
  modules : List.Forall₂ (ModulePlan.Checked env snapshotRoot) requiredModules plan.modules
  transactionCount : plan.summary.transactionCount =
    2 * requiredModuleCount + totalBatches plan.modules + 2

theorem checked_of_validateModules {env : Env} {snapshotRoot : Bytes32} {batchSize : Int}
    {required : List Module} {modules : List ModulePlan} (hlength : required.length = modules.length)
    (h : validateModules env snapshotRoot batchSize required modules = .ok ()) :
    List.Forall₂ (ModulePlan.Checked env snapshotRoot) required modules := by
  induction required generalizing modules with
  | nil =>
      rw [List.length_eq_zero_iff.mp hlength.symm]
      exact .nil
  | cons m rest ih =>
      cases modules with
      | nil => cases hlength
      | cons module others =>
          simp only [validateModules, bind_eq_ok, exists_unit] at h
          exact .cons (checked_of_validateModule h.1) (ih (Nat.succ.inj hlength) h.2)

/-- The evidence of an accepted release is not the zero word. -/
theorem evidence_of_validateEscrowRelease {blank : Bytes → Bool} {escrow : UsernameEscrowRelease}
    {contract : Bytes} {height : UInt64}
    (h : validateEscrowRelease blank escrow contract height = .ok ()) :
    escrow.evidenceSha256.valueD 0 ≠ 0 := by
  simp only [validateEscrowRelease, bind_eq_ok] at h
  obtain ⟨-, -, -, -, -, -, -, -, -, -, -, -, digest, hdigest, -⟩ := h
  cases hvalue : escrow.evidenceSha256 with
  | other text => simp [hvalue, rawSHA256] at hdigest
  | canonical value =>
      simp only [hvalue, rawSHA256, bind_eq_ok, revertIf_eq_ok, exists_unit] at hdigest
      exact hdigest.1

/-- An accepted plan is checked. -/
theorem checked_of_validatePlan {env : Env} {plan : Plan} {snapshotRoot : Bytes32}
    (hroot : plan.snapshot.root = .canonical snapshotRoot) (h : validatePlan env plan = .ok ()) :
    plan.Checked env snapshotRoot := by
  simp only [validatePlan, bind_eq_ok, mapError_eq_ok, revertIf_eq_ok, exists_unit, not_not, hroot,
    parseHash, pure_eq_ok] at h
  obtain ⟨-, -, _, -, _, rfl, -, -, -, -, -, _, -, _, -, -, -, hescrow, -, _, -, hevidence, hlength,
    hmodules, hsummary⟩ := h
  refine ⟨?_, checked_of_validateModules ?_ hmodules, ?_⟩
  · rw [show plan.usernameEscrowEvidenceHash = _ from hevidence]
    exact evidence_of_validateEscrowRelease hescrow
  · exact (show plan.modules.length = 7 from hlength).symm
  · simp only [validateSummary, bind_eq_ok, revertIf_eq_ok, exists_unit, not_or, not_not] at hsummary
    exact hsummary.1.2

end Igit.Migration
