import Igit.Migration.Accepted

/-!
# Executing a manifest

The operator sends the calls of a manifest one after the other to the coordinator of a suite whose
modules are registered. The planner computed all counters, hashes and roots beforehand; the
coordinator and the modules compute them again, batch by batch. `Setup.Importing` says how far the
contracts are in the plan of a module, each call moves them one step along it, and so the books
never refuse a call: what can be refused is a record inside a batch (`calls_blame_records`).

The calls are sent at any times, with one restriction: the finalization of the username module opens
a claim window, whose end has to be a `uint64`.
-/

namespace Igit

open Fallible Migration

/-- Send one call as the operator. -/
def Suite.operate (d : Deployment) (s : Suite) (timed : Nat × BootstrapOp) : Except Revert Suite :=
  s.callBootstrap d ⟨d.operator, timed.1⟩ timed.2

/-- The call imports a batch, and a record of the batch is refused. -/
def Suite.RecordsRefused (d : Deployment) (s : Suite) (timed : Nat × BootstrapOp) (reason : Revert) :
    Prop :=
  ∃ m sequence count payloadHash payload,
    timed.2 = .importBatch (.suite m) sequence count payloadHash payload ∧
      s.importPayload d m payload = .error reason

/-- The end of the claim window is a `uint64` whenever the username module is finalized. -/
def ClockFits (calls : List (Nat × BootstrapOp)) : Prop :=
  ∀ now, (now, .finalizeCurrentModule (.suite .username)) ∈ calls →
    now + originalOwnerClaimWindow ≤ uint64Max

/-! ## Where the contracts are -/

namespace Setup

/-- The suite has its coordinator and its modules, and is not active. -/
structure Ready (d : Deployment) (u : Setup) : Prop where
  bootstrapping : u.directory.state = .bootstrapping
  coordinator : u.directory.bootstrapCoordinator = d.bootstrapCoordinator
  registered : ∀ m, u.directory.moduleAddress m = d.moduleAt m
  codeHash : ∀ m, u.directory.moduleCodeHash m = d.codeHash (d.moduleAt m)
  unactivated : u.coordinator.activated = false

/-- The modules are registered, and no bootstrap has begun. -/
structure Prepared (d : Deployment) (u : Setup) : Prop where
  ready : u.Ready d
  coordinator : u.coordinator = default
  bootstrap : ∀ m, u.bootstrap m = default

/-- It is the turn of a position, with some evidence about the escrow. -/
structure Turn (d : Deployment) (u : Setup) (position : Nat) (evidence : Bytes32) : Prop where
  consistent : u.Consistent d
  ready : u.Ready d
  turn : u.coordinator.nextModuleIndex = position
  evidence_eq : u.coordinator.usernameEscrowEvidenceHash = evidence

/-- The module at the position has not begun. -/
structure Waiting (d : Deployment) (u : Setup) (position : Nat) (evidence : Bytes32) : Prop
    extends u.Turn d position evidence where
  fresh : ∀ m : Module, m.index = position → u.bootstrap m = default

/-- The module has begun as its plan says, and has imported some of the batches. -/
structure Importing (d : Deployment) (u : Setup) (m : Module) (module : ModulePlan)
    (done : List PlanBatch) (evidence : Bytes32) : Prop extends u.Turn d m.index evidence where
  own : u.bootstrap m =
    { bootstrapStarted := true
      bootstrapFinalized := false
      expectedImportCount := module.expectedCount.toNat
      expectedImportBatches := module.expectedBatches.toNat
      importedCount := declared done
      nextImportSequence := done.length
      expectedImportRoot := module.expectedRoot.valueD 0
      rollingImportRoot := rollingRoot d.keccak m d.snapshotRoot (done.map PlanBatch.toBatch) }

variable {d : Deployment} {u : Setup} {m : Module} {module : ModulePlan} {done : List PlanBatch}
  {evidence : Bytes32} {position : Nat}

/-- A prepared suite waits for its first module. -/
theorem Prepared.waiting (h : u.Prepared d) : u.Waiting d 0 0 where
  consistent :=
    { bound := .inr h.ready.coordinator
      enrolled := fun m _ => ⟨h.ready.registered m, h.ready.codeHash m⟩
      agrees := by
        intro m
        rw [h.coordinator, h.bootstrap m]
        rfl
      turn_le := by
        rw [h.coordinator]
        exact Nat.zero_le _
      done := by
        intro m hm
        rw [h.coordinator] at hm
        exact absurd hm (Nat.not_lt_zero _)
      current := by
        intro m _
        rw [h.bootstrap m]
        rfl
      ahead := fun m _ => h.bootstrap m
      active_iff := by
        rw [h.ready.bootstrapping, h.ready.unactivated]
        decide
      complete := by
        intro hactive
        rw [h.ready.bootstrapping] at hactive
        cases hactive }
  ready := h.ready
  turn := by
    rw [h.coordinator]
    rfl
  evidence_eq := by
    rw [h.coordinator]
    rfl
  fresh := fun m _ => h.bootstrap m

/-- The books of the coordinator on a module that is importing. -/
theorem Importing.progress (h : u.Importing d m module done evidence) :
    u.coordinator.moduleProgress m =
      { started := true
        finalized := false
        expectedCount := module.expectedCount.toNat
        expectedBatches := module.expectedBatches.toNat
        importedCount := declared done
        nextSequence := done.length
        expectedRoot := module.expectedRoot.valueD 0
        rollingRoot := rollingRoot d.keccak m d.snapshotRoot (done.map PlanBatch.toBatch) } := by
  rw [h.consistent.agrees m, h.own]
  rfl

/-- A module that waits can begin. -/
theorem Waiting.canBegin (h : u.Waiting d m.index evidence) {root : Bytes32} (hroot : root ≠ 0) :
    u.CanBegin m root where
  turn := h.turn
  registered := by
    rw [h.ready.registered m]
    exact d.moduleAt_ne_zero m
  unannounced := by
    rw [h.consistent.agrees m, h.fresh m rfl]
    rfl
  unstarted := by
    rw [h.fresh m rfl]
    rfl
  root_ne_zero := hroot

/-- Then it is importing, with nothing imported yet. -/
theorem Waiting.begun (h : u.Waiting d m.index evidence) (hroot : module.expectedRoot.valueD 0 ≠ 0) :
    (u.begun d m module.expectedCount.toNat module.expectedBatches.toNat
      (module.expectedRoot.valueD 0)).Importing d m module [] evidence where
  consistent := h.consistent.step (.start m _ _ _ h.ready.unactivated (h.canBegin hroot))
  ready := ⟨h.ready.bootstrapping, h.ready.coordinator, h.ready.registered, h.ready.codeHash,
    h.ready.unactivated⟩
  turn := h.turn
  evidence_eq := h.evidence_eq
  own := by
    show Function.update u.bootstrap m _ m = _
    rw [Function.update_self, h.fresh m rfl]
    rfl

variable {env : Env} {before after : List PlanBatch} {batch : PlanBatch}

/-- The next batch of a checked module can be imported. -/
theorem Importing.canImport (h : u.Importing d m module before evidence)
    (hmodule : module.Checked env d.snapshotRoot m)
    (hsplit : module.batches = before ++ batch :: after) :
    u.CanImport m batch.sequence.toNat batch.count.toNat := by
  have hbatch := hmodule.batches before batch after hsplit
  have hdeclared : declared module.batches =
      declared before + batch.count.toNat + declared after := by
    rw [hsplit]
    simp [declared, Nat.add_assoc]
  have hlength : module.batches.length = before.length + 1 + after.length := by
    rw [hsplit, List.length_append, List.length_cons]
    omega
  have hcount : declared before + batch.count.toNat ≤ module.expectedCount.toNat := by
    rw [hmodule.expectedCount]
    omega
  have hposition : batch.sequence.toNat + 1 ≤ module.expectedBatches.toNat := by
    rw [hmodule.expectedBatches, hbatch.sequence]
    omega
  have hcountFits : declared before + batch.count.toNat ≤ uint256Max := by
    have hlt := module.expectedCount.toNat_lt
    unfold uint256Max
    omega
  have hpositionFits : batch.sequence.toNat + 1 ≤ uint256Max := by
    have hlt := module.expectedBatches.toNat_lt
    unfold uint256Max
    omega
  refine
    { turn := h.turn
      announced := ?_
      open_ := ?_
      sequence_eq := ?_
      count_fits := ?_
      count_le := ?_
      sequence_fits := hpositionFits
      sequence_le := ?_
      started := ?_
      unfinalized := ?_
      own_sequence_eq := ?_
      count_ne_zero := hbatch.count_ne_zero
      count_le_max := hbatch.count_le
      own_count_le := ?_
      own_sequence_le := ?_ }
  all_goals first | rw [h.progress] | rw [h.own]
  · exact hbatch.sequence
  · exact hcountFits
  · exact hcount
  · exact hposition
  · exact hbatch.sequence
  · rw [wrap256_eq hcountFits]
    exact hcount
  · rw [wrap256_eq hpositionFits]
    exact hposition

/-- Then the batch is among the imported ones. -/
theorem Importing.batched (h : u.Importing d m module before evidence)
    (hkeccak : env.keccak = d.keccak) (hmodule : module.Checked env d.snapshotRoot m)
    (hsplit : module.batches = before ++ batch :: after) :
    (u.batched d m batch.sequence.toNat batch.count.toNat (batch.payloadHash.valueD 0)).Importing d m
      module (before ++ [batch]) evidence := by
  have hbatch := hmodule.batches before batch after hsplit
  have hcan := h.canImport hmodule hsplit
  have hhash : batch.payloadHash.valueD 0 = d.keccak.ofBytes batch.toBatch.payload := by
    rw [← hkeccak]
    exact hbatch.payloadHash
  have hcountFits := hcan.count_fits
  rw [h.progress] at hcountFits
  have hcount : wrap256 (declared before + batch.count.toNat) = declared (before ++ [batch]) :=
    (wrap256_eq hcountFits).trans declared_concat.symm
  have hsequence : wrap256 (batch.sequence.toNat + 1) = (before ++ [batch]).length := by
    rw [wrap256_eq hcan.sequence_fits, hbatch.sequence, List.length_append]
    rfl
  have hroot : rollingRoot d.keccak m d.snapshotRoot ((before ++ [batch]).map PlanBatch.toBatch) =
      rollingStep d.keccak m (rollingRoot d.keccak m d.snapshotRoot (before.map PlanBatch.toBatch))
        batch.sequence.toNat batch.toBatch := by
    rw [List.map_append, List.map_singleton, rollingRoot, chain_concat, List.length_map,
      hbatch.sequence]
    rfl
  rw [hhash]
  exact
    { consistent := h.consistent.step
        (.batch m batch.sequence.toNat batch.toBatch h.ready.unactivated hcan)
      ready := ⟨h.ready.bootstrapping, h.ready.coordinator, h.ready.registered, h.ready.codeHash,
        h.ready.unactivated⟩
      turn := h.turn
      evidence_eq := h.evidence_eq
      own := by
        show Function.update u.bootstrap m _ m = _
        rw [Function.update_self, h.own, hroot, ← hcount, ← hsequence]
        rfl }

/-- The escrow is attested while a module is importing. -/
theorem Importing.attested (h : u.Importing d m module done 0) (hevidence : evidence ≠ 0) :
    (u.attested evidence).Importing d m module done evidence where
  consistent := h.consistent.step (.attest evidence h.ready.unactivated hevidence)
  ready := ⟨h.ready.bootstrapping, h.ready.coordinator, h.ready.registered, h.ready.codeHash,
    h.ready.unactivated⟩
  turn := h.turn
  evidence_eq := rfl
  own := h.own

/-- A checked module with all its batches can be finalized, the username module after the escrow was
attested. -/
theorem Importing.canFinalize (h : u.Importing d m module module.batches evidence)
    (hkeccak : env.keccak = d.keccak) (hmodule : module.Checked env d.snapshotRoot m)
    (hevidence : m = .username → evidence ≠ 0) : u.CanFinalize m := by
  have hroot : rollingRoot d.keccak m d.snapshotRoot (module.batches.map PlanBatch.toBatch) =
      module.expectedRoot.valueD 0 := by
    rw [hmodule.expectedRoot, ← hkeccak]
    rfl
  refine
    { turn := h.turn
      announced := ?_
      open_ := ?_
      count_eq := ?_
      sequence_eq := ?_
      root_eq := ?_
      evidence := fun hm => h.evidence_eq ▸ hevidence hm
      started := ?_
      unfinalized := ?_
      own_count_eq := ?_
      own_sequence_eq := ?_
      own_root_eq := ?_ }
  all_goals first | rw [h.progress] | rw [h.own]
  · exact hmodule.expectedCount.symm
  · exact hmodule.expectedBatches.symm
  · exact hroot
  · exact hmodule.expectedCount.symm
  · exact hmodule.expectedBatches.symm
  · exact hroot

/-- Then the next module waits. -/
theorem Importing.finalized (h : u.Importing d m module done evidence) (hcan : u.CanFinalize m) :
    (u.finalized m).Waiting d (m.index + 1) evidence where
  consistent := h.consistent.step (.finish m h.ready.unactivated hcan)
  ready := ⟨h.ready.bootstrapping, h.ready.coordinator, h.ready.registered, h.ready.codeHash,
    h.ready.unactivated⟩
  turn := finalized_turn h.turn
  evidence_eq := h.evidence_eq
  fresh := by
    intro n hn
    have hne : n ≠ m := by
      intro heq
      rw [heq] at hn
      omega
    show Function.update u.bootstrap m _ n = default
    rw [Function.update_of_ne hne]
    refine h.consistent.ahead n ?_
    rw [h.turn]
    omega

/-- After the last module the suite can be activated. -/
theorem Waiting.canActivate (h : u.Waiting d requiredModules.length evidence)
    (hevidence : evidence ≠ 0) : u.CanActivate d where
  ready := h.turn
  evidence := by
    rw [h.evidence_eq]
    exact hevidence
  bootstrapping := h.ready.bootstrapping
  coordinator := h.ready.coordinator
  registered := by
    intro m
    rw [h.ready.registered m]
    exact d.moduleAt_ne_zero m
  codeHash := by
    intro m
    rw [h.ready.registered m, h.ready.codeHash m]
  finalized := by
    intro m
    refine h.consistent.done m ?_
    rw [h.turn]
    exact m.index_lt

end Setup

/-! ## The calls -/

namespace Suite

variable {d : Deployment} {s : Suite} {now : Nat}

/-- When the books let a batch pass, importing it is importing its records. -/
theorem importBatch_eq {m : Module} {sequence count : Nat} {payload : Bytes}
    (hoperated : s.Operated d ⟨d.operator, now⟩) (hcan : s.setup.CanImport m sequence count)
    (hfits : PayloadFits payload)
    (hcount : Returns (s.importPayload d m payload) fun stored => stored.2 = count) :
    s.importBatch d ⟨d.operator, now⟩ (.suite m) sequence count (d.keccak.ofBytes payload) payload =
      s.importPayload d m payload >>= fun stored =>
        pure (stored.1.withSetup
          (s.setup.batched d m sequence count (d.keccak.ofBytes payload))) := by
  cases himport : s.importPayload d m payload with
  | ok stored =>
      obtain ⟨stored, actual⟩ := stored
      have hactual : actual = count := hcount (stored, actual) himport
      subst hactual
      exact importBatch_eq_ok.mpr ⟨hoperated, m, rfl, hcan, hfits, rfl, stored, himport, rfl⟩
  | error reason =>
      have hturn : s.currentModule (.suite m) = .ok m := currentModule_eq_ok.mpr ⟨hcan.turn, rfl⟩
      have hoperator : s.onlyOperator d ⟨d.operator, now⟩ = .ok () := onlyOperator_eq_ok.mpr hoperated
      have hbootstrap : onlyBootstrap d (asCoordinator d ⟨d.operator, now⟩) = .ok () :=
        onlyBootstrap_asCoordinator.mpr trivial
      have hnewCount : checkedAdd (s.coordinator.moduleProgress m).importedCount count =
          .ok ((s.coordinator.moduleProgress m).importedCount + count) :=
        checkedAdd_eq_ok.mpr ⟨hcan.count_fits, rfl⟩
      have hnewSequence : checkedAdd sequence 1 = .ok (sequence + 1) :=
        checkedAdd_eq_ok.mpr ⟨hcan.sequence_fits, rfl⟩
      have hsequence : sequence = (s.coordinator.moduleProgress m).nextSequence := hcan.sequence_eq
      have hownSequence : sequence = (s.bootstrap m).nextImportSequence := hcan.own_sequence_eq
      have hannounced : (s.coordinator.moduleProgress m).started = true := hcan.announced
      have hopen : (s.coordinator.moduleProgress m).finalized = false := hcan.open_
      have hstarted : (s.bootstrap m).bootstrapStarted = true := hcan.started
      have hunfinalized : (s.bootstrap m).bootstrapFinalized = false := hcan.unfinalized
      have hcountLe : ¬ (s.coordinator.moduleProgress m).importedCount + count >
          (s.coordinator.moduleProgress m).expectedCount := Nat.not_lt.mpr hcan.count_le
      have hsequenceLe : ¬ sequence + 1 > (s.coordinator.moduleProgress m).expectedBatches :=
        Nat.not_lt.mpr hcan.sequence_le
      have hitems : ¬ (count = 0 ∨ count > maxImportBatchItems) :=
        not_or.mpr ⟨hcan.count_ne_zero, Nat.not_lt.mpr hcan.count_le_max⟩
      have hbytes : ¬ (payload.length = 0 ∨ payload.length > maxImportPayloadBytes) :=
        not_or.mpr ⟨hfits.1, Nat.not_lt.mpr hfits.2⟩
      -- every guard passes, so that the refusal is that of the records
      simp only [importBatch, bootstrapImport, revertIf, bind, Except.bind, hoperator, hturn,
        hbootstrap, hannounced, hopen, ← hsequence, hnewCount, hcountLe, hnewSequence, hsequenceLe,
        hstarted, hunfinalized, ← hownSequence, hitems, hbytes, himport, ne_eq, not_true_eq_false,
        if_false, Bool.true_eq_false, Bool.false_eq_true]

/-- The modules store as many records of a checked batch as it declares. -/
theorem importPayload_count {env : Env} {m : Module} {position : Nat} {batch : PlanBatch}
    (hfaithful : env.Faithful d.abi) (hbatch : batch.Checked env m position) :
    Returns (s.importPayload d m (batch.payload.valueD [])) fun stored =>
      stored.2 = batch.count.toNat := by
  intro stored himport
  obtain ⟨records, hdecode, -, hlength⟩ := importPayload_eq_ok.mp himport
  obtain ⟨k, packed, rfl, hencode, hback, hpacked⟩ := hbatch.records
  rw [hencode, hfaithful.decodeRecords_encode hback] at hdecode
  cases hmap : packed.mapM k.toImport with
  | none =>
      rw [hmap] at hdecode
      cases hdecode
  | some imported =>
      rw [hmap] at hdecode
      cases hdecode
      rw [hlength, ← hpacked]
      exact length_of_mapM hmap

/-- Who is to blame when the calls of a manifest stop. -/
def Follows (d : Deployment) (Q : Setup → Prop) (s : Suite) (calls : List (Nat × BootstrapOp)) :
    Prop :=
  Blames (operate d) (RecordsRefused d) (fun s => Q s.setup) s calls

variable {env : Env} {m : Module} {module : ModulePlan} {evidence : Bytes32}
  {calls : List (Nat × BootstrapOp)}

/-- The import of the next batch of a checked module. -/
theorem operate_batch {before after : List PlanBatch} {batch : PlanBatch}
    (hfaithful : env.Faithful d.abi) (hkeccak : env.keccak = d.keccak)
    (hmodule : module.Checked env d.snapshotRoot m)
    (hsplit : module.batches = before ++ batch :: after)
    (h : s.setup.Importing d m module before evidence) :
    s.operate d (now, batch.call (.suite m)) =
      s.importPayload d m (batch.payload.valueD []) >>= fun stored =>
        pure (stored.1.withSetup (s.setup.batched d m batch.sequence.toNat batch.count.toNat
          (batch.payloadHash.valueD 0))) := by
  have hbatch := hmodule.batches before batch after hsplit
  have hhash : batch.payloadHash.valueD 0 = d.keccak.ofBytes (batch.payload.valueD []) := by
    rw [← hkeccak]
    exact hbatch.payloadHash
  show s.importBatch d ⟨d.operator, now⟩ (.suite m) _ _ _ _ = _
  rw [hhash]
  exact importBatch_eq ⟨rfl, h.ready.unactivated⟩ (h.canImport hmodule hsplit) hbatch.fits
    (importPayload_count hfaithful hbatch)

/-- The batches of a checked module. The induction is on those that are left. -/
theorem follows_batches {before after : List PlanBatch} (hfaithful : env.Faithful d.abi)
    (hkeccak : env.keccak = d.keccak) (hmodule : module.Checked env d.snapshotRoot m)
    (hsplit : module.batches = before ++ after)
    (hcalls : calls.map Prod.snd = after.map (PlanBatch.call (.suite m)))
    (h : s.setup.Importing d m module before evidence) :
    s.Follows d (fun u => u.Importing d m module module.batches evidence) calls := by
  induction after generalizing before calls s with
  | nil =>
      rw [List.map_nil, List.map_eq_nil_iff] at hcalls
      rw [List.append_nil] at hsplit
      subst hcalls
      rw [← hsplit] at h
      exact h
  | cons batch after ih =>
      rw [List.map_cons, List.map_eq_cons_iff] at hcalls
      obtain ⟨⟨now, op⟩, rest, rfl, hop, hrest⟩ := hcalls
      have hrun := @operate_batch d s now env m module evidence before after batch hfaithful hkeccak
        hmodule hsplit h
      rw [← show op = batch.call (.suite m) from hop] at hrun
      refine ⟨fun reason hrefused => ?_, fun next hnext => ?_⟩
      · rw [hrun, bind_eq_error] at hrefused
        rcases hrefused with hrecords | ⟨stored, -, hpure⟩
        · exact ⟨m, _, _, _, _, hop, hrecords⟩
        · cases hpure
      · rw [hrun, bind_eq_ok] at hnext
        obtain ⟨stored, -, hstored⟩ := hnext
        rw [pure_eq_ok] at hstored
        subst hstored
        refine ih ?_ hrest (h.batched hkeccak hmodule hsplit)
        rw [hsplit, List.append_assoc]
        rfl

/-- A module begins. -/
theorem operate_begin (h : s.setup.Waiting d m.index evidence)
    (hroot : module.expectedRoot.valueD 0 ≠ 0) :
    s.operate d (now, .beginNextModule (.suite m) module.expectedCount.toNat
      module.expectedBatches.toNat (module.expectedRoot.valueD 0)) =
      .ok (s.withSetup (s.setup.begun d m module.expectedCount.toNat module.expectedBatches.toNat
        (module.expectedRoot.valueD 0))) :=
  beginNextModule_eq_ok.mpr ⟨⟨rfl, h.ready.unactivated⟩, m, rfl, h.canBegin hroot, rfl⟩

/-- The escrow is attested. -/
theorem operate_attest (h : s.setup.Importing d m module module.batches 0) (hevidence : evidence ≠ 0) :
    s.operate d (now, .attestUsernameEscrowReleased evidence) =
      .ok (s.withSetup (s.setup.attested evidence)) :=
  attestUsernameEscrowReleased_eq_ok.mpr ⟨⟨rfl, h.ready.unactivated⟩, hevidence, h.evidence_eq, rfl⟩

/-- A module is finalized. Only the username module looks at the clock. -/
theorem operate_finalize (hkeccak : env.keccak = d.keccak)
    (hmodule : module.Checked env d.snapshotRoot m)
    (h : s.setup.Importing d m module module.batches evidence)
    (hevidence : m = .username → evidence ≠ 0)
    (hclock : m = .username → now + originalOwnerClaimWindow ≤ uint64Max) :
    ∃ opened : Suite, s.operate d (now, .finalizeCurrentModule (.suite m)) =
      .ok (opened.withSetup (s.setup.finalized m)) := by
  have hopened : ∃ opened, s.beforeBootstrapFinalized (asCoordinator d ⟨d.operator, now⟩) m =
      .ok opened := by
    cases m with
    | username =>
        have hfits := hclock rfl
        have hsum : now + originalOwnerClaimWindow ≤ uint256Max :=
          hfits.trans (by unfold uint64Max uint256Max; omega)
        refine ⟨s.setUsername { s.username with
          originalOwnerClaimDeadline := now + originalOwnerClaimWindow }, ?_⟩
        show s.openClaimWindow (asCoordinator d ⟨d.operator, now⟩) = _
        simp only [openClaimWindow, bind_eq_ok, checkedAdd_eq_ok, revertIf_eq_ok, exists_unit,
          pure_eq_ok]
        exact ⟨_, ⟨hsum, rfl⟩, Nat.not_lt.mpr hfits, rfl⟩
    | _ => exact ⟨s, rfl⟩
  obtain ⟨opened, hopened⟩ := hopened
  refine ⟨opened, finalizeCurrentModule_eq_ok.mpr ⟨⟨rfl, h.ready.unactivated⟩, m, rfl, ?_, opened,
    hopened, rfl⟩⟩
  exact h.canFinalize hkeccak hmodule hevidence

/-- The evidence the coordinator holds at a turn: that of the plan once the username module is
finalized. -/
def evidenceAt (plan : Plan) (position : Nat) : Bytes32 :=
  if position ≤ Module.username.index then 0 else plan.usernameEscrowEvidenceHash.valueD 0

theorem evidenceAt_succ {plan : Plan} (hm : m ≠ .username) :
    evidenceAt plan (m.index + 1) = evidenceAt plan m.index := by
  have hne : m.index ≠ Module.username.index := fun heq => hm (Module.index_injective heq)
  unfold evidenceAt
  by_cases hle : m.index ≤ Module.username.index
  · rw [if_pos hle, if_pos (by omega)]
  · rw [if_neg hle, if_neg (by omega)]

/-- The end of the calls of a module, after its batches. -/
theorem follows_finalize {plan : Plan} (hkeccak : env.keccak = d.keccak)
    (hmodule : module.Checked env d.snapshotRoot m)
    (hevidence : plan.usernameEscrowEvidenceHash.valueD 0 ≠ 0)
    (hcalls : calls.map Prod.snd = (if module.name = moduleName .username then
      [.attestUsernameEscrowReleased (plan.usernameEscrowEvidenceHash.valueD 0)] else []) ++
        [.finalizeCurrentModule (.suite m)])
    (hclock : ClockFits calls)
    (h : s.setup.Importing d m module module.batches (evidenceAt plan m.index)) :
    s.Follows d (fun u => u.Waiting d (m.index + 1) (evidenceAt plan (m.index + 1))) calls := by
  rw [hmodule.name] at hcalls
  by_cases hm : m = .username
  · subst hm
    rw [if_pos rfl, List.singleton_append, List.map_eq_cons_iff] at hcalls
    obtain ⟨⟨now, op⟩, rest, rfl, hop, hrest⟩ := hcalls
    obtain ⟨⟨now', op'⟩, rest', rfl, hop', hrest'⟩ := List.map_eq_cons_iff.mp hrest
    cases hop
    cases hop'
    rw [List.map_eq_nil_iff.mp hrest']
    have hattested : (s.withSetup (s.setup.attested _)).setup.Importing d .username module
        module.batches _ := h.attested hevidence
    have hlast : now' + originalOwnerClaimWindow ≤ uint64Max := hclock now' (by simp)
    obtain ⟨opened, hfinalize⟩ := operate_finalize hkeccak hmodule hattested (fun _ => hevidence)
      fun _ => hlast
    refine .cons (operate_attest h hevidence) (.cons hfinalize ?_)
    exact hattested.finalized (hattested.canFinalize hkeccak hmodule fun _ => hevidence)
  · have hname : moduleName m ≠ moduleName .username := by
      intro heq
      cases m <;> first | exact hm rfl | revert heq; decide
    rw [if_neg hname, List.nil_append, List.map_eq_cons_iff] at hcalls
    obtain ⟨⟨now, op⟩, rest, rfl, hop, hrest⟩ := hcalls
    cases hop
    rw [List.map_eq_nil_iff.mp hrest]
    obtain ⟨opened, hfinalize⟩ := @operate_finalize d s now env m module _ hkeccak hmodule h
      (fun heq => absurd heq hm) fun heq => absurd heq hm
    refine .cons hfinalize ?_
    show (s.setup.finalized m).Waiting d (m.index + 1) _
    rw [evidenceAt_succ hm]
    exact h.finalized (h.canFinalize hkeccak hmodule fun heq => absurd heq hm)

/-- The calls of a checked module. -/
theorem follows_module {plan : Plan} (hfaithful : env.Faithful d.abi)
    (hkeccak : env.keccak = d.keccak) (hmodule : module.Checked env d.snapshotRoot m)
    (hroot : module.expectedRoot ≠ .canonical 0)
    (hevidence : plan.usernameEscrowEvidenceHash.valueD 0 ≠ 0)
    (hcalls : calls.map Prod.snd = module.calls plan) (hclock : ClockFits calls)
    (h : s.setup.Waiting d m.index (evidenceAt plan m.index)) :
    s.Follows d (fun u => u.Waiting d (m.index + 1) (evidenceAt plan (m.index + 1))) calls := by
  have hid : module.id.valueD (.other 0) = .suite m := by
    rw [hmodule.id]
    rfl
  have hzero : module.expectedRoot.valueD 0 ≠ 0 := by
    rw [hmodule.expectedRoot] at hroot ⊢
    exact fun heq => hroot (congrArg Text.canonical heq)
  rw [ModulePlan.calls, hid, List.append_assoc, List.cons_append, List.map_eq_cons_iff] at hcalls
  obtain ⟨⟨now, op⟩, rest, rfl, hop, hrest⟩ := hcalls
  obtain ⟨batches, last, rfl, hbatches, hlast⟩ := List.map_eq_append_iff.mp hrest
  cases hop
  have hbegun : (s.withSetup (s.setup.begun d m _ _ _)).setup.Importing d m module [] _ :=
    h.begun hzero
  refine .cons (operate_begin h hzero) ?_
  refine (follows_batches hfaithful hkeccak hmodule (List.nil_append _).symm hbatches
    hbegun).append fun middle hmiddle => ?_
  refine follows_finalize hkeccak hmodule hevidence hlast ?_ hmiddle
  exact fun now hmem => hclock now (by simp [hmem])

/-- The calls of the modules from a position on. The induction is on the modules that are left. -/
theorem follows_modules {plan : Plan} {required : List Module} {modules : List ModulePlan}
    {position : Nat} (hfaithful : env.Faithful d.abi) (hkeccak : env.keccak = d.keccak)
    (hmodules : List.Forall₂ (ModulePlan.Checked env d.snapshotRoot) required modules)
    (hposition : required = requiredModules.drop position)
    (hle : position ≤ requiredModules.length)
    (hroots : ∀ module ∈ modules, module.expectedRoot ≠ .canonical 0)
    (hevidence : plan.usernameEscrowEvidenceHash.valueD 0 ≠ 0)
    (hcalls : calls.map Prod.snd = modules.flatMap (ModulePlan.calls plan))
    (hclock : ClockFits calls) (h : s.setup.Waiting d position (evidenceAt plan position)) :
    s.Follows d (fun u => u.Waiting d requiredModules.length
      (plan.usernameEscrowEvidenceHash.valueD 0)) calls := by
  induction hmodules generalizing position calls s with
  | nil =>
      have hlast : position = requiredModules.length :=
        Nat.le_antisymm hle (List.drop_eq_nil_iff.mp hposition.symm)
      rw [List.flatMap_nil, List.map_eq_nil_iff] at hcalls
      subst hcalls hlast
      exact h
  | @cons m module required modules hmodule hmodules ih =>
      have hm : position = m.index := by
        have hhead : (requiredModules.drop position)[0]? = some m := by
          rw [← hposition]
          rfl
        rw [List.getElem?_drop, Nat.add_zero] at hhead
        exact getElem?_requiredModules.mp hhead
      have hrest : required = requiredModules.drop (position + 1) := by
        rw [← List.tail_drop, ← hposition]
        rfl
      have hlt : position < requiredModules.length := hm ▸ m.index_lt
      subst hm
      rw [List.flatMap_cons, List.map_eq_append_iff] at hcalls
      obtain ⟨first, later, rfl, hfirst, hlater⟩ := hcalls
      obtain ⟨hroot, hroots⟩ := List.forall_mem_cons.mp hroots
      refine (follows_module hfaithful hkeccak hmodule hroot hevidence hfirst ?_ h).append ?_
      · exact fun now hmem => hclock now (by simp [hmem])
      · intro middle hmiddle
        refine ih hrest hlt hroots hlater ?_ hmiddle
        exact fun now hmem => hclock now (by simp [hmem])

/-- The calls of an accepted plan, up to the activation: only records can be refused. -/
theorem follows_calls {plan : Plan} (hfaithful : env.Faithful d.abi) (hkeccak : env.keccak = d.keccak)
    (hplan : plan.Checked env d.snapshotRoot)
    (hroots : ∀ module ∈ plan.modules, module.expectedRoot ≠ .canonical 0)
    (hcalls : calls.map Prod.snd = plan.calls) (hclock : ClockFits calls)
    (h : s.setup.Prepared d) :
    s.Follows d (fun u => u.directory.state = .active) calls := by
  obtain ⟨modules, last, rfl, hmodules, hlast⟩ := List.map_eq_append_iff.mp hcalls
  obtain ⟨⟨now, op⟩, rest, rfl, hop, hrest⟩ := List.map_eq_cons_iff.mp hlast
  cases hop
  rw [List.map_eq_nil_iff.mp hrest]
  refine (follows_modules hfaithful hkeccak hplan.modules rfl (Nat.zero_le _) hroots hplan.evidence
    hmodules ?_ h.waiting).append fun middle hmiddle => ?_
  · exact fun now hmem => hclock now (by simp [hmem])
  · refine .cons (activateSuite_eq_ok.mpr ⟨⟨rfl, hmiddle.ready.unactivated⟩, ?_, rfl⟩) rfl
    exact hmiddle.canActivate hplan.evidence

end Suite

/-! ## Manifests -/

/-- The calls of checked modules: two for each module, its batches, and the attestation. -/
theorem length_calls {env : Env} {snapshotRoot : Bytes32} {plan : Plan} {required : List Module}
    {modules : List ModulePlan}
    (h : List.Forall₂ (ModulePlan.Checked env snapshotRoot) required modules) :
    (modules.flatMap (ModulePlan.calls plan)).length =
      2 * required.length + totalBatches modules + required.count .username := by
  induction h with
  | nil => rfl
  | @cons m module required modules hmodule hmodules ih =>
      have hname : (moduleName m = moduleName .username) ↔ m = .username := by
        cases m <;> decide
      have hbatches : totalBatches (module :: modules) =
          module.batches.length + totalBatches modules := by
        simp [totalBatches]
      rw [List.flatMap_cons, List.length_append, ih, hbatches, List.length_cons, List.count_cons,
        ModulePlan.calls, hmodule.name]
      by_cases hm : m = .username
      · simp [hm]
        omega
      · simp [hm, hname]
        omega

/-- The manifest of an accepted plan is its calls. -/
theorem buildCalldataManifest_eq {env : Env} {plan : Plan} {snapshotRoot : Bytes32}
    (hvalid : validatePlan env plan = .ok ()) (hplan : plan.Checked env snapshotRoot) :
    buildCalldataManifest env plan = .ok plan.calls := by
  have hlength : (plan.calls.length : Int) = plan.summary.transactionCount := by
    rw [hplan.transactionCount, Plan.calls, List.length_append, length_calls hplan.modules]
    have hcount : requiredModules.count .username = 1 := by decide
    have hrequired : requiredModules.length = 7 := rfl
    rw [hcount, hrequired]
    simp only [requiredModuleCount, List.length_singleton]
    omega
  simp only [buildCalldataManifest, bind_eq_ok, revertIf_eq_ok, exists_unit, pure_eq_ok, and_true]
  exact ⟨hvalid, fun hne => hne hlength⟩

/-- Running the manifest of an accepted plan, at any times that leave room for the claim window, the
books refuse no call: a call that is refused is refused for a record of its batch. When all calls
pass, the suite is active. The planner and the contracts roll every sequence of batches to the same
root. -/
theorem manifest_refused_by_records {env : Env} {plan : Plan} {d : Deployment} {s : Suite}
    {calls : List (Nat × BootstrapOp)} (hvalid : validatePlan env plan = .ok ())
    (hfaithful : env.Faithful d.abi) (hkeccak : env.keccak = d.keccak)
    (hsnapshot : plan.snapshot.root = .canonical d.snapshotRoot)
    (hroots : ∀ module ∈ plan.modules, module.expectedRoot ≠ .canonical 0)
    (hprepared : s.setup.Prepared d) (hcalls : calls.map Prod.snd = plan.calls)
    (hclock : ClockFits calls) :
    buildCalldataManifest env plan = .ok plan.calls ∧
      (∀ before timed after reached reason, calls = before ++ timed :: after →
        before.foldlM (Suite.operate d) s = .ok reached → reached.operate d timed = .error reason →
        reached.RecordsRefused d timed reason) ∧
      (∀ reached, calls.foldlM (Suite.operate d) s = .ok reached → reached.IsActive) ∧
      ∀ m snapshotRoot (batches : List (UInt64 × Bytes)), batches.length ≤ 2 ^ 64 →
        env.rollFrom (.suite m) 0 (env.rollingSeed (.suite m) snapshotRoot) batches =
          rollingRoot d.keccak m snapshotRoot
            (batches.map fun batch => ⟨batch.1.toNat, batch.2⟩) := by
  have hplan := checked_of_validatePlan hsnapshot hvalid
  have hfollows := Suite.follows_calls hfaithful hkeccak hplan hroots hcalls hclock hprepared
  refine ⟨buildCalldataManifest_eq hvalid hplan, ?_, hfollows.returns, ?_⟩
  · intro before timed after reached reason hsplit hrun hrefused
    rw [hsplit] at hfollows
    exact Blames.refused hfollows hrun hrefused
  · intro m snapshotRoot batches hlength
    rw [← hkeccak]
    exact rollFrom_eq_rollingRoot hlength

/-! ## A fresh suite -/

/-- A fresh suite with its coordinator set and its modules registered. -/
def Deployment.registeredSuite (d : Deployment) : Suite :=
  requiredModules.foldl (fun s m => s.withSetup (s.setup.enrolled d m))
    (d.initialSuite.withSetup (d.initialSuite.setup.coordinated d))

theorem Deployment.registeredSuite_prepared (d : Deployment) : d.registeredSuite.setup.Prepared d where
  ready := by
    refine ⟨rfl, rfl, fun m => ?_, fun m => ?_, rfl⟩
    · cases m <;> rfl
    · cases m <;> rfl
  coordinator := rfl
  bootstrap := fun m => rfl

namespace Sample

theorem plan_valid : validatePlan codecEnv plan = .ok () := by decide +kernel

/-- The calls of the plan, all sent at one time. -/
def callsAt (now : Nat) : List (Nat × BootstrapOp) := plan.calls.map fun op => (now, op)

theorem callsAt_snd (now : Nat) : (callsAt now).map Prod.snd = plan.calls := by
  rw [callsAt, List.map_map]
  exact List.map_id _

/-- The finalization of the username module at the end of time. -/
def lateFinalization : Nat × BootstrapOp := (uint64Max, .finalizeCurrentModule (.suite .username))

/-- At the end of time the username module cannot be finalized, which is no fault of a record. -/
theorem late_finalization_refused :
    validatePlan codecEnv plan = .ok () ∧ importing.registeredSuite.setup.Prepared importing ∧
      ∃ before timed after reached reason, callsAt uint64Max = before ++ timed :: after ∧
        before.foldlM (Suite.operate importing) importing.registeredSuite = .ok reached ∧
        reached.operate importing timed = .error reason ∧
        ¬ reached.RecordsRefused importing timed reason := by
  have hcalls : callsAt uint64Max = (callsAt uint64Max).take 12 ++ lateFinalization ::
      (callsAt uint64Max).drop 13 := by decide +kernel
  have hbefore : (((callsAt uint64Max).take 12).foldlM (Suite.operate importing)
      importing.registeredSuite).isOk = true := by decide +kernel
  have hrefused : refusal (((callsAt uint64Max).take 12).foldlM (Suite.operate importing)
      importing.registeredSuite >>= fun reached => reached.operate importing lateFinalization) =
        some (.timestampOverflow (uint64Max + originalOwnerClaimWindow)) := by decide +kernel
  obtain ⟨reached, hreached⟩ := exists_of_isOk hbefore
  rw [hreached] at hrefused
  refine ⟨plan_valid, importing.registeredSuite_prepared, _, _, _, reached,
    .timestampOverflow (uint64Max + originalOwnerClaimWindow), hcalls, hreached, ?_, ?_⟩
  · exact refusal_eq_some.mp hrefused
  · intro hrecords
    obtain ⟨m, sequence, count, payloadHash, payload, hop, -⟩ := hrecords
    cases hop

/-- In time the calls of the plan pass, and leave an active suite. -/
theorem plan_calls_pass :
    ClockFits (callsAt 1) ∧
      ∃ reached, (callsAt 1).foldlM (Suite.operate importing) importing.registeredSuite =
        .ok reached ∧ reached.IsActive := by
  have hclock : ClockFits (callsAt 1) := by
    intro now hmem
    obtain ⟨op, -, hop⟩ := List.mem_map.mp hmem
    cases hop
    decide
  have hrun : ((callsAt 1).foldlM (Suite.operate importing) importing.registeredSuite).isOk = true := by
    decide +kernel
  obtain ⟨reached, hreached⟩ := exists_of_isOk hrun
  have hpasses := manifest_refused_by_records plan_valid codecEnv_faithful rfl rfl
    (by decide +kernel) importing.registeredSuite_prepared (callsAt_snd 1) hclock
  exact ⟨hclock, reached, hreached, hpasses.2.2.1 reached hreached⟩

end Sample

end Igit
