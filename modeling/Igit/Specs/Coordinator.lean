import Igit.Specs.Stores

/-!
# The functions of the coordinator

When each function of `BootstrapCoordinator` succeeds and what it leaves behind. The checks and the
writes of the coordinator, of `SuiteModule` and of the directory are all on the books of the
bootstrap, so they are stated on `Setup`. Only `importBatch` and the finalization of the username
module also touch the storage of a module.
-/

namespace Igit

open Fallible

/-- A module is found at its position in the fixed order. -/
theorem getElem?_requiredModules {i : Nat} {m : Module} :
    requiredModules[i]? = some m ↔ i = m.index := by
  constructor
  · intro h
    obtain ⟨hlt, rfl⟩ := List.getElem?_eq_some_iff.mp h
    have hcases : i = 0 ∨ i = 1 ∨ i = 2 ∨ i = 3 ∨ i = 4 ∨ i = 5 ∨ i = 6 := by
      simp only [requiredModules, List.length_cons, List.length_nil] at hlt
      omega
    rcases hcases with rfl | rfl | rfl | rfl | rfl | rfl | rfl <;> rfl
  · intro h
    subst h
    cases m <;> rfl

/-- Every module has a place in the order the coordinator goes through. -/
theorem Module.index_lt (m : Module) : m.index < requiredModules.length := by
  cases m <;> simp [Module.index, requiredModules]

/-- No two modules share a place in that order. -/
theorem Module.index_injective {m n : Module} (h : m.index = n.index) : m = n := by
  have hm := getElem?_requiredModules.mpr (rfl : m.index = m.index)
  have hn := getElem?_requiredModules.mpr h
  rw [hm] at hn
  exact Option.some.inj hn

theorem mem_requiredModules (m : Module) : m ∈ requiredModules :=
  List.mem_of_getElem? (getElem?_requiredModules.mpr rfl)

theorem wrap256_eq {n : Nat} (h : n ≤ uint256Max) : wrap256 n = n := by
  unfold wrap256
  unfold uint256Max at h
  exact Nat.mod_eq_of_lt (by omega)

/-! ## The books -/

/-- The directory, the coordinator and the modules' own bootstrap counters. -/
structure Setup where
  directory : Directory
  coordinator : Coordinator
  bootstrap : Module → Bootstrap

/-- The books of the bootstrap in a suite. -/
def Suite.setup (s : Suite) : Setup := ⟨s.directory, s.coordinator, s.bootstrap⟩

namespace Setup

variable (d : Deployment) (u : Setup)

/-- Replace both records about a module. -/
def withModule (m : Module) (progress : ModuleProgress) (own : Bootstrap) : Setup :=
  { u with
    coordinator := { u.coordinator with
      moduleProgress := Function.update u.coordinator.moduleProgress m progress }
    bootstrap := Function.update u.bootstrap m own }

/-- The books after the coordinator is set. -/
def coordinated : Setup :=
  { u with
    directory := { u.directory with
      bootstrapCoordinator := d.bootstrapCoordinator
      bootstrapCoordinatorCodeHash := d.codeHash d.bootstrapCoordinator
      bootstrapAuthority := 0 } }

/-- The books after a module is registered. -/
def enrolled (m : Module) : Setup :=
  { u with
    directory := { u.directory with
      moduleAddress := Function.update u.directory.moduleAddress m (d.moduleAt m)
      moduleCodeHash := Function.update u.directory.moduleCodeHash m (d.codeHash (d.moduleAt m))
      registeredModuleCount := wrap256 (u.directory.registeredModuleCount + 1) } }

/-- The books after a module is begun. -/
def begun (m : Module) (count batches : Nat) (root : Bytes32) : Setup :=
  u.withModule m
    { u.coordinator.moduleProgress m with
      started := true
      expectedCount := count
      expectedBatches := batches
      expectedRoot := root
      rollingRoot := d.keccak.hash (.rollingSeed (.suite m) d.snapshotRoot) }
    { u.bootstrap m with
      bootstrapStarted := true
      expectedImportCount := count
      expectedImportBatches := batches
      expectedImportRoot := root
      rollingImportRoot := d.keccak.hash (.rollingSeed (.suite m) d.snapshotRoot) }

/-- The books after a batch is imported. -/
def batched (m : Module) (sequence count : Nat) (payloadHash : Bytes32) : Setup :=
  u.withModule m
    { u.coordinator.moduleProgress m with
      importedCount := (u.coordinator.moduleProgress m).importedCount + count
      nextSequence := sequence + 1
      rollingRoot := d.keccak.hash (.rollingStep (u.coordinator.moduleProgress m).rollingRoot
        (.suite m) sequence count payloadHash) }
    { u.bootstrap m with
      importedCount := wrap256 ((u.bootstrap m).importedCount + count)
      nextImportSequence := wrap256 (sequence + 1)
      rollingImportRoot := d.keccak.hash (.rollingStep (u.bootstrap m).rollingImportRoot (.suite m)
        sequence count payloadHash) }

/-- The books with the turn passed on. -/
def passed : Setup :=
  { u with
    coordinator := { u.coordinator with
      nextModuleIndex := wrap256 (u.coordinator.nextModuleIndex + 1) } }

/-- The books after a module is finalized. -/
def finalized (m : Module) : Setup :=
  (u.withModule m { u.coordinator.moduleProgress m with finalized := true }
    { u.bootstrap m with bootstrapFinalized := true }).passed

/-- The books after the escrow is attested. -/
def attested (evidence : Bytes32) : Setup :=
  { u with coordinator := { u.coordinator with usernameEscrowEvidenceHash := evidence } }

/-- The books after the suite is activated. -/
def activated : Setup :=
  { u with
    directory := { u.directory with state := .active }
    coordinator := { u.coordinator with activated := true } }

/-! ## The checks -/

/-- The checks of `beginNextModule` and `beginBootstrap`. -/
structure CanBegin (m : Module) (root : Bytes32) : Prop where
  turn : u.coordinator.nextModuleIndex = m.index
  registered : u.directory.moduleAddress m ≠ 0
  unannounced : (u.coordinator.moduleProgress m).started = false
  unstarted : (u.bootstrap m).bootstrapStarted = false
  root_ne_zero : root ≠ 0

/-- The checks of `importBatch` and `bootstrapImport`, apart from those on the payload. -/
structure CanImport (m : Module) (sequence count : Nat) : Prop where
  turn : u.coordinator.nextModuleIndex = m.index
  announced : (u.coordinator.moduleProgress m).started = true
  open_ : (u.coordinator.moduleProgress m).finalized = false
  sequence_eq : sequence = (u.coordinator.moduleProgress m).nextSequence
  count_fits : (u.coordinator.moduleProgress m).importedCount + count ≤ uint256Max
  count_le : (u.coordinator.moduleProgress m).importedCount + count ≤
    (u.coordinator.moduleProgress m).expectedCount
  sequence_fits : sequence + 1 ≤ uint256Max
  sequence_le : sequence + 1 ≤ (u.coordinator.moduleProgress m).expectedBatches
  started : (u.bootstrap m).bootstrapStarted = true
  unfinalized : (u.bootstrap m).bootstrapFinalized = false
  own_sequence_eq : sequence = (u.bootstrap m).nextImportSequence
  count_ne_zero : count ≠ 0
  count_le_max : count ≤ maxImportBatchItems
  own_count_le : wrap256 ((u.bootstrap m).importedCount + count) ≤
    (u.bootstrap m).expectedImportCount
  own_sequence_le : wrap256 (sequence + 1) ≤ (u.bootstrap m).expectedImportBatches

/-- The checks of `finalizeCurrentModule` and `finalizeBootstrap`. -/
structure CanFinalize (m : Module) : Prop where
  turn : u.coordinator.nextModuleIndex = m.index
  announced : (u.coordinator.moduleProgress m).started = true
  open_ : (u.coordinator.moduleProgress m).finalized = false
  count_eq : (u.coordinator.moduleProgress m).importedCount =
    (u.coordinator.moduleProgress m).expectedCount
  sequence_eq : (u.coordinator.moduleProgress m).nextSequence =
    (u.coordinator.moduleProgress m).expectedBatches
  root_eq : (u.coordinator.moduleProgress m).rollingRoot =
    (u.coordinator.moduleProgress m).expectedRoot
  evidence : m = .username → u.coordinator.usernameEscrowEvidenceHash ≠ 0
  started : (u.bootstrap m).bootstrapStarted = true
  unfinalized : (u.bootstrap m).bootstrapFinalized = false
  own_count_eq : (u.bootstrap m).importedCount = (u.bootstrap m).expectedImportCount
  own_sequence_eq : (u.bootstrap m).nextImportSequence = (u.bootstrap m).expectedImportBatches
  own_root_eq : (u.bootstrap m).rollingImportRoot = (u.bootstrap m).expectedImportRoot

/-- The checks of `activateSuite` and `activate`. -/
structure CanActivate : Prop where
  ready : u.coordinator.nextModuleIndex = requiredModules.length
  evidence : u.coordinator.usernameEscrowEvidenceHash ≠ 0
  bootstrapping : u.directory.state = .bootstrapping
  coordinator : u.directory.bootstrapCoordinator = d.bootstrapCoordinator
  registered : ∀ m, u.directory.moduleAddress m ≠ 0
  codeHash : ∀ m, d.codeHash (u.directory.moduleAddress m) = u.directory.moduleCodeHash m
  finalized : ∀ m, (u.bootstrap m).bootstrapFinalized = true

end Setup

namespace Suite

variable {d : Deployment} {s s' : Suite} {msg : Message} {id : ModuleId}

/-- Replace the books of the bootstrap. -/
def withSetup (s : Suite) (u : Setup) : Suite :=
  { s with directory := u.directory, coordinator := u.coordinator, bootstrap := u.bootstrap }

/-- A record leaves the books of the bootstrap alone. -/
@[simp] theorem setup_stored {keccak : Keccak} {record : ImportRecord} :
    (s.stored keccak record).setup = s.setup := by
  cases record <;> rfl

/-- Storing the records of a batch leaves the books of the bootstrap alone. -/
@[simp] theorem setup_foldl_stored {keccak : Keccak} {records : List ImportRecord} :
    (records.foldl (stored keccak) s).setup = s.setup := by
  induction records generalizing s with
  | nil => rfl
  | cons record rest ih => rw [List.foldl_cons, ih, setup_stored]

/-- The operator calls, and the suite is not active yet. -/
def Operated (d : Deployment) (s : Suite) (msg : Message) : Prop :=
  msg.sender = d.operator ∧ s.coordinator.activated = false

/-- The modifier `onlyOperator` lets through the operator of a coordinator the directory knows. -/
@[simp] theorem onlyOperator_eq_ok {v : Unit} :
    s.onlyOperator d msg = .ok v ↔ s.Operated d msg := by
  simp only [onlyOperator, bind_eq_ok, revertIf_eq_ok, exists_unit, Operated, not_not, ne_eq,
    Bool.not_eq_true]

@[simp] theorem onlyBootstrap_asCoordinator {v : Unit} :
    onlyBootstrap d (asCoordinator d msg) = .ok v ↔ True := by
  simp [onlyBootstrap, asCoordinator]

/-- The module whose turn it is, is the one at the next index. -/
theorem currentModule_eq_ok {m : Module} :
    s.currentModule id = .ok m ↔ s.coordinator.nextModuleIndex = m.index ∧ id = .suite m := by
  have hrequired : ∀ n, requiredModuleAt s.coordinator.nextModuleIndex = .ok n ↔
      s.coordinator.nextModuleIndex = n.index := by
    intro n
    rw [← getElem?_requiredModules]
    unfold requiredModuleAt
    cases requiredModules[s.coordinator.nextModuleIndex]? <;> simp
  simp only [currentModule, bind_eq_ok, hrequired, revertIf_eq_ok, exists_unit, pure_eq_ok, not_not]
  constructor
  · intro h
    obtain ⟨n, hturn, hid, rfl⟩ := h
    exact ⟨hturn, hid⟩
  · intro h
    exact ⟨m, h.1, h.2, rfl⟩

/-- `beginNextModule` succeeds exactly when the module may begin, and announces its totals. -/
theorem beginNextModule_eq_ok {count batches : Nat} {root : Bytes32} :
    s.beginNextModule d msg id count batches root = .ok s' ↔ s.Operated d msg ∧
      ∃ m, id = .suite m ∧ s.setup.CanBegin m root ∧
        s' = s.withSetup (s.setup.begun d m count batches root) := by
  simp only [beginNextModule, beginBootstrap, bind_eq_ok, onlyOperator_eq_ok, currentModule_eq_ok,
    revertIf_eq_ok, exists_unit, pure_eq_ok, onlyBootstrap_asCoordinator, true_and, not_or,
    Bool.not_eq_true]
  constructor
  · intro h
    obtain ⟨hoperated, m, ⟨hturn, rfl⟩, hregistered, hunannounced, hunstarted, ⟨hroot, -⟩, rfl⟩ := h
    exact ⟨hoperated, m, rfl, ⟨hturn, hregistered, hunannounced, hunstarted, hroot⟩, rfl⟩
  · intro h
    obtain ⟨hoperated, m, rfl, ⟨hturn, hregistered, hunannounced, hunstarted, hroot⟩, rfl⟩ := h
    exact ⟨hoperated, m, ⟨hturn, rfl⟩, hregistered, hunannounced, hunstarted,
      ⟨hroot, d.snapshotRoot_ne_zero⟩, rfl⟩

/-- A payload within the limits of `bootstrapImport`. -/
def PayloadFits (payload : Bytes) : Prop :=
  payload.length ≠ 0 ∧ payload.length ≤ maxImportPayloadBytes

/-- `importBatch` succeeds exactly when the batch is the next one of the module whose turn it is,
its payload is the one announced and can be stored; it stores the records and advances the rolling
root. -/
theorem importBatch_eq_ok {sequence count : Nat} {payloadHash : Bytes32} {payload : Bytes} :
    s.importBatch d msg id sequence count payloadHash payload = .ok s' ↔ s.Operated d msg ∧
      ∃ m, id = .suite m ∧ s.setup.CanImport m sequence count ∧ PayloadFits payload ∧
        d.keccak.ofBytes payload = payloadHash ∧
        ∃ stored, s.importPayload d m payload = .ok (stored, count) ∧
          s' = stored.withSetup (s.setup.batched d m sequence count payloadHash) := by
  have hwrite : ∀ {m : Module} {stored : Suite},
      s.importPayload d m payload = .ok (stored, count) →
      ((stored.setBootstrap m { s.bootstrap m with
        importedCount := wrap256 ((s.bootstrap m).importedCount + count)
        nextImportSequence := wrap256 (sequence + 1)
        rollingImportRoot := d.keccak.hash (.rollingStep (s.bootstrap m).rollingImportRoot (.suite m)
          sequence count payloadHash) }).setProgress m
        { s.coordinator.moduleProgress m with
          importedCount := (s.coordinator.moduleProgress m).importedCount + count
          nextSequence := sequence + 1
          rollingRoot := d.keccak.hash (.rollingStep (s.coordinator.moduleProgress m).rollingRoot
            (.suite m) sequence count payloadHash) }) =
        stored.withSetup (s.setup.batched d m sequence count payloadHash) := by
    intro m stored hstored
    obtain ⟨records, -, hfold, -⟩ := importPayload_eq_ok.mp hstored
    obtain ⟨-, hresult⟩ := foldlM_storeRecord_eq_ok.mp hfold
    have hsetup : stored.setup = s.setup := by
      rw [show stored = _ from hresult]
      exact setup_foldl_stored
    obtain ⟨-, hcoordinator, hown⟩ := Setup.mk.inj hsetup
    rw [← hsetup, ← hcoordinator, ← hown]
    rfl
  simp only [importBatch, bootstrapImport, bind_eq_ok, onlyOperator_eq_ok, currentModule_eq_ok,
    revertIf_eq_ok, exists_unit, pure_eq_ok, onlyBootstrap_asCoordinator, checkedAdd_eq_ok, true_and,
    not_or, not_not, Nat.not_lt, gt_iff_lt, Bool.not_eq_true, Bool.not_eq_false]
  constructor
  · intro h
    obtain ⟨hoperated, m, ⟨hturn, rfl⟩, hannounced, hopen, hsequence, hhash, _, ⟨hfits, rfl⟩, hcount, _,
      ⟨hsfits, rfl⟩, hbatches, _, ⟨hstarted, hunfinalized, hown, ⟨hzero, hmax⟩, hpayload, -,
      ⟨stored, actual⟩, hstored, hactual, ⟨hcount', hbatches'⟩, rfl⟩, rfl⟩ := h
    dsimp only at hactual
    subst hactual
    refine ⟨hoperated, m, rfl, ⟨hturn, hannounced, hopen, hsequence, hfits, hcount, hsfits, hbatches,
      hstarted, hunfinalized, hown, hzero, hmax, hcount', hbatches'⟩, hpayload, hhash, stored, hstored,
      ?_⟩
    exact hwrite hstored
  · intro h
    obtain ⟨hoperated, m, rfl, ⟨hturn, hannounced, hopen, hsequence, hfits, hcount, hsfits, hbatches,
      hstarted, hunfinalized, hown, hzero, hmax, hcount', hbatches'⟩, hpayload, hhash, stored, hstored,
      rfl⟩ := h
    refine ⟨hoperated, m, ⟨hturn, rfl⟩, hannounced, hopen, hsequence, hhash, _, ⟨hfits, rfl⟩, hcount, _,
      ⟨hsfits, rfl⟩, hbatches, _, ⟨hstarted, hunfinalized, hown, ⟨hzero, hmax⟩, hpayload, hhash,
      (stored, count), hstored, rfl, ⟨hcount', hbatches'⟩, rfl⟩, ?_⟩
    exact hwrite hstored

/-- Opening the claim window leaves the books alone. -/
theorem beforeBootstrapFinalized_setup {m : Module} :
    Returns (s.beforeBootstrapFinalized msg m) fun opened => opened.setup = s.setup := by
  have hname : ∀ n : Username, (s.setUsername n).setup = s.setup := fun _ => rfl
  cases m <;> simp [beforeBootstrapFinalized, openClaimWindow, hname]

/-- `finalizeCurrentModule` succeeds exactly when the totals and the root announced were reached, in
the books of the coordinator and in those of the module, and then gives the turn to the next module.
-/
theorem finalizeCurrentModule_eq_ok :
    s.finalizeCurrentModule d msg id = .ok s' ↔ s.Operated d msg ∧
      ∃ m, id = .suite m ∧ s.setup.CanFinalize m ∧
        ∃ opened, s.beforeBootstrapFinalized (asCoordinator d msg) m = .ok opened ∧
          s' = opened.withSetup (s.setup.finalized m) := by
  have hwrite : ∀ {m : Module} {opened : Suite},
      s.beforeBootstrapFinalized (asCoordinator d msg) m = .ok opened →
      ∀ marked, marked = (opened.setBootstrap m { s.bootstrap m with
          bootstrapFinalized := true }).setProgress m
            { s.coordinator.moduleProgress m with finalized := true } →
        marked.setCoordinator { marked.coordinator with
          nextModuleIndex := wrap256 (marked.coordinator.nextModuleIndex + 1) } =
        opened.withSetup (s.setup.finalized m) := by
    intro m opened hopened marked hmarked
    subst hmarked
    have hsetup : opened.setup = s.setup := beforeBootstrapFinalized_setup opened hopened
    obtain ⟨-, hcoordinator, hown⟩ := Setup.mk.inj hsetup
    rw [← hsetup, ← hcoordinator, ← hown]
    rfl
  simp only [finalizeCurrentModule, finalizeBootstrap, bind_eq_ok, onlyOperator_eq_ok,
    currentModule_eq_ok, revertIf_eq_ok, exists_unit, pure_eq_ok, onlyBootstrap_asCoordinator,
    true_and, not_and, not_not, Bool.not_eq_true, Bool.not_eq_false]
  constructor
  · intro h
    obtain ⟨hoperated, m, ⟨hturn, rfl⟩, hannounced, hopen, hcount, hsequence, hroot, hevidence, _,
      ⟨hstarted, hunfinalized, hcount', hsequence', hroot', opened, hopened, rfl⟩, rfl⟩ := h
    exact ⟨hoperated, m, rfl, ⟨hturn, hannounced, hopen, hcount, hsequence, hroot, hevidence, hstarted,
      hunfinalized, hcount', hsequence', hroot'⟩, opened, hopened, hwrite hopened _ rfl⟩
  · intro h
    obtain ⟨hoperated, m, rfl, ⟨hturn, hannounced, hopen, hcount, hsequence, hroot, hevidence, hstarted,
      hunfinalized, hcount', hsequence', hroot'⟩, opened, hopened, rfl⟩ := h
    exact ⟨hoperated, m, ⟨hturn, rfl⟩, hannounced, hopen, hcount, hsequence, hroot, hevidence, _,
      ⟨hstarted, hunfinalized, hcount', hsequence', hroot', opened, hopened, rfl⟩, hwrite hopened _ rfl⟩

/-- `attestUsernameEscrowReleased` takes its evidence once. -/
theorem attestUsernameEscrowReleased_eq_ok {evidence : Bytes32} :
    s.attestUsernameEscrowReleased d msg evidence = .ok s' ↔ s.Operated d msg ∧ evidence ≠ 0 ∧
      s.coordinator.usernameEscrowEvidenceHash = 0 ∧
        s' = s.withSetup (s.setup.attested evidence) := by
  simp only [attestUsernameEscrowReleased, bind_eq_ok, onlyOperator_eq_ok, revertIf_eq_ok,
    exists_unit, pure_eq_ok, not_not]
  constructor
  · intro h
    obtain ⟨hoperated, hevidence, hfree, rfl⟩ := h
    exact ⟨hoperated, hevidence, hfree, rfl⟩
  · intro h
    obtain ⟨hoperated, hevidence, hfree, rfl⟩ := h
    exact ⟨hoperated, hevidence, hfree, rfl⟩

/-- The check `activateSuite` makes of a module: registered, with the code it was registered
with, and finalized. -/
theorem checkModule_eq_ok {m : Module} {v : Unit} :
    s.checkModule d m = .ok v ↔ s.directory.moduleAddress m ≠ 0 ∧
      d.codeHash (s.directory.moduleAddress m) = s.directory.moduleCodeHash m ∧
      (s.bootstrap m).bootstrapFinalized = true := by
  simp only [checkModule, bind_eq_ok, revertIf_eq_ok, exists_unit, not_not, Bool.not_eq_false, ne_eq]

/-- `activate` answers the coordinator that is set. -/
theorem activate_eq_ok :
    s.activate d msg = .ok s' ↔ msg.sender = s.directory.bootstrapCoordinator ∧ msg.sender ≠ 0 ∧
      s.directory.state = .bootstrapping ∧ s.readyForActivation ∧
      (∀ m, s.directory.moduleAddress m ≠ 0 ∧
        d.codeHash (s.directory.moduleAddress m) = s.directory.moduleCodeHash m ∧
        (s.bootstrap m).bootstrapFinalized = true) ∧
      s' = s.setDirectory { s.directory with state := .active } := by
  simp only [activate, bind_eq_ok, revertIf_eq_ok, exists_unit, pure_eq_ok, forM_eq_ok,
    checkModule_eq_ok, not_or, not_not]
  constructor
  · intro h
    obtain ⟨hstate, ⟨hsender, hzero⟩, hmodules, hready, rfl⟩ := h
    exact ⟨hsender, hzero, hstate, hready, fun m => hmodules m (mem_requiredModules m), rfl⟩
  · intro h
    obtain ⟨hsender, hzero, hstate, hready, hmodules, rfl⟩ := h
    exact ⟨hstate, ⟨hsender, hzero⟩, fun m _ => hmodules m, hready, rfl⟩

/-- `activateSuite` succeeds exactly when every module had its turn and passes that check, and the
escrow is attested. -/
theorem activateSuite_eq_ok :
    s.activateSuite d msg = .ok s' ↔ s.Operated d msg ∧ s.setup.CanActivate d ∧
      s' = s.withSetup s.setup.activated := by
  simp only [activateSuite, bind_eq_ok, onlyOperator_eq_ok, revertIf_eq_ok, exists_unit, pure_eq_ok,
    activate_eq_ok, not_not]
  constructor
  · intro h
    obtain ⟨hoperated, ⟨-, hnext, hevidence⟩, _, ⟨hsender, -, hstate, -, hmodules, rfl⟩, rfl⟩ := h
    refine ⟨hoperated, ⟨hnext, hevidence, hstate, hsender.symm, fun m => (hmodules m).1,
      fun m => (hmodules m).2.1, fun m => (hmodules m).2.2⟩, rfl⟩
  · intro h
    obtain ⟨hoperated, ⟨hnext, hevidence, hstate, hsender, hregistered, hcode, hfinalized⟩, rfl⟩ := h
    have hready : s.readyForActivation := ⟨hoperated.2, hnext, hevidence⟩
    exact ⟨hoperated, hready, _, ⟨hsender.symm, d.bootstrapCoordinator_ne_zero, hstate, hready,
      fun m => ⟨hregistered m, hcode m, hfinalized m⟩, rfl⟩, rfl⟩

/-- `configureModule` registers a module once, under its own address and code. -/
theorem configureModule_eq_ok {module : Address} {codeHash : Bytes32} :
    s.configureModule d msg id module codeHash = .ok s' ↔
      msg.sender = s.directory.bootstrapCoordinator ∧ msg.sender ≠ 0 ∧
        s.directory.state = .bootstrapping ∧
        s.directory.bootstrapCoordinator = d.bootstrapCoordinator ∧
        ∃ m, id = .suite m ∧ module = d.moduleAt m ∧ codeHash = d.codeHash (d.moduleAt m) ∧
          s.directory.moduleAddress m = 0 ∧ s' = s.withSetup (s.setup.enrolled d m) := by
  cases id with
  | other =>
      simp [configureModule, bind_eq_ok]
  | suite m =>
      simp only [configureModule, bind_eq_ok, revertIf_eq_ok, exists_unit, pure_eq_ok, not_or, not_not]
      constructor
      · intro h
        obtain ⟨hstate, ⟨hsender, hzero⟩, hfree, -, ⟨-, hcode⟩, ⟨rfl, hcoordinator⟩, rfl⟩ := h
        exact ⟨hsender, hzero, hstate, hcoordinator.symm, m, rfl, rfl, hcode.symm, hfree, rfl⟩
      · intro h
        obtain ⟨hsender, hzero, hstate, hcoordinator, n, hid, rfl, rfl, hfree, rfl⟩ := h
        obtain rfl := ModuleId.suite.inj hid
        obtain ⟨hlength, hcode⟩ := d.contracts_have_code _ (d.moduleAt_mem_contracts m)
        exact ⟨hstate, ⟨hsender, hzero⟩, hfree, ⟨d.moduleAt_ne_zero m, hlength⟩, ⟨hcode, rfl⟩,
          ⟨rfl, hcoordinator.symm⟩, rfl⟩

/-- `registerModule` has the coordinator configure a module for its operator. -/
theorem registerModule_eq_ok {module : Address} {codeHash : Bytes32} :
    s.registerModule d msg id module codeHash = .ok s' ↔ s.Operated d msg ∧
      s.directory.state = .bootstrapping ∧
      s.directory.bootstrapCoordinator = d.bootstrapCoordinator ∧
      ∃ m, id = .suite m ∧ module = d.moduleAt m ∧ codeHash = d.codeHash (d.moduleAt m) ∧
        s.directory.moduleAddress m = 0 ∧ s' = s.withSetup (s.setup.enrolled d m) := by
  simp only [registerModule, bind_eq_ok, onlyOperator_eq_ok, revertIf_eq_ok, exists_unit,
    configureModule_eq_ok]
  constructor
  · intro h
    obtain ⟨hoperated, -, -, -, hstate, hcoordinator, hmodule⟩ := h
    exact ⟨hoperated, hstate, hcoordinator, hmodule⟩
  · intro h
    obtain ⟨hoperated, hstate, hcoordinator, m, rfl, rfl, rfl, hfree, rfl⟩ := h
    have hcode := (d.contracts_have_code _ (d.moduleAt_mem_contracts m)).2
    exact ⟨hoperated, hcode, hcoordinator.symm, d.bootstrapCoordinator_ne_zero, hstate, hcoordinator,
      m, rfl, rfl, rfl, hfree, rfl⟩

/-- `setBootstrapCoordinator` takes the one coordinator before the suite is active. -/
theorem setBootstrapCoordinator_ok {coordinator : Address} {codeHash : Bytes32}
    (h : s.setBootstrapCoordinator d msg coordinator codeHash = .ok s') :
    s.directory.state = .bootstrapping ∧ s.directory.bootstrapCoordinator = 0 ∧
      s' = s.withSetup (s.setup.coordinated d) := by
  simp only [setBootstrapCoordinator, bind_eq_ok, revertIf_eq_ok, exists_unit, pure_eq_ok,
    not_not] at h
  obtain ⟨hstate, -, hfree, -, -, rfl, rfl⟩ := h
  exact ⟨hstate, hfree, rfl⟩

end Suite

end Igit
