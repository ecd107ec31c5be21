import Igit.Bootstrap.Books
import Igit.Client.Verify
import Igit.Library.Tables

/-!
# Both clients accept the active suites

The directory records the code of the coordinator and of each module when they are set, counts the
modules, and does not become active before all seven are there. Both clients read these records back,
compare them with the code that runs and ask the contracts for their bindings. So in every run both
accept a suite when its directory is active, and refuse it before, with the check of the state.
-/

namespace Igit

open Fallible

/-! ## The records of the directory -/

/-- The directory holds the code hash of its coordinator and the number of its modules. -/
structure Directory.Recorded (d : Deployment) (directory : Directory) : Prop where
  coordinator : directory.bootstrapCoordinator ≠ 0 →
    directory.bootstrapCoordinatorCodeHash = d.codeHash directory.bootstrapCoordinator
  counted : directory.registeredModuleCount =
    requiredModules.countP fun m => directory.moduleAddress m ≠ 0

/-- One step keeps the records. -/
theorem SetupStep.recorded {d : Deployment} {u u' : Setup} {phase : Option Phase}
    (hstep : SetupStep d u phase u') (h : u.directory.Recorded d) : u'.directory.Recorded d := by
  cases hstep with
  | coordinate => exact ⟨fun _ => rfl, h.counted⟩
  | enroll m _ hfree =>
      refine ⟨h.coordinator, ?_⟩
      have hcount : (u.enrolled d m).directory.registeredModuleCount =
          wrap256 (u.directory.registeredModuleCount + 1) := rfl
      have hmore := countP_update (p := fun address : Address => decide (address ≠ 0))
        (f := u.directory.moduleAddress) (by decide) (mem_requiredModules m) (by simp [hfree])
        (decide_eq_true (d.moduleAt_ne_zero m))
      have hseven : (requiredModules.countP fun n => u.directory.moduleAddress n ≠ 0) ≤ 7 :=
        List.countP_le_length
      rw [hcount, h.counted, wrap256_eq]
      · exact hmore.symm
      · exact (Nat.succ_le_succ hseven).trans (by decide)
  | _ => exact ⟨h.coordinator, h.counted⟩

/-- The records are right in every run. -/
theorem Reachable.directoryRecorded {d : Deployment} {w : World} (h : Reachable d w) :
    w.suite.directory.Recorded d := by
  refine h.run_invariant (P := fun w => w.suite.directory.Recorded d)
    ⟨fun hset => absurd rfl hset, rfl⟩ ?_
  intro before after move hreach hnext hbefore
  obtain ⟨phase, hstep, -⟩ := (hreach.effect hnext).setupStep
  exact hstep.recorded hbefore

namespace Deployment

variable (d : Deployment)

theorem coordinator_ne_directory : d.bootstrapCoordinator ≠ d.suiteDirectory := by
  have hnodup := d.contracts_nodup
  simp only [List.nodup_cons, List.mem_cons, not_or] at hnodup
  exact Ne.symm hnodup.1.1

theorem moduleAt_ne_directory (m : Module) : d.moduleAt m ≠ d.suiteDirectory := by
  have hnodup := d.contracts_nodup
  simp only [List.nodup_cons, List.mem_cons, not_or] at hnodup
  exact fun hm => hnodup.1.2 (List.mem_map.mpr ⟨m, mem_requiredModules m, hm⟩)

theorem moduleAt_ne_coordinator (m : Module) : d.moduleAt m ≠ d.bootstrapCoordinator := by
  have hnodup := d.contracts_nodup
  simp only [List.nodup_cons, List.mem_cons, not_or] at hnodup
  exact fun hm => hnodup.2.1 (List.mem_map.mpr ⟨m, mem_requiredModules m, hm⟩)

end Deployment

/-- What the directory of an active suite has recorded. -/
structure Suite.Settled (d : Deployment) (s : Suite) : Prop where
  state : s.directory.state = .active
  coordinator : s.directory.bootstrapCoordinator = d.bootstrapCoordinator
  coordinatorHash : s.directory.bootstrapCoordinatorCodeHash = d.codeHash d.bootstrapCoordinator
  count : s.directory.registeredModuleCount = requiredModules.length
  modules : ∀ m, s.directory.moduleAddress m = d.moduleAt m
  moduleHashes : ∀ m, s.directory.moduleCodeHash m = d.codeHash (d.moduleAt m)

/-- An active suite has its coordinator and its seven modules on record. -/
theorem Reachable.settled {d : Deployment} {w : World} (h : Reachable d w)
    (hactive : w.suite.IsActive) : w.suite.Settled d := by
  obtain ⟨-, -, hcoordinator, hmodules⟩ := h.consistent.complete hactive
  have henrolled := fun m => h.consistent.enrolled m (hmodules m)
  have hset : w.suite.directory.bootstrapCoordinator = d.bootstrapCoordinator := hcoordinator
  refine ⟨hactive, hset, ?_, ?_, fun m => (henrolled m).1, fun m => (henrolled m).2⟩
  · rw [h.directoryRecorded.coordinator (hset ▸ d.bootstrapCoordinator_ne_zero), hset]
  · rw [h.directoryRecorded.counted, List.countP_eq_length]
    exact fun m _ => decide_eq_true (hmodules m)

namespace Client

variable {d : Deployment} {s : Suite} {node : Node}

/-! ## The answers -/

@[simp] theorem fetch_some {α ε : Type} {reason : ε} {value : α} :
    fetch reason (some value) = pure value := rfl

/-- The module at the address of a module. -/
theorem moduleOf_moduleAt (m : Module) : moduleOf d (d.moduleAt m) = some m := by
  have hnodup := d.contracts_nodup
  simp only [List.nodup_cons] at hnodup
  exact (find?_key_eq_some hnodup.2.2).mpr ⟨mem_requiredModules m, rfl⟩

namespace Node.Reports

theorem directory (h : node.Reports d s) (view : View) :
    node.call d.suiteDirectory view = directoryView d s view := by
  rw [h.call, contractView, if_pos rfl]

theorem coordinator (h : node.Reports d s) (view : View) :
    node.call d.bootstrapCoordinator view = coordinatorView d view := by
  rw [h.call, contractView, if_neg d.coordinator_ne_directory, if_pos rfl]

theorem module (h : node.Reports d s) (m : Module) (view : View) :
    node.call (d.moduleAt m) view = moduleView d m view := by
  rw [h.call, contractView, if_neg (d.moduleAt_ne_directory m), if_neg (d.moduleAt_ne_coordinator m),
    boundView, moduleOf_moduleAt]
  rfl

/-- A contract of the suite has code, and the recorded hash is its hash. -/
theorem contract_code (h : node.Reports d s) (address : Address) (hcontract : address ∈ d.contracts) :
    ∃ code, node.code address = some code ∧ code ≠ [] ∧
      d.keccak.ofBytes code = d.codeHash address := by
  obtain ⟨code, hcode, hlength, hhash⟩ := h.code address
  have hne : code ≠ [] := by
    rintro rfl
    exact (d.contracts_have_code address hcontract).1 hlength.symm
  exact ⟨code, hcode, hne, hhash hne⟩

end Node.Reports

/-! ## An active suite -/

section Settled

variable (hsettled : s.Settled d) (hnode : node.Reports d s)
include hsettled

/-- The directory vouches for its modules. -/
theorem verifyModule_settled (m : Module) : verifyModule d s (.suite m) = some true := by
  have hcode := d.contracts_have_code _ (d.moduleAt_mem_contracts m)
  have hright : ¬ (d.moduleAt m = 0 ∨ d.codeLength (d.moduleAt m) = 0 ∨
      d.codeHash (d.moduleAt m) ≠ d.codeHash (d.moduleAt m)) := by
    simp only [not_or]
    exact ⟨d.moduleAt_ne_zero m, hcode.1, not_not.mpr rfl⟩
  simp only [verifyModule, moduleAddress, moduleCodeHash, hsettled.modules, hsettled.moduleHashes,
    hsettled.coordinator, if_neg hright, boundView, moduleOf_moduleAt, moduleView]
  simp

include hnode

/-- The command line accepts each module. -/
theorem verifySuiteModule_settled (m : Module) :
    verifySuiteModule d.keccak node d.suiteDirectory d.bootstrapCoordinator m =
      .ok ⟨m, d.moduleAt m, d.codeHash (d.moduleAt m)⟩ := by
  obtain ⟨code, hcode, hne, hhash⟩ := hnode.contract_code _ (d.moduleAt_mem_contracts m)
  simp only [verifySuiteModule, Node.addressCall, Node.hashCall, Node.idCall, hnode.directory,
    directoryView, moduleAddress, moduleCodeHash, hsettled.modules, hsettled.moduleHashes, bind_eq_ok,
    fetch_eq_ok, revertIf_eq_ok, exists_unit, pure_eq_ok, Option.some.injEq, exists_eq_left', hcode,
    hnode.module, moduleView, hhash, List.length_eq_zero_iff, not_not, and_true]
  exact ⟨d.moduleAt_ne_zero m, hne⟩

/-- The web client accepts each module. -/
theorem verifyEntry_settled (m : Module) :
    verifyEntry d.keccak node d.suiteDirectory d.bootstrapCoordinator m =
      .ok (m, d.moduleAt m, d.codeHash (d.moduleAt m)) := by
  obtain ⟨code, hcode, hne, hhash⟩ := hnode.contract_code _ (d.moduleAt_mem_contracts m)
  simp only [verifyEntry, Node.addressCall, Node.hashCall, Node.idCall, Node.boolCall, hnode.directory,
    directoryView, verifyModule_settled hsettled, Option.map_some, moduleAddress, moduleCodeHash,
    hsettled.modules, hsettled.moduleHashes, bind_eq_ok, fetch_eq_ok, revertIf_eq_ok, exists_unit,
    pure_eq_ok, Option.some.injEq, exists_eq_left', hcode, hnode.module, moduleView, hhash,
    List.length_eq_zero_iff, not_or, not_not, true_and, and_true]
  exact ⟨d.moduleAt_ne_zero m, hne⟩

/-- What the command line reports of an active suite. -/
theorem verifySuite_settled {expectedChainId block : Nat} (hchain : d.chainid ≤ uint64Max)
    (hexpected : expectedChainId = 0 ∨ expectedChainId = d.chainid)
    (hnumber : node.blockNumber = some block) (hblock : block ≤ uint64Max) :
    verifySuite d.keccak node (some d.suiteDirectory) expectedChainId =
      .ok ⟨d.suiteDirectory, 3, d.chainid, d.snapshotRoot, d.bootstrapCoordinator, block,
        requiredModules.map fun m => ⟨m, d.moduleAt m, d.codeHash (d.moduleAt m)⟩⟩ := by
  obtain ⟨own, hown, hownNe, -⟩ := hnode.contract_code d.suiteDirectory (.head _)
  obtain ⟨code, hcode, hne, hhash⟩ := hnode.contract_code d.bootstrapCoordinator (.tail _ (.head _))
  have hmodules : requiredModules.mapM (verifySuiteModule d.keccak node d.suiteDirectory
      d.bootstrapCoordinator) = .ok (requiredModules.map fun m =>
        ⟨m, d.moduleAt m, d.codeHash (d.moduleAt m)⟩) :=
    mapM_eq_map_iff.mpr fun m _ => verifySuiteModule_settled hsettled hnode m
  have hprofile : ¬ (expectedChainId ≠ 0 ∧ d.chainid ≠ expectedChainId) := by
    rintro ⟨hzero, hother⟩
    exact hexpected.elim hzero fun hsame => hother hsame.symm
  simp only [verifySuite, fits64, Node.uint64Call, Node.uint8Call, Node.bigIntCall, Node.addressCall,
    Node.hashCall, hnode.chainId, hnumber, hnode.directory, directoryView, hsettled.state, stateCode,
    hsettled.coordinator, hsettled.coordinatorHash, hnode.coordinator, coordinatorView, bind_eq_ok,
    fetch_eq_ok, revertIf_eq_ok, exists_unit, pure_eq_ok, Option.some.injEq, exists_eq_left', hown,
    hcode, hhash, hmodules, Option.filter_some, hchain, hblock, decide_true, if_true, Except.ok.injEq,
    List.length_eq_zero_iff, not_or, not_not, true_and, and_true]
  exact ⟨hprofile, hownNe, rfl, Nat.not_lt.mpr hchain, d.snapshotRoot_ne_zero,
    d.bootstrapCoordinator_ne_zero, hne, rfl⟩

/-- What the web client reports of an active suite. -/
theorem verifySuiteNow_settled {block : Nat} (hnumber : node.blockNumber = some block) :
    verifySuiteNow d.keccak node ⟨some d.suiteDirectory, d.chainid⟩ =
      .ok ⟨d.suiteDirectory, d.bootstrapCoordinator, d.snapshotRoot, block,
        requiredModules.map fun m => (m, d.moduleAt m, d.codeHash (d.moduleAt m))⟩ := by
  obtain ⟨own, hown, hownNe, -⟩ := hnode.contract_code d.suiteDirectory (.head _)
  obtain ⟨code, hcode, hne, hhash⟩ := hnode.contract_code d.bootstrapCoordinator (.tail _ (.head _))
  have hmodules : requiredModules.mapM (verifyEntry d.keccak node d.suiteDirectory
      d.bootstrapCoordinator) = .ok (requiredModules.map fun m =>
        (m, d.moduleAt m, d.codeHash (d.moduleAt m))) :=
    mapM_eq_map_iff.mpr fun m _ => verifyEntry_settled hsettled hnode m
  simp only [verifySuiteNow, Node.uint64Call, Node.uint8Call, Node.bigIntCall, Node.addressCall,
    Node.hashCall, hnode.chainId, hnumber, hnode.directory, directoryView, hsettled.state, stateCode,
    hsettled.coordinator, hsettled.coordinatorHash, hsettled.count, bind_eq_ok, fetch_eq_ok,
    revertIf_eq_ok, exists_unit, pure_eq_ok, Option.some.injEq, exists_eq_left', hown, hcode, hhash,
    hmodules, Except.ok.injEq, List.length_eq_zero_iff, not_or, not_not, true_and, and_true]
  exact ⟨hownNe, rfl, d.bootstrapCoordinator_ne_zero, hne⟩

end Settled

/-! ## A suite that is accepted -/

/-- Both clients ask whether the state is 1. -/
theorem active_of_uint8Call (hnode : node.Reports d s) {state : Nat}
    (hstate : node.uint8Call d.suiteDirectory .state = some state) (hone : state = 1) : s.IsActive := by
  simp only [Node.uint8Call, hnode.directory, directoryView, Option.some.injEq] at hstate
  rw [hone] at hstate
  cases hactive : s.directory.state with
  | bootstrapping =>
      rw [hactive] at hstate
      cases hstate
  | active => exact hactive

theorem active_of_verifySuite (hnode : node.Reports d s) {expectedChainId : Nat} {info : SuiteInfo}
    (h : verifySuite d.keccak node (some d.suiteDirectory) expectedChainId = .ok info) :
    s.IsActive := by
  simp only [verifySuite, fetch_some, pure_bind, bind_eq_ok, fetch_eq_ok, revertIf_eq_ok, exists_unit,
    not_not] at h
  obtain ⟨_, -, -, _, -, _, -, -, _, -, -, _, -, -, state, hstate, hone, -⟩ := h
  exact active_of_uint8Call hnode hstate hone

theorem active_of_verifySuiteNow (hnode : node.Reports d s) {binding : SuiteBinding}
    (h : verifySuiteNow d.keccak node ⟨some d.suiteDirectory, d.chainid⟩ = .ok binding) :
    s.IsActive := by
  simp only [verifySuiteNow, fetch_some, pure_bind, bind_eq_ok, fetch_eq_ok, revertIf_eq_ok,
    exists_unit, not_not] at h
  obtain ⟨_, -, _, -, -, _, -, -, state, hstate, _, -, _, -, _, -, _, -, _, -, _, -, hone, -⟩ := h
  exact active_of_uint8Call hnode hstate hone

/-- In every state of a run, seen through a node that reports it, each client accepts the suite exactly
when its directory is active. A profile of the command line may leave the chain id out. -/
theorem clients_accept_iff_active {w : World} (h : Reachable d w) (hnode : node.Reports d w.suite)
    (hchain : d.chainid ≤ uint64Max) {expectedChainId : Nat}
    (hexpected : expectedChainId = 0 ∨ expectedChainId = d.chainid) :
    ((∃ info, verifySuite d.keccak node (some d.suiteDirectory) expectedChainId = .ok info) ↔
      w.suite.IsActive) ∧
    ((∃ binding, verifySuiteNow d.keccak node ⟨some d.suiteDirectory, d.chainid⟩ = .ok binding) ↔
      w.suite.IsActive) := by
  obtain ⟨block, hnumber, hblock⟩ := hnode.block
  refine ⟨⟨?_, fun hactive => ?_⟩, ⟨?_, fun hactive => ?_⟩⟩
  · intro haccepts
    obtain ⟨info, hok⟩ := haccepts
    exact active_of_verifySuite hnode hok
  · exact ⟨_, verifySuite_settled (h.settled hactive) hnode hchain hexpected hnumber hblock⟩
  · intro haccepts
    obtain ⟨binding, hok⟩ := haccepts
    exact active_of_verifySuiteNow hnode hok
  · exact ⟨_, verifySuiteNow_settled (h.settled hactive) hnode hnumber⟩

end Client

namespace Sample

/-- The deployment with code that has its hash. -/
def coded : Deployment :=
  { deployment with
    codeHash := fun _ => deployment.keccak.ofBytes [0x60]
    contracts_have_code := fun _ _ => ⟨Nat.one_ne_zero, by decide +kernel⟩ }

/-- The account that installs the coordinator. -/
def codedAuthority : Account coded := ⟨0xa1, by decide⟩

/-- The account that runs the bootstrap. -/
def codedOperator : Account coded := ⟨0xa2, by decide⟩

/-- The bootstrap of `coded`, with nothing to import. -/
def codedBootstrap : List (Account coded × BootstrapOp) :=
  let codeHash := coded.codeHash 0
  (codedAuthority, .setBootstrapCoordinator 0xd2 codeHash) ::
    requiredModules.map
      (fun m => (codedOperator, .registerModule (.suite m) (coded.moduleAt m) codeHash)) ++
    [(codedOperator, .attestUsernameEscrowReleased 5)] ++
    requiredModules.flatMap (fun m =>
      [(codedOperator, .beginNextModule (.suite m) 0 0 (positionalHash (.rollingSeed (.suite m) 7))),
       (codedOperator, .finalizeCurrentModule (.suite m))]) ++
    [(codedOperator, .activateSuite)]

/-- The world after the bootstrap of `coded`. -/
def codedGenesis : World := (World.initial coded).run
  (codedBootstrap.map fun (sender, op) => (1, .call sender (.bootstrap op)))

theorem codedGenesis_reachable : Reachable coded codedGenesis := reachable_run _

/-- A node that reports it. -/
def codedNode : Client.Node where
  chainId := some 1439
  blockNumber := some 1
  code := fun _ => some [0x60]
  call := Client.contractView coded codedGenesis.suite

/-- Both clients accept the suite of `coded`. -/
theorem codedGenesis_accepted :
    (∃ info, Client.verifySuite coded.keccak codedNode (some 0xd1) 1439 = .ok info) ∧
      ∃ binding, Client.verifySuiteNow coded.keccak codedNode ⟨some 0xd1, 1439⟩ = .ok binding := by
  have hactive : codedGenesis.suite.IsActive := by decide +kernel
  have hreports : codedNode.Reports coded codedGenesis.suite :=
    ⟨rfl, ⟨1, rfl, by decide⟩, fun _ => ⟨[0x60], rfl, rfl, fun _ => rfl⟩, fun _ _ => rfl⟩
  have hchain : coded.chainid ≤ uint64Max := by decide
  obtain ⟨hcli, hweb⟩ :=
    Client.clients_accept_iff_active codedGenesis_reachable hreports hchain (.inr rfl)
  exact ⟨hcli.mpr hactive, hweb.mpr hactive⟩

end Sample

end Igit
