import Igit.Specs.Calls
import Igit.Specs.Coordinator

/-!
# The coordinator, the directory and the modules agree

`World.Effect` is all that a move does: before activation a step of the bootstrap, afterwards one of the
effects of calls, or one end of a `sponsor` call. Three contracts keep books about one bootstrap, and
`SetupStep` is all that happens to them. From it follows `Setup.Consistent`, which holds in every run: the
coordinator's progress record of a module is the module's own, the modules before the current one
are finalized and the ones after it untouched, and an active suite is complete. The phases of the
bootstrap come in the fixed order (`Reachable.inOrder`), and what is active is frozen
(`Reachable.frozen`).
-/

namespace Igit

open Fallible

/-! ## Phases -/

/-- A batch as the operator sends it: the number of records declared, and the payload. -/
structure Batch where
  count : Nat
  payload : Bytes
  deriving DecidableEq, Repr

/-- A step of the coordinator on one module. -/
inductive Phase where
  | began (m : Module)
  | imported (m : Module) (batch : Batch)
  | finalized (m : Module)
  deriving DecidableEq, Repr

/-- The phase a call brings about when it succeeds. -/
def Op.phase : Op → Option Phase
  | .bootstrap (.beginNextModule (.suite m) _ _ _) => some (.began m)
  | .bootstrap (.importBatch (.suite m) _ count _ payload) => some (.imported m ⟨count, payload⟩)
  | .bootstrap (.finalizeCurrentModule (.suite m)) => some (.finalized m)
  | _ => none

/-- A call imports no batch. -/
def Op.Unbatched (op : Op) : Prop := ∀ m batch, op.phase ≠ some (.imported m batch)

/-- A call that is no phase imports no batch. -/
theorem Op.unbatched {op : Op} (h : op.phase = none) : op.Unbatched := fun _ _ => by simp [h]

/-- The phase a successful call brought about. -/
def Record.phase (record : Record) : Option Phase :=
  match record.event with
  | .call op => op.phase
  | .sponsor _ _ _ => none

/-- The phases of a run, oldest first. -/
def phases (history : List Record) : List Phase := history.filterMap Record.phase

/-- The phase of a call joins those before. -/
theorem phases_push {history : List Record} {record : Record} :
    phases (history ++ [record]) = phases history ++ record.phase.toList := by
  cases hphase : record.phase <;> simp [phases, hphase]

/-- `later` may come right after `earlier`: a module begun is imported batch by batch and then
finalized, and a module finalized is followed by the next one in the fixed order. -/
inductive Phase.Follows : Phase → Phase → Prop where
  | firstBatch (m : Module) (batch : Batch) : Follows (.began m) (.imported m batch)
  | nextBatch (m : Module) (batch next : Batch) : Follows (.imported m batch) (.imported m next)
  | noBatch (m : Module) : Follows (.began m) (.finalized m)
  | lastBatch (m : Module) (batch : Batch) : Follows (.imported m batch) (.finalized m)
  | nextModule (m n : Module) (horder : n.index = m.index + 1) : Follows (.finalized m) (.began n)

/-- The phases start with the first module and follow one another in order. -/
structure InOrder (phases : List Phase) : Prop where
  first : ∀ phase, phases.head? = some phase → phase = .began .core
  next : phases.IsChain Phase.Follows

/-! ## What a call does to the books -/

/-- The effect of a call of an outside account on the books, with its phase. -/
inductive SetupStep (d : Deployment) (u : Setup) : Option Phase → Setup → Prop where
  | idle : SetupStep d u none u
  | coordinate (hstate : u.directory.state = .bootstrapping)
      (hfree : u.directory.bootstrapCoordinator = 0) : SetupStep d u none (u.coordinated d)
  | enroll (m : Module) (hstate : u.directory.state = .bootstrapping)
      (hfree : u.directory.moduleAddress m = 0) : SetupStep d u none (u.enrolled d m)
  | attest (evidence : Bytes32) (hopen : u.coordinator.activated = false) (hevidence : evidence ≠ 0) :
      SetupStep d u none (u.attested evidence)
  | start (m : Module) (count batches : Nat) (root : Bytes32)
      (hopen : u.coordinator.activated = false) (hcan : u.CanBegin m root) :
      SetupStep d u (some (.began m)) (u.begun d m count batches root)
  | batch (m : Module) (sequence : Nat) (batch : Batch) (hopen : u.coordinator.activated = false)
      (hcan : u.CanImport m sequence batch.count) :
      SetupStep d u (some (.imported m batch))
        (u.batched d m sequence batch.count (d.keccak.ofBytes batch.payload))
  | finish (m : Module) (hopen : u.coordinator.activated = false) (hcan : u.CanFinalize m) :
      SetupStep d u (some (.finalized m)) (u.finalized m)
  | activate (hopen : u.coordinator.activated = false) (hcan : u.CanActivate d) :
      SetupStep d u none u.activated

/-- The directory has no coordinator, or the deployed one. -/
def Setup.Bound (d : Deployment) (u : Setup) : Prop :=
  u.directory.bootstrapCoordinator = 0 ∨ u.directory.bootstrapCoordinator = d.bootstrapCoordinator

/-! ## Agreement -/

/-- What the coordinator should have recorded about a module in this state. -/
def Bootstrap.toProgress (own : Bootstrap) : ModuleProgress where
  started := own.bootstrapStarted
  finalized := own.bootstrapFinalized
  expectedCount := own.expectedImportCount
  expectedBatches := own.expectedImportBatches
  importedCount := own.importedCount
  nextSequence := own.nextImportSequence
  expectedRoot := own.expectedImportRoot
  rollingRoot := own.rollingImportRoot

namespace Setup

/-- The books of the three contracts fit together. -/
structure Consistent (d : Deployment) (u : Setup) : Prop where
  bound : u.Bound d
  enrolled : ∀ m, u.directory.moduleAddress m ≠ 0 → u.directory.moduleAddress m = d.moduleAt m ∧
    u.directory.moduleCodeHash m = d.codeHash (d.moduleAt m)
  agrees : ∀ m, u.coordinator.moduleProgress m = (u.bootstrap m).toProgress
  turn_le : u.coordinator.nextModuleIndex ≤ requiredModules.length
  done : ∀ m, m.index < u.coordinator.nextModuleIndex → (u.bootstrap m).bootstrapFinalized = true
  current : ∀ m, m.index = u.coordinator.nextModuleIndex →
    (u.bootstrap m).bootstrapFinalized = false
  ahead : ∀ m, u.coordinator.nextModuleIndex < m.index → u.bootstrap m = default
  active_iff : u.directory.state = .active ↔ u.coordinator.activated = true
  complete : u.directory.state = .active →
    u.coordinator.nextModuleIndex = requiredModules.length ∧
      u.coordinator.usernameEscrowEvidenceHash ≠ 0 ∧
      u.directory.bootstrapCoordinator = d.bootstrapCoordinator ∧
      ∀ m, u.directory.moduleAddress m ≠ 0

variable {d : Deployment} {u u' : Setup} {phase : Option Phase}

/-- A directory with an open coordinator is still bootstrapping. -/
theorem Consistent.not_active (h : u.Consistent d) (hopen : u.coordinator.activated = false) :
    u.directory.state ≠ .active := by
  intro hactive
  rw [h.active_iff.mp hactive] at hopen
  cases hopen

/-- Two records that agree are put in the place of two others. -/
theorem agrees_withModule {m : Module} {progress : ModuleProgress} {own : Bootstrap}
    (h : ∀ n, u.coordinator.moduleProgress n = (u.bootstrap n).toProgress)
    (hnew : progress = own.toProgress) (n : Module) :
    (u.withModule m progress own).coordinator.moduleProgress n =
      ((u.withModule m progress own).bootstrap n).toProgress := by
  show Function.update u.coordinator.moduleProgress m progress n =
    (Function.update u.bootstrap m own n).toProgress
  by_cases hn : n = m
  · subst hn
    rw [Function.update_self, Function.update_self]
    exact hnew
  · rw [Function.update_of_ne hn, Function.update_of_ne hn]
    exact h n

/-- New records for the module whose turn it is, which is not finalized by them. -/
theorem Consistent.withModule (h : u.Consistent d) {m : Module} {progress : ModuleProgress}
    {own : Bootstrap} (hopen : u.coordinator.activated = false)
    (hturn : u.coordinator.nextModuleIndex = m.index) (hnew : progress = own.toProgress)
    (hfinalized : own.bootstrapFinalized = false) : (u.withModule m progress own).Consistent d where
  bound := h.bound
  enrolled := h.enrolled
  agrees := agrees_withModule h.agrees hnew
  turn_le := h.turn_le
  done := by
    intro n hn
    have hne : n ≠ m := fun heq => absurd (heq ▸ hn) (by rw [← hturn]; exact lt_irrefl _)
    show (Function.update u.bootstrap m own n).bootstrapFinalized = true
    rw [Function.update_of_ne hne]
    exact h.done n hn
  current := by
    intro n hn
    have heq : n = m := Module.index_injective (hn.trans hturn)
    subst heq
    show (Function.update u.bootstrap n own n).bootstrapFinalized = false
    rw [Function.update_self]
    exact hfinalized
  ahead := by
    intro n hn
    have hne : n ≠ m := fun heq => absurd (heq ▸ hn) (by rw [← hturn]; exact lt_irrefl _)
    show Function.update u.bootstrap m own n = default
    rw [Function.update_of_ne hne]
    exact h.ahead n hn
  active_iff := h.active_iff
  complete := fun hactive => absurd hactive (h.not_active hopen)

/-- The turn passes to the next position. -/
theorem finalized_turn {m : Module} (hturn : u.coordinator.nextModuleIndex = m.index) :
    (u.finalized m).coordinator.nextModuleIndex = m.index + 1 := by
  have hlt : m.index < 7 := m.index_lt
  show wrap256 (u.coordinator.nextModuleIndex + 1) = m.index + 1
  rw [hturn, wrap256_eq]
  unfold uint256Max
  omega

/-- The module whose turn it is is finalized, and the turn passes on. -/
theorem Consistent.finalized (h : u.Consistent d) {m : Module}
    (hopen : u.coordinator.activated = false) (hturn : u.coordinator.nextModuleIndex = m.index) :
    (u.finalized m).Consistent d := by
  have hlt : m.index < requiredModules.length := m.index_lt
  have hnext := finalized_turn hturn
  have hself : (u.finalized m).bootstrap m = { u.bootstrap m with bootstrapFinalized := true } :=
    Function.update_self ..
  have hother : ∀ n, n ≠ m → (u.finalized m).bootstrap n = u.bootstrap n :=
    fun n hn => Function.update_of_ne hn ..
  refine
    { bound := h.bound
      enrolled := h.enrolled
      agrees := ?_
      turn_le := ?_
      done := ?_
      current := ?_
      ahead := ?_
      active_iff := h.active_iff
      complete := fun hactive => absurd hactive (h.not_active hopen) }
  · refine agrees_withModule h.agrees ?_
    rw [h.agrees m]
    rfl
  · rw [hnext]
    omega
  · intro n hn
    by_cases heq : n = m
    · rw [heq, hself]
    · have hindex : n.index ≠ m.index := fun hindex => heq (Module.index_injective hindex)
      rw [hnext] at hn
      rw [hother n heq]
      exact h.done n (by omega)
  · intro n hn
    rw [hnext] at hn
    have heq : n ≠ m := fun heq => by
      rw [heq] at hn
      omega
    rw [hother n heq, h.ahead n (by omega)]
    rfl
  · intro n hn
    rw [hnext] at hn
    have heq : n ≠ m := fun heq => by
      rw [heq] at hn
      omega
    rw [hother n heq]
    exact h.ahead n (by omega)

/-- One step keeps the books consistent. -/
theorem Consistent.step (h : u.Consistent d) (hstep : SetupStep d u phase u') :
    u'.Consistent d := by
  cases hstep with
  | idle => exact h
  | coordinate hstate hfree =>
      refine ⟨.inr rfl, h.enrolled, h.agrees, h.turn_le, h.done, h.current, h.ahead, h.active_iff, ?_⟩
      intro hactive
      exact absurd (hstate.symm.trans hactive) (by decide)
  | enroll m hstate hfree =>
      refine ⟨h.bound, ?_, h.agrees, h.turn_le, h.done, h.current, h.ahead, h.active_iff, ?_⟩
      · intro n hn
        by_cases heq : n = m
        · subst heq
          exact ⟨Function.update_self .., Function.update_self ..⟩
        · have haddress : (u.enrolled d m).directory.moduleAddress n = u.directory.moduleAddress n :=
            Function.update_of_ne heq ..
          have hcode : (u.enrolled d m).directory.moduleCodeHash n = u.directory.moduleCodeHash n :=
            Function.update_of_ne heq ..
          rw [haddress] at hn
          rw [haddress, hcode]
          exact h.enrolled n hn
      · intro hactive
        exact absurd (hstate.symm.trans hactive) (by decide)
  | attest evidence hopen hevidence =>
      exact ⟨h.bound, h.enrolled, h.agrees, h.turn_le, h.done, h.current, h.ahead, h.active_iff,
        fun hactive => absurd hactive (h.not_active hopen)⟩
  | start m count batches root hopen hcan =>
      refine h.withModule hopen hcan.turn ?_ (h.current m hcan.turn.symm)
      rw [h.agrees m]
      rfl
  | batch m sequence batch hopen hcan =>
      refine h.withModule hopen hcan.turn ?_ hcan.unfinalized
      have hcount := hcan.count_fits
      rw [h.agrees m] at hcount ⊢
      have hwrap : wrap256 ((u.bootstrap m).importedCount + batch.count) =
          (u.bootstrap m).importedCount + batch.count := wrap256_eq hcount
      rw [hwrap, wrap256_eq hcan.sequence_fits]
      rfl
  | finish m hopen hcan => exact h.finalized hopen hcan.turn
  | activate hopen hcan =>
      refine ⟨h.bound, h.enrolled, h.agrees, h.turn_le, h.done, h.current, h.ahead, ?_, ?_⟩
      · exact ⟨fun _ => rfl, fun _ => rfl⟩
      · exact fun _ => ⟨hcan.ready, hcan.evidence, hcan.coordinator, hcan.registered⟩

end Setup

/-- The books of a fresh suite are consistent. -/
theorem Deployment.initialSuite_consistent (d : Deployment) :
    d.initialSuite.setup.Consistent d where
  bound := .inl rfl
  enrolled := fun m hm => absurd rfl hm
  agrees := fun m => rfl
  turn_le := Nat.zero_le _
  done := fun m hm => absurd hm (Nat.not_lt_zero _)
  current := fun m _ => rfl
  ahead := fun m _ => rfl
  active_iff := by
    show DirectoryState.bootstrapping = .active ↔ false = true
    decide
  complete := by
    intro hactive
    have hfresh : DirectoryState.bootstrapping = .active := hactive
    cases hfresh

/-- The directory of a suite with consistent books is right. -/
theorem Setup.Consistent.registered {d : Deployment} {s : Suite} (h : s.setup.Consistent d) :
    s.Registered d where
  registered := by
    intro m
    by_cases hm : s.moduleAddress m = 0
    · exact .inl hm
    · exact .inr (h.enrolled m hm).1
  complete := fun hactive => (h.complete hactive).2.2.2

/-! ## What a move does -/

namespace Suite

/-- What a bootstrap call of an outside account does: a step on the books and, when it opens the
window for username claims or imports a batch, a change of a module. -/
inductive BootstrapStep (d : Deployment) (s : Suite) : BootstrapOp → Suite → Prop where
  | books {op : BootstrapOp} {u : Setup} (hinactive : ¬ s.IsActive)
      (hbatch : (Op.bootstrap op).Unbatched) (hstep : SetupStep d s.setup (Op.bootstrap op).phase u) :
      BootstrapStep d s op (s.withSetup u)
  | openClaims {u : Setup} (hinactive : ¬ s.IsActive) (deadline : Nat)
      (hstep : SetupStep d s.setup (some (.finalized .username)) u) :
      BootstrapStep d s (.finalizeCurrentModule (.suite .username))
        ((s.setUsername { s.username with originalOwnerClaimDeadline := deadline }).withSetup u)
  | batch {u : Setup} {m : Module} {sequence count : Nat} {payloadHash : Bytes32} {payload : Bytes}
      {records : List ImportRecord} (hinactive : ¬ s.IsActive)
      (hdecode : decodeRecords d.abi m payload = .ok records)
      (hfit : s.FitInTurn d.keccak records)
      (hstep : SetupStep d s.setup (some (.imported m ⟨count, payload⟩)) u) :
      BootstrapStep d s (.importBatch (.suite m) sequence count payloadHash payload)
        ((records.foldl (stored d.keccak) s).withSetup u)

variable {d : Deployment} {s s' : Suite} {sender : Account d} {now : Nat}

/-- The directory answers no outside account: its coordinator is missing or a contract. -/
theorem sender_ne_coordinator (hbound : s.setup.Bound d)
    (hsender : sender.address = s.directory.bootstrapCoordinator) (hzero : sender.address ≠ 0) :
    False := by
  have hcases : s.directory.bootstrapCoordinator = 0 ∨
      s.directory.bootstrapCoordinator = d.bootstrapCoordinator := hbound
  rcases hcases with hnone | hcoordinator
  · exact hzero (hsender.trans hnone)
  · exact sender.address_ne_coordinator (hsender.trans hcoordinator)

/-- Every bootstrap call of an outside account takes one step. The directory's own functions and the
module side of the bootstrap answer the coordinator alone. -/
theorem callBootstrap_step (hconsistent : s.setup.Consistent d) {op : BootstrapOp}
    (h : s.callBootstrap d ⟨sender.address, now⟩ op = .ok s') : BootstrapStep d s op s' := by
  have hsender : sender.address ≠ d.bootstrapCoordinator := sender.address_ne_coordinator
  have hclosed : s.directory.state = .bootstrapping → ¬ s.IsActive := by
    intro hstate hactive
    cases hstate.symm.trans hactive
  have hunopened : s.Operated d ⟨sender.address, now⟩ → ¬ s.IsActive :=
    fun hoperated => hconsistent.not_active hoperated.2
  cases op with
  | setBootstrapCoordinator coordinator codeHash =>
      obtain ⟨hstate, hfree, rfl⟩ := setBootstrapCoordinator_ok h
      exact .books (hclosed hstate) (fun _ _ => by simp [Op.phase]) (.coordinate hstate hfree)
  | configureModule id module codeHash =>
      obtain ⟨hcoordinator, hzero, -⟩ := configureModule_eq_ok.mp h
      exact (sender_ne_coordinator hconsistent.bound hcoordinator hzero).elim
  | activate =>
      obtain ⟨hcoordinator, hzero, -⟩ := activate_eq_ok.mp h
      exact (sender_ne_coordinator hconsistent.bound hcoordinator hzero).elim
  | registerModule id module codeHash =>
      obtain ⟨-, hstate, -, m, rfl, -, -, hfree, rfl⟩ := registerModule_eq_ok.mp h
      exact .books (hclosed hstate) (fun _ _ => by simp [Op.phase]) (.enroll m hstate hfree)
  | beginNextModule id count batches root =>
      obtain ⟨hoperated, m, rfl, hcan, rfl⟩ := beginNextModule_eq_ok.mp h
      exact .books (hunopened hoperated) (fun _ _ => by simp [Op.phase])
        (.start m count batches root hoperated.2 hcan)
  | importBatch id sequence count payloadHash payload =>
      obtain ⟨hoperated, m, rfl, hcan, -, rfl, stored, hstored, rfl⟩ := importBatch_eq_ok.mp h
      obtain ⟨records, hdecode, hfold, -⟩ := importPayload_eq_ok.mp hstored
      obtain ⟨hfit, rfl⟩ := foldlM_storeRecord_eq_ok.mp hfold
      exact .batch (hunopened hoperated) hdecode hfit
        (.batch m sequence ⟨count, payload⟩ hoperated.2 hcan)
  | finalizeCurrentModule id =>
      obtain ⟨hoperated, m, rfl, hcan, opened, hopened, rfl⟩ := finalizeCurrentModule_eq_ok.mp h
      have hstep := SetupStep.finish (d := d) m hoperated.2 hcan
      -- the username module alone writes before it finalizes
      cases m with
      | username =>
          simp only [beforeBootstrapFinalized, openClaimWindow, bind_eq_ok, pure_eq_ok] at hopened
          obtain ⟨deadline, -, _, -, rfl⟩ := hopened
          exact .openClaims (hunopened hoperated) deadline hstep
      | _ =>
          rw [beforeBootstrapFinalized, pure_eq_ok] at hopened
          · rw [← hopened]
            exact .books (hunopened hoperated) (fun _ _ => by simp [Op.phase]) hstep
          · intro hname
            cases hname
  | attestUsernameEscrowReleased evidence =>
      obtain ⟨hoperated, hevidence, -, rfl⟩ := attestUsernameEscrowReleased_eq_ok.mp h
      exact .books (hunopened hoperated) (fun _ _ => by simp [Op.phase])
        (.attest evidence hoperated.2 hevidence)
  | activateSuite =>
      obtain ⟨hoperated, hcan, rfl⟩ := activateSuite_eq_ok.mp h
      exact .books (hunopened hoperated) (fun _ _ => by simp [Op.phase])
        (.activate hoperated.2 hcan)
  -- the modules let the coordinator alone in
  | beginBootstrap => simp [callBootstrap, beginBootstrap, onlyBootstrap, hsender, bind_eq_ok] at h
  | bootstrapImport => simp [callBootstrap, bootstrapImport, onlyBootstrap, hsender, bind_eq_ok] at h
  | finalizeBootstrap =>
      simp [callBootstrap, finalizeBootstrap, onlyBootstrap, hsender, bind_eq_ok] at h

/-- The bootstrap is over in an active suite. -/
theorem BootstrapStep.inactive {op : BootstrapOp} (h : BootstrapStep d s op s') : ¬ s.IsActive := by
  cases h <;> assumption

/-- A call of a module leaves the books alone and is no phase of the bootstrap. -/
theorem Effect.setup_eq {sender : Address} {op : Op} (h : Effect d s sender now op s') :
    s'.setup = s.setup ∧ op.phase = none := by
  cases h <;> exact ⟨rfl, rfl⟩

end Suite

/-- What a move does: an effect of a call of an active suite, a step of the bootstrap, one of the two
ends of a `sponsor` call, or nothing. -/
inductive World.Effect (d : Deployment) (w : World) : Move d → World → Prop where
  | call {sender : Account d} {op : Op} {s' : Suite} (hactive : w.suite.IsActive)
      (h : Suite.Effect d w.suite sender.address w.now op s') :
      World.Effect d w (.call sender op)
        ⟨s', w.now, w.history ++ [⟨sender.address, w.now, .call op⟩]⟩
  | bootstrap {sender : Account d} {op : BootstrapOp} {s' : Suite}
      (h : Suite.BootstrapStep d w.suite op s') :
      World.Effect d w (.call sender (.bootstrap op))
        ⟨s', w.now, w.history ++ [⟨sender.address, w.now, .call (.bootstrap op)⟩]⟩
  | openSponsor {sender : Account d} {repoId : Bytes32} {message : Bytes} {value : Nat}
      (hactive : w.suite.IsActive) (hvalue : value ≠ 0)
      (hopen : w.suite.moderation.statuses repoId ≠ .frozen) :
      World.Effect d w (.openSponsor sender repoId message value)
        ⟨w.suite.setEconomic (({ w.suite.economic with settlementLock := 2 } : Economic).withTotal
          d.keccak repoId injDenom value), w.now,
          w.history ++ [⟨sender.address, w.now, .sponsor repoId message value⟩]⟩
  | closeSponsor : World.Effect d w .closeSponsor ⟨w.suite.closeSponsor, w.now, w.history⟩
  | wait {elapsed : Nat} : World.Effect d w (.wait elapsed) ⟨w.suite, w.now + elapsed, w.history⟩

namespace World

variable {d : Deployment} {w w' : World} {move : Move d}

/-- Every move has one of these effects. -/
theorem next_effect (hconsistent : w.suite.setup.Consistent d) (hnext : w.next move = .ok w') :
    w.Effect d move w' := by
  cases move with
  | call sender op =>
      simp only [World.next, bind_eq_ok, pure_eq_ok] at hnext
      obtain ⟨s', hop, rfl⟩ := hnext
      by_cases hother : ∀ bootstrap, op ≠ .bootstrap bootstrap
      · have hactive : w.suite.IsActive := by
          by_contra hinactive
          obtain ⟨bootstrap, hop⟩ := Suite.call_inactive hinactive hop
          exact hother bootstrap hop
        exact .call hactive (Suite.call_effect hconsistent.registered hactive hother hop)
      · obtain ⟨bootstrap, rfl⟩ := not_forall_not.mp hother
        exact .bootstrap (Suite.callBootstrap_step hconsistent hop)
  | openSponsor sender repoId message value =>
      simp only [World.next, bind_eq_ok, pure_eq_ok] at hnext
      obtain ⟨opened, hopen, rfl⟩ := hnext
      obtain ⟨hactive, hfrozen⟩ := Suite.openSponsor_not_frozen opened hopen
      obtain ⟨hvalue, -, fee, distributable, -, -, -, rfl⟩ := Suite.openSponsor_ok opened hopen
      exact .openSponsor hactive hvalue hfrozen
  | closeSponsor =>
      rw [World.next, pure_eq_ok] at hnext
      exact hnext ▸ .closeSponsor
  | wait elapsed =>
      rw [World.next, pure_eq_ok] at hnext
      exact hnext ▸ .wait

/-- Every move takes one step on the books, and its phase joins the run's. -/
theorem Effect.setupStep (h : w.Effect d move w') :
    ∃ phase, SetupStep d w.suite.setup phase w'.suite.setup ∧
      phases w'.history = phases w.history ++ phase.toList := by
  cases h with
  | @call sender op s' hactive heffect =>
      obtain ⟨hsame, hphase⟩ := heffect.setup_eq
      have hidle : SetupStep d w.suite.setup op.phase s'.setup := by
        rw [hsame, hphase]
        exact .idle
      exact ⟨_, hidle, phases_push⟩
  | bootstrap hstep =>
      refine ⟨_, ?_, phases_push⟩
      cases hstep with
      | books _ _ hstep => exact hstep
      | openClaims _ _ hstep => exact hstep
      | batch _ _ _ hstep => exact hstep
  | openSponsor => exact ⟨_, .idle, phases_push⟩
  | closeSponsor | wait => exact ⟨none, .idle, (List.append_nil _).symm⟩

end World

/-- The books are consistent in every run. -/
theorem Reachable.consistent {d : Deployment} {w : World} (h : Reachable d w) :
    w.suite.setup.Consistent d := by
  refine h.invariant (P := fun w => w.suite.setup.Consistent d) d.initialSuite_consistent ?_
  intro before after move hnext hbefore
  obtain ⟨phase, hstep, -⟩ := (World.next_effect hbefore hnext).setupStep
  exact hbefore.step hstep

/-- The directory of every reachable world is right. -/
theorem Reachable.registered {d : Deployment} {w : World} (h : Reachable d w) :
    w.suite.Registered d := h.consistent.registered

/-- A move from a reachable world has one of the effects of moves. -/
theorem Reachable.effect {d : Deployment} {w w' : World} {move : Move d} (h : Reachable d w)
    (hnext : w.next move = .ok w') : w.Effect d move w' := World.next_effect h.consistent hnext

/-! ## Order -/

/-- A phase may come after `last`, or open the bootstrap. -/
def Phase.Next (phase : Phase) : Option Phase → Prop
  | none => phase = .began .core
  | some last => last.Follows phase

/-- A phase that may come next joins the phases in order. -/
theorem InOrder.push {phases : List Phase} {phase : Phase} (h : InOrder phases)
    (hnext : phase.Next phases.getLast?) : InOrder (phases ++ [phase]) := by
  constructor
  · intro head hhead
    cases phases with
    | nil =>
        rw [List.nil_append, List.head?_cons, Option.some.injEq] at hhead
        rw [← hhead]
        exact hnext
    | cons earlier rest => exact h.first head hhead
  · refine List.isChain_append.mpr ⟨h.next, .singleton phase, ?_⟩
    intro last hlast other hother
    rw [List.head?_cons, Option.mem_some] at hother
    subst hother
    rw [Option.mem_def] at hlast
    rw [hlast] at hnext
    exact hnext

namespace Setup

variable {d : Deployment} {u u' : Setup} {last : Option Phase} {phase : Phase} {m : Module}

/-- Where the last phase of a run leaves the bootstrap. -/
def Reached (u : Setup) : Option Phase → Prop
  | none => u.coordinator.nextModuleIndex = 0 ∧ (u.bootstrap .core).bootstrapStarted = false
  | some (.began m) | some (.imported m _) =>
      u.coordinator.nextModuleIndex = m.index ∧ (u.bootstrap m).bootstrapStarted = true
  | some (.finalized m) =>
      u.coordinator.nextModuleIndex = m.index + 1 ∧
        ∀ n : Module, n.index = m.index + 1 → (u.bootstrap n).bootstrapStarted = false

/-- A module that has not been started is begun at the opening or after the one before it. -/
theorem Reached.began_next (h : u.Reached last) (hturn : u.coordinator.nextModuleIndex = m.index)
    (hunstarted : (u.bootstrap m).bootstrapStarted = false) : (Phase.began m).Next last := by
  have hstarted : ∀ n : Module, u.coordinator.nextModuleIndex = n.index →
      (u.bootstrap n).bootstrapStarted = true → False := by
    intro n hn hstarted
    rw [Module.index_injective (hn.symm.trans hturn), hunstarted] at hstarted
    cases hstarted
  cases last with
  | none => exact congrArg Phase.began (Module.index_injective (hturn.symm.trans h.1))
  | some last =>
      cases last with
      | began n => exact (hstarted n h.1 h.2).elim
      | imported n batch => exact (hstarted n h.1 h.2).elim
      | finalized n => exact .nextModule n m (hturn.symm.trans h.1)

/-- A module that has been started was begun or imported last. -/
theorem Reached.started_last (h : u.Reached last) (hturn : u.coordinator.nextModuleIndex = m.index)
    (hstarted : (u.bootstrap m).bootstrapStarted = true) :
    last = some (.began m) ∨ ∃ batch, last = some (.imported m batch) := by
  cases last with
  | none =>
      have hcore : m = .core := Module.index_injective (hturn.symm.trans h.1)
      rw [hcore, h.2] at hstarted
      cases hstarted
  | some last =>
      cases last with
      | began n => exact .inl (by rw [Module.index_injective (h.1.symm.trans hturn)])
      | imported n batch =>
          exact .inr ⟨batch, by rw [Module.index_injective (h.1.symm.trans hturn)]⟩
      | finalized n =>
          rw [h.2 m (hturn.symm.trans h.1)] at hstarted
          cases hstarted

/-- The phase of a step may come after the last one. -/
theorem Reached.next (h : u.Reached last) (hstep : SetupStep d u (some phase) u') :
    phase.Next last := by
  cases hstep with
  | start m count batches root hopen hcan => exact h.began_next hcan.turn hcan.unstarted
  | batch m sequence batch hopen hcan =>
      rcases h.started_last hcan.turn hcan.started with hlast | ⟨previous, hlast⟩
      · rw [hlast]
        exact .firstBatch m batch
      · rw [hlast]
        exact .nextBatch m previous batch
  | finish m hopen hcan =>
      rcases h.started_last hcan.turn hcan.started with hlast | ⟨previous, hlast⟩
      · rw [hlast]
        exact .noBatch m
      · rw [hlast]
        exact .lastBatch m previous

/-- A step reaches its phase. -/
theorem Consistent.reached (h : u.Consistent d) (hstep : SetupStep d u (some phase) u') :
    u'.Reached (some phase) := by
  cases hstep with
  | start m count batches root hopen hcan =>
      refine ⟨hcan.turn, ?_⟩
      show (Function.update u.bootstrap m _ m).bootstrapStarted = true
      rw [Function.update_self]
  | batch m sequence batch hopen hcan =>
      refine ⟨hcan.turn, ?_⟩
      show (Function.update u.bootstrap m _ m).bootstrapStarted = true
      rw [Function.update_self]
      exact hcan.started
  | finish m hopen hcan =>
      refine ⟨finalized_turn hcan.turn, fun n hn => ?_⟩
      have hne : n ≠ m := fun heq => by
        rw [heq] at hn
        omega
      show (Function.update u.bootstrap m _ n).bootstrapStarted = false
      rw [Function.update_of_ne hne, h.ahead n (by rw [hcan.turn]; omega)]
      rfl

/-- A step without a phase stays where it is. -/
theorem Reached.quiet (h : u.Reached last) (hstep : SetupStep d u none u') : u'.Reached last := by
  have hsame : u'.coordinator.nextModuleIndex = u.coordinator.nextModuleIndex ∧
      u'.bootstrap = u.bootstrap := by
    cases hstep <;> exact ⟨rfl, rfl⟩
  cases last with
  | none =>
      rw [Reached, hsame.1, hsame.2]
      exact h
  | some last =>
      cases last <;>
      · rw [Reached, hsame.1, hsame.2]
        exact h

end Setup

/-- The phases of every run are in order. -/
theorem Reachable.inOrder {d : Deployment} {w : World} (h : Reachable d w) :
    InOrder (phases w.history) := by
  -- the next phase fits the last one because the books say which that was
  refine (h.run_invariant (P := fun w => InOrder (phases w.history) ∧
    w.suite.setup.Reached (phases w.history).getLast?)
    ⟨⟨by simp [phases, World.initial], .nil⟩, rfl, rfl⟩ ?_).1
  intro before after move hreach hnext hbefore
  obtain ⟨horder, hreached⟩ := hbefore
  obtain ⟨phase, hstep, hphases⟩ := (hreach.effect hnext).setupStep
  rw [hphases]
  cases phase with
  | none =>
      rw [Option.toList_none, List.append_nil]
      exact ⟨horder, hreached.quiet hstep⟩
  | some phase =>
      rw [Option.toList_some, List.getLast?_concat]
      exact ⟨horder.push (hreached.next hstep), hreach.consistent.reached hstep⟩

/-! ## After activation -/

namespace Setup

variable {d : Deployment} {u u' : Setup} {phase : Option Phase}

/-- Every module of an active suite is finalized. -/
theorem Consistent.finalized_of_active (h : u.Consistent d) (hactive : u.directory.state = .active)
    (m : Module) : (u.bootstrap m).bootstrapFinalized = true := by
  apply h.done
  rw [(h.complete hactive).1]
  exact m.index_lt

/-- No step touches the books of an active suite. -/
theorem Consistent.frozen (h : u.Consistent d) (hactive : u.directory.state = .active)
    (hstep : SetupStep d u phase u') : u' = u := by
  have hbootstrapping : u.directory.state ≠ .bootstrapping := by
    rw [hactive]
    decide
  have hclosed : u.coordinator.activated ≠ false := by
    rw [h.active_iff.mp hactive]
    decide
  cases hstep with
  | idle => rfl
  | coordinate hstate => exact absurd hstate hbootstrapping
  | enroll m hstate => exact absurd hstate hbootstrapping
  | attest evidence hopen => exact absurd hopen hclosed
  | start m count batches root hopen => exact absurd hopen hclosed
  | batch m sequence batch hopen => exact absurd hopen hclosed
  | finish m hopen => exact absurd hopen hclosed
  | activate hopen => exact absurd hopen hclosed

end Setup

/-- The books of an active suite stay as they are in every run from there. -/
theorem Reachable.frozen {d : Deployment} {w w' : World} (h : Reachable d w)
    (hactive : w.suite.IsActive) (hrun : Leads d w w') : w'.suite.setup = w.suite.setup := by
  have hkept : Reachable d w' ∧ w'.suite.setup = w.suite.setup := by
    refine reflTransGen_preserves (P := fun after =>
      Reachable d after ∧ after.suite.setup = w.suite.setup) ?_ hrun ⟨h, rfl⟩
    intro before after hstep hbefore
    obtain ⟨move, hnext⟩ := hstep
    obtain ⟨hreachable, hsame⟩ := hbefore
    obtain ⟨phase, hstep, -⟩ := (hreachable.effect hnext).setupStep
    refine ⟨hreachable.next hnext, (hreachable.consistent.frozen ?_ hstep).trans hsame⟩
    rw [hsame]
    exact hactive
  exact hkept.2

/-- An active suite stays active. -/
theorem Reachable.active_next {d : Deployment} {w w' : World} {move : Move d} (h : Reachable d w)
    (hactive : w.suite.IsActive) (hnext : w.next move = .ok w') : w'.suite.IsActive := by
  have hsame := h.frozen hactive (.single ⟨move, hnext⟩)
  rw [Suite.IsActive, show w'.suite.directory = w.suite.directory from congrArg Setup.directory hsame]
  exact hactive

namespace Suite

variable {d : Deployment} {s s' : Suite} {msg : Message}

/-- Neither side of an active bootstrap accepts an import. -/
theorem no_import_of_active (h : s.setup.Consistent d) (hactive : s.IsActive) (id : ModuleId)
    (m : Module) (sequence count : Nat) (payloadHash : Bytes32) (payload : Bytes) :
    s.importBatch d msg id sequence count payloadHash payload ≠ .ok s' ∧
      s.bootstrapImport d msg m sequence count payloadHash payload ≠ .ok s' := by
  constructor
  · intro himport
    obtain ⟨⟨-, hopen⟩, -⟩ := importBatch_eq_ok.mp himport
    exact h.not_active hopen hactive
  · intro himport
    simp only [bootstrapImport, bind_eq_ok, revertIf_eq_ok, exists_unit] at himport
    obtain ⟨-, -, hunfinalized, -⟩ := himport
    exact hunfinalized (h.finalized_of_active hactive m)

end Suite

/-- In every run the coordinator's records agree with the modules' own, the modules are begun,
imported and finalized in the fixed order, and an active suite has all seven modules registered at
their own addresses with their own code, finalized, and the escrow attested. From then on it stays
active, the directory keeps every address and code hash, and no import succeeds. -/
theorem bootstrap_agrees_in_order_and_freezes {d : Deployment} {w : World} (h : Reachable d w) :
    (∀ m, w.suite.coordinator.moduleProgress m = (w.suite.bootstrap m).toProgress) ∧
    InOrder (phases w.history) ∧
    (w.suite.IsActive →
      w.suite.directory.bootstrapCoordinator = d.bootstrapCoordinator ∧
      w.suite.coordinator.usernameEscrowEvidenceHash ≠ 0 ∧
      ∀ m, w.suite.moduleAddress m = d.moduleAt m ∧
        w.suite.directory.moduleCodeHash m = d.codeHash (d.moduleAt m) ∧
        (w.suite.bootstrap m).bootstrapFinalized = true) ∧
    (w.suite.IsActive → ∀ w', Leads d w w' →
      w'.suite.IsActive ∧
      (∀ m, w'.suite.moduleAddress m = w.suite.moduleAddress m ∧
        w'.suite.directory.moduleCodeHash m = w.suite.directory.moduleCodeHash m) ∧
      ∀ msg id m sequence count payloadHash payload s',
        w'.suite.importBatch d msg id sequence count payloadHash payload ≠ .ok s' ∧
        w'.suite.bootstrapImport d msg m sequence count payloadHash payload ≠ .ok s') := by
  have hconsistent := h.consistent
  refine ⟨hconsistent.agrees, h.inOrder, ?_, ?_⟩
  · intro hactive
    obtain ⟨-, hevidence, hcoordinator, hregistered⟩ := hconsistent.complete hactive
    refine ⟨hcoordinator, hevidence, fun m => ?_⟩
    obtain ⟨haddress, hcode⟩ := hconsistent.enrolled m (hregistered m)
    exact ⟨haddress, hcode, hconsistent.finalized_of_active hactive m⟩
  · intro hactive w' hrun
    have hsame := h.frozen hactive hrun
    have hdirectory : w'.suite.directory = w.suite.directory := congrArg Setup.directory hsame
    have hactive' : w'.suite.IsActive := by
      rw [Suite.IsActive, hdirectory]
      exact hactive
    refine ⟨hactive', fun m => ?_, ?_⟩
    · rw [Suite.moduleAddress, Suite.moduleAddress, hdirectory]
      exact ⟨rfl, rfl⟩
    · intro msg id m sequence count payloadHash payload s'
      exact Suite.no_import_of_active (h.leads hrun).consistent hactive' id m sequence count
        payloadHash payload

namespace Sample

/-- `alice` registers a name once the suite is open. -/
def opened : World := genesis.run [callAfter 1 alice (.registry (.registerUsername [0x61, 0x62, 0x63]))]

theorem opened_reachable : Reachable deployment opened := genesis_reachable _

/-- The suite is active after the bootstrap, so all of it is registered and finalized. -/
theorem opened_books :
    opened.suite.IsActive ∧ opened.suite.coordinator.usernameEscrowEvidenceHash ≠ 0 ∧
      InOrder (phases opened.history) ∧
      ∀ m, opened.suite.coordinator.moduleProgress m = (opened.suite.bootstrap m).toProgress := by
  have hactive : opened.suite.IsActive := by decide +kernel
  obtain ⟨hagrees, horder, hcomplete, -⟩ := bootstrap_agrees_in_order_and_freezes opened_reachable
  exact ⟨hactive, (hcomplete hactive).2.1, horder, hagrees⟩

end Sample

end Igit
