import Igit.Contracts.Bootstrap

/-!
# Transactions and runs

`Suite.call` is one external call of any of the nine contracts. A transaction is such a call, or
a `sponsor` call together with what the accounts it pays do before they return: `Tx.exec` runs
it, with every call a payee makes back into the suite. `Move` cuts a transaction at the payouts,
so that the state a payee sees is a state of the run too, and `Tx.exec_steps` says that every
transaction is a sequence of moves. `Reachable` collects the states of all runs of moves: any
calls by any outside accounts, at any times, in any order. The bootstrap of `Sample.deployment`, with
nothing to import, ends in an active suite (`Sample.genesis`).
-/

namespace Igit

open Fallible

/-! ## External calls -/

/-- The external functions of `RepositoryCore` that change state. -/
inductive CoreOp where
  | createRepository (name description defaultBranch : Bytes)
  | forkRepository (sourceRepoId : Bytes32) (newName : Bytes)
  | updateMetadata (repoId : Bytes32) (updateDescription : Bool) (description : Bytes)
      (updateDefaultBranch : Bool) (defaultBranch : Bytes)
  | updateRef (repoId : Bytes32) (refName commitSha : Bytes) (packUris : List Bytes)
      (expectedSha : Bytes) (force : Bool)
  | deleteRef (repoId : Bytes32) (refName : Bytes)
  | setCollaborator (repoId : Bytes32) (account : Address) (role : Role)
  | beginOwnershipTransfer (repoId : Bytes32) (newOwner : Address)
  | cancelOwnershipTransfer (repoId : Bytes32)
  | acceptOwnershipTransfer (repoId : Bytes32)
  | expireOwnershipTransfer (repoId : Bytes32)
  | recoverOwnership (repoId : Bytes32) (newOwner : Address)
  deriving DecidableEq, Repr

/-- The external functions of `RecoveryModule` that change state. -/
inductive RecoveryOp where
  | setGuardians (repoId : Bytes32) (guardians : List Address) (threshold : Nat)
  | proposeRecovery (repoId : Bytes32) (newOwner : Address)
  | approveRecovery (repoId : Bytes32)
  | cancelRecovery (repoId : Bytes32)
  | executeRecovery (repoId : Bytes32)
  deriving DecidableEq, Repr

/-- The external functions of `ModerationModule` that change state. -/
inductive ModerationOp where
  | setCommittee (newCommittee : Address)
  | setRepositoryStatus (repoId : Bytes32) (status : RepoStatus) (reasonHash : Bytes)
  | submitReport (repoId : Bytes32) (reasonHash : Bytes)
  | resolveReport (reportId : Nat) (status : RepoStatus) (reasonHash : Bytes)
  | appealReport (reportId : Nat) (reasonHash : Bytes)
  | resolveAppeal (reportId : Nat) (status : RepoStatus) (reasonHash : Bytes)
  deriving DecidableEq, Repr

/-- The external functions of `EconomicModule` that change state, apart from `sponsor`. -/
inductive EconomicOp where
  | setRevenueSplits (repoId : Bytes32) (recipients : List Address) (bps : List Nat)
  | setFeeConfig (newTreasury : Address) (newPlatformFeeBps : Nat)
  | clearRevenueSplitsOnOwnershipTransfer (repoId : Bytes32)
  deriving DecidableEq, Repr

/-- The external functions of the username, badge and release modules that change state. -/
inductive RegistryOp where
  | registerUsername (name : Bytes)
  | claimOriginalUsername (name : Bytes)
  | releaseUsername
  | setReserved (name : Bytes) (reserved : Bool)
  | awardBadge (repoId : Bytes32) (recipient : Address) (reason : Bytes)
  | registerArtifact (version platform : Bytes) (digest : Bytes32)
  deriving DecidableEq, Repr

/-- The external functions of the directory, the coordinator and `SuiteModule`. -/
inductive BootstrapOp where
  | setBootstrapCoordinator (coordinator : Address) (expectedCodeHash : Bytes32)
  | configureModule (id : ModuleId) (module : Address) (expectedCodeHash : Bytes32)
  | activate
  | registerModule (id : ModuleId) (module : Address) (codeHash : Bytes32)
  | beginNextModule (id : ModuleId) (expectedCount expectedBatches : Nat) (expectedRoot : Bytes32)
  | importBatch (id : ModuleId) (sequence count : Nat) (payloadHash : Bytes32) (payload : Bytes)
  | finalizeCurrentModule (id : ModuleId)
  | attestUsernameEscrowReleased (evidenceHash : Bytes32)
  | activateSuite
  | beginBootstrap (m : Module) (expectedCount expectedBatches : Nat)
      (expectedRoot snapshotRoot : Bytes32)
  | bootstrapImport (m : Module) (sequence count : Nat) (payloadHash : Bytes32) (payload : Bytes)
  | finalizeBootstrap (m : Module)
  deriving DecidableEq, Repr

/-- An external call of one of the nine contracts. -/
inductive Op where
  | core (op : CoreOp)
  | recovery (op : RecoveryOp)
  | moderation (op : ModerationOp)
  | economic (op : EconomicOp)
  | registry (op : RegistryOp)
  | bootstrap (op : BootstrapOp)
  deriving DecidableEq, Repr

namespace Suite

variable (d : Deployment) (s : Suite) (msg : Message)

/-- A call of `RepositoryCore`. -/
def callCore : CoreOp → Except Revert Suite
  | .createRepository name description defaultBranch => do
      let (created, _) ← s.createRepository d msg name description defaultBranch
      pure created
  | .forkRepository sourceRepoId newName => do
      let (forked, _) ← s.forkRepository d msg sourceRepoId newName
      pure forked
  | .updateMetadata repoId updateDescription description updateDefaultBranch defaultBranch =>
      s.updateMetadata msg repoId updateDescription description updateDefaultBranch defaultBranch
  | .updateRef repoId refName commitSha packUris expectedSha force =>
      s.updateRef d msg repoId refName commitSha packUris expectedSha force
  | .deleteRef repoId refName => s.deleteRef d msg repoId refName
  | .setCollaborator repoId account role => s.setCollaborator msg repoId account role
  | .beginOwnershipTransfer repoId newOwner => s.beginOwnershipTransfer d msg repoId newOwner
  | .cancelOwnershipTransfer repoId => s.cancelOwnershipTransfer d msg repoId
  | .acceptOwnershipTransfer repoId => s.acceptOwnershipTransfer d msg repoId
  | .expireOwnershipTransfer repoId => s.expireOwnershipTransfer d msg repoId
  | .recoverOwnership repoId newOwner => s.recoverOwnership d msg repoId newOwner

/-- A call of `RecoveryModule`. -/
def callRecovery : RecoveryOp → Except Revert Suite
  | .setGuardians repoId guardians threshold => s.setGuardians msg repoId guardians threshold
  | .proposeRecovery repoId newOwner => s.proposeRecovery msg repoId newOwner
  | .approveRecovery repoId => s.approveRecovery msg repoId
  | .cancelRecovery repoId => s.cancelRecovery msg repoId
  | .executeRecovery repoId => s.executeRecovery d msg repoId

/-- A call of `ModerationModule`. -/
def callModeration : ModerationOp → Except Revert Suite
  | .setCommittee newCommittee => s.setCommittee d msg newCommittee
  | .setRepositoryStatus repoId status reasonHash =>
      s.setRepositoryStatus d msg repoId status reasonHash
  | .submitReport repoId reasonHash => do
      let (submitted, _) ← s.submitReport msg repoId reasonHash
      pure submitted
  | .resolveReport reportId status reasonHash => s.resolveReport d msg reportId status reasonHash
  | .appealReport reportId reasonHash => s.appealReport d msg reportId reasonHash
  | .resolveAppeal reportId status reasonHash => s.resolveAppeal d msg reportId status reasonHash

/-- A call of `EconomicModule` other than `sponsor`. -/
def callEconomic : EconomicOp → Except Revert Suite
  | .setRevenueSplits repoId recipients bps => s.setRevenueSplits msg repoId recipients bps
  | .setFeeConfig newTreasury newPlatformFeeBps => s.setFeeConfig d msg newTreasury newPlatformFeeBps
  | .clearRevenueSplitsOnOwnershipTransfer repoId =>
      s.clearRevenueSplitsOnOwnershipTransfer d msg repoId

/-- A call of the username, badge or release module. -/
def callRegistry : RegistryOp → Except Revert Suite
  | .registerUsername name => s.registerUsername d msg name
  | .claimOriginalUsername name => s.claimOriginalUsername d msg name
  | .releaseUsername => s.releaseUsername d msg
  | .setReserved name reserved => s.setReserved d msg name reserved
  | .awardBadge repoId recipient reason => do
      let (awarded, _) ← s.awardBadge msg repoId recipient reason
      pure awarded
  | .registerArtifact version platform digest => s.registerArtifact d msg version platform digest

/-- A call of the directory, the coordinator or the bootstrap side of a module. -/
def callBootstrap : BootstrapOp → Except Revert Suite
  | .setBootstrapCoordinator coordinator expectedCodeHash =>
      s.setBootstrapCoordinator d msg coordinator expectedCodeHash
  | .configureModule id module expectedCodeHash => s.configureModule d msg id module expectedCodeHash
  | .activate => s.activate d msg
  | .registerModule id module codeHash => s.registerModule d msg id module codeHash
  | .beginNextModule id expectedCount expectedBatches expectedRoot =>
      s.beginNextModule d msg id expectedCount expectedBatches expectedRoot
  | .importBatch id sequence count payloadHash payload =>
      s.importBatch d msg id sequence count payloadHash payload
  | .finalizeCurrentModule id => s.finalizeCurrentModule d msg id
  | .attestUsernameEscrowReleased evidenceHash => s.attestUsernameEscrowReleased d msg evidenceHash
  | .activateSuite => s.activateSuite d msg
  | .beginBootstrap m expectedCount expectedBatches expectedRoot snapshotRoot =>
      s.beginBootstrap d msg m expectedCount expectedBatches expectedRoot snapshotRoot
  | .bootstrapImport m sequence count payloadHash payload =>
      s.bootstrapImport d msg m sequence count payloadHash payload
  | .finalizeBootstrap m => s.finalizeBootstrap d msg m

/-- One external call. -/
def call : Op → Except Revert Suite
  | .core op => s.callCore d msg op
  | .recovery op => s.callRecovery d msg op
  | .moderation op => s.callModeration d msg op
  | .economic op => s.callEconomic d msg op
  | .registry op => s.callRegistry d msg op
  | .bootstrap op => s.callBootstrap d msg op

end Suite

/-! ## Worlds and moves -/

/-- What a successful call was. -/
inductive Event where
  | call (op : Op)
  | sponsor (repoId : Bytes32) (message : Bytes) (value : Nat)
  deriving DecidableEq, Repr

/-- A successful call: who made it and when. -/
structure Record where
  sender : Address
  timestamp : Nat
  event : Event
  deriving DecidableEq, Repr

/-- The suite, the block timestamp, and the successful calls so far, oldest first. -/
structure World where
  suite : Suite
  now : Nat
  history : List Record

/-- The world right after deployment. -/
def World.initial (d : Deployment) : World := ⟨d.initialSuite, 0, []⟩

/-- A step of a run: an outside account's call, the two ends of a `sponsor` call, or the passing
of time. -/
inductive Move (d : Deployment) where
  | call (sender : Account d) (op : Op)
  | openSponsor (sender : Account d) (repoId : Bytes32) (message : Bytes) (value : Nat)
  | closeSponsor
  | wait (elapsed : Nat)

namespace World

variable {d : Deployment} (w : World)

/-- The result of one move. -/
def next : Move d → Except Revert World
  | .call sender op => do
      let suite ← w.suite.call d ⟨sender.address, w.now⟩ op
      pure ⟨suite, w.now, w.history ++ [⟨sender.address, w.now, .call op⟩]⟩
  | .openSponsor sender repoId message value => do
      let (suite, _) ← w.suite.openSponsor d repoId message value
      pure ⟨suite, w.now, w.history ++ [⟨sender.address, w.now, .sponsor repoId message value⟩]⟩
  | .closeSponsor => pure ⟨w.suite.closeSponsor, w.now, w.history⟩
  | .wait elapsed => pure ⟨w.suite, w.now + elapsed, w.history⟩

end World

/-- Some move leads from `before` to `after`. -/
def Step (d : Deployment) (before after : World) : Prop :=
  ∃ move : Move d, before.next move = .ok after

/-- Some sequence of moves leads from `start` to `finish`. -/
abbrev Leads (d : Deployment) : World → World → Prop := Relation.ReflTransGen (Step d)

/-- A state of some run of the deployed suite. -/
def Reachable (d : Deployment) (w : World) : Prop := Leads d (World.initial d) w

/-- What follows a reachable state is reachable. -/
theorem Reachable.leads {d : Deployment} {w w' : World} (h : Reachable d w) (hrun : Leads d w w') :
    Reachable d w' :=
  Relation.ReflTransGen.trans h hrun

/-- One move from a reachable state reaches another. -/
theorem Reachable.next {d : Deployment} {w w' : World} {move : Move d} (h : Reachable d w)
    (hmove : w.next move = .ok w') : Reachable d w' :=
  Relation.ReflTransGen.tail h ⟨move, hmove⟩

/-- An invariant of the initial state and of every move holds in every reachable state. -/
theorem Reachable.invariant {d : Deployment} {P : World → Prop} (hinitial : P (World.initial d))
    (hmove : ∀ (w w' : World) (move : Move d), w.next move = .ok w' → P w → P w')
    {w : World} (h : Reachable d w) : P w := by
  refine reflTransGen_preserves ?_ h hinitial
  rintro before after ⟨move, hnext⟩ hbefore
  exact hmove before after move hnext hbefore

/-- The invariant may use what is known of reachable states. -/
theorem Reachable.run_invariant {d : Deployment} {P : World → Prop}
    (hinitial : P (World.initial d))
    (hmove : ∀ (w w' : World) (move : Move d), Reachable d w → w.next move = .ok w' → P w → P w')
    {w : World} (h : Reachable d w) : P w := by
  induction h with
  | refl => exact hinitial
  | tail hrun hstep ih =>
      obtain ⟨move, hnext⟩ := hstep
      exact hmove _ _ move hrun hnext ih

/-! ## Runs under a condition -/

/-- Some move that meets `G` where it is made leads from `before` to `after`. -/
def GuardedStep (d : Deployment) (G : World → Move d → Prop) (before after : World) : Prop :=
  ∃ move, G before move ∧ before.next move = .ok after

/-- Some sequence of moves that meet `G` leads from `start` to `finish`. -/
abbrev GuardedLeads (d : Deployment) (G : World → Move d → Prop) : World → World → Prop :=
  Relation.ReflTransGen (GuardedStep d G)

/-- A run under a condition is a run. -/
theorem GuardedLeads.leads {d : Deployment} {G : World → Move d → Prop} {w w' : World}
    (h : GuardedLeads d G w w') : Leads d w w' := by
  have hmove : ∀ before after, GuardedStep d G before after → Step d before after :=
    fun _ _ ⟨move, _, hnext⟩ => ⟨move, hnext⟩
  exact Relation.ReflTransGen.mono hmove _ _ h

/-- Make moves one after the other, skipping those that revert. -/
def World.follow {d : Deployment} (w : World) : List (Move d) → World
  | [] => w
  | move :: rest =>
      match w.next move with
      | .ok after => after.follow rest
      | .error _ => w.follow rest

/-- Every move of the list that does not revert meets `G` where it is made. -/
def World.Meets {d : Deployment} (G : World → Move d → Prop) (w : World) : List (Move d) → Prop
  | [] => True
  | move :: rest =>
      match w.next move with
      | .ok after => G w move ∧ after.Meets G rest
      | .error _ => w.Meets G rest

/-- The condition of a list of moves is checked by making them. -/
instance World.decidableMeets {d : Deployment} (G : World → Move d → Prop)
    [∀ w move, Decidable (G w move)] (w : World) : ∀ moves, Decidable (w.Meets G moves)
  | [] => .isTrue trivial
  | move :: rest =>
      match h : w.next move with
      | .ok after =>
          have := decidableMeets G after rest
          decidable_of_iff (G w move ∧ after.Meets G rest) (by rw [World.Meets, h])
      | .error _ =>
          have := decidableMeets G w rest
          decidable_of_iff (w.Meets G rest) (by rw [World.Meets, h])

/-- Moves that meet `G` are a run under `G`. -/
theorem World.follow_guarded {d : Deployment} {G : World → Move d → Prop} {w : World}
    {moves : List (Move d)} (h : w.Meets G moves) : GuardedLeads d G w (w.follow moves) := by
  induction moves generalizing w with
  | nil => exact .refl
  | cons move rest ih =>
      rw [World.Meets] at h
      rw [World.follow]
      cases hnext : w.next move with
      | error reason =>
          rw [hnext] at h
          exact ih h
      | ok after =>
          rw [hnext] at h
          exact .head ⟨move, h.1, hnext⟩ (ih h.2)

/-! ## Transactions -/

mutual

/-- A transaction. A `sponsor` call comes with the behaviour of the accounts it pays. -/
inductive Tx (d : Deployment) where
  | call (sender : Account d) (op : Op)
  | sponsor (sender : Account d) (repoId : Bytes32) (message : Bytes) (value : Nat)
      (payees : Payees d)

/-- The behaviour of the accounts a `sponsor` call pays, in the order of the payouts: the calls
each makes before it returns, and whether it accepts the payment. -/
inductive Payees (d : Deployment) where
  | nil
  | cons (calls : Calls d) (accepts : Bool) (rest : Payees d)

/-- A sequence of calls. -/
inductive Calls (d : Deployment) where
  | nil
  | cons (tx : Tx d) (rest : Calls d)

end

mutual

/-- Run a transaction. -/
def Tx.exec {d : Deployment} (w : World) : Tx d → Except Revert World
  | .call sender op => w.next (.call sender op)
  | .sponsor sender repoId message value payees => do
      let (_, settlement) ← w.suite.openSponsor d repoId message value
      let opened ← w.next (.openSponsor sender repoId message value)
      let (settled, _) ← payees.settle settlement .treasury opened
      settled.next (.closeSponsor : Move d)

/-- The payouts of a running `sponsor` call from `stage` on, with the payments made. A payee that
refuses its payment reverts the whole call. -/
def Payees.settle {d : Deployment} (settlement : Suite.Settlement) (stage : Suite.Stage)
    (w : World) : Payees d → Except Revert (World × List Suite.Payment)
  | .nil => throw .gasExhausted
  | .cons calls accepts rest => do
      let (payment, following) ← w.suite.nextPayout settlement stage
      let answered := calls.exec w
      revertIf (accepts = false) (.payoutFailed payment.recipient payment.amount)
      match following with
      | none => pure (answered, [payment])
      | some stage => do
          let (settled, payments) ← rest.settle settlement stage answered
          pure (settled, payment :: payments)

/-- Run a sequence of calls. A call that reverts is undone, and the next one follows. -/
def Calls.exec {d : Deployment} (w : World) : Calls d → World
  | .nil => w
  | .cons tx rest =>
      match tx.exec w with
      | .ok called => rest.exec called
      | .error _ => rest.exec w

end

mutual

/-- A successful transaction is a sequence of moves. -/
theorem Tx.exec_steps {d : Deployment} {w w' : World} (tx : Tx d) (h : tx.exec w = .ok w') :
    Leads d w w' := by
  cases tx with
  | call sender op =>
      rw [Tx.exec] at h
      exact .single ⟨_, h⟩
  | sponsor sender repoId message value payees =>
      simp only [Tx.exec, bind_eq_ok] at h
      obtain ⟨⟨_, settlement⟩, -, opened, hopen, ⟨settled, payments⟩, hsettle, hclose⟩ := h
      have hpaid := payees.settle_steps hsettle
      exact (Relation.ReflTransGen.head ⟨_, hopen⟩ hpaid).tail ⟨_, hclose⟩

/-- The payouts of a `sponsor` call, with the calls made during them, are a sequence of moves. -/
theorem Payees.settle_steps {d : Deployment} {settlement : Suite.Settlement} {stage : Suite.Stage}
    {w w' : World} {payments : List Suite.Payment} (payees : Payees d)
    (h : payees.settle settlement stage w = .ok (w', payments)) : Leads d w w' := by
  cases payees with
  | nil => simp [Payees.settle] at h
  | cons calls accepts rest =>
      simp only [Payees.settle, bind_eq_ok, revertIf_eq_ok, exists_unit] at h
      obtain ⟨⟨payment, following⟩, -, -, h⟩ := h
      have hcalls : Leads d w (calls.exec w) := calls.exec_steps
      cases following with
      | none =>
          rw [pure_eq_ok, Prod.mk.injEq] at h
          exact h.1 ▸ hcalls
      | some following =>
          simp only [bind_eq_ok, pure_eq_ok, Prod.mk.injEq] at h
          obtain ⟨⟨settled, paid⟩, hrest, rfl, -⟩ := h
          exact hcalls.trans (rest.settle_steps hrest)

/-- A sequence of calls, with the reverted ones undone, is a sequence of moves. -/
theorem Calls.exec_steps {d : Deployment} {w : World} (calls : Calls d) :
    Leads d w (calls.exec w) := by
  cases calls with
  | nil => exact .refl
  | cons tx rest =>
      rw [Calls.exec]
      cases hexec : tx.exec w with
      | error reason => exact rest.exec_steps
      | ok called => exact (tx.exec_steps hexec).trans rest.exec_steps

end

/-- Run transactions one after the other, each `elapsed` seconds after the one before. A reverted
transaction leaves the world as it was. -/
def World.run {d : Deployment} (w : World) : List (Nat × Tx d) → World
  | [] => w
  | (elapsed, tx) :: rest =>
      let later : World := ⟨w.suite, w.now + elapsed, w.history⟩
      match tx.exec later with
      | .ok after => after.run rest
      | .error _ => later.run rest

/-- Running transactions is a sequence of moves. -/
theorem World.run_steps {d : Deployment} (w : World) (txs : List (Nat × Tx d)) :
    Leads d w (w.run txs) := by
  induction txs generalizing w with
  | nil => exact .refl
  | cons head rest ih =>
      obtain ⟨elapsed, tx⟩ := head
      have hwait : Leads d w ⟨w.suite, w.now + elapsed, w.history⟩ :=
        .single ⟨.wait elapsed, rfl⟩
      rw [World.run]
      cases hexec : tx.exec ⟨w.suite, w.now + elapsed, w.history⟩ with
      | error reason => exact hwait.trans (ih _)
      | ok after => exact (hwait.trans (tx.exec_steps hexec)).trans (ih _)

/-- Every list of transactions leads to a reachable world. -/
theorem reachable_run {d : Deployment} (txs : List (Nat × Tx d)) :
    Reachable d ((World.initial d).run txs) :=
  (World.initial d).run_steps txs

/-! ## A run that exists -/

namespace Sample

/-- A call `elapsed` seconds after the one before it. -/
def callAfter (elapsed : Nat) (sender : Account deployment) (op : Op) : Nat × Tx deployment :=
  (elapsed, .call sender op)

/-- The calls that bootstrap a suite with nothing to import. -/
def bootstrapCalls : List (Account deployment × BootstrapOp) :=
  (authority, .setBootstrapCoordinator 0xd2 1) ::
    requiredModules.map
      (fun m => (operator, .registerModule (.suite m) (deployment.moduleAt m) 1)) ++
    [(operator, .attestUsernameEscrowReleased 5)] ++
    requiredModules.flatMap (fun m =>
      [(operator, .beginNextModule (.suite m) 0 0 (positionalHash (.rollingSeed (.suite m) 7))),
       (operator, .finalizeCurrentModule (.suite m))]) ++
    [(operator, .activateSuite)]

/-- The bootstrap as transactions. -/
def bootstrap : List (Nat × Tx deployment) :=
  bootstrapCalls.map fun (sender, op) => callAfter 1 sender (.bootstrap op)

/-- The bootstrap as moves. -/
def bootstrapMoves : List (Move deployment) :=
  .wait 1 :: bootstrapCalls.map fun (sender, op) => .call sender (.bootstrap op)

/-- The world after the bootstrap. -/
def genesis : World := (World.initial deployment).run bootstrap

/-- What transactions lead to from there is reachable. -/
theorem genesis_reachable (txs : List (Nat × Tx deployment)) :
    Reachable deployment (genesis.run txs) :=
  (reachable_run bootstrap).leads (genesis.run_steps txs)

end Sample

end Igit
