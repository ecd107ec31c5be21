import Igit.Ownership.OwnerIndex

/-!
# The ownership protocol of one repository

Who owns a repository is decided by a small state machine per repository, whose state lies partly in
the core and partly in the recovery module. `RepoState` is that state, and `RepoStep` lists the
transitions: a call either leaves the repository alone or makes one of the moves of the protocol,
under the guards given with it. `Effect.repoStep` and `BootstrapStep.repoStep` say that the contracts
implement this machine: for every repository, every successful call of an outside account is one of
its transitions.
-/

namespace Igit

open Fallible

/-- The ownership state of one repository. -/
structure RepoState where
  present : Bool
  owner : Address
  pending : PendingOwnershipTransfer
  config : GuardianConfig
  isGuardian : Address → Bool
  proposal : Proposal
  approvals : Nat → Address → Bool
  nonce : Nat

/-- The ownership state of a repository, read from the core and the recovery module. -/
def Suite.repoState (s : Suite) (r : Bytes32) : RepoState where
  present := (s.core.repositories r).present
  owner := (s.core.repositories r).owner
  pending := s.core.pendingTransfers r
  config := s.recovery.configs r
  isGuardian := s.recovery.isGuardian r
  proposal := s.recovery.proposals r
  approvals := s.recovery.approvals r
  nonce := s.recovery.proposalNonces r

namespace RepoState

variable (v : RepoState)

/-- The guardian flags without those of the stored list. -/
def unflagged : Address → Bool := Recovery.unflag v.isGuardian v.config.guardians

/-- The state with a new guardian list. -/
def configured (owner : Address) (guardians : List Address) (threshold : Nat) : RepoState :=
  { v with
    config := ⟨owner, threshold, guardians⟩
    isGuardian := Recovery.flag v.unflagged guardians }

/-- The state after a change of owner: nothing pending, no guardians and no proposal. -/
def handedOver (newOwner : Address) : RepoState :=
  { v with
    owner := newOwner
    pending := default
    config := default
    isGuardian := v.unflagged
    proposal := default }

/-- The state with a new proposal, approved by its proposer. -/
def proposed (sender newOwner : Address) (now : Nat) : RepoState :=
  { v with
    proposal := ⟨sender, newOwner, now + recoveryDelay, now + recoveryDelay + recoveryWindow,
      v.nonce + 1, 1⟩
    approvals := Function.update v.approvals (v.nonce + 1)
      (Function.update (v.approvals (v.nonce + 1)) sender true)
    nonce := v.nonce + 1 }

/-- The state with one more approval. -/
def approved (sender : Address) : RepoState :=
  { v with
    proposal := { v.proposal with approvals := v.proposal.approvals + 1 }
    approvals := Function.update v.approvals v.proposal.nonce
      (Function.update (v.approvals v.proposal.nonce) sender true) }

end RepoState

/-- The repository an ownership call is about. -/
def Op.ownershipTarget : Op → Option Bytes32
  | .core (.beginOwnershipTransfer r _) => some r
  | .core (.cancelOwnershipTransfer r) => some r
  | .core (.acceptOwnershipTransfer r) => some r
  | .core (.expireOwnershipTransfer r) => some r
  | .recovery (.setGuardians r _ _) => some r
  | .recovery (.proposeRecovery r _) => some r
  | .recovery (.approveRecovery r) => some r
  | .recovery (.cancelRecovery r) => some r
  | .recovery (.executeRecovery r) => some r
  | _ => none

/-- The call is a batch import with this guardian configuration among its records. -/
def Op.Imports (d : Deployment) (op : Op) (imported : ImportGuardianConfig) : Prop :=
  ∃ sequence count payloadHash payload items,
    op = .bootstrap (.importBatch (.suite .recovery) sequence count payloadHash payload) ∧
      d.abi.guardianConfigs payload = some items ∧ imported ∈ items

/-- The call is about the ownership of `r`. -/
def Op.Concerns (d : Deployment) (r : Bytes32) (op : Op) : Prop :=
  op.ownershipTarget = some r ∨ ∃ imported, op.Imports d imported ∧ imported.repoId = r

/-- One transition of the protocol of repository `r`, made by a call of `sender` at time `now`. -/
inductive RepoStep (d : Deployment) (r : Bytes32) (sender : Address) (now : Nat) :
    Op → RepoState → RepoState → Prop where
  | idle {op : Op} {v : RepoState} (hop : ¬ op.Concerns d r) : RepoStep d r sender now op v v
  | register {op : Op} {v : RepoState} (owner : Address) (hop : ¬ op.Concerns d r)
      (habsent : v.present = false) :
      RepoStep d r sender now op v { v with present := true, owner := owner }
  | importGuardians {op : Op} {v : RepoState} {imported : ImportGuardianConfig}
      (himport : op.Imports d imported) (hrepo : imported.repoId = r)
      (hpresent : v.present = true) (howner : v.owner = imported.configuredBy)
      (hnone : v.config.threshold = 0)
      (hvalid : Recovery.ValidGuardians v.owner imported.guardians imported.threshold) :
      RepoStep d r sender now op v (v.configured v.owner imported.guardians imported.threshold)
  | beginTransfer {v : RepoState} {newOwner : Address} (hpresent : v.present = true)
      (hsender : sender = v.owner) (hzero : newOwner ≠ 0) (howner : newOwner ≠ v.owner)
      (hidle : v.pending.newOwner = 0) (hproposal : v.proposal.newOwner = 0)
      (hfits : now + ownershipTransferDelay + ownershipTransferWindow ≤ uint64Max) :
      RepoStep d r sender now (.core (.beginOwnershipTransfer r newOwner)) v
        { v with pending := ⟨newOwner, now + ownershipTransferDelay,
          now + ownershipTransferDelay + ownershipTransferWindow⟩ }
  | cancelTransfer {v : RepoState} (hpending : v.pending.newOwner ≠ 0)
      (hsender : sender = v.owner ∨ sender = v.pending.newOwner) :
      RepoStep d r sender now (.core (.cancelOwnershipTransfer r)) v { v with pending := default }
  | expireTransfer {v : RepoState} (hpending : v.pending.newOwner ≠ 0)
      (hexpired : v.pending.expiresAt < now) :
      RepoStep d r sender now (.core (.expireOwnershipTransfer r)) v { v with pending := default }
  | acceptTransfer {v : RepoState} (hpresent : v.present = true)
      (hpending : v.pending.newOwner ≠ 0) (hsender : sender = v.pending.newOwner)
      (hafter : v.pending.executeAfter ≤ now) (hbefore : now ≤ v.pending.expiresAt) :
      RepoStep d r sender now (.core (.acceptOwnershipTransfer r)) v
        (v.handedOver v.pending.newOwner)
  | setGuardians {v : RepoState} {guardians : List Address} {threshold : Nat}
      (hpresent : v.present = true) (hsender : sender = v.owner)
      (hvalid : Recovery.ValidGuardians v.owner guardians threshold) :
      RepoStep d r sender now (.recovery (.setGuardians r guardians threshold)) v
        { v.configured v.owner guardians threshold with proposal := default }
  | propose {v : RepoState} {newOwner : Address} (hpresent : v.present = true)
      (hconfig : v.config.threshold ≠ 0) (hguardian : v.isGuardian sender = true)
      (hzero : newOwner ≠ 0) (howner : newOwner ≠ v.owner) (hidle : v.proposal.newOwner = 0)
      (htransfer : v.pending.newOwner = 0)
      (hfits : now + recoveryDelay + recoveryWindow ≤ uint64Max) :
      RepoStep d r sender now (.recovery (.proposeRecovery r newOwner)) v
        (v.proposed sender newOwner now)
  | approve {v : RepoState} (hpending : v.proposal.newOwner ≠ 0)
      (hopen : now ≤ v.proposal.expiresAt) (hguardian : v.isGuardian sender = true)
      (hnew : v.approvals v.proposal.nonce sender = false) :
      RepoStep d r sender now (.recovery (.approveRecovery r)) v (v.approved sender)
  | cancelRecovery {v : RepoState} (hpending : v.proposal.newOwner ≠ 0)
      (hsender : sender = v.owner ∨ sender = v.proposal.newOwner) :
      RepoStep d r sender now (.recovery (.cancelRecovery r)) v { v with proposal := default }
  | executeRecovery {v : RepoState} (hpresent : v.present = true)
      (hpending : v.proposal.newOwner ≠ 0) (hsender : sender = v.proposal.newOwner)
      (hafter : v.proposal.executeAfter ≤ now) (hbefore : now ≤ v.proposal.expiresAt)
      (hthreshold : v.config.threshold ≤ v.proposal.approvals) :
      RepoStep d r sender now (.recovery (.executeRecovery r)) v
        (v.handedOver v.proposal.newOwner)

/-! ## Which calls concern a repository -/

namespace Op

variable {d : Deployment} {r : Bytes32}

/-- A call with another target that imports no batch is not about `r`. -/
theorem not_concerns {op : Op} (htarget : op.ownershipTarget ≠ some r) (hbatch : op.Unbatched) :
    ¬ op.Concerns d r := by
  rintro (heq | ⟨imported, ⟨_, _, _, _, _, rfl, -⟩, -⟩)
  · exact htarget heq
  · exact hbatch _ _ rfl

end Op

/-! ## The contracts implement the protocol -/

namespace Suite

variable {d : Deployment} {s s' : Suite} {r : Bytes32} {sender : Address} {now : Nat}

/-- A change of the core that leaves ownership alone has no part in the protocol. -/
theorem repoState_setCore {c : Core} (h : s.core.SameOwnership c) :
    (s.setCore c).repoState r = s.repoState r := by
  simp only [Suite.repoState, setCore, h.present, h.owner, h.pendingTransfers]

/-- A new repository appears, and the others stay as they are. -/
theorem repoState_putRepository {imported : ImportRepository} {locator : Bytes32}
    (habsent : (s.core.repositories imported.id).present = false) :
    (s.setCore (s.core.putRepository locator imported)).repoState r = s.repoState r ∨
      (s.repoState r).present = false ∧ ∃ owner,
        (s.setCore (s.core.putRepository locator imported)).repoState r =
          { s.repoState r with present := true, owner := owner } := by
  by_cases hr : r = imported.id
  · subst hr
    refine .inr ⟨habsent, imported.owner, ?_⟩
    simp [Suite.repoState, setCore, Core.putRepository]
  · refine .inl ?_
    simp [Suite.repoState, setCore, Core.putRepository, hr]

/-- Where a repository stays as it is or appears, that is a transition of the protocol. -/
theorem repoStep_of_appears {op : Op} {v v' : RepoState} (hop : ¬ op.Concerns d r)
    (h : v' = v ∨ v.present = false ∧ ∃ owner, v' = { v with present := true, owner := owner }) :
    RepoStep d r sender now op v v' := by
  rcases h with rfl | ⟨habsent, owner, rfl⟩
  · exact .idle hop
  · exact .register owner hop habsent

/-- An ownership change touches the repository it is about. -/
theorem repoState_transferred_ne {repoId : Bytes32} {newOwner : Address} {moved : Bytes32}
    (hr : r ≠ repoId) : (s.transferred d repoId newOwner moved).repoState r = s.repoState r := by
  simp [Suite.repoState, transferred, afterOwnershipHook, clearRecovery, setRecovery, deleteSplits,
    setCore, Recovery.clearConfig, Recovery.deleteProposal, Core.transferred, transferCore,
    Core.clearPending, Core.setRepository, Core.putLocator, Core.moveOwner, hr]

theorem repoState_transferred_self {newOwner : Address} {moved : Bytes32} :
    (s.transferred d r newOwner moved).repoState r = (s.repoState r).handedOver newOwner := by
  have hflags : (s.recovery.clearConfig r).isGuardian r = (s.repoState r).unflagged :=
    Recovery.clearConfig_isGuardian
  simp only [RepoState.handedOver, Suite.repoState, transferred, afterOwnershipHook, clearRecovery,
    setRecovery, deleteSplits, setCore, RepoState.mk.injEq]
  refine ⟨s.core.transferred_present r, ?_, ?_, ?_, hflags, ?_, rfl, rfl⟩
  · exact (s.core.transferred_owner r).trans (if_pos rfl)
  · exact (s.core.transferred_pendingTransfers r).trans (if_pos rfl)
  · simp [Recovery.clearConfig, Recovery.deleteProposal]
  · simp [Recovery.deleteProposal]

/-- `executeRecovery` clears the recovery state twice, which is the same as once. -/
theorem repoState_beforeRecovery_handedOver {newOwner : Address} :
    ((s.beforeRecovery r).repoState r).handedOver newOwner =
      (s.repoState r).handedOver newOwner := by
  have hflags : ((s.recovery.deleteProposal r).clearConfig r).isGuardian r =
      (s.repoState r).unflagged := Recovery.clearConfig_isGuardian
  have hnone : (((s.recovery.deleteProposal r).clearConfig r).configs r).guardians = [] := by
    simp [Recovery.clearConfig]
    rfl
  simp only [RepoState.handedOver, Suite.repoState, beforeRecovery, setRecovery,
    RepoState.mk.injEq, true_and]
  refine ⟨funext fun a => ?_, rfl, rfl⟩
  simp only [RepoState.unflagged, Recovery.unflag, hnone, List.contains_nil, Bool.not_false,
    Bool.and_true]
  exact congrFun hflags a

theorem repoState_beforeRecovery_ne {repoId : Bytes32} (hr : r ≠ repoId) :
    (s.beforeRecovery repoId).repoState r = s.repoState r := by
  simp [Suite.repoState, beforeRecovery, setRecovery, Recovery.clearConfig,
    Recovery.deleteProposal, hr]

/-- Every call of an active suite is a transition of the protocol of every repository. -/
theorem Effect.repoStep {op : Op} (h : Effect d s sender now op s') (r : Bytes32) :
    RepoStep d r sender now op (s.repoState r) (s'.repoState r) := by
  have hbatch := Op.unbatched h.setup_eq.2
  have hquiet : op.ownershipTarget ≠ some r → s'.repoState r = s.repoState r →
      RepoStep d r sender now op (s.repoState r) (s'.repoState r) := by
    intro htarget hsame
    rw [hsame]
    exact .idle (Op.not_concerns htarget hbatch)
  -- a call about another repository leaves the state of `r` as it was
  have hother : ∀ {repoId : Bytes32}, op.ownershipTarget = some repoId → r ≠ repoId →
      s'.repoState r = s.repoState r →
      RepoStep d r sender now op (s.repoState r) (s'.repoState r) := by
    intro repoId htarget hne hsame
    refine hquiet ?_ hsame
    rw [htarget]
    exact fun heq => hne (Option.some.inj heq).symm
  have hnone : op.ownershipTarget = none → op.ownershipTarget ≠ some r := by
    intro htarget
    rw [htarget]
    exact (Option.some_ne_none r).symm
  cases h with
  | createRepository hcan =>
      exact repoStep_of_appears (Op.not_concerns (hnone rfl) hbatch)
        (repoState_putRepository hcan.absent)
  | @forkRepository source name hpresent hstatus hcan hsize =>
      have hcopied := repoState_setCore (r := r)
        (s := s.setCore (s.core.registered d (newFork d s sender source name now)))
        (.foldl_copyRef d source (d.repositoryId sender name) now sender (s.core.refNames source)
          (.refl _) (by simp [setCore, Core.registered, Core.putRepository, newFork, newRepository]))
      refine repoStep_of_appears (Op.not_concerns (hnone rfl) hbatch) ?_
      rw [show (s.setCore (forkedCore d s sender source name now)).repoState r = _ from hcopied]
      exact repoState_putRepository hcan.absent
  | updateMetadata =>
      exact hquiet (hnone rfl) (repoState_setCore (.setRepository (.refl _) rfl rfl rfl))
  | updateRef hterms => exact hquiet (hnone rfl) (repoState_setCore (.withRef hterms.present))
  | deleteRef => exact hquiet (hnone rfl) (repoState_setCore .withoutRef)
  | setCollaborator _ hchange =>
      refine hquiet (hnone rfl) ?_
      cases hchange with
      | revoke _ hremoved =>
          obtain ⟨_, _, _, rfl⟩ := Core.removeCollaborator_frame hremoved
          rfl
      | _ => rfl
  | @beginOwnershipTransfer repoId newOwner hpresent hsender hzero howner hidle hproposal _ _ hfits =>
      by_cases hr : r = repoId
      · subst hr
        have hstep : RepoStep d r sender now _ (s.repoState r) _ :=
          .beginTransfer hpresent hsender hzero howner hidle hproposal hfits
        simpa [Suite.repoState, setCore, Core.pended, Core.putPending] using hstep
      · exact hother rfl hr (by simp [Suite.repoState, setCore, Core.pended, Core.putPending, hr])
  | @cancelOwnershipTransfer repoId hpending hsender =>
      by_cases hr : r = repoId
      · subst hr
        have hstep : RepoStep d r sender now _ (s.repoState r) _ := .cancelTransfer hpending hsender
        simpa [Suite.repoState, setCore, Core.unpended, Core.clearPending] using hstep
      · exact hother rfl hr
          (by simp [Suite.repoState, setCore, Core.unpended, Core.clearPending, hr])
  | @expireOwnershipTransfer repoId hpending hexpired =>
      by_cases hr : r = repoId
      · subst hr
        have hstep : RepoStep d r sender now _ (s.repoState r) _ := .expireTransfer hpending hexpired
        simpa [Suite.repoState, setCore, Core.unpended, Core.clearPending] using hstep
      · exact hother rfl hr
          (by simp [Suite.repoState, setCore, Core.unpended, Core.clearPending, hr])
  | @acceptOwnershipTransfer repoId moved hpresent hpending hsender hafter hbefore =>
      by_cases hr : r = repoId
      · subst hr
        rw [repoState_transferred_self]
        exact .acceptTransfer hpresent hpending hsender hafter hbefore
      · exact hother rfl hr (repoState_transferred_ne hr)
  | @setGuardians repoId guardians threshold hpresent hsender hvalid =>
      by_cases hr : r = repoId
      · subst hr
        have hstep : RepoStep d r sender now _ (s.repoState r) _ :=
          .setGuardians hpresent hsender hvalid
        simpa [Suite.repoState, setRecovery, Recovery.configured, Recovery.deleteProposal,
          RepoState.configured, RepoState.unflagged] using hstep
      · exact hother rfl hr (by simp [Suite.repoState, setRecovery, Recovery.configured,
          Recovery.deleteProposal, hr])
  | @proposeRecovery repoId newOwner hpresent hconfig hguardian hzero howner hidle htransfer hfits =>
      by_cases hr : r = repoId
      · subst hr
        have hstep : RepoStep d r sender now _ (s.repoState r) _ :=
          .propose hpresent hconfig hguardian hzero howner hidle htransfer hfits
        simpa [Suite.repoState, setRecovery, Recovery.putProposal, newProposal,
          RepoState.proposed] using hstep
      · exact hother rfl hr (by simp [Suite.repoState, setRecovery, Recovery.putProposal, hr])
  | @approveRecovery repoId hpresent hpending hopen hguardian hnew =>
      by_cases hr : r = repoId
      · subst hr
        have hstep : RepoStep d r sender now _ (s.repoState r) _ :=
          .approve hpending hopen hguardian hnew
        simpa [Suite.repoState, setRecovery, Recovery.putApproval, RepoState.approved] using hstep
      · exact hother rfl hr (by simp [Suite.repoState, setRecovery, Recovery.putApproval, hr])
  | @cancelRecovery repoId hpresent hpending hsender =>
      by_cases hr : r = repoId
      · subst hr
        have hstep : RepoStep d r sender now _ (s.repoState r) _ := .cancelRecovery hpending hsender
        simpa [Suite.repoState, setRecovery, Recovery.deleteProposal] using hstep
      · exact hother rfl hr (by simp [Suite.repoState, setRecovery, Recovery.deleteProposal, hr])
  | @executeRecovery repoId moved hpresent hpending hsender hafter hbefore hthreshold =>
      by_cases hr : r = repoId
      · subst hr
        rw [repoState_transferred_self, repoState_beforeRecovery_handedOver]
        exact .executeRecovery hpresent hpending hsender hafter hbefore hthreshold
      · exact hother rfl hr
          ((repoState_transferred_ne hr).trans (repoState_beforeRecovery_ne hr))
  | setRepositoryStatus | resolveReport | appealReport | resolveAppeal =>
      exact hquiet (hnone rfl) (repoState_setCore (s := s.setModeration _)
        (.setRepository (.refl _) rfl rfl rfl))
  | _ => exact hquiet (hnone rfl) rfl

/-! ## Imports -/

/-- What records outside the recovery module do to a repository: nothing, or it appears. -/
theorem repoState_foldl_stored {keccak : Keccak} {records : List ImportRecord}
    (hm : ∀ x ∈ records, x.module ≠ .recovery) (hfit : s.FitInTurn keccak records) :
    (records.foldl (stored keccak) s).repoState r = s.repoState r ∨
      (s.repoState r).present = false ∧ ∃ owner, (records.foldl (stored keccak) s).repoState r =
        { s.repoState r with present := true, owner := owner } := by
  induction records generalizing s with
  | nil => exact .inl rfl
  | cons record rest ih =>
      obtain ⟨⟨-, hfits⟩, hrest⟩ := hfit
      obtain ⟨hfirst, hothers⟩ := List.forall_mem_cons.mp hm
      have hstored : (s.stored keccak record).repoState r = s.repoState r ∨
          (s.repoState r).present = false ∧ ∃ owner, (s.stored keccak record).repoState r =
            { s.repoState r with present := true, owner := owner } := by
        cases record with
        | repository imported => exact repoState_putRepository hfits.2.1
        | guardianConfig => exact absurd rfl hfirst
        | _ => exact .inl rfl
      rcases hstored with hsame | ⟨habsent, owner, hnew⟩
      · rw [← hsame]
        exact ih hothers hrest
      · rcases ih hothers hrest with hkept | ⟨hstill, -⟩
        · exact .inr ⟨habsent, owner, hkept.trans hnew⟩
        · rw [hnew] at hstill
          cases hstill

/-- What importing guardians does to a repository: nothing when no record is about it, and
otherwise the one record about it is stored. -/
theorem importGuardians_repoState {keccak : Keccak} {items : List ImportGuardianConfig}
    (hfit : s.FitInTurn keccak (items.map .guardianConfig))
    (h : s' = (items.map .guardianConfig).foldl (stored keccak) s) :
    ((∀ imported ∈ items, imported.repoId ≠ r) ∧ s'.repoState r = s.repoState r) ∨
      ∃ imported ∈ items, imported.repoId = r ∧ (s.repoState r).present = true ∧
        (s.repoState r).owner = imported.configuredBy ∧ (s.repoState r).config.threshold = 0 ∧
        Recovery.ValidGuardians (s.repoState r).owner imported.guardians imported.threshold ∧
        s'.repoState r = (s.repoState r).configured (s.repoState r).owner imported.guardians
          imported.threshold := by
  induction items generalizing s with
  | nil => exact .inl ⟨by simp, by rw [h]; rfl⟩
  | cons item rest ih =>
      obtain ⟨⟨hvalid, ⟨-, hpresent⟩, howner, hthreshold, -⟩, hfits⟩ := hfit
      by_cases hr : item.repoId = r
      · subst hr
        have hstate : (s.stored keccak (.guardianConfig item)).repoState item.repoId =
            (s.repoState item.repoId).configured (s.repoState item.repoId).owner item.guardians
              item.threshold := by
          simp [Suite.repoState, stored, setRecovery, Recovery.configured, RepoState.configured,
            RepoState.unflagged, howner]
        rcases ih hfits h with ⟨-, hsame⟩ | ⟨imported, -, -, -, -, hnone, -, -⟩
        · refine .inr ⟨item, by simp, rfl, hpresent, howner, hthreshold, ?_, hsame.trans hstate⟩
          rw [show (s.repoState item.repoId).owner = item.configuredBy from howner]
          exact hvalid
        · -- a second record about the same repository would have been refused
          rw [hstate] at hnone
          exact absurd hnone hvalid.threshold_pos
      · have hstate : (s.stored keccak (.guardianConfig item)).repoState r = s.repoState r := by
          simp [Suite.repoState, stored, setRecovery, Recovery.configured, Ne.symm hr]
        rcases ih hfits h with ⟨hnone, hsame⟩ | ⟨imported, hmem, himported⟩
        · refine .inl ⟨List.forall_mem_cons.mpr ⟨hr, hnone⟩, hsame.trans hstate⟩
        · rw [hstate] at himported
          exact .inr ⟨imported, List.mem_cons_of_mem _ hmem, himported⟩

/-- A step of the bootstrap makes at most one transition of the protocol. -/
theorem BootstrapStep.repoStep {op : BootstrapOp} (h : BootstrapStep d s op s') (r : Bytes32) :
    RepoStep d r sender now (.bootstrap op) (s.repoState r) (s'.repoState r) := by
  have hnone : (Op.bootstrap op).ownershipTarget ≠ some r := (Option.some_ne_none r).symm
  cases h with
  | books _ hbatch => exact .idle (Op.not_concerns hnone hbatch)
  | openClaims => exact .idle (Op.not_concerns hnone fun _ _ => by simp [Op.phase])
  | @batch u m sequence count payloadHash payload records _ hdecode hfit _ =>
      by_cases hrecovery : m = .recovery
      · subst hrecovery
        simp only [decodeRecords, tagged, bind_eq_ok, pure_eq_ok] at hdecode
        obtain ⟨items, hitems, rfl⟩ := hdecode
        have hdecoded : d.abi.guardianConfigs payload = some items := by
          cases hconfigs : d.abi.guardianConfigs payload with
          | none => simp [hconfigs, decoded] at hitems
          | some found =>
              rw [hconfigs, decoded, pure_eq_ok] at hitems
              rw [hitems]
        rcases importGuardians_repoState (r := r) hfit rfl with ⟨habsent, hsame⟩ |
          ⟨record, hmem, hrepo, hpresent, howner, hthreshold, hvalid, hstate⟩
        · rw [show (Suite.withSetup _ u).repoState r = _ from hsame]
          refine .idle ?_
          rintro (htarget | ⟨record, ⟨_, _, _, _, found, heq, hfound, hmem⟩, hrepo⟩)
          · exact hnone htarget
          · simp only [Op.bootstrap.injEq, BootstrapOp.importBatch.injEq] at heq
            obtain ⟨-, -, -, -, rfl⟩ := heq
            rw [hdecoded] at hfound
            cases hfound
            exact habsent record hmem hrepo
        · rw [show (Suite.withSetup _ u).repoState r = _ from hstate]
          exact .importGuardians ⟨_, _, _, _, items, rfl, hdecoded, hmem⟩ hrepo hpresent howner
            hthreshold hvalid
      · have hmodule := decodeRecords_module records hdecode
        refine repoStep_of_appears ?_ (repoState_foldl_stored
          (fun x hx heq => hrecovery ((hmodule x hx).symm.trans heq)) hfit)
        rintro (htarget | ⟨imported, ⟨_, _, _, _, _, heq, -⟩, -⟩)
        · exact hnone htarget
        · simp only [Op.bootstrap.injEq, BootstrapOp.importBatch.injEq, ModuleId.suite.injEq] at heq
          exact hrecovery heq.1

end Suite

/-! ## Moves -/

variable {d : Deployment} {w w' : World}

/-- What a move does to one repository: a transition of its protocol by a recorded call, or nothing
with no call recorded. -/
inductive RepoMove (d : Deployment) (r : Bytes32) (w w' : World) : Move d → Prop where
  | call {sender : Account d} {op : Op}
      (hstep : RepoStep d r sender.address w.now op (w.suite.repoState r) (w'.suite.repoState r))
      (hnow : w'.now = w.now)
      (hhistory : w'.history = w.history ++ [⟨sender.address, w.now, .call op⟩]) :
      RepoMove d r w w' (.call sender op)
  | sponsor {move : Move d} {sender : Address} {repoId : Bytes32} {message : Bytes} {value : Nat}
      (hstate : w'.suite.repoState r = w.suite.repoState r) (hnow : w'.now = w.now)
      (hhistory : w'.history = w.history ++ [⟨sender, w.now, .sponsor repoId message value⟩]) :
      RepoMove d r w w' move
  | quiet {move : Move d} (hstate : w'.suite.repoState r = w.suite.repoState r)
      (hnow : w.now ≤ w'.now) (hhistory : w'.history = w.history) : RepoMove d r w w' move

/-- Every move does one of these. -/
theorem World.Effect.repoMove {move : Move d} (h : w.Effect d move w') (r : Bytes32) :
    RepoMove d r w w' move := by
  cases h with
  | call _ heffect => exact .call (heffect.repoStep r) rfl rfl
  | bootstrap hstep => exact .call (hstep.repoStep r) rfl rfl
  | openSponsor => exact .sponsor rfl rfl rfl
  | closeSponsor => exact .quiet rfl (Nat.le_refl _) rfl
  | wait => exact .quiet rfl (Nat.le_add_right _ _) rfl

/-- An invariant of the protocol holds of every repository in every reachable world. -/
theorem Reachable.repo_invariant {P : RepoState → Prop} (r : Bytes32)
    (hempty : P ((World.initial d).suite.repoState r))
    (hstep : ∀ sender now op v v', RepoStep d r sender now op v v' → P v → P v')
    (h : Reachable d w) : P (w.suite.repoState r) := by
  refine h.run_invariant (P := fun w => P (w.suite.repoState r)) hempty ?_
  intro w w' move hreach hnext hw
  cases (hreach.effect hnext).repoMove r with
  | call hrepo _ _ => exact hstep _ _ _ _ _ hrepo hw
  | sponsor hstate _ _ => rwa [hstate]
  | quiet hstate _ _ => rwa [hstate]

end Igit
