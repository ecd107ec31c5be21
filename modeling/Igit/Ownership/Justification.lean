import Igit.Library.History
import Igit.Ownership.Transfers

/-!
# Every change of owner is justified by the history

A change of owner from `a` to `b` is either an offer that `a` made and `b` accepted in its window, or
a recovery that enough guardians of `a` approved and `b` executed in its window. Both are statements
about the calls made since `a` became the owner. `Traced` connects the stored state of a repository
with the calls that led to it: whatever is pending can be traced back to the call that began it, with
no call in between that ended it. It is an invariant, and the justification of a change of owner is
read off the state in which the last call succeeds.
-/

namespace Igit

/-! ## Calls that end something -/

namespace Record

variable (d : Deployment) (r : Bytes32) (x : Record)

/-- The call changed the owner of `r`. -/
def ChangesOwner : Prop :=
  x.event = .call (.core (.acceptOwnershipTransfer r)) ∨
    x.event = .call (.recovery (.executeRecovery r))

/-- The call ended or replaced a pending transfer of `r`. -/
def EndsTransfer : Prop :=
  x.ChangesOwner r ∨ x.event = .call (.core (.cancelOwnershipTransfer r)) ∨
    x.event = .call (.core (.expireOwnershipTransfer r)) ∨
    ∃ newOwner, x.event = .call (.core (.beginOwnershipTransfer r newOwner))

/-- The call gave `owner` these guardians for `r`: `owner` set them, or they were imported for
`owner`. -/
def Configures (owner : Address) (guardians : List Address) (threshold : Nat) : Prop :=
  (x.sender = owner ∧ x.event = .call (.recovery (.setGuardians r guardians threshold))) ∨
    ∃ op : Op, x.event = .call op ∧ op.Imports d ⟨r, owner, threshold, guardians⟩

/-- The call replaced the guardians of `r`, or removed them with a change of owner. -/
def ReplacesGuardians : Prop :=
  x.ChangesOwner r ∨ ∃ owner guardians threshold, x.Configures d r owner guardians threshold

/-- The call ended or replaced a pending recovery of `r`. -/
def EndsProposal : Prop :=
  x.ReplacesGuardians d r ∨ x.event = .call (.recovery (.cancelRecovery r)) ∨
    ∃ newOwner, x.event = .call (.recovery (.proposeRecovery r newOwner))

end Record

/-! ## Justified changes -/

/-- At time `now`, the owner `a` had offered `r` to `b`, the offer was still open, and its delay had
passed but not its window. -/
def TransferJustified (r : Bytes32) (a b : Address) (history : List Record) (now : Nat) : Prop :=
  ∃ t later,
    Since (Record.EndsTransfer r) ⟨a, t, .call (.core (.beginOwnershipTransfer r b))⟩ later
      history ∧
    t + ownershipTransferDelay ≤ now ∧ now ≤ t + ownershipTransferDelay + ownershipTransferWindow

/-- At time `now`, a proposal of `b` was still open, its delay had passed but not its window, and it
had been approved by as many distinct guardians as the owner `a` required, all of them from the
list `a` last configured. The proposal counts as its proposer's approval. -/
def RecoveryJustified (d : Deployment) (r : Bytes32) (a b : Address) (history : List Record)
    (now : Nat) : Prop :=
  ∃ (guardians : List Address) (threshold : Nat) (configuration : Record)
    (sinceConfiguration : List Record) (proposer : Address) (t : Nat) (later : List Record)
    (approvers : List Address),
    configuration.Configures d r a guardians threshold ∧
    Since (Record.ReplacesGuardians d r) configuration sinceConfiguration history ∧
    Since (Record.EndsProposal d r) ⟨proposer, t, .call (.recovery (.proposeRecovery r b))⟩ later
      history ∧
    t + recoveryDelay ≤ now ∧ now ≤ t + recoveryDelay + recoveryWindow ∧
    approvers.Nodup ∧ threshold ≤ approvers.length ∧
    ∀ g ∈ approvers, g ∈ guardians ∧
      (g = proposer ∨ ∃ t', ⟨g, t', .call (.recovery (.approveRecovery r))⟩ ∈ later)

/-! ## The state and the history -/

section Traces

variable (d : Deployment) (r : Bytes32)

/-- The pending transfer was begun by `owner`, and no call has ended it. -/
def TransferTraced (owner : Address) (pending : PendingOwnershipTransfer)
    (history : List Record) : Prop :=
  ∃ t later,
    Since (Record.EndsTransfer r)
      ⟨owner, t, .call (.core (.beginOwnershipTransfer r pending.newOwner))⟩ later history ∧
    pending.executeAfter = t + ownershipTransferDelay ∧
    pending.expiresAt = t + ownershipTransferDelay + ownershipTransferWindow

/-- The stored guardians were configured by or for `owner`, and no call has replaced them. -/
def GuardiansTraced (owner : Address) (config : GuardianConfig) (history : List Record) : Prop :=
  ∃ (configuration : Record) (later : List Record),
    configuration.Configures d r owner config.guardians config.threshold ∧
    Since (Record.ReplacesGuardians d r) configuration later history

/-- The proposal was made and no call has ended it, and its approvals are those of distinct
guardians who have approved this very proposal, as the flags of its nonce have it. -/
def ProposalTraced (guardians : List Address) (proposal : Proposal) (flags : Address → Bool)
    (history : List Record) : Prop :=
  ∃ (proposer : Address) (t : Nat) (later : List Record) (approvers : List Address),
    Since (Record.EndsProposal d r)
      ⟨proposer, t, .call (.recovery (.proposeRecovery r proposal.newOwner))⟩ later history ∧
    proposal.executeAfter = t + recoveryDelay ∧
    proposal.expiresAt = t + recoveryDelay + recoveryWindow ∧
    approvers.Nodup ∧ proposal.approvals = approvers.length ∧
    (∀ g ∈ approvers, flags g = true) ∧
    ∀ g ∈ approvers, g ∈ guardians ∧
      (g = proposer ∨ ∃ t', ⟨g, t', .call (.recovery (.approveRecovery r))⟩ ∈ later)

/-- What is pending in the state of a repository can be traced back in the history. -/
structure Traced (v : RepoState) (history : List Record) : Prop where
  transfer : v.pending.newOwner ≠ 0 → TransferTraced r v.owner v.pending history
  guardians : v.config.threshold ≠ 0 → GuardiansTraced d r v.owner v.config history
  proposal : v.proposal.newOwner ≠ 0 →
    ProposalTraced d r v.config.guardians v.proposal (v.approvals v.proposal.nonce) history

end Traces

variable {d : Deployment} {r : Bytes32} {sender : Address} {now : Nat} {op : Op}
variable {v v' : RepoState} {history : List Record} {x : Record}

namespace Record

/-- The core replaces no guardians but those of a previous owner. -/
@[simp] theorem replacesGuardians_core {op : CoreOp} :
    ReplacesGuardians d r ⟨sender, now, .call (.core op)⟩ ↔ op = .acceptOwnershipTransfer r := by
  constructor
  · rintro ((hop | hop) | ⟨_, _, _, ⟨-, hop⟩ | ⟨_, hop, himports⟩⟩)
    · cases hop
      rfl
    · cases hop
    · cases hop
    · cases hop
      obtain ⟨_, _, _, _, _, heq, -⟩ := himports
      cases heq
  · rintro rfl
    exact .inl (.inl rfl)

/-- The recovery module replaces guardians in `executeRecovery` and `setGuardians`. -/
@[simp] theorem replacesGuardians_recovery {op : RecoveryOp} :
    ReplacesGuardians d r ⟨sender, now, .call (.recovery op)⟩ ↔
      op = .executeRecovery r ∨ ∃ guardians threshold, op = .setGuardians r guardians threshold := by
  constructor
  · rintro ((hop | hop) | ⟨_, guardians, threshold, ⟨-, hop⟩ | ⟨_, hop, himports⟩⟩)
    · cases hop
    · cases hop
      exact .inl rfl
    · cases hop
      exact .inr ⟨guardians, threshold, rfl⟩
    · cases hop
      obtain ⟨_, _, _, _, _, heq, -⟩ := himports
      cases heq
  · rintro (rfl | ⟨guardians, threshold, rfl⟩)
    · exact .inl (.inr rfl)
    · exact .inr ⟨sender, guardians, threshold, .inl ⟨rfl, rfl⟩⟩

/-- What ends a transfer of a repository is about that repository. -/
theorem EndsTransfer.concerns (h : EndsTransfer r ⟨sender, now, .call op⟩) : op.Concerns d r := by
  rcases h with (hop | hop) | hop | hop | ⟨newOwner, hop⟩
  all_goals
    cases hop
    exact .inl rfl

theorem ReplacesGuardians.concerns (h : ReplacesGuardians d r ⟨sender, now, .call op⟩) :
    op.Concerns d r := by
  rcases h with (hop | hop) | ⟨owner, guardians, threshold, ⟨-, hop⟩ | ⟨_, hop, himports⟩⟩
  · cases hop
    exact .inl rfl
  · cases hop
    exact .inl rfl
  · cases hop
    exact .inl rfl
  · cases hop
    exact .inr ⟨_, himports, rfl⟩

theorem EndsProposal.concerns (h : EndsProposal d r ⟨sender, now, .call op⟩) :
    op.Concerns d r := by
  rcases h with hreplaces | hop | ⟨newOwner, hop⟩
  · exact hreplaces.concerns
  · cases hop
    exact .inl rfl
  · cases hop
    exact .inl rfl

end Record

/-! ### Traces survive the calls that end nothing -/

/-- A transfer stays traced while nothing ends it. -/
theorem TransferTraced.push {owner : Address} {pending : PendingOwnershipTransfer}
    (h : TransferTraced r owner pending history) (hx : ¬ x.EndsTransfer r) :
    TransferTraced r owner pending (history ++ [x]) := by
  obtain ⟨t, later, hsince, htimes⟩ := h
  exact ⟨t, later ++ [x], hsince.push hx, htimes⟩

/-- Guardians stay traced while nothing replaces them. -/
theorem GuardiansTraced.push {owner : Address} {config : GuardianConfig}
    (h : GuardiansTraced d r owner config history) (hx : ¬ x.ReplacesGuardians d r) :
    GuardiansTraced d r owner config (history ++ [x]) := by
  obtain ⟨configuration, later, hconfigures, hsince⟩ := h
  exact ⟨configuration, later ++ [x], hconfigures, hsince.push hx⟩

/-- A proposal stays traced while nothing ends it. -/
theorem ProposalTraced.push {guardians : List Address} {proposal : Proposal}
    {flags : Address → Bool} (h : ProposalTraced d r guardians proposal flags history)
    (hx : ¬ x.EndsProposal d r) : ProposalTraced d r guardians proposal flags (history ++ [x]) := by
  obtain ⟨proposer, t, later, approvers, hsince, hafter, hexpires, hnodup, hcount, hflags,
    happroved⟩ := h
  refine ⟨proposer, t, later ++ [x], approvers, hsince.push hx, hafter, hexpires, hnodup, hcount,
    hflags, fun g hg => ?_⟩
  obtain ⟨hguardian, hproposer | ⟨t', hrecord⟩⟩ := happroved g hg
  · exact ⟨hguardian, .inl hproposer⟩
  · exact ⟨hguardian, .inr ⟨t', List.mem_append_left _ hrecord⟩⟩

theorem Traced.push (h : Traced d r v history) (htransfer : ¬ x.EndsTransfer r)
    (hguardians : ¬ x.ReplacesGuardians d r) (hproposal : ¬ x.EndsProposal d r) :
    Traced d r v (history ++ [x]) where
  transfer hne := (h.transfer hne).push htransfer
  guardians hne := (h.guardians hne).push hguardians
  proposal hne := (h.proposal hne).push hproposal

/-- An approval adds a guardian who has not approved the proposal before. -/
theorem ProposalTraced.approve {guardians : List Address} {proposal : Proposal}
    {flags : Address → Bool} (h : ProposalTraced d r guardians proposal flags history)
    (hguardian : sender ∈ guardians) (hnew : flags sender = false) :
    ProposalTraced d r guardians { proposal with approvals := proposal.approvals + 1 }
      (Function.update flags sender true)
      (history ++ [⟨sender, now, .call (.recovery (.approveRecovery r))⟩]) := by
  obtain ⟨proposer, t, later, approvers, hsince, hafter, hexpires, hnodup, hcount, hflags,
    happroved⟩ := h
  have hfresh : sender ∉ approvers := by
    intro hmem
    rw [hflags sender hmem] at hnew
    cases hnew
  have hcontinues : ¬ Record.EndsProposal d r
      ⟨sender, now, .call (.recovery (.approveRecovery r))⟩ := by
    simp [Record.EndsProposal]
  refine ⟨proposer, t, _, sender :: approvers, hsince.push hcontinues, hafter, hexpires,
    List.nodup_cons.mpr ⟨hfresh, hnodup⟩, congrArg (· + 1) hcount, fun g hg => ?_, fun g hg => ?_⟩
  · by_cases hsender : g = sender
    · rw [hsender, Function.update_self]
    · rw [Function.update_of_ne hsender]
      exact hflags g ((List.mem_cons.mp hg).resolve_left hsender)
  · rcases List.mem_cons.mp hg with rfl | hg
    · exact ⟨hguardian, .inr ⟨now, by simp⟩⟩
    · obtain ⟨hmember, hproposer | ⟨t', hrecord⟩⟩ := happroved g hg
      · exact ⟨hmember, .inl hproposer⟩
      · exact ⟨hmember, .inr ⟨t', List.mem_append_left _ hrecord⟩⟩

/-- Every transition of the protocol keeps the state traced, with the call added to the history. -/
theorem Traced.step (hstep : RepoStep d r sender now op v v') (hv : v.Coherent)
    (h : Traced d r v history) :
    Traced d r v' (history ++ [⟨sender, now, .call op⟩]) := by
  -- a transfer and a proposal are never pending together
  have hno_transfer : v.proposal.newOwner ≠ 0 → v.pending.newOwner = 0 :=
    hv.exclusive.resolve_right
  have hno_proposal : v.pending.newOwner ≠ 0 → v.proposal.newOwner = 0 :=
    hv.exclusive.resolve_left
  cases hstep with
  | idle hop =>
      exact h.push (fun hends => hop hends.concerns) (fun hends => hop hends.concerns)
        (fun hends => hop hends.concerns)
  | register owner hop habsent =>
      obtain ⟨hpending, hconfig, hproposal⟩ := hv.absent habsent
      exact ⟨fun hne => absurd hpending hne, fun hne => absurd hconfig hne,
        fun hne => absurd hproposal hne⟩
  | @importGuardians op v imported himport hrepo _ howner hnone _ =>
      have hcontinues : ¬ Record.EndsTransfer r ⟨sender, now, .call op⟩ := by
        obtain ⟨_, _, _, _, _, rfl, -⟩ := himport
        simp [Record.EndsTransfer, Record.ChangesOwner]
      have himported : op.Imports d ⟨r, v.owner, imported.threshold, imported.guardians⟩ := by
        rw [← hrepo, howner]
        exact himport
      exact ⟨fun hne => (h.transfer hne).push hcontinues,
        fun _ => ⟨_, [], .inr ⟨op, rfl, himported⟩, .now _ _⟩,
        fun hne => absurd hnone (hv.proposal_configured hne)⟩
  | beginTransfer _ hsender _ _ _ hproposal _ =>
      refine ⟨fun _ => ⟨now, [], ?_, rfl, rfl⟩, fun hne => (h.guardians hne).push ?_,
        fun hne => absurd hproposal hne⟩
      · rw [← hsender]
        exact .now _ _
      · simp
  | cancelTransfer hpending _ =>
      refine ⟨fun hne => absurd rfl hne, fun hne => (h.guardians hne).push ?_,
        fun hne => absurd (hno_proposal hpending) hne⟩
      simp
  | expireTransfer hpending _ =>
      refine ⟨fun hne => absurd rfl hne, fun hne => (h.guardians hne).push ?_,
        fun hne => absurd (hno_proposal hpending) hne⟩
      simp
  | acceptTransfer =>
      exact ⟨fun hne => absurd rfl hne, fun hne => absurd rfl hne, fun hne => absurd rfl hne⟩
  | setGuardians _ hsender _ =>
      refine ⟨fun hne => (h.transfer hne).push ?_, fun _ => ⟨_, [], .inl ⟨hsender, rfl⟩, .now _ _⟩,
        fun hne => absurd rfl hne⟩
      simp [Record.EndsTransfer, Record.ChangesOwner]
  | @propose v newOwner _ _ hguardian _ _ _ htransfer _ =>
      refine ⟨fun hne => absurd htransfer hne, fun hne => (h.guardians hne).push ?_, fun _ => ?_⟩
      · simp
      · refine ⟨sender, now, [], [sender], .now _ _, rfl, rfl, List.nodup_singleton _, rfl, ?_, ?_⟩
        · simp [RepoState.proposed]
        · rintro g hg
          rw [List.mem_singleton.mp hg]
          exact ⟨(hv.flags sender).mp hguardian, .inl rfl⟩
  | approve hpending _ hguardian hnew =>
      refine ⟨fun hne => absurd (hno_transfer hpending) hne, fun hne => (h.guardians hne).push ?_,
        fun _ => ?_⟩
      · simp
      · have hflags : (v.approved sender).approvals (v.approved sender).proposal.nonce =
            Function.update (v.approvals v.proposal.nonce) sender true := Function.update_self ..
        rw [hflags]
        exact (h.proposal hpending).approve ((hv.flags sender).mp hguardian) hnew
  | cancelRecovery hpending _ =>
      refine ⟨fun hne => absurd (hno_transfer hpending) hne, fun hne => (h.guardians hne).push ?_,
        fun hne => absurd rfl hne⟩
      simp
  | executeRecovery =>
      exact ⟨fun hne => absurd rfl hne, fun hne => absurd rfl hne, fun hne => absurd rfl hne⟩

variable {w w' : World}

/-- The state of every repository can be traced back in the history of every run. -/
theorem Reachable.traced (h : Reachable d w) (r : Bytes32) :
    Traced d r (w.suite.repoState r) w.history := by
  refine (h.invariant (P := fun w => Reachable d w ∧ Traced d r (w.suite.repoState r) w.history)
    ⟨.refl, fun hne => absurd rfl hne, fun hne => absurd rfl hne, fun hne => absurd rfl hne⟩ ?_).2
  rintro w w' move hnext ⟨hreachable, htraced⟩
  refine ⟨hreachable.next hnext, ?_⟩
  cases (hreachable.effect hnext).repoMove r with
  | call hstep _ hhistory =>
      rw [hhistory]
      exact htraced.step hstep (hreachable.coherent r)
  | sponsor hstate _ hhistory =>
      rw [hstate, hhistory]
      refine htraced.push ?_ ?_ ?_
      all_goals simp [Record.EndsTransfer, Record.EndsProposal, Record.ReplacesGuardians,
        Record.ChangesOwner, Record.Configures]
  | quiet hstate _ hhistory =>
      rw [hstate, hhistory]
      exact htraced

/-! ## The owner changes for a reason -/

/-- A traced transfer accepted in its time is justified. -/
theorem TransferTraced.justified {a b : Address} {pending : PendingOwnershipTransfer}
    (h : TransferTraced r a pending history) (hb : pending.newOwner = b)
    (hafter : pending.executeAfter ≤ now) (hbefore : now ≤ pending.expiresAt) :
    TransferJustified r a b history now := by
  obtain ⟨t, later, hsince, hexecute, hexpires⟩ := h
  rw [hb] at hsince
  exact ⟨t, later, hsince, hexecute ▸ hafter, hexpires ▸ hbefore⟩

/-- A traced proposal executed in its time with enough approvals is justified. -/
theorem ProposalTraced.justified {a b : Address} {config : GuardianConfig} {proposal : Proposal}
    {flags : Address → Bool} (h : ProposalTraced d r config.guardians proposal flags history)
    (hconfig : GuardiansTraced d r a config history) (hb : proposal.newOwner = b)
    (hafter : proposal.executeAfter ≤ now) (hbefore : now ≤ proposal.expiresAt)
    (hthreshold : config.threshold ≤ proposal.approvals) :
    RecoveryJustified d r a b history now := by
  obtain ⟨configuration, sinceConfiguration, hconfigures, hcurrent⟩ := hconfig
  obtain ⟨proposer, t, later, approvers, hsince, hexecute, hexpires, hnodup, hcount, -,
    happroved⟩ := h
  rw [hb] at hsince
  exact ⟨config.guardians, config.threshold, configuration, sinceConfiguration, proposer, t, later,
    approvers, hconfigures, hcurrent, hsince, hexecute ▸ hafter, hexpires ▸ hbefore, hnodup,
    hcount ▸ hthreshold, happroved⟩

/-- Whenever a move changes the owner of an existing repository, it is a call of the new owner that
either accepts an offer of the old one or executes a recovery its guardians approved, and the
history up to the call justifies it. -/
theorem owner_change_justified (h : Reachable d w) {move : Move d} (hnext : w.next move = .ok w')
    (r : Bytes32) (hpresent : (w.suite.core.repositories r).present = true)
    (hchange : (w'.suite.core.repositories r).owner ≠ (w.suite.core.repositories r).owner) :
    ∃ caller : Account d, caller.address = (w'.suite.core.repositories r).owner ∧
      ((move = .call caller (.core (.acceptOwnershipTransfer r)) ∧
        TransferJustified r (w.suite.core.repositories r).owner
          (w'.suite.core.repositories r).owner w.history w.now) ∨
      (move = .call caller (.recovery (.executeRecovery r)) ∧
        RecoveryJustified d r (w.suite.core.repositories r).owner
          (w'.suite.core.repositories r).owner w.history w.now)) := by
  have htraced := h.traced r
  have hcoherent := h.coherent r
  change (w'.suite.repoState r).owner ≠ (w.suite.repoState r).owner at hchange
  change (w.suite.repoState r).present = true at hpresent
  show ∃ caller : Account d, caller.address = (w'.suite.repoState r).owner ∧
      ((_ ∧ TransferJustified r (w.suite.repoState r).owner (w'.suite.repoState r).owner _ _) ∨
      (_ ∧ RecoveryJustified d r (w.suite.repoState r).owner (w'.suite.repoState r).owner _ _))
  cases (h.effect hnext).repoMove r with
  | sponsor hstate => exact absurd (congrArg RepoState.owner hstate) hchange
  | quiet hstate => exact absurd (congrArg RepoState.owner hstate) hchange
  | @call caller op hstep =>
      generalize w.suite.repoState r = v at *
      generalize w'.suite.repoState r = v' at *
      cases hstep with
      | register owner _ habsent => exact absurd (habsent.symm.trans hpresent) (by decide)
      | acceptTransfer _ hpending hsender hafter hbefore =>
          refine ⟨caller, hsender, .inl ⟨rfl, ?_⟩⟩
          exact (htraced.transfer hpending).justified rfl hafter hbefore
      | executeRecovery _ hpending hsender hafter hbefore hthreshold =>
          refine ⟨caller, hsender, .inr ⟨rfl, ?_⟩⟩
          exact (htraced.proposal hpending).justified
            (htraced.guardians (hcoherent.proposal_configured hpending)) rfl hafter hbefore
            hthreshold
      | _ => exact absurd rfl hchange

namespace Sample

/-- `dave` executes the recovery the guardians of `alice` agreed on. -/
def daveRecovers : Move deployment := .call dave (.recovery (.executeRecovery project))

/-- The recovery makes `dave` the owner, and the history justifies it. -/
theorem daveRecovers_justified :
    ∃ w', recoverable.next daveRecovers = .ok w' ∧
      (w'.suite.core.repositories project).owner = dave.address ∧
      RecoveryJustified deployment project alice.address dave.address recoverable.history
        recoverable.now := by
  have hpresent : (recoverable.suite.core.repositories project).present = true := by
    decide +kernel
  have halice : (recoverable.suite.core.repositories project).owner = alice.address := by
    decide +kernel
  have howner : ((recoverable.next daveRecovers).toOption.map fun w' =>
      (w'.suite.core.repositories project).owner) = some dave.address := by
    decide +kernel
  cases hnext : recoverable.next daveRecovers with
  | error reason =>
      rw [hnext] at howner
      cases howner
  | ok w' =>
      rw [hnext] at howner
      have hdave : (w'.suite.core.repositories project).owner = dave.address :=
        Option.some.inj howner
      refine ⟨w', rfl, hdave, ?_⟩
      obtain ⟨caller, -, ⟨hmove, -⟩ | ⟨-, hjustified⟩⟩ :=
        owner_change_justified recoverable_reachable hnext project hpresent
          (by rw [hdave, halice]; decide)
      · cases hmove
      · rw [hdave, halice] at hjustified
        exact hjustified

end Sample

end Igit
