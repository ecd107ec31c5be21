import Igit.Ownership.Protocol

/-!
# Guardians, proposals and transfers

The invariants of the protocol of one repository. A pending transfer and a pending recovery exclude
each other, and a stored guardian list is always the current owner's, with the flags to match. The
check for a stale configuration therefore never fires.
-/

namespace Igit

open Fallible

namespace RepoState

variable {d : Deployment} {r : Bytes32} {sender : Address} {now : Nat} {op : Op}
variable {v v' : RepoState}

/-- The parts of the ownership state of a repository fit together. -/
structure Coherent (v : RepoState) : Prop where
  exclusive : v.pending.newOwner = 0 ∨ v.proposal.newOwner = 0
  pending_present : v.pending.newOwner ≠ 0 → v.present = true
  pending_fits : v.pending.expiresAt ≤ uint64Max
  flags : ∀ a, v.isGuardian a = true ↔ a ∈ v.config.guardians
  unconfigured : v.config.threshold = 0 → v.config.guardians = []
  configured : v.config.threshold ≠ 0 → v.present = true ∧ v.config.configuredBy = v.owner ∧
    Recovery.ValidGuardians v.owner v.config.guardians v.config.threshold
  proposal_configured : v.proposal.newOwner ≠ 0 → v.config.threshold ≠ 0
  proposal_ne_owner : v.proposal.newOwner ≠ 0 → v.proposal.newOwner ≠ v.owner
  proposal_fits : v.proposal.expiresAt ≤ uint64Max

/-- An absent repository has nothing pending and no guardians. -/
theorem Coherent.absent (h : v.Coherent) (habsent : v.present = false) :
    v.pending.newOwner = 0 ∧ v.config.threshold = 0 ∧ v.proposal.newOwner = 0 := by
  have hpending : v.pending.newOwner = 0 := by
    by_contra hne
    exact absurd (habsent.symm.trans (h.pending_present hne)) (by decide)
  have hconfig : v.config.threshold = 0 := by
    by_contra hne
    exact absurd (habsent.symm.trans (h.configured hne).1) (by decide)
  have hproposal : v.proposal.newOwner = 0 := by
    by_contra hne
    exact h.proposal_configured hne hconfig
  exact ⟨hpending, hconfig, hproposal⟩

/-- With exact flags, dropping the flags of the stored list drops them all. -/
theorem Coherent.unflagged (h : v.Coherent) (a : Address) : v.unflagged a = false := by
  have hflags := h.flags a
  rw [RepoState.unflagged, Recovery.unflag]
  cases hflag : v.isGuardian a with
  | false => simp
  | true => simp [hflags.mp hflag]

/-- A stored list replaces the flags. -/
theorem Coherent.configured_flags (h : v.Coherent) {owner : Address} {guardians : List Address}
    {threshold : Nat} (a : Address) :
    (v.configured owner guardians threshold).isGuardian a = true ↔ a ∈ guardians := by
  show Recovery.flag v.unflagged guardians a = true ↔ a ∈ guardians
  rw [Recovery.flag, h.unflagged]
  simp

theorem Coherent.configure (h : v.Coherent) {guardians : List Address} {threshold : Nat}
    (hpresent : v.present = true)
    (hvalid : Recovery.ValidGuardians v.owner guardians threshold) :
    (v.configured v.owner guardians threshold).Coherent where
  exclusive := h.exclusive
  pending_present := h.pending_present
  pending_fits := h.pending_fits
  flags := h.configured_flags
  unconfigured hzero := absurd hzero hvalid.threshold_pos
  configured _ := ⟨hpresent, rfl, hvalid⟩
  proposal_configured _ := hvalid.threshold_pos
  proposal_ne_owner := h.proposal_ne_owner
  proposal_fits := h.proposal_fits

/-- Forgetting a proposal keeps the rest as it is. -/
theorem Coherent.withdraw (h : v.Coherent) : Coherent { v with proposal := default } where
  exclusive := .inr rfl
  pending_present := h.pending_present
  pending_fits := h.pending_fits
  flags := h.flags
  unconfigured := h.unconfigured
  configured := h.configured
  proposal_configured hne := absurd rfl hne
  proposal_ne_owner hne := absurd rfl hne
  proposal_fits := Nat.zero_le _

/-- Forgetting a transfer keeps the rest as it is. -/
theorem Coherent.drop (h : v.Coherent) : Coherent { v with pending := default } where
  exclusive := .inl rfl
  pending_present hne := absurd rfl hne
  pending_fits := Nat.zero_le _
  flags := h.flags
  unconfigured := h.unconfigured
  configured := h.configured
  proposal_configured := h.proposal_configured
  proposal_ne_owner := h.proposal_ne_owner
  proposal_fits := h.proposal_fits

/-- A change of owner leaves nothing of the old owner's arrangements. -/
theorem Coherent.handOver (h : v.Coherent) (newOwner : Address) :
    (v.handedOver newOwner).Coherent where
  exclusive := .inl rfl
  pending_present hne := absurd rfl hne
  pending_fits := Nat.zero_le _
  flags a := by
    show v.unflagged a = true ↔ a ∈ []
    simp [h.unflagged]
  unconfigured _ := rfl
  configured hne := absurd rfl hne
  proposal_configured hne := absurd rfl hne
  proposal_ne_owner hne := absurd rfl hne
  proposal_fits := Nat.zero_le _

/-- Every transition of the protocol keeps the state coherent. -/
theorem Coherent.step (hstep : RepoStep d r sender now op v v') (h : v.Coherent) : v'.Coherent := by
  cases hstep with
  | idle => exact h
  | register owner _ habsent =>
      -- nothing is pending and there are no guardians, so any owner will do
      obtain ⟨-, hconfig, hproposal⟩ := h.absent habsent
      exact { h with
        pending_present := fun _ => rfl
        configured := fun hne => absurd hconfig hne
        proposal_ne_owner := fun hne => absurd hproposal hne }
  | importGuardians _ _ hpresent _ _ hvalid => exact h.configure hpresent hvalid
  | beginTransfer hpresent _ _ _ _ hproposal hfits =>
      exact { h with
        exclusive := .inr hproposal
        pending_present := fun _ => hpresent
        pending_fits := hfits }
  | cancelTransfer => exact h.drop
  | expireTransfer => exact h.drop
  | acceptTransfer => exact h.handOver _
  | setGuardians hpresent _ hvalid => exact (h.configure hpresent hvalid).withdraw
  | propose hpresent hconfig _ _ howner _ htransfer hfits =>
      exact { h with
        exclusive := .inl htransfer
        proposal_configured := fun _ => hconfig
        proposal_ne_owner := fun _ => howner
        proposal_fits := hfits }
  | approve => exact { h with }
  | cancelRecovery => exact h.withdraw
  | executeRecovery => exact h.handOver _

end RepoState

variable {d : Deployment} {w : World}

/-- The ownership state of every repository is coherent in every reachable world. -/
theorem Reachable.coherent (h : Reachable d w) (r : Bytes32) : (w.suite.repoState r).Coherent := by
  refine h.repo_invariant r ?_ fun _ _ _ _ _ hstep hv => hv.step hstep
  exact ⟨.inl rfl, fun hne => absurd rfl hne, Nat.zero_le _, fun a => by
      show false = true ↔ a ∈ []
      simp,
    fun _ => rfl, fun hne => absurd rfl hne, fun hne => absurd rfl hne, fun hne => absurd rfl hne,
    Nat.zero_le _⟩

/-! ## The stale-configuration check -/

/-- The reason is not `GuardianConfigStale`. -/
def Revert.NotStale (reason : Revert) : Prop :=
  ∀ configuredBy currentOwner, reason ≠ .guardianConfigStale configuredBy currentOwner

namespace Suite

variable {s : Suite} {msg : Message} {repoId : Bytes32}

theorem repository_notStale : Refuses (s.repository repoId) Revert.NotStale := by
  simp only [repository, refuses_bind]
  refine ⟨by simp [requireModule, Revert.NotStale], returns_true.mono fun _ _ => ?_⟩
  split <;> simp [Revert.NotStale]

theorem cancelRecovery_notStale : Refuses (s.cancelRecovery msg repoId) Revert.NotStale := by
  have hrepository : Refuses (s.repository repoId) Revert.NotStale := repository_notStale
  simp [cancelRecovery, onlyActiveSuite, requireModule, hrepository, Revert.NotStale]

theorem recoverOwnership_notStale {newOwner : Address} :
    Refuses (s.recoverOwnership d msg repoId newOwner) Revert.NotStale := by
  have hrepository : ∀ s : Suite, Refuses (s.repository repoId) Revert.NotStale :=
    fun _ => repository_notStale
  have hcancel : ∀ (s : Suite) (msg : Message), Refuses (s.cancelRecovery msg repoId)
      Revert.NotStale := fun _ _ => cancelRecovery_notStale
  have hmove : ∀ owner, Refuses (s.core.moveOwnerIndex repoId owner newOwner) Revert.NotStale := by
    intro owner
    simp only [Core.moveOwnerIndex, refuses_bind, refuses_revertIf]
    refine ⟨by simp [Revert.NotStale], returns_true.mono fun _ _ => ?_⟩
    split <;> simp [Revert.NotStale]
  simp [recoverOwnership, transferOwnership, clearRevenueSplitsOnOwnershipTransfer,
    onlyActiveSuite, requireModule, requireRepository, requireLocatorAvailableFor, hrepository,
    hcancel, hmove, Revert.NotStale]

/-- In a coherent state the stored configuration is the current owner's. -/
theorem activeConfig_notStale (h : (s.repoState repoId).Coherent) :
    Refuses (s.recovery.activeConfig repoId (s.core.repositories repoId).owner)
      Revert.NotStale := by
  simp only [Recovery.activeConfig, refuses_bind, refuses_revertIf, returns_revertIf, refuses_pure,
    implies_true, and_true]
  refine ⟨by simp [Revert.NotStale], fun hthreshold hstale => ?_⟩
  exact absurd (h.configured hthreshold).2.1 hstale

/-- What is done with the guardians of a repository does not find them stale. -/
theorem withConfig_notStale (h : (s.repoState repoId).Coherent) {α : Type}
    {rest : Repository → GuardianConfig → Except Revert α}
    (hrest : ∀ repository config, Refuses (rest repository config) Revert.NotStale) :
    Refuses (do
      s.onlyActiveSuite
      let repository ← s.repository repoId
      let config ← s.recovery.activeConfig repoId repository.owner
      rest repository config) Revert.NotStale := by
  simp only [refuses_bind]
  refine ⟨by simp [onlyActiveSuite, Revert.NotStale], returns_true.mono fun _ _ =>
    ⟨repository_notStale, fun repository hfound => ⟨?_, fun config _ => hrest repository config⟩⟩⟩
  obtain ⟨-, -, rfl⟩ := repository_eq_ok.mp hfound
  exact activeConfig_notStale h

theorem proposeRecovery_notStale (h : (s.repoState repoId).Coherent) {newOwner : Address} :
    Refuses (s.proposeRecovery msg repoId newOwner) Revert.NotStale :=
  withConfig_notStale h fun _ _ => by
    simp [requireModule, requireRepository, now64, addTime, Revert.NotStale]

theorem approveRecovery_notStale (h : (s.repoState repoId).Coherent) :
    Refuses (s.approveRecovery msg repoId) Revert.NotStale :=
  withConfig_notStale h fun _ _ => by simp [now64, Revert.NotStale]

theorem executeRecovery_notStale (h : (s.repoState repoId).Coherent) :
    Refuses (s.executeRecovery d msg repoId) Revert.NotStale := by
  have hrecover : ∀ (s : Suite) (msg : Message) (newOwner : Address),
      Refuses (s.recoverOwnership d msg repoId newOwner) Revert.NotStale :=
    fun _ _ _ => recoverOwnership_notStale
  exact withConfig_notStale h fun _ _ => by
    simp [requireModule, now64, hrecover, Revert.NotStale]

/-- No function of the recovery module reverts with `GuardianConfigStale`. -/
theorem callRecovery_notStale (h : ∀ r, (s.repoState r).Coherent) {op : RecoveryOp} :
    Refuses (s.callRecovery d msg op) Revert.NotStale := by
  cases op with
  | setGuardians repoId guardians threshold =>
      have hrepository : Refuses (s.repository repoId) Revert.NotStale := repository_notStale
      have hloop : ∀ owner (r : Recovery), Refuses
          (guardians.foldlM (Recovery.addGuardian repoId owner) r) Revert.NotStale :=
        fun _ _ => refuses_foldlM fun _ _ => by simp [Recovery.addGuardian, Revert.NotStale]
      simp [callRecovery, setGuardians, Recovery.setGuardians, onlyActiveSuite, hrepository, hloop,
        Revert.NotStale]
  | proposeRecovery repoId newOwner => exact proposeRecovery_notStale (h repoId)
  | approveRecovery repoId => exact approveRecovery_notStale (h repoId)
  | cancelRecovery repoId => exact cancelRecovery_notStale
  | executeRecovery repoId => exact executeRecovery_notStale (h repoId)

end Suite

/-- In every reachable world a pending transfer and a pending recovery of a repository exclude each
other, every stored guardian configuration was made by the current owner, with exactly its one to
ten distinct guardians flagged and the owner not among them, no account is flagged where nothing is
stored, and no call of the recovery module finds a stale configuration. -/
theorem transfer_excludes_recovery_and_guardians_current (h : Reachable d w) :
    (∀ r, ¬ ((w.suite.core.pendingTransfers r).newOwner ≠ 0 ∧
      (w.suite.recovery.proposals r).newOwner ≠ 0)) ∧
    (∀ r, (w.suite.recovery.configs r).threshold ≠ 0 →
      (w.suite.recovery.configs r).configuredBy = (w.suite.core.repositories r).owner ∧
      (∀ a, w.suite.recovery.isGuardian r a = true ↔
        a ∈ (w.suite.recovery.configs r).guardians) ∧
      (w.suite.recovery.configs r).guardians.Nodup ∧
      1 ≤ (w.suite.recovery.configs r).guardians.length ∧
      (w.suite.recovery.configs r).guardians.length ≤ 10 ∧
      (w.suite.core.repositories r).owner ∉ (w.suite.recovery.configs r).guardians) ∧
    (∀ r, (w.suite.recovery.configs r).threshold = 0 →
      (w.suite.recovery.configs r).guardians = [] ∧ ∀ a, w.suite.recovery.isGuardian r a = false) ∧
    (∀ msg op configuredBy currentOwner, w.suite.callRecovery d msg op ≠
      .error (.guardianConfigStale configuredBy currentOwner)) := by
  refine ⟨fun r => ?_, fun r hstored => ?_, fun r hnone => ?_,
    fun msg op configuredBy currentOwner hstale => ?_⟩
  · rintro ⟨hpending, hproposal⟩
    exact (h.coherent r).exclusive.elim hpending hproposal
  · obtain ⟨-, howner, hvalid⟩ := (h.coherent r).configured hstored
    exact ⟨howner, (h.coherent r).flags, hvalid.nodup, List.length_pos_iff.mpr hvalid.nonempty,
      hvalid.length_le, hvalid.owner_notMem⟩
  · have hempty := (h.coherent r).unconfigured hnone
    refine ⟨hempty, fun a => ?_⟩
    have hflags := (h.coherent r).flags a
    rw [hempty] at hflags
    exact Bool.eq_false_iff.mpr fun hflag => List.not_mem_nil (hflags.mp hflag)
  · exact Suite.callRecovery_notStale h.coherent _ hstale configuredBy currentOwner rfl

namespace Sample

/-- A fourth user. -/
def dave : Account deployment := ⟨0xda7e, by decide⟩

/-- `alice` names `bob` and `carol` as guardians, and `bob` proposes `dave` as the new owner. -/
def proposed : World := genesis.run
  [callAfter 1 alice (.core (.createRepository projectName [] [])),
   callAfter 1 alice (.recovery (.setGuardians project [bob.address, carol.address] 2)),
   callAfter 1 bob (.recovery (.proposeRecovery project dave.address))]

theorem proposed_reachable : Reachable deployment proposed := genesis_reachable _

/-- The proposal is open, so no transfer is, and the guardians are `alice`'s. -/
theorem proposed_guardians :
    (proposed.suite.recovery.proposals project).newOwner = dave.address ∧
      (proposed.suite.recovery.configs project).threshold = 2 ∧
      (proposed.suite.core.pendingTransfers project).newOwner = 0 ∧
      (proposed.suite.recovery.configs project).configuredBy = alice.address := by
  have hinvariant := transfer_excludes_recovery_and_guardians_current proposed_reachable
  have hproposal : (proposed.suite.recovery.proposals project).newOwner = dave.address := by
    decide +kernel
  have hthreshold : (proposed.suite.recovery.configs project).threshold = 2 := by decide +kernel
  have howner : (proposed.suite.core.repositories project).owner = alice.address := by
    decide +kernel
  refine ⟨hproposal, hthreshold, ?_, ?_⟩
  · by_contra hpending
    exact hinvariant.1 project ⟨hpending, by rw [hproposal]; decide⟩
  · rw [← howner]
    exact (hinvariant.2.1 project (by rw [hthreshold]; decide)).1

end Sample

end Igit
