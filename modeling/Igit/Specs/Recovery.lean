import Igit.Specs.Ownership

/-!
# The functions of the recovery module

When each function of the recovery module succeeds and what it leaves behind. The two loops over
guardians come first: `_clearConfig` drops the flags of the stored list, and `_setGuardians`
accepts a list exactly when it has no duplicate, no zero address and not the owner.
-/

namespace Igit

open Fallible

namespace Recovery

variable {r r' : Recovery} {repoId : Bytes32} {owner : Address}

/-- Flags with those of `guardians` set. -/
def flag (flags : Address → Bool) (guardians : List Address) (a : Address) : Bool :=
  flags a || guardians.contains a

/-- Flags with those of `guardians` cleared. -/
def unflag (flags : Address → Bool) (guardians : List Address) (a : Address) : Bool :=
  flags a && !guardians.contains a

/-- The flags after the loop of `_clearConfig`. -/
theorem foldl_unflag (guardians : List Address) (flags : Address → Bool) :
    guardians.foldl (fun flags guardian => Function.update flags guardian false) flags =
      unflag flags guardians := by
  induction guardians generalizing flags with
  | nil =>
      funext a
      simp [unflag]
  | cons guardian rest ih =>
      rw [List.foldl_cons, ih]
      funext a
      by_cases ha : a = guardian
      · simp [unflag, ha]
      · simp [unflag, ha]

/-- After `_clearConfig` the listed guardians have no flag. -/
theorem clearConfig_isGuardian :
    (r.clearConfig repoId).isGuardian repoId =
      unflag (r.isGuardian repoId) (r.configs repoId).guardians := by
  simp [clearConfig, foldl_unflag]

/-- The recovery state with `guardians` flagged and appended to the stored list. -/
def withGuardians (r : Recovery) (repoId : Bytes32) (guardians : List Address) : Recovery :=
  { r with
    isGuardian := Function.update r.isGuardian repoId (flag (r.isGuardian repoId) guardians)
    configs := Function.update r.configs repoId
      { r.configs repoId with guardians := (r.configs repoId).guardians ++ guardians } }

/-- Adding guardians one after the other. -/
theorem withGuardians_cons (guardian : Address) (rest : List Address) :
    (r.withGuardians repoId [guardian]).withGuardians repoId rest =
      r.withGuardians repoId (guardian :: rest) := by
  simp only [withGuardians, Function.update_self, Function.update_idem, List.append_assoc,
    List.cons_append, List.nil_append, Recovery.mk.injEq, and_true, true_and]
  congr 1
  funext a
  simp [flag, Bool.or_assoc]

/-- A guardian is an account other than the owner that was not named before. -/
theorem addGuardian_eq_ok {guardian : Address} :
    addGuardian repoId owner r guardian = .ok r' ↔
      guardian ≠ 0 ∧ guardian ≠ owner ∧ r.isGuardian repoId guardian = false ∧
        r' = r.withGuardians repoId [guardian] := by
  have hwrite : { r with
      isGuardian := Function.update r.isGuardian repoId
        (Function.update (r.isGuardian repoId) guardian true)
      configs := Function.update r.configs repoId
        { r.configs repoId with guardians := (r.configs repoId).guardians ++ [guardian] } } =
      r.withGuardians repoId [guardian] := by
    simp only [withGuardians, Recovery.mk.injEq, and_true, true_and]
    congr 1
    funext a
    by_cases ha : a = guardian
    · simp [flag, ha]
    · simp [flag, ha]
  simp only [addGuardian, bind_eq_ok, revertIf_eq_ok, exists_unit, pure_eq_ok, not_or,
    Bool.not_eq_true, hwrite]
  constructor
  · rintro ⟨⟨hzero, howner⟩, hflag, rfl⟩
    exact ⟨hzero, howner, hflag, rfl⟩
  · rintro ⟨hzero, howner, hflag, rfl⟩
    exact ⟨⟨hzero, howner⟩, hflag, rfl⟩

/-- The loop of `_setGuardians` accepts duplicate-free lists of new guardians. -/
theorem foldlM_addGuardian_eq_ok {guardians : List Address} :
    guardians.foldlM (addGuardian repoId owner) r = .ok r' ↔
      guardians.Nodup ∧
        (∀ g ∈ guardians, g ≠ 0 ∧ g ≠ owner ∧ r.isGuardian repoId g = false) ∧
        r' = r.withGuardians repoId guardians := by
  induction guardians generalizing r with
  | nil =>
      have hflags : flag (r.isGuardian repoId) [] = r.isGuardian repoId := by
        funext a
        simp [flag]
      have hnil : r.withGuardians repoId [] = r := by simp [withGuardians, hflags]
      simp only [List.foldlM_nil, pure_eq_ok, hnil, List.nodup_nil, List.not_mem_nil,
        false_implies, implies_true, true_and]
      exact eq_comm
  | cons guardian rest ih =>
      simp only [List.foldlM_cons, bind_eq_ok, addGuardian_eq_ok]
      constructor
      · rintro ⟨_, ⟨hzero, howner, hflag, rfl⟩, hrest⟩
        obtain ⟨hnodup, hall, rfl⟩ := ih.mp hrest
        have hnew : guardian ∉ rest := by
          intro hmem
          have := (hall guardian hmem).2.2
          simp [withGuardians, flag] at this
        refine ⟨List.nodup_cons.mpr ⟨hnew, hnodup⟩, ?_, withGuardians_cons guardian rest⟩
        refine List.forall_mem_cons.mpr ⟨⟨hzero, howner, hflag⟩, fun g hg => ?_⟩
        obtain ⟨hgzero, hgowner, hgflag⟩ := hall g hg
        refine ⟨hgzero, hgowner, ?_⟩
        simp only [withGuardians, flag, Function.update_self, Bool.or_eq_false_iff] at hgflag
        exact hgflag.1
      · rintro ⟨hnodup, hall, rfl⟩
        obtain ⟨⟨hzero, howner, hflag⟩, hrest⟩ := List.forall_mem_cons.mp hall
        obtain ⟨hnew, hnodup⟩ := List.nodup_cons.mp hnodup
        refine ⟨_, ⟨hzero, howner, hflag, rfl⟩, ih.mpr ⟨hnodup, fun g hg => ?_, ?_⟩⟩
        · obtain ⟨hgzero, hgowner, hgflag⟩ := hrest g hg
          refine ⟨hgzero, hgowner, ?_⟩
          have hne : g ≠ guardian := fun heq => hnew (heq ▸ hg)
          simp [withGuardians, flag, hgflag, hne]
        · exact (withGuardians_cons guardian rest).symm

/-- A guardian list `_setGuardians` may accept for `owner`. -/
structure ValidGuardians (owner : Address) (guardians : List Address) (threshold : Nat) : Prop where
  nonempty : guardians ≠ []
  length_le : guardians.length ≤ maxGuardians
  threshold_pos : threshold ≠ 0
  threshold_le : threshold ≤ guardians.length
  nodup : guardians.Nodup
  zero_notMem : 0 ∉ guardians
  owner_notMem : owner ∉ guardians

/-- The recovery state after `_setGuardians`. -/
def configured (r : Recovery) (repoId : Bytes32) (owner : Address) (guardians : List Address)
    (threshold : Nat) : Recovery :=
  { r with
    isGuardian := Function.update r.isGuardian repoId
      (flag (unflag (r.isGuardian repoId) (r.configs repoId).guardians) guardians)
    configs := Function.update r.configs repoId ⟨owner, threshold, guardians⟩ }

/-- None of `guardians` has a flag that clearing the stored list leaves. -/
def Unflagged (r : Recovery) (repoId : Bytes32) (guardians : List Address) : Prop :=
  ∀ g ∈ guardians, unflag (r.isGuardian repoId) (r.configs repoId).guardians g = false

/-- `_setGuardians` accepts the valid lists, and then stores the list and its flags. -/
theorem setGuardians_eq_ok {guardians : List Address} {threshold : Nat} :
    r.setGuardians repoId owner guardians threshold = .ok r' ↔
      ValidGuardians owner guardians threshold ∧ r.Unflagged repoId guardians ∧
        r' = r.configured repoId owner guardians threshold := by
  have hstored : ({ r.clearConfig repoId with
      configs := Function.update (r.clearConfig repoId).configs repoId ⟨owner, threshold, []⟩ } :
      Recovery).withGuardians repoId guardians = r.configured repoId owner guardians threshold := by
    simp only [withGuardians, configured, clearConfig, foldl_unflag, Function.update_self,
      Function.update_idem, List.nil_append]
  simp only [setGuardians, bind_eq_ok, revertIf_eq_ok, exists_unit, foldlM_addGuardian_eq_ok,
    not_or, Nat.not_lt, gt_iff_lt, hstored]
  constructor
  · rintro ⟨⟨hlength, hmax, hpos, hle⟩, hnodup, hall, rfl⟩
    refine ⟨⟨?_, hmax, hpos, hle, hnodup, ?_, ?_⟩, fun g hg => ?_, rfl⟩
    · intro hnil
      exact hlength (by rw [hnil]; rfl)
    · intro hmem
      exact (hall 0 hmem).1 rfl
    · intro hmem
      exact (hall owner hmem).2.1 rfl
    · rw [← clearConfig_isGuardian]
      exact (hall g hg).2.2
  · rintro ⟨⟨hnonempty, hmax, hpos, hle, hnodup, hzero, howner⟩, hunflagged, rfl⟩
    refine ⟨⟨?_, hmax, hpos, hle⟩, hnodup, fun g hg => ⟨?_, ?_, ?_⟩, rfl⟩
    · intro hlength
      exact hnonempty (List.eq_nil_of_length_eq_zero hlength)
    · rintro rfl
      exact hzero hg
    · rintro rfl
      exact howner hg
    · rw [clearConfig_isGuardian]
      exact hunflagged g hg

/-- `_setGuardians` accepts only valid lists. -/
theorem setGuardians_ok {guardians : List Address} {threshold : Nat}
    (h : r.setGuardians repoId owner guardians threshold = .ok r') :
    ValidGuardians owner guardians threshold ∧ r' = r.configured repoId owner guardians threshold := by
  obtain ⟨hvalid, -, hstored⟩ := setGuardians_eq_ok.mp h
  exact ⟨hvalid, hstored⟩

theorem activeConfig_eq_ok {config : GuardianConfig} {currentOwner : Address} :
    r.activeConfig repoId currentOwner = .ok config ↔
      (r.configs repoId).threshold ≠ 0 ∧ (r.configs repoId).configuredBy = currentOwner ∧
        r.configs repoId = config := by
  simp only [activeConfig, bind_eq_ok, revertIf_eq_ok, exists_unit, pure_eq_ok, not_not, ne_eq]

end Recovery

namespace Suite

variable {d : Deployment} {s s' : Suite} {msg : Message} {repoId : Bytes32}

/-- `setGuardians` is the owner's and drops the proposal there was. -/
theorem setGuardians_ok {guardians : List Address} {threshold : Nat}
    (h : s.setGuardians msg repoId guardians threshold = .ok s') :
    s.IsActive ∧ (s.core.repositories repoId).present = true ∧
      msg.sender = (s.core.repositories repoId).owner ∧
      Recovery.ValidGuardians (s.core.repositories repoId).owner guardians threshold ∧
      s' = s.setRecovery ((s.recovery.configured repoId (s.core.repositories repoId).owner guardians
        threshold).deleteProposal repoId) := by
  simp only [setGuardians, bind_eq_ok, onlyActiveSuite_eq_ok, repository_eq_ok, revertIf_eq_ok,
    exists_unit, pure_eq_ok, not_not] at h
  obtain ⟨hactive, _, ⟨-, hpresent, rfl⟩, hsender, _, hconfigured, rfl⟩ := h
  obtain ⟨hvalid, rfl⟩ := Recovery.setGuardians_ok hconfigured
  exact ⟨hactive, hpresent, hsender, hvalid, rfl⟩

/-- The proposal `proposeRecovery` stores. -/
def newProposal (s : Suite) (msg : Message) (repoId : Bytes32) (newOwner : Address) : Proposal :=
  ⟨msg.sender, newOwner, msg.timestamp + recoveryDelay,
    msg.timestamp + recoveryDelay + recoveryWindow, s.recovery.proposalNonces repoId + 1, 1⟩

/-- `proposeRecovery` is a guardian's, for a repository with neither a proposal nor a transfer under
way. -/
theorem proposeRecovery_ok {newOwner : Address}
    (h : s.proposeRecovery msg repoId newOwner = .ok s') :
    s.IsActive ∧ (s.core.repositories repoId).present = true ∧
      (s.recovery.configs repoId).threshold ≠ 0 ∧
      s.recovery.isGuardian repoId msg.sender = true ∧
      newOwner ≠ 0 ∧ newOwner ≠ (s.core.repositories repoId).owner ∧
      (s.recovery.proposals repoId).newOwner = 0 ∧
      (s.core.pendingTransfers repoId).newOwner = 0 ∧
      msg.timestamp + recoveryDelay + recoveryWindow ≤ uint64Max ∧
      s' = s.setRecovery (s.recovery.putProposal repoId (s.newProposal msg repoId newOwner)) := by
  simp only [proposeRecovery, bind_eq_ok, onlyActiveSuite_eq_ok, repository_eq_ok,
    Recovery.activeConfig_eq_ok, requireModule_eq_ok, requireRepository_eq_ok, revertIf_eq_ok,
    exists_unit, pure_eq_ok, not_not, not_or, Bool.not_eq_false, now64_eq_ok, addTime_eq_ok] at h
  obtain ⟨hactive, _, ⟨-, hpresent, rfl⟩, _, ⟨hthreshold, -, rfl⟩, hguardian, ⟨hzero, howner⟩,
    hproposal, _, -, _, -, hpending, -, _, ⟨-, rfl⟩, _, ⟨-, rfl⟩, _, ⟨hfits, rfl⟩, -, rfl⟩ := h
  exact ⟨hactive, hpresent, hthreshold, hguardian, hzero, howner, hproposal, hpending, hfits, rfl⟩

/-- `approveRecovery` counts each guardian once, before the proposal expires. -/
theorem approveRecovery_ok (h : s.approveRecovery msg repoId = .ok s') :
    s.IsActive ∧ (s.core.repositories repoId).present = true ∧
      (s.recovery.proposals repoId).newOwner ≠ 0 ∧
      msg.timestamp ≤ (s.recovery.proposals repoId).expiresAt ∧
      s.recovery.isGuardian repoId msg.sender = true ∧
      s.recovery.approvals repoId (s.recovery.proposals repoId).nonce msg.sender = false ∧
      s' = s.setRecovery (s.recovery.putApproval repoId msg.sender) := by
  simp only [approveRecovery, bind_eq_ok, onlyActiveSuite_eq_ok, repository_eq_ok, now64_eq_ok,
    revertIf_eq_ok, exists_unit, pure_eq_ok, Bool.not_eq_false, Bool.not_eq_true, Nat.not_lt,
    gt_iff_lt] at h
  obtain ⟨hactive, _, ⟨-, hpresent, rfl⟩, _, -, hpending, _, ⟨-, rfl⟩, hopen, hguardian, hnew, -,
    rfl⟩ := h
  exact ⟨hactive, hpresent, hpending, hopen, hguardian, hnew, rfl⟩

/-- The recovery state `executeRecovery` leaves before it calls the core. -/
def beforeRecovery (s : Suite) (repoId : Bytes32) : Suite :=
  s.setRecovery ((s.recovery.deleteProposal repoId).clearConfig repoId)

/-- `executeRecovery` is the proposed owner's, within the time of the proposal and with enough
approvals of guardians the present owner named. -/
theorem executeRecovery_eq_ok (hregistered : s.Registered d) :
    s.executeRecovery d msg repoId = .ok s' ↔
      s.IsActive ∧ (s.core.repositories repoId).present = true ∧
        (s.recovery.configs repoId).threshold ≠ 0 ∧
        (s.recovery.configs repoId).configuredBy = (s.core.repositories repoId).owner ∧
        (s.recovery.proposals repoId).newOwner ≠ 0 ∧
        msg.sender = (s.recovery.proposals repoId).newOwner ∧ msg.timestamp ≤ uint64Max ∧
        (s.recovery.proposals repoId).executeAfter ≤ msg.timestamp ∧
        msg.timestamp ≤ (s.recovery.proposals repoId).expiresAt ∧
        (s.recovery.configs repoId).threshold ≤ (s.recovery.proposals repoId).approvals ∧
        (s.recovery.proposals repoId).newOwner ≠ (s.core.repositories repoId).owner ∧
        (s.core.pendingTransfers repoId).newOwner = 0 ∧
        s.core.AvailableFor d repoId (s.recovery.proposals repoId).newOwner
          (s.core.repositories repoId).name ∧
        ∃ moved, s.core.CanMove repoId (s.core.repositories repoId).owner moved ∧
          s' = (s.beforeRecovery repoId).transferred d repoId
            (s.recovery.proposals repoId).newOwner moved := by
  have hcleared : (s.beforeRecovery repoId).Registered d := hregistered.of_directory rfl
  have hcall : ∀ newOwner t, (s.beforeRecovery repoId).recoverOwnership d
      ⟨d.moduleAt .recovery, t⟩ repoId newOwner = .ok s' ↔ _ :=
    fun _ _ => recoverOwnership_eq_ok hcleared
  simp only [executeRecovery, bind_eq_ok, onlyActiveSuite_eq_ok, repository_eq_ok,
    Recovery.activeConfig_eq_ok, requireModule_eq_ok, revertIf_eq_ok, exists_unit, not_not,
    Nat.not_lt, gt_iff_lt, now64_eq_ok]
  constructor
  · rintro ⟨hactive, _, ⟨-, hpresent, rfl⟩, _, ⟨hthreshold, hconfigured, rfl⟩, hpending, hsender, _,
      ⟨hclock, rfl⟩, hafter, hbefore, happrovals, _, -, h⟩
    obtain ⟨-, -, -, howner, htransfer, h⟩ := (hcall _ _).mp h
    exact ⟨hactive, hpresent, hthreshold, hconfigured, hpending, hsender, hclock, hafter, hbefore,
      happrovals, howner, htransfer, h⟩
  · rintro ⟨hactive, hpresent, hthreshold, hconfigured, hpending, hsender, hclock, hafter, hbefore,
      happrovals, howner, htransfer, h⟩
    have hcore : s.moduleAddress .core ≠ 0 := hregistered.complete hactive _
    exact ⟨hactive, _, ⟨hcore, hpresent, rfl⟩, _, ⟨hthreshold, hconfigured, rfl⟩, hpending, hsender,
      _, ⟨hclock, rfl⟩, hafter, hbefore, happrovals, _, ⟨hcore, rfl⟩,
      (hcall _ _).mpr ⟨hactive, hpresent, hpending, howner, htransfer, h⟩⟩

end Suite

end Igit
