import Igit.Contracts.World

/-!
# When the shared checks and hooks pass

One lemma for each check and hook of `Contracts.Hooks`: exactly when it succeeds, and with what
result. The specifications of the external functions are put together from these. In a suite with its
modules `Registered` every module lookup finds the deployed module, and no outside account can pass
for one.
-/

namespace Igit

open Fallible

namespace Suite

variable {d : Deployment} {s s' : Suite} {msg : Message} {repoId : Bytes32}

/-- The directory has been activated. -/
def IsActive (s : Suite) : Prop := s.directory.state = .active

instance (s : Suite) : Decidable s.IsActive := inferInstanceAs (Decidable (_ = _))

@[simp] theorem onlyActiveSuite_eq_ok {u : Unit} : s.onlyActiveSuite = .ok u ↔ s.IsActive := by
  simp [onlyActiveSuite, IsActive]

/-- A module is called at the address the directory has for it. -/
@[simp] theorem requireModule_eq_ok {m : Module} {a : Address} :
    s.requireModule m = .ok a ↔ s.moduleAddress m ≠ 0 ∧ s.moduleAddress m = a := by
  simp only [requireModule, bind_eq_ok, revertIf_eq_ok, exists_unit, pure_eq_ok, ne_eq]

@[simp] theorem requireRepository_eq_ok {r : Repository} :
    s.requireRepository repoId = .ok r ↔
      (s.core.repositories repoId).present = true ∧ s.core.repositories repoId = r := by
  simp only [requireRepository, bind_eq_ok, revertIf_eq_ok, exists_unit, pure_eq_ok,
    Bool.not_eq_false]

/-- The other modules read a repository from the core the directory has. -/
@[simp] theorem repository_eq_ok {r : Repository} :
    s.repository repoId = .ok r ↔
      s.moduleAddress .core ≠ 0 ∧ (s.core.repositories repoId).present = true ∧
        s.core.repositories repoId = r := by
  simp only [repository, bind_eq_ok, requireModule_eq_ok]
  cases hfound : s.requireRepository repoId with
  | error reason =>
      have habsent : ¬ (s.core.repositories repoId).present = true := by
        intro hpresent
        have hok := requireRepository_eq_ok.mpr ⟨hpresent, rfl⟩
        rw [hfound] at hok
        cases hok
      simp [habsent]
  | ok found =>
      obtain ⟨hpresent, rfl⟩ := requireRepository_eq_ok.mp hfound
      simp [hpresent]

/-- The refs of a frozen repository may not be changed. -/
@[simp] theorem requireRefMutation_eq_ok {u : Unit} :
    s.requireRefMutation repoId = .ok u ↔
      s.moduleAddress .core ≠ 0 ∧ (s.core.repositories repoId).present = true ∧
        s.moderation.statuses repoId ≠ .frozen := by
  simp [requireRefMutation, requireNotFrozen, bind_eq_ok, and_assoc]

/-- A locator is available when it is neither taken nor reserved. -/
@[simp] theorem requireLocatorAvailable_eq_ok {locator : Bytes32} {owner : Address} {name : Bytes}
    {u : Unit} :
    s.requireLocatorAvailable locator owner name = .ok u ↔
      s.core.locators locator = 0 ∧ s.core.reservedLocators locator = 0 := by
  simp [requireLocatorAvailable]

/-- A locator is available for a repository also when that one has taken or reserved it. -/
@[simp] theorem requireLocatorAvailableFor_eq_ok {locator : Bytes32} {owner : Address}
    {name : Bytes} {u : Unit} :
    s.requireLocatorAvailableFor repoId locator owner name = .ok u ↔
      (s.core.locators locator = 0 ∨ s.core.locators locator = repoId) ∧
        (s.core.reservedLocators locator = 0 ∨ s.core.reservedLocators locator = repoId) := by
  simp only [requireLocatorAvailableFor, revertIf_eq_ok, not_or, not_and, not_not]
  constructor
  · rintro ⟨hheld, hreserved⟩
    exact ⟨Classical.or_iff_not_imp_left.mpr hheld, Classical.or_iff_not_imp_left.mpr hreserved⟩
  · rintro ⟨hheld, hreserved⟩
    exact ⟨Classical.or_iff_not_imp_left.mp hheld, Classical.or_iff_not_imp_left.mp hreserved⟩

@[simp] theorem validateRefName_eq_ok {value : Bytes} {u : Unit} :
    validateRefName value = .ok u ↔ validRefName value = true := by
  simp [validateRefName]

@[simp] theorem validateCommitSha_eq_ok {value : Bytes} {u : Unit} :
    validateCommitSha value = .ok u ↔ validCommitSha value = true := by
  simp [validateCommitSha]

@[simp] theorem validatePackUri_eq_ok {value : Bytes} {u : Unit} :
    validatePackUri value = .ok u ↔ validPackUri value = true := by
  simp [validatePackUri]

/-- The recovery state after an ownership hook: no configuration and no proposal. -/
def clearRecovery (s : Suite) (repoId : Bytes32) : Suite :=
  s.setRecovery ((s.recovery.clearConfig repoId).deleteProposal repoId)

/-- The economic module may always clear the recovery state of an existing repository. -/
theorem cancelRecovery_hook_eq_ok
    (heconomic : s.moduleAddress .economic = d.moduleAt .economic) {t : Nat} :
    s.cancelRecovery ⟨d.moduleAt .economic, t⟩ repoId = .ok s' ↔
      s.IsActive ∧ s.moduleAddress .core ≠ 0 ∧ (s.core.repositories repoId).present = true ∧
        s' = s.clearRecovery repoId := by
  simp only [cancelRecovery, bind_eq_ok, onlyActiveSuite_eq_ok, repository_eq_ok,
    requireModule_eq_ok, exists_unit, heconomic]
  constructor
  · rintro ⟨hactive, _, ⟨hcore, hpresent, rfl⟩, _, ⟨-, rfl⟩, h⟩
    rw [if_pos (Or.inr trivial), pure_eq_ok] at h
    exact ⟨hactive, hcore, hpresent, h.symm⟩
  · rintro ⟨hactive, hcore, hpresent, rfl⟩
    refine ⟨hactive, _, ⟨hcore, hpresent, rfl⟩, _, ⟨hcore, rfl⟩, ?_⟩
    rw [if_pos (Or.inr trivial)]
    rfl

/-- An outside caller of `cancelRecovery` withdraws a pending proposal, as its target or as the
owner, and leaves the guardians alone. -/
theorem cancelRecovery_outside_eq_ok (hcore : msg.sender ≠ s.moduleAddress .core)
    (heconomic : msg.sender ≠ s.moduleAddress .economic) :
    s.cancelRecovery msg repoId = .ok s' ↔
      s.IsActive ∧ s.moduleAddress .core ≠ 0 ∧ (s.core.repositories repoId).present = true ∧
        (s.recovery.proposals repoId).newOwner ≠ 0 ∧
        (msg.sender = (s.core.repositories repoId).owner ∨
          msg.sender = (s.recovery.proposals repoId).newOwner) ∧
        s' = s.setRecovery (s.recovery.deleteProposal repoId) := by
  simp only [cancelRecovery, bind_eq_ok, onlyActiveSuite_eq_ok, repository_eq_ok,
    requireModule_eq_ok, exists_unit]
  have hother : ¬ (msg.sender = s.moduleAddress .core ∨ msg.sender = s.moduleAddress .economic) := by
    rintro (h | h)
    · exact hcore h
    · exact heconomic h
  constructor
  · rintro ⟨hactive, _, ⟨hregistered, hpresent, rfl⟩, _, ⟨-, rfl⟩, h⟩
    rw [if_neg hother] at h
    simp only [bind_eq_ok, revertIf_eq_ok, exists_unit, pure_eq_ok] at h
    obtain ⟨hpending, hsender, rfl⟩ := h
    exact ⟨hactive, hregistered, hpresent, hpending, by tauto, rfl⟩
  · rintro ⟨hactive, hregistered, hpresent, hpending, hsender, rfl⟩
    refine ⟨hactive, _, ⟨hregistered, hpresent, rfl⟩, _, ⟨hregistered, rfl⟩, ?_⟩
    rw [if_neg hother]
    simp only [bind_eq_ok, revertIf_eq_ok, exists_unit, pure_eq_ok]
    exact ⟨hpending, by tauto, rfl⟩

/-- The state after the core's call of the economic hook. -/
def afterOwnershipHook (s : Suite) (repoId : Bytes32) : Suite :=
  (s.deleteSplits repoId).clearRecovery repoId

/-- The ownership hook succeeds for the registered core, on an existing repository of an active
suite with its modules registered. -/
theorem clearRevenueSplits_hook_eq_ok (hcore : s.moduleAddress .core = d.moduleAt .core)
    (heconomic : s.moduleAddress .economic = d.moduleAt .economic) {t : Nat} :
    s.clearRevenueSplitsOnOwnershipTransfer d ⟨d.moduleAt .core, t⟩ repoId = .ok s' ↔
      s.IsActive ∧ (s.core.repositories repoId).present = true ∧
        s.moduleAddress .recovery ≠ 0 ∧ s' = s.afterOwnershipHook repoId := by
  have hregistered : s.moduleAddress .core ≠ 0 := by
    rw [hcore]
    exact d.moduleAt_ne_zero .core
  have hcleared : (s.deleteSplits repoId).moduleAddress .economic = d.moduleAt .economic := heconomic
  simp only [clearRevenueSplitsOnOwnershipTransfer, bind_eq_ok, onlyActiveSuite_eq_ok,
    repository_eq_ok, requireModule_eq_ok, exists_unit, revertIf_eq_ok,
    cancelRecovery_hook_eq_ok hcleared]
  constructor
  · rintro ⟨hactive, -, _, ⟨-, hpresent, rfl⟩, _, ⟨hrecovery, rfl⟩, -, -, -, h⟩
    exact ⟨hactive, hpresent, hrecovery, h⟩
  · rintro ⟨hactive, hpresent, hrecovery, h⟩
    refine ⟨hactive, ?_, _, ⟨hregistered, hpresent, rfl⟩, _, ⟨hrecovery, rfl⟩,
      hactive, hregistered, hpresent, h⟩
    rintro (hzero | hsender)
    · exact hregistered hzero
    · exact hsender hcore.symm

/-- The ownership hook refuses every caller but the registered core. -/
theorem clearRevenueSplits_outside (hsender : s.IsActive → msg.sender ≠ s.moduleAddress .core) :
    s.clearRevenueSplitsOnOwnershipTransfer d msg repoId ≠ .ok s' := by
  intro h
  simp only [clearRevenueSplitsOnOwnershipTransfer, bind_eq_ok, onlyActiveSuite_eq_ok,
    exists_unit, revertIf_eq_ok] at h
  exact h.2.1 (Or.inr (hsender h.1))

/-! ## Registered modules -/

/-- Every entry of the directory is empty or right, and an active directory is full. -/
structure Registered (d : Deployment) (s : Suite) : Prop where
  registered : ∀ m, s.moduleAddress m = 0 ∨ s.moduleAddress m = d.moduleAt m
  complete : s.IsActive → ∀ m, s.moduleAddress m ≠ 0

namespace Registered

/-- In an active suite every module is registered at its own address. -/
theorem moduleAddress_eq (h : s.Registered d) (hactive : s.IsActive) (m : Module) :
    s.moduleAddress m = d.moduleAt m :=
  (h.registered m).resolve_left (h.complete hactive m)

/-- The directory is all that matters. -/
theorem of_directory (h : s.Registered d) (hdirectory : s'.directory = s.directory) :
    s'.Registered d := by
  obtain ⟨hregistered, hcomplete⟩ := h
  simp only [IsActive, moduleAddress] at hregistered hcomplete
  constructor
  · intro m
    rw [moduleAddress, hdirectory]
    exact hregistered m
  · intro hactive m
    rw [moduleAddress, hdirectory]
    rw [IsActive, hdirectory] at hactive
    exact hcomplete hactive m

/-- An outside account is not a registered module, unless the entry is empty. -/
theorem account_ne (h : s.Registered d) (hactive : s.IsActive) (sender : Account d) (m : Module) :
    sender.address ≠ s.moduleAddress m := by
  rw [h.moduleAddress_eq hactive m]
  exact sender.address_ne_moduleAt m

end Registered

end Suite

end Igit
