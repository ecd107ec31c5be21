import Igit.Specs.Imports

/-!
# The ownership functions of the core

When each ownership function succeeds and what it leaves behind. `accept_eq_ok` and
`recoverOwnership_eq_ok` also account for the calls that run from the core through the economic
module into the recovery module.
-/

namespace Igit

open Fallible

namespace Core

variable {c c' : Core} {repoId : Bytes32}

/-- A repository record can be stored under its id and its canonical locator. -/
structure CanRegister (d : Deployment) (c : Core) (imported : ImportRepository) : Prop where
  id_ne_zero : imported.id ≠ 0
  owner_ne_zero : imported.owner ≠ 0
  absent : (c.repositories imported.id).present = false
  free : c.locators (d.locator imported.owner imported.name) = 0
  unreserved : c.reservedLocators (d.locator imported.owner imported.name) = 0

/-- The core after `_storeRepository`. -/
def registered (d : Deployment) (c : Core) (imported : ImportRepository) : Core :=
  c.putRepository (d.locator imported.owner imported.name) imported

/-- The locator `(newOwner, name)` is free, or belongs to the repository itself. -/
def AvailableFor (d : Deployment) (c : Core) (repoId : Bytes32) (newOwner : Address)
    (name : Bytes) : Prop :=
  (c.locators (d.locator newOwner name) = 0 ∨ c.locators (d.locator newOwner name) = repoId) ∧
    (c.reservedLocators (d.locator newOwner name) = 0 ∨
      c.reservedLocators (d.locator newOwner name) = repoId)

/-- The owner's list holds the position the index map gives, and ends in `moved`. -/
structure CanMove (c : Core) (repoId : Bytes32) (oldOwner : Address) (moved : Bytes32) : Prop where
  indexed : c.ownerRepositoryIndexes repoId ≠ 0
  last : (c.ownerRepositories oldOwner).getLast? = some moved
  inside : c.ownerRepositoryIndexes repoId - 1 < (c.ownerRepositories oldOwner).length

/-- The index of the owners moves a repository it lists under the old owner. -/
theorem moveOwnerIndex_eq_ok {oldOwner newOwner : Address} :
    c.moveOwnerIndex repoId oldOwner newOwner = .ok c' ↔
      ∃ moved, c.CanMove repoId oldOwner moved ∧
        c' = c.moveOwner repoId oldOwner newOwner moved (c.ownerRepositoryIndexes repoId - 1) := by
  simp only [moveOwnerIndex, bind_eq_ok, revertIf_eq_ok, exists_unit]
  constructor
  · rintro ⟨hindexed, h⟩
    cases hlast : (c.ownerRepositories oldOwner).getLast? with
    | none => simp [hlast] at h
    | some moved =>
        simp only [hlast, bind_eq_ok, revertIf_eq_ok, exists_unit, pure_eq_ok, Nat.not_le] at h
        obtain ⟨hinside, rfl⟩ := h
        exact ⟨moved, ⟨hindexed, hlast, hinside⟩, rfl⟩
  · rintro ⟨moved, ⟨hindexed, hlast, hinside⟩, rfl⟩
    refine ⟨hindexed, ?_⟩
    simp only [hlast, bind_eq_ok, revertIf_eq_ok, exists_unit, pure_eq_ok, Nat.not_le]
    exact ⟨hinside, trivial⟩

/-- The core after `_transferOwnership`. -/
def transferred (d : Deployment) (c : Core) (repoId : Bytes32) (newOwner : Address)
    (moved : Bytes32) : Core :=
  Suite.transferCore d
    (c.moveOwner repoId (c.repositories repoId).owner newOwner moved
      (c.ownerRepositoryIndexes repoId - 1))
    repoId (c.repositories repoId) newOwner

/-- The core after a transfer is begun. -/
def pended (d : Deployment) (c : Core) (repoId : Bytes32) (newOwner : Address) (now : Nat) : Core :=
  c.putPending repoId (d.locator newOwner (c.repositories repoId).name)
    ⟨newOwner, now + ownershipTransferDelay, now + ownershipTransferDelay + ownershipTransferWindow⟩

/-- The core after a pending transfer is dropped. -/
def unpended (d : Deployment) (c : Core) (repoId : Bytes32) : Core :=
  c.clearPending repoId
    (d.locator (c.pendingTransfers repoId).newOwner (c.repositories repoId).name)

end Core

namespace Suite

variable {d : Deployment} {s s' : Suite} {msg : Message} {repoId : Bytes32}

/-! ## New repositories -/

theorem storeRepository_ok {imported : ImportRepository} :
    Returns (s.storeRepository d imported) fun s' =>
      s.core.CanRegister d imported ∧ s' = s.setCore (s.core.registered d imported) := by
  intro s' h
  simp only [storeRepository, bind_eq_ok, revertIf_eq_ok, exists_unit, not_or,
    requireLocatorAvailable_eq_ok, pure_eq_ok, Bool.not_eq_true] at h
  obtain ⟨⟨hid, howner, -⟩, -, -, -, -, habsent, ⟨hfree, hunreserved⟩, rfl⟩ := h
  exact ⟨⟨hid, howner, habsent, hfree, hunreserved⟩, rfl⟩

/-! ## Pending transfers -/

/-- `beginOwnershipTransfer` is the owner's, for a repository with neither a transfer nor a recovery
under way and a locator that is free for the new owner. -/
theorem begin_eq_ok {newOwner : Address} :
    s.beginOwnershipTransfer d msg repoId newOwner = .ok s' ↔
      s.IsActive ∧ (s.core.repositories repoId).present = true ∧
        msg.sender = (s.core.repositories repoId).owner ∧
        newOwner ≠ 0 ∧ newOwner ≠ (s.core.repositories repoId).owner ∧
        (s.core.pendingTransfers repoId).newOwner = 0 ∧ s.moduleAddress .recovery ≠ 0 ∧
        (s.recovery.proposals repoId).newOwner = 0 ∧
        s.core.locators (d.locator newOwner (s.core.repositories repoId).name) = 0 ∧
        s.core.reservedLocators (d.locator newOwner (s.core.repositories repoId).name) = 0 ∧
        msg.timestamp + ownershipTransferDelay + ownershipTransferWindow ≤ uint64Max ∧
        s' = s.setCore (s.core.pended d repoId newOwner msg.timestamp) := by
  simp only [beginOwnershipTransfer, bind_eq_ok, onlyActiveSuite_eq_ok, requireRepository_eq_ok,
    revertIf_eq_ok, exists_unit, not_not, not_or, requireModule_eq_ok, hasPendingRecovery,
    decide_eq_true_eq, requireLocatorAvailable_eq_ok, now64_eq_ok, addTime_eq_ok, pure_eq_ok]
  constructor
  · rintro ⟨hactive, _, ⟨hpresent, rfl⟩, hsender, ⟨hzero, howner⟩, hpending, _, ⟨hrecovery, -⟩,
      hproposal, ⟨hfree, hunreserved⟩, _, ⟨-, rfl⟩, _, ⟨-, rfl⟩, _, ⟨hfits, rfl⟩, rfl⟩
    exact ⟨hactive, hpresent, hsender, hzero, howner, hpending, hrecovery, hproposal, hfree,
      hunreserved, hfits, rfl⟩
  · rintro ⟨hactive, hpresent, hsender, hzero, howner, hpending, hrecovery, hproposal, hfree,
      hunreserved, hfits, rfl⟩
    exact ⟨hactive, _, ⟨hpresent, rfl⟩, hsender, ⟨hzero, howner⟩, hpending, _, ⟨hrecovery, rfl⟩,
      hproposal, ⟨hfree, hunreserved⟩, _, ⟨by omega, rfl⟩, _, ⟨by omega, rfl⟩, _, ⟨hfits, rfl⟩, rfl⟩

/-- `cancelOwnershipTransfer` is for either party of the transfer. -/
theorem cancel_eq_ok :
    s.cancelOwnershipTransfer d msg repoId = .ok s' ↔
      s.IsActive ∧ (s.core.repositories repoId).present = true ∧
        (s.core.pendingTransfers repoId).newOwner ≠ 0 ∧
        (msg.sender = (s.core.repositories repoId).owner ∨
          msg.sender = (s.core.pendingTransfers repoId).newOwner) ∧
        s' = s.setCore (s.core.unpended d repoId) := by
  simp only [cancelOwnershipTransfer, bind_eq_ok, onlyActiveSuite_eq_ok, requireRepository_eq_ok,
    revertIf_eq_ok, exists_unit, pure_eq_ok, not_and_or, not_not]
  constructor
  · rintro ⟨hactive, _, ⟨hpresent, rfl⟩, hpending, hsender, rfl⟩
    exact ⟨hactive, hpresent, hpending, hsender, rfl⟩
  · rintro ⟨hactive, hpresent, hpending, hsender, rfl⟩
    exact ⟨hactive, _, ⟨hpresent, rfl⟩, hpending, hsender, rfl⟩

/-- `expireOwnershipTransfer` is for anyone once the transfer is past its time. -/
theorem expire_eq_ok :
    s.expireOwnershipTransfer d msg repoId = .ok s' ↔
      s.IsActive ∧ (s.core.repositories repoId).present = true ∧
        (s.core.pendingTransfers repoId).newOwner ≠ 0 ∧ msg.timestamp ≤ uint64Max ∧
        (s.core.pendingTransfers repoId).expiresAt < msg.timestamp ∧
        s' = s.setCore (s.core.unpended d repoId) := by
  simp only [expireOwnershipTransfer, bind_eq_ok, onlyActiveSuite_eq_ok, requireRepository_eq_ok,
    revertIf_eq_ok, exists_unit, pure_eq_ok, now64_eq_ok, Nat.not_le]
  constructor
  · rintro ⟨hactive, _, ⟨hpresent, rfl⟩, hpending, _, ⟨hclock, rfl⟩, hexpired, rfl⟩
    exact ⟨hactive, hpresent, hpending, hclock, hexpired, rfl⟩
  · rintro ⟨hactive, hpresent, hpending, hclock, hexpired, rfl⟩
    exact ⟨hactive, _, ⟨hpresent, rfl⟩, hpending, _, ⟨hclock, rfl⟩, hexpired, rfl⟩

/-! ## Ownership changes -/

/-- The suite after `_transferOwnership`: the core's own writes, and the revenue splits, guardians
and proposal of the repository cleared by the hook. -/
def transferred (d : Deployment) (s : Suite) (repoId : Bytes32) (newOwner : Address)
    (moved : Bytes32) : Suite :=
  (s.setCore (s.core.transferred d repoId newOwner moved)).afterOwnershipHook repoId

/-- In an active suite with its modules registered, only the locator and the owner index can stop
`_transferOwnership`. -/
theorem transferOwnership_eq_ok {newOwner : Address} (hregistered : s.Registered d)
    (hactive : s.IsActive) (hpresent : (s.core.repositories repoId).present = true) :
    s.transferOwnership d msg repoId (s.core.repositories repoId) newOwner = .ok s' ↔
      s.core.AvailableFor d repoId newOwner (s.core.repositories repoId).name ∧
        ∃ moved, s.core.CanMove repoId (s.core.repositories repoId).owner moved ∧
          s' = s.transferred d repoId newOwner moved := by
  have hmodule : ∀ (c : Core) (m : Module), (s.setCore c).moduleAddress m = d.moduleAt m :=
    fun _ m => hregistered.moduleAddress_eq hactive m
  have hkept : ∀ c : Core, ((Suite.transferCore d c repoId (s.core.repositories repoId)
      newOwner).repositories repoId).present = true := by
    intro c
    simp [transferCore, Core.clearPending, Core.setRepository, hpresent]
  simp only [transferOwnership, bind_eq_ok, requireLocatorAvailableFor_eq_ok, exists_unit,
    Core.moveOwnerIndex_eq_ok, requireModule_eq_ok]
  constructor
  · rintro ⟨havailable, _, ⟨moved, hmove, rfl⟩, _, -, h⟩
    rw [clearRevenueSplits_hook_eq_ok (hmodule _ _) (hmodule _ _)] at h
    exact ⟨havailable, moved, hmove, h.2.2.2⟩
  · rintro ⟨havailable, moved, hmove, rfl⟩
    refine ⟨havailable, _, ⟨moved, hmove, rfl⟩, _, ⟨?_, rfl⟩, ?_⟩
    · rw [hmodule]
      exact d.moduleAt_ne_zero _
    · rw [clearRevenueSplits_hook_eq_ok (hmodule _ _) (hmodule _ _)]
      refine ⟨hactive, hkept _, ?_, rfl⟩
      rw [hmodule]
      exact d.moduleAt_ne_zero _

/-- `acceptOwnershipTransfer` is the new owner's, within the time of the transfer. -/
theorem accept_eq_ok (hregistered : s.Registered d) :
    s.acceptOwnershipTransfer d msg repoId = .ok s' ↔
      s.IsActive ∧ (s.core.repositories repoId).present = true ∧
        (s.core.pendingTransfers repoId).newOwner ≠ 0 ∧
        msg.sender = (s.core.pendingTransfers repoId).newOwner ∧ msg.timestamp ≤ uint64Max ∧
        (s.core.pendingTransfers repoId).executeAfter ≤ msg.timestamp ∧
        msg.timestamp ≤ (s.core.pendingTransfers repoId).expiresAt ∧
        s.core.AvailableFor d repoId (s.core.pendingTransfers repoId).newOwner
          (s.core.repositories repoId).name ∧
        ∃ moved, s.core.CanMove repoId (s.core.repositories repoId).owner moved ∧
          s' = s.transferred d repoId (s.core.pendingTransfers repoId).newOwner moved := by
  simp only [acceptOwnershipTransfer, bind_eq_ok, onlyActiveSuite_eq_ok, requireRepository_eq_ok,
    revertIf_eq_ok, exists_unit, now64_eq_ok, not_not, Nat.not_lt, gt_iff_lt]
  constructor
  · rintro ⟨hactive, _, ⟨hpresent, rfl⟩, hpending, hsender, _, ⟨hclock, rfl⟩, hafter, hbefore, h⟩
    rw [transferOwnership_eq_ok hregistered hactive hpresent] at h
    exact ⟨hactive, hpresent, hpending, hsender, hclock, hafter, hbefore, h⟩
  · rintro ⟨hactive, hpresent, hpending, hsender, hclock, hafter, hbefore, h⟩
    refine ⟨hactive, _, ⟨hpresent, rfl⟩, hpending, hsender, _, ⟨hclock, rfl⟩, hafter, hbefore, ?_⟩
    rw [transferOwnership_eq_ok hregistered hactive hpresent]
    exact h

/-- `recoverOwnership` as the recovery module calls it. -/
theorem recoverOwnership_eq_ok {newOwner : Address} {t : Nat} (hregistered : s.Registered d) :
    s.recoverOwnership d ⟨d.moduleAt .recovery, t⟩ repoId newOwner = .ok s' ↔
      s.IsActive ∧ (s.core.repositories repoId).present = true ∧ newOwner ≠ 0 ∧
        newOwner ≠ (s.core.repositories repoId).owner ∧
        (s.core.pendingTransfers repoId).newOwner = 0 ∧
        s.core.AvailableFor d repoId newOwner (s.core.repositories repoId).name ∧
        ∃ moved, s.core.CanMove repoId (s.core.repositories repoId).owner moved ∧
          s' = s.transferred d repoId newOwner moved := by
  simp only [recoverOwnership, bind_eq_ok, onlyActiveSuite_eq_ok, requireRepository_eq_ok,
    revertIf_eq_ok, exists_unit, not_not, not_or, requireLocatorAvailableFor_eq_ok]
  constructor
  · rintro ⟨hactive, -, _, ⟨hpresent, rfl⟩, ⟨hzero, howner⟩, -, hpending, h⟩
    rw [transferOwnership_eq_ok hregistered hactive hpresent] at h
    exact ⟨hactive, hpresent, hzero, howner, hpending, h⟩
  · rintro ⟨hactive, hpresent, hzero, howner, hpending, h⟩
    refine ⟨hactive, ⟨(hregistered.moduleAddress_eq hactive _).symm, ?_⟩, _, ⟨hpresent, rfl⟩,
      ⟨hzero, howner⟩, h.1, hpending, ?_⟩
    · rw [hregistered.moduleAddress_eq hactive]
      exact d.moduleAt_ne_zero _
    · rw [transferOwnership_eq_ok hregistered hactive hpresent]
      exact h

/-- `recoverOwnership` is closed to outside accounts. -/
theorem recoverOwnership_outside {newOwner : Address} (hregistered : s.Registered d)
    {sender : Account d} {t : Nat} :
    s.recoverOwnership d ⟨sender.address, t⟩ repoId newOwner ≠ .ok s' := by
  intro h
  simp only [recoverOwnership, bind_eq_ok, onlyActiveSuite_eq_ok, revertIf_eq_ok, exists_unit,
    not_or, not_not] at h
  exact hregistered.account_ne h.1 sender .recovery h.2.1.1

end Suite

end Igit
