import Igit.Ownership.CoreSteps

/-!
# Locators and reservations

A locator is the digest of an owner and a name. `Naming` says that every repository is found under
its canonical locator, that the reserved locators are exactly the targets of the pending transfers,
and that no locator is both reserved and taken. It is an invariant of every elementary step, and
with it an occupied locator never changes hands.
-/

namespace Igit

namespace Core

variable {d : Deployment} {T : Core → Bytes32 → Address → Prop} {c c' : Core}

/-- Identity resolution is consistent. -/
structure Naming (d : Deployment) (c : Core) : Prop where
  id_ne_zero : ∀ r, (c.repositories r).present = true → r ≠ 0
  canonical : ∀ r, (c.repositories r).present = true →
    c.locators (d.locator (c.repositories r).owner (c.repositories r).name) = r
  pending_present : ∀ r, (c.pendingTransfers r).newOwner ≠ 0 → (c.repositories r).present = true
  pending_ne_owner : ∀ r, (c.pendingTransfers r).newOwner ≠ 0 →
    (c.pendingTransfers r).newOwner ≠ (c.repositories r).owner
  reserved : ∀ l r, r ≠ 0 → (c.reservedLocators l = r ↔ (c.pendingTransfers r).newOwner ≠ 0 ∧
    l = d.locator (c.pendingTransfers r).newOwner (c.repositories r).name)
  disjoint : ∀ l, c.locators l = 0 ∨ c.reservedLocators l = 0

/-- Every locator that is taken in `c` is taken by the same repository in `c'`. -/
def KeepsLocators (c c' : Core) : Prop := ∀ l, c.locators l ≠ 0 → c'.locators l = c.locators l

/-- Writing an entry that is free or already right keeps the locators. -/
theorem keepsLocators_update {l r : Bytes32} (h : c.locators l = 0 ∨ c.locators l = r)
    (hlocators : c'.locators = Function.update c.locators l r) : c.KeepsLocators c' := by
  intro l' hl'
  rw [hlocators]
  by_cases heq : l' = l
  · subst heq
    rw [Function.update_self]
    exact (h.resolve_left hl').symm
  · exact Function.update_of_ne heq ..

/-! ## One step -/

/-- The naming does not see what is no ownership change. -/
theorem Naming.same (h : c.Naming d) (hsame : c.SameOwnership c') : c'.Naming d := by
  obtain ⟨hid, hcanonical, hpresent, howner, hreserved, hdisjoint⟩ := h
  constructor
  · intro r
    rw [hsame.present]
    exact hid r
  · intro r
    rw [hsame.present, hsame.owner, hsame.name, hsame.locators]
    exact hcanonical r
  · intro r
    rw [hsame.present, hsame.pendingTransfers]
    exact hpresent r
  · intro r
    rw [hsame.owner, hsame.pendingTransfers]
    exact howner r
  · intro l r
    rw [hsame.name, hsame.pendingTransfers, hsame.reservedLocators]
    exact hreserved l r
  · intro l
    rw [hsame.locators, hsame.reservedLocators]
    exact hdisjoint l

/-- A repository is registered under a locator of its own. -/
theorem Naming.register {imported : ImportRepository} (h : c.Naming d)
    (hcan : c.CanRegister d imported) : (c.registered d imported).Naming d := by
  obtain ⟨hid, hcanonical, hpresent, howner, hreserved, hdisjoint⟩ := h
  obtain ⟨hnew, _, habsent, hfree, hunreserved⟩ := hcan
  constructor <;> simp only [registered, putRepository, Function.update_apply] <;> grind

/-- An alias takes a locator that is free. -/
theorem Naming.addAlias {repoId : Bytes32} {owner : Address} {name : Bytes} (h : c.Naming d)
    (hfree : c.locators (d.locator owner name) = 0)
    (hunreserved : c.reservedLocators (d.locator owner name) = 0) :
    (c.putLocator (d.locator owner name) repoId).Naming d := by
  obtain ⟨hid, hcanonical, hpresent, howner, hreserved, hdisjoint⟩ := h
  refine ⟨hid, ?_, hpresent, howner, hreserved, ?_⟩ <;>
    simp only [putLocator, Function.update_apply] <;> grind

/-- A transfer reserves a locator that is free. -/
theorem Naming.beginTransfer {repoId : Bytes32} {newOwner : Address} (h : c.Naming d) (now : Nat)
    (hpresent : (c.repositories repoId).present = true) (hzero : newOwner ≠ 0)
    (howner : newOwner ≠ (c.repositories repoId).owner)
    (hidle : (c.pendingTransfers repoId).newOwner = 0)
    (hfree : c.locators (d.locator newOwner (c.repositories repoId).name) = 0)
    (hunreserved : c.reservedLocators (d.locator newOwner (c.repositories repoId).name) = 0) :
    (c.pended d repoId newOwner now).Naming d := by
  have hrepo := h.id_ne_zero repoId hpresent
  refine ⟨h.id_ne_zero, h.canonical, ?_, ?_, ?_, ?_⟩
  all_goals simp only [pended, putPending, Function.update_apply]
  · have := h.pending_present
    grind
  · have := h.pending_ne_owner
    grind
  · have := h.reserved
    grind
  · have := h.disjoint
    grind

/-- Dropping a transfer frees the one locator it reserved. -/
theorem Naming.dropTransfer {repoId : Bytes32} (h : c.Naming d)
    (hpending : (c.pendingTransfers repoId).newOwner ≠ 0) : (c.unpended d repoId).Naming d := by
  have hrepo := h.id_ne_zero repoId (h.pending_present repoId hpending)
  have hmine := (h.reserved _ repoId hrepo).mpr ⟨hpending, rfl⟩
  have hnone : (default : PendingOwnershipTransfer).newOwner = 0 := rfl
  refine ⟨h.id_ne_zero, h.canonical, ?_, ?_, ?_, ?_⟩
  all_goals simp only [unpended, clearPending, Function.update_apply]
  · have := h.pending_present
    grind
  · have := h.pending_ne_owner
    grind
  · have := h.reserved
    grind
  · have := h.disjoint
    grind

section Transferred

variable {repoId : Bytes32} {newOwner : Address} {moved : Bytes32}

/-- A transfer changes the owner of one repository. -/
theorem transferred_repositories (r : Bytes32) :
    (c.transferred d repoId newOwner moved).repositories r =
      if r = repoId then { c.repositories r with owner := newOwner } else c.repositories r := by
  by_cases hr : r = repoId
  · simp [transferred, Suite.transferCore, moveOwner, clearPending, setRepository, putLocator, hr]
  · simp [transferred, Suite.transferCore, moveOwner, clearPending, setRepository, putLocator, hr]

theorem transferred_present (r : Bytes32) :
    ((c.transferred d repoId newOwner moved).repositories r).present =
      (c.repositories r).present := by
  rw [transferred_repositories]
  split <;> rfl

theorem transferred_name (r : Bytes32) :
    ((c.transferred d repoId newOwner moved).repositories r).name = (c.repositories r).name := by
  rw [transferred_repositories]
  split <;> rfl

theorem transferred_owner (r : Bytes32) :
    ((c.transferred d repoId newOwner moved).repositories r).owner =
      if r = repoId then newOwner else (c.repositories r).owner := by
  rw [transferred_repositories]
  split <;> rfl

/-- Both the old and the new locator lead to the repository that changed hands. -/
theorem transferred_locators (l : Bytes32) :
    (c.transferred d repoId newOwner moved).locators l =
      if l = d.locator newOwner (c.repositories repoId).name then repoId
      else if l = d.locator (c.repositories repoId).owner (c.repositories repoId).name then repoId
      else c.locators l := by
  simp only [transferred, Suite.transferCore, moveOwner, clearPending, setRepository, putLocator,
    Function.update_apply]

theorem transferred_reservedLocators (l : Bytes32) :
    (c.transferred d repoId newOwner moved).reservedLocators l =
      if l = d.locator newOwner (c.repositories repoId).name then 0
      else c.reservedLocators l := by
  simp only [transferred, Suite.transferCore, moveOwner, clearPending, setRepository, putLocator,
    Function.update_apply]

theorem transferred_pendingTransfers (r : Bytes32) :
    (c.transferred d repoId newOwner moved).pendingTransfers r =
      if r = repoId then default else c.pendingTransfers r := by
  simp only [transferred, Suite.transferCore, moveOwner, clearPending, setRepository, putLocator,
    Function.update_apply]

end Transferred

/-- An ownership change takes the target locator, which was free or the repository's own, and
gives up the reservation. -/
theorem Naming.transfer {repoId : Bytes32} {newOwner : Address} {moved : Bytes32} (h : c.Naming d)
    (hpresent : (c.repositories repoId).present = true)
    (hpending : (c.pendingTransfers repoId).newOwner = newOwner ∨
      (c.pendingTransfers repoId).newOwner = 0)
    (havailable : c.AvailableFor d repoId newOwner (c.repositories repoId).name) :
    (c.transferred d repoId newOwner moved).Naming d := by
  have hrepo := h.id_ne_zero repoId hpresent
  have hcanonical := h.canonical repoId hpresent
  have hnone : (default : PendingOwnershipTransfer).newOwner = 0 := rfl
  obtain ⟨hfree, hunreserved⟩ := havailable
  constructor
  · intro r
    rw [transferred_present]
    exact h.id_ne_zero r
  · intro r hr
    rw [transferred_present] at hr
    have hother := h.canonical r hr
    rw [transferred_name, transferred_owner, transferred_locators]
    by_cases hrr : r = repoId
    · simp [hrr]
    · -- another repository holds neither the old nor the new locator
      have hne := h.id_ne_zero r hr
      grind
  · intro r
    rw [transferred_pendingTransfers, transferred_present]
    have := h.pending_present r
    grind
  · intro r
    rw [transferred_pendingTransfers, transferred_owner]
    have := h.pending_ne_owner r
    grind
  · intro l r hr
    rw [transferred_pendingTransfers, transferred_name, transferred_reservedLocators]
    have := h.reserved l r hr
    grind
  · intro l
    rw [transferred_locators, transferred_reservedLocators]
    have := h.disjoint l
    grind

/-- Every elementary step keeps the names consistent. -/
theorem Naming.step (hstep : CoreStep d T c c') (h : c.Naming d) : c'.Naming d := by
  cases hstep with
  | same hsame => exact h.same hsame
  | register hcan => exact h.register hcan
  | addAlias _ hfree hunreserved => exact h.addAlias hfree hunreserved
  | grant => exact { h with }
  | regrade => exact { h with }
  | revoke _ hremoved =>
      obtain ⟨lists, indexes, roles, rfl⟩ := removeCollaborator_frame hremoved
      exact { h with }
  | beginTransfer now hpresent hzero howner hidle hfree hunreserved =>
      exact h.beginTransfer now hpresent hzero howner hidle hfree hunreserved
  | dropTransfer hpending => exact h.dropTransfer hpending
  | transfer hpresent _ hpending havailable _ _ =>
      exact h.transfer hpresent (hpending.imp_right And.left) havailable

/-- With consistent names, no elementary step takes a locator away. -/
theorem Naming.keepsLocators (hstep : CoreStep d T c c') (h : c.Naming d) : c.KeepsLocators c' := by
  cases hstep with
  | same hsame =>
      intro l _
      rw [hsame.locators]
  | register hcan => exact keepsLocators_update (.inl hcan.free) rfl
  | addAlias _ hfree _ => exact keepsLocators_update (.inl hfree) rfl
  | grant => exact fun _ _ => rfl
  | regrade => exact fun _ _ => rfl
  | revoke _ hremoved =>
      obtain ⟨lists, indexes, roles, rfl⟩ := removeCollaborator_frame hremoved
      exact fun _ _ => rfl
  | beginTransfer => exact fun _ _ => rfl
  | dropTransfer => exact fun _ _ => rfl
  | transfer hpresent _ _ havailable _ _ =>
      intro l hl
      rw [transferred_locators]
      have hcanonical := h.canonical _ hpresent
      split
      · rename_i heq
        subst heq
        exact (havailable.1.resolve_left hl).symm
      · split
        · rename_i heq
          rw [heq, hcanonical]
        · rfl

end Core

/-! ## Every run -/

variable {d : Deployment} {w w' : World}

/-- Names are consistent in every reachable world. -/
theorem Reachable.naming (h : Reachable d w) : w.suite.core.Naming d := by
  refine h.core_invariant ?_ fun c c' hstep hc => hc.step hstep
  have habsent : ∀ r, ((default : Core).repositories r).present = false := fun _ => rfl
  have hidle : ∀ r, ((default : Core).pendingTransfers r).newOwner = 0 := fun _ => rfl
  have hfree : ∀ l, (default : Core).reservedLocators l = 0 := fun _ => rfl
  constructor
  · intro r hr
    exact absurd ((habsent r).symm.trans hr) (by decide)
  · intro r hr
    exact absurd ((habsent r).symm.trans hr) (by decide)
  · intro r hr
    exact absurd (hidle r) hr
  · intro r hr
    exact absurd (hidle r) hr
  · intro l r hr
    rw [hfree, hidle]
    exact ⟨fun h => absurd h.symm hr, fun h => absurd rfl h.1⟩
  · intro l
    exact .inr (hfree l)

/-- A locator that is taken stays with its repository. -/
theorem Reachable.keepsLocators (h : Reachable d w) (hrun : Leads d w w') :
    w.suite.core.KeepsLocators w'.suite.core := by
  refine (reflTransGen_preserves (P := fun c => c.Naming d ∧ w.suite.core.KeepsLocators c) ?_
    (h.coreSteps hrun) ⟨h.naming, fun _ _ => rfl⟩).2
  rintro c c' hstep ⟨hnaming, hkept⟩
  refine ⟨hnaming.step hstep, fun l hl => ?_⟩
  have hc : c.locators l ≠ 0 := by
    rw [hkept l hl]
    exact hl
  exact (hnaming.keepsLocators hstep l hc).trans (hkept l hl)

/-- In every reachable world each repository is found under its canonical locator, a taken locator
is taken for good, the reserved locators are the targets of the pending transfers, and no locator is
both reserved and taken. -/
theorem locators_and_reservations_consistent (h : Reachable d w) :
    (∀ r, (w.suite.core.repositories r).present = true → w.suite.core.locators
      (d.locator (w.suite.core.repositories r).owner (w.suite.core.repositories r).name) = r) ∧
    (∀ w' l, Leads d w w' → w.suite.core.locators l ≠ 0 →
      w'.suite.core.locators l = w.suite.core.locators l) ∧
    (∀ l r, r ≠ 0 → (w.suite.core.reservedLocators l = r ↔
      (w.suite.core.repositories r).present = true ∧
      (w.suite.core.pendingTransfers r).newOwner ≠ 0 ∧
      l = d.locator (w.suite.core.pendingTransfers r).newOwner
        (w.suite.core.repositories r).name)) ∧
    (∀ l, ¬ (w.suite.core.locators l ≠ 0 ∧ w.suite.core.reservedLocators l ≠ 0)) := by
  have hnaming := h.naming
  refine ⟨hnaming.canonical, fun w' l hrun hl => h.keepsLocators hrun l hl, ?_, ?_⟩
  · intro l r hr
    rw [hnaming.reserved l r hr]
    exact ⟨fun hpending => ⟨hnaming.pending_present r hpending.1, hpending⟩, fun hpending => hpending.2⟩
  · rintro l ⟨htaken, hreserved⟩
    exact (hnaming.disjoint l).elim htaken hreserved

namespace Sample

/-- The bytes of `"ab"`. -/
def projectName : Bytes := [0x61, 0x62]

/-- The repository `alice` creates under that name. -/
def project : Bytes32 := deployment.repositoryId alice.address projectName

/-- `alice` creates a repository and offers it to `bob`. -/
def offered : World := genesis.run
  [callAfter 1 alice (.core (.createRepository projectName [] [])),
   callAfter 1 alice (.core (.beginOwnershipTransfer project bob.address))]

theorem offered_reachable : Reachable deployment offered := genesis_reachable _

/-- While the offer is open, `bob`'s locator is reserved for the repository and `alice`'s is taken. -/
theorem offered_locators :
    offered.suite.core.reservedLocators (deployment.locator bob.address projectName) = project ∧
      offered.suite.core.locators (deployment.locator alice.address projectName) = project ∧
      ∀ l, ¬ (offered.suite.core.locators l ≠ 0 ∧ offered.suite.core.reservedLocators l ≠ 0) :=
  ⟨by decide +kernel, by decide +kernel,
    (locators_and_reservations_consistent offered_reachable).2.2.2⟩

end Sample

end Igit
