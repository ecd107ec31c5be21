import Igit.Ownership.Locators

/-!
# Collaborators and the owner

The collaborator list of a repository, its position map and its roles agree in every reachable
world. The owner has no role in it as long as no ownership change goes to a collaborator:
`setCollaborator` and the importer refuse the owner, but an accepted transfer or an executed
recovery keeps the role its new owner had.
-/

namespace Igit

open Fallible

namespace Core

variable {d : Deployment} {T : Core → Bytes32 → Address → Prop} {c c' : Core}

/-- The collaborator list is indexed, holds exactly the accounts with a role, and is empty for a
repository that does not exist. -/
structure Listed (c : Core) : Prop where
  indexed : ∀ r, Indexed (c.collaborators r) (c.collaboratorIndexes r)
  listed : ∀ r a, a ∈ c.collaborators r ↔ c.roles r a ≠ .none
  absent : ∀ r a, (c.repositories r).present = false → c.roles r a = .none

/-- An ownership change to an account without a role in the repository. -/
abbrev FreshTransfer : Core → Bytes32 → Address → Prop := fun c r n => c.roles r n = .none

/-- No owner holds a role in their own repository. -/
def OwnersApart (c : Core) : Prop :=
  ∀ r, (c.repositories r).present = true → c.roles r (c.repositories r).owner = .none

/-! ## One step -/

/-- Removing an account with a role succeeds by swapping it out of the list. -/
theorem Listed.removeCollaborator {r : Bytes32} {a : Address} (h : c.Listed)
    (hrole : c.roles r a ≠ .none) (hremoved : c.removeCollaborator r a = .ok c') :
    ∃ moved, (c.collaborators r).getLast? = some moved ∧
      c' = (c.popCollaborator r moved (c.collaboratorIndexes r a - 1)).forgetCollaborator r a := by
  have hindex := (h.indexed r).pos_of_mem ((h.listed r a).mpr hrole)
  simp only [Core.removeCollaborator, hindex, ne_eq, not_false_eq_true, if_true] at hremoved
  cases hlast : (c.collaborators r).getLast? with
  | none => simp [hlast] at hremoved
  | some moved =>
      simp only [hlast, bind_eq_ok, pure_eq_ok] at hremoved
      obtain ⟨_, -, rfl⟩ := hremoved
      exact ⟨moved, rfl, rfl⟩

theorem Listed.grant {r : Bytes32} {a : Address} {role : Role} (h : c.Listed)
    (hpresent : (c.repositories r).present = true) (hrole : role ≠ .none)
    (hnew : c.roles r a = .none) : ((c.pushCollaborator r a).setRole r a role).Listed := by
  have hnotMem : a ∉ c.collaborators r := fun hmem => (h.listed r a).mp hmem hnew
  constructor
  · intro r'
    by_cases hr : r' = r
    · subst hr
      simpa [pushCollaborator, setRole] using (h.indexed r').push hnotMem
    · simpa [pushCollaborator, setRole, hr] using h.indexed r'
  · intro r' a'
    have := h.listed r' a'
    simp only [pushCollaborator, setRole, Function.update_apply]
    grind
  · intro r' a' habsent
    have := h.absent r' a' habsent
    have hne : r' ≠ r := by
      rintro rfl
      exact absurd (habsent.symm.trans hpresent) (by decide)
    simpa [pushCollaborator, setRole, hne] using this

theorem Listed.regrade {r : Bytes32} {a : Address} {role : Role} (h : c.Listed)
    (hpresent : (c.repositories r).present = true) (hrole : role ≠ .none)
    (hold : c.roles r a ≠ .none) : (c.setRole r a role).Listed := by
  refine ⟨h.indexed, ?_, ?_⟩
  · intro r' a'
    have := h.listed r' a'
    simp only [setRole, Function.update_apply]
    grind
  · intro r' a' habsent
    have := h.absent r' a' habsent
    have hne : r' ≠ r := by
      rintro rfl
      exact absurd (habsent.symm.trans hpresent) (by decide)
    simpa [setRole, hne] using this

theorem Listed.revoke {r : Bytes32} {a : Address} (h : c.Listed) (hrole : c.roles r a ≠ .none)
    (hremoved : c.removeCollaborator r a = .ok c') : c'.Listed := by
  obtain ⟨moved, hlast, rfl⟩ := h.removeCollaborator hrole hremoved
  have hmem := (h.listed r a).mpr hrole
  have hcell := (h.indexed r).getElem?_of_mem hmem
  have hleft : ∀ a', a' ∈ swapPop (c.collaborators r) (c.collaboratorIndexes r a - 1) ↔
      a' ∈ c.collaborators r ∧ a' ≠ a := fun a' => (h.indexed r).mem_swapPop hcell
  constructor
  · intro r'
    by_cases hr : r' = r
    · subst hr
      have hpopped := (h.indexed r').swapPop (i := c.collaboratorIndexes r' a - 1) hlast
      have hgone : a ∉ swapPop (c.collaborators r') (c.collaboratorIndexes r' a - 1) :=
        fun hin => ((hleft a).mp hin).2 rfl
      simpa [popCollaborator, forgetCollaborator] using hpopped.update_of_not_mem hgone 0
    · simpa [popCollaborator, forgetCollaborator, hr] using h.indexed r'
  · intro r' a'
    have := h.listed r' a'
    simp only [popCollaborator, forgetCollaborator, Function.update_apply]
    grind
  · intro r' a' habsent
    have := h.absent r' a' habsent
    simp only [popCollaborator, forgetCollaborator, Function.update_apply]
    grind

/-- Every elementary step keeps the lists right. -/
theorem Listed.step (hstep : CoreStep d T c c') (h : c.Listed) : c'.Listed := by
  cases hstep with
  | same hsame =>
      refine ⟨?_, ?_, ?_⟩
      · rw [hsame.collaborators, hsame.collaboratorIndexes]
        exact h.indexed
      · rw [hsame.collaborators, hsame.roles]
        exact h.listed
      · intro r a
        rw [hsame.present, hsame.roles]
        exact h.absent r a
  | @register imported hcan =>
      refine ⟨h.indexed, h.listed, fun r a hr => h.absent r a ?_⟩
      by_cases heq : r = imported.id
      · rw [heq]
        exact hcan.absent
      · simpa [registered, putRepository, heq] using hr
  | addAlias => exact { h with }
  | grant hpresent _ hrole hnew => exact h.grant hpresent hrole hnew
  | regrade hpresent _ hrole hold => exact h.regrade hpresent hrole hold
  | revoke hold hremoved => exact h.revoke hold hremoved
  | beginTransfer => exact { h with }
  | dropTransfer => exact { h with }
  | transfer =>
      refine ⟨h.indexed, h.listed, fun r a hr => h.absent r a ?_⟩
      rwa [transferred_present] at hr

/-- A step keeps owners apart when ownership only goes to accounts without a role. -/
theorem OwnersApart.step (hstep : CoreStep d FreshTransfer c c')
    (hlisted : c.Listed) (h : c.OwnersApart) : c'.OwnersApart := by
  cases hstep with
  | same hsame =>
      intro r
      rw [hsame.present, hsame.owner, hsame.roles]
      exact h r
  | @register imported hcan =>
      intro r hr
      by_cases heq : r = imported.id
      · subst heq
        exact hlisted.absent _ _ hcan.absent
      · have hother := h r
        simp only [registered, putRepository, Function.update_of_ne heq] at hr ⊢
        exact hother hr
  | addAlias => exact h
  | @grant repoId account _ hpresent haccount hrole hnew =>
      intro r hr
      have hother := h r hr
      simp only [pushCollaborator, setRole, Function.update_apply]
      grind
  | @regrade repoId account _ hpresent haccount hrole hold =>
      intro r hr
      have hother := h r hr
      simp only [setRole, Function.update_apply]
      grind
  | revoke hold hremoved =>
      obtain ⟨moved, -, rfl⟩ := hlisted.removeCollaborator hold hremoved
      intro r hr
      have hother := h r hr
      simp only [popCollaborator, forgetCollaborator, Function.update_apply]
      grind
  | beginTransfer => exact h
  | dropTransfer => exact h
  | @transfer repoId newOwner moved hpresent _ _ _ _ hfresh =>
      intro r hr
      rw [transferred_present] at hr
      rw [transferred_owner]
      have hother := h r hr
      show c.roles r _ = .none
      split
      · rename_i heq
        rw [heq]
        exact hfresh
      · exact hother

end Core

/-! ## Every run -/

variable {d : Deployment} {w w' : World}

/-- The collaborator lists are right in every reachable world. -/
theorem Reachable.listed (h : Reachable d w) : w.suite.core.Listed := by
  refine h.core_invariant ?_ fun c c' hstep hc => hc.step hstep
  refine ⟨fun _ => .nil, fun r a => ?_, fun _ _ _ => rfl⟩
  exact ⟨fun hmem => absurd hmem List.not_mem_nil, fun hrole => absurd rfl hrole⟩

/-- The move hands no repository to one of its collaborators. -/
def World.Fresh (w : World) (move : Move d) : Prop :=
  ∀ target, w.transferTarget move = some target → w.suite.core.roles target.1 target.2 = .none

instance (w : World) (move : Move d) : Decidable (w.Fresh move) :=
  decidable_of_iff
    (∀ target ∈ w.transferTarget move, w.suite.core.roles target.1 target.2 = .none) Iff.rfl

theorem ownersApart_of_fresh (h : GuardedLeads d World.Fresh (World.initial d) w) :
    w.suite.core.OwnersApart := by
  induction h with
  | refl =>
      intro r hr
      have habsent : ((World.initial d).suite.core.repositories r).present = false := rfl
      exact absurd (habsent.symm.trans hr) (by decide)
  | tail hrun hstep ih =>
      obtain ⟨move, hfresh, hnext⟩ := hstep
      have hreach : Reachable d _ := GuardedLeads.leads hrun
      -- both invariants travel together through the elementary steps of the move
      refine (reflTransGen_preserves (P := fun c => c.Listed ∧ c.OwnersApart) ?_
        ((hreach.effect hnext).coreSteps (T := Core.FreshTransfer)
          fun r n htarget => hfresh (r, n) htarget) ⟨hreach.listed, ih⟩).2
      rintro c c' hstep ⟨hlisted, hapart⟩
      exact ⟨hlisted.step hstep, hapart.step hstep hlisted⟩

/-- As long as every accepted transfer and executed recovery goes to an account without a role in
the repository, no owner has a role in their own repository. The first change of owner that goes to
a collaborator leaves the new owner with the role. -/
theorem owner_has_no_role_of_fresh_transfers
    (h : GuardedLeads d World.Fresh (World.initial d) w) :
    (∀ r, (w.suite.core.repositories r).present = true →
      w.suite.core.roles r (w.suite.core.repositories r).owner = .none ∧
      (w.suite.core.repositories r).owner ∉ w.suite.core.collaborators r) ∧
    (∀ (move : Move d) w' r n, w.next move = .ok w' → w.transferTarget move = some (r, n) →
      w.suite.core.roles r n ≠ .none →
      (w'.suite.core.repositories r).present = true ∧
      w'.suite.core.roles r (w'.suite.core.repositories r).owner ≠ .none ∧
      (w'.suite.core.repositories r).owner ∈ w'.suite.core.collaborators r) := by
  have hreach : Reachable d w := h.leads
  constructor
  · intro r hr
    have hnone := ownersApart_of_fresh h r hr
    exact ⟨hnone, fun hmem => (hreach.listed.listed r _).mp hmem hnone⟩
  · intro move w' r n hnext htarget hrole
    obtain ⟨hpresent, moved, hcore⟩ := (hreach.effect hnext).transferred htarget
    have howner : (w'.suite.core.repositories r).owner = n := by
      rw [hcore, Core.transferred_owner, if_pos rfl]
    have hkept : w'.suite.core.roles r n ≠ .none := by
      rw [hcore]
      exact hrole
    rw [howner]
    refine ⟨?_, hkept, ((hreach.next hnext).listed.listed r n).mpr hkept⟩
    rw [hcore, Core.transferred_present]
    exact hpresent

namespace Sample

/-- The bootstrap as moves, and then a transfer to an account without a role. -/
def handedOver : List (Move deployment) :=
  bootstrapMoves ++
    [.call alice (.core (.createRepository projectName [] [])),
     .call alice (.core (.setCollaborator project carol.address .maintainer)),
     .call alice (.core (.beginOwnershipTransfer project bob.address)),
     .wait ownershipTransferDelay,
     .call bob (.core (.acceptOwnershipTransfer project))]

/-- `bob` becomes the owner and has no role, while `carol` stays a maintainer. -/
theorem handedOver_owner_has_no_role :
    (((World.initial deployment).follow handedOver).suite.core.repositories project).owner =
        bob.address ∧
      ((World.initial deployment).follow handedOver).suite.core.roles project carol.address =
        .maintainer ∧
      ∀ r, (((World.initial deployment).follow handedOver).suite.core.repositories r).present = true →
        (((World.initial deployment).follow handedOver).suite.core.repositories r).owner ∉
          ((World.initial deployment).follow handedOver).suite.core.collaborators r :=
  ⟨by decide +kernel, by decide +kernel, fun r hr =>
    ((owner_has_no_role_of_fresh_transfers
      (World.follow_guarded (by decide +kernel))).1 r hr).2⟩

/-- `alice` makes `bob` a maintainer, offers the repository to `bob`, and `bob` accepts a week
later. -/
def inherited : World := genesis.run
  [callAfter 1 alice (.core (.createRepository projectName [] [])),
   callAfter 1 alice (.core (.setCollaborator project bob.address .maintainer)),
   callAfter 1 alice (.core (.beginOwnershipTransfer project bob.address)),
   callAfter ownershipTransferDelay bob (.core (.acceptOwnershipTransfer project))]

theorem inherited_reachable : Reachable deployment inherited := genesis_reachable _

/-- `bob` owns the repository and is still one of its maintainers. -/
theorem new_owner_keeps_maintainer_role :
    Reachable deployment inherited ∧
      (inherited.suite.core.repositories project).present = true ∧
      (inherited.suite.core.repositories project).owner = bob.address ∧
      inherited.suite.core.roles project bob.address = .maintainer ∧
      bob.address ∈ inherited.suite.core.collaborators project :=
  ⟨inherited_reachable, by decide +kernel⟩

end Sample

end Igit
