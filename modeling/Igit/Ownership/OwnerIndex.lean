import Igit.Ownership.Locators

/-!
# The lists of repositories per owner

Every owner has a list of repositories, and one map gives each repository its position in the list
of its owner. The lists and the map agree in every reachable world, so that the swap-and-pop of an
ownership change never fails.
-/

namespace Igit

namespace Core

variable {d : Deployment} {T : Core → Bytes32 → Address → Prop} {c c' : Core}

/-- Each list holds the repositories of its owner, at the positions the map gives. -/
structure OwnerIndexed (c : Core) : Prop where
  indexed : ∀ a, Indexed (c.ownerRepositories a) c.ownerRepositoryIndexes
  listed : ∀ a r, r ∈ c.ownerRepositories a ↔
    (c.repositories r).present = true ∧ (c.repositories r).owner = a

/-- With exact lists, every existing repository can be moved to another owner. -/
theorem OwnerIndexed.canMove (h : c.OwnerIndexed) {r : Bytes32}
    (hpresent : (c.repositories r).present = true) :
    ∃ moved, c.CanMove r (c.repositories r).owner moved := by
  have hmem := (h.listed _ r).mpr ⟨hpresent, rfl⟩
  have hcell := (h.indexed _).getElem?_of_mem hmem
  cases hlast : (c.ownerRepositories (c.repositories r).owner).getLast? with
  | none =>
      have hnil := List.getLast?_eq_none_iff.mp hlast
      rw [hnil] at hmem
      cases hmem
  | some moved =>
      exact ⟨moved, (h.indexed _).pos_of_mem hmem, hlast, (List.getElem?_eq_some_iff.mp hcell).1⟩

/-! ## One step -/

theorem OwnerIndexed.register {imported : ImportRepository} (h : c.OwnerIndexed)
    (hcan : c.CanRegister d imported) : (c.registered d imported).OwnerIndexed := by
  have hnew : ∀ a, imported.id ∉ c.ownerRepositories a := by
    intro a hmem
    exact absurd (hcan.absent.symm.trans ((h.listed a _).mp hmem).1) (by decide)
  constructor
  · intro a
    by_cases ha : a = imported.owner
    · subst ha
      simpa [registered, putRepository] using (h.indexed imported.owner).push (hnew _)
    · simpa [registered, putRepository, ha] using (h.indexed a).update_of_not_mem (hnew a) _
  · intro a r
    have hlisted := h.listed a r
    have hfresh := hnew a
    simp only [registered, putRepository, Function.update_apply]
    grind

/-- The lists after an ownership change. -/
theorem transferred_ownerRepositories {repoId : Bytes32} {newOwner : Address} {moved : Bytes32}
    (hne : newOwner ≠ (c.repositories repoId).owner) (a : Address) :
    (c.transferred d repoId newOwner moved).ownerRepositories a =
      if a = newOwner then c.ownerRepositories newOwner ++ [repoId]
      else if a = (c.repositories repoId).owner then
        swapPop (c.ownerRepositories (c.repositories repoId).owner)
          (c.ownerRepositoryIndexes repoId - 1)
      else c.ownerRepositories a := by
  simp only [transferred, Suite.transferCore, moveOwner, clearPending, setRepository, putLocator,
    Function.update_apply, if_neg hne]

/-- The positions after an ownership change. -/
theorem transferred_ownerRepositoryIndexes {repoId : Bytes32} {newOwner : Address}
    {moved : Bytes32} (hne : newOwner ≠ (c.repositories repoId).owner) :
    (c.transferred d repoId newOwner moved).ownerRepositoryIndexes =
      Function.update (Function.update c.ownerRepositoryIndexes moved
        (c.ownerRepositoryIndexes repoId - 1 + 1)) repoId
        ((c.ownerRepositories newOwner).length + 1) := by
  simp only [transferred, Suite.transferCore, moveOwner, clearPending, setRepository, putLocator,
    Function.update_of_ne hne]

theorem OwnerIndexed.transfer {repoId : Bytes32} {newOwner : Address} {moved : Bytes32}
    (h : c.OwnerIndexed) (hpresent : (c.repositories repoId).present = true)
    (hne : newOwner ≠ (c.repositories repoId).owner)
    (hmove : c.CanMove repoId (c.repositories repoId).owner moved) :
    (c.transferred d repoId newOwner moved).OwnerIndexed := by
  have hmine := (h.listed _ repoId).mpr ⟨hpresent, rfl⟩
  have hcell := (h.indexed _).getElem?_of_mem hmine
  have hmovedMem : moved ∈ c.ownerRepositories (c.repositories repoId).owner :=
    List.mem_of_getLast? hmove.last
  have hmovedOwner := ((h.listed _ moved).mp hmovedMem).2
  have hleft : ∀ r, r ∈ swapPop (c.ownerRepositories (c.repositories repoId).owner)
      (c.ownerRepositoryIndexes repoId - 1) ↔
      r ∈ c.ownerRepositories (c.repositories repoId).owner ∧ r ≠ repoId :=
    fun r => (h.indexed _).mem_swapPop hcell
  -- a list of another owner holds neither the repository nor the one moved into its cell
  have hothers : ∀ a, a ≠ (c.repositories repoId).owner →
      repoId ∉ c.ownerRepositories a ∧ moved ∉ c.ownerRepositories a := by
    intro a ha
    exact ⟨fun hmem => ha ((h.listed a _).mp hmem).2.symm,
      fun hmem => ha (((h.listed a _).mp hmem).2.symm.trans hmovedOwner)⟩
  constructor
  · intro a
    rw [transferred_ownerRepositories hne, transferred_ownerRepositoryIndexes hne]
    split
    · obtain ⟨hrepo, hmoved⟩ := hothers newOwner hne
      exact ((h.indexed newOwner).update_of_not_mem hmoved _).push hrepo
    · split
      · refine Indexed.update_of_not_mem ((h.indexed _).swapPop hmove.last) ?_ _
        exact fun hmem => ((hleft repoId).mp hmem).2 rfl
      · rename_i ha
        obtain ⟨hrepo, hmoved⟩ := hothers a ha
        exact ((h.indexed a).update_of_not_mem hmoved _).update_of_not_mem hrepo _
  · intro a r
    rw [transferred_ownerRepositories hne, transferred_present, transferred_owner]
    have hlisted := h.listed a r
    have hremaining := hleft r
    grind

/-- Every elementary step keeps the lists exact. -/
theorem OwnerIndexed.step (hstep : CoreStep d T c c') (hnaming : c.Naming d) (h : c.OwnerIndexed) :
    c'.OwnerIndexed := by
  cases hstep with
  | same hsame =>
      refine ⟨?_, fun a r => ?_⟩
      · rw [hsame.ownerRepositories, hsame.ownerRepositoryIndexes]
        exact h.indexed
      · rw [hsame.ownerRepositories, hsame.present, hsame.owner]
        exact h.listed a r
  | register hcan => exact h.register hcan
  | addAlias => exact { h with }
  | grant => exact { h with }
  | regrade => exact { h with }
  | revoke _ hremoved =>
      obtain ⟨lists, indexes, roles, rfl⟩ := removeCollaborator_frame hremoved
      exact { h with }
  | beginTransfer => exact { h with }
  | dropTransfer => exact { h with }
  | transfer hpresent hzero hpending _ hmove _ =>
      refine h.transfer hpresent ?_ hmove
      rcases hpending with rfl | ⟨-, howner⟩
      · exact hnaming.pending_ne_owner _ hzero
      · exact howner

end Core

/-- The owner lists are exact in every reachable world. -/
theorem Reachable.ownerIndexed {d : Deployment} {w : World} (h : Reachable d w) :
    w.suite.core.OwnerIndexed := by
  refine (h.core_invariant (P := fun c => c.Naming d ∧ c.OwnerIndexed) ?_ ?_).2
  · refine ⟨(Reachable.naming .refl : (World.initial d).suite.core.Naming d), fun _ => .nil, ?_⟩
    intro a r
    have habsent : ((default : Core).repositories r).present = false := rfl
    exact ⟨fun hmem => absurd hmem List.not_mem_nil,
      fun hpresent => absurd (habsent.symm.trans hpresent.1) (by decide)⟩
  · rintro c c' hstep ⟨hnaming, hindexed⟩
    exact ⟨hnaming.step hstep, hindexed.step hstep hnaming⟩

end Igit
