import Igit.Isolation.Views

/-!
# Entries of lists

The lists of the suite hold numbers and names, and a reader looks the records up. In every reachable
suite each entry leads to a record: repositories are stored under their own number and never go away,
and locators and badges lead to repositories. That badges and artifacts themselves are listed where
they belong is in `Igit.Isolation.Registers`.
-/

namespace Igit

open Fallible

namespace Core

variable {d : Deployment} {c c' : Core}

/-- No repository goes away or changes its number, a new one is stored under its number, and a new
locator leads to a repository. -/
structure Grows (c c' : Core) : Prop where
  kept : ∀ r, (c.repositories r).present = true →
    (c'.repositories r).present = true ∧ (c'.repositories r).id = (c.repositories r).id
  fresh : ∀ r, (c.repositories r).present = false → (c'.repositories r).present = true →
    (c'.repositories r).id = r
  located : ∀ l, c'.locators l = c.locators l ∨ (c'.repositories (c'.locators l)).present = true

/-- A change elsewhere in the core. -/
theorem Grows.of_eq (hrepositories : c'.repositories = c.repositories)
    (hlocators : c'.locators = c.locators) : c.Grows c' where
  kept r h := by
    rw [hrepositories]
    exact ⟨h, rfl⟩
  fresh r habsent hpresent := by
    rw [hrepositories, habsent] at hpresent
    cases hpresent
  located l := Or.inl (congrFun hlocators l)

/-- A repository is written again under its number. -/
theorem Grows.rewrite (r : Bytes32) (repository : Repository)
    (hrepositories : c'.repositories = Function.update c.repositories r repository)
    (hpresent : repository.present = (c.repositories r).present)
    (hid : repository.id = (c.repositories r).id)
    (hlocated : ∀ l, c'.locators l = c.locators l ∨ (c'.repositories (c'.locators l)).present = true) :
    c.Grows c' where
  kept other h := by
    rw [hrepositories]
    by_cases hother : other = r
    · subst hother
      rw [Function.update_self, hpresent, hid]
      exact ⟨h, rfl⟩
    · rw [Function.update_of_ne hother]
      exact ⟨h, rfl⟩
  fresh other habsent hthere := by
    rw [hrepositories] at hthere
    by_cases hother : other = r
    · subst hother
      rw [Function.update_self, hpresent, habsent] at hthere
      cases hthere
    · rw [Function.update_of_ne hother, habsent] at hthere
      cases hthere
  located := hlocated

/-- A new repository. -/
theorem Grows.put {imported : ImportRepository} (locator : Bytes32)
    (habsent : (c.repositories imported.id).present = false) :
    c.Grows (c.putRepository locator imported) := by
  have hself : ((c.putRepository locator imported).repositories imported.id).present = true := by
    simp only [putRepository, Function.update_self]
  have hother : ∀ r, r ≠ imported.id →
      (c.putRepository locator imported).repositories r = c.repositories r :=
    fun r hr => Function.update_of_ne hr _ _
  refine ⟨fun r h => ?_, fun r hnone hthere => ?_, fun l => ?_⟩
  · have hr : r ≠ imported.id := by
      rintro rfl
      rw [habsent] at h
      cases h
    rw [hother r hr]
    exact ⟨h, rfl⟩
  · by_cases hr : r = imported.id
    · rw [hr]
      simp only [putRepository, Function.update_self]
    · rw [hother r hr, hnone] at hthere
      cases hthere
  · by_cases hl : l = locator
    · right
      have hlocator : (c.putRepository locator imported).locators l = imported.id := by
        rw [hl]
        exact Function.update_self _ _ _
      rwa [hlocator]
    · exact Or.inl (Function.update_of_ne hl _ _)

/-- A repository changes hands. -/
theorem Grows.transferred {r moved : Bytes32} (hpresent : (c.repositories r).present = true)
    (newOwner : Address) : c.Grows (c.transferred d r newOwner moved) := by
  refine .rewrite r { c.repositories r with owner := newOwner } rfl rfl rfl fun l => ?_
  rw [transferred_locators]
  split
  · right
    rwa [transferred_present]
  · split
    · right
      rwa [transferred_present]
    · exact Or.inl rfl

/-- An alias of a repository. -/
theorem Grows.alias {r : Bytes32} (locator : Bytes32) (hpresent : (c.repositories r).present = true) :
    c.Grows (c.putLocator locator r) where
  kept _ h := ⟨h, rfl⟩
  fresh other habsent hthere := by
    rw [show (c.putLocator locator r).repositories other = c.repositories other from rfl,
      habsent] at hthere
    cases hthere
  located l := by
    by_cases hl : l = locator
    · right
      have hlocator : (c.putLocator locator r).locators l = r := by
        rw [hl]
        exact Function.update_self _ _ _
      rwa [hlocator]
    · exact Or.inl (Function.update_of_ne hl _ _)

end Core

namespace Suite

variable {d : Deployment} {s s' : Suite}

/-- Calls only add repositories. -/
theorem Effect.grows {sender : Address} {now : Nat} {op : Op} (h : Effect d s sender now op s') :
    s.core.Grows s'.core := by
  cases h with
  | createRepository hcan => exact .put _ hcan.absent
  | @forkRepository source name hpresent hstatus hcan hsize =>
      have hne : source ≠ d.repositoryId sender name := by
        intro heq
        rw [heq] at hpresent
        exact absurd (hcan.absent.symm.trans hpresent) (by decide)
      show s.core.Grows (forkedCore d s sender source name now)
      rw [forkedCore, foldl_copyRef hne]
      have hnew : s.core.Grows (s.core.registered d (newFork d s sender source name now)) :=
        .put _ hcan.absent
      exact ⟨hnew.kept, hnew.fresh, hnew.located⟩
  | updateMetadata => exact .rewrite _ _ rfl rfl rfl fun _ => Or.inl rfl
  | @updateRef repoId =>
      refine .rewrite repoId { s.core.repositories repoId with updatedAt := now } ?_ rfl rfl
        fun l => Or.inl ?_
      all_goals
        simp only [withRef, setCore, Core.setRepository, Core.putRef]
        split
        · rfl
        · rfl
  | deleteRef => exact .rewrite _ _ rfl rfl rfl fun _ => Or.inl rfl
  | setCollaborator _ hchange =>
      cases hchange with
      | revoke _ hremoved =>
          obtain ⟨_, _, _, rfl⟩ := Core.removeCollaborator_frame hremoved
          exact .of_eq rfl rfl
      | _ => exact .of_eq rfl rfl
  | acceptOwnershipTransfer hpresent => exact .transferred hpresent _
  | executeRecovery hpresent => exact Core.Grows.transferred hpresent _
  | setRepositoryStatus => exact .rewrite _ _ rfl rfl rfl fun _ => Or.inl rfl
  | resolveReport => exact .rewrite _ _ rfl rfl rfl fun _ => Or.inl rfl
  | appealReport => exact .rewrite _ _ rfl rfl rfl fun _ => Or.inl rfl
  | resolveAppeal => exact .rewrite _ _ rfl rfl rfl fun _ => Or.inl rfl
  | _ => exact .of_eq rfl rfl

/-- So do imports. -/
theorem Fits.grows {keccak : Keccak} {record : ImportRecord} (h : s.Fits keccak record) :
    s.core.Grows (s.stored keccak record).core := by
  cases record with
  | repository => exact .put _ h.2.1
  | repositoryAlias => exact .alias _ h.1
  | _ => exact .of_eq rfl rfl

/-- Repositories have their own numbers, and locators and badges lead to repositories. -/
structure Entries (s : Suite) : Prop where
  own_id : ∀ r, (s.core.repositories r).present = true → (s.core.repositories r).id = r
  located : ∀ l, s.core.locators l ≠ 0 → (s.core.repositories (s.core.locators l)).present = true
  awarded : ∀ id, (s.badges.badges id).present = true →
    (s.core.repositories (s.badges.badges id).repoId).present = true

/-- The core grows and the badges stay. -/
theorem Entries.grow (h : s.Entries) (hgrows : s.core.Grows s'.core)
    (hbadges : s'.badges = s.badges) : s'.Entries where
  own_id r hpresent := by
    cases hbefore : (s.core.repositories r).present with
    | false => exact hgrows.fresh r hbefore hpresent
    | true => exact (hgrows.kept r hbefore).2.trans (h.own_id r hbefore)
  located l htaken := by
    rcases hgrows.located l with hsame | hthere
    · rw [hsame] at htaken ⊢
      exact (hgrows.kept _ (h.located l htaken)).1
    · exact hthere
  awarded id hpresent := by
    rw [hbadges] at hpresent ⊢
    exact (hgrows.kept _ (h.awarded id hpresent)).1

/-- A badge for an existing repository is added, awarded or imported. -/
theorem Entries.addBadge (h : s.Entries) {badge : Badge} {b : Badges}
    (hrepository : (s.core.repositories badge.repoId).present = true)
    (hbadges : b.badges = Function.update s.badges.badges badge.id badge) :
    (s.setBadges b).Entries where
  own_id := h.own_id
  located := h.located
  awarded id hthere := by
    show (s.core.repositories (b.badges id).repoId).present = true
    have hstored : (b.badges id).present = true := hthere
    rw [hbadges] at hstored ⊢
    by_cases hid : id = badge.id
    · rw [hid, Function.update_self]
      exact hrepository
    · rw [Function.update_of_ne hid] at hstored ⊢
      exact h.awarded id hstored

end Suite

/-- In every reachable suite the entries of the lists lead to records. -/
theorem Reachable.entries {d : Deployment} {w : World} (h : Reachable d w) : w.suite.Entries := by
  refine h.suite_invariant (P := Suite.Entries) ?_ ⟨?_, ?_, ?_, ?_, ?_⟩
  · refine ⟨fun r hthere => ?_, fun l htaken => absurd rfl htaken, fun id hthere => ?_⟩
    · cases hthere
    · cases hthere
  · intro s u _ hs
    exact hs.grow (.of_eq rfl rfl) rfl
  · intro s deadline _ hs
    exact hs.grow (.of_eq rfl rfl) rfl
  · intro s record _ hformed hfits hs
    cases record with
    | badge record => exact hs.addBadge hfits.1.2 rfl
    | _ => exact hs.grow hfits.grows rfl
  · intro w sender op s' _ _ heffect hw
    have hgrows := heffect.grows
    cases heffect with
    | awardBadge hpresent => exact hw.addBadge hpresent rfl
    | _ => exact hw.grow hgrows rfl
  · intro s e hs
    exact hs.grow (.of_eq rfl rfl) rfl

end Igit
