import Igit.Ownership.Locators
import Igit.Specs.Refs

/-!
# Compare and set

A push that is not forced names the commit its sender last saw, and `updateRef` compares it with the
stored one, so that pushes by several clients do not overwrite each other. The comparison is made
only where the ref exists. A push based on a ref that has been deleted in the meantime is therefore
accepted as if its sender had seen no ref at all, and these are the only pushes that slip through.
-/

namespace Igit

variable {d : Deployment} {w : World}

/-- Absent refs are blank, and existing ones belong to existing repositories. -/
structure Core.WholeRefs (c : Core) : Prop where
  blank : ∀ repoId refId, (c.refs repoId refId).present = false → c.refs repoId refId = default
  owned : ∀ repoId refId, (c.refs repoId refId).present = true →
    (c.repositories repoId).present = true

/-- No elementary change of the core leaves a ref half deleted or without a repository. -/
theorem Core.WholeRefs.step {c c' : Core} (hstep : CoreStep d AnyTransfer c c')
    (h : c.WholeRefs) : c'.WholeRefs := by
  cases hstep with
  | same hsame =>
      refine ⟨fun repoId refId habsent => ?_, fun repoId refId hpresent => ?_⟩
      · rcases hsame.refs repoId refId with hkept | hblank | ⟨hwritten, -⟩
        · rw [hkept] at habsent ⊢
          exact h.blank repoId refId habsent
        · exact hblank
        · exact absurd (habsent.symm.trans hwritten) (by decide)
      · rcases hsame.refs repoId refId with hkept | hblank | ⟨-, hrepository⟩
        · rw [hkept] at hpresent
          rw [hsame.present]
          exact h.owned repoId refId hpresent
        · rw [hblank] at hpresent
          cases hpresent
        · exact hrepository
  | @register imported _ =>
      refine ⟨h.blank, fun repoId refId hpresent => ?_⟩
      by_cases hid : repoId = imported.id
      · rw [hid]
        simp [Core.registered, Core.putRepository]
      · simp only [Core.registered, Core.putRepository, Function.update_of_ne hid]
        exact h.owned repoId refId hpresent
  | revoke _ hremoved =>
      obtain ⟨_, _, _, rfl⟩ := Core.removeCollaborator_frame hremoved
      exact { h with }
  | transfer =>
      refine ⟨h.blank, fun repoId refId hpresent => ?_⟩
      rw [Core.transferred_present]
      exact h.owned repoId refId hpresent
  | _ => exact { h with }

theorem Reachable.wholeRefs (h : Reachable d w) : w.suite.core.WholeRefs := by
  refine h.core_invariant ⟨fun _ _ _ => rfl, fun _ _ hpresent => ?_⟩ fun _ _ hstep hc => hc.step hstep
  cases hpresent

/-- The commit a ref stands at, or the empty string for an absent ref. -/
def Suite.currentSha (d : Deployment) (s : Suite) (repoId : Bytes32) (refName : Bytes) : Bytes :=
  if (s.gitRef d repoId refName).present then (s.gitRef d repoId refName).commitSha else []

/-- Whatever calls came before, an unforced update whose expected commit is not the current one is
accepted exactly when the ref is absent, a commit is expected nevertheless, and nothing else speaks
against the update. -/
theorem unforced_update_matches_iff (h : Reachable d w) (msg : Message) (repoId : Bytes32)
    (refName commitSha : Bytes) (packUris : List Bytes) (expectedSha : Bytes) :
    ((∃ s', w.suite.updateRef d msg repoId refName commitSha packUris expectedSha false = .ok s') →
        expectedSha = w.suite.currentSha d repoId refName) ↔
      ¬ ((w.suite.gitRef d repoId refName).present = false ∧ expectedSha ≠ [] ∧
        w.suite.PushTerms msg repoId refName commitSha packUris ∧
        (w.suite.core.refNames repoId).length < maxRefsPerRepo) := by
  simp only [Suite.updateRef_eq_ok]
  constructor
  · rintro hmatches ⟨habsent, hexpected, hterms, hroom⟩
    -- a blank ref has no packs, so the list is stored as it comes
    have hblank : w.suite.gitRef d repoId refName = default := h.wholeRefs.blank _ _ habsent
    have hmerge : Suite.mergePackUris d (w.suite.gitRef d repoId refName).packUris packUris false =
        .ok packUris := by
      rw [hblank]
      rfl
    have hcurrent : w.suite.currentSha d repoId refName = [] := by
      simp [Suite.currentSha, habsent]
    have hsame := hmatches ⟨_, hterms, fun _ hpresent => ?_, fun _ => hroom, packUris, hmerge, rfl⟩
    · exact hexpected (hsame.trans hcurrent)
    · rw [habsent] at hpresent
      cases hpresent
  · rintro hunmatched ⟨s', hterms, hsame, hroom, -⟩
    cases hpresent : (w.suite.gitRef d repoId refName).present with
    | true =>
        rw [Suite.currentSha, if_pos hpresent]
        exact (hsame trivial hpresent).symm
    | false =>
        rw [Suite.currentSha, if_neg (by simp [hpresent])]
        by_contra hexpected
        exact hunmatched ⟨hpresent, hexpected, hterms, hroom hpresent⟩

namespace Sample

/-- The bytes of `"refs/heads/main"`. -/
def mainRef : Bytes :=
  [0x72, 0x65, 0x66, 0x73, 0x2f, 0x68, 0x65, 0x61, 0x64, 0x73, 0x2f, 0x6d, 0x61, 0x69, 0x6e]

/-- Two commit ids. -/
def shaA : Bytes := List.replicate 40 0x61
def shaB : Bytes := List.replicate 40 0x62

/-- Where a pack lies. -/
def packUri (label : UInt8) : Bytes := ipfsScheme ++ [label]

/-- `alice` has pushed the first commit. -/
def published : List (Nat × Tx deployment) :=
  [callAfter 1 alice (.core (.createRepository projectName [] [])),
   callAfter 1 alice (.core (.updateRef project mainRef shaA [packUri 0x61] [] false))]

def pushed : World := genesis.run published

theorem pushed_reachable : Reachable deployment pushed := genesis_reachable _

/-- While the ref exists, a push by someone who has not seen its commit is refused. -/
theorem pushed_refuses_stale :
    ¬ ∃ s', pushed.suite.updateRef deployment ⟨alice.address, pushed.now⟩ project mainRef shaB
      [packUri 0x62] shaB false = .ok s' := by
  intro haccepted
  have hpresent : (pushed.suite.gitRef deployment project mainRef).present = true := by
    decide +kernel
  have hmatches := (unforced_update_matches_iff pushed_reachable ⟨alice.address, pushed.now⟩
    project mainRef shaB [packUri 0x62] shaB).mpr (by
      rintro ⟨habsent, -⟩
      rw [hpresent] at habsent
      cases habsent)
  exact absurd (hmatches haccepted) (by decide +kernel)

/-- The ref has been deleted again. -/
def deleted : World :=
  genesis.run (published ++ [callAfter 1 alice (.core (.deleteRef project mainRef))])

theorem deleted_reachable : Reachable deployment deleted := genesis_reachable _

/-- A push of `shaB` on top of `shaA`, made by a client that has not heard of the deletion, is
accepted, and the ref then holds its incremental pack alone. -/
theorem deleted_accepts_stale :
    Reachable deployment deleted ∧ deleted.suite.currentSha deployment project mainRef = [] ∧
      ((deleted.suite.updateRef deployment ⟨alice.address, deleted.now⟩ project mainRef shaB
        [packUri 0x62] shaA false).toOption.map fun s' =>
          ((s'.gitRef deployment project mainRef).commitSha,
            (s'.gitRef deployment project mainRef).packUris)) = some (shaB, [packUri 0x62]) :=
  ⟨deleted_reachable, by decide +kernel⟩

end Sample

end Igit
