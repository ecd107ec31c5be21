import Igit.Bootstrap.Books

/-!
# The elementary ownership steps of the core

`CoreStep` lists everything the suite ever does to the ownership part of the core, with the guard
under which it does it. `World.Effect.coreSteps` says that every move, including the calls that reach
the core through another module and the batch imports, is a sequence of such steps. Invariants of the
core are then proved step by step, without looking at a call again.
-/

namespace Igit

open Fallible

/-- Each ref of `c'` is as it was in `c`, or blank, or written for an existing repository. -/
def Core.RefsKept (c c' : Core) : Prop :=
  ∀ repoId refId, c'.refs repoId refId = c.refs repoId refId ∨ c'.refs repoId refId = default ∨
    ((c'.refs repoId refId).present = true ∧ (c'.repositories repoId).present = true)

/-- The parts of the core that decide who owns a repository and how it is found. Of the refs it says
only that they are written and deleted as a whole, and written for existing repositories. The
descriptive fields and the timestamps are left out. -/
structure Core.SameOwnership (c c' : Core) : Prop where
  present : ∀ id, (c'.repositories id).present = (c.repositories id).present
  owner : ∀ id, (c'.repositories id).owner = (c.repositories id).owner
  name : ∀ id, (c'.repositories id).name = (c.repositories id).name
  locators : c'.locators = c.locators
  reservedLocators : c'.reservedLocators = c.reservedLocators
  pendingTransfers : c'.pendingTransfers = c.pendingTransfers
  ownerRepositories : c'.ownerRepositories = c.ownerRepositories
  ownerRepositoryIndexes : c'.ownerRepositoryIndexes = c.ownerRepositoryIndexes
  roles : c'.roles = c.roles
  collaborators : c'.collaborators = c.collaborators
  collaboratorIndexes : c'.collaboratorIndexes = c.collaboratorIndexes
  refs : c.RefsKept c'

namespace Core.SameOwnership

variable {c c' : Core}

theorem refl (c : Core) : c.SameOwnership c :=
  ⟨fun _ => rfl, fun _ => rfl, fun _ => rfl, rfl, rfl, rfl, rfl, rfl, rfl, rfl, rfl,
    fun _ _ => .inl rfl⟩

/-- Writing or deleting a ref is no ownership change. -/
theorem putRef (h : c.SameOwnership c') (repoId refId : Bytes32) (gitRef : GitRef)
    (hwhole : gitRef = default ∨ gitRef.present = true ∧ (c'.repositories repoId).present = true) :
    c.SameOwnership (c'.putRef repoId refId gitRef) := by
  refine { h with refs := fun r id => ?_ }
  by_cases hkey : r = repoId ∧ id = refId
  · obtain ⟨rfl, rfl⟩ := hkey
    simp only [Core.putRef, Function.update_self]
    exact .inr hwhole
  · have hother : (c'.putRef repoId refId gitRef).refs r id = c'.refs r id := by
      by_cases hr : r = repoId
      · subst hr
        have hid : id ≠ refId := fun heq => hkey ⟨rfl, heq⟩
        simp [Core.putRef, hid]
      · simp [Core.putRef, hr]
    rw [hother]
    exact h.refs r id

/-- Neither is rewriting the list of ref names. -/
theorem setRefNames (h : c.SameOwnership c') (repoId : Bytes32) (names : List Bytes) :
    c.SameOwnership (c'.setRefNames repoId names) :=
  { h with }

/-- A repository record may be rewritten as long as its existence, owner and name stay. -/
theorem setRepository (h : c.SameOwnership c') {repoId : Bytes32} {repository : Repository}
    (hpresent : repository.present = (c.repositories repoId).present)
    (howner : repository.owner = (c.repositories repoId).owner)
    (hname : repository.name = (c.repositories repoId).name) :
    c.SameOwnership (c'.setRepository repoId repository) := by
  have hrecord : ∀ id, (c'.setRepository repoId repository).repositories id =
      if id = repoId then repository else c'.repositories id := by
    intro id
    simp [Core.setRepository, Function.update_apply]
  refine ⟨fun id => ?_, fun id => ?_, fun id => ?_, h.locators, h.reservedLocators,
    h.pendingTransfers, h.ownerRepositories, h.ownerRepositoryIndexes, h.roles, h.collaborators,
    h.collaboratorIndexes, fun r id => ?_⟩
  · rw [hrecord]
    split
    · rename_i hid
      rwa [hid]
    · exact h.present id
  · rw [hrecord]
    split
    · rename_i hid
      rwa [hid]
    · exact h.owner id
  · rw [hrecord]
    split
    · rename_i hid
      rwa [hid]
    · exact h.name id
  · have hsame : ((c'.setRepository repoId repository).repositories r).present =
        (c'.repositories r).present := by
      rw [hrecord]
      split
      · rename_i hid
        rw [hid, hpresent, h.present]
      · rfl
    rw [hsame]
    exact h.refs r id

/-- The copy loop of a fork touches refs only. -/
theorem foldl_copyRef (d : Deployment) (source fork : Bytes32) (now : Nat) (sender : Address)
    (names : List Bytes) (h : c.SameOwnership c')
    (hfork : (c'.repositories fork).present = true) :
    c.SameOwnership (names.foldl (Suite.copyRef d source fork now sender) c') := by
  induction names generalizing c' with
  | nil => exact h
  | cons name rest ih => exact ih ((h.putRef _ _ _ (.inr ⟨rfl, hfork⟩)).setRefNames _ _) hfork

/-- A ref update leaves ownership alone. -/
theorem withRef {d : Deployment} {s : Suite} {msg : Message} {repoId : Bytes32}
    {refName commitSha : Bytes} {uris : List Bytes}
    (hpresent : (s.core.repositories repoId).present = true) :
    s.core.SameOwnership (s.withRef d msg repoId refName commitSha uris).core := by
  refine .setRepository (.putRef ?_ _ _ _ (.inr ⟨rfl, ?_⟩)) rfl rfl rfl
  · split
    · exact .refl _
    · exact .setRefNames (.refl _) _ _
  · split
    · exact hpresent
    · exact hpresent

/-- So does deleting a ref. -/
theorem withoutRef {d : Deployment} {s : Suite} {msg : Message} {repoId : Bytes32} {refName : Bytes} :
    s.core.SameOwnership (s.withoutRef d msg repoId refName).core :=
  .setRepository (.setRefNames (.putRef (.refl _) _ _ _ (.inl rfl)) _ _) rfl rfl rfl

end Core.SameOwnership

/-- One elementary change of the core. `T c repoId newOwner` restricts the ownership changes a run
may make, and is `True` when nothing is assumed about them. -/
inductive CoreStep (d : Deployment) (T : Core → Bytes32 → Address → Prop) : Core → Core → Prop where
  | same {c c' : Core} (h : c.SameOwnership c') : CoreStep d T c c'
  | register {c : Core} {imported : ImportRepository} (h : c.CanRegister d imported) :
      CoreStep d T c (c.registered d imported)
  | addAlias {c : Core} {repoId : Bytes32} {owner : Address} {name : Bytes}
      (hpresent : (c.repositories repoId).present = true)
      (hfree : c.locators (d.locator owner name) = 0)
      (hunreserved : c.reservedLocators (d.locator owner name) = 0) :
      CoreStep d T c (c.putLocator (d.locator owner name) repoId)
  | grant {c : Core} {repoId : Bytes32} {account : Address} {role : Role}
      (hpresent : (c.repositories repoId).present = true)
      (haccount : account ≠ (c.repositories repoId).owner) (hrole : role ≠ .none)
      (hnew : c.roles repoId account = .none) :
      CoreStep d T c ((c.pushCollaborator repoId account).setRole repoId account role)
  | regrade {c : Core} {repoId : Bytes32} {account : Address} {role : Role}
      (hpresent : (c.repositories repoId).present = true)
      (haccount : account ≠ (c.repositories repoId).owner) (hrole : role ≠ .none)
      (hold : c.roles repoId account ≠ .none) :
      CoreStep d T c (c.setRole repoId account role)
  | revoke {c c' : Core} {repoId : Bytes32} {account : Address}
      (hold : c.roles repoId account ≠ .none)
      (hremoved : c.removeCollaborator repoId account = .ok c') : CoreStep d T c c'
  | beginTransfer {c : Core} {repoId : Bytes32} {newOwner : Address} (now : Nat)
      (hpresent : (c.repositories repoId).present = true) (hzero : newOwner ≠ 0)
      (howner : newOwner ≠ (c.repositories repoId).owner)
      (hidle : (c.pendingTransfers repoId).newOwner = 0)
      (hfree : c.locators (d.locator newOwner (c.repositories repoId).name) = 0)
      (hunreserved : c.reservedLocators (d.locator newOwner (c.repositories repoId).name) = 0) :
      CoreStep d T c (c.pended d repoId newOwner now)
  | dropTransfer {c : Core} {repoId : Bytes32} (hpending : (c.pendingTransfers repoId).newOwner ≠ 0) :
      CoreStep d T c (c.unpended d repoId)
  | transfer {c : Core} {repoId : Bytes32} {newOwner : Address} {moved : Bytes32}
      (hpresent : (c.repositories repoId).present = true) (hzero : newOwner ≠ 0)
      (hpending : (c.pendingTransfers repoId).newOwner = newOwner ∨
        (c.pendingTransfers repoId).newOwner = 0 ∧ newOwner ≠ (c.repositories repoId).owner)
      (havailable : c.AvailableFor d repoId newOwner (c.repositories repoId).name)
      (hmove : c.CanMove repoId (c.repositories repoId).owner moved)
      (hallowed : T c repoId newOwner) :
      CoreStep d T c (c.transferred d repoId newOwner moved)

/-- A sequence of elementary changes. -/
abbrev CoreSteps (d : Deployment) (T : Core → Bytes32 → Address → Prop) : Core → Core → Prop :=
  Relation.ReflTransGen (CoreStep d T)

/-- Removing a collaborator touches the collaborator maps alone. -/
theorem Core.removeCollaborator_frame {c c' : Core} {repoId : Bytes32} {account : Address}
    (h : c.removeCollaborator repoId account = .ok c') :
    ∃ lists indexes roles, c' = { c with
      collaborators := lists, collaboratorIndexes := indexes, roles := roles } := by
  simp only [removeCollaborator, ne_eq, ite_not] at h
  split at h
  · rw [pure_eq_ok] at h
    exact ⟨_, _, _, h.symm⟩
  · split at h
    · simp at h
    · simp only [bind_eq_ok, pure_eq_ok] at h
      obtain ⟨_, -, rfl⟩ := h
      exact ⟨_, _, _, rfl⟩

/-- The ownership change a call makes when it succeeds: the repository and its next owner. -/
def Suite.transferTarget (s : Suite) : Op → Option (Bytes32 × Address)
  | .core (.acceptOwnershipTransfer repoId) =>
      some (repoId, (s.core.pendingTransfers repoId).newOwner)
  | .recovery (.executeRecovery repoId) => some (repoId, (s.recovery.proposals repoId).newOwner)
  | _ => none

namespace Suite

variable {d : Deployment} {T : Core → Bytes32 → Address → Prop} {s s' : Suite}

/-- A record is at most one elementary change. -/
theorem stored_coreSteps {record : ImportRecord} (hformed : record.WellFormed)
    (hfits : s.Fits d.keccak record) :
    CoreSteps d T s.core (s.stored d.keccak record).core := by
  cases record with
  | repository record =>
      obtain ⟨-, habsent, hfree, hunreserved⟩ := hfits
      exact .single (.register ⟨hformed.id_ne_zero, hformed.owner_ne_zero, habsent, hfree, hunreserved⟩)
  | repositoryAlias record =>
      obtain ⟨hpresent, hfree, hunreserved⟩ := hfits
      exact .single (.addAlias hpresent hfree hunreserved)
  | ref record =>
      obtain ⟨hpresent, -, -⟩ := hfits
      exact .single (.same (.setRefNames (.putRef (.refl _) _ _ _ (.inr ⟨rfl, hpresent⟩)) _ _))
  | collaborator record =>
      obtain ⟨hpresent, howner, hnew, -⟩ := hfits
      exact .single (.grant hpresent howner hformed.2 hnew)
  | _ => exact .refl

/-- A call is a sequence of elementary changes of the core. -/
theorem Effect.coreSteps {sender : Address} {now : Nat} {op : Op} (h : Effect d s sender now op s')
    (hallowed : ∀ repoId newOwner, s.transferTarget op = some (repoId, newOwner) →
      T s.core repoId newOwner) : CoreSteps d T s.core s'.core := by
  have htouched : ∀ repoId, CoreSteps d T s.core (s.core.setRepository repoId
      { s.core.repositories repoId with updatedAt := now }) :=
    fun _ => .single (.same (.setRepository (.refl _) rfl rfl rfl))
  cases h with
  | createRepository hcan => exact .single (.register hcan)
  | forkRepository hpresent hstatus hcan hsize =>
      refine Relation.ReflTransGen.head (.register hcan) (.single (.same ?_))
      refine .foldl_copyRef _ _ _ _ _ _ (.refl _) ?_
      simp [Core.registered, Core.putRepository, newFork, newRepository]
  | updateMetadata => exact .single (.same (.setRepository (.refl _) rfl rfl rfl))
  | updateRef hterms => exact .single (.same (.withRef hterms.present))
  | deleteRef => exact .single (.same .withoutRef)
  | setCollaborator hpresent hchange howner =>
      cases hchange with
      | keep => exact .refl
      | grant hrole hnew _ => exact .single (.grant hpresent howner hrole hnew)
      | regrade hrole hold => exact .single (.regrade hpresent howner hrole hold)
      | revoke hold hremoved => exact .single (.revoke hold hremoved)
  | beginOwnershipTransfer hpresent _ hzero howner hidle _ hfree hunreserved =>
      exact .single (.beginTransfer _ hpresent hzero howner hidle hfree hunreserved)
  | cancelOwnershipTransfer hpending => exact .single (.dropTransfer hpending)
  | expireOwnershipTransfer hpending => exact .single (.dropTransfer hpending)
  | acceptOwnershipTransfer hpresent hpending _ _ _ havailable hmove =>
      exact .single (.transfer hpresent hpending (.inl rfl) havailable hmove (hallowed _ _ rfl))
  | executeRecovery hpresent hpending _ _ _ _ howner hidle havailable hmove =>
      exact .single (.transfer hpresent hpending (.inr ⟨hidle, howner⟩) havailable hmove
        (hallowed _ _ rfl))
  | setRepositoryStatus | resolveReport | appealReport | resolveAppeal => exact htouched _
  | _ => exact .refl

/-- A step of the bootstrap is a sequence of elementary changes of the core. -/
theorem BootstrapStep.coreSteps {op : BootstrapOp} (h : BootstrapStep d s op s') :
    CoreSteps d T s.core s'.core := by
  cases h with
  | books | openClaims => exact .refl
  | batch hinactive hdecode hfit =>
      refine along_preserves (P := fun t : Suite => CoreSteps d T s.core t.core) ?_ hfit .refl
      intro before record hfits hbefore
      exact hbefore.trans (stored_coreSteps hfits.1 hfits.2)

end Suite

/-! ## Runs -/

/-- Nothing assumed about ownership changes. -/
abbrev AnyTransfer : Core → Bytes32 → Address → Prop := fun _ _ _ => True

variable {d : Deployment} {w w' : World}

/-- The ownership change a move makes when it succeeds. -/
def World.transferTarget (w : World) : Move d → Option (Bytes32 × Address)
  | .call _ op => w.suite.transferTarget op
  | _ => none

/-- Every move is a sequence of elementary changes of the core. -/
theorem World.Effect.coreSteps {T : Core → Bytes32 → Address → Prop} {move : Move d}
    (h : w.Effect d move w')
    (hallowed : ∀ repoId newOwner, w.transferTarget move = some (repoId, newOwner) →
      T w.suite.core repoId newOwner) : CoreSteps d T w.suite.core w'.suite.core := by
  cases h with
  | call _ heffect => exact heffect.coreSteps hallowed
  | bootstrap hstep => exact hstep.coreSteps
  | openSponsor | closeSponsor | wait => exact .refl

/-- What a move that changes an owner leaves in the core. -/
theorem World.Effect.transferred {move : Move d} {repoId : Bytes32} {newOwner : Address}
    (h : w.Effect d move w') (htarget : w.transferTarget move = some (repoId, newOwner)) :
    (w.suite.core.repositories repoId).present = true ∧
      ∃ moved, w'.suite.core = w.suite.core.transferred d repoId newOwner moved := by
  cases h with
  | call _ heffect =>
      cases heffect with
      | acceptOwnershipTransfer hpresent =>
          cases htarget
          exact ⟨hpresent, _, rfl⟩
      | executeRecovery hpresent =>
          cases htarget
          exact ⟨hpresent, _, rfl⟩
      | _ => cases htarget
  | _ => cases htarget

/-- A run from a reachable world is a sequence of elementary changes of the core. -/
theorem Reachable.coreSteps (hreach : Reachable d w) (hrun : Leads d w w') :
    CoreSteps d AnyTransfer w.suite.core w'.suite.core := by
  induction hrun with
  | refl => exact .refl
  | tail hrun hstep ih =>
      obtain ⟨move, hnext⟩ := hstep
      exact ih.trans (((hreach.leads hrun).effect hnext).coreSteps fun _ _ _ => trivial)

/-- An invariant of the empty core and of every elementary change holds in every reachable world. -/
theorem Reachable.core_invariant {P : Core → Prop} (hempty : P default)
    (hstep : ∀ c c', CoreStep d AnyTransfer c c' → P c → P c') (hreach : Reachable d w) :
    P w.suite.core :=
  reflTransGen_preserves hstep (Reachable.coreSteps .refl hreach) hempty

end Igit
