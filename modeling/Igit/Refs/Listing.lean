import Igit.Bootstrap.Effects
import Igit.Ownership.Collaborators
import Igit.Ownership.OwnerIndex
import Igit.Refs.CompareAndSet

/-!
# The listings of the core

A repository lists the names of its refs and its collaborators, and an owner their repositories, each
next to a map that says what is there. The lists hold exactly what the maps say, once each, and stay
within their limits. For collaborators and owners the swap-and-pop proofs are in `Ownership`; here are
the refs, the limits, and the positions of repositories that do not exist.
-/

namespace Igit

open Fallible

/-- A pack list as refs have it: one to 128 valid locations. -/
structure ValidPacks (uris : List Bytes) : Prop where
  ne_nil : uris ≠ []
  length_le : uris.length ≤ maxPackUris
  valid : ∀ uri ∈ uris, validPackUri uri = true

/-- The pack list of an update is as refs have it, when the one it extends was. -/
theorem Suite.mergePackUris_valid {d : Deployment} {current packUris uris : List Bytes} {force : Bool}
    (hgiven : ValidPacks packUris) (hcurrent : current ≠ [] → ValidPacks current)
    (h : mergePackUris d current packUris force = .ok uris) : ValidPacks uris := by
  simp only [mergePackUris, List.length_eq_zero_iff] at h
  by_cases hreplace : force = true ∨ current = []
  · rw [if_pos hreplace, pure_eq_ok] at h
    rw [← h]
    exact hgiven
  · rw [if_neg hreplace] at h
    refine foldlM_preserves (P := ValidPacks) ?_ h (hcurrent fun hnil => hreplace (.inr hnil))
    intro uri huri before after hround hbefore
    by_cases hmem : Core.containsUri d.keccak before uri = true
    · rw [appendPackUri, if_pos hmem, pure_eq_ok] at hround
      rw [← hround]
      exact hbefore
    · rw [appendPackUri, if_neg hmem] at hround
      simp only [bind_eq_ok, revertIf_eq_ok, exists_unit, pure_eq_ok, ge_iff_le, Nat.not_le] at hround
      obtain ⟨hroom, rfl⟩ := hround
      refine ⟨by simp, ?_, fun other hother => ?_⟩
      · rw [List.length_append]
        exact hroom
      · cases List.mem_append.mp hother with
        | inl hin => exact hbefore.valid other hin
        | inr hin =>
            rw [List.mem_singleton.mp hin]
            exact hgiven.valid uri huri

namespace Core

/-! ## Refs -/

/-- The names of a repository are those of its refs, and every ref has packs. -/
structure RefsListed (keccak : Keccak) (c : Core) : Prop where
  nodup : ∀ r, (c.refNames r).Nodup
  length_le : ∀ r, (c.refNames r).length ≤ maxRefsPerRepo
  named : ∀ r name, name ∈ c.refNames r ↔ (c.refs r (keccak.ofBytes name)).present = true
  keyed : ∀ r refId, (c.refs r refId).present = true → ∃ name, refId = keccak.ofBytes name
  packs : ∀ r refId, (c.refs r refId).present = true → ValidPacks (c.refs r refId).packUris

variable {keccak : Keccak} {c c' : Core} {r : Bytes32}

/-- The listing of one repository changes, and the others stay as they are. -/
theorem RefsListed.of_single (h : c.RefsListed keccak) (hrefs : ∀ r', r' ≠ r → c'.refs r' = c.refs r')
    (hnames : ∀ r', r' ≠ r → c'.refNames r' = c.refNames r') (hnodup : (c'.refNames r).Nodup)
    (hlength : (c'.refNames r).length ≤ maxRefsPerRepo)
    (hnamed : ∀ name, name ∈ c'.refNames r ↔ (c'.refs r (keccak.ofBytes name)).present = true)
    (hkeyed : ∀ refId, (c'.refs r refId).present = true → ∃ name, refId = keccak.ofBytes name)
    (hpacks : ∀ refId, (c'.refs r refId).present = true → ValidPacks (c'.refs r refId).packUris) :
    c'.RefsListed keccak := by
  refine ⟨fun r' => ?_, fun r' => ?_, fun r' => ?_, fun r' => ?_, fun r' => ?_⟩
  all_goals by_cases hr : r' = r
  · rwa [hr]
  · rw [hnames r' hr]
    exact h.nodup r'
  · rwa [hr]
  · rw [hnames r' hr]
    exact h.length_le r'
  · rwa [hr]
  · rw [hnames r' hr, hrefs r' hr]
    exact h.named r'
  · rwa [hr]
  · rw [hrefs r' hr]
    exact h.keyed r'
  · rwa [hr]
  · rw [hrefs r' hr]
    exact h.packs r'

/-- A ref is written, and its name listed if it was not there. -/
theorem RefsListed.write (h : c.RefsListed keccak) (name : Bytes) (gitRef : GitRef)
    (hpresent : gitRef.present = true) (hpacks : ValidPacks gitRef.packUris)
    (hroom : (c.refs r (keccak.ofBytes name)).present = false →
      (c.refNames r).length < maxRefsPerRepo)
    (hrefs : c'.refs = Function.update c.refs r
      (Function.update (c.refs r) (keccak.ofBytes name) gitRef))
    (hnames : c'.refNames = Function.update c.refNames r
      (if (c.refs r (keccak.ofBytes name)).present = true then c.refNames r
        else c.refNames r ++ [name])) : c'.RefsListed keccak := by
  have hself : c'.refs r (keccak.ofBytes name) = gitRef := by
    rw [hrefs, Function.update_self, Function.update_self]
  have hother : ∀ refId, refId ≠ keccak.ofBytes name → c'.refs r refId = c.refs r refId := by
    intro refId hne
    rw [hrefs, Function.update_self, Function.update_of_ne hne]
  have hlist : c'.refNames r = if (c.refs r (keccak.ofBytes name)).present = true
      then c.refNames r else c.refNames r ++ [name] := by
    rw [hnames, Function.update_self]
  have hmem : ∀ name', name' ∈ c'.refNames r ↔ name' ∈ c.refNames r ∨ name' = name := by
    intro name'
    rw [hlist]
    split
    · rename_i hthere
      refine ⟨.inl, fun hname => hname.elim id ?_⟩
      rintro rfl
      exact (h.named r name').mpr hthere
    · rw [List.mem_append, List.mem_singleton]
  refine h.of_single (r := r) (fun r' hr => ?_) (fun r' hr => ?_) ?_ ?_ (fun name' => ?_)
    (fun refId hid => ?_) (fun refId hid => ?_)
  · rw [hrefs, Function.update_of_ne hr]
  · rw [hnames, Function.update_of_ne hr]
  · rw [hlist]
    split
    · exact h.nodup r
    · rename_i hthere
      refine List.Nodup.append (h.nodup r) (List.nodup_singleton name) ?_
      rw [List.disjoint_singleton, h.named]
      exact hthere
  · rw [hlist]
    split
    · exact h.length_le r
    · rename_i hthere
      have hless := hroom (by simpa using hthere)
      rw [List.length_append, List.length_singleton]
      omega
  · rw [hmem, h.named r name']
    by_cases hname : name' = name
    · rw [hname, hself, hpresent]
      simp
    · rw [hother _ (keccak.ofBytes_inj.not.mpr hname)]
      simp [hname]
  · by_cases hkey : refId = keccak.ofBytes name
    · exact ⟨name, hkey⟩
    · rw [hother refId hkey] at hid
      exact h.keyed r refId hid
  · by_cases hkey : refId = keccak.ofBytes name
    · rw [hkey, hself]
      exact hpacks
    · rw [hother refId hkey] at hid ⊢
      exact h.packs r refId hid

theorem RefsListed.withoutRef {d : Deployment} {s : Suite} (h : s.core.RefsListed d.keccak)
    (msg : Message) (repoId : Bytes32) (refName : Bytes) :
    (s.withoutRef d msg repoId refName).core.RefsListed d.keccak := by
  obtain ⟨hnodup, hmem⟩ := Suite.removeRefName_spec d refName (h.nodup repoId)
  have hrefs : ∀ refId, refId ≠ d.keccak.ofBytes refName →
      (s.withoutRef d msg repoId refName).core.refs repoId refId = s.core.refs repoId refId := by
    intro refId hne
    simp [Suite.withoutRef, Suite.setCore, Core.setRepository, Core.setRefNames, Core.putRef, hne]
  have hself : (s.withoutRef d msg repoId refName).core.refs repoId (d.keccak.ofBytes refName) =
      default := Suite.gitRef_withoutRef_self
  refine h.of_single (r := repoId) (fun r' hr => ?_) (fun r' hr => ?_) ?_ ?_ (fun name => ?_)
    (fun refId hid => ?_) (fun refId hid => ?_)
  · exact Function.update_of_ne hr _ _
  · exact Function.update_of_ne hr _ _
  · rw [Suite.refNames_withoutRef]
    exact hnodup
  · rw [Suite.refNames_withoutRef]
    exact (Suite.length_removeRefName_le _ _).trans (h.length_le repoId)
  · rw [Suite.refNames_withoutRef, hmem, h.named]
    by_cases hname : name = refName
    · rw [hname, hself]
      exact ⟨fun hgone => absurd rfl hgone.2, fun hgone => by cases hgone⟩
    · rw [hrefs _ (d.keccak.ofBytes_inj.not.mpr hname)]
      exact and_iff_left hname
  · by_cases hkey : refId = d.keccak.ofBytes refName
    · exact ⟨refName, hkey⟩
    · rw [hrefs refId hkey] at hid
      exact h.keyed repoId refId hid
  · by_cases hkey : refId = d.keccak.ofBytes refName
    · rw [hkey, hself] at hid
      cases hid
    · rw [hrefs refId hkey] at hid ⊢
      exact h.packs repoId refId hid

/-- A fork lists the names of its source. -/
theorem RefsListed.copied (h : c.RefsListed keccak) {source fork : Bytes32} (now : Nat)
    (sender : Address) (hnone : ∀ refId, (c.refs fork refId).present = false) :
    (Suite.copied keccak c source fork now sender (c.refNames source)).RefsListed keccak := by
  have hempty : c.refNames fork = [] := by
    refine List.eq_nil_iff_forall_not_mem.mpr fun name hin => ?_
    have hthere := (h.named fork name).mp hin
    rw [hnone] at hthere
    cases hthere
  have hlist : (Suite.copied keccak c source fork now sender (c.refNames source)).refNames fork =
      c.refNames source := by
    simp [Suite.copied, hempty]
  -- a digest is among the copied ones exactly when the source has the ref
  have hcopied : ∀ refId, refId ∈ (c.refNames source).map keccak.ofBytes ↔
      (c.refs source refId).present = true := by
    intro refId
    rw [List.mem_map]
    constructor
    · rintro ⟨name, hin, rfl⟩
      exact (h.named source name).mp hin
    · intro hthere
      obtain ⟨name, rfl⟩ := h.keyed source refId hthere
      exact ⟨name, (h.named source name).mpr hthere, rfl⟩
  have hpresent : ∀ refId, ((Suite.copied keccak c source fork now sender
      (c.refNames source)).refs fork refId).present = true ↔ (c.refs source refId).present = true := by
    intro refId
    rw [← hcopied refId]
    simp only [Suite.copied, Function.update_self]
    split
    · rename_i hin
      exact ⟨fun _ => hin, fun _ => rfl⟩
    · rename_i hin
      rw [hnone]
      exact ⟨fun hfalse => absurd hfalse (by decide), fun hin' => absurd hin' hin⟩
  refine h.of_single (r := fork) (fun r' hr => ?_) (fun r' hr => ?_) ?_ ?_ (fun name => ?_)
    (fun refId hid => ?_) (fun refId hid => ?_)
  · exact Function.update_of_ne hr _ _
  · exact Function.update_of_ne hr _ _
  · rw [hlist]
    exact h.nodup source
  · rw [hlist]
    exact h.length_le source
  · rw [hlist, hpresent, h.named]
  · exact h.keyed source refId ((hpresent refId).mp hid)
  · have hthere := (hpresent refId).mp hid
    simp only [Suite.copied, Function.update_self, (hcopied refId).mpr hthere, if_true]
    exact h.packs source refId hthere

/-! ## Collaborators -/

/-- Removing a collaborator makes no list longer. -/
theorem length_removeCollaborator_le {account : Address}
    (h : c.removeCollaborator r account = .ok c') (r' : Bytes32) :
    (c'.collaborators r').length ≤ (c.collaborators r').length := by
  simp only [removeCollaborator, ne_eq, ite_not] at h
  split at h
  · rw [pure_eq_ok] at h
    rw [← h]
    exact le_rfl
  · split at h
    · simp at h
    · simp only [bind_eq_ok, revertIf_eq_ok, exists_unit, pure_eq_ok, Nat.not_le] at h
      obtain ⟨hinside, rfl⟩ := h
      by_cases hr : r' = r
      · subst hr
        simp only [popCollaborator, forgetCollaborator, Function.update_self]
        rw [(swapPop_perm hinside).length_eq]
        exact (List.eraseIdx_sublist _ _).length_le
      · simp [popCollaborator, forgetCollaborator, hr]

/-- `setCollaborator` stays within the limit. -/
theorem RoleChange.length_le {account : Address} (h : c.RoleChange r account c')
    (hbounded : ∀ r, (c.collaborators r).length ≤ maxCollaboratorsPerRepo) (r' : Bytes32) :
    (c'.collaborators r').length ≤ maxCollaboratorsPerRepo := by
  cases h with
  | keep => exact hbounded r'
  | grant _ _ hroom =>
      by_cases hr : r' = r
      · subst hr
        simp only [pushCollaborator, setRole, Function.update_self, List.length_append,
          List.length_singleton]
        omega
      · simpa [pushCollaborator, setRole, hr] using hbounded r'
  | regrade => exact hbounded r'
  | revoke _ hremoved => exact (length_removeCollaborator_le hremoved r').trans (hbounded r')

/-! ## Owners -/

/-- A repository that does not exist has no position. -/
def Unplaced (c : Core) : Prop :=
  ∀ r, (c.repositories r).present = false → c.ownerRepositoryIndexes r = 0

/-- Every elementary step gives positions to existing repositories only. -/
theorem Unplaced.step {d : Deployment} {T : Core → Bytes32 → Address → Prop}
    (hstep : CoreStep d T c c') (hindexed : c.OwnerIndexed) (h : c.Unplaced) : c'.Unplaced := by
  cases hstep with
  | same hsame =>
      intro r
      rw [hsame.present, hsame.ownerRepositoryIndexes]
      exact h r
  | @register imported hcan =>
      intro r habsent
      by_cases hr : r = imported.id
      · rw [hr] at habsent
        simp [registered, putRepository] at habsent
      · simp only [registered, putRepository, Function.update_of_ne hr] at habsent ⊢
        exact h r habsent
  | revoke _ hremoved =>
      obtain ⟨_, _, _, rfl⟩ := removeCollaborator_frame hremoved
      exact h
  | @transfer repoId newOwner moved hpresent _ _ _ hmove _ =>
      intro r habsent
      rw [transferred_present] at habsent
      have hplaced : ∀ r', (c.repositories r').present = true → r ≠ r' := by
        intro r' hthere hsame
        rw [← hsame] at hthere
        exact absurd (habsent.symm.trans hthere) (by decide)
      have hmoved := ((hindexed.listed _ moved).mp (List.mem_of_getLast? hmove.last)).1
      show Function.update (Function.update c.ownerRepositoryIndexes moved _) repoId _ r = 0
      rw [Function.update_of_ne (hplaced repoId hpresent), Function.update_of_ne (hplaced moved hmoved)]
      exact h r habsent
  | _ => exact h

end Core

/-! ## Runs -/

/-- What a run keeps of the listings, apart from positions. -/
structure Suite.Listings (keccak : Keccak) (s : Suite) : Prop where
  refs : s.core.RefsListed keccak
  collaborators : ∀ r, (s.core.collaborators r).length ≤ maxCollaboratorsPerRepo

theorem Suite.Listings.stored {keccak : Keccak} {s : Suite} {record : ImportRecord}
    (hformed : record.WellFormed) (hfits : s.Fits keccak record) (h : s.Listings keccak) :
    (s.stored keccak record).Listings keccak := by
  cases record with
  | repository => exact ⟨{ h.refs with }, h.collaborators⟩
  | repositoryAlias => exact ⟨{ h.refs with }, h.collaborators⟩
  | ref record =>
      obtain ⟨-, habsent, hroom⟩ := hfits
      refine ⟨h.refs.write (r := record.repoId) record.refName
        ⟨record.commitSha, record.packUris, record.updatedAt, record.updatedBy, true⟩ rfl
        ⟨?_, hformed.packs_le, hformed.packs_valid⟩ (fun _ => hroom) rfl ?_, h.collaborators⟩
      · intro hnil
        exact hformed.packs_ne_zero (by rw [show record.packUris = [] from hnil]; rfl)
      · rw [habsent]
        rfl
  | collaborator record =>
      obtain ⟨-, -, -, hroom⟩ := hfits
      have hlists : (s.stored keccak (.collaborator record)).core.collaborators =
          Function.update s.core.collaborators record.repoId
            (s.core.collaborators record.repoId ++ [record.account]) := rfl
      refine ⟨{ h.refs with }, fun r => ?_⟩
      rw [hlists]
      by_cases hr : r = record.repoId
      · rw [hr, Function.update_self, List.length_append, List.length_singleton]
        exact hroom
      · rw [Function.update_of_ne hr]
        exact h.collaborators r
  | _ => exact ⟨h.refs, h.collaborators⟩

/-- An update lists its ref. -/
theorem Core.RefsListed.withRef {d : Deployment} {s : Suite} (h : s.core.RefsListed d.keccak)
    (hwhole : s.core.WholeRefs) {msg : Message} {repoId : Bytes32} {refName commitSha : Bytes}
    {packUris uris : List Bytes} {force : Bool}
    (hterms : s.PushTerms msg repoId refName commitSha packUris)
    (hroom : (s.gitRef d repoId refName).present = false →
      (s.core.refNames repoId).length < maxRefsPerRepo)
    (hmerge : Suite.mergePackUris d (s.gitRef d repoId refName).packUris packUris force = .ok uris) :
    (s.withRef d msg repoId refName commitSha uris).core.RefsListed d.keccak := by
  have hcurrent : (s.gitRef d repoId refName).packUris ≠ [] →
      ValidPacks (s.gitRef d repoId refName).packUris := by
    intro hsome
    refine h.packs repoId _ ?_
    by_contra habsent
    exact hsome (congrArg GitRef.packUris (hwhole.blank repoId _ (by simpa using habsent)))
  have hpacks := Suite.mergePackUris_valid
    ⟨hterms.packs.1, hterms.packs.2, hterms.packs_valid⟩ hcurrent hmerge
  refine h.write (r := repoId) refName ⟨commitSha, uris, msg.timestamp, msg.sender, true⟩ rfl hpacks
    hroom ?_ ?_
  all_goals
    simp only [Suite.withRef, Suite.setCore, Core.setRepository, Core.putRef]
    split
  · rfl
  · rfl
  · rw [Function.update_eq_self]
  · rfl

/-- A call keeps the listings. -/
theorem Suite.Effect.listings {d : Deployment} {s s' : Suite} {sender : Address} {now : Nat} {op : Op}
    (heffect : Effect d s sender now op s') (hwhole : s.core.WholeRefs) (h : s.Listings d.keccak) :
    s'.Listings d.keccak := by
  cases heffect with
  | createRepository => exact ⟨{ h.refs with }, h.collaborators⟩
  | @forkRepository source name hpresent hstatus hcan hsize =>
      have hne : source ≠ d.repositoryId sender name := by
        intro hsame
        rw [hsame] at hpresent
        exact absurd (hcan.absent.symm.trans hpresent) (by decide)
      have hregistered : (s.core.registered d (newFork d s sender source name now)).RefsListed
          d.keccak := { h.refs with }
      -- a repository that was not there has no refs
      have hnone : ∀ refId, (s.core.refs (d.repositoryId sender name) refId).present = false := by
        intro refId
        by_contra hthere
        have howned := hwhole.owned _ refId (by simpa using hthere)
        exact absurd (hcan.absent.symm.trans howned) (by decide)
      refine ⟨?_, ?_⟩
      · show (forkedCore d s sender source name now).RefsListed d.keccak
        rw [forkedCore, foldl_copyRef hne]
        exact hregistered.copied now sender hnone
      · show ∀ r, ((forkedCore d s sender source name now).collaborators r).length ≤ _
        rw [forkedCore, foldl_copyRef hne]
        exact h.collaborators
  | updateMetadata => exact ⟨{ h.refs with }, h.collaborators⟩
  | updateRef hterms hroom hmerge =>
      refine ⟨h.refs.withRef hwhole hterms hroom hmerge, fun r => ?_⟩
      simp only [withRef, setCore, Core.setRepository, Core.putRef]
      split
      · exact h.collaborators r
      · exact h.collaborators r
  | deleteRef => exact ⟨h.refs.withoutRef _ _ _, h.collaborators⟩
  | setCollaborator _ hchange =>
      refine ⟨?_, hchange.length_le h.collaborators⟩
      cases hchange with
      | revoke _ hremoved =>
          obtain ⟨_, _, _, rfl⟩ := Core.removeCollaborator_frame hremoved
          exact { h.refs with }
      | _ => exact { h.refs with }
  | _ => exact ⟨{ h.refs with }, h.collaborators⟩

/-- Every run keeps the listings. -/
theorem Reachable.listings {d : Deployment} {w : World} (h : Reachable d w) :
    w.suite.Listings d.keccak := by
  refine h.suite_invariant (P := Suite.Listings d.keccak) ?_ ⟨?_, ?_, ?_, ?_, ?_⟩
  · have hnames : ∀ r, d.initialSuite.core.refNames r = [] := fun _ => rfl
    have hcollaborators : ∀ r, d.initialSuite.core.collaborators r = [] := fun _ => rfl
    have habsent : ∀ r refId, (d.initialSuite.core.refs r refId).present ≠ true := by
      intro r refId hthere
      cases hthere
    refine ⟨⟨fun r => ?_, fun r => ?_, fun r name => ?_, fun r refId hthere => ?_,
      fun r refId hthere => ?_⟩, fun r => ?_⟩
    · rw [hnames]
      exact List.nodup_nil
    · rw [hnames]
      exact Nat.zero_le _
    · rw [hnames]
      exact ⟨fun hin => absurd hin List.not_mem_nil, fun hthere => absurd hthere (habsent r _)⟩
    · exact absurd hthere (habsent r refId)
    · exact absurd hthere (habsent r refId)
    · rw [hcollaborators]
      exact Nat.zero_le _
  · intro s u _ hs
    exact ⟨hs.refs, hs.collaborators⟩
  · intro s deadline _ hs
    exact ⟨hs.refs, hs.collaborators⟩
  · intro s record _ hformed hfits hs
    exact hs.stored hformed hfits
  · intro w sender op s' hreach _ heffect hw
    exact heffect.listings hreach.wholeRefs hw
  · intro s e hs
    exact ⟨hs.refs, hs.collaborators⟩

theorem Reachable.unplaced {d : Deployment} {w : World} (h : Reachable d w) :
    w.suite.core.Unplaced := by
  refine (h.core_invariant (P := fun c => (c.Naming d ∧ c.OwnerIndexed) ∧ c.Unplaced) ?_ ?_).2
  · have hstart : Reachable d (World.initial d) := .refl
    exact ⟨⟨hstart.naming, hstart.ownerIndexed⟩, fun _ _ => rfl⟩
  · rintro c c' hstep ⟨⟨hnaming, hindexed⟩, hunplaced⟩
    exact ⟨⟨hnaming.step hstep, hindexed.step hstep hnaming⟩, hunplaced.step hstep hindexed⟩

/-- In every reachable state each listing of the core is exact. A repository lists at most 1024 ref
names, once each, and exactly those whose ref exists, and every ref has one to 128 valid pack
locations. It lists at most 256 collaborators, once each, exactly the accounts with a role, at the
positions on record. An owner's list holds exactly their repositories, once each, at the positions on
record, and a repository that does not exist has no position. -/
theorem listings_exact {d : Deployment} {w : World} (h : Reachable d w) :
    (∀ r, (w.suite.core.refNames r).Nodup ∧ (w.suite.core.refNames r).length ≤ 1024 ∧
      (∀ name, name ∈ w.suite.core.refNames r ↔
        (w.suite.core.refs r (d.keccak.ofBytes name)).present = true) ∧
      ∀ refId, (w.suite.core.refs r refId).present = true →
        (∃ name ∈ w.suite.core.refNames r, refId = d.keccak.ofBytes name) ∧
        1 ≤ (w.suite.core.refs r refId).packUris.length ∧
        (w.suite.core.refs r refId).packUris.length ≤ 128 ∧
        ∀ uri ∈ (w.suite.core.refs r refId).packUris, validPackUri uri = true) ∧
    (∀ r, (w.suite.core.collaborators r).Nodup ∧ (w.suite.core.collaborators r).length ≤ 256 ∧
      (∀ a, a ∈ w.suite.core.collaborators r ↔ w.suite.core.roles r a ≠ .none) ∧
      ∀ i a, (w.suite.core.collaborators r)[i]? = some a →
        w.suite.core.collaboratorIndexes r a = i + 1) ∧
    (∀ a, (w.suite.core.ownerRepositories a).Nodup ∧
      (∀ r, r ∈ w.suite.core.ownerRepositories a ↔
        (w.suite.core.repositories r).present = true ∧ (w.suite.core.repositories r).owner = a) ∧
      ∀ i r, (w.suite.core.ownerRepositories a)[i]? = some r →
        w.suite.core.ownerRepositoryIndexes r = i + 1) ∧
    ∀ r, (w.suite.core.repositories r).present = false →
      w.suite.core.ownerRepositoryIndexes r = 0 := by
  have hrefs := h.listings.refs
  have hlisted := h.listed
  have howners := h.ownerIndexed
  refine ⟨fun r => ⟨hrefs.nodup r, hrefs.length_le r, hrefs.named r, fun refId hthere => ?_⟩,
    fun r => ⟨(hlisted.indexed r).nodup, h.listings.collaborators r, hlisted.listed r,
      hlisted.indexed r⟩,
    fun a => ⟨(howners.indexed a).nodup, howners.listed a, howners.indexed a⟩, h.unplaced⟩
  obtain ⟨name, rfl⟩ := hrefs.keyed r refId hthere
  have hpacks := hrefs.packs r _ hthere
  exact ⟨⟨name, (hrefs.named r name).mpr hthere, rfl⟩, List.length_pos_iff.mpr hpacks.ne_nil,
    hpacks.length_le, hpacks.valid⟩

namespace Sample

/-- `alice` pushes two branches, makes `bob` and `carol` collaborators, and takes back the first of
each. -/
def tidied : World := genesis.run
  [callAfter 1 alice (.core (.createRepository projectName [] [])),
   callAfter 1 alice (.core (.updateRef project mainRef shaA [packUri 0x61] [] false)),
   callAfter 1 alice (.core (.updateRef project (mainRef ++ [0x32]) shaB [packUri 0x62] [] false)),
   callAfter 1 alice (.core (.setCollaborator project bob.address .maintainer)),
   callAfter 1 alice (.core (.setCollaborator project carol.address .reader)),
   callAfter 1 alice (.core (.deleteRef project mainRef)),
   callAfter 1 alice (.core (.setCollaborator project bob.address .none))]

theorem tidied_reachable : Reachable deployment tidied := genesis_reachable _

/-- The second branch and `carol` have moved up. -/
theorem tidied_listings :
    tidied.suite.core.refNames project = [mainRef ++ [0x32]] ∧
      (tidied.suite.core.refs project (deployment.keccak.ofBytes mainRef)).present ≠ true ∧
      tidied.suite.core.collaborators project = [carol.address] ∧
      tidied.suite.core.collaboratorIndexes project carol.address = 1 ∧
      tidied.suite.core.ownerRepositoryIndexes project = 1 := by
  have hnames : tidied.suite.core.refNames project = [mainRef ++ [0x32]] := by decide +kernel
  have hcollaborators : tidied.suite.core.collaborators project = [carol.address] := by
    decide +kernel
  have howned : tidied.suite.core.ownerRepositories alice.address = [project] := by decide +kernel
  obtain ⟨hrefs, hroles, howners, -⟩ := listings_exact tidied_reachable
  refine ⟨hnames, fun hthere => ?_, hcollaborators, (hroles project).2.2.2 0 _ ?_,
    (howners alice.address).2.2 0 _ ?_⟩
  · have hin := ((hrefs project).2.2.1 mainRef).mpr hthere
    rw [hnames] at hin
    exact absurd hin (by decide)
  · rw [hcollaborators]
    rfl
  · rw [howned]
    rfl

end Sample

end Igit
