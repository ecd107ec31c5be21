import Igit.Library.PackStore
import Igit.Specs.Ownership

/-!
# What a ref update does

`updateRef` and `deleteRef` of `RepositoryCore`. `updateRef` checks the caller and its arguments
(`PushTerms`), compares the expected commit with the stored one, and stores the new commit with the
pack list: replaced by a forced update and for a new ref, else extended by what is not there yet.
-/

namespace Igit

open Fallible

/-- The comparison by hashes finds the URIs that are there. -/
@[simp] theorem Core.containsUri_iff {keccak : Keccak} {uris : List Bytes} {uri : Bytes} :
    Core.containsUri keccak uris uri = true ↔ uri ∈ uris := by
  simp [Core.containsUri]

/-- The pack list after an update: the given one, or the current one extended by it. -/
def mergedUris (current packUris : List Bytes) (force : Bool) : List Bytes :=
  if force = true ∨ current = [] then packUris else extendBy current packUris

namespace Suite

variable {d : Deployment} {s s' : Suite} {msg : Message} {repoId : Bytes32}
variable {refName commitSha : Bytes} {packUris : List Bytes} {expectedSha : Bytes} {force : Bool}

/-- The append loop of `updateRef`, when it does not run out of room. -/
theorem foldlM_appendPackUri_ok {current uris : List Bytes}
    (h : packUris.foldlM (appendPackUri d) current = .ok uris) :
    uris = extendBy current packUris := by
  induction packUris generalizing current with
  | nil => exact (pure_eq_ok.mp h).symm
  | cons uri rest ih =>
      rw [List.foldlM_cons, bind_eq_ok] at h
      obtain ⟨appended, happended, hrest⟩ := h
      rw [ih hrest, extendBy_cons]
      by_cases hmem : uri ∈ current
      · rw [appendPackUri, if_pos (Core.containsUri_iff.mpr hmem), pure_eq_ok] at happended
        rw [if_pos hmem, ← happended]
      · rw [appendPackUri, if_neg (mt Core.containsUri_iff.mp hmem)] at happended
        simp only [bind_eq_ok, revertIf_eq_ok, exists_unit, pure_eq_ok] at happended
        rw [if_neg hmem, ← happended.2]

/-- The pack list a successful update stores. -/
theorem mergePackUris_ok {current uris : List Bytes}
    (h : mergePackUris d current packUris force = .ok uris) :
    uris = mergedUris current packUris force := by
  simp only [mergePackUris, List.length_eq_zero_iff] at h
  rw [mergedUris]
  by_cases hreplace : force = true ∨ current = []
  · rw [if_pos hreplace] at h ⊢
    exact (pure_eq_ok.mp h).symm
  · rw [if_neg hreplace] at h ⊢
    exact foldlM_appendPackUri_ok h

variable (d s) in
/-- The stored ref of this name. -/
def gitRef (repoId : Bytes32) (refName : Bytes) : GitRef :=
  s.core.refs repoId (d.keccak.ofBytes refName)

variable (s) in
/-- What `updateRef` asks of its caller and its arguments, apart from the stored ref. -/
structure PushTerms (msg : Message) (repoId : Bytes32) (refName commitSha : Bytes)
    (packUris : List Bytes) : Prop where
  active : s.IsActive
  present : (s.core.repositories repoId).present = true
  maintainer : s.canMaintain repoId (s.core.repositories repoId).owner msg.sender
  modules : s.moduleAddress .moderation ≠ 0 ∧ s.moduleAddress .core ≠ 0
  not_frozen : s.moderation.statuses repoId ≠ .frozen
  refName_valid : validRefName refName = true
  commitSha_valid : validCommitSha commitSha = true
  packs : packUris ≠ [] ∧ packUris.length ≤ maxPackUris
  packs_valid : ∀ uri ∈ packUris, validPackUri uri = true
  clock : msg.timestamp ≤ uint64Max

variable (d s) in
/-- The suite with the ref stored. -/
def withRef (msg : Message) (repoId : Bytes32) (refName commitSha : Bytes) (uris : List Bytes) :
    Suite :=
  let refId := d.keccak.ofBytes refName
  let named := if (s.core.refs repoId refId).present then s.core
    else s.core.setRefNames repoId (s.core.refNames repoId ++ [refName])
  s.setCore ((named.putRef repoId refId ⟨commitSha, uris, msg.timestamp, msg.sender, true⟩
    ).setRepository repoId { s.core.repositories repoId with updatedAt := msg.timestamp })

/-- Exactly when `updateRef` succeeds, and with what result. -/
theorem updateRef_eq_ok :
    s.updateRef d msg repoId refName commitSha packUris expectedSha force = .ok s' ↔
      s.PushTerms msg repoId refName commitSha packUris ∧
        (force = false → (s.gitRef d repoId refName).present = true →
          (s.gitRef d repoId refName).commitSha = expectedSha) ∧
        ((s.gitRef d repoId refName).present = false →
          (s.core.refNames repoId).length < maxRefsPerRepo) ∧
        ∃ uris, mergePackUris d (s.gitRef d repoId refName).packUris packUris force = .ok uris ∧
          s' = s.withRef d msg repoId refName commitSha uris := by
  simp only [updateRef, bind_eq_ok, onlyActiveSuite_eq_ok, requireRepository_eq_ok, revertIf_eq_ok,
    requireModule_eq_ok, requireRefMutation_eq_ok, validateRefName_eq_ok, validateCommitSha_eq_ok,
    forM_eq_ok, validatePackUri_eq_ok, now64_eq_ok, exists_unit, pure_eq_ok, not_not, not_and, not_or,
    Nat.not_le, Nat.not_lt, gt_iff_lt, ge_iff_le, ne_eq, Keccak.ofBytes_inj,
    List.length_eq_zero_iff]
  constructor
  · rintro ⟨hactive, _, ⟨hpresent, rfl⟩, hmaintain, _, ⟨hmoderation, -⟩, ⟨hcore, -, hfrozen⟩, hname,
      hsha, ⟨hsome, hcount⟩, hpacks, hsame, hroom, uris, hmerge, _, ⟨hclock, rfl⟩, rfl⟩
    exact ⟨⟨hactive, hpresent, hmaintain, ⟨hmoderation, hcore⟩, hfrozen, hname, hsha,
      ⟨hsome, hcount⟩, hpacks, hclock⟩, hsame, hroom, uris, hmerge, rfl⟩
  · rintro ⟨hterms, hsame, hroom, uris, hmerge, rfl⟩
    exact ⟨hterms.active, _, ⟨hterms.present, rfl⟩, hterms.maintainer, _,
      ⟨hterms.modules.1, rfl⟩, ⟨hterms.modules.2, hterms.present, hterms.not_frozen⟩,
      hterms.refName_valid, hterms.commitSha_valid, hterms.packs, hterms.packs_valid, hsame,
      hroom, uris, hmerge, _, ⟨hterms.clock, rfl⟩, rfl⟩

variable (d refName) in
/-- The name list keeps its shape when a name is removed from it, and only that name is gone. -/
theorem removeRefName_spec {names : List Bytes} (hnodup : names.Nodup) :
    (removeRefName d names (d.keccak.ofBytes refName)).Nodup ∧
      ∀ name, name ∈ removeRefName d names (d.keccak.ofBytes refName) ↔
        name ∈ names ∧ name ≠ refName := by
  rw [removeRefName]
  cases hfound : names.findIdx? (fun name => d.keccak.ofBytes name == d.keccak.ofBytes refName) with
  | none =>
      refine ⟨hnodup, fun name => ⟨fun hmem => ⟨hmem, ?_⟩, fun hmem => hmem.1⟩⟩
      rintro rfl
      have hdiffers := List.findIdx?_eq_none_iff.mp hfound name hmem
      simp at hdiffers
  | some i =>
      obtain ⟨hi, hname, -⟩ := List.findIdx?_eq_some_iff_getElem.mp hfound
      have hname : names[i] = refName := by simpa using hname
      have hperm := swapPop_perm hi
      refine ⟨hperm.nodup_iff.mpr (hnodup.sublist (List.eraseIdx_sublist _ _)), fun name => ?_⟩
      show name ∈ swapPop names i ↔ _
      rw [hperm.mem_iff, List.mem_eraseIdx_iff_getElem]
      constructor
      · -- the name would stand in another cell as well
        rintro ⟨j, hj, hne, rfl⟩
        refine ⟨List.getElem_mem hj, fun hsame => hne ?_⟩
        exact hnodup.getElem_inj_iff.mp (hsame.trans hname.symm)
      · rintro ⟨hmem, hother⟩
        obtain ⟨j, hj, rfl⟩ := List.getElem_of_mem hmem
        refine ⟨j, hj, ?_, rfl⟩
        rintro rfl
        exact hother hname

/-- No more names than before. -/
theorem length_removeRefName_le (names : List Bytes) (refId : Bytes32) :
    (removeRefName d names refId).length ≤ names.length := by
  rw [removeRefName]
  cases hfound : names.findIdx? (fun name => d.keccak.ofBytes name == refId) with
  | none => exact le_rfl
  | some i =>
      obtain ⟨hi, -, -⟩ := List.findIdx?_eq_some_iff_getElem.mp hfound
      show (swapPop names i).length ≤ names.length
      rw [(swapPop_perm hi).length_eq]
      exact (List.eraseIdx_sublist _ _).length_le

variable (d s) in
/-- The suite with the ref deleted. -/
def withoutRef (msg : Message) (repoId : Bytes32) (refName : Bytes) : Suite :=
  let refId := d.keccak.ofBytes refName
  s.setCore (((s.core.putRef repoId refId default).setRefNames repoId
    (removeRefName d (s.core.refNames repoId) refId)).setRepository repoId
      { s.core.repositories repoId with updatedAt := msg.timestamp })

theorem deleteRef_ok (h : s.deleteRef d msg repoId refName = .ok s') :
    (s.gitRef d repoId refName).present = true ∧ s' = s.withoutRef d msg repoId refName := by
  simp only [deleteRef, bind_eq_ok, onlyActiveSuite_eq_ok, requireRepository_eq_ok, revertIf_eq_ok,
    requireModule_eq_ok, requireRefMutation_eq_ok, now64_eq_ok, exists_unit, pure_eq_ok,
    Bool.not_eq_false] at h
  obtain ⟨-, _, ⟨-, rfl⟩, -, _, -, -, hpresent, _, ⟨-, rfl⟩, rfl⟩ := h
  exact ⟨hpresent, rfl⟩

/-! ## The copy loop of a fork -/

/-- The core with copies of some refs of `source` added to `fork`. -/
def copied (keccak : Keccak) (c : Core) (source fork : Bytes32) (now : Nat) (sender : Address)
    (names : List Bytes) : Core :=
  { c with
    refs := Function.update c.refs fork fun refId =>
      if refId ∈ names.map keccak.ofBytes then
        ⟨(c.refs source refId).commitSha, (c.refs source refId).packUris, now, sender, true⟩
      else c.refs fork refId
    refNames := Function.update c.refNames fork (c.refNames fork ++ names) }

/-- The copy loop adds the names and their refs, and touches nothing else. -/
theorem foldl_copyRef {source fork : Bytes32} (hne : source ≠ fork) (now : Nat) (sender : Address)
    (names : List Bytes) (c : Core) :
    names.foldl (copyRef d source fork now sender) c =
      copied d.keccak c source fork now sender names := by
  induction names generalizing c with
  | nil => simp [copied]
  | cons name rest ih =>
      rw [List.foldl_cons, ih]
      -- the source is another repository, so the loop never reads what it has written
      have hsource : (copyRef d source fork now sender c name).refs source = c.refs source := by
        simp [copyRef, Core.putRef, Core.setRefNames, hne]
      have hnames : (copyRef d source fork now sender c name).refNames fork =
          c.refNames fork ++ [name] := by
        simp [copyRef, Core.putRef, Core.setRefNames]
      simp only [copied, hsource, hnames]
      simp only [copyRef, Core.putRef, Core.setRefNames, Function.update_idem, Function.update_self,
        List.append_assoc, List.singleton_append, Core.mk.injEq, true_and, and_true]
      congr 1
      funext refId
      by_cases hrest : refId ∈ rest.map d.keccak.ofBytes
      · simp [hrest]
      · by_cases hname : refId = d.keccak.ofBytes name
        · subst hname
          simp [hrest]
        · simp [hrest, hname]

/-! ## The refs afterwards -/

section Effects

variable {uris : List Bytes} {name : Bytes}

/-- The ref that is written has the commit, the packs and the time of the call. -/
theorem gitRef_withRef_self :
    (s.withRef d msg repoId refName commitSha uris).gitRef d repoId refName =
      ⟨commitSha, uris, msg.timestamp, msg.sender, true⟩ := by
  simp [gitRef, withRef, setCore, Core.setRepository, Core.putRef]

theorem gitRef_withRef_ne (hname : name ≠ refName) :
    (s.withRef d msg repoId refName commitSha uris).gitRef d repoId name =
      s.gitRef d repoId name := by
  have hid : d.keccak.ofBytes name ≠ d.keccak.ofBytes refName := by simpa using hname
  simp only [gitRef, withRef, setCore, Core.setRepository, Core.putRef, Function.update_self,
    Function.update_of_ne hid]
  split <;> rfl

/-- The name of a ref is listed when the ref is new. -/
theorem refNames_withRef :
    (s.withRef d msg repoId refName commitSha uris).core.refNames repoId =
      if (s.gitRef d repoId refName).present then s.core.refNames repoId
      else s.core.refNames repoId ++ [refName] := by
  simp only [gitRef, withRef, setCore, Core.setRepository, Core.putRef]
  by_cases hpresent : (s.core.refs repoId (d.keccak.ofBytes refName)).present = true
  · simp [hpresent]
  · simp [hpresent, Core.setRefNames]

theorem gitRef_withoutRef_self :
    (s.withoutRef d msg repoId refName).gitRef d repoId refName = default := by
  simp [gitRef, withoutRef, setCore, Core.setRepository, Core.setRefNames, Core.putRef]

theorem gitRef_withoutRef_ne (hname : name ≠ refName) :
    (s.withoutRef d msg repoId refName).gitRef d repoId name = s.gitRef d repoId name := by
  have hid : d.keccak.ofBytes name ≠ d.keccak.ofBytes refName := by simpa using hname
  simp [gitRef, withoutRef, setCore, Core.setRepository, Core.setRefNames, Core.putRef, hid]

theorem refNames_withoutRef :
    (s.withoutRef d msg repoId refName).core.refNames repoId =
      removeRefName d (s.core.refNames repoId) (d.keccak.ofBytes refName) := by
  simp [withoutRef, setCore, Core.setRepository, Core.setRefNames]

end Effects

end Suite

end Igit
