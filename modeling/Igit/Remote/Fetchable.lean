import Igit.Refs.CompareAndSet
import Igit.Remote.Helper

/-!
# Which pushes keep a ref fetchable

A ref can be fetched on its own when its packs load in order into an empty object store and hold
everything its commit reaches. A push leaves out what it believes to be on the chain: everything
that can be reached from any tip the client has listed. A fetch of the ref looks at the packs of
that ref alone. The two fit together exactly when what a push leaves out is in the packs of the very
ref it updates (`Helper.Covered`), or when it leaves out nothing.

This is an invariant of every run in which each push is covered in this sense, and a push that is
not covered breaks its ref.
-/

namespace Igit

open Fallible

variable {d : Deployment} {links : Bytes → List Bytes} {gateways : Gateways}

/-- The commit and everything it reaches can be fetched from these packs alone. -/
abbrev Fetchable (gateways : Gateways) (links : Bytes → List Bytes) (commitSha : Bytes)
    (packUris : List Bytes) : Prop :=
  SelfContained (fetchPack gateways) RemoteError.ingest links commitSha packUris

@[simp] theorem fetchPack_ipfs {cid : Bytes} :
    fetchPack gateways (ipfsScheme ++ cid) = gateways cid := by
  simp [fetchPack, ipfsScheme]

/-! ## What a push sends -/

/-- The locations a push reuses. -/
def reusedUris (remoteRefs : List RefInfo) (dst : Bytes) (pack : Pack Bytes) : List Bytes :=
  if packEmpty pack then ((lookupRef remoteRefs dst).map RefInfo.packUris).getD [] else []

theorem packEmpty_iff {pack : Pack Bytes} : packEmpty pack = true ↔ pack.objects = [] := by
  simp [packEmpty]

namespace Helper

variable {helper : Helper links gateways} {remoteRefs : List RefInfo} {spec : PushSpec}
variable {dst localSha : Bytes} {pack : Pack Bytes} {cids current : List Bytes}

/-- The three kinds of pushes: the pack made for it, a full pack, or packs the ref has already. -/
inductive Sends (helper : Helper links gateways) (remoteRefs : List RefInfo) (dst localSha : Bytes)
    (pack : Pack Bytes) : List Bytes → Prop where
  | upload {uri : Bytes} (hlisted : packEmpty pack = true → lookupRef remoteRefs dst ≠ none)
      (hreused : reusedUris remoteRefs dst pack = [])
      (huri : fetchPack gateways uri = .ok pack) : Sends helper remoteRefs dst localSha pack [uri]
  | full {uri : Bytes} {whole : Pack Bytes} (hempty : packEmpty pack = true)
      (hunlisted : lookupRef remoteRefs dst = none)
      (hwhole : helper.git.packRevs localSha [] = .ok whole)
      (huri : fetchPack gateways uri = .ok whole) : Sends helper remoteRefs dst localSha pack [uri]
  | reuse {prev : RefInfo} (hempty : packEmpty pack = true)
      (hlisted : lookupRef remoteRefs dst = some prev) :
      Sends helper remoteRefs dst localSha pack prev.packUris

theorem uploadUris_ok (h : helper.uploadUris pack = .ok cids) :
    ∃ uri, cids = [uri] ∧ fetchPack gateways uri = .ok pack := by
  simp only [uploadUris, bind_eq_ok, pure_eq_ok] at h
  obtain ⟨cid, hcid, rfl⟩ := h
  exact ⟨_, rfl, fetchPack_ipfs.trans (helper.durable hcid)⟩

theorem packLocations_sends (h : helper.packLocations remoteRefs dst localSha pack = .ok cids) :
    helper.Sends remoteRefs dst localSha pack cids := by
  rw [packLocations] at h
  by_cases hempty : packEmpty pack = true
  · rw [if_pos hempty] at h
    cases hlisted : lookupRef remoteRefs dst with
    | none =>
        simp only [hlisted, bind_eq_ok, GitRepo.packObjects] at h
        obtain ⟨whole, hwhole, hupload⟩ := h
        obtain ⟨uri, rfl, huri⟩ := uploadUris_ok hupload
        exact .full hempty hlisted hwhole huri
    | some prev =>
        simp only [hlisted] at h
        by_cases hsome : prev.packUris.length = 0
        · rw [if_pos hsome] at h
          obtain ⟨uri, rfl, huri⟩ := uploadUris_ok h
          refine .upload (by simp [hlisted]) ?_ huri
          simp [reusedUris, hempty, hlisted, List.length_eq_zero_iff.mp hsome]
        · rw [if_neg hsome, pure_eq_ok] at h
          rw [← h]
          exact .reuse hempty hlisted
  · rw [if_neg hempty] at h
    obtain ⟨uri, rfl, huri⟩ := uploadUris_ok h
    exact .upload (fun hcontra => absurd hcontra hempty) (by simp [reusedUris, hempty]) huri

/-- A push deletes its ref, or sends what it packed to the core. -/
theorem pushOne_ok {repoId : Bytes32} {op : CoreOp}
    (h : helper.pushOne repoId remoteRefs spec = .ok op) :
    (spec.src = [] ∧ op = .deleteRef repoId spec.dst) ∨
      (spec.src ≠ [] ∧ ∃ pack cids,
        helper.git.packObjects (helper.git.resolveRef spec.src)
          (excludedTips remoteRefs spec.force) = .ok pack ∧
        helper.Sends remoteRefs spec.dst (helper.git.resolveRef spec.src) pack cids ∧
        op = .updateRef repoId spec.dst (helper.git.resolveRef spec.src) cids
          (expectedSha remoteRefs spec.dst) spec.force) := by
  rw [pushOne] at h
  by_cases hsrc : spec.src = []
  · rw [if_pos hsrc, pure_eq_ok] at h
    exact .inl ⟨hsrc, h.symm⟩
  · rw [if_neg hsrc] at h
    simp only [bind_eq_ok, revertIf_eq_ok, exists_unit, pure_eq_ok] at h
    obtain ⟨-, pack, hpack, cids, hcids, rfl⟩ := h
    exact .inr ⟨hsrc, pack, cids, hpack, packLocations_sends hcids, rfl⟩

/-! ## When the result is fetchable -/

/-- What the pack of a push does without although it is needed: the objects of the pushed history
that an excluded tip reaches, and the bases the pack is stored against. -/
def LeftOut (helper : Helper links gateways) (remoteRefs : List RefInfo) (spec : PushSpec)
    (pack : Pack Bytes) (o : Bytes) : Prop :=
  (∃ tip ∈ helper.git.presentTips (excludedTips remoteRefs spec.force), Reaches links tip o) ∧
    (Reaches links (helper.git.resolveRef spec.src) o ∨ o ∈ pack.bases)

/-- The push makes a full pack, because it has nothing new for a ref it has not listed, or what its
pack leaves out is held by the packs `current` of its ref and those it reuses. -/
def Covered (helper : Helper links gateways) (remoteRefs : List RefInfo) (current : List Bytes)
    (spec : PushSpec) : Prop :=
  ∀ pack, helper.git.packObjects (helper.git.resolveRef spec.src)
      (excludedTips remoteRefs spec.force) = .ok pack →
    (packEmpty pack = true ∧ lookupRef remoteRefs spec.dst = none) ∨
      ∀ o, helper.LeftOut remoteRefs spec pack o →
        Holds (fetchPack gateways) (current ++ reusedUris remoteRefs spec.dst pack) o

/-- A forced push leaves out nothing. -/
theorem LeftOut.unforced {o : Bytes} (h : helper.LeftOut remoteRefs spec pack o) :
    spec.force = false := by
  obtain ⟨⟨tip, htip, -⟩, -⟩ := h
  cases hforce : spec.force with
  | false => rfl
  | true => simp [GitRepo.presentTips, excludedTips, hforce] at htip

/-- A client that has listed no refs leaves out nothing. -/
theorem covered_nil : helper.Covered [] current spec := by
  refine fun pack _ => .inr fun o hleft => ?_
  obtain ⟨⟨tip, htip, -⟩, -⟩ := hleft
  simp [GitRepo.presentTips, excludedTips] at htip

variable {o : Bytes}

/-- What is left out is not in the pack. -/
theorem LeftOut.notMem (h : helper.LeftOut remoteRefs spec pack o)
    (hpack : helper.git.packObjects (helper.git.resolveRef spec.src)
      (excludedTips remoteRefs spec.force) = .ok pack) : o ∉ pack.objects := by
  obtain ⟨⟨tip, htip, hreach⟩, -⟩ := h
  intro hmem
  exact ((helper.git.mem_objects hpack).mp hmem).2 tip htip hreach

/-- The pushed history is in the pack or left out. -/
theorem mem_or_leftOut (hpack : helper.git.packObjects (helper.git.resolveRef spec.src)
      (excludedTips remoteRefs spec.force) = .ok pack)
    (hreach : Reaches links (helper.git.resolveRef spec.src) o) :
    o ∈ pack.objects ∨ helper.LeftOut remoteRefs spec pack o := by
  by_cases htip : ∃ tip ∈ helper.git.presentTips (excludedTips remoteRefs spec.force),
      Reaches links tip o
  · exact .inr ⟨htip, .inl hreach⟩
  · refine .inl ((helper.git.mem_objects hpack).mpr ⟨hreach, fun tip hmem hreached => ?_⟩)
    exact htip ⟨tip, hmem, hreached⟩

/-- The bases of the pack are left out. -/
theorem leftOut_of_base (hpack : helper.git.packObjects (helper.git.resolveRef spec.src)
      (excludedTips remoteRefs spec.force) = .ok pack) (hbase : o ∈ pack.bases) :
    helper.LeftOut remoteRefs spec pack o :=
  ⟨helper.git.bases_reached hpack hbase, .inr hbase⟩

end Helper

section Merging

variable {ε : Type} {resolve : Bytes → Except ε (Pack Bytes)} {missingBase : Bytes → ε}
variable {current cids start yields loaded : List Bytes} {force : Bool} {o : Bytes}

theorem holds_mergedUris (h : Holds resolve (mergedUris current cids force) o) :
    Holds resolve current o ∨ Holds resolve cids o := by
  rw [mergedUris] at h
  split at h
  · exact .inr h
  · exact holds_extendBy.mp h

theorem holds_mergedUris_unforced :
    Holds resolve (mergedUris current cids false) o ↔
      Holds resolve current o ∨ Holds resolve cids o := by
  refine ⟨holds_mergedUris, fun h => ?_⟩
  rw [mergedUris]
  by_cases hnone : current = []
  · rw [if_pos (.inr hnone)]
    refine h.resolve_left ?_
    rw [hnone]
    simp [Holds]
  · rw [if_neg (by simp [hnone])]
    exact holds_extendBy.mpr h

/-- Packs that load on top of a part of what the current ones yield load as their update. A forced
update must load by itself. -/
theorem loadAll_mergedUris (hcurrent : loadAll resolve missingBase [] current = .ok yields)
    (hstart : start ⊆ yields) (hforce : force = true → start = [])
    (hcids : loadAll resolve missingBase start cids = .ok loaded) :
    ∃ out, loadAll resolve missingBase [] (mergedUris current cids force) = .ok out ∧
      loaded ⊆ out := by
  rw [mergedUris]
  split
  · rename_i hreplace
    have hempty : start = [] := by
      rcases hreplace with hforced | rfl
      · exact hforce hforced
      · rw [loadAll_nil.mp hcurrent] at hstart
        exact List.subset_nil.mp hstart
    rw [hempty] at hcids
    exact ⟨loaded, hcids, List.Subset.refl _⟩
  · obtain ⟨out, hout, -, hsub⟩ := loadAll_extendBy hcurrent hstart hcids
    exact ⟨out, hout, hsub⟩

theorem mem_mergedUris {uri : Bytes} (h : uri ∈ cids) : uri ∈ mergedUris current cids force := by
  rw [mergedUris]
  split
  · exact h
  · exact mem_extendBy.mpr (.inr h)

end Merging

namespace Helper

variable {helper : Helper links gateways} {remoteRefs : List RefInfo} {spec : PushSpec}
variable {pack : Pack Bytes} {cids current yields : List Bytes}

section Push

variable (hpack : helper.git.packObjects (helper.git.resolveRef spec.src)
    (excludedTips remoteRefs spec.force) = .ok pack)
  (hcurrent : loadAll (fetchPack gateways) RemoteError.ingest [] current = .ok yields)
include hpack

/-- There is one pack to look at. -/
theorem covered_iff : helper.Covered remoteRefs current spec ↔
    (packEmpty pack = true ∧ lookupRef remoteRefs spec.dst = none) ∨
      ∀ o, helper.LeftOut remoteRefs spec pack o →
        Holds (fetchPack gateways) (current ++ reusedUris remoteRefs spec.dst pack) o := by
  refine ⟨fun h => h pack hpack, fun h other hother => ?_⟩
  obtain rfl : pack = other := Except.ok.inj (hpack.symm.trans hother)
  exact h

include hcurrent

/-- The pack made for the push leaves the ref fetchable exactly when what it leaves out is there. -/
theorem upload_fetchable_iff {uri : Bytes} (huri : fetchPack gateways uri = .ok pack) :
    Fetchable gateways links (helper.git.resolveRef spec.src)
        (mergedUris current [uri] spec.force) ↔
      ∀ o, helper.LeftOut remoteRefs spec pack o → Holds (fetchPack gateways) current o := by
  constructor
  · rintro ⟨out, hload, hall⟩ o hleft
    have hmem : o ∈ out := by
      rcases hleft.2 with hreach | hbase
      · exact hall o hreach
      · exact mem_of_base hload (mem_mergedUris (by simp)) huri hbase
    have hheld := ((mem_loadAll hload).mp hmem).resolve_left List.not_mem_nil
    refine (holds_mergedUris hheld).resolve_right ?_
    rintro ⟨key, hkey, other, hother, hobject⟩
    rw [List.mem_singleton.mp hkey] at hother
    obtain rfl : pack = other := Except.ok.inj (huri.symm.trans hother)
    exact hleft.notMem hpack hobject
  · intro hheld
    -- an update goes on top of the current packs, a forced one on top of nothing
    have hstart : ∀ o, helper.LeftOut remoteRefs spec pack o →
        o ∈ if spec.force then [] else yields := by
      intro o hleft
      rw [hleft.unforced]
      exact (mem_loadAll hcurrent).mpr (.inr (hheld o hleft))
    have hload : loadAll (fetchPack gateways) RemoteError.ingest
        (if spec.force then [] else yields) [uri] =
          .ok (pack.objects ++ if spec.force then [] else yields) :=
      loadAll_singleton.mpr (load_eq_ok.mpr ⟨pack, huri,
        fun base hbase => hstart base (leftOut_of_base hpack hbase), rfl⟩)
    have hforced : spec.force = true → (if spec.force then [] else yields) = [] := by
      intro hforce
      rw [if_pos hforce]
    obtain ⟨out, hout, hsub⟩ := loadAll_mergedUris hcurrent (by split <;> simp) hforced hload
    refine ⟨out, hout, fun o hreach => hsub (List.mem_append.mpr ?_)⟩
    exact (mem_or_leftOut hpack hreach).imp_right (hstart o)

/-- Packs the ref had when it was listed leave it fetchable exactly when they hold what is left
out, together with the current ones. -/
theorem reuse_fetchable_iff {prev : RefInfo} (hempty : pack.objects = [])
    (hprev : Fetchable gateways links prev.commitSha prev.packUris) :
    Fetchable gateways links (helper.git.resolveRef spec.src)
        (mergedUris current prev.packUris spec.force) ↔
      ∀ o, helper.LeftOut remoteRefs spec pack o →
        Holds (fetchPack gateways) (current ++ prev.packUris) o := by
  -- with nothing in the pack, the whole history is left out, so the push is not forced
  have hleft : ∀ {o}, Reaches links (helper.git.resolveRef spec.src) o →
      helper.LeftOut remoteRefs spec pack o := by
    intro o hreach
    refine (mem_or_leftOut hpack hreach).resolve_left ?_
    rw [hempty]
    exact List.not_mem_nil
  have hforce : spec.force = false := (hleft .refl).unforced
  rw [hforce]
  constructor
  · rintro ⟨out, hload, hall⟩ o ⟨-, hreach | hbase⟩
    · have hheld := ((mem_loadAll hload).mp (hall o hreach)).resolve_left List.not_mem_nil
      exact holds_append.mpr (holds_mergedUris hheld)
    · rw [helper.git.bases_of_empty hpack hempty] at hbase
      exact absurd hbase List.not_mem_nil
  · intro hheld
    obtain ⟨loaded, hloaded, -⟩ := hprev
    have hnothing : false = true → ([] : List Bytes) = [] := fun _ => rfl
    obtain ⟨out, hout, -⟩ := loadAll_mergedUris hcurrent (List.nil_subset _) hnothing hloaded
    refine ⟨out, hout, fun o hreach => (mem_loadAll hout).mpr (.inr ?_)⟩
    exact holds_mergedUris_unforced.mpr (holds_append.mp (hheld o (hleft hreach)))

end Push

/-- A full pack makes any ref fetchable. -/
theorem full_fetchable {localSha uri : Bytes} {whole : Pack Bytes} {force : Bool}
    (hcurrent : loadAll (fetchPack gateways) RemoteError.ingest [] current = .ok yields)
    (hwhole : helper.git.packRevs localSha [] = .ok whole)
    (huri : fetchPack gateways uri = .ok whole) :
    Fetchable gateways links localSha (mergedUris current [uri] force) := by
  have hbases : ∀ base ∈ whole.bases, base ∈ ([] : List Bytes) := by
    intro base hbase
    obtain ⟨tip, htip, -⟩ := helper.git.bases_reached hwhole hbase
    exact absurd htip List.not_mem_nil
  obtain ⟨out, hout, hsub⟩ := loadAll_mergedUris hcurrent (List.nil_subset _) (fun _ => rfl)
    (loadAll_singleton.mpr (load_eq_ok.mpr ⟨whole, huri, hbases, rfl⟩))
  refine ⟨out, hout, fun o hreach => hsub (List.mem_append_left _ ?_)⟩
  exact (helper.git.mem_objects hwhole).mpr ⟨hreach, by simp⟩

/-- A push leaves its ref fetchable exactly when it is covered. -/
theorem Sends.fetchable_iff
    (hsends : helper.Sends remoteRefs spec.dst (helper.git.resolveRef spec.src) pack cids)
    (hpack : helper.git.packObjects (helper.git.resolveRef spec.src)
      (excludedTips remoteRefs spec.force) = .ok pack)
    (hcurrent : loadAll (fetchPack gateways) RemoteError.ingest [] current = .ok yields)
    (hlisted : ∀ info ∈ remoteRefs, Fetchable gateways links info.commitSha info.packUris) :
    Fetchable gateways links (helper.git.resolveRef spec.src)
        (mergedUris current cids spec.force) ↔
      helper.Covered remoteRefs current spec := by
  rw [covered_iff hpack]
  cases hsends with
  | upload hnamed hreused huri =>
      rw [upload_fetchable_iff hpack hcurrent huri, hreused, List.append_nil, or_iff_right]
      exact fun hfull => hnamed hfull.1 hfull.2
  | full hempty hunlisted hwhole huri =>
      exact iff_of_true (full_fetchable hcurrent hwhole huri) (.inl ⟨hempty, hunlisted⟩)
  | @reuse prev hempty hfound =>
      have hprev := hlisted prev (List.mem_of_find?_eq_some hfound)
      have hreused : reusedUris remoteRefs spec.dst pack = prev.packUris := by
        simp [reusedUris, hempty, hfound]
      rw [reuse_fetchable_iff hpack hcurrent (packEmpty_iff.mp hempty) hprev, hreused, or_iff_right]
      simp [hfound]

end Helper

end Igit
