import Igit.Remote.Fetchable

/-!
# Runs of clients

Any number of clients list the refs of one repository and push to it, in any order and from copies
of the refs that may be out of date, while the suite goes about its other business. As long as every
push is covered, each ref of the repository can be fetched on its own at any time.
-/

namespace Igit

open Fallible

variable {d : Deployment} {links : Bytes → List Bytes} {gateways : Gateways} {repoId : Bytes32}

namespace RemoteState

/-- The refs of the repository are the same in both states. -/
def SameRefs (repoId : Bytes32) (s s' : RemoteState) : Prop :=
  s'.world.suite.core.refs repoId = s.world.suite.core.refs repoId ∧
    s'.world.suite.core.refNames repoId = s.world.suite.core.refNames repoId

/-- An event happens. The refs of the repository are changed by pushes alone. -/
def Happens (repoId : Bytes32) (s : RemoteState) (event : RemoteEvent d links gateways)
    (s' : RemoteState) : Prop :=
  s.next repoId event = .ok s' ∧ ∀ move, event = .other move → s.SameRefs repoId s'

end RemoteState

/-- A push deletes its ref, or is covered by the packs its ref has on the chain when it arrives. -/
def RemoteEvent.Safe (repoId : Bytes32) (s : RemoteState) : RemoteEvent d links gateways → Prop
  | .push client helper _ spec => spec.src = [] ∨
      helper.Covered (s.remoteRefs client) (s.world.suite.gitRef d repoId spec.dst).packUris spec
  | .list _ => True
  | .other _ => True

variable (d links gateways repoId) in
/-- Some event leads from `s` to `s'`. -/
def RemoteStep (s s' : RemoteState) : Prop :=
  ∃ event : RemoteEvent d links gateways, s.Happens repoId event s'

variable (d links gateways repoId) in
/-- Some safe event leads from `s` to `s'`. -/
def SafeStep (s s' : RemoteState) : Prop :=
  ∃ event : RemoteEvent d links gateways, event.Safe repoId s ∧ s.Happens repoId event s'

/-- The repository has no refs and no client has listed any. -/
structure RemoteState.Fresh (d : Deployment) (repoId : Bytes32) (s : RemoteState) : Prop where
  reachable : Reachable d s.world
  no_names : s.world.suite.core.refNames repoId = []
  no_refs : ∀ refId, (s.world.suite.core.refs repoId refId).present = false
  unlisted : ∀ client, s.remoteRefs client = []

/-! ## The invariant -/

/-- Every ref on the chain and every ref a client has listed can be fetched on its own, and the list
of names is exact enough for a listing to show existing refs only. -/
structure RemoteState.Sound (d : Deployment) (links : Bytes → List Bytes) (gateways : Gateways)
    (repoId : Bytes32) (s : RemoteState) : Prop where
  reachable : Reachable d s.world
  names_nodup : (s.world.suite.core.refNames repoId).Nodup
  names_present : ∀ name ∈ s.world.suite.core.refNames repoId,
    (s.world.suite.gitRef d repoId name).present = true
  refs : ∀ name, (s.world.suite.gitRef d repoId name).present = true →
    Fetchable gateways links (s.world.suite.gitRef d repoId name).commitSha
      (s.world.suite.gitRef d repoId name).packUris
  listed : ∀ client, ∀ info ∈ s.remoteRefs client,
    Fetchable gateways links info.commitSha info.packUris

namespace RemoteState

variable {s s' : RemoteState}

theorem Fresh.sound (h : s.Fresh d repoId) : s.Sound d links gateways repoId where
  reachable := h.reachable
  names_nodup := by
    rw [h.no_names]
    exact .nil
  names_present name hmem := by
    rw [h.no_names] at hmem
    exact absurd hmem List.not_mem_nil
  refs name hpresent := absurd ((h.no_refs _).symm.trans hpresent) (by decide)
  listed client info hmem := by
    rw [h.unlisted] at hmem
    exact absurd hmem List.not_mem_nil

/-- The packs of a ref load, whether it exists or not. -/
theorem Sound.loads (h : s.Sound d links gateways repoId) (name : Bytes) :
    ∃ yields, loadAll (fetchPack gateways) RemoteError.ingest []
      (s.world.suite.gitRef d repoId name).packUris = .ok yields := by
  cases hpresent : (s.world.suite.gitRef d repoId name).present with
  | true =>
      obtain ⟨yields, hyields, -⟩ := h.refs name hpresent
      exact ⟨yields, hyields⟩
  | false =>
      have hblank : s.world.suite.gitRef d repoId name = default :=
        h.reachable.wholeRefs.blank _ _ hpresent
      rw [hblank]
      exact ⟨[], loadAll_nil.mpr rfl⟩

/-- What a client lists can be fetched. -/
theorem Sound.list (h : s.Sound d links gateways repoId) (client : Nat) :
    Sound d links gateways repoId { s with
      remoteRefs := Function.update s.remoteRefs client (s.world.suite.listRefs d repoId) } := by
  refine { h with listed := fun other info hmem => ?_ }
  by_cases hclient : other = client
  · subst hclient
    simp only [Function.update_self, Suite.listRefs, List.mem_map] at hmem
    obtain ⟨name, hname, rfl⟩ := hmem
    exact h.refs name (h.names_present name hname)
  · simp only [Function.update_of_ne hclient] at hmem
    exact h.listed other info hmem

/-- A move that leaves the refs alone. -/
theorem Sound.sameRefs {w : World} (h : s.Sound d links gateways repoId) (hw : Reachable d w)
    (hsame : s.SameRefs repoId { s with world := w }) :
    Sound d links gateways repoId { s with world := w } := by
  obtain ⟨hrefs, hnames⟩ := hsame
  have hgitRef : ∀ name, w.suite.gitRef d repoId name = s.world.suite.gitRef d repoId name :=
    fun name => congrFun hrefs _
  refine ⟨hw, ?_, fun name hmem => ?_, fun name hpresent => ?_, h.listed⟩
  · rw [hnames]
    exact h.names_nodup
  · rw [hnames] at hmem
    rw [hgitRef]
    exact h.names_present name hmem
  · rw [hgitRef] at hpresent ⊢
    exact h.refs name hpresent

variable {w : World} {msg : Message} {refName commitSha : Bytes} {uris : List Bytes}

/-- A ref that can be fetched is stored. -/
theorem Sound.withRef (h : s.Sound d links gateways repoId) (hw : Reachable d w)
    (hsuite : w.suite = s.world.suite.withRef d msg repoId refName commitSha uris)
    (hfetchable : Fetchable gateways links commitSha uris) :
    Sound d links gateways repoId { s with world := w } := by
  refine ⟨hw, ?_, fun name hmem => ?_, fun name hpresent => ?_, h.listed⟩
  · show (w.suite.core.refNames repoId).Nodup
    rw [hsuite, Suite.refNames_withRef]
    split
    · exact h.names_nodup
    · rename_i habsent
      -- a listed name belongs to an existing ref, so the new name is not among them
      refine List.nodup_append.mpr ⟨h.names_nodup, List.nodup_singleton _, ?_⟩
      rintro name hmem _ hnew rfl
      rw [List.mem_singleton.mp hnew] at hmem
      exact habsent (h.names_present _ hmem)
  · show (w.suite.gitRef d repoId name).present = true
    change name ∈ w.suite.core.refNames repoId at hmem
    rw [hsuite] at hmem ⊢
    by_cases hname : name = refName
    · rw [hname, Suite.gitRef_withRef_self]
    · rw [Suite.gitRef_withRef_ne hname]
      rw [Suite.refNames_withRef] at hmem
      refine h.names_present name ?_
      split at hmem
      · exact hmem
      · exact (List.mem_append.mp hmem).resolve_right fun hnew =>
          hname (List.mem_singleton.mp hnew)
  · change (w.suite.gitRef d repoId name).present = true at hpresent
    show Fetchable gateways links (w.suite.gitRef d repoId name).commitSha
      (w.suite.gitRef d repoId name).packUris
    rw [hsuite] at hpresent ⊢
    by_cases hname : name = refName
    · rw [hname, Suite.gitRef_withRef_self]
      exact hfetchable
    · rw [Suite.gitRef_withRef_ne hname] at hpresent ⊢
      exact h.refs name hpresent

/-- A ref is deleted. -/
theorem Sound.withoutRef (h : s.Sound d links gateways repoId) (hw : Reachable d w)
    (hsuite : w.suite = s.world.suite.withoutRef d msg repoId refName) :
    Sound d links gateways repoId { s with world := w } := by
  have hremoved := Suite.removeRefName_spec d refName h.names_nodup
  refine ⟨hw, ?_, fun name hmem => ?_, fun name hpresent => ?_, h.listed⟩
  · show (w.suite.core.refNames repoId).Nodup
    rw [hsuite, Suite.refNames_withoutRef]
    exact hremoved.1
  · show (w.suite.gitRef d repoId name).present = true
    change name ∈ w.suite.core.refNames repoId at hmem
    rw [hsuite, Suite.refNames_withoutRef] at hmem
    obtain ⟨hlisted, hname⟩ := (hremoved.2 name).mp hmem
    rw [hsuite, Suite.gitRef_withoutRef_ne hname]
    exact h.names_present name hlisted
  · change (w.suite.gitRef d repoId name).present = true at hpresent
    show Fetchable gateways links (w.suite.gitRef d repoId name).commitSha
      (w.suite.gitRef d repoId name).packUris
    rw [hsuite] at hpresent ⊢
    by_cases hname : name = refName
    · rw [hname, Suite.gitRef_withoutRef_self] at hpresent
      cases hpresent
    · rw [Suite.gitRef_withoutRef_ne hname] at hpresent ⊢
      exact h.refs name hpresent

/-! ## Pushes -/

variable {client : Nat} {helper : Helper links gateways} {sender : Account d} {spec : PushSpec}

/-- A successful push deletes its ref, or stores the pushed commit with the merged packs. -/
theorem next_push_ok (h : s.next repoId (.push client helper sender spec) = .ok s') :
    ∃ w, s' = { s with world := w } ∧ Step d s.world w ∧
      ((spec.src = [] ∧ w.suite = s.world.suite.withoutRef d ⟨sender.address, s.world.now⟩ repoId
        spec.dst) ∨
      (spec.src ≠ [] ∧ ∃ pack cids,
        helper.git.packObjects (helper.git.resolveRef spec.src)
          (excludedTips (s.remoteRefs client) spec.force) = .ok pack ∧
        helper.Sends (s.remoteRefs client) spec.dst (helper.git.resolveRef spec.src) pack cids ∧
        w.suite = s.world.suite.withRef d ⟨sender.address, s.world.now⟩ repoId spec.dst
          (helper.git.resolveRef spec.src)
          (mergedUris (s.world.suite.gitRef d repoId spec.dst).packUris cids spec.force))) := by
  simp only [next, bind_eq_ok, mapError_eq_ok, pure_eq_ok] at h
  obtain ⟨op, hop, w, hnext, rfl⟩ := h
  refine ⟨w, rfl, ⟨_, hnext⟩, ?_⟩
  simp only [World.next, Suite.call, bind_eq_ok, pure_eq_ok] at hnext
  obtain ⟨suite, hcall, rfl⟩ := hnext
  rcases Helper.pushOne_ok hop with ⟨hsrc, rfl⟩ | ⟨hsrc, pack, cids, hpack, hsends, rfl⟩
  · exact .inl ⟨hsrc, (Suite.deleteRef_ok hcall).2⟩
  · obtain ⟨-, -, -, uris, hmerge, rfl⟩ := Suite.updateRef_eq_ok.mp hcall
    rw [Suite.mergePackUris_ok hmerge]
    exact .inr ⟨hsrc, pack, cids, hpack, hsends, rfl⟩

/-- In a sound state, a push that does not delete its ref leaves it fetchable exactly when it is
covered. -/
theorem Sound.push_fetchable_iff (h : s.Sound d links gateways repoId) (hsrc : spec.src ≠ [])
    (hnext : s.next repoId (.push client helper sender spec) = .ok s') :
    Fetchable gateways links (s'.world.suite.gitRef d repoId spec.dst).commitSha
        (s'.world.suite.gitRef d repoId spec.dst).packUris ↔
      helper.Covered (s.remoteRefs client) (s.world.suite.gitRef d repoId spec.dst).packUris
        spec := by
  obtain ⟨w, rfl, -, ⟨hdelete, -⟩ | ⟨-, pack, cids, hpack, hsends, hsuite⟩⟩ := next_push_ok hnext
  · exact absurd hdelete hsrc
  · obtain ⟨yields, hyields⟩ := h.loads spec.dst
    simp only [hsuite, Suite.gitRef_withRef_self]
    exact hsends.fetchable_iff hpack hyields (h.listed client)

/-- A safe event keeps the state sound. -/
theorem Sound.step {event : RemoteEvent d links gateways} (h : s.Sound d links gateways repoId)
    (hsafe : event.Safe repoId s) (hstep : s.Happens repoId event s') :
    s'.Sound d links gateways repoId := by
  obtain ⟨hnext, hother⟩ := hstep
  cases event with
  | list client =>
      simp only [next, pure_eq_ok] at hnext
      rw [← hnext]
      exact h.list client
  | other move =>
      have hsame := hother move rfl
      simp only [next, bind_eq_ok, mapError_eq_ok, pure_eq_ok] at hnext
      obtain ⟨w, hmove, rfl⟩ := hnext
      exact h.sameRefs (h.reachable.next hmove) hsame
  | push client helper sender spec =>
      obtain ⟨w, rfl, ⟨move, hmove⟩, ⟨-, hsuite⟩ | ⟨hsrc, pack, cids, hpack, hsends, hsuite⟩⟩ :=
        next_push_ok hnext
      · exact h.withoutRef (h.reachable.next hmove) hsuite
      · obtain ⟨yields, hyields⟩ := h.loads spec.dst
        refine h.withRef (h.reachable.next hmove) hsuite ?_
        exact (hsends.fetchable_iff hpack hyields (h.listed client)).mpr (hsafe.resolve_left hsrc)

/-- Runs of safe events from an empty repository lead to sound states. -/
theorem Fresh.sound_run (h : s.Fresh d repoId)
    (hrun : Relation.ReflTransGen (SafeStep d links gateways repoId) s s') :
    s'.Sound d links gateways repoId := by
  refine reflTransGen_preserves ?_ hrun h.sound
  rintro before after ⟨event, hsafe, hstep⟩ hbefore
  exact hbefore.step hsafe hstep

/-! ## Fetching -/

variable (d) in
/-- The commit a client expects of a wanted ref: the one it has listed, or the one on the chain. -/
def wantedTip (s : RemoteState) (repoId : Bytes32) (client : Nat) (name : Bytes) : Bytes :=
  match lookupRef (s.remoteRefs client) name with
  | some entry => entry.commitSha
  | none => (s.world.suite.gitRef d repoId name).commitSha

/-- The packs of a ref that is listed or exists can be fetched. -/
theorem Sound.wantedUris_ok (h : s.Sound d links gateways repoId) {name : Bytes}
    (hname : lookupRef (s.remoteRefs client) name ≠ none ∨
      (s.world.suite.gitRef d repoId name).present = true) :
    ∃ uris, wantedUris d s.world.suite repoId (s.remoteRefs client) name = .ok uris ∧
      Fetchable gateways links (wantedTip d s repoId client name) uris := by
  rw [wantedUris, wantedTip]
  cases hfound : lookupRef (s.remoteRefs client) name with
  | some entry =>
      exact ⟨entry.packUris, rfl, h.listed client entry (List.mem_of_find?_eq_some hfound)⟩
  | none =>
      have hpresent := hname.resolve_left (fun hlisted => hlisted hfound)
      refine ⟨_, ?_, h.refs name hpresent⟩
      simp only [bind_eq_ok, revertIf_eq_ok, exists_unit, pure_eq_ok, Bool.not_eq_false]
      exact ⟨hpresent, rfl⟩

/-- In a sound state, any refs that are listed or exist can be fetched together into any object
store, and everything they reach is there afterwards. -/
theorem Sound.cmdFetchBatch_ok (h : s.Sound d links gateways repoId) {wanted : List Bytes}
    (hwanted : ∀ name ∈ wanted, lookupRef (s.remoteRefs client) name ≠ none ∨
      (s.world.suite.gitRef d repoId name).present = true) (store : List Bytes) :
    ∃ out, cmdFetchBatch d s.world.suite repoId gateways (s.remoteRefs client) wanted store =
        .ok out ∧
      ∀ name ∈ wanted, ∀ o, Reaches links (wantedTip d s repoId client name) o → o ∈ out := by
  have hrefs := fun name hname => h.wantedUris_ok (hwanted name hname)
  obtain ⟨lists, hlists, hmem⟩ := mapM_ok fun name hname =>
    (hrefs name hname).imp fun _ huris => huris.1
  have hloads : ∀ uris ∈ lists, ∃ out,
      loadAll (fetchPack gateways) RemoteError.ingest [] uris = .ok out := by
    intro uris huris
    obtain ⟨name, hname, hfound⟩ := (hmem uris).mp huris
    obtain ⟨same, hsame, out, hout, -⟩ := hrefs name hname
    exact ⟨out, Except.ok.inj (hsame.symm.trans hfound) ▸ hout⟩
  obtain ⟨out, hout, -, hparts⟩ := loadAll_foldl_extendBy hloads
    (loadAll_nil.mpr (rfl : store = store))
  refine ⟨out, bind_eq_ok.mpr ⟨lists, hlists, hout⟩, fun name hname o hreach => ?_⟩
  obtain ⟨uris, huris, part, hpart, hall⟩ := hrefs name hname
  exact hparts uris ((hmem uris).mpr ⟨name, hname, huris⟩) part hpart (hall o hreach)

end RemoteState

/-- Along every run of safe events from an empty repository, each existing ref can be fetched on its
own: its packs load in order into an empty store and hold everything its commit reaches. A push in
such a run leaves its ref so exactly when it is safe. -/
theorem refs_fetchable_of_safe_pushes {start s : RemoteState} (hfresh : start.Fresh d repoId)
    (hrun : Relation.ReflTransGen (SafeStep d links gateways repoId) start s) :
    (∀ name, (s.world.suite.gitRef d repoId name).present = true →
      Fetchable gateways links (s.world.suite.gitRef d repoId name).commitSha
        (s.world.suite.gitRef d repoId name).packUris) ∧
    ∀ (client : Nat) (helper : Helper links gateways) (sender : Account d) (spec : PushSpec)
      (s' : RemoteState), spec.src ≠ [] →
      s.next repoId (.push client helper sender spec) = .ok s' →
      (Fetchable gateways links (s'.world.suite.gitRef d repoId spec.dst).commitSha
          (s'.world.suite.gitRef d repoId spec.dst).packUris ↔
        (RemoteEvent.push client helper sender spec).Safe repoId s) := by
  have hsound := hfresh.sound_run hrun
  refine ⟨hsound.refs, fun client helper sender spec s' hsrc hnext => ?_⟩
  rw [hsound.push_fetchable_iff hsrc hnext, RemoteEvent.Safe, or_iff_right hsrc]

/-- Along every run of safe events from an empty repository, any refs a client has listed or that
exist can be fetched together into any object store, and everything they reach is there afterwards. -/
theorem fetch_batch_of_safe_pushes {start s : RemoteState} (hfresh : start.Fresh d repoId)
    (hrun : Relation.ReflTransGen (SafeStep d links gateways repoId) start s) {client : Nat}
    {wanted : List Bytes} (hwanted : ∀ name ∈ wanted, lookupRef (s.remoteRefs client) name ≠ none ∨
      (s.world.suite.gitRef d repoId name).present = true) (store : List Bytes) :
    ∃ out, cmdFetchBatch d s.world.suite repoId gateways (s.remoteRefs client) wanted store =
        .ok out ∧
      ∀ name ∈ wanted, ∀ o, Reaches links (s.wantedTip d repoId client name) o → o ∈ out :=
  (hfresh.sound_run hrun).cmdFetchBatch_ok hwanted store

/-- A repository that has not been created has no refs. -/
theorem RemoteState.fresh_of_missing {w : World} (hw : Reachable d w)
    (hmissing : (w.suite.core.repositories repoId).present = false)
    (hnames : w.suite.core.refNames repoId = []) : Fresh d repoId ⟨w, fun _ => []⟩ where
  reachable := hw
  no_names := hnames
  no_refs refId := by
    refine Bool.eq_false_iff.mpr fun hpresent => ?_
    rw [hw.wholeRefs.owned repoId refId hpresent] at hmissing
    cases hmissing
  unlisted _ := rfl

/-- Creating a repository leaves all refs alone. -/
theorem RemoteState.happens_create {s s' : RemoteState} {sender : Account d}
    {name description defaultBranch : Bytes}
    (hnext : s.next repoId (.other (.call sender
      (.core (.createRepository name description defaultBranch))) :
        RemoteEvent d links gateways) = .ok s') :
    s.Happens repoId (.other (.call sender
      (.core (.createRepository name description defaultBranch))) :
        RemoteEvent d links gateways) s' := by
  refine ⟨hnext, fun _ _ => ?_⟩
  simp only [RemoteState.next, World.next, Suite.call, Suite.callCore, bind_eq_ok, mapError_eq_ok,
    pure_eq_ok] at hnext
  obtain ⟨_, ⟨_, ⟨created, hcreated, rfl⟩, rfl⟩, rfl⟩ := hnext
  obtain ⟨branch, -, hset⟩ := Suite.createRepository_effect hcreated
  rw [RemoteState.SameRefs, hset]
  exact ⟨rfl, rfl⟩

namespace Sample

/-! ## Two commits -/

/-- The commit `shaB` has the parent `shaA`. -/
def parents (o : Bytes) : List Bytes := if o = shaB then [shaA] else []

/-- What a commit reaches. -/
def reached (o : Bytes) : List Bytes := if o = shaB then [shaB, shaA] else [o]

theorem reaches_parents {source target : Bytes} :
    Reaches parents source target ↔ target ∈ reached source := by
  by_cases hB : source = shaB
  · have hreached : reached source = [shaB, shaA] := if_pos hB
    have hlink : shaA ∈ parents source := by simp [parents, hB]
    refine reaches_iff_mem (by rw [hreached, hB]; simp) (fun o ho => ?_)
      (fun o ho next hnext => ?_)
    · rw [hreached, List.mem_pair] at ho
      rcases ho with rfl | rfl
      · rw [hB]
      · exact .single hlink
    · -- only `shaB` has a parent
      by_cases hoB : o = shaB
      · rw [parents, if_pos hoB, List.mem_singleton] at hnext
        simp [hreached, hnext]
      · simp [parents, hoB] at hnext
  · have hreached : reached source = [source] := if_neg hB
    refine reaches_iff_mem (by simp [hreached]) (fun o ho => ?_) (fun o ho next hnext => ?_)
    · rw [hreached, List.mem_singleton] at ho
      rw [ho]
    · rw [hreached, List.mem_singleton] at ho
      simp [parents, ho, hB] at hnext

/-- A thin pack, stored against the excluded tips. -/
def thinPack (want : Bytes) (tips : List Bytes) : Pack Bytes :=
  let objects := (reached want).filter fun o => ∀ tip ∈ tips, o ∉ reached tip
  ⟨objects, if objects = [] then [] else tips⟩

/-- A local repository with `head` checked out. -/
def checkout (head : Bytes) : GitRepo parents where
  resolveRef _ := head
  hasObject _ := true
  packRevs want tips := .ok (thinPack want tips)
  mem_objects h := by
    obtain rfl := Except.ok.inj h
    simp [thinPack, reaches_parents]
  bases_reached {want tips pack} h {base} hbase := by
    obtain rfl := Except.ok.inj h
    change base ∈ if (thinPack want tips).objects = [] then [] else tips at hbase
    split at hbase
    · exact absurd hbase List.not_mem_nil
    · exact ⟨base, hbase, .refl⟩
  bases_of_empty h hempty := by
    obtain rfl := Except.ok.inj h
    exact if_pos hempty

/-- The packs the two pushes make. -/
def packA : Pack Bytes := ⟨[shaA], []⟩
def packB : Pack Bytes := ⟨[shaB], [shaA]⟩

/-- A storage network for these two packs. -/
def store : Gateways := fun cid =>
  if cid = [0x61] then .ok packA else if cid = [0x62] then .ok packB
  else .error (.packUnavailable cid)

def network : Network where
  addTemporary pack :=
    if pack = packA then .ok [0x61] else if pack = packB then .ok [0x62] else .error .addTemporary
  firstPeer := some [0x70]
  swarmConnect _ := .ok ()
  replication := some ⟨fun _ => .ok (), fun _ => .ok ()⟩

/-- A client with `head` checked out. -/
def client (head : Bytes) : Helper parents store where
  git := checkout head
  net := network
  durable {pack cid} h := by
    have hadd : network.addTemporary pack = .ok cid := by
      simp only [Network.uploadPack, network, bind_eq_ok, pure_eq_ok] at h ⊢
      obtain ⟨_, hadd, -, -, -, -, -, -, rfl⟩ := h
      exact hadd
    simp only [network] at hadd
    split at hadd
    · rename_i hpack
      rw [← Except.ok.inj hadd, hpack]
      rfl
    · split at hadd
      · rename_i hpack
        rw [← Except.ok.inj hadd, hpack]
        rfl
      · cases hadd

/-! ## A history of pushes -/

/-- The bytes of `"refs/heads/feature"`. -/
def featureRef : Bytes :=
  [0x72, 0x65, 0x66, 0x73, 0x2f, 0x68, 0x65, 0x61, 0x64, 0x73, 0x2f, 0x66, 0x65, 0x61, 0x74, 0x75,
    0x72, 0x65]

/-- The state after an event, or the same state if it fails. -/
def after (s : RemoteState) (event : RemoteEvent deployment parents store) : RemoteState :=
  match s.next project event with
  | .ok s' => s'
  | .error _ => s

theorem next_eq_after {s : RemoteState} {event : RemoteEvent deployment parents store}
    (h : refusal (s.next project event) = none) : s.next project event = .ok (after s event) := by
  rw [after]
  cases hnext : s.next project event with
  | ok s' => rfl
  | error reason =>
      rw [hnext] at h
      cases h

/-- `alice` pushes `head` to `dst`. -/
def pushes (head dst : Bytes) : RemoteEvent deployment parents store :=
  .push 0 (client head) alice ⟨[0x78], dst, false⟩

def creates : RemoteEvent deployment parents store :=
  .other (.call alice (.core (.createRepository projectName [] [])))

/-- Nothing has happened yet. -/
def untouched : World := genesis.run ([] : List (Nat × Tx deployment))

theorem untouched_reachable : Reachable deployment untouched := genesis_reachable _

/-- `alice` creates the repository, pushes `shaA` to the main branch and lists the refs. -/
def remote0 : RemoteState := ⟨untouched, fun _ => []⟩
def remote1 : RemoteState := after remote0 creates
def remote2 : RemoteState := after remote1 (pushes shaA mainRef)
def remote3 : RemoteState := after remote2 (.list 0)

/-- Then `shaB` goes to the main branch, or to a new one. -/
def remoteMain : RemoteState := after remote3 (pushes shaB mainRef)
def remoteFeature : RemoteState := after remote3 (pushes shaB featureRef)

theorem remote0_fresh : remote0.Fresh deployment project :=
  RemoteState.fresh_of_missing untouched_reachable (by decide +kernel) (by decide +kernel)

/-- No event of either history fails. -/
theorem history_succeeds :
    refusal (remote0.next project creates) = none ∧
      refusal (remote1.next project (pushes shaA mainRef)) = none ∧
      refusal (remote2.next project (.list 0 : RemoteEvent deployment parents store)) = none ∧
      refusal (remote3.next project (pushes shaB mainRef)) = none ∧
      refusal (remote3.next project (pushes shaB featureRef)) = none := by
  refine ⟨?_, ?_, ?_, ?_, ?_⟩ <;> decide +kernel

theorem remote1_happens : remote0.Happens project creates remote1 :=
  RemoteState.happens_create (next_eq_after history_succeeds.1)

theorem remote2_happens : remote1.Happens project (pushes shaA mainRef) remote2 :=
  ⟨next_eq_after history_succeeds.2.1, fun _ h => by cases h⟩

theorem remote3_happens :
    remote2.Happens project (.list 0 : RemoteEvent deployment parents store) remote3 :=
  ⟨next_eq_after history_succeeds.2.2.1, fun _ h => by cases h⟩

theorem remoteMain_happens : remote3.Happens project (pushes shaB mainRef) remoteMain :=
  ⟨next_eq_after history_succeeds.2.2.2.1, fun _ h => by cases h⟩

theorem remoteFeature_happens : remote3.Happens project (pushes shaB featureRef) remoteFeature :=
  ⟨next_eq_after history_succeeds.2.2.2.2, fun _ h => by cases h⟩

/-- What the client has listed before each push to the main branch, and what the branch stores. -/
theorem history_listed :
    remote1.remoteRefs 0 = [] ∧
      remote3.remoteRefs 0 = [⟨mainRef, shaA, [packUri 0x61]⟩] ∧
      (remote3.world.suite.gitRef deployment project mainRef).packUris = [packUri 0x61] := by
  refine ⟨?_, ?_, ?_⟩ <;> decide +kernel

/-- The second push to the main branch leaves out `shaA`, which the branch has. -/
theorem pushes_covered : (client shaB).Covered [⟨mainRef, shaA, [packUri 0x61]⟩] [packUri 0x61]
    ⟨[0x78], mainRef, false⟩ := by
  refine fun pack _ => .inr fun o hleft => ?_
  obtain ⟨⟨tip, htip, hreach⟩, -⟩ := hleft
  have hshaA : tip = shaA := by
    simpa [GitRepo.presentTips, excludedTips] using (List.mem_filter.mp htip).1
  rw [hshaA, reaches_parents] at hreach
  have ho : o = shaA := by simpa [reached, show shaA ≠ shaB by decide] using hreach
  exact ⟨packUri 0x61, by simp, packA, rfl, by simp [packA, ho]⟩

theorem remote1_safe : (pushes shaA mainRef).Safe project remote1 := by
  refine .inr ?_
  rw [history_listed.1]
  exact Helper.covered_nil

theorem remote3_safe : (pushes shaB mainRef).Safe project remote3 := by
  refine .inr ?_
  rw [history_listed.2.1, history_listed.2.2]
  exact pushes_covered

theorem remoteMain_run :
    Relation.ReflTransGen (SafeStep deployment parents store project) remote0 remoteMain :=
  .head ⟨creates, trivial, remote1_happens⟩ (.head ⟨_, remote1_safe, remote2_happens⟩
    (.head ⟨.list 0, trivial, remote3_happens⟩ (.single ⟨_, remote3_safe, remoteMain_happens⟩)))

/-- After both pushes, the main branch stands at `shaB` and can be fetched on its own. -/
theorem remoteMain_fetchable :
    (remoteMain.world.suite.gitRef deployment project mainRef).commitSha = shaB ∧
      Fetchable store parents (remoteMain.world.suite.gitRef deployment project mainRef).commitSha
        (remoteMain.world.suite.gitRef deployment project mainRef).packUris := by
  have hpresent : (remoteMain.world.suite.gitRef deployment project mainRef).present = true := by
    decide +kernel
  have hshaB : (remoteMain.world.suite.gitRef deployment project mainRef).commitSha = shaB := by
    decide +kernel
  exact ⟨hshaB, (refs_fetchable_of_safe_pushes remote0_fresh remoteMain_run).1 mainRef hpresent⟩

/-- The main branch can be fetched into a store that has another object. -/
theorem remoteMain_fetched :
    ∃ out, cmdFetchBatch deployment remoteMain.world.suite project store (remoteMain.remoteRefs 1)
        [mainRef] [[0]] = .ok out ∧
      ∀ name ∈ [mainRef], ∀ o,
        Reaches parents (remoteMain.wantedTip deployment project 1 name) o → o ∈ out := by
  have hpresent : (remoteMain.world.suite.gitRef deployment project mainRef).present = true := by
    decide +kernel
  refine fetch_batch_of_safe_pushes remote0_fresh remoteMain_run (fun name hname => .inr ?_) _
  rw [List.mem_singleton.mp hname]
  exact hpresent

theorem remoteFeature_run :
    Relation.ReflTransGen (RemoteStep deployment parents store project) remote0 remoteFeature :=
  .head ⟨_, remote1_happens⟩ (.head ⟨_, remote2_happens⟩
    (.head ⟨_, remote3_happens⟩ (.single ⟨_, remoteFeature_happens⟩)))

/-- A new branch for `shaB`, pushed with the main branch at `shaA` just listed, holds `shaB` alone,
stored against `shaA`. Its pack does not load into an empty store. -/
theorem feature_branch_not_fetchable :
    remote0.Fresh deployment project ∧
      Relation.ReflTransGen (RemoteStep deployment parents store project) remote0 remoteFeature ∧
      (remoteFeature.world.suite.gitRef deployment project featureRef).present = true ∧
      ¬ Fetchable store parents
        (remoteFeature.world.suite.gitRef deployment project featureRef).commitSha
        (remoteFeature.world.suite.gitRef deployment project featureRef).packUris := by
  refine ⟨remote0_fresh, remoteFeature_run, by decide +kernel, ?_⟩
  rintro ⟨out, hload, -⟩
  have hrefused : refusal (loadAll (fetchPack store) RemoteError.ingest []
      (remoteFeature.world.suite.gitRef deployment project featureRef).packUris) =
      some (.ingest (packUri 0x62)) := by
    decide +kernel
  rw [hload] at hrefused
  cases hrefused

end Sample

end Igit
