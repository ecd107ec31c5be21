import Igit.Library.Sorting
import Igit.Migration.Lineages

/-!
# The order of the records

`snapshotModuleRecords` sorts the fourteen lists of a snapshot with `sort.Slice`, which is not stable.
`Snapshot.SortsTo` says what it may leave. The keys of an accepted snapshot are distinct
(`Snapshot.Passes.keyed`), so that nothing is left open: the records of a snapshot are the same
whatever the order of its lists was, and a fork comes after its parent.
-/

namespace Igit.Migration

open Fallible

/-! ## Comparisons -/

/-- A text in canonical form. -/
def Text.Canonical {α : Type} (text : Text α) : Prop := ∃ value, text = .canonical value

/-- `hashLess` compares the values of canonical hashes. -/
theorem orders_hash : Orders hashLess (Text.valueD (0 : Nat)) Text.Canonical where
  less_iff := fun _ _ => decide_eq_true_iff
  inj := by
    rintro _ _ ⟨a, rfl⟩ ⟨b, rfl⟩ h
    exact congrArg Text.canonical h

/-- `addressLess` compares the values of canonical addresses. -/
theorem orders_address :
    Orders addressLess (fun text => (text.valueD (0 : Address)).toNat) Text.Canonical where
  less_iff := fun _ _ => decide_eq_true_iff
  inj := by
    rintro _ _ ⟨a, rfl⟩ ⟨b, rfl⟩ h
    exact congrArg Text.canonical (BitVec.eq_of_toNat_eq h)

/-- `bytesLess` is the lexicographic order. -/
theorem bytesLess_iff (a b : Bytes) :
    bytesLess a b = true ↔ a.map UInt8.toNat < b.map UInt8.toNat := by
  induction a generalizing b with
  | nil =>
      cases b with
      | nil => simp [bytesLess]
      | cons b bs => simp [bytesLess]
  | cons a as ih =>
      cases b with
      | nil => simp [bytesLess]
      | cons b bs =>
          rw [bytesLess, List.map_cons, List.map_cons, List.cons_lt_cons_iff, ← ih,
            UInt8.toNat_inj]
          by_cases h : a = b
          · subst h
            simp
          · rw [if_neg h, decide_eq_true_iff]
            simp [h, UInt8.lt_iff_toNat_lt]

theorem orders_bytes : Orders bytesLess (List.map UInt8.toNat) fun _ => True where
  less_iff := fun _ _ => bytesLess_iff _ _
  inj := fun _ _ h => List.map_injective_iff.mpr (fun _ _ => UInt8.toNat_inj.mp) h

theorem orders_number : Orders (fun a b : UInt64 => decide (a < b)) UInt64.toNat fun _ => True where
  less_iff := fun _ _ => decide_eq_true_iff.trans UInt64.lt_iff_toNat_lt
  inj := fun _ _ h => UInt64.toNat_inj.mp h

/-- Repositories by a depth, then ID. -/
def repositoryLess (depth : Text Bytes32 → Nat) : SnapshotRepository → SnapshotRepository → Bool :=
  lessThen (fun r => depth r.id) (fun a b => decide (a < b)) fun a b => hashLess a.id b.id

/-- Two depths that agree on two repositories compare them alike. -/
theorem repositoryLess_congr {depth depth' : Text Bytes32 → Nat} {a b : SnapshotRepository}
    (ha : depth a.id = depth' a.id) (hb : depth b.id = depth' b.id) :
    repositoryLess depth a b = repositoryLess depth' a b := by
  show (if depth a.id ≠ depth b.id then decide (depth a.id < depth b.id) else hashLess a.id b.id) =
    if depth' a.id ≠ depth' b.id then decide (depth' a.id < depth' b.id) else hashLess a.id b.id
  rw [ha, hb]

/-- What is not less is no deeper. -/
theorem depth_le_of_repositoryLess {depth : Text Bytes32 → Nat} {a b : SnapshotRepository}
    (h : repositoryLess depth b a = false) : depth a.id ≤ depth b.id := by
  by_contra hlt
  have hne : depth b.id ≠ depth a.id := by omega
  unfold repositoryLess lessThen at h
  rw [if_pos hne, decide_eq_false_iff_not] at h
  exact hlt (Nat.le_of_not_lt h)

/-! ## The lists of a snapshot -/

namespace Snapshot

/-- `depth[id]`, which is zero where the map has no entry. -/
def depth (s : Snapshot) (id : Text Bytes32) : Nat := (depthMap s.repositories id).getD 0

/-- The comparison a list is sorted with. -/
def less (s : Snapshot) : (k : Kind) → k.Item → k.Item → Bool
  | .repositories => repositoryLess s.depth
  | .aliases => lessThen SnapshotAlias.owner addressLess fun a b => bytesLess a.name b.name
  | .refs => lessThen SnapshotRef.repoId hashLess fun a b => bytesLess a.refName b.refName
  | .collaborators => lessThen SnapshotCollaborator.repoId hashLess
      fun a b => addressLess a.account b.account
  | .guardianConfigs => fun a b : SnapshotGuardianConfig => hashLess a.repoId b.repoId
  | .finalStatuses => fun a b : SnapshotFinalStatus => hashLess a.repoId b.repoId
  | .reports => fun a b : SnapshotReport => decide (a.id < b.id)
  | .statusTrails => fun a b : SnapshotStatusTrail => hashLess a.repoId b.repoId
  | .splits => fun a b : SnapshotRevenueSplits => hashLess a.repoId b.repoId
  | .totals => lessThen SnapshotSponsorTotal.repoId hashLess fun a b => bytesLess a.denom b.denom
  | .originalOwners => fun a b : SnapshotOriginalUsername => bytesLess a.name b.name
  | .reservedNames => bytesLess
  | .badges => fun a b : SnapshotBadge => decide (a.id < b.id)
  | .artifacts => lessThen SnapshotRelease.version bytesLess
      fun a b => bytesLess a.platform b.platform

/-- What the sorts of `snapshotModuleRecords` may leave. -/
def SortsTo (s : Snapshot) (sorted : (k : Kind) → List k.Item) : Prop :=
  ∀ k, SortedBy (s.less k) (s.items k) (sorted k)

/-- Another snapshot has the same entries, in any order. -/
def Reordered (s s' : Snapshot) : Prop := ∀ k, (s'.items k).Perm (s.items k)

end Snapshot

/-! ## Distinct keys -/

/-- Only a canonical hash is parsed. -/
theorem canonical_of_parseHash {label : String} {text : Text Bytes32} {hash : Bytes32}
    (h : parseHash label text = .ok hash) : text.Canonical := by
  cases text with
  | canonical value => exact ⟨value, rfl⟩
  | other text => cases h

/-- Only a canonical address passes. -/
theorem canonical_of_canonicalAddress {label : String} {text : Text Address} {address : Address}
    (h : canonicalAddress label text = .ok address) : text.Canonical := by
  cases text with
  | canonical value => exact ⟨value, rfl⟩
  | other text => cases h

/-- Only a canonical digest passes. -/
theorem canonical_of_rawSHA256 {label : String} {text : Text Bytes32} {digest : Bytes32}
    (h : rawSHA256 label text = .ok digest) : text.Canonical := by
  cases text with
  | canonical value => exact ⟨value, rfl⟩
  | other text => cases h

/-- Only a canonical amount passes. -/
theorem canonical_of_positiveDecimal {label : String} {text : Text Nat} {number : Nat}
    (h : positiveDecimal label text = .ok number) : text.Canonical := by
  cases text with
  | canonical value => exact ⟨value, rfl⟩
  | other text => cases h

section Keys

variable {repos : List SnapshotRepository}

/-- A repository that passes has a canonical id and owner, and an id of its own. -/
theorem checkRepository_ok {seen : List SnapshotRepository} {r : SnapshotRepository}
    (h : checkRepository seen r = .ok ()) :
    (r.id.Canonical ∧ r.owner.Canonical) ∧ ∀ other ∈ seen, other.id ≠ r.id := by
  simp only [checkRepository, bind_eq_ok, exists_unit, mapError_eq_ok, revertIf_eq_ok] at h
  obtain ⟨_, hid, _, howner, -, -, -, hnew, -⟩ := h
  exact ⟨⟨canonical_of_parseHash hid, canonical_of_canonicalAddress howner⟩,
    fun other hother heq => hnew ⟨other, hother, heq⟩⟩

/-- Repositories with canonical texts. -/
def CanonicalIds (repos : List SnapshotRepository) : Prop := ∀ r ∈ repos, r.id.Canonical

/-- The id of a known repository is canonical. -/
theorem CanonicalIds.of_known (h : CanonicalIds repos) {id : Text Bytes32}
    (hknown : ¬ ¬ ∃ r ∈ repos, r.id = id) : id.Canonical := by
  obtain ⟨r, hr, rfl⟩ := not_not.mp hknown
  exact h r hr

theorem CanonicalIds.of_repoWithId (h : CanonicalIds repos) {id : Text Bytes32}
    {repo : SnapshotRepository} (hfind : repoWithId repos id = some repo) : id.Canonical := by
  have hid : repo.id = id := by simpa using List.find?_some hfind
  rw [← hid]
  exact h repo (List.mem_of_find?_eq_some hfind)

/-- An alias that passes has canonical texts and a locator of its own. -/
theorem checkAlias_ok (hrepos : CanonicalIds repos) {seen : List SnapshotAlias} {a : SnapshotAlias}
    (h : checkAlias repos seen a = .ok ()) : (a.repoId.Canonical ∧ a.owner.Canonical) ∧
      ∀ other ∈ seen, (other.owner, other.name) ≠ (a.owner, a.name) := by
  simp only [checkAlias, bind_eq_ok, exists_unit, revertIf_eq_ok] at h
  obtain ⟨hknown, _, howner, -, hholder⟩ := h
  refine ⟨⟨hrepos.of_known hknown, canonical_of_canonicalAddress howner⟩,
    fun other hother heq => ?_⟩
  obtain ⟨hsame, hname⟩ := Prod.mk.inj heq
  cases hheld : locatorHolder repos seen a.owner a.name with
  | none =>
      have hfree := (Option.or_eq_none_iff.mp hheld).2
      rw [Option.map_eq_none_iff, List.find?_eq_none] at hfree
      exact hfree other hother (decide_eq_true ⟨hsame, hname⟩)
  | some existing =>
      rw [hheld] at hholder
      dsimp only at hholder
      split at hholder
      · cases hholder
      · cases hholder

/-- A ref that passes has canonical texts and a name of its own. -/
theorem checkRef_ok (hrepos : CanonicalIds repos) {seen : List SnapshotRef} {r : SnapshotRef}
    (h : checkRef repos seen r = .ok ()) : (r.repoId.Canonical ∧ r.updatedBy.Canonical) ∧
      ∀ other ∈ seen, (other.repoId, other.refName) ≠ (r.repoId, r.refName) := by
  simp only [checkRef, bind_eq_ok, exists_unit, revertIf_eq_ok] at h
  obtain ⟨hknown, -, -, -, _, hby, hnew, -⟩ := h
  exact ⟨⟨hrepos.of_known hknown, canonical_of_canonicalAddress hby⟩, fun other hother heq =>
    hnew ⟨other, hother, (Prod.mk.inj heq).1, (Prod.mk.inj heq).2⟩⟩

/-- A collaborator that passes has canonical texts, a role and an account of its own. -/
theorem checkCollaborator_ok (hrepos : CanonicalIds repos) {seen : List SnapshotCollaborator}
    {c : SnapshotCollaborator} (h : checkCollaborator repos seen c = .ok ()) :
    ((c.repoId.Canonical ∧ c.account.Canonical) ∧ ∃ code, roleCode c.role = .ok code) ∧
      ∀ other ∈ seen, (other.repoId, other.account) ≠ (c.repoId, c.account) := by
  unfold checkCollaborator at h
  cases hfind : repoWithId repos c.repoId with
  | none =>
      rw [hfind] at h
      cases h
  | some repo =>
      simp only [hfind, bind_eq_ok, exists_unit, revertIf_eq_ok] at h
      obtain ⟨_, haccount, -, code, hcode, hnew, -⟩ := h
      exact ⟨⟨⟨hrepos.of_repoWithId hfind, canonical_of_canonicalAddress haccount⟩, code, hcode⟩,
        fun other hother heq => hnew ⟨other, hother, (Prod.mk.inj heq).1, (Prod.mk.inj heq).2⟩⟩

/-- Guardians that pass are canonical, and the owner of the repository named them. -/
theorem checkGuardianConfig_ok (hrepos : CanonicalIds repos) {seen : List SnapshotGuardianConfig}
    {g : SnapshotGuardianConfig} (h : checkGuardianConfig repos seen g = .ok ()) :
    (g.repoId.Canonical ∧ (∃ repo ∈ repos, repo.owner = g.configuredBy) ∧
      ∀ guardian ∈ g.guardians, guardian.Canonical) ∧ ∀ other ∈ seen, other.repoId ≠ g.repoId := by
  unfold checkGuardianConfig at h
  cases hfind : repoWithId repos g.repoId with
  | none =>
      rw [hfind] at h
      cases h
  | some repo =>
      simp only [hfind, bind_eq_ok, exists_unit, revertIf_eq_ok, not_not] at h
      obtain ⟨hnew, howner, -, hguardians⟩ := h
      refine ⟨⟨hrepos.of_repoWithId hfind, ⟨repo, List.mem_of_find?_eq_some hfind, howner.symm⟩,
        forall_of_checkAll hguardians fun seen guardian hcheck => ?_⟩,
        fun other hother heq => hnew ⟨other, hother, heq⟩⟩
      simp only [checkGuardian, bind_eq_ok] at hcheck
      obtain ⟨_, haddress, -⟩ := hcheck
      exact canonical_of_canonicalAddress haddress

/-- A final status that passes has a name and a repository of its own. -/
theorem checkFinalStatus_ok (hrepos : CanonicalIds repos) {seen : List SnapshotFinalStatus}
    {r : SnapshotFinalStatus} (h : checkFinalStatus repos seen r = .ok ()) :
    (r.repoId.Canonical ∧ ∃ code, repoStatusCode r.status = .ok code) ∧
      ∀ other ∈ seen, other.repoId ≠ r.repoId := by
  simp only [checkFinalStatus, bind_eq_ok, exists_unit, revertIf_eq_ok] at h
  obtain ⟨hknown, hnew, code, hcode, -⟩ := h
  exact ⟨⟨hrepos.of_known hknown, code, hcode⟩, fun other hother heq => hnew ⟨other, hother, heq⟩⟩

/-- A status trail that passes has entries that pass and a repository of its own. -/
theorem checkStatusTrail_ok {s : Snapshot} (hrepos : CanonicalIds s.repositories)
    {seen : List SnapshotStatusTrail} {r : SnapshotStatusTrail}
    (h : checkStatusTrail s seen r = .ok ()) :
    (r.repoId.Canonical ∧ checkAll (checkStatusEntry s.reports r.repoId) [] r.trail = .ok ()) ∧
      ∀ other ∈ seen, other.repoId ≠ r.repoId := by
  simp only [checkStatusTrail, bind_eq_ok, exists_unit, revertIf_eq_ok] at h
  obtain ⟨hknown, hnew, -, htrail, -⟩ := h
  exact ⟨⟨hrepos.of_known hknown, htrail⟩, fun other hother heq => hnew ⟨other, hother, heq⟩⟩

/-- A split table that passes has canonical texts and a repository of its own. -/
theorem checkSplits_ok (hrepos : CanonicalIds repos) {seen : List SnapshotRevenueSplits}
    {r : SnapshotRevenueSplits} (h : checkSplits repos seen r = .ok ()) :
    (r.repoId.Canonical ∧ ∀ split ∈ r.splits, split.recipient.Canonical) ∧
      ∀ other ∈ seen, other.repoId ≠ r.repoId := by
  unfold checkSplits at h
  cases hfind : repoWithId repos r.repoId with
  | none =>
      rw [hfind] at h
      cases h
  | some repo =>
      simp only [hfind, bind_eq_ok, exists_unit, revertIf_eq_ok] at h
      obtain ⟨hnew, -, hsplits, -⟩ := h
      refine ⟨⟨hrepos.of_repoWithId hfind, forall_of_checkAll hsplits fun seen split hcheck => ?_⟩,
        fun other hother heq => hnew ⟨other, hother, heq⟩⟩
      simp only [checkSplit, bind_eq_ok] at hcheck
      obtain ⟨_, hrecipient, -⟩ := hcheck
      exact canonical_of_canonicalAddress hrecipient

/-- A total that passes has canonical texts and a denomination of its own. -/
theorem checkTotal_ok (hrepos : CanonicalIds repos) {seen : List SnapshotSponsorTotal}
    {r : SnapshotSponsorTotal} (h : checkTotal repos seen r = .ok ()) :
    (r.repoId.Canonical ∧ r.amount.Canonical) ∧
      ∀ other ∈ seen, (other.repoId, other.denom) ≠ (r.repoId, r.denom) := by
  simp only [checkTotal, bind_eq_ok, exists_unit, revertIf_eq_ok] at h
  obtain ⟨hknown, -, _, hamount, hnew⟩ := h
  exact ⟨⟨hrepos.of_known hknown, canonical_of_positiveDecimal hamount⟩, fun other hother heq =>
    hnew ⟨other, hother, (Prod.mk.inj heq).1, (Prod.mk.inj heq).2⟩⟩

/-- The owner of a name that passes is canonical, and the name is new. -/
theorem checkOriginalOwner_ok {seen : List SnapshotOriginalUsername} {r : SnapshotOriginalUsername}
    (h : checkOriginalOwner seen r = .ok ()) :
    r.owner.Canonical ∧ ∀ other ∈ seen, other.name ≠ r.name := by
  simp only [checkOriginalOwner, bind_eq_ok, exists_unit, revertIf_eq_ok] at h
  obtain ⟨-, _, howner, hnew, -⟩ := h
  exact ⟨canonical_of_canonicalAddress howner, fun other hother heq => hnew ⟨other, hother, heq⟩⟩

/-- A badge that passes has canonical texts and a number of its own. -/
theorem checkBadge_ok (hrepos : CanonicalIds repos) {seen : List SnapshotBadge} {b : SnapshotBadge}
    (h : checkBadge repos seen b = .ok ()) :
    (b.repoId.Canonical ∧ b.recipient.Canonical ∧ b.awardedBy.Canonical) ∧
      ∀ other ∈ seen, other.id ≠ b.id := by
  simp only [checkBadge, bind_eq_ok, exists_unit, revertIf_eq_ok] at h
  obtain ⟨-, hnew, hknown, _, hrecipient, _, hby, -⟩ := h
  exact ⟨⟨hrepos.of_known hknown, canonical_of_canonicalAddress hrecipient,
    canonical_of_canonicalAddress hby⟩, fun other hother heq => hnew ⟨other, hother, heq⟩⟩

/-- An artifact that passes has canonical texts and a version or platform of its own. -/
theorem checkRelease_ok {seen : List SnapshotRelease} {r : SnapshotRelease}
    (h : checkRelease seen r = .ok ()) : (r.sha256.Canonical ∧ r.registeredBy.Canonical) ∧
      ∀ other ∈ seen, (other.version, other.platform) ≠ (r.version, r.platform) := by
  simp only [checkRelease, bind_eq_ok, exists_unit, revertIf_eq_ok] at h
  obtain ⟨-, _, hdigest, _, hby, -, hnew⟩ := h
  exact ⟨⟨canonical_of_rawSHA256 hdigest, canonical_of_canonicalAddress hby⟩,
    fun other hother heq => hnew ⟨other, hother, (Prod.mk.inj heq).1, (Prod.mk.inj heq).2⟩⟩

/-- A list whose check wants each key valid and new is sorted by keys that are distinct. -/
theorem keyed_of_checkAll {α κ ρ ε : Type} [LinearOrder ρ] {keyLess : κ → κ → Bool} {rank : κ → ρ}
    {Valid : κ → Prop} {check : List α → α → Except ε Unit} {items : List α} (key : α → κ)
    (orders : Orders keyLess rank Valid) (h : checkAll check [] items = .ok ())
    (hcheck : ∀ seen item, check seen item = .ok () →
      Valid (key item) ∧ ∀ other ∈ seen, key other ≠ key item) :
    Keyed (fun a b => keyLess (key a) (key b)) items :=
  .intro key orders rfl (forall_of_checkAll h fun seen item hitem => (hcheck seen item hitem).1)
    (nodup_of_checkAll h fun seen item hitem => (hcheck seen item hitem).2)

end Keys

/-! ## Accepted snapshots -/

/-- The loops of `validateSnapshot` that go through a list of records. -/
structure Snapshot.Passes (s : Snapshot) : Prop where
  repositories : checkAll checkRepository [] s.repositories = .ok ()
  forks : s.repositories.forM (checkFork s.repositories) = .ok ()
  lineage : checkLineage s.repositories = .ok ()
  aliases : checkAll (checkAlias s.repositories) [] s.aliases = .ok ()
  refs : checkAll (checkRef s.repositories) [] s.refs = .ok ()
  collaborators : checkAll (checkCollaborator s.repositories) [] s.collaborators = .ok ()
  guardianConfigs : checkAll (checkGuardianConfig s.repositories) [] s.guardianConfigs = .ok ()
  finalStatuses : checkAll (checkFinalStatus s.repositories) [] s.finalStatuses = .ok ()
  reports : checkAll (checkReport s.repositories) [] s.reports = .ok ()
  statusTrails : checkAll (checkStatusTrail s) [] s.statusTrails = .ok ()
  splits : checkAll (checkSplits s.repositories) [] s.splits = .ok ()
  totals : checkAll (checkTotal s.repositories) [] s.totals = .ok ()
  originalOwners : checkAll checkOriginalOwner [] s.originalOwners = .ok ()
  reservedNames : checkAll (checkReservedName s.originalOwners) [] s.reservedNames = .ok ()
  badges : checkAll (checkBadge s.repositories) [] s.badges = .ok ()
  releases : checkAll checkRelease [] s.releases = .ok ()

/-- What `validateSnapshot` accepts has passed each of its loops. -/
theorem Snapshot.passes_of_validateSnapshot {blank : Bytes → Bool} {s : Snapshot} {u : Unit}
    (h : validateSnapshot blank s = .ok u) : s.Passes := by
  simp only [validateSnapshot, validateRepositories, bind_eq_ok, exists_unit, revertIf_eq_ok] at h
  obtain ⟨-, -, -, ⟨hrepositories, hforks, hlineage, haliases⟩, hrefs, hcollaborators, hguardians,
    hstatuses, -, hreports, htrails, hsplits, htotals, howners, -, hreserved, -, hbadges, -,
    hreleases, -⟩ := h
  exact ⟨hrepositories, hforks, hlineage, haliases, hrefs, hcollaborators, hguardians, hstatuses,
    hreports, htrails, hsplits, htotals, howners, hreserved, hbadges, hreleases⟩

namespace Snapshot.Passes

variable {s s' : Snapshot}

theorem canonicalIds (h : s.Passes) : CanonicalIds s.repositories :=
  forall_of_checkAll h.repositories fun _ _ hcheck => (checkRepository_ok hcheck).1.1

/-- In a snapshot that passes, the parent of every fork is there. -/
theorem forksKnown (h : s.Passes) : ForksKnown s.repositories where
  ids := nodup_of_checkAll h.repositories fun _ _ hcheck => (checkRepository_ok hcheck).2
  parents := by
    intro r hr hfork
    have hcheck := forM_eq_ok.mp h.forks r hr
    unfold checkFork at hcheck
    simp only [if_neg hfork, bind_eq_ok, exists_unit, revertIf_eq_ok, not_not] at hcheck
    obtain ⟨-, other, hother, heq⟩ := hcheck
    rw [← heq]
    exact List.mem_map_of_mem hother

/-- Every lineage ends. -/
theorem ends (h : s.Passes) : ∀ r ∈ s.repositories, ∃ n, Depth (forkOf s.repositories) r.id n :=
  h.forksKnown.checkLineage_eq_ok.mp h.lineage

/-- The depth of a repository, in the map and as it is counted without one. -/
theorem depth_eq (h : s.Passes) {r : SnapshotRepository} (hr : r ∈ s.repositories) {n : Nat}
    (hdepth : Depth (forkOf s.repositories) r.id n) :
    s.depth r.id = n ∧
      forkDepth s.repositories s.repositories.length r.id = n := by
  have hlt := h.forksKnown.depth_lt (List.mem_map_of_mem hr) hdepth
  refine ⟨?_, forkDepth_eq hdepth (by omega)⟩
  unfold depth
  rw [h.forksKnown.depthMap_eq h.ends hr hdepth]
  rfl

/-- Repositories that pass have ids of their own, so their order is one whatever the depths. -/
theorem keyed_repositories (h : s.Passes) (depth : Text Bytes32 → Nat) :
    Keyed (repositoryLess depth) s.repositories := by
  refine .intro (fun r => (depth r.id, r.id)) (Orders.lt.lex orders_hash) rfl
    (fun r hr => ⟨trivial, h.canonicalIds r hr⟩) ?_
  refine List.Nodup.of_map Prod.snd ?_
  rw [List.map_map]
  exact h.forksKnown.ids

/-- Each list of an accepted snapshot is sorted by keys that are distinct. -/
theorem keyed (h : s.Passes) (k : Kind) : Keyed (s.less k) (s.items k) := by
  have hrepos := h.canonicalIds
  cases k with
  | repositories => exact h.keyed_repositories s.depth
  | aliases =>
      exact keyed_of_checkAll (fun a : SnapshotAlias => (a.owner, a.name))
        (orders_address.lex orders_bytes) h.aliases fun _ _ hcheck =>
          (checkAlias_ok hrepos hcheck).imp_left fun hvalid => ⟨hvalid.2, trivial⟩
  | refs =>
      exact keyed_of_checkAll (fun r : SnapshotRef => (r.repoId, r.refName))
        (orders_hash.lex orders_bytes) h.refs fun _ _ hcheck =>
          (checkRef_ok hrepos hcheck).imp_left fun hvalid => ⟨hvalid.1, trivial⟩
  | collaborators =>
      exact keyed_of_checkAll (fun c : SnapshotCollaborator => (c.repoId, c.account))
        (orders_hash.lex orders_address) h.collaborators fun _ _ hcheck =>
          (checkCollaborator_ok hrepos hcheck).imp_left And.left
  | guardianConfigs =>
      exact keyed_of_checkAll SnapshotGuardianConfig.repoId orders_hash h.guardianConfigs
        fun _ _ hcheck => (checkGuardianConfig_ok hrepos hcheck).imp_left And.left
  | finalStatuses =>
      exact keyed_of_checkAll SnapshotFinalStatus.repoId orders_hash h.finalStatuses
        fun _ _ hcheck => (checkFinalStatus_ok hrepos hcheck).imp_left And.left
  | reports =>
      refine keyed_of_checkAll SnapshotReport.id orders_number h.reports
        fun seen r hcheck => ⟨trivial, fun other hother heq => ?_⟩
      simp only [checkReport, bind_eq_ok, exists_unit, revertIf_eq_ok] at hcheck
      exact hcheck.2.1 ⟨other, hother, heq⟩
  | statusTrails =>
      exact keyed_of_checkAll SnapshotStatusTrail.repoId orders_hash h.statusTrails
        fun _ _ hcheck => (checkStatusTrail_ok hrepos hcheck).imp_left And.left
  | splits =>
      exact keyed_of_checkAll SnapshotRevenueSplits.repoId orders_hash h.splits
        fun _ _ hcheck => (checkSplits_ok hrepos hcheck).imp_left And.left
  | totals =>
      exact keyed_of_checkAll (fun r : SnapshotSponsorTotal => (r.repoId, r.denom))
        (orders_hash.lex orders_bytes) h.totals fun _ _ hcheck =>
          (checkTotal_ok hrepos hcheck).imp_left fun hvalid => ⟨hvalid.1, trivial⟩
  | originalOwners =>
      exact keyed_of_checkAll SnapshotOriginalUsername.name orders_bytes h.originalOwners
        fun _ _ hcheck => (checkOriginalOwner_ok hcheck).imp_left fun _ => trivial
  | reservedNames =>
      refine keyed_of_checkAll id orders_bytes h.reservedNames
        fun seen name hcheck => ⟨trivial, fun other hother heq => ?_⟩
      simp only [checkReservedName, bind_eq_ok, exists_unit, revertIf_eq_ok] at hcheck
      have hsame : other = name := heq
      exact hcheck.2.2 (hsame ▸ hother)
  | badges =>
      exact keyed_of_checkAll SnapshotBadge.id orders_number h.badges
        fun _ _ hcheck => (checkBadge_ok hrepos hcheck).imp_left fun _ => trivial
  | artifacts =>
      exact keyed_of_checkAll (fun r : SnapshotRelease => (r.version, r.platform))
        (orders_bytes.lex orders_bytes) h.releases fun _ _ hcheck =>
          (checkRelease_ok hcheck).imp_left fun _ => ⟨trivial, trivial⟩

/-- The forks of a snapshot do not depend on the order of its repositories. -/
theorem forkOf_reordered (h : s.Passes) (h' : s'.Passes)
    (hperm : s'.repositories.Perm s.repositories) : forkOf s'.repositories = forkOf s.repositories := by
  have hparent : ∀ id, forkParent s'.repositories id = forkParent s.repositories id := by
    intro id
    unfold forkParent
    have hfind : s'.repositories.find? (fun r => decide (r.id = id)) =
        s.repositories.find? fun r => decide (r.id = id) := by
      refine Option.ext fun r => ?_
      rw [find?_key_eq_some h.forksKnown.ids, find?_key_eq_some h'.forksKnown.ids, hperm.mem_iff]
    rw [hfind]
  funext id
  unfold forkOf
  rw [hparent id]

/-- Nor do the comparisons. -/
theorem less_reordered (h : s.Passes) (h' : s'.Passes) (hperm : s.Reordered s') (k : Kind) :
    ∀ a ∈ s.items k, ∀ b ∈ s.items k, s'.less k a b = s.less k a b := by
  cases k with
  | repositories =>
      have hforks := h.forkOf_reordered h' (hperm .repositories)
      have hdepth : ∀ r ∈ s.repositories, s'.depth r.id =
          s.depth r.id := by
        intro r hr
        obtain ⟨n, hn⟩ := h.ends r hr
        rw [(h.depth_eq hr hn).1]
        exact (h'.depth_eq ((hperm .repositories).mem_iff.mpr hr) (hforks.symm ▸ hn)).1
      intro a ha b hb
      have hless : repositoryLess s'.depth a b = repositoryLess s.depth a b :=
        repositoryLess_congr (hdepth a ha) (hdepth b hb)
      exact hless
  | _ => exact fun a _ b _ => rfl

/-- The planner's model leaves one of the lists that the sorts may leave. -/
theorem sortsTo_sorted (h : s.Passes) : s.SortsTo s.sorted := by
  intro k
  cases k with
  | repositories =>
      have hdepth : ∀ r ∈ s.repositories, s.depth r.id =
          forkDepth s.repositories s.repositories.length r.id := by
        intro r hr
        obtain ⟨n, hn⟩ := h.ends r hr
        rw [(h.depth_eq hr hn).1, (h.depth_eq hr hn).2]
      have hsorted : SortedBy (repositoryLess (forkDepth s.repositories s.repositories.length))
          s.repositories (sortRepositories s.repositories) :=
        (h.keyed_repositories _).sortedBy_insertionSort
      have hless : ∀ a ∈ s.repositories, ∀ b ∈ s.repositories,
          repositoryLess (forkDepth s.repositories s.repositories.length) a b =
            repositoryLess s.depth a b := fun a ha b hb =>
        repositoryLess_congr (hdepth a ha).symm (hdepth b hb).symm
      exact hsorted.congr hless
  | _ => exact (h.keyed _).sortedBy_insertionSort

variable {sorted sorted' : (k : Kind) → List k.Item}

/-- The sorts leave the same lists of two snapshots with the same entries. -/
theorem sorted_unique (h : s.Passes) (h' : s'.Passes) (hperm : s.Reordered s')
    (hsorted : s.SortsTo sorted) (hsorted' : s'.SortsTo sorted') (k : Kind) :
    sorted k = sorted' k :=
  (h.keyed k).unique (hperm k) (h.less_reordered h' hperm k) (hsorted k) (hsorted' k)

/-- A fork comes after its parent. -/
theorem parents_first (h : s.Passes) (hsorted : s.SortsTo sorted)
    {before after : List SnapshotRepository} {r : SnapshotRepository}
    (hsplit : sorted .repositories = before ++ r :: after) (hfork : r.forkedFrom ≠ .empty) :
    ∃ p ∈ before, p.id = r.forkedFrom := by
  have hperm : (sorted .repositories).Perm s.repositories := (hsorted .repositories).perm
  have hr : r ∈ s.repositories := by
    refine hperm.mem_iff.mp ?_
    rw [hsplit]
    exact List.mem_append_right _ List.mem_cons_self
  obtain ⟨p, hp, hid⟩ := List.mem_map.mp (h.forksKnown.parents r hr hfork)
  refine ⟨p, ?_, hid⟩
  have hparent : forkOf s.repositories r.id = some p.id := by
    rw [forkOf_eq_some, h.forksKnown.forkParent_eq hr, hid]
    exact ⟨hfork, rfl⟩
  obtain ⟨n, hn⟩ := h.ends p hp
  have hdepths : s.depth p.id < s.depth r.id := by
    rw [(h.depth_eq hp hn).1, (h.depth_eq hr (.child hparent hn)).1]
    omega
  -- the sorted list is ordered by depth first
  have hordered : (sorted .repositories).Pairwise fun a b : SnapshotRepository =>
      repositoryLess s.depth b a = false := (hsorted .repositories).ordered
  have horder : (sorted .repositories).Pairwise fun a b : SnapshotRepository =>
      s.depth a.id ≤ s.depth b.id :=
    hordered.imp fun {a b} hless => depth_le_of_repositoryLess hless
  exact mem_before horder hsplit (hperm.mem_iff.mpr hp) hdepths

end Snapshot.Passes

/-- Two accepted snapshots with the same entries give the same records and keys, with every fork
after its parent, whatever the sorts leave of entries they do not tell apart. -/
theorem module_records_reordered (env : Env) {s s' : Snapshot}
    {sorted sorted' : (k : Kind) → List k.Item} (haccepted : validateSnapshot env.blank s = .ok ())
    (haccepted' : validateSnapshot env.blank s' = .ok ()) (hperm : s.Reordered s')
    (hsorted : s.SortsTo sorted) (hsorted' : s'.SortsTo sorted') :
    (∀ k, (sorted k).map k.toABI = (sorted' k).map k.toABI ∧
      (sorted k).map (k.itemKey env) = (sorted' k).map (k.itemKey env) ∧
      s.values k = (sorted k).map k.toABI ∧
      s.itemKeys env k = (sorted k).map (k.itemKey env)) ∧
    ∀ (before after : List SnapshotRepository) (r : SnapshotRepository),
      sorted .repositories = before ++ r :: after → r.forkedFrom ≠ .empty →
        ∃ p ∈ before, p.id = r.forkedFrom := by
  have hpasses := Snapshot.passes_of_validateSnapshot haccepted
  have hpasses' := Snapshot.passes_of_validateSnapshot haccepted'
  refine ⟨fun k => ?_, fun before after r hsplit hfork =>
    hpasses.parents_first hsorted hsplit hfork⟩
  have hsame := hpasses.sorted_unique hpasses' hperm hsorted hsorted' k
  have hmodel := hpasses.sorted_unique hpasses (fun k => .refl _) hsorted hpasses.sortsTo_sorted k
  rw [Snapshot.values, Snapshot.itemKeys, ← hmodel, hsame]
  exact ⟨rfl, rfl, rfl, rfl⟩

namespace Sample

/-- A snapshot with a fork before its parent. -/
def forkFirst : Snapshot :=
  { Igit.Sample.snapshot with
    repositories := [
      ⟨.canonical 1, .canonical 0xa11ce, ascii "ab", [], ascii "main", .canonical 2, 5, 5⟩,
      ⟨.canonical 2, .canonical 0xa11ce, ascii "cd", [], ascii "main", .empty, 4, 5⟩]
    finalStatuses := [⟨.canonical 1, ascii "frozen"⟩, ⟨.canonical 2, ascii "active"⟩] }

/-- The same snapshot with its lists reversed. -/
def parentFirst : Snapshot :=
  { forkFirst with
    repositories := forkFirst.repositories.reverse
    finalStatuses := forkFirst.finalStatuses.reverse }

theorem forkFirst_accepted : validateSnapshot List.isEmpty forkFirst = .ok () := by decide +kernel

theorem parentFirst_accepted : validateSnapshot List.isEmpty parentFirst = .ok () := by
  decide +kernel

theorem reordered : forkFirst.Reordered parentFirst := by
  intro k
  cases k with
  | repositories => exact List.reverse_perm _
  | finalStatuses => exact List.reverse_perm _
  | _ => exact .refl _

/-- The fork has the smaller id and goes after its parent, in whichever order the two are listed. -/
theorem forks_reordered :
    (forkFirst.sorted .repositories).map SnapshotRepository.id = [.canonical 2, .canonical 1] ∧
    ∀ k, (forkFirst.sorted k).map k.toABI = (parentFirst.sorted k).map k.toABI := by
  have hsorted := (Snapshot.passes_of_validateSnapshot forkFirst_accepted).sortsTo_sorted
  have hsorted' := (Snapshot.passes_of_validateSnapshot parentFirst_accepted).sortsTo_sorted
  refine ⟨by decide +kernel, fun k => ?_⟩
  exact ((module_records_reordered Igit.Sample.codecEnv forkFirst_accepted parentFirst_accepted
    reordered hsorted hsorted').1 k).1

end Sample

end Igit.Migration
