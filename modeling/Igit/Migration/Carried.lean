import Igit.Migration.Batches
import Igit.Migration.Ordering

/-!
# What a plan carries

A snapshot is a document of texts: hashes and addresses are written out, roles, statuses and actions
have names. `Says` relates an entry of the snapshot to a record of a contract, field by field, by what
the texts and the names stand for, and without the planner's own conversions.

Every entry of a snapshot that `validateSnapshot` accepts becomes a record that it says
(`Snapshot.Passes.says`). So each module reads the entries of its kinds back from a plan, whatever the
batches are (`plan_carries_snapshot`).
-/

namespace Igit.Migration

open Fallible

/-! ## Entries and records -/

/-- The roles by their names. A snapshot lists no account without a role. -/
def roleNames : List (Bytes × Role) :=
  [(ascii "maintainer", .maintainer), (ascii "reader", .reader)]

/-- The statuses of repositories by their names. -/
def repoStatusNames : List (Bytes × RepoStatus) :=
  [(ascii "active", .active), (ascii "frozen", .frozen), (ascii "delisted", .delisted)]

/-- The statuses of reports by their names. -/
def reportStatusNames : List (Bytes × ReportStatus) :=
  [(ascii "open", .opened), (ascii "resolved", .resolved), (ascii "appealed", .appealed),
    (ascii "appeal_resolved", .appealResolved)]

/-- The actions of a trail by their names. -/
def trailActionNames : List (Bytes × TrailAction) :=
  [(ascii "submitted", .submitted), (ascii "resolved", .resolved), (ascii "appealed", .appealed),
    (ascii "appeal_resolved", .appealResolved), (ascii "status_set", .statusSet)]

/-- A repository says what a record of the core says. One that is no fork says the parent zero. -/
structure SnapshotRepository.Says (e : SnapshotRepository) (r : ImportRepository) : Prop where
  id : e.id = .canonical r.id
  owner : e.owner = .canonical r.owner
  name : e.name = r.name
  description : e.description = r.description
  defaultBranch : e.defaultBranch = r.defaultBranch
  forkedFrom : e.forkedFrom = .canonical r.forkedFrom ∨ e.forkedFrom = .empty ∧ r.forkedFrom = 0
  createdAt : e.createdAt.toNat = r.createdAt
  updatedAt : e.updatedAt.toNat = r.updatedAt

/-- An alias says what a record of the core says. -/
structure SnapshotAlias.Says (e : SnapshotAlias) (r : ImportAlias) : Prop where
  repoId : e.repoId = .canonical r.repoId
  owner : e.owner = .canonical r.owner
  name : e.name = r.name

/-- A ref says what a record of the core says. -/
structure SnapshotRef.Says (e : SnapshotRef) (r : ImportRef) : Prop where
  repoId : e.repoId = .canonical r.repoId
  refName : e.refName = r.refName
  commitSha : e.commitSha = r.commitSha
  packUris : e.packUris = r.packUris
  updatedAt : e.updatedAt.toNat = r.updatedAt
  updatedBy : e.updatedBy = .canonical r.updatedBy

/-- A collaborator says what a record of the core says. -/
structure SnapshotCollaborator.Says (e : SnapshotCollaborator) (r : ImportCollaborator) : Prop where
  repoId : e.repoId = .canonical r.repoId
  account : e.account = .canonical r.account
  role : (e.role, r.role) ∈ roleNames

/-- The guardians of a repository say what a record of the recovery module says. -/
structure SnapshotGuardianConfig.Says (e : SnapshotGuardianConfig) (r : ImportGuardianConfig) :
    Prop where
  repoId : e.repoId = .canonical r.repoId
  configuredBy : e.configuredBy = .canonical r.configuredBy
  threshold : e.threshold.toNat = r.threshold
  guardians : e.guardians = r.guardians.map .canonical

/-- A final status says what a record of the moderation module says. -/
structure SnapshotFinalStatus.Says (e : SnapshotFinalStatus) (r : ImportStatus) : Prop where
  repoId : e.repoId = .canonical r.repoId
  status : (e.status, r.status) ∈ repoStatusNames

/-- An entry of the trail of a report says what the one of a record says. -/
structure SnapshotReportTrail.Says (e : SnapshotReportTrail) (r : TrailEntry) : Prop where
  action : (e.action, r.action) ∈ trailActionNames
  actor : e.actor = .canonical r.actor
  status : (e.status, r.status) ∈ repoStatusNames
  reasonHash : e.reasonHash = r.reasonHash
  timestamp : e.timestamp.toNat = r.timestamp

/-- A report says what a record of the moderation module says. -/
structure SnapshotReport.Says (e : SnapshotReport) (r : ImportReport) : Prop where
  id : e.id.toNat = r.report.id
  repoId : e.repoId = .canonical r.report.repoId
  reporter : e.reporter = .canonical r.report.reporter
  status : (e.status, r.report.status) ∈ reportStatusNames
  resolution : (e.resolution, r.report.resolution) ∈ repoStatusNames
  reasonHash : e.reasonHash = r.report.reasonHash
  createdAt : e.createdAt.toNat = r.report.createdAt
  updatedAt : e.updatedAt.toNat = r.report.updatedAt
  present : r.report.present = true
  trail : List.Forall₂ SnapshotReportTrail.Says e.trail r.trail

/-- An entry of a status trail says what the one of a record says. -/
structure SnapshotRepositoryStatusLog.Says (e : SnapshotRepositoryStatusLog) (r : StatusTrailEntry) :
    Prop where
  status : (e.status, r.status) ∈ repoStatusNames
  actor : e.actor = .canonical r.actor
  reasonHash : e.reasonHash = r.reasonHash
  timestamp : e.timestamp.toNat = r.timestamp
  reportId : e.reportId.toNat = r.reportId

/-- A status trail says what a record of the moderation module says. -/
structure SnapshotStatusTrail.Says (e : SnapshotStatusTrail) (r : ImportStatusTrail) : Prop where
  repoId : e.repoId = .canonical r.repoId
  trail : List.Forall₂ SnapshotRepositoryStatusLog.Says e.trail r.trail

/-- A split says what the one of a record says. -/
structure SnapshotSplit.Says (e : SnapshotSplit) (r : Split) : Prop where
  recipient : e.recipient = .canonical r.recipient
  bps : e.bps.toNat = r.bps

/-- A split table says what a record of the economic module says. -/
structure SnapshotRevenueSplits.Says (e : SnapshotRevenueSplits) (r : ImportSplits) : Prop where
  repoId : e.repoId = .canonical r.repoId
  splits : List.Forall₂ SnapshotSplit.Says e.splits r.splits

/-- A sponsored total says what a record of the economic module says. -/
structure SnapshotSponsorTotal.Says (e : SnapshotSponsorTotal) (r : ImportTotal) : Prop where
  repoId : e.repoId = .canonical r.repoId
  denom : e.denom = r.denom
  amount : e.amount = .canonical r.amount

/-- The owner of a name says what a record of the username module says. -/
structure SnapshotOriginalUsername.Says (e : SnapshotOriginalUsername) (r : ImportOriginalOwner) :
    Prop where
  name : e.name = r.name
  owner : e.owner = .canonical r.owner

/-- A badge says what a record of the badge module says. -/
structure SnapshotBadge.Says (e : SnapshotBadge) (r : Badge) : Prop where
  id : e.id.toNat = r.id
  repoId : e.repoId = .canonical r.repoId
  recipient : e.recipient = .canonical r.recipient
  awardedBy : e.awardedBy = .canonical r.awardedBy
  reason : e.reason = r.reason
  awardedAt : e.awardedAt.toNat = r.awardedAt
  present : r.present = true

/-- An artifact says what a record of the release module says. -/
structure SnapshotRelease.Says (e : SnapshotRelease) (r : Artifact) : Prop where
  version : e.version = r.version
  platform : e.platform = r.platform
  sha256 : e.sha256 = .canonical r.sha256
  registeredBy : e.registeredBy = .canonical r.registeredBy
  registeredAt : e.registeredAt.toNat = r.registeredAt
  present : r.present = true

/-- An entry of a kind says what a record says. -/
inductive Kind.Says : (k : Kind) → k.Item → ImportRecord → Prop
  | repository {e : SnapshotRepository} {r} : e.Says r → Says .repositories e (.repository r)
  | repositoryAlias {e : SnapshotAlias} {r} : e.Says r → Says .aliases e (.repositoryAlias r)
  | ref {e : SnapshotRef} {r} : e.Says r → Says .refs e (.ref r)
  | collaborator {e : SnapshotCollaborator} {r} :
      e.Says r → Says .collaborators e (.collaborator r)
  | guardianConfig {e : SnapshotGuardianConfig} {r} :
      e.Says r → Says .guardianConfigs e (.guardianConfig r)
  | status {e : SnapshotFinalStatus} {r} : e.Says r → Says .finalStatuses e (.status r)
  | report {e : SnapshotReport} {r} : e.Says r → Says .reports e (.report r)
  | statusTrail {e : SnapshotStatusTrail} {r} : e.Says r → Says .statusTrails e (.statusTrail r)
  | splits {e : SnapshotRevenueSplits} {r} : e.Says r → Says .splits e (.splits r)
  | total {e : SnapshotSponsorTotal} {r} : e.Says r → Says .totals e (.total r)
  | originalOwner {e : SnapshotOriginalUsername} {r} :
      e.Says r → Says .originalOwners e (.originalOwner r)
  | reservedName {name : Bytes} : Says .reservedNames name (.reservedName name)
  | badge {e : SnapshotBadge} {r} : e.Says r → Says .badges e (.badge r)
  | artifact {e : SnapshotRelease} {r} : e.Says r → Says .artifacts e (.artifact r)

/-! ## Texts and names -/

/-- A canonical text says its value. -/
theorem Text.Canonical.eq {α : Type} {text : Text α} (h : text.Canonical) (default : α) :
    text = .canonical (text.valueD default) := by
  obtain ⟨value, rfl⟩ := h
  rfl

/-- The code of a role is read as the role of that name. -/
theorem named_of_roleCode {text : Bytes} {code : UInt8} (h : roleCode text = .ok code) :
    ∃ role, enumOf roles ((roleCode text).toOption.getD 0) = some role ∧
      (text, role) ∈ roleNames := by
  rw [h]
  unfold roleCode at h
  split_ifs at h with hname hname
  all_goals
    cases h
    exact ⟨_, rfl, by simp [roleNames, hname]⟩

/-- The code of a repository's status is read as the status of that name. -/
theorem named_of_repoStatusCode {text : Bytes} {code : UInt8} (h : repoStatusCode text = .ok code) :
    ∃ status, enumOf repoStatuses ((repoStatusCode text).toOption.getD 0) = some status ∧
      (text, status) ∈ repoStatusNames := by
  rw [h]
  unfold repoStatusCode at h
  split_ifs at h with hname hname hname
  all_goals
    cases h
    exact ⟨_, rfl, by simp [repoStatusNames, hname]⟩

/-- The code of a report's status is read as the status of that name. -/
theorem named_of_reportStatusCode {text : Bytes} {code : UInt8}
    (h : reportStatusCode text = .ok code) :
    ∃ status, enumOf reportStatuses ((reportStatusCode text).toOption.getD 0) = some status ∧
      (text, status) ∈ reportStatusNames := by
  rw [h]
  unfold reportStatusCode at h
  split_ifs at h with hname hname hname hname
  all_goals
    cases h
    exact ⟨_, rfl, by simp [reportStatusNames, hname]⟩

/-- The code of an action is read as the action of that name. -/
theorem named_of_trailActionCode {text : Bytes} {code : UInt8} (h : trailActionCode text = .ok code) :
    ∃ action, enumOf trailActions ((trailActionCode text).toOption.getD 0) = some action ∧
      (text, action) ∈ trailActionNames := by
  rw [h]
  unfold trailActionCode at h
  split_ifs at h with hname hname hname hname hname
  all_goals
    cases h
    exact ⟨_, rfl, by simp [trailActionNames, hname]⟩

/-! ## Reports and trails -/

/-- An entry of the trail of a report becomes one that it says. -/
theorem says_of_checkReportEntry {report : SnapshotReport} {seen : List SnapshotReportTrail}
    {e : SnapshotReportTrail} (h : checkReportEntry report seen e = .ok ()) :
    ∃ r, e.toABI.toImport = some r ∧ e.Says r := by
  simp only [checkReportEntry, bind_eq_ok, exists_unit, revertIf_eq_ok] at h
  obtain ⟨_, haction, -, _, hactor, _, hstatus, -⟩ := h
  obtain ⟨action, haction, hacts⟩ := named_of_trailActionCode haction
  obtain ⟨status, hstatus, hnamed⟩ := named_of_repoStatusCode hstatus
  refine ⟨⟨action, e.actor.valueD 0, status, e.reasonHash, e.timestamp.toNat⟩, ?_, hacts,
    (canonical_of_canonicalAddress hactor).eq 0, hnamed, rfl, rfl⟩
  simp [SnapshotReportTrail.toABI, ModerationReportTrailABI.toImport, haction, hstatus]

/-- A report that passes becomes a record that it says. -/
theorem says_of_checkReport {repos : List SnapshotRepository} (hrepos : CanonicalIds repos)
    {seen : List SnapshotReport} {e : SnapshotReport} (h : checkReport repos seen e = .ok ()) :
    ∃ r, e.toABI.toImport = some r ∧ e.Says r := by
  simp only [checkReport, bind_eq_ok, exists_unit, revertIf_eq_ok] at h
  obtain ⟨-, -, hknown, _, hreporter, _, hstatus, _, hresolution, -, -, -, htrail, -⟩ := h
  obtain ⟨status, hstatus, hnamed⟩ := named_of_reportStatusCode hstatus
  obtain ⟨resolution, hresolution, hresolved⟩ := named_of_repoStatusCode hresolution
  obtain ⟨trail, htrail, hsaid⟩ := exists_mapM
    (forall_of_checkAll htrail fun _ _ hentry => says_of_checkReportEntry hentry)
  refine ⟨⟨⟨e.id.toNat, e.repoId.valueD 0, e.reporter.valueD 0, status, resolution, e.reasonHash,
      e.createdAt.toNat, e.updatedAt.toNat, true⟩, trail⟩, ?_, rfl, (hrepos.of_known hknown).eq 0,
    (canonical_of_canonicalAddress hreporter).eq 0, hnamed, hresolved, rfl, rfl, rfl, rfl, hsaid⟩
  simp [SnapshotReport.toABI, ModerationReportABI.toImport, hstatus, hresolution, List.mapM_map,
    Function.comp_def, htrail]

/-- An entry of a status trail becomes one that it says. -/
theorem says_of_checkStatusEntry {reports : List SnapshotReport} {repoId : Text Bytes32}
    {seen : List SnapshotRepositoryStatusLog} {e : SnapshotRepositoryStatusLog}
    (h : checkStatusEntry reports repoId seen e = .ok ()) :
    ∃ r, e.toABI.toImport = some r ∧ e.Says r := by
  simp only [checkStatusEntry, bind_eq_ok, exists_unit, revertIf_eq_ok] at h
  obtain ⟨_, hstatus, _, hactor, -⟩ := h
  obtain ⟨status, hstatus, hnamed⟩ := named_of_repoStatusCode hstatus
  refine ⟨⟨status, e.actor.valueD 0, e.reasonHash, e.timestamp.toNat, e.reportId.toNat⟩, ?_, hnamed,
    (canonical_of_canonicalAddress hactor).eq 0, rfl, rfl, rfl⟩
  simp [SnapshotRepositoryStatusLog.toABI, ModerationStatusLogABI.toImport, hstatus]

/-! ## What the modules read -/

/-- Every entry of an accepted snapshot becomes a record that it says. -/
theorem Snapshot.Passes.says {s : Snapshot} (h : s.Passes) (k : Kind) :
    ∀ e ∈ s.items k, ∃ record, k.toImport (k.toABI e) = some record ∧ k.Says e record := by
  have hrepos := h.canonicalIds
  have howners : ∀ r ∈ s.repositories, r.owner.Canonical :=
    forall_of_checkAll h.repositories fun _ _ hcheck => (checkRepository_ok hcheck).1.2
  cases k with
  | repositories =>
      refine fun (e : SnapshotRepository) he => ⟨_, rfl, .repository
        ⟨(hrepos e he).eq 0, (howners e he).eq 0, rfl, rfl, rfl, ?_, rfl, rfl⟩⟩
      -- the fork parent is never parsed by the checks: it is the id of a checked repository
      by_cases hempty : e.forkedFrom = .empty
      · exact .inr ⟨hempty, congrArg (Text.valueD 0) hempty⟩
      · obtain ⟨parent, hparent, hid⟩ := List.mem_map.mp (h.forksKnown.parents e he hempty)
        have hcanonical := hrepos parent hparent
        rw [hid] at hcanonical
        exact .inl (hcanonical.eq 0)
  | aliases =>
      refine forall_of_checkAll h.aliases fun seen e hcheck => ?_
      obtain ⟨hrepo, howner⟩ := (checkAlias_ok hrepos hcheck).1
      exact ⟨_, rfl, .repositoryAlias ⟨hrepo.eq 0, howner.eq 0, rfl⟩⟩
  | refs =>
      refine forall_of_checkAll h.refs fun seen e hcheck => ?_
      obtain ⟨hrepo, hby⟩ := (checkRef_ok hrepos hcheck).1
      exact ⟨_, rfl, .ref ⟨hrepo.eq 0, rfl, rfl, rfl, rfl, hby.eq 0⟩⟩
  | collaborators =>
      refine forall_of_checkAll h.collaborators fun seen e hcheck => ?_
      obtain ⟨⟨hrepo, haccount⟩, _, hcode⟩ := (checkCollaborator_ok hrepos hcheck).1
      obtain ⟨role, hrole, hnamed⟩ := named_of_roleCode hcode
      refine ⟨.collaborator ⟨e.repoId.valueD 0, e.account.valueD 0, role⟩, ?_,
        .collaborator ⟨hrepo.eq 0, haccount.eq 0, hnamed⟩⟩
      simp [Kind.toImport, Kind.toABI, SnapshotCollaborator.toABI, CoreCollaboratorABI.toImport, hrole]
  | guardianConfigs =>
      refine forall_of_checkAll h.guardianConfigs fun seen e hcheck => ?_
      obtain ⟨hrepo, ⟨repo, hmem, howner⟩, hguardians⟩ := (checkGuardianConfig_ok hrepos hcheck).1
      -- nor is this owner: it is compared with the repository's
      have hconfigured := howners repo hmem
      rw [howner] at hconfigured
      refine ⟨_, rfl, .guardianConfig ⟨hrepo.eq 0, hconfigured.eq 0, rfl, ?_⟩⟩
      show e.guardians = (e.guardians.map (Text.valueD 0)).map .canonical
      rw [List.map_map]
      exact (List.map_id _).symm.trans
        (List.map_congr_left fun guardian hguardian => (hguardians guardian hguardian).eq 0)
  | finalStatuses =>
      refine forall_of_checkAll h.finalStatuses fun seen e hcheck => ?_
      obtain ⟨hrepo, _, hcode⟩ := (checkFinalStatus_ok hrepos hcheck).1
      obtain ⟨status, hstatus, hnamed⟩ := named_of_repoStatusCode hcode
      refine ⟨.status ⟨e.repoId.valueD 0, status⟩, ?_, .status ⟨hrepo.eq 0, hnamed⟩⟩
      simp [Kind.toImport, Kind.toABI, SnapshotFinalStatus.toABI, ModerationStatusABI.toImport, hstatus]
  | reports =>
      refine forall_of_checkAll h.reports fun seen e hcheck => ?_
      obtain ⟨r, hr, hsaid⟩ := says_of_checkReport hrepos hcheck
      exact ⟨.report r, congrArg (Option.map ImportRecord.report) hr, .report hsaid⟩
  | statusTrails =>
      refine forall_of_checkAll h.statusTrails fun seen e hcheck => ?_
      obtain ⟨hrepo, htrail⟩ := (checkStatusTrail_ok hrepos hcheck).1
      obtain ⟨trail, htrail, hsaid⟩ := exists_mapM
        (forall_of_checkAll htrail fun _ _ hentry => says_of_checkStatusEntry hentry)
      refine ⟨.statusTrail ⟨e.repoId.valueD 0, trail⟩, ?_, .statusTrail ⟨hrepo.eq 0, hsaid⟩⟩
      simp [Kind.toImport, Kind.toABI, SnapshotStatusTrail.toABI, ModerationStatusTrailABI.toImport,
        List.mapM_map, Function.comp_def, htrail]
  | splits =>
      refine forall_of_checkAll h.splits fun seen e hcheck => ?_
      obtain ⟨hrepo, hsplits⟩ := (checkSplits_ok hrepos hcheck).1
      refine ⟨_, rfl, .splits ⟨hrepo.eq 0, ?_⟩⟩
      simp only [Kind.toABI, SnapshotRevenueSplits.toABI, EconomicSplitsABI.toImport, List.map_map,
        List.forall₂_map_right_iff, List.forall₂_same]
      exact fun split hsplit => ⟨(hsplits split hsplit).eq 0, rfl⟩
  | totals =>
      refine forall_of_checkAll h.totals fun seen e hcheck => ?_
      obtain ⟨hrepo, hamount⟩ := (checkTotal_ok hrepos hcheck).1
      exact ⟨_, rfl, .total ⟨hrepo.eq 0, rfl, hamount.eq 0⟩⟩
  | originalOwners =>
      refine forall_of_checkAll h.originalOwners fun seen e hcheck => ?_
      exact ⟨_, rfl, .originalOwner ⟨rfl, (checkOriginalOwner_ok hcheck).1.eq 0⟩⟩
  | reservedNames => exact fun e _ => ⟨_, rfl, .reservedName⟩
  | badges =>
      refine forall_of_checkAll h.badges fun seen e hcheck => ?_
      obtain ⟨hrepo, hrecipient, hby⟩ := (checkBadge_ok hrepos hcheck).1
      exact ⟨_, rfl, .badge ⟨rfl, hrepo.eq 0, hrecipient.eq 0, hby.eq 0, rfl, rfl, rfl⟩⟩
  | artifacts =>
      refine forall_of_checkAll h.releases fun seen e hcheck => ?_
      obtain ⟨hdigest, hby⟩ := (checkRelease_ok hcheck).1
      exact ⟨_, rfl, .artifact ⟨rfl, rfl, hdigest.eq 0, hby.eq 0, rfl, rfl⟩⟩

/-- The records of an accepted snapshot, said by its entries in the planner's order. -/
theorem Snapshot.Passes.records {s : Snapshot} (h : s.Passes) : ∃ records : Kind → List ImportRecord,
    (∀ k, List.Forall₂ k.Says (s.sorted k) (records k)) ∧
      ∀ kinds, s.imports kinds = .ok (kinds.flatMap records) := by
  have hkind : ∀ k, ∃ records, (s.values k).mapM k.toImport = some records ∧
      List.Forall₂ k.Says (s.sorted k) records := by
    intro k
    rw [Snapshot.values, List.mapM_map]
    exact exists_mapM fun e he => h.says k e ((h.sortsTo_sorted k).perm.mem_iff.mp he)
  choose records hread hsaid using hkind
  refine ⟨records, hsaid, fun kinds => ?_⟩
  have hkinds : (kinds.mapM fun k => decoded ((s.values k).mapM k.toImport)) =
      .ok (kinds.map records) :=
    mapM_eq_map_iff.mpr fun k _ => by rw [hread k]; rfl
  rw [Snapshot.imports, hkinds, List.flatMap_def]
  rfl

/-- From the batches of a plan each of the seven modules reads its records, in the order of its kinds.
These are the records that the entries of the snapshot say, each entry once and in the order in which
the planner sorts them. -/
theorem plan_carries_snapshot {env : Env} {abi : AbiDecode} {s : Snapshot}
    (hfaithful : env.Faithful abi) (hback : env.ReadsBack s) {raw : Bytes} {options : BuildOptions}
    {plan : Plan} (hdecode : env.decodeSnapshot raw = some s)
    (h : buildPlan env raw options = .ok plan) : ∃ records : Kind → List ImportRecord,
    (∀ k, (s.sorted k).Perm (s.items k) ∧ List.Forall₂ k.Says (s.sorted k) (records k)) ∧
      List.Forall₂ (fun m module => module.name = moduleName m ∧
        readBatches abi m module.batches = .ok ((kindsOf m).flatMap records))
        requiredModules plan.modules := by
  rw [buildPlan, bind_eq_ok] at h
  obtain ⟨-, -, h⟩ := h
  simp only [hdecode, bind_eq_ok, exists_unit, revertIf_eq_ok, mapError_eq_ok] at h
  obtain ⟨hvalid, -, _, -, _, -, -, hsize, modules, hmodules, -, hplan⟩ := h
  cases hplan
  have hpasses := Snapshot.passes_of_validateSnapshot hvalid
  obtain ⟨records, hsaid, himports⟩ := hpasses.records
  refine ⟨records, fun k => ⟨(hpasses.sortsTo_sorted k).perm, hsaid k⟩, ?_⟩
  refine (mapM_eq_ok_iff.mp hmodules).imp fun m module hmodule => ?_
  obtain ⟨hname, hread⟩ := buildModule_reads hfaithful hback (by omega) hmodule
  exact ⟨hname, hread.trans (himports _)⟩

namespace Sample

/-- The sample planner reads the records of the sample snapshot back. -/
theorem codecEnv_readsBack : Igit.Sample.codecEnv.ReadsBack Igit.Sample.snapshot := by
  intro k piece hne hpiece
  have hlength : (Igit.Sample.snapshot.values k).length ≤ 1 := by cases k <;> decide +kernel
  obtain rfl := hpiece.sublist.eq_of_length_le (hlength.trans (List.length_pos_iff.mpr hne))
  cases k with
  | repositories | finalStatuses => rfl
  | _ => exact absurd rfl hne

/-- The sample plan is read back. -/
theorem plan_read_back : ∃ records : Kind → List ImportRecord,
    (∀ k, (Igit.Sample.snapshot.sorted k).Perm (Igit.Sample.snapshot.items k) ∧
      List.Forall₂ k.Says (Igit.Sample.snapshot.sorted k) (records k)) ∧
      List.Forall₂ (fun m module => module.name = moduleName m ∧
        readBatches Igit.Sample.importing.abi m module.batches = .ok ((kindsOf m).flatMap records))
        requiredModules Igit.Sample.plan.modules :=
  plan_carries_snapshot Igit.Sample.codecEnv_faithful codecEnv_readsBack (if_pos rfl)
    Igit.Sample.buildPlan_eq

end Sample

end Igit.Migration
