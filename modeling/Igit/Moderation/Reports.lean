import Igit.Bootstrap.Effects
import Igit.Moderation.Course
import Igit.Ownership.Locators

/-!
# The reports of a run

`Moderation.Kept` ties the parallel structures of the moderation module together: every report is
filed with its trail and its commitments, has its own number, and stands once in the list of its
repository, and the status of a repository is the one its status trail ends in. Both ways a report
comes to be, `submitReport` and the import, and both ways it moves, a decision and an appeal, keep
this.
-/

namespace Igit

open Fallible

/-! ## One more entry -/

/-- A report whose trail goes on. -/
theorem Report.Filed.extend {report : Report} {trail : List TrailEntry} {decision appeal : Bytes}
    {status : ReportStatus} {resolution : RepoStatus} {entry : TrailEntry} {decision' appeal' : Bytes}
    (h : report.Filed trail decision appeal)
    (hcourse : Course status resolution (trail ++ [entry]) decision' appeal')
    (hreason : ValidReason entry.reasonHash) :
    ({ report with status := status, resolution := resolution, updatedAt := entry.timestamp
      } : Report).Filed (trail ++ [entry]) decision' appeal' where
  course := hcourse
  submission := (Report.submitted_concat h.course.ne_nil).mpr h.submission
  reasons := by
    intro e he
    cases List.mem_append.mp he with
    | inl hin => exact h.reasons e hin
    | inr hin => rwa [List.mem_singleton.mp hin]
  updated := by simp

namespace Moderation

variable {m m' : Moderation} {id : Nat}

/-- What the module keeps. -/
structure Kept (m : Moderation) : Prop where
  filed : ∀ id, (m.reports id).present = true →
    (m.reports id).Filed (m.trails id) (m.resolutionHashes id) (m.appealHashes id)
  numbered : ∀ id, (m.reports id).present = true →
    (m.reports id).id = id ∧ id ≠ 0 ∧ id < m.nextReportId
  homed : ∀ id, (m.reports id).present = true → (m.reports id).repoId ≠ 0
  blank : ∀ id, (m.reports id).present = false →
    m.trails id = [] ∧ m.resolutionHashes id = [] ∧ m.appealHashes id = []
  listed : ∀ r id, id ∈ m.repoReportIds r ↔
    (m.reports id).present = true ∧ (m.reports id).repoId = r
  once : ∀ r, (m.repoReportIds r).Nodup
  status : ∀ r entry, (m.statusTrails r).getLast? = some entry → m.statuses r = entry.status
  positive : 0 < m.nextReportId

/-- All reports but one are as they were, with their trails and commitments. -/
structure SameElsewhere (m m' : Moderation) (id : Nat) : Prop where
  reports : ∀ other, other ≠ id → m'.reports other = m.reports other
  trails : ∀ other, other ≠ id → m'.trails other = m.trails other
  resolutionHashes : ∀ other, other ≠ id → m'.resolutionHashes other = m.resolutionHashes other
  appealHashes : ∀ other, other ≠ id → m'.appealHashes other = m.appealHashes other

/-- The status trails end in the statuses. -/
abbrev TrailsEnd (m : Moderation) : Prop :=
  ∀ r entry, (m.statusTrails r).getLast? = some entry → m.statuses r = entry.status

/-- Recording a status keeps the trails in step. -/
theorem TrailsEnd.recordStatus (h : m.TrailsEnd) (repoId : Bytes32) (entry : StatusTrailEntry) :
    (m.recordStatus repoId entry).TrailsEnd := by
  intro r last hlast
  by_cases hr : r = repoId
  · subst hr
    simp only [Moderation.recordStatus, Function.update_self, List.getLast?_concat,
      Option.some.injEq] at hlast ⊢
    rw [hlast]
  · simp only [Moderation.recordStatus, Function.update_of_ne hr] at hlast ⊢
    exact h r last hlast

/-- A filed report may be written under a number, if the lists have that number where it belongs and
are otherwise as they were. -/
theorem Kept.write (h : m.Kept) (m' : Moderation) (helse : m.SameElsewhere m' id)
    (hpresent : (m'.reports id).present = true)
    (hnumber : (m'.reports id).id = id ∧ id ≠ 0 ∧ id < m'.nextReportId)
    (hhome : (m'.reports id).repoId ≠ 0)
    (hfiled : (m'.reports id).Filed (m'.trails id) (m'.resolutionHashes id) (m'.appealHashes id))
    (hnext : m.nextReportId ≤ m'.nextReportId)
    (hlisted : ∀ r, id ∈ m'.repoReportIds r ↔ (m'.reports id).repoId = r)
    (hothers : ∀ r other, other ≠ id → (other ∈ m'.repoReportIds r ↔ other ∈ m.repoReportIds r))
    (honce : ∀ r, (m'.repoReportIds r).Nodup) (hstatus : m'.TrailsEnd) : m'.Kept where
  filed := by
    intro other hother
    by_cases hne : other = id
    · rwa [hne]
    · rw [helse.reports other hne] at hother ⊢
      rw [helse.trails other hne, helse.resolutionHashes other hne, helse.appealHashes other hne]
      exact h.filed other hother
  numbered := by
    intro other hother
    by_cases hne : other = id
    · rwa [hne]
    · rw [helse.reports other hne] at hother ⊢
      obtain ⟨hown, hpositive, hless⟩ := h.numbered other hother
      exact ⟨hown, hpositive, hless.trans_le hnext⟩
  homed := by
    intro other hother
    by_cases hne : other = id
    · rwa [hne]
    · rw [helse.reports other hne] at hother ⊢
      exact h.homed other hother
  blank := by
    intro other hother
    by_cases hne : other = id
    · rw [hne, hpresent] at hother
      cases hother
    · rw [helse.reports other hne] at hother
      rw [helse.trails other hne, helse.resolutionHashes other hne, helse.appealHashes other hne]
      exact h.blank other hother
  listed := by
    intro r other
    by_cases hne : other = id
    · rw [hne, hlisted r]
      exact (and_iff_right hpresent).symm
    · rw [hothers r other hne, helse.reports other hne]
      exact h.listed r other
  once := honce
  status := hstatus
  positive := h.positive.trans_le hnext

/-- A report may change as long as it stays filed and keeps its number and its repository. -/
theorem Kept.refile (h : m.Kept) (m' : Moderation) (hpresent : (m.reports id).present = true)
    (helse : m.SameElsewhere m' id) (hpresent' : (m'.reports id).present = true)
    (hid : (m'.reports id).id = (m.reports id).id)
    (hrepo : (m'.reports id).repoId = (m.reports id).repoId)
    (hfiled : (m'.reports id).Filed (m'.trails id) (m'.resolutionHashes id) (m'.appealHashes id))
    (hnext : m'.nextReportId = m.nextReportId) (hlists : m'.repoReportIds = m.repoReportIds)
    (hstatus : m'.TrailsEnd) : m'.Kept := by
  refine h.write m' helse hpresent' ?_ ?_ hfiled hnext.ge (fun r => ?_) (fun r other _ => ?_)
    (hlists ▸ h.once) hstatus
  · rw [hid, hnext]
    exact h.numbered id hpresent
  · rw [hrepo]
    exact h.homed id hpresent
  · rw [hlists, hrepo, h.listed r id]
    exact and_iff_right hpresent
  · rw [hlists]

/-- A report may be added under a number that is not in use. -/
theorem Kept.file (h : m.Kept) (m' : Moderation) {repoId : Bytes32}
    (habsent : (m.reports id).present = false) (hzero : id ≠ 0) (hhome : repoId ≠ 0)
    (helse : m.SameElsewhere m' id) (hpresent : (m'.reports id).present = true)
    (hid : (m'.reports id).id = id) (hrepo : (m'.reports id).repoId = repoId)
    (hfiled : (m'.reports id).Filed (m'.trails id) (m'.resolutionHashes id) (m'.appealHashes id))
    (hnext : m.nextReportId ≤ m'.nextReportId) (hlt : id < m'.nextReportId)
    (hlists : m'.repoReportIds =
      Function.update m.repoReportIds repoId (m.repoReportIds repoId ++ [id]))
    (hstatus : m'.TrailsEnd) : m'.Kept := by
  have hnew : ∀ r, id ∉ m.repoReportIds r := by
    intro r hin
    rw [((h.listed r id).mp hin).1] at habsent
    cases habsent
  have hmem : ∀ r other, other ∈ m'.repoReportIds r ↔
      other ∈ m.repoReportIds r ∨ r = repoId ∧ other = id := by
    intro r other
    rw [hlists]
    by_cases hr : r = repoId
    · rw [hr, Function.update_self, List.mem_append, List.mem_singleton]
      simp
    · rw [Function.update_of_ne hr]
      simp [hr]
  refine h.write m' helse hpresent ⟨hid, hzero, hlt⟩ (by rwa [hrepo]) hfiled hnext (fun r => ?_)
    (fun r other hne => ?_) (fun r => ?_) hstatus
  · rw [hmem, hrepo]
    simp [hnew r, eq_comm]
  · rw [hmem]
    simp [hne]
  · rw [hlists]
    by_cases hr : r = repoId
    · rw [hr, Function.update_self]
      refine List.Nodup.append (h.once repoId) (List.nodup_singleton id) ?_
      rw [List.disjoint_singleton]
      exact hnew repoId
    · rw [Function.update_of_ne hr]
      exact h.once r

/-! ## The functions -/

theorem Kept.recordStatus (h : m.Kept) (repoId : Bytes32) (entry : StatusTrailEntry) :
    (m.recordStatus repoId entry).Kept :=
  { h with status := TrailsEnd.recordStatus h.status repoId entry }

theorem Kept.submitted (h : m.Kept) {repoId : Bytes32} {sender : Address} {reasonHash : Bytes}
    (hhome : repoId ≠ 0) (hreason : ValidReason reasonHash) (now : Nat) :
    (m.submitted repoId sender reasonHash now).Kept := by
  -- the next number is above every number in use
  have habsent : (m.reports m.nextReportId).present = false := by
    by_contra hpresent
    exact Nat.lt_irrefl _ (h.numbered _ (by simpa using hpresent)).2.2
  obtain ⟨htrail, hresolution, happeal⟩ := h.blank _ habsent
  refine h.file (m.submitted repoId sender reasonHash now) habsent
    (Nat.pos_iff_ne_zero.mp h.positive) hhome ⟨?_, ?_, fun _ _ => rfl, fun _ _ => rfl⟩ ?_ ?_ ?_ ?_
    (Nat.le_succ _) (Nat.lt_succ_self _) rfl h.status
  · intro other hne
    exact Function.update_of_ne hne _ _
  · intro other hne
    exact Function.update_of_ne hne _ _
  all_goals simp only [Moderation.submitted, recordReport, Function.update_self]
  rw [htrail, hresolution, happeal]
  refine ⟨.submit rfl rfl, ?_, ?_, rfl⟩
  · intro entry hentry
    cases hentry
    exact ⟨rfl, rfl, rfl⟩
  · intro entry hentry
    rw [List.mem_singleton.mp hentry]
    exact hreason

theorem Kept.decided (h : m.Kept) {next : ReportStatus} {action : TrailAction} {sender : Address}
    {status : RepoStatus} {reasonHash : Bytes} {now : Nat} (hpresent : (m.reports id).present = true)
    (hreason : ValidReason reasonHash)
    (hcourse : ∀ entry : TrailEntry, entry.action = action →
      Course next entry.status (m.trails id ++ [entry]) entry.reasonHash (m.appealHashes id)) :
    (m.decided next action id sender status reasonHash now).Kept := by
  refine h.refile (m.decided next action id sender status reasonHash now) hpresent
    ⟨?_, ?_, ?_, fun _ _ => rfl⟩ ?_ ?_ ?_ ?_ rfl rfl (TrailsEnd.recordStatus h.status _ _)
  · intro other hne
    exact Function.update_of_ne hne _ _
  · intro other hne
    exact Function.update_of_ne hne _ _
  · intro other hne
    exact Function.update_of_ne hne _ _
  all_goals simp only [Moderation.decided, Moderation.recordStatus, recordReport, Function.update_self]
  · exact hpresent
  · exact (h.filed id hpresent).extend (hcourse ⟨action, sender, status, reasonHash, now⟩ rfl) hreason

theorem Kept.appealed (h : m.Kept) {sender : Address} {reasonHash : Bytes} {now : Nat}
    (hpresent : (m.reports id).present = true) (hstatus : (m.reports id).status = .resolved)
    (hreason : ValidReason reasonHash) : (m.appealed id sender reasonHash now).Kept := by
  have hfiled := h.filed id hpresent
  have hcourse := hfiled.course
  rw [hstatus] at hcourse
  refine h.refile (m.appealed id sender reasonHash now) hpresent
    ⟨?_, ?_, fun _ _ => rfl, ?_⟩ ?_ ?_ ?_ ?_ rfl rfl h.status
  · intro other hne
    exact Function.update_of_ne hne _ _
  · intro other hne
    exact Function.update_of_ne hne _ _
  · intro other hne
    exact Function.update_of_ne hne _ _
  all_goals simp only [Moderation.appealed, recordReport, Function.update_self]
  · exact hpresent
  · have hnext : Course .appealed (m.reports id).resolution
        (m.trails id ++ [⟨.appealed, sender, (m.reports id).resolution, reasonHash, now⟩])
        (m.resolutionHashes id) reasonHash := .appeal hcourse rfl rfl
    exact hfiled.extend hnext hreason

theorem Kept.withReport (h : m.Kept) {record : ImportReport} (hformed : record.WellFormed)
    (habsent : (m.reports record.report.id).present = false) : (m.withReport record).Kept := by
  obtain ⟨htrail, -, -⟩ := h.blank _ habsent
  refine h.file (m.withReport record) habsent hformed.id_ne_zero hformed.repoId_ne_zero
    ⟨?_, ?_, ?_, ?_⟩ ?_ ?_ ?_ ?_ ?_ ?_ rfl h.status
  · intro other hne
    exact Function.update_of_ne hne _ _
  · intro other hne
    exact Function.update_of_ne hne _ _
  · intro other hne
    exact Function.update_of_ne hne _ _
  · intro other hne
    exact Function.update_of_ne hne _ _
  all_goals simp only [Moderation.withReport, Function.update_self]
  · exact hformed.present
  · rw [htrail, List.nil_append]
    exact hformed.filed
  · split <;> omega
  · split <;> omega

/-- A status is imported before the trail that ends in it. -/
theorem Kept.withStatus (h : m.Kept) {record : ImportStatus}
    (hempty : m.statusTrails record.repoId = []) : (m.withStatus record).Kept := by
  refine { h with status := ?_ }
  intro r entry hlast
  by_cases hr : r = record.repoId
  · have hnone : (m.statusTrails r).getLast? = some entry := hlast
    rw [hr, hempty] at hnone
    cases hnone
  · simp only [Moderation.withStatus, Function.update_of_ne hr] at hlast ⊢
    exact h.status r entry hlast

theorem Kept.withStatusTrail (h : m.Kept) {record : ImportStatusTrail}
    (hempty : m.statusTrails record.repoId = [])
    (hlast : record.trail.getLast?.map StatusTrailEntry.status = some (m.statuses record.repoId)) :
    (m.withStatusTrail record).Kept := by
  refine { h with status := ?_ }
  intro r entry hentry
  by_cases hr : r = record.repoId
  · subst hr
    simp only [Moderation.withStatusTrail, Function.update_self, hempty, List.nil_append] at hentry ⊢
    rw [hentry] at hlast
    exact (Option.some.inj hlast).symm
  · simp only [Moderation.withStatusTrail, Function.update_of_ne hr] at hentry ⊢
    exact h.status r entry hentry

end Moderation

/-! ## Runs -/

/-- What a run keeps: the moderation module is kept, and before activation only repositories with an
imported status have a status trail. -/
structure Suite.ModerationKept (s : Suite) : Prop where
  kept : s.moderation.Kept
  untrailed : ¬ s.IsActive → ∀ r, s.moderation.importedStatuses r = false →
    s.moderation.statusTrails r = []

/-- Only a bootstrapping suite is asked about imported statuses. -/
theorem Suite.ModerationKept.of_kept {s : Suite} (hactive : s.IsActive) (h : s.moderation.Kept) :
    s.ModerationKept :=
  ⟨h, fun hinactive => absurd hactive hinactive⟩

/-- A record that fits keeps the moderation module. -/
theorem Suite.ModerationKept.stored {keccak : Keccak} {s : Suite} {record : ImportRecord}
    (hinactive : ¬ s.IsActive) (hformed : record.WellFormed) (hfits : s.Fits keccak record)
    (h : s.ModerationKept) : (s.stored keccak record).ModerationKept := by
  cases record with
  | status record =>
      have hempty := h.untrailed hinactive _ hfits.2
      refine ⟨h.kept.withStatus hempty, fun _ r hr => ?_⟩
      by_cases hsame : r = record.repoId
      · rw [hsame]
        exact hempty
      · refine h.untrailed hinactive r ?_
        rwa [show (s.stored keccak (.status record)).moderation.importedStatuses r =
          s.moderation.importedStatuses r from Function.update_of_ne hsame _ _] at hr
  | report record => exact ⟨h.kept.withReport hformed hfits.2, fun _ => h.untrailed hinactive⟩
  | statusTrail record =>
      obtain ⟨-, himported, hempty, -, hlast⟩ := hfits
      refine ⟨h.kept.withStatusTrail (List.eq_nil_of_length_eq_zero hempty) hlast, fun _ r hr => ?_⟩
      have hne : r ≠ record.repoId := by
        intro hsame
        rw [hsame] at hr
        exact absurd (himported.symm.trans hr) (by decide)
      refine (Function.update_of_ne hne _ _).trans ?_
      exact h.untrailed hinactive r hr
  | _ => exact ⟨h.kept, fun _ => h.untrailed hinactive⟩

/-- A call keeps the moderation module. -/
theorem Suite.Effect.kept {d : Deployment} {s s' : Suite} {sender : Address} {now : Nat} {op : Op}
    (h : Effect d s sender now op s') (hnaming : s.core.Naming d) (hkept : s.moderation.Kept) :
    s'.moderation.Kept := by
  cases h with
  | setCommittee => exact { hkept with }
  | setRepositoryStatus => exact hkept.recordStatus _ _
  | submitReport hpresent hreason =>
      exact hkept.submitted (hnaming.id_ne_zero _ hpresent) hreason now
  | resolveReport hpresent hstatus hreason =>
      have hcourse := (hkept.filed _ hpresent).course
      rw [hstatus] at hcourse
      exact hkept.decided hpresent hreason fun entry haction => .resolve hcourse haction
  | appealReport hpresent hstatus hreason => exact hkept.appealed hpresent hstatus hreason
  | resolveAppeal hpresent hstatus hreason =>
      have hcourse := (hkept.filed _ hpresent).course
      rw [hstatus] at hcourse
      exact hkept.decided hpresent hreason fun entry haction => .resolveAppeal hcourse haction
  | _ => exact hkept

/-- Every run keeps the moderation module. -/
theorem Reachable.moderationKept {d : Deployment} {w : World} (h : Reachable d w) :
    w.suite.ModerationKept := by
  refine h.suite_invariant (P := Suite.ModerationKept) ?_ ⟨?_, ?_, ?_, ?_, ?_⟩
  · have habsent : ∀ id, (d.initialSuite.moderation.reports id).present ≠ true := by
      intro id hpresent
      cases hpresent
    have hlists : ∀ r, d.initialSuite.moderation.repoReportIds r = [] := fun _ => rfl
    refine ⟨⟨fun id hid => absurd hid (habsent id), fun id hid => absurd hid (habsent id),
      fun id hid => absurd hid (habsent id), fun _ _ => ⟨rfl, rfl, rfl⟩, fun r id => ?_,
      fun r => ?_, ?_, Nat.one_pos⟩,
      fun _ _ _ => rfl⟩
    · rw [hlists]
      exact ⟨fun hin => absurd hin List.not_mem_nil, fun hid => absurd hid.1 (habsent id)⟩
    · rw [hlists]
      exact List.nodup_nil
    · intro r entry hentry
      cases hentry
  · intro s u hkeep hs
    exact ⟨hs.kept, fun hinactive => hs.untrailed fun hactive => hinactive (hkeep hactive)⟩
  · intro s deadline _ hs
    exact ⟨hs.kept, hs.untrailed⟩
  · intro s record hinactive hformed hfits hs
    exact hs.stored hinactive hformed hfits
  · intro w sender op s' hreach hactive heffect hw
    refine .of_kept ?_ (heffect.kept hreach.naming hw.kept)
    rw [Suite.IsActive, heffect.directory]
    exact hactive
  · intro s e hs
    exact ⟨hs.kept, hs.untrailed⟩

/-- In every reachable state the status of a repository is the one its status trail ends in. Every
report has passed the first actions of the course, as many as its status tells, and its trail ends
in its resolution. Every report has the number it is stored under, below the next one, and stands
once in the list of its repository and in no other. -/
theorem reports_and_statuses_follow_trails {d : Deployment} {w : World} (h : Reachable d w) :
    (∀ r entry, (w.suite.moderation.statusTrails r).getLast? = some entry →
      w.suite.moderation.statuses r = entry.status) ∧
    (∀ id, (w.suite.moderation.reports id).present = true →
      (w.suite.moderation.trails id).map TrailEntry.action =
          [TrailAction.submitted, .resolved, .appealed, .appealResolved].take
            (Suite.expectedTrailLength (w.suite.moderation.reports id).status) ∧
        (w.suite.moderation.trails id).getLast?.map TrailEntry.status =
          some (w.suite.moderation.reports id).resolution) ∧
    (∀ id, (w.suite.moderation.reports id).present = true →
      (w.suite.moderation.reports id).id = id ∧ id < w.suite.moderation.nextReportId ∧
        ∀ r, (w.suite.moderation.repoReportIds r).count id =
          if r = (w.suite.moderation.reports id).repoId then 1 else 0) ∧
    ∀ r id, id ∈ w.suite.moderation.repoReportIds r →
      (w.suite.moderation.reports id).present = true := by
  have hkept := h.moderationKept.kept
  refine ⟨hkept.status, fun id hpresent => ?_, fun id hpresent => ?_, fun r id hin => ?_⟩
  · exact ⟨(hkept.filed id hpresent).course.actions, (hkept.filed id hpresent).course.last⟩
  · obtain ⟨hid, -, hlt⟩ := hkept.numbered id hpresent
    refine ⟨hid, hlt, fun r => ?_⟩
    split
    · rename_i hr
      exact List.count_eq_one_of_mem (hkept.once r) ((hkept.listed r id).mpr ⟨hpresent, hr.symm⟩)
    · rename_i hr
      exact List.count_eq_zero_of_not_mem fun hin => hr ((hkept.listed r id).mp hin).2.symm
  · exact ((hkept.listed r id).mp hin).1

namespace Sample

/-- The account of the committee. -/
def committee : Account deployment := ⟨0xa4, by decide⟩

/-- `bob` reports a repository of `alice`, the committee freezes it, `alice` appeals, and the
committee lifts the freeze. -/
def appealed : World := genesis.run
  [callAfter 1 alice (.core (.createRepository projectName [] [])),
   callAfter 1 bob (.moderation (.submitReport project [0x61])),
   callAfter 1 committee (.moderation (.resolveReport 1 .frozen [0x62])),
   callAfter 1 alice (.moderation (.appealReport 1 [0x63])),
   callAfter 1 committee (.moderation (.resolveAppeal 1 .active [0x64]))]

theorem appealed_reachable : Reachable deployment appealed := genesis_reachable _

/-- The report of `bob` has gone all the way. -/
theorem appealed_reports :
    (appealed.suite.moderation.reports 1).present = true ∧
      (appealed.suite.moderation.reports 1).status = .appealResolved ∧
      (appealed.suite.moderation.trails 1).map TrailEntry.action =
        [.submitted, .resolved, .appealed, .appealResolved] ∧
      (appealed.suite.moderation.repoReportIds project).count 1 = 1 := by
  have hpresent : (appealed.suite.moderation.reports 1).present = true := by decide +kernel
  have hstatus : (appealed.suite.moderation.reports 1).status = .appealResolved := by decide +kernel
  have hrepo : project = (appealed.suite.moderation.reports 1).repoId := by decide +kernel
  obtain ⟨-, hcourses, hnumbers, -⟩ := reports_and_statuses_follow_trails appealed_reachable
  have hcount := (hnumbers 1 hpresent).2.2 project
  rw [if_pos hrepo] at hcount
  have hactions := (hcourses 1 hpresent).1
  rw [hstatus] at hactions
  exact ⟨hpresent, hstatus, hactions, hcount⟩

end Sample

end Igit
