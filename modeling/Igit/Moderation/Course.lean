import Igit.Specs.Moderation

/-!
# The course of a report

A report is submitted, decided, appealed and decided again. `Course` has one constructor for each of
these live transitions and says which trail and which commitments a report in a given status has.
`_storeImportedReport` describes the same trails by lengths, positions and a scan.
`ImportReport.wellFormed_iff` says that both describe one language: a report with its trail passes
the importer exactly when live transitions could have made it, at times that do not decrease.
-/

namespace Igit

open Fallible

/-- The trails of a report by its status and resolution, with the hashes of the last decision and of
the appeal. -/
inductive Course : ReportStatus → RepoStatus → List TrailEntry → Bytes → Bytes → Prop where
  | submit {entry : TrailEntry} (haction : entry.action = .submitted)
      (hstatus : entry.status = .active) : Course .opened .active [entry] [] []
  | resolve {resolution : RepoStatus} {trail : List TrailEntry} {decision appeal : Bytes}
      {entry : TrailEntry} (h : Course .opened resolution trail decision appeal)
      (haction : entry.action = .resolved) :
      Course .resolved entry.status (trail ++ [entry]) entry.reasonHash appeal
  | appeal {resolution : RepoStatus} {trail : List TrailEntry} {decision appeal : Bytes}
      {entry : TrailEntry} (h : Course .resolved resolution trail decision appeal)
      (haction : entry.action = .appealed) (hstatus : entry.status = resolution) :
      Course .appealed resolution (trail ++ [entry]) decision entry.reasonHash
  | resolveAppeal {resolution : RepoStatus} {trail : List TrailEntry} {decision appeal : Bytes}
      {entry : TrailEntry} (h : Course .appealed resolution trail decision appeal)
      (haction : entry.action = .appealResolved) :
      Course .appealResolved entry.status (trail ++ [entry]) entry.reasonHash appeal

/-- The actions of a report that has gone all the way. -/
def fullCourse : List TrailAction := [.submitted, .resolved, .appealed, .appealResolved]

namespace Course

variable {status : ReportStatus} {resolution : RepoStatus} {trail : List TrailEntry}
variable {decision appeal : Bytes}

/-- The actions of a trail are the first ones of the full course, as many as the status tells. -/
theorem actions (h : Course status resolution trail decision appeal) :
    trail.map TrailEntry.action = fullCourse.take (Suite.expectedTrailLength status) := by
  induction h with
  | submit haction => simp [haction, fullCourse, Suite.expectedTrailLength]
  | resolve _ haction ih => simp [ih, haction, fullCourse, Suite.expectedTrailLength]
  | appeal _ haction _ ih => simp [ih, haction, fullCourse, Suite.expectedTrailLength]
  | resolveAppeal _ haction ih => simp [ih, haction, fullCourse, Suite.expectedTrailLength]

theorem length (h : Course status resolution trail decision appeal) :
    trail.length = Suite.expectedTrailLength status := by
  have hactions := congrArg List.length h.actions
  rw [List.length_map, List.length_take] at hactions
  cases status <;> exact hactions

theorem ne_nil (h : Course status resolution trail decision appeal) : trail ≠ [] := by
  cases h <;> simp

/-- The last entry shows the resolution. -/
theorem last (h : Course status resolution trail decision appeal) :
    trail.getLast?.map TrailEntry.status = some resolution := by
  cases h with
  | submit _ hstatus => simp [hstatus]
  | resolve => simp
  | appeal _ _ hstatus => simp [hstatus]
  | resolveAppeal => simp

/-- An open report is not decided. -/
theorem opened (h : Course status resolution trail decision appeal) (hopen : status = .opened) :
    resolution = .active := by
  cases h with
  | submit => rfl
  | _ => cases hopen

/-- The appeal shows the decision it is against. -/
theorem appealed_same (h : Course status resolution trail decision appeal)
    (hstatus : status = .appealResolved) : statusAt trail 2 = statusAt trail 1 := by
  cases h with
  | resolveAppeal h =>
      cases h with
      | appeal h _ hsame =>
          cases h with
          | resolve h =>
              cases h with
              | submit => simp [statusAt, hsame]
  | _ => cases hstatus

/-- The first decision stands until a second one. -/
theorem decided_same (h : Course status resolution trail decision appeal)
    (hnot : status ≠ .appealResolved) (hopen : status ≠ .opened) :
    statusAt trail 1 = some resolution := by
  cases h with
  | submit => exact absurd rfl hopen
  | resolve h =>
      cases h with
      | submit => rfl
  | appeal h =>
      cases h with
      | resolve h =>
          cases h with
          | submit => rfl
  | resolveAppeal => exact absurd rfl hnot

/-- What the importer's scan of one more entry finds. -/
theorem scanned_concat (trail : List TrailEntry) (entry : TrailEntry) :
    scanned (trail ++ [entry]) = (scanned trail).advance entry := by
  rw [scanned, List.foldl_append]
  rfl

/-- The importer's scan finds the hashes of the last decision and of the appeal. -/
theorem scanned_hashes (h : Course status resolution trail decision appeal) :
    (scanned trail).resolutionHash = decision ∧ (scanned trail).appealHash = appeal := by
  induction h with
  | submit haction => simp [scanned, Suite.TrailScan.advance, haction]
  | resolve _ haction ih => simp [scanned_concat, Suite.TrailScan.advance, haction, ih.2]
  | appeal _ haction _ ih => simp [scanned_concat, Suite.TrailScan.advance, haction, ih.1]
  | resolveAppeal _ haction ih => simp [scanned_concat, Suite.TrailScan.advance, haction, ih.2]

end Course

/-- The scan counts the entries. -/
theorem scanned_index (trail : List TrailEntry) : (scanned trail).index = trail.length := by
  induction trail using List.reverseRecOn with
  | nil => rfl
  | append_singleton trail entry ih =>
      rw [Course.scanned_concat, List.length_append]
      show (scanned trail).index + 1 = trail.length + 1
      rw [ih]

/-- The scan keeps the time of the last entry. -/
theorem scanned_previousTimestamp (trail : List TrailEntry) :
    (scanned trail).previousTimestamp = (trail.getLast?.map TrailEntry.timestamp).getD 0 := by
  cases hlast : trail.getLast? with
  | none =>
      rw [List.getLast?_eq_none_iff.mp hlast]
      rfl
  | some entry =>
      obtain ⟨front, rfl⟩ := List.getLast?_eq_some_iff.mp hlast
      rw [Course.scanned_concat]
      rfl

/-- The times of a trail do not decrease. -/
def Chronological (trail : List TrailEntry) : Prop :=
  trail.Pairwise fun entry later => entry.timestamp ≤ later.timestamp

/-- Every entry of a trail has an actor and a time. -/
def Attributed (trail : List TrailEntry) : Prop :=
  ∀ entry ∈ trail, entry.actor ≠ 0 ∧ entry.timestamp ≠ 0

/-- The first entry of a trail is the submission of the report. -/
def Report.Submitted (report : Report) (trail : List TrailEntry) : Prop :=
  ∀ entry, trail.head? = some entry → entry.actor = report.reporter ∧
    entry.timestamp = report.createdAt ∧ entry.reasonHash = report.reasonHash

/-- One more entry at a time that is not before the others. -/
theorem chronological_concat {trail : List TrailEntry} {entry : TrailEntry} :
    Chronological (trail ++ [entry]) ↔
      Chronological trail ∧ ∀ earlier ∈ trail, earlier.timestamp ≤ entry.timestamp := by
  simp [Chronological, List.pairwise_append]

/-- A later entry does not change what the first one is. -/
theorem Report.submitted_concat {report : Report} {trail : List TrailEntry} {entry : TrailEntry}
    (hne : trail ≠ []) : report.Submitted (trail ++ [entry]) ↔ report.Submitted trail := by
  rw [Report.Submitted, Report.Submitted, List.head?_append_of_ne_nil _ hne]

/-! ## The importer reads courses -/

/-- What the importer asks of every entry apart from the action. -/
structure Report.Presents (report : Report) (trail : List TrailEntry) : Prop where
  submission : report.Submitted trail
  reasons : ∀ entry ∈ trail, ValidReason entry.reasonHash
  attributed : Attributed trail
  ordered : Chronological trail

/-- The importer's loop passes a trail. -/
abbrev Report.Scans (report : Report) (trail : List TrailEntry) : Prop :=
  Along report.Accepts Suite.TrailScan.advance ⟨0, [], [], 0⟩ trail

variable {report : Report} {trail : List TrailEntry} {entry : TrailEntry}

/-- A trail without its last entry. -/
theorem Report.Presents.front (h : report.Presents (trail ++ [entry])) (hne : trail ≠ []) :
    report.Presents trail where
  submission := (Report.submitted_concat hne).mp h.submission
  reasons := fun e he => h.reasons e (List.mem_append_left _ he)
  attributed := fun e he => h.attributed e (List.mem_append_left _ he)
  ordered := (chronological_concat.mp h.ordered).1

/-- The loop passes one more entry when its action is the one due. -/
theorem Report.Presents.scans_concat (h : report.Presents (trail ++ [entry])) (hne : trail ≠ [])
    (haction : entry.action = Suite.expectedAction trail.length) (hscans : report.Scans trail) :
    report.Scans (trail ++ [entry]) := by
  have hin : entry ∈ trail ++ [entry] := List.mem_append_right _ (List.mem_singleton_self entry)
  obtain ⟨hactor, htimestamp⟩ := h.attributed entry hin
  refine along_append.mpr ⟨hscans, ⟨hactor, htimestamp, ?_, ?_, h.reasons entry hin, ?_, ?_⟩, trivial⟩
  · show (scanned trail).previousTimestamp ≤ entry.timestamp
    rw [scanned_previousTimestamp]
    cases hlast : trail.getLast? with
    | none => exact absurd (List.getLast?_eq_none_iff.mp hlast) hne
    | some earlier =>
        exact (chronological_concat.mp h.ordered).2 earlier (List.mem_of_getLast? hlast)
  · rw [haction, Suite.expectedAction.eq_def]
    split <;> decide
  · show entry.action = Suite.expectedAction (scanned trail).index
    rw [scanned_index, haction]
  · intro hzero
    have hindex : (scanned trail).index = 0 := hzero
    rw [scanned_index] at hindex
    exact absurd (List.eq_nil_of_length_eq_zero hindex) hne

/-- The loop passes every course. -/
theorem Course.scans {status : ReportStatus} {resolution : RepoStatus} {decision appeal : Bytes}
    (h : Course status resolution trail decision appeal) (hpresents : report.Presents trail) :
    report.Scans trail := by
  induction h with
  | @submit entry haction hstatus =>
      have hin : entry ∈ [entry] := List.mem_singleton_self entry
      obtain ⟨hactor, htimestamp⟩ := hpresents.attributed entry hin
      obtain ⟨hreporter, hcreated, hreason⟩ := hpresents.submission entry rfl
      refine ⟨⟨hactor, htimestamp, Nat.zero_le _, ?_, hpresents.reasons entry hin, haction,
        fun _ => ⟨haction, hreporter, hstatus, hcreated, hreason⟩⟩, trivial⟩
      rw [haction]
      decide
  | resolve h haction ih =>
      refine hpresents.scans_concat h.ne_nil ?_ (ih (hpresents.front h.ne_nil))
      rw [haction, h.length]
      rfl
  | appeal h haction _ ih =>
      refine hpresents.scans_concat h.ne_nil ?_ (ih (hpresents.front h.ne_nil))
      rw [haction, h.length]
      rfl
  | resolveAppeal h haction ih =>
      refine hpresents.scans_concat h.ne_nil ?_ (ih (hpresents.front h.ne_nil))
      rw [haction, h.length]
      rfl

/-- A trail the loop passes presents its report. -/
theorem Report.presents_of_scans (h : report.Scans trail) : report.Presents trail := by
  induction trail using List.reverseRecOn with
  | nil =>
      refine ⟨?_, ?_, ?_, List.Pairwise.nil⟩
      · intro entry hhead
        cases hhead
      · exact List.forall_mem_nil _
      · exact List.forall_mem_nil _
  | append_singleton trail entry ih =>
      obtain ⟨hscans, hentry, -⟩ := along_append.mp h
      have hfront := ih hscans
      have hprevious : (scanned trail).previousTimestamp ≤ entry.timestamp := hentry.ordered
      have hall : ∀ {P : TrailEntry → Prop}, (∀ e ∈ trail, P e) → P entry →
          ∀ e ∈ trail ++ [entry], P e := by
        intro P htrail hlast e he
        cases List.mem_append.mp he with
        | inl hin => exact htrail e hin
        | inr hin => rwa [List.mem_singleton.mp hin]
      refine ⟨?_, hall hfront.reasons hentry.reason_valid,
        hall hfront.attributed ⟨hentry.actor_ne_zero, hentry.timestamp_ne_zero⟩,
        chronological_concat.mpr ⟨hfront.ordered, ?_⟩⟩
      · rcases List.eq_nil_or_concat trail with rfl | ⟨front, last, rfl⟩
        · intro first hfirst
          cases hfirst
          obtain ⟨-, hreporter, -, hcreated, hreason⟩ := hentry.submission rfl
          exact ⟨hreporter, hcreated, hreason⟩
        · exact (Report.submitted_concat (by simp)).mpr hfront.submission
      · -- the last entry so far is the latest
        intro earlier hearlier
        rcases List.eq_nil_or_concat trail with rfl | ⟨front, last, rfl⟩
        · cases hearlier
        rw [List.concat_eq_append] at hearlier hprevious hfront
        rw [scanned_previousTimestamp, List.getLast?_concat] at hprevious
        cases List.mem_append.mp hearlier with
        | inl hin => exact ((chronological_concat.mp hfront.ordered).2 earlier hin).trans hprevious
        | inr hin => rwa [List.mem_singleton.mp hin]

/-! ## Filed reports -/

/-- A report with the trail and the commitments that live transitions give it. -/
structure Report.Filed (report : Report) (trail : List TrailEntry) (decision appeal : Bytes) :
    Prop where
  course : Course report.status report.resolution trail decision appeal
  submission : report.Submitted trail
  reasons : ∀ entry ∈ trail, ValidReason entry.reasonHash
  updated : trail.getLast?.map TrailEntry.timestamp = some report.updatedAt

namespace ImportReport

variable {record : ImportReport}

/-- The trail of a report the importer accepts is a course. -/
theorem WellFormed.course (h : record.WellFormed) :
    Course record.report.status record.report.resolution record.trail
      (scanned record.trail).resolutionHash (scanned record.trail).appealHash := by
  suffices ∃ decision appeal, Course record.report.status record.report.resolution record.trail
      decision appeal by
    obtain ⟨decision, appeal, hcourse⟩ := this
    obtain ⟨hdecision, happeal⟩ := hcourse.scanned_hashes
    rw [hdecision, happeal]
    exact hcourse
  have hlength := h.trail_length
  have hscans := h.trail
  have hlast := h.last
  have hdecision := h.decision
  have happeal := h.appeal
  have hopened := h.opened
  revert hlength hscans hlast hdecision happeal hopened
  generalize record.report.status = status
  generalize record.report.resolution = resolution
  generalize record.trail = trail
  intro hlength hscans hlast hdecision happeal hopened
  cases status with
  | opened =>
      obtain ⟨e, rfl⟩ := List.length_eq_one_iff.mp hlength
      obtain ⟨hfirst, -⟩ := hscans
      obtain ⟨hsubmitted, -, hactive, -⟩ := hfirst.submission rfl
      rw [hopened rfl]
      exact ⟨_, _, .submit hsubmitted hactive⟩
  | resolved =>
      obtain ⟨e, f, rfl⟩ := List.length_eq_two.mp hlength
      obtain ⟨hfirst, hsecond, -⟩ := hscans
      obtain ⟨hsubmitted, -, hactive, -⟩ := hfirst.submission rfl
      cases hlast
      exact ⟨_, _, .resolve (.submit hsubmitted hactive) hsecond.action⟩
  | appealed =>
      obtain ⟨e, f, g, rfl⟩ := List.length_eq_three.mp hlength
      obtain ⟨hfirst, hsecond, hthird, -⟩ := hscans
      obtain ⟨hsubmitted, -, hactive, -⟩ := hfirst.submission rfl
      have hresolved : f.status = resolution :=
        Option.some.inj (hdecision (by decide) (by decide))
      have hsame : g.status = resolution := Option.some.inj hlast
      rw [← hresolved] at hsame ⊢
      exact ⟨_, _, .appeal (.resolve (.submit hsubmitted hactive) hsecond.action) hthird.action hsame⟩
  | appealResolved =>
      obtain ⟨e, rest, rfl⟩ := List.exists_cons_of_length_eq_add_one hlength
      obtain ⟨f, g, k, rfl⟩ := List.length_eq_three.mp (Nat.succ.inj hlength)
      obtain ⟨hfirst, hsecond, hthird, hfourth, -⟩ := hscans
      obtain ⟨hsubmitted, -, hactive, -⟩ := hfirst.submission rfl
      have hsame : g.status = f.status := Option.some.inj (happeal rfl)
      cases hlast
      exact ⟨_, _, .resolveAppeal (.appeal (.resolve (.submit hsubmitted hactive) hsecond.action)
        hthird.action hsame) hfourth.action⟩

/-- What the importer accepts is filed. -/
theorem WellFormed.filed (h : record.WellFormed) :
    record.report.Filed record.trail (scanned record.trail).resolutionHash
      (scanned record.trail).appealHash where
  course := h.course
  submission := (Report.presents_of_scans h.trail).submission
  reasons := (Report.presents_of_scans h.trail).reasons
  updated := by
    have hne := h.course.ne_nil
    rw [h.updatedAt, scanned_previousTimestamp]
    cases hlast : record.trail.getLast? with
    | none => exact absurd (List.getLast?_eq_none_iff.mp hlast) hne
    | some entry => rfl

/-- The importer accepts exactly the reports that live transitions could have made, at times that do
not decrease. -/
theorem wellFormed_iff {decision appeal : Bytes} :
    record.WellFormed ∧ (scanned record.trail).resolutionHash = decision ∧
        (scanned record.trail).appealHash = appeal ↔
      (record.report.id ≠ 0 ∧ record.report.id < uint64Max ∧ record.report.present = true ∧
        record.report.repoId ≠ 0) ∧ record.report.Filed record.trail decision appeal ∧
        Attributed record.trail ∧ Chronological record.trail := by
  constructor
  · rintro ⟨h, rfl, rfl⟩
    have hpresents := Report.presents_of_scans h.trail
    exact ⟨⟨h.id_ne_zero, h.id_lt, h.present, h.repoId_ne_zero⟩, h.filed, hpresents.attributed,
      hpresents.ordered⟩
  · rintro ⟨⟨hid, hlt, hpresent, hrepo⟩, hfiled, hattributed, hordered⟩
    have hpresents : record.report.Presents record.trail :=
      ⟨hfiled.submission, hfiled.reasons, hattributed, hordered⟩
    have hcourse := hfiled.course
    -- the submission and the last entry bound the times of the report
    obtain ⟨first, rest, htrail⟩ := List.exists_cons_of_ne_nil hcourse.ne_nil
    have hhead : record.trail.head? = some first := by rw [htrail]; rfl
    have hin : first ∈ record.trail := by rw [htrail]; exact List.mem_cons_self
    obtain ⟨hreporter, hcreated, hreason⟩ := hfiled.submission first hhead
    obtain ⟨last, hlast, hupdated⟩ := Option.map_eq_some_iff.mp hfiled.updated
    have hle : first.timestamp ≤ last.timestamp := by
      have hmem := List.mem_of_getLast? hlast
      rw [Chronological, htrail, List.pairwise_cons] at hordered
      rw [htrail] at hmem
      cases List.mem_cons.mp hmem with
      | inl hsame => rw [hsame]
      | inr hlater => exact hordered.1 last hlater
    refine ⟨⟨hid, hlt, hpresent, hrepo, ?_, ?_, ?_, ?_, hcourse.opened, hcourse.length,
      hcourse.scans hpresents, hcourse.last, hcourse.appealed_same, hcourse.decided_same, ?_⟩,
      hcourse.scanned_hashes⟩
    · rw [← hreporter]
      exact (hattributed first hin).1
    · rw [← hcreated]
      exact (hattributed first hin).2
    · rw [← hcreated, ← hupdated]
      exact hle
    · rw [← hreason]
      exact hfiled.reasons first hin
    · rw [scanned_previousTimestamp, hlast, ← hupdated]
      rfl

end ImportReport

end Igit
