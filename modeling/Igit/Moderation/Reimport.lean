import Igit.Moderation.Reports

/-!
# Live reports can be imported

A report that was submitted to an active suite has a trail in order of time, made by accounts between
the submission and now (`World.Timely`). On a chain whose clock does not start at zero the importer of
any other suite therefore accepts it, and answers every query about it as the first suite does.
-/

namespace Igit

open Fallible

/-! ## When trail entries are made -/

/-- A trail in order of time, made by accounts between `since` and now. -/
structure World.Timely (since : Nat) (w : World) (trail : List TrailEntry) : Prop where
  ordered : Chronological trail
  within : ∀ entry ∈ trail, since ≤ entry.timestamp ∧ entry.timestamp ≤ w.now
  actors : ∀ entry ∈ trail, entry.actor ≠ 0

/-- Time passes. -/
theorem World.Timely.later {since : Nat} {w w' : World} {trail : List TrailEntry}
    (h : w.Timely since trail) (hnow : w.now ≤ w'.now) : w'.Timely since trail where
  ordered := h.ordered
  within := fun entry hentry => ⟨(h.within entry hentry).1, (h.within entry hentry).2.trans hnow⟩
  actors := h.actors

/-- An entry is added now. -/
theorem World.Timely.push {since : Nat} {w : World} {trail : List TrailEntry} {entry : TrailEntry}
    (h : w.Timely since trail) (hsince : since ≤ w.now) (htime : entry.timestamp = w.now)
    (hactor : entry.actor ≠ 0) : w.Timely since (trail ++ [entry]) := by
  refine ⟨chronological_concat.mpr ⟨h.ordered, fun earlier hearlier => ?_⟩, fun e he => ?_,
    fun e he => ?_⟩
  · rw [htime]
    exact (h.within earlier hearlier).2
  · cases List.mem_append.mp he with
    | inl hin => exact h.within e hin
    | inr hin =>
        rw [List.mem_singleton.mp hin, htime]
        exact ⟨hsince, le_rfl⟩
  · cases List.mem_append.mp he with
    | inl hin => exact h.actors e hin
    | inr hin => rwa [List.mem_singleton.mp hin]

/-- A call adds at most one entry to a trail, in the name of its sender and at its time. -/
theorem Suite.Effect.trails {d : Deployment} {s s' : Suite} {sender : Address} {now : Nat} {op : Op}
    (h : Effect d s sender now op s') (id : Nat) :
    s'.moderation.trails id = s.moderation.trails id ∨ ∃ entry : TrailEntry,
      s'.moderation.trails id = s.moderation.trails id ++ [entry] ∧ entry.actor = sender ∧
        entry.timestamp = now := by
  have hrecord : ∀ (reportId : Nat) (entry : TrailEntry), entry.actor = sender →
      entry.timestamp = now → ∀ trails, trails = Function.update s.moderation.trails reportId
        (s.moderation.trails reportId ++ [entry]) →
      trails id = s.moderation.trails id ∨ ∃ entry : TrailEntry,
        trails id = s.moderation.trails id ++ [entry] ∧ entry.actor = sender ∧
          entry.timestamp = now := by
    intro reportId entry hactor htime trails htrails
    rw [htrails]
    by_cases hid : id = reportId
    · rw [hid, Function.update_self]
      exact .inr ⟨entry, rfl, hactor, htime⟩
    · exact .inl (Function.update_of_ne hid _ _)
  cases h with
  | submitReport => exact hrecord _ _ rfl rfl _ rfl
  | resolveReport => exact hrecord _ _ rfl rfl _ rfl
  | appealReport => exact hrecord _ _ rfl rfl _ rfl
  | resolveAppeal => exact hrecord _ _ rfl rfl _ rfl
  | _ => exact .inl rfl

variable {d : Deployment} {w w' : World}

/-- A move of an active suite keeps a trail timely. -/
theorem World.Timely.next {since : Nat} (hreach : Reachable d w) (hactive : w.suite.IsActive)
    (hsince : since ≤ w.now) {move : Move d} (hnext : w.next move = .ok w') {id : Nat}
    (h : w.Timely since (w.suite.moderation.trails id)) :
    since ≤ w'.now ∧ w'.Timely since (w'.suite.moderation.trails id) := by
  cases hreach.effect hnext with
  | @call sender op s' _ heffect =>
      refine ⟨hsince, ?_⟩
      show World.Timely since _ (s'.moderation.trails id)
      rcases heffect.trails id with hsame | ⟨entry, htrail, hactor, htime⟩
      · rw [hsame]
        exact h.later le_rfl
      · rw [htrail]
        refine (h.push hsince htime ?_).later le_rfl
        rw [hactor]
        exact sender.address_ne_zero
  | bootstrap hstep => exact absurd hactive hstep.inactive
  | openSponsor | closeSponsor => exact ⟨hsince, h.later le_rfl⟩
  | wait => exact ⟨hsince.trans (Nat.le_add_right _ _), h.later (Nat.le_add_right _ _)⟩

/-- The trail of a report that is not there yet in an active suite stays timely. -/
theorem Reachable.timely {start : World} (hstart : Reachable d start)
    (hactive : start.suite.IsActive) {id : Nat}
    (hnew : (start.suite.moderation.reports id).present = false) (hrun : Leads d start w) :
    w.suite.IsActive ∧ start.now ≤ w.now ∧
      w.Timely start.now (w.suite.moderation.trails id) := by
  induction hrun with
  | refl =>
      obtain ⟨htrail, -, -⟩ := hstart.moderationKept.kept.blank id hnew
      rw [htrail]
      exact ⟨hactive, le_rfl, List.Pairwise.nil, List.forall_mem_nil _, List.forall_mem_nil _⟩
  | tail hrun hstep ih =>
      obtain ⟨move, hnext⟩ := hstep
      obtain ⟨hstill, hsince, htimely⟩ := ih
      have hreach := hstart.leads hrun
      exact ⟨hreach.active_next hstill hnext, htimely.next hreach hstill hsince hnext⟩

/-! ## The queries after an import -/

/-- Two moderation modules hold the same report under a number, with its trail and commitments. -/
structure Moderation.SameReport (m m' : Moderation) (id : Nat) : Prop where
  report : m'.reports id = m.reports id
  trail : m'.trails id = m.trails id
  resolutionHash : m'.resolutionHashes id = m.resolutionHashes id
  appealHash : m'.appealHashes id = m.appealHashes id

namespace Suite

variable {s s' : Suite} {id : Nat}

/-- The queries about a report read nothing else. -/
theorem queries_eq (h : s.moderation.SameReport s'.moderation id) :
    s'.getReport id = s.getReport id ∧ s'.reportCommitments id = s.reportCommitments id ∧
      ∀ cursor limit, s'.listReportTrailPage id cursor limit =
        s.listReportTrailPage id cursor limit := by
  have hreport : s'.requireReport id = s.requireReport id := by
    rw [requireReport, requireReport, h.report]
  refine ⟨hreport, ?_, fun cursor limit => ?_⟩
  · rw [reportCommitments, reportCommitments, hreport, h.resolutionHash, h.appealHash]
  · rw [listReportTrailPage, listReportTrailPage, hreport, h.trail]

/-- A record that fits does not touch a report that is there. -/
theorem sameReport_stored {keccak : Keccak} {record : ImportRecord} (hfits : s.Fits keccak record)
    (hpresent : (s.moderation.reports id).present = true) :
    s.moderation.SameReport (s.stored keccak record).moderation id ∧
      s.moderation.nextReportId ≤ (s.stored keccak record).moderation.nextReportId := by
  cases record with
  | report record =>
      have hne : id ≠ record.report.id := by
        intro hsame
        have habsent := hfits.2
        rw [← hsame, hpresent] at habsent
        cases habsent
      refine ⟨⟨Function.update_of_ne hne _ _, Function.update_of_ne hne _ _,
        Function.update_of_ne hne _ _, Function.update_of_ne hne _ _⟩, ?_⟩
      show s.moderation.nextReportId ≤ if record.report.id ≥ s.moderation.nextReportId
        then record.report.id + 1 else s.moderation.nextReportId
      split <;> omega
  | _ => exact ⟨⟨rfl, rfl, rfl, rfl⟩, le_rfl⟩

/-- The rest of an import does not either. -/
theorem sameReport_foldl_stored {keccak : Keccak} {records : List ImportRecord}
    (hfit : s.FitInTurn keccak records) (hpresent : (s.moderation.reports id).present = true) :
    s.moderation.SameReport (records.foldl (stored keccak) s).moderation id ∧
      s.moderation.nextReportId ≤ (records.foldl (stored keccak) s).moderation.nextReportId := by
  refine along_preserves (P := fun s' => s.moderation.SameReport s'.moderation id ∧
    s.moderation.nextReportId ≤ s'.moderation.nextReportId) ?_ hfit ⟨⟨rfl, rfl, rfl, rfl⟩, le_rfl⟩
  rintro before record ⟨-, hfits⟩ ⟨hsame, hle⟩
  have hbefore : (before.moderation.reports id).present = true := by rwa [hsame.report]
  obtain ⟨hnext, hmore⟩ := sameReport_stored hfits hbefore
  exact ⟨⟨hnext.report.trans hsame.report, hnext.trail.trans hsame.trail,
    hnext.resolutionHash.trans hsame.resolutionHash, hnext.appealHash.trans hsame.appealHash⟩,
    hle.trans hmore⟩

end Suite

/-- A kept report whose trail is attributed and in order passes the importer's checks, with the
commitments it has. -/
theorem Moderation.Kept.importable {m : Moderation} (h : m.Kept) {id : Nat}
    (hpresent : (m.reports id).present = true) (hid : id < uint64Max)
    (hattributed : Attributed (m.trails id)) (hordered : Chronological (m.trails id)) :
    (⟨m.reports id, m.trails id⟩ : ImportReport).WellFormed ∧
      (scanned (m.trails id)).resolutionHash = m.resolutionHashes id ∧
      (scanned (m.trails id)).appealHash = m.appealHashes id := by
  obtain ⟨hown, hzero, -⟩ := h.numbered id hpresent
  refine ImportReport.wellFormed_iff.mpr ⟨⟨?_, ?_, hpresent, h.homed id hpresent⟩,
    h.filed id hpresent, hattributed, hordered⟩
  · show (m.reports id).id ≠ 0
    rw [hown]
    exact hzero
  · show (m.reports id).id < uint64Max
    rw [hown]
    exact hid

/-- A report submitted to an active suite, wherever it stands, is accepted by the importer of every
suite that has its repository and no report of its number. Through the rest of that import every
query about it is answered as in the first suite. As on every chain, the clock is not at zero any
more. -/
theorem live_report_reimports {d d' : Deployment} {start w u : World} {id : Nat}
    (hstart : Reachable d start) (hactive : start.suite.IsActive) (hrun : Leads d start w)
    (hclock : start.now ≠ 0)
    (hnew : (start.suite.moderation.reports id).present = false)
    (hpresent : (w.suite.moderation.reports id).present = true) (hid : id < uint64Max)
    (hfresh : Reachable d' u) (hknows : u.suite.Knows (w.suite.moderation.reports id).repoId)
    (hfree : (u.suite.moderation.reports id).present = false) :
    ∃ imported, u.suite.storeImportedReport d'
        ⟨w.suite.moderation.reports id, w.suite.moderation.trails id⟩ = .ok imported ∧
      ∀ records, imported.FitInTurn d'.keccak records →
        (records.foldl (Suite.stored d'.keccak) imported).getReport id = w.suite.getReport id ∧
        (records.foldl (Suite.stored d'.keccak) imported).reportCommitments id =
          w.suite.reportCommitments id ∧
        (∀ cursor limit,
          (records.foldl (Suite.stored d'.keccak) imported).listReportTrailPage id cursor limit =
            w.suite.listReportTrailPage id cursor limit) ∧
        id < (records.foldl (Suite.stored d'.keccak) imported).moderation.nextReportId ∧
        id < w.suite.moderation.nextReportId := by
  have hkept := (hstart.leads hrun).moderationKept.kept
  obtain ⟨-, -, htimely⟩ := hstart.timely hactive hnew hrun
  have hattributed : Attributed (w.suite.moderation.trails id) := by
    intro entry hentry
    have hsince := (htimely.within entry hentry).1
    exact ⟨htimely.actors entry hentry, by omega⟩
  obtain ⟨hformed, hresolution, happeal⟩ :=
    hkept.importable hpresent hid hattributed htimely.ordered
  obtain ⟨hown, -, hlt⟩ := hkept.numbered id hpresent
  have hvacant : (u.suite.moderation.reports (w.suite.moderation.reports id).id).present = false := by
    rwa [hown]
  refine ⟨_, Suite.storeImportedReport_eq_ok.mpr ⟨hformed, ⟨hknows, hvacant⟩, rfl⟩, ?_⟩
  intro records hfit
  -- the imported suite holds the report under its own number
  have himported : w.suite.moderation.SameReport (u.suite.stored d'.keccak
      (.report ⟨w.suite.moderation.reports id, w.suite.moderation.trails id⟩)).moderation id ∧
      id < (u.suite.stored d'.keccak (.report ⟨w.suite.moderation.reports id,
        w.suite.moderation.trails id⟩)).moderation.nextReportId := by
    obtain ⟨hblank, -, -⟩ := hfresh.moderationKept.kept.blank id hfree
    refine ⟨⟨?_, ?_, ?_, ?_⟩, ?_⟩
    all_goals simp only [Suite.stored, Suite.setModeration, Moderation.withReport, hown,
      Function.update_self]
    · rw [hblank, List.nil_append]
    · exact hresolution
    · exact happeal
    · split <;> omega
  obtain ⟨hsame, hless⟩ := himported
  obtain ⟨hrest, hle⟩ := Suite.sameReport_foldl_stored hfit (by rwa [hsame.report])
  obtain ⟨hreport, hcommitments, htrail⟩ := Suite.queries_eq hrest
  obtain ⟨hreport', hcommitments', htrail'⟩ := Suite.queries_eq hsame
  exact ⟨hreport.trans hreport', hcommitments.trans hcommitments',
    fun cursor limit => (htrail cursor limit).trans (htrail' cursor limit), hless.trans_le hle, hlt⟩

namespace Sample

/-- A suite with the repository and nothing else. -/
def unreported : World := genesis.run
  [callAfter 1 alice (.core (.createRepository projectName [] []))]

theorem unreported_reachable : Reachable deployment unreported := genesis_reachable _

theorem genesis_reached : Reachable deployment genesis := reachable_run bootstrap

theorem appealed_leads : Leads deployment genesis appealed := genesis.run_steps _

/-- The report of `bob` goes over with both decisions and the appeal. -/
theorem appealed_reimports :
    ∃ imported, unreported.suite.storeImportedReport deployment
        ⟨appealed.suite.moderation.reports 1, appealed.suite.moderation.trails 1⟩ = .ok imported ∧
      imported.reportCommitments 1 = .ok ([0x61], [0x64], [0x63]) := by
  have hactive : genesis.suite.IsActive := by decide +kernel
  have hclock : genesis.now ≠ 0 := by decide +kernel
  have hnew : (genesis.suite.moderation.reports 1).present = false := by decide +kernel
  have hpresent : (appealed.suite.moderation.reports 1).present = true := by decide +kernel
  have hcore : unreported.suite.moduleAddress .core ≠ 0 := by decide +kernel
  have hknown : (unreported.suite.core.repositories
      (appealed.suite.moderation.reports 1).repoId).present = true := by decide +kernel
  have hfree : (unreported.suite.moderation.reports 1).present = false := by decide +kernel
  have hcommitments : appealed.suite.reportCommitments 1 = .ok ([0x61], [0x64], [0x63]) := by
    decide +kernel
  obtain ⟨imported, hstored, hqueries⟩ := live_report_reimports genesis_reached hactive
    appealed_leads hclock hnew hpresent (by decide) unreported_reachable ⟨hcore, hknown⟩ hfree
  exact ⟨imported, hstored, (hqueries [] trivial).2.1.trans hcommitments⟩

end Sample

end Igit
