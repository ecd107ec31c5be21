import Igit.Economic.Steps

/-!
# Split tables and sponsorship totals over runs

`SplitsSound` keeps the split table of a repository valid for its current owner: the table is
checked against the owner when it is written, and cleared by the hook when the owner changes.
`Recorded` reads the totals off the run: the tally of the economic module holds one entry for each
imported total and each sponsorship.
-/

namespace Igit

open Fallible

/-! ## Split tables -/

/-- Nothing is wrong with an empty table. -/
theorem ValidSplits.nil (owner : Address) : ValidSplits owner [] := by
  refine ⟨Nat.zero_le _, ?_, ?_, ?_, List.nodup_nil, Nat.zero_le _⟩ <;> simp

namespace Suite

/-- The split tables are valid for the current owners, and empty where no repository is and, until
the suite is active, where no table was imported. -/
structure SplitsSound (s : Suite) : Prop where
  valid : ∀ r, ValidSplits (s.core.repositories r).owner (s.economic.splits r)
  absent : ∀ r, (s.core.repositories r).present = false → s.economic.splits r = []
  unimported : ¬ s.IsActive → ∀ r, s.economic.importedSplits r = false → s.economic.splits r = []

variable {d : Deployment} {s s' : Suite} {keccak : Keccak}

/-- A table that is empty, or stays what it was with the repository in the same hands, is sound. -/
theorem SplitsSound.of_kept (h : s.SplitsSound)
    (hkept : ∀ r, s'.economic.splits r = [] ∨ s'.economic.splits r = s.economic.splits r ∧
      (s'.core.repositories r).owner = (s.core.repositories r).owner ∧
      (s'.core.repositories r).present = (s.core.repositories r).present)
    (hunimported : ¬ s'.IsActive → ∀ r, s'.economic.importedSplits r = false →
      s'.economic.splits r = []) : s'.SplitsSound where
  valid := by
    intro r
    rcases hkept r with hnone | ⟨hsame, howner, -⟩
    · rw [hnone]
      exact .nil _
    · rw [hsame, howner]
      exact h.valid r
  absent := by
    intro r hr
    rcases hkept r with hnone | ⟨hsame, -, hpresent⟩
    · exact hnone
    · rw [hsame]
      exact h.absent r (hpresent ▸ hr)
  unimported := hunimported

/-- Soundness is about the repositories, the tables and the state of the directory. -/
theorem SplitsSound.congr (h : s.SplitsSound)
    (hcore : s'.core.repositories = s.core.repositories)
    (hsplits : s'.economic.splits = s.economic.splits)
    (himported : s'.economic.importedSplits = s.economic.importedSplits)
    (hinactive : ¬ s'.IsActive → ¬ s.IsActive) : s'.SplitsSound := by
  refine h.of_kept (fun r => .inr ?_) fun hopen => ?_
  · rw [hcore, hsplits]
    exact ⟨rfl, rfl, rfl⟩
  · rw [himported, hsplits]
    exact h.unimported (hinactive hopen)

/-- A record that fits keeps the tables sound. -/
theorem SplitsSound.stored (h : s.SplitsSound) (hinactive : ¬ s.IsActive) {record : ImportRecord}
    (hfit : s.Fits keccak record) : (s.stored keccak record).SplitsSound := by
  cases record with
  | repository record =>
      obtain ⟨-, habsent, -⟩ := hfit
      refine h.of_kept (fun r => ?_) h.unimported
      by_cases heq : r = record.id
      · rw [heq]
        exact .inl (h.absent record.id habsent)
      · have hsame : (s.stored keccak (.repository record)).core.repositories r =
            s.core.repositories r := Function.update_of_ne heq _ _
        rw [hsame]
        exact .inr ⟨rfl, rfl, rfl⟩
  | splits record =>
      obtain ⟨⟨-, hpresent⟩, hnew, hvalid⟩ := hfit
      have htable : ∀ r, (s.stored keccak (.splits record)).economic.splits r =
          if r = record.repoId then record.splits else s.economic.splits r := by
        intro r
        show Function.update s.economic.splits record.repoId _ r = _
        by_cases heq : r = record.repoId
        · rw [heq, Function.update_self, h.unimported hinactive _ hnew, if_pos rfl, List.nil_append]
        · rw [Function.update_of_ne heq, if_neg heq]
      refine ⟨fun r => ?_, fun r hr => ?_, fun hopen r hr => ?_⟩
      · rw [htable]
        split
        · next heq =>
            rw [heq]
            exact hvalid
        · exact h.valid r
      · change (s.core.repositories r).present = false at hr
        rw [htable, if_neg]
        · exact h.absent r hr
        · intro heq
          rw [heq, hpresent] at hr
          cases hr
      · change Function.update s.economic.importedSplits record.repoId true r = false at hr
        by_cases heq : r = record.repoId
        · rw [heq, Function.update_self] at hr
          cases hr
        · rw [Function.update_of_ne heq] at hr
          rw [htable, if_neg heq]
          exact h.unimported hopen r hr
  | total record =>
      have hkept := s.economic.withTotal_splits keccak record.repoId record.denom record.amount
      exact h.congr rfl hkept.1 hkept.2 id
  | _ => exact ⟨h.valid, h.absent, h.unimported⟩

end Suite

/-- A transition of the protocol keeps the owner of a repository, or finds none, or hands the
repository over. -/
theorem RepoStep.owner_cases {d : Deployment} {r : Bytes32} {sender : Address} {now : Nat} {op : Op}
    {v v' : RepoState} (h : RepoStep d r sender now op v v') :
    (v'.owner = v.owner ∧ v'.present = v.present) ∨ v.present = false ∨
      op = .core (.acceptOwnershipTransfer r) ∨ op = .recovery (.executeRecovery r) := by
  cases h with
  | register owner hop habsent => exact .inr (.inl habsent)
  | acceptTransfer => exact .inr (.inr (.inl rfl))
  | executeRecovery => exact .inr (.inr (.inr rfl))
  | _ => exact .inl ⟨rfl, rfl⟩

namespace Suite

variable {d : Deployment} {s s' : Suite} {sender : Address} {now : Nat} {op : Op}

/-- A step keeps the tables sound. -/
theorem SplitsSound.step (hsound : s.SplitsSound)
    (hrepo : ∀ r, RepoStep d r sender now op (s.repoState r) (s'.repoState r))
    (hstep : EconomicStep d s op s') (hactive : s.IsActive → s'.IsActive) : s'.SplitsSound := by
  have hopen : ¬ s'.IsActive → ¬ s.IsActive := fun hafter hbefore => hafter (hactive hbefore)
  have howner : ∀ r, ((s'.core.repositories r).owner = (s.core.repositories r).owner ∧
      (s'.core.repositories r).present = (s.core.repositories r).present) ∨
      (s.core.repositories r).present = false ∨
      ∃ newOwner, s.transferTarget op = some (r, newOwner) := by
    intro r
    rcases (hrepo r).owner_cases with hkept | habsent | rfl | rfl
    · exact .inl hkept
    · exact .inr (.inl habsent)
    · exact .inr (.inr ⟨_, rfl⟩)
    · exact .inr (.inr ⟨_, rfl⟩)
  cases hstep with
  | keep hphase htarget hsplits himported htally =>
      refine hsound.of_kept (fun r => ?_) fun hafter r hr => ?_
      · rw [hsplits]
        rcases howner r with hkept | habsent | ⟨newOwner, hmoved⟩
        · exact .inr ⟨rfl, hkept⟩
        · exact .inl (hsound.absent r habsent)
        · rw [htarget] at hmoved
          cases hmoved
      · rw [himported] at hr
        rw [hsplits]
        exact hsound.unimported (hopen hafter) r hr
  | setSplits repoId splits hphase hwas hpresent hvalid hset =>
      subst hset
      refine ⟨fun r => ?_, fun r hr => ?_, fun hafter => absurd hwas hafter⟩
      · show ValidSplits (s.core.repositories r).owner
          (Function.update s.economic.splits repoId splits r)
        by_cases heq : r = repoId
        · rw [heq, Function.update_self]
          exact hvalid
        · rw [Function.update_of_ne heq]
          exact hsound.valid r
      · have hne : r ≠ repoId := by
          intro heq
          rw [heq] at hr
          exact absurd (hpresent.symm.trans hr) (by decide)
        show Function.update s.economic.splits repoId splits r = []
        rw [Function.update_of_ne hne]
        exact hsound.absent r hr
  | handOver repoId newOwner hphase hwas htarget heconomic =>
      have hsplits : s'.economic.splits = Function.update s.economic.splits repoId [] := by
        rw [heconomic]
        rfl
      refine hsound.of_kept (fun r => ?_) fun hafter => absurd (hactive hwas) hafter
      rw [hsplits]
      by_cases heq : r = repoId
      · rw [heq, Function.update_self]
        exact .inl rfl
      · rw [Function.update_of_ne heq]
        rcases howner r with hkept | habsent | ⟨other, hmoved⟩
        · exact .inr ⟨rfl, hkept⟩
        · exact .inl (hsound.absent r habsent)
        · rw [htarget, Option.some.injEq, Prod.mk.injEq] at hmoved
          exact absurd hmoved.1.symm heq
  | batch m batch u hphase hinactive hfit hset =>
      subst hset
      have hstored := hfit.preserves (P := SplitsSound)
        (fun _ _ hbefore _ hfits hs => hs.stored hbefore hfits) hinactive hsound
      exact hstored.congr rfl rfl rfl fun _ => mt isActive_foldl_stored.mp hinactive

end Suite

/-- In every run the tables are sound. -/
theorem Reachable.splitsSound {d : Deployment} {w : World} (h : Reachable d w) :
    w.suite.SplitsSound := by
  refine h.run_invariant (P := fun w => w.suite.SplitsSound) ?_ ?_
  · exact ⟨fun _ => .nil _, fun _ _ => rfl, fun _ _ _ => rfl⟩
  · intro before after move hreach hnext hsound
    have hactive := fun hbefore => hreach.active_next hbefore hnext
    cases hreach.effect hnext with
    | call hopen heffect =>
        exact hsound.step (fun r => heffect.repoStep r) (heffect.economicStep hopen) hactive
    | @bootstrap sender _ _ hstep =>
        have hrepo : ∀ r, RepoStep d r sender.address before.now _ _ _ := fun r => hstep.repoStep r
        exact hsound.step hrepo hstep.economicStep hactive
    | openSponsor =>
        obtain ⟨hsplits, himported⟩ := Economic.withTotal_splits d.keccak _ _ injDenom _
        exact hsound.congr rfl hsplits himported id
    | closeSponsor => exact ⟨hsound.valid, hsound.absent, hsound.unimported⟩
    | wait => exact hsound

/-! ## Totals -/

/-- The entry an imported record adds to the totals. -/
def ImportRecord.totalEntry : ImportRecord → Option (Tally.Entry Bytes32 Bytes)
  | .total record => some ⟨record.repoId, record.denom, record.amount⟩
  | _ => none

/-- The totals a call imports. -/
def Op.importedTotals (d : Deployment) (op : Op) : List (Tally.Entry Bytes32 Bytes) :=
  match op.phase with
  | some (.imported m batch) => (batch.records d.abi m).filterMap ImportRecord.totalEntry
  | _ => []

/-- The entries a successful call adds to the totals. -/
def Record.totalEntries (d : Deployment) (record : Record) : List (Tally.Entry Bytes32 Bytes) :=
  match record.event with
  | .call op => op.importedTotals d
  | .sponsor repoId _ value => [⟨repoId, injDenom, value⟩]

/-- What a successful call imports for a denom of a repository. -/
def Record.importedAmount (d : Deployment) (r : Bytes32) (denom : Bytes) (record : Record) : Nat :=
  match record.event with
  | .call op => Tally.sumOf (op.importedTotals d) r denom
  | .sponsor _ _ _ => 0

/-- What a successful call sponsors a repository with. -/
def Record.sponsoredAmount (r : Bytes32) (record : Record) : Nat :=
  match record.event with
  | .call _ => 0
  | .sponsor repoId _ value => if repoId = r then value else 0

/-- The amount imported for a denom of a repository. -/
def importedTotal (d : Deployment) (history : List Record) (r : Bytes32) (denom : Bytes) : Nat :=
  (history.map (Record.importedAmount d r denom)).sum

/-- The `msg.value` of the sponsorships of a repository together. -/
def sponsoredTotal (history : List Record) (r : Bytes32) : Nat :=
  (history.map (Record.sponsoredAmount r)).sum

/-- The entries of one call are its import or its sponsorship. -/
theorem Record.sumOf_totalEntries (d : Deployment) (record : Record) (r : Bytes32) (denom : Bytes) :
    Tally.sumOf (record.totalEntries d) r denom =
      record.importedAmount d r denom + if denom = injDenom then record.sponsoredAmount r else 0 := by
  unfold totalEntries importedAmount sponsoredAmount
  cases record.event with
  | call op => simp
  | sponsor repoId message value =>
      by_cases hrepo : repoId = r
      · by_cases hdenom : denom = injDenom
        · simp [Tally.sumOf, Tally.Entry.share, hrepo, hdenom]
        · simp [Tally.sumOf, Tally.Entry.share, hdenom, Ne.symm hdenom]
      · simp [Tally.sumOf, Tally.Entry.share, hrepo]

/-- The entries of a run are its imports and its sponsorships. -/
theorem sumOf_totalEntries (d : Deployment) (history : List Record) (r : Bytes32) (denom : Bytes) :
    Tally.sumOf (history.flatMap (Record.totalEntries d)) r denom =
      importedTotal d history r denom + if denom = injDenom then sponsoredTotal history r else 0 := by
  induction history with
  | nil => simp [Tally.sumOf, importedTotal, sponsoredTotal]
  | cons record rest ih =>
      rw [List.flatMap_cons, Tally.sumOf_append, ih, record.sumOf_totalEntries]
      unfold importedTotal sponsoredTotal
      rw [List.map_cons, List.map_cons, List.sum_cons, List.sum_cons]
      split <;> omega

namespace Suite

variable {d : Deployment} {s s' : Suite} {keccak : Keccak}

/-- Imported records add their entries. -/
theorem tally_foldl_stored {records : List ImportRecord} :
    (records.foldl (stored keccak) s).economic.tally =
      (records.filterMap ImportRecord.totalEntry).foldl (Tally.add keccak.ofBytes)
        s.economic.tally := by
  induction records generalizing s with
  | nil => rfl
  | cons record rest ih =>
      rw [List.foldl_cons, ih]
      cases record with
      | total record =>
          have hentry : (s.stored keccak (.total record)).economic.tally = s.economic.tally.add
            keccak.ofBytes ⟨record.repoId, record.denom, record.amount⟩ := Economic.tally_withTotal
          rw [hentry]
          rfl
      | _ => rfl

/-- Imported totals are not zero. -/
theorem FitInTurn.totalEntry_ne_zero {records : List ImportRecord} (h : s.FitInTurn keccak records) :
    ∀ entry ∈ records.filterMap ImportRecord.totalEntry, entry.amount ≠ 0 := by
  have hwell : ∀ record ∈ records, record.WellFormed := h.wellFormed
  intro entry hentry
  obtain ⟨record, hrecord, hsome⟩ := List.mem_filterMap.mp hentry
  cases record with
  | total record =>
      cases hsome
      exact (hwell _ hrecord).amount_ne_zero
  | _ => cases hsome

/-- A step adds the totals it imports. -/
theorem EconomicStep.tally {op : Op} (h : EconomicStep d s op s') :
    s'.economic.tally = (op.importedTotals d).foldl (Tally.add d.keccak.ofBytes) s.economic.tally ∧
      ∀ entry ∈ op.importedTotals d, entry.amount ≠ 0 := by
  have hnone : op.Unbatched → op.importedTotals d = [] := by
    intro hphase
    unfold Op.importedTotals
    split
    · next m batch hnext => exact absurd hnext (hphase m batch)
    · rfl
  cases h with
  | keep hphase htarget hsplits himported htally =>
      rw [hnone hphase]
      exact ⟨htally, by simp⟩
  | setSplits repoId splits hphase hactive hpresent hvalid hset =>
      rw [hnone hphase, hset]
      exact ⟨rfl, by simp⟩
  | handOver repoId newOwner hphase hactive htarget heconomic =>
      rw [hnone hphase, heconomic]
      exact ⟨rfl, by simp⟩
  | batch m batch u hphase hinactive hfit hset =>
      have hentries : op.importedTotals d =
          (batch.records d.abi m).filterMap ImportRecord.totalEntry := by
        rw [Op.importedTotals, hphase]
      rw [hentries, hset]
      exact ⟨tally_foldl_stored, hfit.totalEntry_ne_zero⟩

end Suite

/-- The totals are those of the entries of the run, none of them zero. -/
structure World.Recorded (d : Deployment) (w : World) : Prop where
  tally : w.suite.economic.tally =
    (w.history.flatMap (Record.totalEntries d)).foldl (Tally.add d.keccak.ofBytes) Tally.empty
  amounts : ∀ entry ∈ w.history.flatMap (Record.totalEntries d), entry.amount ≠ 0

/-- A call that adds its entries keeps the totals recorded. -/
theorem World.Recorded.push {d : Deployment} {w w' : World} {record : Record} (h : w.Recorded d)
    (hhistory : w'.history = w.history ++ [record])
    (htally : w'.suite.economic.tally =
      (record.totalEntries d).foldl (Tally.add d.keccak.ofBytes) w.suite.economic.tally)
    (hamounts : ∀ entry ∈ record.totalEntries d, entry.amount ≠ 0) : w'.Recorded d := by
  have hentries : w'.history.flatMap (Record.totalEntries d) =
      w.history.flatMap (Record.totalEntries d) ++ record.totalEntries d := by
    rw [hhistory, List.flatMap_append, List.flatMap_singleton]
  constructor
  · rw [hentries, List.foldl_append, htally, h.tally]
  · intro entry hentry
    rw [hentries, List.mem_append] at hentry
    rcases hentry with hold | hnew
    · exact h.amounts entry hold
    · exact hamounts entry hnew

/-- In every run the totals are recorded. -/
theorem Reachable.recorded {d : Deployment} {w : World} (h : Reachable d w) : w.Recorded d := by
  refine h.run_invariant (P := fun w => w.Recorded d) ⟨rfl, by simp [World.initial]⟩ ?_
  intro before after move hreach hnext hrecorded
  cases hreach.effect hnext with
  | call hactive heffect =>
      obtain ⟨htally, hamounts⟩ := (heffect.economicStep hactive).tally
      exact hrecorded.push rfl htally hamounts
  | bootstrap hstep =>
      obtain ⟨htally, hamounts⟩ := hstep.economicStep.tally
      exact hrecorded.push rfl htally hamounts
  | openSponsor hactive hvalue =>
      refine hrecorded.push rfl Economic.tally_withTotal ?_
      intro entry hentry
      rw [List.mem_singleton.mp hentry]
      exact hvalue
  | closeSponsor => exact ⟨hrecorded.tally, hrecorded.amounts⟩
  | wait => exact ⟨hrecorded.tally, hrecorded.amounts⟩

/-- In every run the split table of a repository has at most twenty entries, of distinct recipients
that are not zero and not the current owner, with positive bps of at most 10000 together. The total
of a denom is the amount imported for it and, for `inj`, the value of all sponsorships, and the
denoms with a total are listed once each, without others. -/
theorem splits_valid_and_totals_exact {d : Deployment} {w : World} (h : Reachable d w)
    (r : Bytes32) :
    ValidSplits (w.suite.core.repositories r).owner (w.suite.economic.splits r) ∧
    (∀ denom, w.suite.economic.totals r (d.keccak.ofBytes denom) =
      importedTotal d w.history r denom +
        if denom = injDenom then sponsoredTotal w.history r else 0) ∧
    (w.suite.economic.denoms r).Nodup ∧
    ∀ denom, denom ∈ w.suite.economic.denoms r ↔
      w.suite.economic.totals r (d.keccak.ofBytes denom) ≠ 0 := by
  have hinjective : Function.Injective d.keccak.ofBytes := fun _ _ => d.keccak.ofBytes_inj.mp
  have hrecorded := h.recorded
  have hlisted : w.suite.economic.tally.Listed d.keccak.ofBytes := by
    rw [hrecorded.tally]
    exact Tally.listed_empty.foldl hinjective hrecorded.amounts
  refine ⟨h.splitsSound.valid r, fun denom => ?_, hlisted.nodup r, hlisted.totals r⟩
  show w.suite.economic.tally.totals r (d.keccak.ofBytes denom) = _
  rw [hrecorded.tally, Tally.totals_foldl hinjective, sumOf_totalEntries]
  exact Nat.zero_add _

namespace Sample

/-- `alice` shares the revenue of a project, and the operator sponsors it with 1000 inj. -/
def sponsored : World := genesis.run
  [callAfter 1 alice (.core (.createRepository projectName [] [])),
   callAfter 1 alice (.economic (.setRevenueSplits project [bob.address, carol.address] [2500, 1000])),
   (1, .sponsor operator project [] 1000 (.cons .nil true (.cons .nil true (.cons .nil true
     (.cons .nil true .nil)))))]

theorem sponsored_reachable : Reachable deployment sponsored := genesis_reachable _

/-- The total is what was sponsored, and the table holds two recipients other than `alice`. -/
theorem sponsored_ledger :
    sponsored.suite.economic.totals project (deployment.keccak.ofBytes injDenom) = 1000 ∧
      injDenom ∈ sponsored.suite.economic.denoms project ∧
      (sponsored.suite.economic.splits project).length = 2 ∧
      ∀ split ∈ sponsored.suite.economic.splits project,
        split.recipient ≠ (sponsored.suite.core.repositories project).owner := by
  obtain ⟨hvalid, htotals, -, hlisted⟩ := splits_valid_and_totals_exact sponsored_reachable project
  have htotal : sponsored.suite.economic.totals project (deployment.keccak.ofBytes injDenom) = 1000 := by
    rw [htotals]
    decide +kernel
  refine ⟨htotal, (hlisted injDenom).mpr ?_, by decide +kernel, hvalid.recipient_ne_owner⟩
  rw [htotal]
  decide

end Sample

end Igit
