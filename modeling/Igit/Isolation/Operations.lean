import Igit.Isolation.Views
import Igit.Refs.CompareAndSet

/-!
# Operations and repositories

An operation of a module is about one repository, or about none. It changes nothing that is stored
for another one, and every locator keeps its meaning. What it may do to the repository it is about
depends on the status: the refs and totals of a frozen repository stay as they are, and only active
repositories are forked or get badges.
-/

namespace Igit

open Fallible

/-- A repository that exists is not the one about to be created. -/
theorem Core.CanRegister.ne_of_present {d : Deployment} {c : Core} {imported : ImportRepository}
    {r : Bytes32} (hcan : c.CanRegister d imported) (hpresent : (c.repositories r).present = true) :
    r ≠ imported.id := by
  rintro rfl
  exact Bool.false_ne_true (hcan.absent.symm.trans hpresent)

/-- A change of role touches no ref. -/
theorem Core.RoleChange.refs_eq {c c' : Core} {repoId : Bytes32} {account : Address}
    (h : c.RoleChange repoId account c') : c'.refNames = c.refNames ∧ c'.refs = c.refs := by
  cases h with
  | revoke _ hremoved =>
      obtain ⟨_, _, _, rfl⟩ := Core.removeCollaborator_frame hremoved
      exact ⟨rfl, rfl⟩
  | _ => exact ⟨rfl, rfl⟩

/-- A change of role touches no record. -/
theorem Core.RoleChange.repositories_eq {c c' : Core} {repoId : Bytes32} {account : Address}
    (h : c.RoleChange repoId account c') : c'.repositories = c.repositories := by
  cases h with
  | revoke _ hremoved =>
      obtain ⟨_, _, _, rfl⟩ := Core.removeCollaborator_frame hremoved
      rfl
  | _ => rfl

namespace Suite

/-! ## The repository an operation is about -/

/-- The repository a call is about: the one it names, the one of the report it names, or the one it
creates. -/
def subject (d : Deployment) (s : Suite) (sender : Address) : Op → Option Bytes32
  | .core op =>
      match op with
      | .createRepository name _ _ => some (d.repositoryId sender name)
      | .forkRepository _ newName => some (d.repositoryId sender newName)
      | .updateMetadata repoId .. | .updateRef repoId .. | .deleteRef repoId _
      | .setCollaborator repoId .. | .beginOwnershipTransfer repoId _
      | .cancelOwnershipTransfer repoId | .acceptOwnershipTransfer repoId
      | .expireOwnershipTransfer repoId | .recoverOwnership repoId _ => some repoId
  | .recovery op =>
      match op with
      | .setGuardians repoId .. | .proposeRecovery repoId _ | .approveRecovery repoId
      | .cancelRecovery repoId | .executeRecovery repoId => some repoId
  | .moderation op =>
      match op with
      | .setCommittee _ => none
      | .setRepositoryStatus repoId .. | .submitReport repoId _ => some repoId
      | .resolveReport reportId .. | .appealReport reportId _ | .resolveAppeal reportId .. =>
          some (s.moderation.reports reportId).repoId
  | .economic op =>
      match op with
      | .setRevenueSplits repoId .. | .clearRevenueSplitsOnOwnershipTransfer repoId => some repoId
      | .setFeeConfig .. => none
  | .registry op =>
      match op with
      | .awardBadge repoId .. => some repoId
      | _ => none
  | .bootstrap _ => none

variable {d : Deployment} {s s' : Suite} {sender : Address} {now : Nat} {op : Op} {r : Bytes32}

/-- The views of the modules make up the view of the suite. -/
theorem view_congr (hcore : s'.core.view r = s.core.view r)
    (hrecovery : s'.recovery.view r = s.recovery.view r)
    (hmoderation : s'.moderation.view r = s.moderation.view r)
    (heconomic : s'.economic.view r = s.economic.view r)
    (hbadges : s'.badges.view r = s.badges.view r) : s'.view r = s.view r := by
  rw [view, view, hcore, hrecovery, hmoderation, heconomic, hbadges]

theorem view_setCore {c : Core} (h : c.view r = s.core.view r) : (s.setCore c).view r = s.view r :=
  view_congr h rfl rfl rfl rfl

theorem view_setRecovery {m : Recovery} (h : m.view r = s.recovery.view r) :
    (s.setRecovery m).view r = s.view r :=
  view_congr rfl h rfl rfl rfl

theorem view_setModeration {m : Moderation} (h : m.view r = s.moderation.view r) :
    (s.setModeration m).view r = s.view r :=
  view_congr rfl rfl h rfl rfl

theorem view_setEconomic {e : Economic} (h : e.view r = s.economic.view r) :
    (s.setEconomic e).view r = s.view r :=
  view_congr rfl rfl rfl h rfl

theorem view_touched {repoId : Bytes32} (hne : r ≠ repoId) :
    (s.touched repoId now).view r = s.view r :=
  view_setCore (Core.view_setRepository hne _)

/-- An ownership change clears the splits, the guardians and the proposal of its own repository. -/
theorem view_transferred {repoId moved : Bytes32} {newOwner : Address} (hne : r ≠ repoId) :
    (s.transferred d repoId newOwner moved).view r = s.view r := by
  refine view_congr (Core.view_transferred hne) ?_ rfl (Economic.view_setSplits hne []) rfl
  exact (Recovery.view_deleteProposal hne).trans (Recovery.view_clearConfig hne)

theorem view_forkedCore {source : Bytes32} {name : Bytes} (hsource : source ≠ d.repositoryId sender name)
    (hne : r ≠ d.repositoryId sender name) :
    (forkedCore d s sender source name now).view r = s.core.view r := by
  rw [forkedCore, foldl_copyRef hsource, Core.view_copied hne, Core.registered]
  exact Core.view_putRepository hne

theorem view_withRef {msg : Message} {repoId : Bytes32} {refName commitSha : Bytes}
    {uris : List Bytes} (hne : r ≠ repoId) :
    (s.withRef d msg repoId refName commitSha uris).view r = s.view r := by
  refine view_setCore ?_
  rw [Core.view_setRepository hne, Core.view_putRef hne]
  split
  · rfl
  · exact Core.view_setRefNames hne _

theorem view_withoutRef {msg : Message} {repoId : Bytes32} {refName : Bytes} (hne : r ≠ repoId) :
    (s.withoutRef d msg repoId refName).view r = s.view r := by
  refine view_setCore ?_
  rw [Core.view_setRepository hne, Core.view_setRefNames hne, Core.view_putRef hne]

/-- A call changes nothing of a repository it is not about. -/
theorem Effect.view_eq (hkept : s.moderation.Kept) (hnumbered : s.badges.Filed)
    (h : Effect d s sender now op s') (hother : s.subject d sender op ≠ some r) :
    s'.view r = s.view r := by
  have hne : ∀ {subject}, s.subject d sender op = some subject → r ≠ subject := by
    rintro subject hsubject rfl
    exact hother hsubject
  cases h with
  | createRepository => exact view_setCore (Core.view_putRepository (hne rfl))
  | forkRepository hpresent _ hcan =>
      exact view_setCore (view_forkedCore (hcan.ne_of_present hpresent) (hne rfl))
  | updateMetadata => exact view_setCore (Core.view_setRepository (hne rfl) _)
  | updateRef => exact view_withRef (hne rfl)
  | deleteRef => exact view_withoutRef (hne rfl)
  | setCollaborator _ hchange => exact view_setCore (hchange.view_eq (hne rfl))
  | beginOwnershipTransfer => exact view_setCore (Core.view_putPending (hne rfl) _ _)
  | cancelOwnershipTransfer => exact view_setCore (Core.view_clearPending (hne rfl) _)
  | expireOwnershipTransfer => exact view_setCore (Core.view_clearPending (hne rfl) _)
  | acceptOwnershipTransfer => exact view_transferred (hne rfl)
  | setGuardians =>
      refine view_setRecovery ?_
      rw [Recovery.view_deleteProposal (hne rfl), Recovery.view_configured (hne rfl)]
  | proposeRecovery => exact view_setRecovery (Recovery.view_putProposal (hne rfl) _)
  | approveRecovery => exact view_setRecovery (Recovery.view_putApproval (hne rfl) _)
  | cancelRecovery => exact view_setRecovery (Recovery.view_deleteProposal (hne rfl))
  | executeRecovery =>
      rw [view_transferred (hne rfl)]
      refine view_setRecovery ?_
      rw [Recovery.view_clearConfig (hne rfl), Recovery.view_deleteProposal (hne rfl)]
  | setCommittee => exact view_setModeration rfl
  | setRepositoryStatus =>
      rw [view_touched (hne rfl)]
      exact view_setModeration (Moderation.view_recordStatus (hne rfl) _)
  | submitReport => exact view_setModeration (Moderation.view_submitted hkept (hne rfl) _ _ _)
  | resolveReport =>
      rw [view_touched (hne rfl)]
      exact view_setModeration (Moderation.view_decided hkept (hne rfl) _ _ _ _ _ _)
  | appealReport =>
      rw [view_touched (hne rfl)]
      exact view_setModeration (Moderation.view_appealed hkept (hne rfl) _ _ _)
  | resolveAppeal =>
      rw [view_touched (hne rfl)]
      exact view_setModeration (Moderation.view_decided hkept (hne rfl) _ _ _ _ _ _)
  | setRevenueSplits => exact view_setEconomic (Economic.view_setSplits (hne rfl) _)
  | setFeeConfig => exact view_setEconomic rfl
  | awardBadge => exact view_congr rfl rfl rfl rfl (Badges.view_awarded hnumbered rfl (hne rfl))
  | registerUsername | claimOriginalUsername | releaseUsername | setReserved | registerArtifact => rfl

/-! ## Moderated repositories -/

/-- What a view says of the refs. -/
theorem refs_of_view (h : s'.view r = s.view r) :
    s'.core.refNames r = s.core.refNames r ∧ s'.core.refs r = s.core.refs r :=
  ⟨congrArg (fun view => view.core.refNames) h, congrArg (fun view => view.core.refs) h⟩

/-- No call changes a ref of a frozen repository. -/
theorem Effect.refs_frozen (h : Effect d s sender now op s')
    (hpresent : (s.core.repositories r).present = true) (hfrozen : s.moderation.statuses r = .frozen) :
    s'.core.refNames r = s.core.refNames r ∧ s'.core.refs r = s.core.refs r := by
  have hne : ∀ {subject}, s.moderation.statuses subject ≠ .frozen → r ≠ subject := by
    rintro subject hopen rfl
    exact hopen hfrozen
  cases h with
  | forkRepository hsource _ hcan =>
      exact refs_of_view (view_setCore
        (view_forkedCore (hcan.ne_of_present hsource) (hcan.ne_of_present hpresent)))
  | updateRef hterms => exact refs_of_view (view_withRef (hne hterms.not_frozen))
  | deleteRef _ hopen => exact refs_of_view (view_withoutRef (hne hopen))
  | setCollaborator _ hchange =>
      exact ⟨congrFun hchange.refs_eq.1 r, congrFun hchange.refs_eq.2 r⟩
  | _ => exact ⟨rfl, rfl⟩

/-- No call changes the totals of any repository. -/
theorem Effect.totals_eq (h : Effect d s sender now op s') :
    s'.economic.totals = s.economic.totals ∧ s'.economic.denoms = s.economic.denoms := by
  cases h <;> exact ⟨rfl, rfl⟩

/-- A new record is the one that was registered. -/
theorem registered_new {imported : ImportRepository} {c : Core} {id : Bytes32}
    (habsent : (c.repositories id).present = false)
    (hpresent : ((c.registered d imported).repositories id).present = true) :
    ((c.registered d imported).repositories id).forkedFrom = imported.forkedFrom := by
  by_cases hid : id = imported.id
  · subst hid
    simp [Core.registered, Core.putRepository]
  · simp [Core.registered, Core.putRepository, hid, habsent] at hpresent

/-- A record that is replaced stays present or absent. -/
theorem present_replaced {c : Core} {repoId id : Bytes32} {repository : Repository}
    (hsame : repository.present = (c.repositories repoId).present) :
    ((Function.update c.repositories repoId repository) id).present =
      (c.repositories id).present := by
  by_cases hid : id = repoId
  · rw [hid, Function.update_self, hsame]
  · rw [Function.update_of_ne hid]

theorem repositories_withRef {msg : Message} {repoId : Bytes32} {refName commitSha : Bytes}
    {uris : List Bytes} :
    (s.withRef d msg repoId refName commitSha uris).core.repositories =
      Function.update s.core.repositories repoId
        { s.core.repositories repoId with updatedAt := msg.timestamp } := by
  simp only [withRef, setCore, Core.setRepository, Core.putRef]
  congr 1
  split <;> rfl

/-- A call creates one repository, which is new or a fork of an active one, or none. -/
theorem Effect.creates (h : Effect d s sender now op s') :
    (∃ imported, (imported.forkedFrom = 0 ∨ s.moderation.statuses imported.forkedFrom = .active) ∧
      s'.core.repositories = (s.core.registered d imported).repositories) ∨
    ∀ id, (s'.core.repositories id).present = (s.core.repositories id).present := by
  cases h with
  | createRepository => exact .inl ⟨_, .inl rfl, rfl⟩
  | @forkRepository source name hsource hopen hcan =>
      refine .inl ⟨newFork d s sender source name now, .inr hopen, ?_⟩
      show (forkedCore d s sender source name now).repositories = _
      have hne : source ≠ d.repositoryId sender name := hcan.ne_of_present hsource
      rw [forkedCore, foldl_copyRef hne]
      rfl
  | updateRef =>
      refine .inr fun id => ?_
      rw [repositories_withRef]
      exact present_replaced rfl
  | setCollaborator _ hchange =>
      exact .inr fun id => congrArg Repository.present (congrFun hchange.repositories_eq id)
  | updateMetadata => exact .inr fun _ => present_replaced rfl
  | deleteRef => exact .inr fun _ => present_replaced rfl
  | acceptOwnershipTransfer => exact .inr fun _ => present_replaced rfl
  | executeRecovery => exact .inr fun _ => present_replaced rfl
  | setRepositoryStatus | resolveReport | appealReport | resolveAppeal =>
      exact .inr fun _ => present_replaced rfl
  | _ => exact .inr fun _ => rfl

/-- A call forks active repositories only. -/
theorem Effect.forks_active (h : Effect d s sender now op s') (hr : r ≠ 0)
    (hstatus : s.moderation.statuses r ≠ .active) {id : Bytes32}
    (habsent : (s.core.repositories id).present = false)
    (hpresent : (s'.core.repositories id).present = true) :
    (s'.core.repositories id).forkedFrom ≠ r := by
  rcases h.creates with ⟨imported, hfrom, hrecords⟩ | hsame
  · rw [hrecords] at hpresent ⊢
    rw [registered_new habsent hpresent]
    rintro rfl
    exact hfrom.elim hr hstatus
  · rw [hsame id, habsent] at hpresent
    exact absurd hpresent Bool.false_ne_true

/-- A call gives badges to active repositories only. -/
theorem Effect.badges_active (h : Effect d s sender now op s')
    (hstatus : s.moderation.statuses r ≠ .active) {id : Nat}
    (habsent : (s.badges.badges id).present = false)
    (hpresent : (s'.badges.badges id).present = true) : (s'.badges.badges id).repoId ≠ r := by
  have hnone : (s.badges.badges id).present ≠ true := by simp [habsent]
  cases h with
  | awardBadge _ hopen =>
      by_cases hid : id = s.badges.nextBadgeId
      · subst hid
        simp only [setBadges, Badges.awarded, Function.update_self]
        rintro rfl
        exact hstatus hopen
      · simp only [setBadges, Badges.awarded, Function.update_of_ne hid] at hpresent
        exact absurd hpresent hnone
  | _ => exact absurd hpresent hnone

end Suite

/-! ## Moves -/

namespace World

variable {d : Deployment}

/-- The repository a move is about. -/
def subject (w : World) : Move d → Option Bytes32
  | .call sender op => w.suite.subject d sender.address op
  | .openSponsor _ repoId _ _ => some repoId
  | .closeSponsor => none
  | .wait _ => none

variable {w w' : World} {move : Move d} {r : Bytes32}

/-- A move changes nothing of a repository it is not about. -/
theorem Effect.view_eq (h : w.Effect d move w') (hactive : w.suite.IsActive)
    (hkept : w.suite.moderation.Kept) (hnumbered : w.suite.badges.Filed)
    (hother : w.subject move ≠ some r) : w'.suite.view r = w.suite.view r := by
  cases h with
  | call _ heffect => exact heffect.view_eq hkept hnumbered hother
  | bootstrap hstep => exact absurd hactive hstep.inactive
  | openSponsor =>
      refine Suite.view_setEconomic (Economic.view_withTotal ?_ _ _)
      rintro rfl
      exact hother rfl
  | closeSponsor => exact Suite.view_setEconomic rfl
  | wait => rfl

/-- A move leaves the refs and totals of a frozen repository alone. -/
theorem Effect.frozen (h : w.Effect d move w') (hactive : w.suite.IsActive)
    (hpresent : (w.suite.core.repositories r).present = true)
    (hfrozen : w.suite.moderation.statuses r = .frozen) :
    w'.suite.core.refNames r = w.suite.core.refNames r ∧ w'.suite.core.refs r = w.suite.core.refs r ∧
      w'.suite.economic.totals r = w.suite.economic.totals r ∧
      w'.suite.economic.denoms r = w.suite.economic.denoms r := by
  cases h with
  | call _ heffect =>
      obtain ⟨hnames, hrefs⟩ := heffect.refs_frozen hpresent hfrozen
      obtain ⟨htotals, hdenoms⟩ := heffect.totals_eq
      exact ⟨hnames, hrefs, congrFun htotals r, congrFun hdenoms r⟩
  | bootstrap hstep => exact absurd hactive hstep.inactive
  | @openSponsor _ repoId _ value _ _ hopen =>
      have hne : r ≠ repoId := by
        rintro rfl
        exact hopen hfrozen
      have hview : (Economic.withTotal d.keccak { w.suite.economic with settlementLock := 2 } repoId
          injDenom value).view r = w.suite.economic.view r := Economic.view_withTotal hne _ _
      exact ⟨rfl, rfl, congrArg EconomicView.totals hview, congrArg EconomicView.denoms hview⟩
  | closeSponsor | wait => exact ⟨rfl, rfl, rfl, rfl⟩

/-- A move forks active repositories only. -/
theorem Effect.forks_active (h : w.Effect d move w') (hactive : w.suite.IsActive) (hr : r ≠ 0)
    (hstatus : w.suite.moderation.statuses r ≠ .active) {id : Bytes32}
    (habsent : (w.suite.core.repositories id).present = false)
    (hpresent : (w'.suite.core.repositories id).present = true) :
    (w'.suite.core.repositories id).forkedFrom ≠ r := by
  cases h with
  | call _ heffect => exact heffect.forks_active hr hstatus habsent hpresent
  | bootstrap hstep => exact absurd hactive hstep.inactive
  | openSponsor | closeSponsor | wait =>
      exact absurd (habsent.symm.trans hpresent) Bool.false_ne_true

/-- A move gives badges to active repositories only. -/
theorem Effect.badges_active (h : w.Effect d move w') (hactive : w.suite.IsActive)
    (hstatus : w.suite.moderation.statuses r ≠ .active) {id : Nat}
    (habsent : (w.suite.badges.badges id).present = false)
    (hpresent : (w'.suite.badges.badges id).present = true) :
    (w'.suite.badges.badges id).repoId ≠ r := by
  cases h with
  | call _ heffect => exact heffect.badges_active hstatus habsent hpresent
  | bootstrap hstep => exact absurd hactive hstep.inactive
  | openSponsor | closeSponsor | wait =>
      exact absurd (habsent.symm.trans hpresent) Bool.false_ne_true

end World

section Moves

variable {d : Deployment} {w w' : World} {move : Move d} {r : Bytes32}

/-- In an active suite an operation that is about one repository changes nothing that is stored for
another, and the locators of the other one resolve as before, with the same record and the same
canonical flag. -/
theorem operations_isolated (h : Reachable d w) (hactive : w.suite.IsActive)
    (hnext : w.next move = .ok w') (hpresent : (w.suite.core.repositories r).present = true)
    (hother : w.subject move ≠ some r) :
    w'.suite.view r = w.suite.view r ∧
    ∀ owner name, w.suite.core.locators (d.locator owner name) = r →
      w'.suite.core.locators (d.locator owner name) = r ∧
        w'.suite.resolveRepository d owner name = w.suite.resolveRepository d owner name := by
  have hview := (h.effect hnext).view_eq hactive h.moderationKept.kept h.filed.badges hother
  refine ⟨hview, fun owner name hlocator => ?_⟩
  have hrecord : w'.suite.core.repositories r = w.suite.core.repositories r :=
    congrArg (fun view => view.core.record) hview
  have hkept : w'.suite.core.locators (d.locator owner name) = r := by
    have hzero : w.suite.core.locators (d.locator owner name) ≠ 0 := by
      rw [hlocator]
      exact h.naming.id_ne_zero r hpresent
    rw [h.keepsLocators (.single ⟨move, hnext⟩) _ hzero, hlocator]
  refine ⟨hkept, ?_⟩
  rw [Suite.resolveRepository, Suite.resolveRepository, hkept, hlocator, hrecord]

namespace Sample

/-- `bob` and `alice` have a repository each, and the one of `alice` has a branch and is frozen. -/
def frozen : World := genesis.run
  [callAfter 1 alice (.core (.createRepository projectName [] [])),
   callAfter 1 alice (.core (.updateRef project mainRef shaA [packUri 0x61] [] false)),
   callAfter 1 bob (.core (.createRepository projectName [] [])),
   callAfter 1 committee (.moderation (.setRepositoryStatus project .frozen [0x61]))]

theorem frozen_reachable : Reachable deployment frozen := genesis_reachable _

/-- The repository of `bob`. -/
def bobsProject : Bytes32 := deployment.repositoryId bob.address projectName

/-- `alice` offers the frozen repository to `carol`. -/
def frozenOffered : Move deployment :=
  .call alice (.core (.beginOwnershipTransfer project carol.address))

/-- The offer of `alice` goes through, and the repository of `bob` is as it was. -/
theorem frozenOffered_isolated :
    ∃ w', frozen.next frozenOffered = .ok w' ∧
      w'.suite.view bobsProject = frozen.suite.view bobsProject ∧
      w'.suite.core.locators (deployment.locator bob.address projectName) = bobsProject := by
  have hactive : frozen.suite.IsActive := by decide +kernel
  have hok : (frozen.next frozenOffered).isOk = true := by decide +kernel
  have hpresent : (frozen.suite.core.repositories bobsProject).present = true := by decide +kernel
  have hother : frozen.subject frozenOffered ≠ some bobsProject := by decide +kernel
  have hlocator : frozen.suite.core.locators (deployment.locator bob.address projectName) =
      bobsProject := by decide +kernel
  obtain ⟨w', hnext⟩ := exists_of_isOk hok
  obtain ⟨hview, hlocators⟩ := operations_isolated frozen_reachable hactive hnext hpresent hother
  exact ⟨w', hnext, hview, (hlocators _ _ hlocator).1⟩

end Sample

/-- In an active suite no operation changes the refs or the totals of a frozen repository, and none
forks a frozen or delisted repository or gives it a badge. -/
theorem moderated_protected (h : Reachable d w) (hactive : w.suite.IsActive)
    (hnext : w.next move = .ok w') (hpresent : (w.suite.core.repositories r).present = true) :
    (w.suite.moderation.statuses r = .frozen →
      w'.suite.core.refNames r = w.suite.core.refNames r ∧
      w'.suite.core.refs r = w.suite.core.refs r ∧
      w'.suite.economic.totals r = w.suite.economic.totals r ∧
      w'.suite.economic.denoms r = w.suite.economic.denoms r) ∧
    (w.suite.moderation.statuses r = .frozen ∨ w.suite.moderation.statuses r = .delisted →
      (∀ id, (w.suite.core.repositories id).present = false →
        (w'.suite.core.repositories id).present = true →
        (w'.suite.core.repositories id).forkedFrom ≠ r) ∧
      ∀ id, (w.suite.badges.badges id).present = false →
        (w'.suite.badges.badges id).present = true → (w'.suite.badges.badges id).repoId ≠ r) := by
  have heffect := h.effect hnext
  refine ⟨fun hfrozen => heffect.frozen hactive hpresent hfrozen, fun hstatus => ?_⟩
  have hclosed : w.suite.moderation.statuses r ≠ .active := by
    rcases hstatus with hstatus | hstatus <;> simp [hstatus]
  exact ⟨fun _ => heffect.forks_active hactive (h.naming.id_ne_zero r hpresent) hclosed,
    fun _ => heffect.badges_active hactive hclosed⟩

namespace Sample

/-- The offer of `alice` goes through, and the branch is as it was. -/
theorem frozenOffered_protected :
    ∃ w', frozen.next frozenOffered = .ok w' ∧ w'.suite.core.refNames project = [mainRef] := by
  have hactive : frozen.suite.IsActive := by decide +kernel
  have hok : (frozen.next frozenOffered).isOk = true := by decide +kernel
  have hpresent : (frozen.suite.core.repositories project).present = true := by decide +kernel
  have hfrozen : frozen.suite.moderation.statuses project = .frozen := by decide +kernel
  have hnames : frozen.suite.core.refNames project = [mainRef] := by decide +kernel
  obtain ⟨w', hnext⟩ := exists_of_isOk hok
  have hkept := (moderated_protected frozen_reachable hactive hnext hpresent).1 hfrozen
  exact ⟨w', hnext, hkept.1.trans hnames⟩

end Sample

end Moves

end Igit
