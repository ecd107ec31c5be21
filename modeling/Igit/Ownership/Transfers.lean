import Igit.Ownership.Guardians

/-!
# When ownership can change hands

The calls that begin and complete a change of owner succeed exactly when their own terms are met,
as far as the code allows it. Accepting a transfer never fails for another reason than the caller
and the clock. Executing a recovery can also fail because another repository took or reserved the
target locator, which a proposal does not protect. Beginning a transfer also fails when the target
locator is an old one of the same repository. A recovery whose window has passed stays in the way of
the next one until the owner or its target withdraws it.
-/

namespace Igit

open Fallible

variable {d : Deployment} {w : World} {r : Bytes32}

/-- A locator is not held or reserved by another repository than `r`. -/
def Core.FreeOfOthers (d : Deployment) (c : Core) (r : Bytes32) (owner : Address) (name : Bytes) :
    Prop :=
  ∀ other, other ≠ 0 → other ≠ r →
    c.locators (d.locator owner name) ≠ other ∧ c.reservedLocators (d.locator owner name) ≠ other

theorem Core.availableFor_iff {c : Core} {owner : Address} {name : Bytes} :
    c.AvailableFor d r owner name ↔ c.FreeOfOthers d r owner name := by
  constructor
  · rintro ⟨hheld, hreserved⟩ other hzero hother
    constructor
    · rintro rfl
      exact hheld.elim hzero hother
    · rintro rfl
      exact hreserved.elim hzero hother
  · intro hfree
    constructor
    · by_contra hheld
      obtain ⟨hzero, hother⟩ := not_or.mp hheld
      exact (hfree _ hzero hother).1 rfl
    · by_contra hreserved
      obtain ⟨hzero, hother⟩ := not_or.mp hreserved
      exact (hfree _ hzero hother).2 rfl

/-! ## Accepting a transfer -/

/-- The target of a pending transfer is reserved for it and held by nobody. -/
theorem Core.Naming.availableFor_pending {c : Core} (h : c.Naming d)
    (hpending : (c.pendingTransfers r).newOwner ≠ 0) :
    c.AvailableFor d r (c.pendingTransfers r).newOwner (c.repositories r).name := by
  have hne := h.id_ne_zero r (h.pending_present r hpending)
  have hreserved := (h.reserved _ r hne).mpr ⟨hpending, rfl⟩
  have htaken := (h.disjoint (d.locator (c.pendingTransfers r).newOwner
    (c.repositories r).name)).resolve_right (by rw [hreserved]; exact hne)
  exact ⟨.inl htaken, .inr hreserved⟩

/-- In an active suite with a pending transfer, accepting succeeds exactly for its target and
inside its window. -/
theorem accept_succeeds_iff (h : Reachable d w) (hactive : w.suite.IsActive)
    (hpending : (w.suite.core.pendingTransfers r).newOwner ≠ 0) (msg : Message) :
    (∃ s', w.suite.acceptOwnershipTransfer d msg r = .ok s') ↔
      msg.sender = (w.suite.core.pendingTransfers r).newOwner ∧
        (w.suite.core.pendingTransfers r).executeAfter ≤ msg.timestamp ∧
        msg.timestamp ≤ (w.suite.core.pendingTransfers r).expiresAt := by
  have hnaming := h.naming
  have hpresent := hnaming.pending_present r hpending
  simp only [Suite.accept_eq_ok h.registered]
  constructor
  · rintro ⟨s', -, -, -, hsender, -, hafter, hbefore, -⟩
    exact ⟨hsender, hafter, hbefore⟩
  · rintro ⟨hsender, hafter, hbefore⟩
    obtain ⟨moved, hmove⟩ := h.ownerIndexed.canMove hpresent
    have hfits : (w.suite.core.pendingTransfers r).expiresAt ≤ uint64Max :=
      (h.coherent r).pending_fits
    exact ⟨_, hactive, hpresent, hpending, hsender, hbefore.trans hfits, hafter, hbefore,
      hnaming.availableFor_pending hpending, moved, hmove, rfl⟩

namespace Sample

theorem offered_acceptable :
    ∃ s', offered.suite.acceptOwnershipTransfer deployment
      ⟨bob.address, offered.now + ownershipTransferDelay⟩ project = .ok s' := by
  refine (accept_succeeds_iff offered_reachable ?_ ?_ _).mpr ?_
  · show offered.suite.directory.state = .active
    decide +kernel
  · decide +kernel
  · decide +kernel

end Sample

/-! ## Executing a recovery -/

/-- In an active suite with an approved proposal, executing it by its target inside the window
succeeds exactly when no other repository holds or reserves the target locator. -/
theorem executeRecovery_succeeds_iff (h : Reachable d w) (hactive : w.suite.IsActive)
    (hpending : (w.suite.recovery.proposals r).newOwner ≠ 0)
    (happroved : (w.suite.recovery.configs r).threshold ≤ (w.suite.recovery.proposals r).approvals)
    (msg : Message) (hsender : msg.sender = (w.suite.recovery.proposals r).newOwner)
    (hafter : (w.suite.recovery.proposals r).executeAfter ≤ msg.timestamp)
    (hbefore : msg.timestamp ≤ (w.suite.recovery.proposals r).expiresAt) :
    (∃ s', w.suite.executeRecovery d msg r = .ok s') ↔
      w.suite.core.FreeOfOthers d r (w.suite.recovery.proposals r).newOwner
        (w.suite.core.repositories r).name := by
  have hcoherent := h.coherent r
  have hthreshold : (w.suite.recovery.configs r).threshold ≠ 0 :=
    hcoherent.proposal_configured hpending
  obtain ⟨hpresent, hconfigured, -⟩ := hcoherent.configured hthreshold
  simp only [Suite.executeRecovery_eq_ok h.registered, ← Core.availableFor_iff]
  constructor
  · rintro ⟨s', -, -, -, -, -, -, -, -, -, -, -, -, havailable, -⟩
    exact havailable
  · intro havailable
    obtain ⟨moved, hmove⟩ := h.ownerIndexed.canMove hpresent
    have hfits : (w.suite.recovery.proposals r).expiresAt ≤ uint64Max := hcoherent.proposal_fits
    have hidle : (w.suite.core.pendingTransfers r).newOwner = 0 :=
      hcoherent.exclusive.resolve_right hpending
    exact ⟨_, hactive, hpresent, hthreshold, hconfigured, hpending, hsender, hbefore.trans hfits,
      hafter, hbefore, happroved, hcoherent.proposal_ne_owner hpending, hidle, havailable, moved,
      hmove, rfl⟩

namespace Sample

/-- A fifth user. -/
def mallory : Account deployment := ⟨0x3a110, by decide⟩

/-- The guardians of `alice`'s repository agree on `dave`. -/
def agreed : List (Nat × Tx deployment) :=
  [callAfter 1 alice (.core (.createRepository projectName [] [])),
   callAfter 1 alice (.recovery (.setGuardians project [bob.address, carol.address] 2)),
   callAfter 1 bob (.recovery (.proposeRecovery project dave.address)),
   callAfter 1 carol (.recovery (.approveRecovery project))]

/-- A week after the proposal, with nobody in the way. -/
def recoverable : World :=
  genesis.run (agreed ++ [callAfter recoveryDelay mallory (.core (.createRepository [0x63] [] []))])

theorem recoverable_reachable : Reachable deployment recoverable := genesis_reachable _

/-- `dave` can execute the recovery. -/
theorem recoverable_executes :
    ∃ s', recoverable.suite.executeRecovery deployment ⟨dave.address, recoverable.now⟩ project =
      .ok s' := by
  refine (executeRecovery_succeeds_iff recoverable_reachable ?_ ?_ ?_ _ ?_ ?_ ?_).mpr ?_
  · show recoverable.suite.directory.state = .active
    decide +kernel
  · decide +kernel
  · decide +kernel
  · decide +kernel
  · decide +kernel
  · decide +kernel
  · refine Core.availableFor_iff.mp ⟨.inl ?_, .inl ?_⟩
    · decide +kernel
    · decide +kernel

/-- The repository `mallory` creates under the same name. -/
def decoy : Bytes32 := deployment.repositoryId mallory.address projectName

/-- A week after the proposal, but `mallory` has offered `dave` a repository of the same name. -/
def blocked : World :=
  genesis.run (agreed ++
    [callAfter 1 mallory (.core (.createRepository projectName [] [])),
     callAfter recoveryDelay mallory (.core (.beginOwnershipTransfer decoy dave.address))])

theorem blocked_reachable : Reachable deployment blocked := genesis_reachable _

/-- The recovery is fully approved and in its window, and `dave` still cannot execute it. -/
theorem reservation_blocks_recovery :
    Reachable deployment blocked ∧ blocked.suite.IsActive ∧
      (blocked.suite.recovery.proposals project).newOwner = dave.address ∧
      (blocked.suite.recovery.configs project).threshold ≤
        (blocked.suite.recovery.proposals project).approvals ∧
      (blocked.suite.recovery.proposals project).executeAfter ≤ blocked.now ∧
      blocked.now ≤ (blocked.suite.recovery.proposals project).expiresAt ∧
      refusal (blocked.suite.executeRecovery deployment ⟨dave.address, blocked.now⟩ project) =
        some (.locatorUnavailable dave.address projectName) :=
  ⟨blocked_reachable, by decide +kernel⟩

end Sample

/-! ## Beginning a transfer -/

/-- The terms of a transfer of `r` to `newOwner`: a target that is somebody else, nothing pending,
and a target locator that no other repository holds or reserves. -/
structure TransferTerms (d : Deployment) (s : Suite) (r : Bytes32) (newOwner : Address) : Prop where
  target_ne_zero : newOwner ≠ 0
  target_ne_owner : newOwner ≠ (s.core.repositories r).owner
  no_transfer : (s.core.pendingTransfers r).newOwner = 0
  no_recovery : (s.recovery.proposals r).newOwner = 0
  locator_free : s.core.FreeOfOthers d r newOwner (s.core.repositories r).name

/-- In an active suite, `beginOwnershipTransfer` by the owner succeeds exactly on these terms,
unless the target locator is already one of the repository itself or the window would end after
the last 64-bit second. -/
theorem begin_succeeds_iff (h : Reachable d w) (hactive : w.suite.IsActive)
    (hpresent : (w.suite.core.repositories r).present = true) (newOwner : Address) (now : Nat) :
    ((∃ s', w.suite.beginOwnershipTransfer d ⟨(w.suite.core.repositories r).owner, now⟩ r newOwner =
        .ok s') ↔ TransferTerms d w.suite r newOwner) ↔
      ¬ (TransferTerms d w.suite r newOwner ∧
        (w.suite.core.locators (d.locator newOwner (w.suite.core.repositories r).name) = r ∨
          uint64Max < now + ownershipTransferDelay + ownershipTransferWindow)) := by
  have hnaming := h.naming
  have hr := hnaming.id_ne_zero r hpresent
  have hrecovery : w.suite.moduleAddress .recovery ≠ 0 := h.registered.complete hactive _
  -- what the code checks, in terms of the locator's holder
  have hcode : (∃ s', w.suite.beginOwnershipTransfer d
      ⟨(w.suite.core.repositories r).owner, now⟩ r newOwner = .ok s') ↔
      TransferTerms d w.suite r newOwner ∧
        w.suite.core.locators (d.locator newOwner (w.suite.core.repositories r).name) ≠ r ∧
        now + ownershipTransferDelay + ownershipTransferWindow ≤ uint64Max := by
    simp only [Suite.begin_eq_ok]
    constructor
    · rintro ⟨s', -, -, -, hzero, howner, hidle, -, hproposal, hfree, hunreserved, hfits, -⟩
      refine ⟨⟨hzero, howner, hidle, hproposal, ?_⟩, ?_, hfits⟩
      · exact Core.availableFor_iff.mp ⟨.inl hfree, .inl hunreserved⟩
      · rw [hfree]
        exact hr.symm
    · rintro ⟨⟨hzero, howner, hidle, hproposal, hfree⟩, hown, hfits⟩
      obtain ⟨hheld, hreserved⟩ := Core.availableFor_iff.mpr hfree
      -- a reservation by the repository itself would be a pending transfer
      have hunreserved : w.suite.core.reservedLocators
          (d.locator newOwner (w.suite.core.repositories r).name) = 0 := by
        refine hreserved.resolve_right fun hmine => ?_
        exact ((hnaming.reserved _ r hr).mp hmine).1 hidle
      exact ⟨_, hactive, hpresent, trivial, hzero, howner, hidle, hrecovery, hproposal,
        hheld.resolve_right hown, hunreserved, hfits, rfl⟩
  rw [hcode]
  constructor
  · rintro hiff ⟨hterms, hblocked⟩
    obtain ⟨-, hown, hfits⟩ := hiff.mpr hterms
    rcases hblocked with hblocked | hblocked
    · exact hown hblocked
    · omega
  · intro hunblocked
    refine ⟨And.left, fun hterms => ⟨hterms, fun hown => hunblocked ⟨hterms, .inl hown⟩, ?_⟩⟩
    by_contra hoverflow
    exact hunblocked ⟨hterms, .inr (by omega)⟩

namespace Sample

/-- `alice` has a repository and nothing is pending. -/
def created : World := genesis.run [callAfter 1 alice (.core (.createRepository projectName [] []))]

theorem created_reachable : Reachable deployment created := genesis_reachable _

/-- A transfer to `bob` begins exactly on its terms. -/
theorem created_begins :
    (∃ s', created.suite.beginOwnershipTransfer deployment
        ⟨(created.suite.core.repositories project).owner, created.now⟩ project bob.address =
        .ok s') ↔ TransferTerms deployment created.suite project bob.address := by
  refine (begin_succeeds_iff created_reachable ?_ ?_ _ _).mpr ?_
  · show created.suite.directory.state = .active
    decide +kernel
  · decide +kernel
  · rintro ⟨-, hblocked⟩
    exact absurd hblocked (by decide +kernel)

/-- `alice` has handed the repository over to `bob`. -/
def accepted : World := genesis.run
  [callAfter 1 alice (.core (.createRepository projectName [] [])),
   callAfter 1 alice (.core (.beginOwnershipTransfer project bob.address)),
   callAfter ownershipTransferDelay bob (.core (.acceptOwnershipTransfer project))]

theorem accepted_reachable : Reachable deployment accepted := genesis_reachable _

/-- The terms of a transfer back to `alice` are met, and `bob` cannot begin it, because `alice`'s old
locator still leads to the repository. -/
theorem former_owner_cannot_be_offered :
    Reachable deployment accepted ∧ accepted.suite.IsActive ∧
      (accepted.suite.core.repositories project).owner = bob.address ∧
      TransferTerms deployment accepted.suite project alice.address ∧
      refusal (accepted.suite.beginOwnershipTransfer deployment ⟨bob.address, accepted.now⟩ project
        alice.address) = some (.locatorUnavailable alice.address projectName) := by
  have howner : (accepted.suite.core.repositories project).owner = bob.address := by decide +kernel
  refine ⟨accepted_reachable, by decide +kernel, howner, ?_, by decide +kernel⟩
  refine ⟨by decide, ?_, by decide +kernel, by decide +kernel,
    Core.availableFor_iff.mp ⟨.inr ?_, .inl ?_⟩⟩
  · rw [howner]
    decide
  · decide +kernel
  · decide +kernel

end Sample

/-! ## Starting another recovery -/

/-- Who makes a move. -/
def Move.sender : Move d → Option Address
  | .call sender _ => some sender.address
  | .openSponsor sender _ _ _ => some sender.address
  | .closeSponsor => none
  | .wait _ => none

/-- The move is made by neither `owner` nor `target`. -/
def Move.Without (owner target : Address) (_ : World) (move : Move d) : Prop :=
  move.sender ≠ some owner ∧ move.sender ≠ some target

/-- Whether a move is made by one of the two is decided by looking at it. -/
instance (owner target : Address) (w : World) (move : Move d) :
    Decidable (move.Without owner target w) :=
  inferInstanceAs (Decidable (_ ∧ _))

/-- The protocol of a repository stands still once a proposal has expired, unless its owner or the
target of the proposal makes a call. -/
theorem RepoState.Coherent.stuck {sender : Address} {now : Nat} {op : Op} {v v' : RepoState}
    (h : v.Coherent) (hpending : v.proposal.newOwner ≠ 0) (hexpired : v.proposal.expiresAt < now)
    (howner : sender ≠ v.owner) (htarget : sender ≠ v.proposal.newOwner)
    (hstep : RepoStep d r sender now op v v') : v' = v := by
  have hidle : v.pending.newOwner = 0 := h.exclusive.resolve_right hpending
  have hconfig : v.config.threshold ≠ 0 := h.proposal_configured hpending
  cases hstep with
  | idle => rfl
  | register _ _ habsent => exact absurd (h.absent habsent).2.2 hpending
  | importGuardians _ _ _ _ hnone _ => exact absurd hnone hconfig
  | beginTransfer _ hsender => exact absurd hsender howner
  | cancelTransfer htransfer => exact absurd hidle htransfer
  | expireTransfer htransfer => exact absurd hidle htransfer
  | acceptTransfer _ htransfer => exact absurd hidle htransfer
  | setGuardians _ hsender => exact absurd hsender howner
  | propose _ _ _ _ _ hnone => exact absurd hnone hpending
  | approve _ hopen => exact absurd hopen (Nat.not_le_of_lt hexpired)
  | cancelRecovery _ hsender => exact absurd hsender (not_or.mpr ⟨howner, htarget⟩)
  | executeRecovery _ _ hsender => exact absurd hsender htarget

/-- The same for a whole run without the two: the state of the repository stays as it is. -/
theorem Reachable.stuck {w' : World} (h : Reachable d w)
    (hpending : (w.suite.repoState r).proposal.newOwner ≠ 0)
    (hexpired : (w.suite.repoState r).proposal.expiresAt < w.now)
    (hrun : GuardedLeads d (Move.Without (w.suite.repoState r).owner
      (w.suite.repoState r).proposal.newOwner) w w') :
    w'.suite.repoState r = w.suite.repoState r ∧ w.now ≤ w'.now := by
  -- the run goes on from a state that looks like the first one, and later
  refine (reflTransGen_preserves (P := fun w'' => Reachable d w'' ∧
    w''.suite.repoState r = w.suite.repoState r ∧ w.now ≤ w''.now) ?_ hrun
    ⟨h, rfl, Nat.le_refl _⟩).2
  rintro before after ⟨move, ⟨howner, htarget⟩, hnext⟩ ⟨hreachable, hsame, hlater⟩
  refine ⟨hreachable.next hnext, ?_⟩
  cases (hreachable.effect hnext).repoMove r with
  | sponsor hstate hnow => exact ⟨hstate.trans hsame, hnow ▸ hlater⟩
  | quiet hstate hnow => exact ⟨hstate.trans hsame, hlater.trans hnow⟩
  | call hstep hnow =>
      rw [hsame] at hstep
      refine ⟨(h.coherent r).stuck hpending (by omega) ?_ ?_ hstep, hnow ▸ hlater⟩
      · exact fun heq => howner (congrArg some heq)
      · exact fun heq => htarget (congrArg some heq)

/-- Once a proposal has expired, no run without its target and the current owner ends with another
proposal: the expired one is still there, and still expired. -/
theorem expired_proposal_stays {w' : World} (h : Reachable d w)
    (hpending : (w.suite.recovery.proposals r).newOwner ≠ 0)
    (hexpired : (w.suite.recovery.proposals r).expiresAt < w.now)
    (hrun : GuardedLeads d (Move.Without (w.suite.core.repositories r).owner
      (w.suite.recovery.proposals r).newOwner) w w') :
    w'.suite.recovery.proposals r = w.suite.recovery.proposals r ∧
      (w'.suite.recovery.proposals r).expiresAt < w'.now := by
  obtain ⟨hstate, hlater⟩ := h.stuck hpending hexpired hrun
  have hproposal : w'.suite.recovery.proposals r = w.suite.recovery.proposals r :=
    congrArg RepoState.proposal hstate
  rw [hproposal]
  exact ⟨rfl, hexpired.trans_le hlater⟩

namespace Sample

/-- The window of `bob`'s proposal of `dave` has passed. -/
def expired : World := genesis.run
  [callAfter 1 alice (.core (.createRepository projectName [] [])),
   callAfter 1 alice (.recovery (.setGuardians project [bob.address, carol.address] 2)),
   callAfter 1 bob (.recovery (.proposeRecovery project dave.address)),
   callAfter (recoveryDelay + recoveryWindow + 1) alice
     (.core (.createRepository [0x63] [] []))]

theorem expired_reachable : Reachable deployment expired := genesis_reachable _

/-- What the two guardians may try. -/
def guardiansTry : List (Move deployment) :=
  [.call carol (.recovery (.approveRecovery project)),
   .call bob (.recovery (.cancelRecovery project)),
   .call carol (.core (.expireOwnershipTransfer project)),
   .wait recoveryDelay,
   .call carol (.recovery (.proposeRecovery project mallory.address))]

/-- Neither `alice` nor `dave` takes part in that. -/
theorem guardiansTry_without :
    GuardedLeads deployment (Move.Without (expired.suite.core.repositories project).owner
      (expired.suite.recovery.proposals project).newOwner) expired
      (expired.follow guardiansTry) :=
  World.follow_guarded (by decide +kernel)

/-- The guardians' attempts leave the expired proposal of `dave` in place. -/
theorem guardiansTry_stays :
    (expired.suite.recovery.proposals project).newOwner = dave.address ∧
      (expired.follow guardiansTry).suite.recovery.proposals project =
        expired.suite.recovery.proposals project ∧
      ((expired.follow guardiansTry).suite.recovery.proposals project).expiresAt <
        (expired.follow guardiansTry).now := by
  have hdave : (expired.suite.recovery.proposals project).newOwner = dave.address := by
    decide +kernel
  have hexpired : (expired.suite.recovery.proposals project).expiresAt < expired.now := by
    decide +kernel
  refine ⟨hdave, expired_proposal_stays expired_reachable ?_ hexpired guardiansTry_without⟩
  rw [hdave]
  decide

/-- How the suite answers the calls with which a guardian could replace the expired proposal. -/
def answers (guardian : Address) : List (Option Revert) :=
  [refusal (expired.suite.proposeRecovery ⟨guardian, expired.now⟩ project mallory.address),
   refusal (expired.suite.approveRecovery ⟨guardian, expired.now⟩ project),
   refusal (expired.suite.cancelRecovery ⟨guardian, expired.now⟩ project),
   refusal (expired.suite.executeRecovery deployment ⟨guardian, expired.now⟩ project),
   refusal (expired.suite.setGuardians ⟨guardian, expired.now⟩ project [carol.address] 1)]

/-- In an active suite, with an expired proposal of `dave`, the guardians of the repository are
refused a new one, and everything that could remove the old one. -/
theorem expired_proposal_blocks_guardians :
    Reachable deployment expired ∧ expired.suite.IsActive ∧
      (expired.suite.recovery.proposals project).newOwner = dave.address ∧
      (expired.suite.recovery.proposals project).expiresAt < expired.now ∧
      (expired.suite.recovery.configs project).guardians = [bob.address, carol.address] ∧
      answers bob.address = [some (.recoveryAlreadyPending project),
        some (.recoveryExpired (expired.suite.recovery.proposals project).expiresAt),
        some (.unauthorized bob.address), some (.unauthorized bob.address),
        some (.unauthorized bob.address)] ∧
      answers carol.address = [some (.recoveryAlreadyPending project),
        some (.recoveryExpired (expired.suite.recovery.proposals project).expiresAt),
        some (.unauthorized carol.address), some (.unauthorized carol.address),
        some (.unauthorized carol.address)] :=
  ⟨expired_reachable, by decide +kernel⟩

end Sample

end Igit
