import Igit.Specs.Moderation
import Igit.Specs.Refs
import Igit.Specs.Registries

/-!
# What a call does

`Suite.Effect` lists, for every function of the seven modules, the suite a successful call of an
outside account leaves behind, with the guards that later modules need. `call_effect` says that a
call of an active suite does one of these. What a call leaves alone, and which invariants it keeps,
is then read off the list without looking at the functions again.
-/

namespace Igit

open Fallible

/-- What `setCollaborator` does to the core. -/
inductive Core.RoleChange (c : Core) (repoId : Bytes32) (account : Address) : Core → Prop where
  | keep : RoleChange c repoId account c
  | grant {role : Role} (hrole : role ≠ .none) (hnew : c.roles repoId account = .none)
      (hroom : (c.collaborators repoId).length < maxCollaboratorsPerRepo) :
      RoleChange c repoId account ((c.pushCollaborator repoId account).setRole repoId account role)
  | regrade {role : Role} (hrole : role ≠ .none) (hold : c.roles repoId account ≠ .none) :
      RoleChange c repoId account (c.setRole repoId account role)
  | revoke {c' : Core} (hold : c.roles repoId account ≠ .none)
      (hremoved : c.removeCollaborator repoId account = .ok c') : RoleChange c repoId account c'

namespace Suite

section Forks

variable (d : Deployment) (s : Suite)

/-- The record of a new repository of `sender`. -/
def newRepository (sender : Address) (name description defaultBranch : Bytes) (forkedFrom : Bytes32)
    (now : Nat) : ImportRepository :=
  ⟨d.repositoryId sender name, sender, name, description, defaultBranch, forkedFrom, now, now⟩

/-- The record of a fork of `source`. -/
def newFork (sender : Address) (source : Bytes32) (name : Bytes) (now : Nat) : ImportRepository :=
  newRepository d sender name (s.core.repositories source).description
    (s.core.repositories source).defaultBranch source now

/-- The core after a fork of `source`: the new repository with a copy of every ref. -/
def forkedCore (sender : Address) (source : Bytes32) (name : Bytes) (now : Nat) : Core :=
  (s.core.refNames source).foldl (copyRef d source (d.repositoryId sender name) now sender)
    (s.core.registered d (newFork d s sender source name now))

end Forks

/-- What a successful call does. -/
inductive Effect (d : Deployment) (s : Suite) (sender : Address) (now : Nat) : Op → Suite → Prop where
  | createRepository {name description defaultBranch branch : Bytes}
      (hcan : s.core.CanRegister d (newRepository d sender name description branch 0 now)) :
      Effect d s sender now (.core (.createRepository name description defaultBranch))
        (s.setCore (s.core.registered d (newRepository d sender name description branch 0 now)))
  | forkRepository {source : Bytes32} {name : Bytes}
      (hpresent : (s.core.repositories source).present = true)
      (hstatus : s.moderation.statuses source = .active)
      (hcan : s.core.CanRegister d (newFork d s sender source name now))
      (hsize : (s.core.refNames source).length ≤ maxForkRefs) :
      Effect d s sender now (.core (.forkRepository source name))
        (s.setCore (forkedCore d s sender source name now))
  | updateMetadata {repoId : Bytes32} {setDescription setBranch : Bool} {description branch : Bytes}
      (newDescription newBranch : Bytes) (hpresent : (s.core.repositories repoId).present = true) :
      Effect d s sender now (.core (.updateMetadata repoId setDescription description setBranch branch))
        (s.setCore (s.core.setRepository repoId { s.core.repositories repoId with
          description := newDescription, defaultBranch := newBranch, updatedAt := now }))
  | updateRef {repoId : Bytes32} {refName commitSha expectedSha : Bytes} {packUris uris : List Bytes}
      {force : Bool} (hterms : s.PushTerms ⟨sender, now⟩ repoId refName commitSha packUris)
      (hroom : (s.gitRef d repoId refName).present = false →
        (s.core.refNames repoId).length < maxRefsPerRepo)
      (hmerge : mergePackUris d (s.gitRef d repoId refName).packUris packUris force = .ok uris) :
      Effect d s sender now
        (.core (.updateRef repoId refName commitSha packUris expectedSha force))
        (s.withRef d ⟨sender, now⟩ repoId refName commitSha uris)
  | deleteRef {repoId : Bytes32} {refName : Bytes}
      (hpresent : (s.gitRef d repoId refName).present = true)
      (hfrozen : s.moderation.statuses repoId ≠ .frozen) :
      Effect d s sender now (.core (.deleteRef repoId refName))
        (s.withoutRef d ⟨sender, now⟩ repoId refName)
  | setCollaborator {repoId : Bytes32} {account : Address} {role : Role} {c : Core}
      (hpresent : (s.core.repositories repoId).present = true)
      (hchange : s.core.RoleChange repoId account c)
      (howner : account ≠ (s.core.repositories repoId).owner) :
      Effect d s sender now (.core (.setCollaborator repoId account role)) (s.setCore c)
  | beginOwnershipTransfer {repoId : Bytes32} {newOwner : Address}
      (hpresent : (s.core.repositories repoId).present = true)
      (hsender : sender = (s.core.repositories repoId).owner) (hzero : newOwner ≠ 0)
      (howner : newOwner ≠ (s.core.repositories repoId).owner)
      (hidle : (s.core.pendingTransfers repoId).newOwner = 0)
      (hproposal : (s.recovery.proposals repoId).newOwner = 0)
      (hfree : s.core.locators (d.locator newOwner (s.core.repositories repoId).name) = 0)
      (hunreserved :
        s.core.reservedLocators (d.locator newOwner (s.core.repositories repoId).name) = 0)
      (hfits : now + ownershipTransferDelay + ownershipTransferWindow ≤ uint64Max) :
      Effect d s sender now (.core (.beginOwnershipTransfer repoId newOwner))
        (s.setCore (s.core.pended d repoId newOwner now))
  | cancelOwnershipTransfer {repoId : Bytes32}
      (hpending : (s.core.pendingTransfers repoId).newOwner ≠ 0)
      (hsender : sender = (s.core.repositories repoId).owner ∨
        sender = (s.core.pendingTransfers repoId).newOwner) :
      Effect d s sender now (.core (.cancelOwnershipTransfer repoId))
        (s.setCore (s.core.unpended d repoId))
  | expireOwnershipTransfer {repoId : Bytes32}
      (hpending : (s.core.pendingTransfers repoId).newOwner ≠ 0)
      (hexpired : (s.core.pendingTransfers repoId).expiresAt < now) :
      Effect d s sender now (.core (.expireOwnershipTransfer repoId))
        (s.setCore (s.core.unpended d repoId))
  | acceptOwnershipTransfer {repoId moved : Bytes32}
      (hpresent : (s.core.repositories repoId).present = true)
      (hpending : (s.core.pendingTransfers repoId).newOwner ≠ 0)
      (hsender : sender = (s.core.pendingTransfers repoId).newOwner)
      (hafter : (s.core.pendingTransfers repoId).executeAfter ≤ now)
      (hbefore : now ≤ (s.core.pendingTransfers repoId).expiresAt)
      (havailable : s.core.AvailableFor d repoId (s.core.pendingTransfers repoId).newOwner
        (s.core.repositories repoId).name)
      (hmove : s.core.CanMove repoId (s.core.repositories repoId).owner moved) :
      Effect d s sender now (.core (.acceptOwnershipTransfer repoId))
        (s.transferred d repoId (s.core.pendingTransfers repoId).newOwner moved)
  | setGuardians {repoId : Bytes32} {guardians : List Address} {threshold : Nat}
      (hpresent : (s.core.repositories repoId).present = true)
      (hsender : sender = (s.core.repositories repoId).owner)
      (hvalid : Recovery.ValidGuardians (s.core.repositories repoId).owner guardians threshold) :
      Effect d s sender now (.recovery (.setGuardians repoId guardians threshold))
        (s.setRecovery ((s.recovery.configured repoId (s.core.repositories repoId).owner guardians
          threshold).deleteProposal repoId))
  | proposeRecovery {repoId : Bytes32} {newOwner : Address}
      (hpresent : (s.core.repositories repoId).present = true)
      (hconfig : (s.recovery.configs repoId).threshold ≠ 0)
      (hguardian : s.recovery.isGuardian repoId sender = true) (hzero : newOwner ≠ 0)
      (howner : newOwner ≠ (s.core.repositories repoId).owner)
      (hidle : (s.recovery.proposals repoId).newOwner = 0)
      (htransfer : (s.core.pendingTransfers repoId).newOwner = 0)
      (hfits : now + recoveryDelay + recoveryWindow ≤ uint64Max) :
      Effect d s sender now (.recovery (.proposeRecovery repoId newOwner))
        (s.setRecovery (s.recovery.putProposal repoId
          (s.newProposal ⟨sender, now⟩ repoId newOwner)))
  | approveRecovery {repoId : Bytes32} (hpresent : (s.core.repositories repoId).present = true)
      (hpending : (s.recovery.proposals repoId).newOwner ≠ 0)
      (hopen : now ≤ (s.recovery.proposals repoId).expiresAt)
      (hguardian : s.recovery.isGuardian repoId sender = true)
      (hnew : s.recovery.approvals repoId (s.recovery.proposals repoId).nonce sender = false) :
      Effect d s sender now (.recovery (.approveRecovery repoId))
        (s.setRecovery (s.recovery.putApproval repoId sender))
  | cancelRecovery {repoId : Bytes32} (hpresent : (s.core.repositories repoId).present = true)
      (hpending : (s.recovery.proposals repoId).newOwner ≠ 0)
      (hsender : sender = (s.core.repositories repoId).owner ∨
        sender = (s.recovery.proposals repoId).newOwner) :
      Effect d s sender now (.recovery (.cancelRecovery repoId))
        (s.setRecovery (s.recovery.deleteProposal repoId))
  | executeRecovery {repoId moved : Bytes32}
      (hpresent : (s.core.repositories repoId).present = true)
      (hpending : (s.recovery.proposals repoId).newOwner ≠ 0)
      (hsender : sender = (s.recovery.proposals repoId).newOwner)
      (hafter : (s.recovery.proposals repoId).executeAfter ≤ now)
      (hbefore : now ≤ (s.recovery.proposals repoId).expiresAt)
      (hthreshold : (s.recovery.configs repoId).threshold ≤
        (s.recovery.proposals repoId).approvals)
      (howner : (s.recovery.proposals repoId).newOwner ≠ (s.core.repositories repoId).owner)
      (hidle : (s.core.pendingTransfers repoId).newOwner = 0)
      (havailable : s.core.AvailableFor d repoId (s.recovery.proposals repoId).newOwner
        (s.core.repositories repoId).name)
      (hmove : s.core.CanMove repoId (s.core.repositories repoId).owner moved) :
      Effect d s sender now (.recovery (.executeRecovery repoId))
        ((s.beforeRecovery repoId).transferred d repoId (s.recovery.proposals repoId).newOwner moved)
  | setCommittee {committee : Address} :
      Effect d s sender now (.moderation (.setCommittee committee))
        (s.setModeration { s.moderation with committee := committee })
  | setRepositoryStatus {repoId : Bytes32} {status : RepoStatus} {reasonHash : Bytes}
      (hpresent : (s.core.repositories repoId).present = true) :
      Effect d s sender now (.moderation (.setRepositoryStatus repoId status reasonHash))
        ((s.setModeration (s.moderation.recordStatus repoId
          ⟨status, sender, reasonHash, now, 0⟩)).touched repoId now)
  | submitReport {repoId : Bytes32} {reasonHash : Bytes}
      (hpresent : (s.core.repositories repoId).present = true) (hreason : ValidReason reasonHash) :
      Effect d s sender now (.moderation (.submitReport repoId reasonHash))
        (s.setModeration (s.moderation.submitted repoId sender reasonHash now))
  | resolveReport {reportId : Nat} {status : RepoStatus} {reasonHash : Bytes}
      (hpresent : (s.moderation.reports reportId).present = true)
      (hstatus : (s.moderation.reports reportId).status = .opened) (hreason : ValidReason reasonHash) :
      Effect d s sender now (.moderation (.resolveReport reportId status reasonHash))
        ((s.setModeration (s.moderation.decided .resolved .resolved reportId sender status reasonHash
          now)).touched (s.moderation.reports reportId).repoId now)
  | appealReport {reportId : Nat} {reasonHash : Bytes}
      (hpresent : (s.moderation.reports reportId).present = true)
      (hstatus : (s.moderation.reports reportId).status = .resolved)
      (hreason : ValidReason reasonHash) :
      Effect d s sender now (.moderation (.appealReport reportId reasonHash))
        ((s.setModeration (s.moderation.appealed reportId sender reasonHash now)).touched
          (s.moderation.reports reportId).repoId now)
  | resolveAppeal {reportId : Nat} {status : RepoStatus} {reasonHash : Bytes}
      (hpresent : (s.moderation.reports reportId).present = true)
      (hstatus : (s.moderation.reports reportId).status = .appealed)
      (hreason : ValidReason reasonHash) :
      Effect d s sender now (.moderation (.resolveAppeal reportId status reasonHash))
        ((s.setModeration (s.moderation.decided .appealResolved .appealResolved reportId sender status
          reasonHash now)).touched (s.moderation.reports reportId).repoId now)
  | setRevenueSplits {repoId : Bytes32} {recipients : List Address} {bps : List Nat}
      {splits : List Split} (hpresent : (s.core.repositories repoId).present = true)
      (hvalid : ValidSplits (s.core.repositories repoId).owner splits) :
      Effect d s sender now (.economic (.setRevenueSplits repoId recipients bps))
        (s.setEconomic (s.economic.setSplits repoId splits))
  | setFeeConfig {treasury : Address} {bps : Nat} :
      Effect d s sender now (.economic (.setFeeConfig treasury bps))
        (s.setEconomic { s.economic with treasury := treasury, platformFeeBps := bps })
  | registerUsername {name : Bytes} (hfree : s.username.FreeFor d.keccak name sender now) :
      Effect d s sender now (.registry (.registerUsername name))
        (s.setUsername (s.username.registered d.keccak name sender now))
  | claimOriginalUsername {name : Bytes} (hfree : s.username.FreeFor d.keccak name sender now) :
      Effect d s sender now (.registry (.claimOriginalUsername name))
        (s.setUsername (s.username.registered d.keccak name sender now))
  | releaseUsername (hnamed : s.username.reverse sender ≠ []) :
      Effect d s sender now (.registry .releaseUsername)
        (s.setUsername (s.username.released d.keccak sender))
  | setReserved {name : Bytes} {reserved : Bool} {count : Nat} (hvalid : validUsername name = true)
      (hfree : reserved = true → (s.username.records (d.keccak.ofBytes name)).owner = 0)
      (hcount : s.username.Recount (d.keccak.ofBytes name) reserved count) :
      Effect d s sender now (.registry (.setReserved name reserved))
        (s.setUsername (s.username.marked d.keccak name reserved count))
  | awardBadge {repoId : Bytes32} {recipient : Address} {reason : Bytes}
      (hpresent : (s.core.repositories repoId).present = true)
      (hstatus : s.moderation.statuses repoId = .active) :
      Effect d s sender now (.registry (.awardBadge repoId recipient reason))
        (s.setBadges (s.badges.awarded
          ⟨s.badges.nextBadgeId, repoId, recipient, sender, reason, now, true⟩))
  | registerArtifact {version platform : Bytes} {digest : Bytes32}
      (hnew : (s.releases.artifacts
        (Releases.artifactKey d.keccak version platform)).present = false) :
      Effect d s sender now (.registry (.registerArtifact version platform digest))
        (s.setReleases (s.releases.withArtifact d.keccak
          ⟨version, platform, digest, sender, now, true⟩))

variable {d : Deployment} {s s' : Suite} {msg : Message} {sender : Account d} {now : Nat}

/-! ## The functions of the core that are not specified elsewhere -/

/-- `createRepository` registers a repository that may be registered, on the branch asked for or on
the default one. -/
theorem createRepository_effect {name description defaultBranch : Bytes} {created : Suite × Bytes32}
    (h : s.createRepository d msg name description defaultBranch = .ok created) :
    ∃ branch, s.core.CanRegister d
        (newRepository d msg.sender name description branch 0 msg.timestamp) ∧
      created.1 = s.setCore (s.core.registered d
        (newRepository d msg.sender name description branch 0 msg.timestamp)) := by
  simp only [createRepository, bind_eq_ok, now64_eq_ok, pure_eq_ok] at h
  obtain ⟨_, -, _, -, _, -, _, -, _, -, _, -, _, ⟨-, rfl⟩, stored, hstored, rfl⟩ := h
  exact ⟨_, storeRepository_ok stored hstored⟩

/-- `forkRepository` registers a fork of an active repository, with its refs. -/
theorem forkRepository_effect {source : Bytes32} {name : Bytes} {forked : Suite × Bytes32}
    (h : s.forkRepository d msg source name = .ok forked) :
    (s.core.repositories source).present = true ∧ s.moderation.statuses source = .active ∧
      s.core.CanRegister d (newFork d s msg.sender source name msg.timestamp) ∧
      (s.core.refNames source).length ≤ maxForkRefs ∧
      forked.1 = s.setCore (forkedCore d s msg.sender source name msg.timestamp) := by
  simp only [forkRepository, requireFork, requireActiveRepository, bind_eq_ok,
    requireRepository_eq_ok, repository_eq_ok, revertIf_eq_ok, now64_eq_ok, exists_unit, pure_eq_ok,
    not_not, gt_iff_lt, Nat.not_lt] at h
  obtain ⟨-, _, ⟨hpresent, rfl⟩, _, -, ⟨_, -, hstatus⟩, hsize, -, -, -, _, ⟨-, rfl⟩, stored, hstored,
    rfl⟩ := h
  obtain ⟨hcan, rfl⟩ := storeRepository_ok stored hstored
  exact ⟨hpresent, hstatus, hcan, hsize, rfl⟩

/-- No ref of a frozen repository is deleted. -/
theorem deleteRef_not_frozen {repoId : Bytes32} {refName : Bytes}
    (h : s.deleteRef d msg repoId refName = .ok s') : s.moderation.statuses repoId ≠ .frozen := by
  simp only [deleteRef, bind_eq_ok, requireRefMutation_eq_ok, exists_unit] at h
  obtain ⟨-, _, -, -, _, -, ⟨-, -, hfrozen⟩, -⟩ := h
  exact hfrozen

/-- `setCollaborator` changes the role of one account that is not the owner. -/
theorem setCollaborator_ok {repoId : Bytes32} {account : Address} {role : Role}
    (h : s.setCollaborator msg repoId account role = .ok s') :
    (s.core.repositories repoId).present = true ∧ account ≠ (s.core.repositories repoId).owner ∧
      ∃ c, s.core.RoleChange repoId account c ∧ s' = s.setCore c := by
  simp only [setCollaborator, bind_eq_ok, onlyActiveSuite_eq_ok, requireRepository_eq_ok,
    revertIf_eq_ok, exists_unit, not_or] at h
  obtain ⟨-, _, ⟨hpresent, rfl⟩, -, ⟨-, howner⟩, h⟩ := h
  refine ⟨hpresent, howner, ?_⟩
  by_cases hnone : role = .none
  · by_cases hold : s.core.roles repoId account = .none
    · simp only [hnone, hold, ne_eq, not_true_eq_false, if_true, if_false, pure_eq_ok] at h
      exact ⟨_, .keep, h.symm⟩
    · simp only [hnone, hold, ne_eq, not_false_eq_true, if_true, bind_eq_ok, pure_eq_ok] at h
      obtain ⟨removed, hremoved, rfl⟩ := h
      exact ⟨_, .revoke hold hremoved, rfl⟩
  · by_cases hold : s.core.roles repoId account = .none
    · simp only [hnone, hold, if_true, if_false, bind_eq_ok, revertIf_eq_ok, exists_unit, pure_eq_ok,
        ge_iff_le, Nat.not_le] at h
      obtain ⟨hroom, rfl⟩ := h
      exact ⟨_, .grant hnone hold hroom, rfl⟩
    · simp only [hnone, hold, if_false, pure_eq_ok] at h
      exact ⟨_, .regrade hnone hold, h.symm⟩

/-! ## Every call -/

/-- What a successful call of the core does. -/
theorem callCore_effect (hregistered : s.Registered d) {op : CoreOp}
    (h : s.callCore d ⟨sender.address, now⟩ op = .ok s') :
    Effect d s sender.address now (.core op) s' := by
  cases op with
  | createRepository name description defaultBranch =>
      simp only [callCore, bind_eq_ok, pure_eq_ok] at h
      obtain ⟨created, hcreated, rfl⟩ := h
      obtain ⟨branch, hcan, hset⟩ := createRepository_effect hcreated
      rw [hset]
      exact .createRepository hcan
  | forkRepository source name =>
      simp only [callCore, bind_eq_ok, pure_eq_ok] at h
      obtain ⟨forked, hforked, rfl⟩ := h
      obtain ⟨hpresent, hstatus, hcan, hsize, hset⟩ := forkRepository_effect hforked
      rw [hset]
      exact .forkRepository hpresent hstatus hcan hsize
  | updateMetadata =>
      obtain ⟨-, hpresent, rfl⟩ := updateMetadata_ok s' h
      exact .updateMetadata _ _ hpresent
  | updateRef =>
      obtain ⟨hterms, -, hroom, uris, hmerge, rfl⟩ := updateRef_eq_ok.mp h
      exact .updateRef hterms hroom hmerge
  | deleteRef =>
      have hfrozen := deleteRef_not_frozen h
      obtain ⟨hpresent, rfl⟩ := deleteRef_ok h
      exact .deleteRef hpresent hfrozen
  | setCollaborator =>
      obtain ⟨hpresent, howner, c, hchange, rfl⟩ := setCollaborator_ok h
      exact .setCollaborator hpresent hchange howner
  | beginOwnershipTransfer =>
      obtain ⟨-, hpresent, hsender, hzero, howner, hidle, -, hproposal, hfree, hunreserved, hfits,
        rfl⟩ := begin_eq_ok.mp h
      exact .beginOwnershipTransfer hpresent hsender hzero howner hidle hproposal hfree hunreserved
        hfits
  | cancelOwnershipTransfer =>
      obtain ⟨-, -, hpending, hsender, rfl⟩ := cancel_eq_ok.mp h
      exact .cancelOwnershipTransfer hpending hsender
  | acceptOwnershipTransfer =>
      obtain ⟨-, hpresent, hpending, hsender, -, hafter, hbefore, havailable, moved, hmove, rfl⟩ :=
        (accept_eq_ok hregistered).mp h
      exact .acceptOwnershipTransfer hpresent hpending hsender hafter hbefore havailable hmove
  | expireOwnershipTransfer =>
      obtain ⟨-, -, hpending, -, hexpired, rfl⟩ := expire_eq_ok.mp h
      exact .expireOwnershipTransfer hpending hexpired
  | recoverOwnership => exact absurd h (recoverOwnership_outside hregistered)

/-- What a successful call of the recovery module does. -/
theorem callRecovery_effect (hregistered : s.Registered d) (hactive : s.IsActive) {op : RecoveryOp}
    (h : s.callRecovery d ⟨sender.address, now⟩ op = .ok s') :
    Effect d s sender.address now (.recovery op) s' := by
  cases op with
  | setGuardians =>
      obtain ⟨-, hpresent, hsender, hvalid, rfl⟩ := setGuardians_ok h
      exact .setGuardians hpresent hsender hvalid
  | proposeRecovery =>
      obtain ⟨-, hpresent, hconfig, hguardian, hzero, howner, hidle, htransfer, hfits, rfl⟩ :=
        proposeRecovery_ok h
      exact .proposeRecovery hpresent hconfig hguardian hzero howner hidle htransfer hfits
  | approveRecovery =>
      obtain ⟨-, hpresent, hpending, hopen, hguardian, hnew, rfl⟩ := approveRecovery_ok h
      exact .approveRecovery hpresent hpending hopen hguardian hnew
  | cancelRecovery =>
      obtain ⟨-, -, hpresent, hpending, hsender, rfl⟩ := (cancelRecovery_outside_eq_ok
        (hregistered.account_ne hactive sender .core)
        (hregistered.account_ne hactive sender .economic)).mp h
      exact .cancelRecovery hpresent hpending hsender
  | executeRecovery =>
      obtain ⟨-, hpresent, -, -, hpending, hsender, -, hafter, hbefore, hthreshold, howner, hidle,
        havailable, moved, hmove, rfl⟩ := (executeRecovery_eq_ok hregistered).mp h
      exact .executeRecovery hpresent hpending hsender hafter hbefore hthreshold howner hidle
        havailable hmove

/-- What a successful call of the moderation module does. -/
theorem callModeration_effect {op : ModerationOp}
    (h : s.callModeration d ⟨sender.address, now⟩ op = .ok s') :
    Effect d s sender.address now (.moderation op) s' := by
  cases op with
  | setCommittee =>
      obtain ⟨-, rfl⟩ := setCommittee_ok h
      exact .setCommittee
  | setRepositoryStatus =>
      obtain ⟨-, hpresent, rfl⟩ := setRepositoryStatus_ok h
      exact .setRepositoryStatus hpresent
  | submitReport =>
      simp only [callModeration, bind_eq_ok, pure_eq_ok] at h
      obtain ⟨submitted, hsubmitted, rfl⟩ := h
      obtain ⟨hpresent, hreason, hset⟩ := submitReport_ok hsubmitted
      rw [hset]
      exact .submitReport hpresent hreason
  | resolveReport =>
      obtain ⟨-, hpresent, hstatus, hreason, rfl⟩ := decideReport_ok h
      exact .resolveReport hpresent hstatus hreason
  | appealReport =>
      obtain ⟨hpresent, hstatus, -, -, hreason, rfl⟩ := appealReport_ok h
      exact .appealReport hpresent hstatus hreason
  | resolveAppeal =>
      obtain ⟨-, hpresent, hstatus, hreason, rfl⟩ := decideReport_ok h
      exact .resolveAppeal hpresent hstatus hreason

/-- What a successful call of the economic module does. -/
theorem callEconomic_effect (hregistered : s.Registered d) {op : EconomicOp}
    (h : s.callEconomic d ⟨sender.address, now⟩ op = .ok s') :
    Effect d s sender.address now (.economic op) s' := by
  cases op with
  | setRevenueSplits =>
      obtain ⟨splits, -, hpresent, hvalid, rfl⟩ := setRevenueSplits_ok s' h
      exact .setRevenueSplits hpresent hvalid
  | setFeeConfig =>
      rw [setFeeConfig_ok h]
      exact .setFeeConfig
  | clearRevenueSplitsOnOwnershipTransfer =>
      exact absurd h (clearRevenueSplits_outside
        fun hactive => hregistered.account_ne hactive sender .core)

/-- What a successful call of the registries does. -/
theorem callRegistry_effect {op : RegistryOp}
    (h : s.callRegistry d ⟨sender.address, now⟩ op = .ok s') :
    Effect d s sender.address now (.registry op) s' := by
  cases op with
  | registerUsername =>
      obtain ⟨hfree, rfl⟩ := registerUsername_ok h
      exact .registerUsername hfree
  | claimOriginalUsername =>
      obtain ⟨hfree, rfl⟩ := claimOriginalUsername_ok h
      exact .claimOriginalUsername hfree
  | releaseUsername =>
      obtain ⟨hnamed, rfl⟩ := releaseUsername_ok h
      exact .releaseUsername hnamed
  | setReserved =>
      obtain ⟨hvalid, hfree, count, hcount, rfl⟩ := setReserved_ok h
      exact .setReserved hvalid hfree hcount
  | awardBadge =>
      simp only [callRegistry, bind_eq_ok, pure_eq_ok] at h
      obtain ⟨awarded, hawarded, rfl⟩ := h
      obtain ⟨hpresent, hstatus, hset⟩ := awardBadge_ok hawarded
      rw [hset]
      exact .awardBadge hpresent hstatus
  | registerArtifact =>
      obtain ⟨hnew, rfl⟩ := registerArtifact_ok h
      exact .registerArtifact hnew

/-- No call of a module reaches the directory. -/
theorem Effect.directory {sender : Address} {op : Op} (h : Effect d s sender now op s') :
    s'.directory = s.directory := by
  cases h <;> rfl

/-- A call of an active suite has one of the effects listed. -/
theorem call_effect (hregistered : s.Registered d) (hactive : s.IsActive) {op : Op}
    (hop : ∀ bootstrap, op ≠ .bootstrap bootstrap)
    (h : s.call d ⟨sender.address, now⟩ op = .ok s') : Effect d s sender.address now op s' := by
  cases op with
  | core op => exact callCore_effect hregistered h
  | recovery op => exact callRecovery_effect hregistered hactive h
  | moderation op => exact callModeration_effect h
  | economic op => exact callEconomic_effect hregistered h
  | registry op => exact callRegistry_effect h
  | bootstrap op => exact absurd rfl (hop op)

/-- Before activation only the bootstrap functions succeed. -/
theorem call_inactive (hinactive : ¬ s.IsActive) {op : Op} (h : s.call d msg op = .ok s') :
    ∃ bootstrap, op = .bootstrap bootstrap := by
  have hclosed : s.onlyActiveSuite = .error .suiteNotActive := revertIf_eq_error.mpr ⟨hinactive, rfl⟩
  cases op with
  | core op =>
      cases op <;> simp [call, callCore, createRepository, forkRepository, updateMetadata, updateRef,
        deleteRef, setCollaborator, beginOwnershipTransfer, cancelOwnershipTransfer,
        acceptOwnershipTransfer, expireOwnershipTransfer, recoverOwnership, hclosed, bind,
        Except.bind] at h
  | recovery op =>
      cases op <;> simp [call, callRecovery, setGuardians, proposeRecovery, approveRecovery,
        cancelRecovery, executeRecovery, hclosed, bind, Except.bind] at h
  | moderation op =>
      cases op <;> simp [call, callModeration, setCommittee, setRepositoryStatus, submitReport,
        resolveReport, resolveAppeal, decideReport, appealReport, hclosed, bind, Except.bind] at h
  | economic op =>
      cases op <;> simp [call, callEconomic, setRevenueSplits, setFeeConfig,
        clearRevenueSplitsOnOwnershipTransfer, hclosed, bind, Except.bind] at h
  | registry op =>
      cases op <;> simp [call, callRegistry, registerUsername, claimOriginalUsername, releaseUsername,
        setReserved, awardBadge, registerArtifact, hclosed, bind, Except.bind] at h
  | bootstrap op => exact ⟨op, rfl⟩

end Suite

end Igit
