import Igit.Specs.Stores

/-!
# The functions of the economic, username, badge and release modules

What a successful call of one of these modules found and what it leaves behind. None of them calls
another module back, except for reading the repository and its status.
-/

namespace Igit

open Fallible

namespace Username

variable (keccak : Keccak) (u : Username)

/-- The username state after `_register`. -/
def registered (name : Bytes) (owner : Address) (now : Nat) : Username :=
  { u with
    records := Function.update u.records (keccak.ofBytes name) ⟨owner, now⟩
    names := Function.update u.names (keccak.ofBytes name) name
    reverse := Function.update u.reverse owner name }

/-- The username state after `releaseUsername`. -/
def released (owner : Address) : Username :=
  { u with
    records := Function.update u.records (keccak.ofBytes (u.reverse owner)) default
    names := Function.update u.names (keccak.ofBytes (u.reverse owner)) []
    reverse := Function.update u.reverse owner [] }

/-- The username state after a name was reserved or freed, with the new count. -/
def marked (name : Bytes) (reserved : Bool) (count : Nat) : Username :=
  { u with
    reservedUsernameCount := count
    reserved := Function.update u.reserved (keccak.ofBytes name) reserved }

/-- A name that is free for `owner`: valid, not reserved, not taken, and not kept for another. -/
structure FreeFor (name : Bytes) (owner : Address) (now : Nat) : Prop where
  valid : validUsername name = true
  unreserved : u.reserved (keccak.ofBytes name) = false
  free : (u.records (keccak.ofBytes name)).owner = 0
  unnamed : u.reverse owner = []
  original : u.snapshotOriginalOwner (keccak.ofBytes name) ≠ 0 →
    now ≤ u.originalOwnerClaimDeadline → u.snapshotOriginalOwner (keccak.ofBytes name) = owner

/-- How the count of reserved names follows the flag of one name. -/
inductive Recount (key : Bytes32) : Bool → Nat → Prop where
  | same {reserved : Bool} (h : u.reserved key = reserved) :
      Recount key reserved u.reservedUsernameCount
  | more (h : u.reserved key = false) (hroom : u.reservedUsernameCount < maxReservedUsernames) :
      Recount key true (u.reservedUsernameCount + 1)
  | fewer {count : Nat} (h : u.reserved key = true) (hcount : u.reservedUsernameCount = count + 1) :
      Recount key false count

end Username

/-- The badge state after `awardBadge`. -/
def Badges.awarded (b : Badges) (badge : Badge) : Badges where
  nextBadgeId := b.nextBadgeId + 1
  badges := Function.update b.badges badge.id badge
  recipientBadgeIds := Function.update b.recipientBadgeIds badge.recipient
    (b.recipientBadgeIds badge.recipient ++ [badge.id])
  repoBadgeIds := Function.update b.repoBadgeIds badge.repoId (b.repoBadgeIds badge.repoId ++ [badge.id])

namespace Suite

variable {d : Deployment} {s s' : Suite} {msg : Message} {repoId : Bytes32}

/-! ## EconomicModule -/

/-- An owner stores any valid table in an active suite. -/
theorem setRevenueSplits_ok {repoId : Bytes32} {recipients : List Address} {bps : List Nat} :
    Returns (s.setRevenueSplits msg repoId recipients bps) fun s' =>
      ∃ splits, s.IsActive ∧ (s.core.repositories repoId).present = true ∧
        ValidSplits (s.core.repositories repoId).owner splits ∧
        s' = s.setEconomic (s.economic.setSplits repoId splits) := by
  intro s' h
  simp only [setRevenueSplits, bind_eq_ok, onlyActiveSuite_eq_ok, repository_eq_ok, revertIf_eq_ok,
    exists_unit, pure_eq_ok, not_or, not_not, Nat.not_lt, gt_iff_lt] at h
  obtain ⟨hactive, _, ⟨-, hpresent, rfl⟩, -, ⟨hlengths, hlength⟩, added, hadded, rfl⟩ := h
  obtain ⟨hfit, hsum⟩ := (foldlM_eq_ok fun _ _ _ => addSplit_eq_ok).mp hadded
  have hsplits : added.1 = List.zipWith Split.mk recipients bps := by
    rw [hsum, foldl_withSplit]
    rfl
  refine ⟨List.zipWith Split.mk recipients bps, hactive, hpresent, ?_, by rw [hsplits]⟩
  refine validSplits_iff.mpr ⟨?_, hfit⟩
  rw [List.length_zipWith]
  omega

theorem setFeeConfig_ok {treasury : Address} {bps : Nat}
    (h : s.setFeeConfig d msg treasury bps = .ok s') :
    s' = s.setEconomic { s.economic with treasury := treasury, platformFeeBps := bps } := by
  simp only [setFeeConfig, bind_eq_ok, revertIf_eq_ok, exists_unit, pure_eq_ok] at h
  obtain ⟨-, -, -, -, rfl⟩ := h
  rfl

/-- A `sponsor` call that opens records its value and takes the lock. -/
theorem openSponsor_ok {repoId : Bytes32} {message : Bytes} {value : Nat} :
    Returns (s.openSponsor d repoId message value) fun opened =>
      value ≠ 0 ∧ value ≤ uint256Max ∧ ∃ fee distributable,
        fee = value * s.economic.platformFeeBps / bpsDenominator ∧ fee + distributable = value ∧
        (s.core.repositories repoId).present = true ∧
        opened = (s.setEconomic (({ s.economic with settlementLock := 2 } : Economic).withTotal
            d.keccak repoId injDenom value),
          ⟨repoId, (s.core.repositories repoId).owner, s.economic.treasury, fee, distributable⟩) := by
  intro opened h
  simp only [openSponsor, bind_eq_ok, onlyActiveSuite_eq_ok, repository_eq_ok, revertIf_eq_ok,
    exists_unit, pure_eq_ok, Economic.addTotal_eq_ok, checkedMul_eq_ok, checkedSub_eq_ok] at h
  obtain ⟨-, -, hvalue, -, _, ⟨-, hpresent, rfl⟩, _, -, -, recorded, ⟨htotal, rfl⟩, _, ⟨-, rfl⟩, _,
    ⟨hfee, rfl⟩, rfl⟩ := h
  have hbps : (({ s.economic with settlementLock := 2 } : Economic).withTotal d.keccak repoId
      injDenom value).platformFeeBps = s.economic.platformFeeBps := by
    unfold Economic.withTotal Economic.withDenom
    split <;> rfl
  have htreasury : (({ s.economic with settlementLock := 2 } : Economic).withTotal d.keccak repoId
      injDenom value).treasury = s.economic.treasury := by
    unfold Economic.withTotal Economic.withDenom
    split <;> rfl
  rw [hbps] at hfee
  refine ⟨hvalue, (Nat.le_add_left _ _).trans htotal, _, _, rfl, Nat.add_sub_cancel' hfee, hpresent, ?_⟩
  rw [hbps, htreasury]

/-- A `sponsor` call opens in an active suite, for a repository that is not frozen. -/
theorem openSponsor_not_frozen {message : Bytes} {value : Nat} :
    Returns (s.openSponsor d repoId message value) fun _ =>
      s.IsActive ∧ s.moderation.statuses repoId ≠ .frozen := by
  intro opened h
  simp only [openSponsor, requireEconomicAction, requireNotFrozen, bind_eq_ok, onlyActiveSuite_eq_ok,
    repository_eq_ok, revertIf_eq_ok, exists_unit, pure_eq_ok] at h
  obtain ⟨hactive, -, -, -, _, -, _, -, ⟨_, -, hfrozen⟩, -⟩ := h
  exact ⟨hactive, hfrozen⟩

/-! ## UsernameModule -/

/-- `registerUsername` gives a free name to the sender. -/
theorem registerUsername_ok {name : Bytes} (h : s.registerUsername d msg name = .ok s') :
    s.username.FreeFor d.keccak name msg.sender msg.timestamp ∧
      s' = s.setUsername (s.username.registered d.keccak name msg.sender msg.timestamp) := by
  simp only [registerUsername, register, bind_eq_ok, validateAndHash_eq_ok, revertIf_eq_ok,
    now64_eq_ok, exists_unit, pure_eq_ok, not_not, not_and, Bool.not_eq_true,
    List.length_eq_zero_iff] at h
  obtain ⟨-, _, ⟨hvalid, rfl⟩, hreserved, hfree, hunnamed, horiginal, _, ⟨-, rfl⟩, rfl⟩ := h
  exact ⟨⟨hvalid, hreserved, hfree, hunnamed, horiginal⟩, rfl⟩

theorem claimOriginalUsername_ok {name : Bytes} (h : s.claimOriginalUsername d msg name = .ok s') :
    s.username.FreeFor d.keccak name msg.sender msg.timestamp ∧
      s' = s.setUsername (s.username.registered d.keccak name msg.sender msg.timestamp) := by
  simp only [claimOriginalUsername, register, bind_eq_ok, validateAndHash_eq_ok, revertIf_eq_ok,
    now64_eq_ok, exists_unit, pure_eq_ok, not_not, not_or, Bool.not_eq_true,
    List.length_eq_zero_iff] at h
  obtain ⟨-, _, ⟨hvalid, rfl⟩, -, ⟨-, hsender⟩, hreserved, hfree, hunnamed, _, ⟨-, rfl⟩, rfl⟩ := h
  exact ⟨⟨hvalid, hreserved, hfree, hunnamed, fun _ _ => hsender⟩, rfl⟩

/-- `releaseUsername` frees the name of a sender that has one. -/
theorem releaseUsername_ok (h : s.releaseUsername d msg = .ok s') :
    s.username.reverse msg.sender ≠ [] ∧
      s' = s.setUsername (s.username.released d.keccak msg.sender) := by
  simp only [releaseUsername, bind_eq_ok, revertIf_eq_ok, exists_unit, pure_eq_ok,
    List.length_eq_zero_iff] at h
  obtain ⟨-, hnamed, rfl⟩ := h
  exact ⟨hnamed, rfl⟩

/-- `setReserved` marks a name nobody has, or unmarks one, and counts the marks. -/
theorem setReserved_ok {name : Bytes} {reserved : Bool}
    (h : s.setReserved d msg name reserved = .ok s') :
    validUsername name = true ∧
      (reserved = true → (s.username.records (d.keccak.ofBytes name)).owner = 0) ∧
      ∃ count, s.username.Recount (d.keccak.ofBytes name) reserved count ∧
        s' = s.setUsername (s.username.marked d.keccak name reserved count) := by
  simp only [setReserved, bind_eq_ok, validateAndHash_eq_ok, revertIf_eq_ok, exists_unit, not_and,
    not_not] at h
  obtain ⟨-, -, _, ⟨hvalid, rfl⟩, hfree, h⟩ := h
  refine ⟨hvalid, hfree, ?_⟩
  by_cases hsame : reserved = s.username.reserved (d.keccak.ofBytes name)
  · simp only [if_pos hsame, bind_eq_ok, pure_eq_ok] at h
    obtain ⟨_, rfl, rfl⟩ := h
    exact ⟨_, .same hsame.symm, rfl⟩
  · rw [if_neg hsame] at h
    cases reserved with
    | true =>
        simp only [if_true, bind_eq_ok, revertIf_eq_ok, exists_unit, pure_eq_ok, Nat.not_le,
          ge_iff_le] at h
        obtain ⟨hroom, _, rfl, rfl⟩ := h
        exact ⟨_, .more (by simpa using Ne.symm hsame) hroom, rfl⟩
    | false =>
        simp only [Bool.false_eq_true, if_false, bind_eq_ok, checkedSub_eq_ok, pure_eq_ok] at h
        obtain ⟨_, ⟨hpositive, rfl⟩, rfl⟩ := h
        exact ⟨_, .fewer (by simpa using Ne.symm hsame) (by omega), rfl⟩

/-! ## BadgeModule and ReleaseModule -/

/-- `awardBadge` files a badge of an active repository under the next number. -/
theorem awardBadge_ok {recipient : Address} {reason : Bytes} {result : Suite × Nat}
    (h : s.awardBadge msg repoId recipient reason = .ok result) :
    (s.core.repositories repoId).present = true ∧ s.moderation.statuses repoId = .active ∧
      result.1 = s.setBadges (s.badges.awarded
        ⟨s.badges.nextBadgeId, repoId, recipient, msg.sender, reason, msg.timestamp, true⟩) := by
  simp only [awardBadge, requireBadgeAward, requireActiveRepository, bind_eq_ok, repository_eq_ok,
    revertIf_eq_ok, now64_eq_ok, exists_unit, pure_eq_ok, not_not] at h
  obtain ⟨-, _, ⟨-, hpresent, rfl⟩, -, _, -, ⟨_, -, hstatus⟩, -, -, -, -, _, ⟨-, rfl⟩, rfl⟩ := h
  exact ⟨hpresent, hstatus, rfl⟩

/-- `registerArtifact` stores an artifact that is not there yet. -/
theorem registerArtifact_ok {version platform : Bytes} {digest : Bytes32}
    (h : s.registerArtifact d msg version platform digest = .ok s') :
    (s.releases.artifacts (Releases.artifactKey d.keccak version platform)).present = false ∧
      s' = s.setReleases (s.releases.withArtifact d.keccak
        ⟨version, platform, digest, msg.sender, msg.timestamp, true⟩) := by
  simp only [registerArtifact, storeArtifact, bind_eq_ok, revertIf_eq_ok, now64_eq_ok, exists_unit,
    pure_eq_ok, Bool.not_eq_true] at h
  obtain ⟨-, -, -, -, -, _, ⟨-, rfl⟩, hnew, rfl⟩ := h
  exact ⟨hnew, rfl⟩

end Suite

end Igit
