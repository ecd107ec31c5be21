import Igit.Contracts.Hooks

/-!
# UsernameModule, BadgeModule and ReleaseModule

The three modules that no other module calls: `contracts/evm-v2/src/modules/UsernameModule.sol`,
`BadgeModule.sol` and `ReleaseModule.sol`.
-/

namespace Igit

open Fallible

/-! ## UsernameModule -/

def originalOwnerClaimWindow : Nat := 90 * days
def maxUsernameLength : Nat := 32
def maxReservedUsernames : Nat := 128

/-- A lowercase letter, a digit or `-`. -/
def isUsernameByte (c : UInt8) : Bool :=
  (0x61 ≤ c && c ≤ 0x7a) || (0x30 ≤ c && c ≤ 0x39) || c == 0x2d

/-- The names `_validateAndHash` accepts: 3 to 32 bytes, no `-` at either end, not starting with
`inj1`. -/
def validUsername (name : Bytes) : Bool :=
  3 ≤ name.length && name.length ≤ maxUsernameLength && name.head? != some 0x2d &&
    name.getLast? != some 0x2d && name.take 4 != [0x69, 0x6e, 0x6a, 0x31] &&
    name.all isUsernameByte

/-- `_validateAndHash`. -/
def validateAndHash (keccak : Keccak) (name : Bytes) : Except Revert Bytes32 := do
  revertIf (validUsername name = false) (.invalidUsername name)
  pure (keccak.ofBytes name)

namespace Suite

variable (d : Deployment) (s : Suite)

/-- Replace the storage of the username module. -/
def setUsername (username : Username) : Suite := { s with username := username }

/-- `_register`. -/
def register (msg : Message) (key : Bytes32) (name : Bytes) (owner : Address) :
    Except Revert Suite := do
  let now ← now64 msg
  pure (s.setUsername { s.username with
    records := Function.update s.username.records key ⟨owner, now⟩
    names := Function.update s.username.names key name
    reverse := Function.update s.username.reverse owner name })

/-- `registerUsername`. -/
def registerUsername (msg : Message) (name : Bytes) : Except Revert Suite := do
  s.onlyActiveSuite
  let key ← validateAndHash d.keccak name
  revertIf (s.username.reserved key = true) (.usernameReserved name)
  revertIf ((s.username.records key).owner ≠ 0) (.usernameUnavailable name)
  revertIf ((s.username.reverse msg.sender).length ≠ 0) (.addressAlreadyNamed msg.sender)
  let original := s.username.snapshotOriginalOwner key
  revertIf (original ≠ 0 ∧ msg.timestamp ≤ s.username.originalOwnerClaimDeadline ∧
    original ≠ msg.sender) (.usernameUnavailable name)
  s.register msg key name msg.sender

/-- `claimOriginalUsername`. -/
def claimOriginalUsername (msg : Message) (name : Bytes) : Except Revert Suite := do
  s.onlyActiveSuite
  let key ← validateAndHash d.keccak name
  revertIf (msg.timestamp > s.username.originalOwnerClaimDeadline)
    (.originalOwnerClaimExpired s.username.originalOwnerClaimDeadline)
  let expected := s.username.snapshotOriginalOwner key
  revertIf (expected = 0 ∨ expected ≠ msg.sender) (.originalOwnerMismatch expected msg.sender)
  revertIf (s.username.reserved key = true) (.usernameReserved name)
  revertIf ((s.username.records key).owner ≠ 0) (.usernameUnavailable name)
  revertIf ((s.username.reverse msg.sender).length ≠ 0) (.addressAlreadyNamed msg.sender)
  s.register msg key name msg.sender

/-- `releaseUsername`. -/
def releaseUsername (msg : Message) : Except Revert Suite := do
  s.onlyActiveSuite
  let name := s.username.reverse msg.sender
  revertIf (name.length = 0) (.usernameNotFound name)
  let key := d.keccak.ofBytes name
  pure (s.setUsername { s.username with
    records := Function.update s.username.records key default
    names := Function.update s.username.names key []
    reverse := Function.update s.username.reverse msg.sender [] })

/-- `setReserved`. -/
def setReserved (msg : Message) (name : Bytes) (reserved : Bool) : Except Revert Suite := do
  s.onlyActiveSuite
  revertIf (msg.sender ≠ d.policyAdmin) (.unauthorized msg.sender)
  let key ← validateAndHash d.keccak name
  revertIf (reserved = true ∧ (s.username.records key).owner ≠ 0) (.usernameUnavailable name)
  let count := s.username.reservedUsernameCount
  let newCount ← if reserved = s.username.reserved key then pure count
    else if reserved then do
      revertIf (count ≥ maxReservedUsernames)
        (.tooManyReservedUsernames (count + 1) maxReservedUsernames)
      pure (count + 1)
    else checkedSub count 1
  pure (s.setUsername { s.username with
    reservedUsernameCount := newCount
    reserved := Function.update s.username.reserved key reserved })

/-- One record of the original-owner import. -/
def storeOriginalOwner (imported : ImportOriginalOwner) : Except Revert Suite := do
  let key ← validateAndHash d.keccak imported.name
  revertIf (imported.owner = 0 ∨ s.username.snapshotOriginalOwner key ≠ 0) .invalidImportRecord
  pure (s.setUsername { s.username with
    snapshotOriginalOwner :=
      Function.update s.username.snapshotOriginalOwner key imported.owner })

/-- One record of the reserved-name import. -/
def storeReservedName (name : Bytes) : Except Revert Suite := do
  let key ← validateAndHash d.keccak name
  revertIf (s.username.reserved key = true ∨
    s.username.reservedUsernameCount ≥ maxReservedUsernames) .invalidImportRecord
  pure (s.setUsername { s.username with
    reserved := Function.update s.username.reserved key true
    reservedUsernameCount := s.username.reservedUsernameCount + 1 })

/-- `UsernameModule._beforeBootstrapFinalized`: open the claim window. -/
def openClaimWindow (msg : Message) : Except Revert Suite := do
  let deadline ← checkedAdd msg.timestamp originalOwnerClaimWindow
  revertIf (deadline > uint64Max) (.timestampOverflow deadline)
  pure (s.setUsername { s.username with originalOwnerClaimDeadline := deadline })

end Suite

/-! ## BadgeModule -/

def maxBadgeReasonLength : Nat := 256

namespace Suite

variable (s : Suite)

/-- Replace the storage of the badge module. -/
def setBadges (badges : Badges) : Suite := { s with badges := badges }

/-- `_storeBadge`. -/
def storeBadge (badge : Badge) : Suite :=
  s.setBadges { s.badges with
    badges := Function.update s.badges.badges badge.id badge
    recipientBadgeIds := Function.update s.badges.recipientBadgeIds badge.recipient
      (s.badges.recipientBadgeIds badge.recipient ++ [badge.id])
    repoBadgeIds := Function.update s.badges.repoBadgeIds badge.repoId
      (s.badges.repoBadgeIds badge.repoId ++ [badge.id]) }

/-- Replace the badge counter. -/
def setNextBadgeId (nextBadgeId : Nat) : Suite :=
  s.setBadges { s.badges with nextBadgeId := nextBadgeId }

/-- `awardBadge`. -/
def awardBadge (msg : Message) (repoId : Bytes32) (recipient : Address) (reason : Bytes) :
    Except Revert (Suite × Nat) := do
  s.onlyActiveSuite
  let repository ← s.repository repoId
  revertIf (msg.sender ≠ repository.owner) (.unauthorized msg.sender)
  let _moderation ← s.requireModule .moderation
  s.requireBadgeAward repoId
  revertIf (recipient = 0) (.invalidRecipient recipient)
  revertIf (recipient = repository.owner) (.ownerCannotReceiveBadge repository.owner)
  revertIf (reason.length = 0 ∨ reason.length > maxBadgeReasonLength)
    (.invalidReasonLength reason.length maxBadgeReasonLength)
  let badgeId := s.badges.nextBadgeId
  revertIf (badgeId ≥ uint256Max) (.panic 0x11)
  let now ← now64 msg
  pure ((s.setNextBadgeId (badgeId + 1)).storeBadge
    ⟨badgeId, repoId, recipient, msg.sender, reason, now, true⟩, badgeId)

/-- One record of the badge import. -/
def storeImportedBadge (badge : Badge) : Except Revert Suite := do
  revertIf (badge.id = 0 ∨ badge.present = false ∨ badge.recipient = 0 ∨ badge.awardedBy = 0 ∨
    badge.id = uint256Max ∨ badge.awardedAt = 0 ∨ (s.badges.badges badge.id).present = true ∨
    badge.recipient = badge.awardedBy) .invalidImportRecord
  let _repository ← s.repository badge.repoId
  revertIf (badge.reason.length = 0 ∨ badge.reason.length > maxBadgeReasonLength)
    .invalidImportRecord
  let stored := s.storeBadge badge
  pure (if badge.id ≥ stored.badges.nextBadgeId then stored.setNextBadgeId (badge.id + 1)
    else stored)

end Suite

/-! ## ReleaseModule -/

def maxVersionLength : Nat := 64
def maxPlatformLength : Nat := 64

/-- A letter, a digit, `.`, `-` or `_`. -/
def isTokenByte (c : UInt8) : Bool :=
  (0x61 ≤ c && c ≤ 0x7a) || (0x41 ≤ c && c ≤ 0x5a) || (0x30 ≤ c && c ≤ 0x39) ||
    c == 0x2e || c == 0x2d || c == 0x5f

/-- `_validateToken`, with the error of the token it checks. -/
def validateToken (value : Bytes) (maximum : Nat) (reason : Bytes → Revert) :
    Except Revert Unit :=
  revertIf (value.length = 0 ∨ value.length > maximum ∨ value.all isTokenByte = false)
    (reason value)

/-- `ReleaseModule._key`. -/
def Releases.artifactKey (keccak : Keccak) (version platform : Bytes) : Bytes32 :=
  keccak.hash (.artifact version platform)

namespace Suite

variable (d : Deployment) (s : Suite)

/-- Replace the storage of the release module. -/
def setReleases (releases : Releases) : Suite := { s with releases := releases }

/-- `_storeArtifact`. -/
def storeArtifact (artifact : Artifact) : Except Revert Suite := do
  let key := Releases.artifactKey d.keccak artifact.version artifact.platform
  revertIf ((s.releases.artifacts key).present = true)
    (.artifactAlreadyRegistered artifact.version artifact.platform)
  let versionHash := d.keccak.ofBytes artifact.version
  pure (s.setReleases {
    artifacts := Function.update s.releases.artifacts key artifact
    platformsByVersion := Function.update s.releases.platformsByVersion versionHash
      (s.releases.platformsByVersion versionHash ++ [artifact.platform]) })

/-- `registerArtifact`. -/
def registerArtifact (msg : Message) (version platform : Bytes) (digest : Bytes32) :
    Except Revert Suite := do
  s.onlyActiveSuite
  revertIf (msg.sender ≠ d.releaseAuthority) (.unauthorized msg.sender)
  validateToken version maxVersionLength .invalidVersion
  validateToken platform maxPlatformLength .invalidPlatform
  revertIf (digest = 0) .invalidSHA256
  let now ← now64 msg
  s.storeArtifact d ⟨version, platform, digest, msg.sender, now, true⟩

/-- One record of the artifact import. -/
def storeImportedArtifact (artifact : Artifact) : Except Revert Suite := do
  revertIf (artifact.present = false ∨ artifact.sha256 = 0 ∨ artifact.registeredBy = 0 ∨
    artifact.registeredAt = 0) .invalidImportRecord
  validateToken artifact.version maxVersionLength .invalidVersion
  validateToken artifact.platform maxPlatformLength .invalidPlatform
  s.storeArtifact d artifact

end Suite

end Igit
