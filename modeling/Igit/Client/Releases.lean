import Igit.Specs.Registries

/-!
# Registering a release

`RegisterRelease` of `cli/internal/chain/evm_suite_registry.go` sends one transaction for each
artifact, and the release module writes each artifact once. A run that stops halfway leaves what it
has registered, and then no run with the same list gets through. `registerRelease_allOrNothing_iff`
says which lists, states and fates of the transactions keep that from happening.

A transaction may be lost before or after it is mined. The artifacts' digests are decoded by a
parameter, which stands for `hex.DecodeString` of the trimmed lower-case text without `0x`.
-/

namespace Igit

open Fallible

namespace Client

/-! ## The client -/

/-- The fields of `ReleaseArtifact` that a registration reads. -/
structure ReleaseArtifact where
  platform : Bytes
  sha256 : Bytes
  deriving DecidableEq, Repr

/-- What becomes of a transaction: it is mined and answered, it is never sent, or it is mined and the
answer is lost. -/
inductive Fate where
  | mined
  | unsent
  | lost
  deriving DecidableEq, Repr

/-- One call of `send`, with the time of the block it would be mined in. -/
structure Send where
  fate : Fate
  timestamp : Nat
  timestamp_le : timestamp ≤ uint64Max

/-- The errors of `RegisterRelease`. -/
inductive ReleaseFailure where
  | invalidSHA256 (platform : Bytes)
  | reverted (reason : Revert)
  | transport
  deriving DecidableEq, Repr

/-- A failure because an artifact is invalid or registered already. -/
inductive ReleaseFailure.OfArtifact : ReleaseFailure → Prop where
  | digest (platform : Bytes) : OfArtifact (.invalidSHA256 platform)
  | version (version : Bytes) : OfArtifact (.reverted (.invalidVersion version))
  | platform (platform : Bytes) : OfArtifact (.reverted (.invalidPlatform platform))
  | zeroDigest : OfArtifact (.reverted .invalidSHA256)
  | registered (version platform : Bytes) :
      OfArtifact (.reverted (.artifactAlreadyRegistered version platform))

/-- Who registers releases at a deployment, and how digests are decoded. -/
structure ReleaseClient (d : Deployment) where
  sender : Address
  decode : Bytes → Option Bytes32

namespace ReleaseClient

variable {d : Deployment} (c : ReleaseClient d) (version : Bytes)

/-- `send` for `registerArtifact`. -/
def sendArtifact (platform : Bytes) (digest : Bytes32) (send : Send) (s : Suite) :
    Suite × Option ReleaseFailure :=
  match send.fate with
  | .unsent => (s, some .transport)
  | .lost =>
      match s.registerArtifact d ⟨c.sender, send.timestamp⟩ version platform digest with
      | .ok s' => (s', some .transport)
      | .error _ => (s, some .transport)
  | .mined =>
      match s.registerArtifact d ⟨c.sender, send.timestamp⟩ version platform digest with
      | .ok s' => (s', none)
      | .error reason => (s, some (.reverted reason))

/-- `RegisterRelease`, with the calls of `send` it makes in order. -/
def registerRelease : List ReleaseArtifact → (Nat → Send) → Suite → Suite × Option ReleaseFailure
  | [], _, s => (s, none)
  | artifact :: rest, sends, s =>
      match c.decode artifact.sha256 with
      | none => (s, some (.invalidSHA256 artifact.platform))
      | some digest =>
          match c.sendArtifact version artifact.platform digest (sends 0) s with
          | (s', some failure) => (s', some failure)
          | (s', none) => registerRelease rest (fun i => sends (i + 1)) s'

/-- A run with the list can still complete the release. -/
def Completes (artifacts : List ReleaseArtifact) (s : Suite) : Prop :=
  ∃ sends, (c.registerRelease version artifacts sends s).2 = none

/-! ## One artifact -/

/-- The release module has an artifact. -/
def HasArtifact (d : Deployment) (s : Suite) (version platform : Bytes) : Prop :=
  (s.releases.artifacts (Releases.artifactKey d.keccak version platform)).present = true

/-- What the release module asks of an artifact. -/
structure CanRegister (s : Suite) (platform : Bytes) (digest : Bytes32) : Prop where
  active : s.IsActive
  sender : c.sender = d.releaseAuthority
  version_valid : ValidToken version maxVersionLength
  platform_valid : ValidToken platform maxPlatformLength
  digest_ne_zero : digest ≠ 0
  absent : ¬ HasArtifact d s version platform

/-- Every artifact of a list can be registered, and none is named twice. -/
structure Registrable (artifacts : List ReleaseArtifact) (s : Suite) : Prop where
  each : ∀ artifact ∈ artifacts, ∃ digest, c.decode artifact.sha256 = some digest ∧
    c.CanRegister version s artifact.platform digest
  distinct : (artifacts.map ReleaseArtifact.platform).Nodup

/-- A run that fails for an artifact has registered nothing, and after any failure a list that could
be registered before can still be completed. -/
structure AllOrNothing (artifacts : List ReleaseArtifact) (sends : Nat → Send) (s : Suite) : Prop where
  nothing : ∀ failure, (c.registerRelease version artifacts sends s).2 = some failure →
    failure.OfArtifact → (c.registerRelease version artifacts sends s).1.releases = s.releases
  again : c.Registrable version artifacts s → (c.registerRelease version artifacts sends s).2 ≠ none →
    c.Completes version artifacts (c.registerRelease version artifacts sends s).1

/-- The suite with one more artifact. -/
def registered (s : Suite) (platform : Bytes) (digest : Bytes32) (timestamp : Nat) : Suite :=
  s.setReleases (s.releases.withArtifact d.keccak
    ⟨version, platform, digest, c.sender, timestamp, true⟩)

variable {c version} {s s' : Suite} {platform other : Bytes} {digest : Bytes32} {send : Send}
  {artifacts : List ReleaseArtifact} {sends : Nat → Send}

theorem registerArtifact_ok_iff : s.registerArtifact d ⟨c.sender, send.timestamp⟩ version platform
      digest = .ok s' ↔
    c.CanRegister version s platform digest ∧
      s' = c.registered version s platform digest send.timestamp := by
  simp only [Suite.registerArtifact, Suite.storeArtifact, bind_eq_ok, exists_unit, revertIf_eq_ok,
    now64_eq_ok, Suite.validateToken_eq_ok, Suite.onlyActiveSuite_eq_ok, pure_eq_ok, not_not]
  constructor
  · intro h
    obtain ⟨hactive, hsender, hversion, hplatform, hdigest, _, ⟨-, rfl⟩, habsent, rfl⟩ := h
    exact ⟨⟨hactive, hsender, hversion, hplatform, hdigest, habsent⟩, rfl⟩
  · intro h
    obtain ⟨hcan, rfl⟩ := h
    exact ⟨hcan.active, hcan.sender, hcan.version_valid, hcan.platform_valid, hcan.digest_ne_zero,
      send.timestamp, ⟨send.timestamp_le, rfl⟩, hcan.absent, rfl⟩

/-- The release authority of an active suite is refused only for an artifact. -/
theorem ofArtifact_of_error {reason : Revert} (hactive : s.IsActive)
    (hsender : c.sender = d.releaseAuthority)
    (h : s.registerArtifact d ⟨c.sender, send.timestamp⟩ version platform digest = .error reason) :
    (ReleaseFailure.reverted reason).OfArtifact := by
  have hnow : now64 ⟨c.sender, send.timestamp⟩ = .ok send.timestamp :=
    now64_eq_ok.mpr ⟨send.timestamp_le, rfl⟩
  simp only [Suite.registerArtifact, Suite.storeArtifact, validateToken, bind_eq_error, exists_unit,
    revertIf_eq_error] at h
  rcases h with h | ⟨-, ⟨h, -⟩ | ⟨-, ⟨-, rfl⟩ | ⟨-, ⟨-, rfl⟩ | ⟨-, ⟨-, rfl⟩ | ⟨-, h | h⟩⟩⟩⟩⟩
  · have hpass : s.onlyActiveSuite = .ok () := Suite.onlyActiveSuite_eq_ok.mpr hactive
    rw [hpass] at h
    cases h
  · exact absurd hsender h
  · exact .version version
  · exact .platform platform
  · exact .zeroDigest
  · rw [hnow] at h
    cases h
  · obtain ⟨_, -, ⟨-, rfl⟩ | ⟨-, h⟩⟩ := h
    · exact .registered version platform
    · cases h

/-- What is there after one more artifact. -/
theorem hasArtifact_registered {timestamp : Nat} :
    HasArtifact d (c.registered version s platform digest timestamp) version other ↔
      other = platform ∨ HasArtifact d s version other := by
  show (Function.update s.releases.artifacts (Releases.artifactKey d.keccak version platform) _
    (Releases.artifactKey d.keccak version other)).present = true ↔ _
  by_cases heq : other = platform
  · rw [heq, Function.update_self]
    simp
  · rw [Function.update_of_ne fun h => heq (Releases.artifactKey_inj.mp h).2]
    simp [heq, HasArtifact]

/-! ## A run -/

/-- How a run with an artifact goes on. -/
inductive Begun (c : ReleaseClient d) (version : Bytes) (artifact : ReleaseArtifact)
    (rest : List ReleaseArtifact) (sends : Nat → Send) (s : Suite) :
    Suite × Option ReleaseFailure → Prop where
  | undecoded (hdecode : c.decode artifact.sha256 = none) :
      Begun c version artifact rest sends s (s, some (.invalidSHA256 artifact.platform))
  | unsent (digest : Bytes32) (hdecode : c.decode artifact.sha256 = some digest)
      (hfate : (sends 0).fate = .unsent) : Begun c version artifact rest sends s (s, some .transport)
  | dropped (digest : Bytes32) (hdecode : c.decode artifact.sha256 = some digest)
      (hfate : (sends 0).fate = .lost) (hcannot : ¬ c.CanRegister version s artifact.platform digest) :
      Begun c version artifact rest sends s (s, some .transport)
  | refused (digest : Bytes32) (hdecode : c.decode artifact.sha256 = some digest)
      (hfate : (sends 0).fate = .mined) (reason : Revert)
      (hcall : s.registerArtifact d ⟨c.sender, (sends 0).timestamp⟩ version artifact.platform digest =
        .error reason) : Begun c version artifact rest sends s (s, some (.reverted reason))
  | lost (digest : Bytes32) (hdecode : c.decode artifact.sha256 = some digest)
      (hfate : (sends 0).fate = .lost) (hcan : c.CanRegister version s artifact.platform digest) :
      Begun c version artifact rest sends s
        (c.registered version s artifact.platform digest (sends 0).timestamp, some .transport)
  | mined (digest : Bytes32) (hdecode : c.decode artifact.sha256 = some digest)
      (hfate : (sends 0).fate = .mined) (hcan : c.CanRegister version s artifact.platform digest) :
      Begun c version artifact rest sends s
        (c.registerRelease version rest (fun i => sends (i + 1))
          (c.registered version s artifact.platform digest (sends 0).timestamp))

theorem not_canRegister_of_error {reason : Revert}
    (h : s.registerArtifact d ⟨c.sender, send.timestamp⟩ version platform digest = .error reason) :
    ¬ c.CanRegister version s platform digest := by
  intro hcan
  rw [registerArtifact_ok_iff.mpr ⟨hcan, rfl⟩] at h
  cases h

theorem registerRelease_begun (c : ReleaseClient d) (version : Bytes) (artifact : ReleaseArtifact)
    (rest : List ReleaseArtifact) (sends : Nat → Send) (s : Suite) :
    Begun c version artifact rest sends s (c.registerRelease version (artifact :: rest) sends s) := by
  rw [registerRelease]
  cases hdecode : c.decode artifact.sha256 with
  | none => exact .undecoded hdecode
  | some digest =>
      dsimp only [sendArtifact]
      cases hfate : (sends 0).fate with
      | unsent => exact .unsent digest hdecode hfate
      | lost =>
          cases hcall : s.registerArtifact d ⟨c.sender, (sends 0).timestamp⟩ version
              artifact.platform digest with
          | ok s' =>
              obtain ⟨hcan, rfl⟩ := registerArtifact_ok_iff.mp hcall
              exact .lost digest hdecode hfate hcan
          | error reason => exact .dropped digest hdecode hfate (not_canRegister_of_error hcall)
      | mined =>
          cases hcall : s.registerArtifact d ⟨c.sender, (sends 0).timestamp⟩ version
              artifact.platform digest with
          | ok s' =>
              obtain ⟨hcan, rfl⟩ := registerArtifact_ok_iff.mp hcall
              exact .mined digest hdecode hfate hcan
          | error reason => exact .refused digest hdecode hfate reason hcall

/-- What every registration keeps, a run keeps. -/
theorem registerRelease_preserves {P : Suite → Prop}
    (hstep : ∀ s platform digest timestamp, P s → P (c.registered version s platform digest timestamp))
    (h : P s) : P (c.registerRelease version artifacts sends s).1 := by
  induction artifacts generalizing sends s with
  | nil => exact h
  | cons artifact rest ih =>
      have hbegun := c.registerRelease_begun version artifact rest sends s
      generalize c.registerRelease version (artifact :: rest) sends s = run at hbegun
      cases hbegun with
      | undecoded | unsent | dropped | refused => exact h
      | lost => exact hstep _ _ _ _ h
      | mined => exact ih (hstep _ _ _ _ h)

/-- A run removes nothing. -/
theorem hasArtifact_registerRelease (h : HasArtifact d s version platform) :
    HasArtifact d (c.registerRelease version artifacts sends s).1 version platform :=
  registerRelease_preserves (P := fun s => HasArtifact d s version platform)
    (fun _ _ _ _ h => hasArtifact_registered.mpr (Or.inr h)) h

/-- One artifact registered, the others can be. -/
theorem registrable_cons_iff {artifact : ReleaseArtifact} {rest : List ReleaseArtifact}
    (timestamp : Nat) (hdecode : c.decode artifact.sha256 = some digest)
    (hcan : c.CanRegister version s artifact.platform digest) :
    c.Registrable version (artifact :: rest) s ↔
      c.Registrable version rest (c.registered version s artifact.platform digest timestamp) := by
  constructor
  · intro h
    obtain ⟨-, hrest⟩ := List.forall_mem_cons.mp h.each
    obtain ⟨hnew, hdistinct⟩ := List.nodup_cons.mp h.distinct
    refine ⟨fun other hother => ?_, hdistinct⟩
    obtain ⟨value, hvalue, hother'⟩ := hrest other hother
    refine ⟨value, hvalue, ⟨hother'.active, hother'.sender, hother'.version_valid,
      hother'.platform_valid, hother'.digest_ne_zero, fun hhas => ?_⟩⟩
    rcases hasArtifact_registered.mp hhas with hsame | hold
    · exact hnew (hsame ▸ List.mem_map_of_mem hother)
    · exact hother'.absent hold
  · intro h
    refine ⟨List.forall_mem_cons.mpr ⟨⟨digest, hdecode, hcan⟩, fun other hother => ?_⟩,
      List.nodup_cons.mpr ⟨fun hin => ?_, h.distinct⟩⟩
    · obtain ⟨value, hvalue, hother'⟩ := h.each other hother
      exact ⟨value, hvalue, ⟨hother'.active, hother'.sender, hother'.version_valid,
        hother'.platform_valid, hother'.digest_ne_zero,
        fun hhas => hother'.absent (hasArtifact_registered.mpr (Or.inr hhas))⟩⟩
    · obtain ⟨other, hother, hsame⟩ := List.mem_map.mp hin
      obtain ⟨value, -, hother'⟩ := h.each other hother
      exact hother'.absent (hasArtifact_registered.mpr (Or.inl hsame))

/-- The first artifact of a registrable list is not refused. -/
theorem Registrable.head {artifact : ReleaseArtifact} {rest : List ReleaseArtifact}
    (h : c.Registrable version (artifact :: rest) s) (hdecode : c.decode artifact.sha256 = some digest) :
    c.CanRegister version s artifact.platform digest := by
  obtain ⟨value, hvalue, hcan⟩ := h.each artifact List.mem_cons_self
  obtain rfl := Option.some.inj (hvalue.symm.trans hdecode)
  exact hcan

theorem Registrable.decode_ne_none (h : c.Registrable version artifacts s) {artifact : ReleaseArtifact}
    (hmem : artifact ∈ artifacts) : c.decode artifact.sha256 ≠ none := by
  obtain ⟨digest, hdecode, -⟩ := h.each artifact hmem
  simp [hdecode]

/-- A run gets through exactly when the list is registrable and every transaction is answered. -/
theorem registerRelease_eq_none_iff :
    (c.registerRelease version artifacts sends s).2 = none ↔
      c.Registrable version artifacts s ∧ ∀ i < artifacts.length, (sends i).fate = .mined := by
  induction artifacts generalizing sends s with
  | nil => exact ⟨fun _ => ⟨⟨by simp, List.nodup_nil⟩, by simp⟩, fun _ => rfl⟩
  | cons artifact rest ih =>
      rw [List.length_cons, Nat.forall_lt_succ_left]
      have hbegun := c.registerRelease_begun version artifact rest sends s
      generalize c.registerRelease version (artifact :: rest) sends s = run at hbegun
      cases hbegun with
      | undecoded hdecode =>
          exact iff_of_false (Option.some_ne_none _) fun h => h.1.decode_ne_none List.mem_cons_self hdecode
      | unsent _ _ hfate | dropped _ _ hfate | lost _ _ hfate =>
          exact iff_of_false (Option.some_ne_none _) fun h => by simp [hfate] at h
      | refused digest hdecode hfate reason hcall =>
          exact iff_of_false (Option.some_ne_none _) fun h => not_canRegister_of_error hcall (h.1.head hdecode)
      | mined digest hdecode hfate hcan =>
          rw [ih, ← registrable_cons_iff _ hdecode hcan]
          simp [hfate]

/-- A transaction that is mined and answered. -/
def answered : Send := ⟨.mined, 0, Nat.zero_le _⟩

/-- A list can be completed exactly when it is registrable. -/
theorem completes_iff : c.Completes version artifacts s ↔ c.Registrable version artifacts s := by
  constructor
  · rintro ⟨sends, hnone⟩
    exact (registerRelease_eq_none_iff.mp hnone).1
  · intro h
    exact ⟨fun _ => answered, registerRelease_eq_none_iff.mpr ⟨h, fun _ _ => rfl⟩⟩

/-- Once an artifact of a list is registered, the list cannot be completed. -/
theorem not_registrable_of_hasArtifact {artifact : ReleaseArtifact}
    (hmem : artifact ∈ artifacts) (hhas : HasArtifact d s version artifact.platform) :
    ¬ c.Registrable version artifacts s := by
  intro h
  obtain ⟨digest, -, hcan⟩ := h.each artifact hmem
  exact hcan.absent hhas

/-- The first artifact of a registrable list is there as soon as its transaction is sent. -/
theorem hasArtifact_first {artifact : ReleaseArtifact} {rest : List ReleaseArtifact}
    (h : c.Registrable version (artifact :: rest) s) (hsent : (sends 0).fate ≠ .unsent) :
    HasArtifact d (c.registerRelease version (artifact :: rest) sends s).1 version
      artifact.platform := by
  have hbegun := c.registerRelease_begun version artifact rest sends s
  generalize c.registerRelease version (artifact :: rest) sends s = run at hbegun
  cases hbegun with
  | undecoded hdecode => exact absurd hdecode (h.decode_ne_none List.mem_cons_self)
  | unsent _ _ hfate => exact absurd hfate hsent
  | dropped _ hdecode _ hcannot => exact absurd (h.head hdecode) hcannot
  | refused _ hdecode _ _ hcall => exact absurd (h.head hdecode) (not_canRegister_of_error hcall)
  | lost => exact hasArtifact_registered.mpr (Or.inl rfl)
  | mined => exact hasArtifact_registerRelease (hasArtifact_registered.mpr (Or.inl rfl))

/-- A registrable list can be completed after a failure exactly when nothing was sent. -/
theorem completes_after_failure_iff (h : c.Registrable version artifacts s)
    (hfailure : (c.registerRelease version artifacts sends s).2 ≠ none) :
    c.Completes version artifacts (c.registerRelease version artifacts sends s).1 ↔
      (sends 0).fate = .unsent := by
  cases artifacts with
  | nil => exact absurd rfl hfailure
  | cons artifact rest =>
      constructor
      · intro hcompletes
        by_contra hsent
        exact not_registrable_of_hasArtifact List.mem_cons_self (hasArtifact_first h hsent)
          (completes_iff.mp hcompletes)
      · intro hfate
        have hbegun := c.registerRelease_begun version artifact rest sends s
        generalize c.registerRelease version (artifact :: rest) sends s = run at hbegun
        cases hbegun with
        | undecoded | unsent | dropped | refused => exact completes_iff.mpr h
        | lost _ _ hother | mined _ _ hother =>
            rw [hfate] at hother
            cases hother

/-- A run goes on after the artifacts it got through with. -/
theorem registerRelease_append {before after : List ReleaseArtifact}
    (h : (c.registerRelease version before sends s).2 = none) :
    c.registerRelease version (before ++ after) sends s =
      c.registerRelease version after (fun i => sends (i + before.length))
        (c.registerRelease version before sends s).1 := by
  induction before generalizing sends s with
  | nil => rfl
  | cons artifact rest ih =>
      rw [registerRelease] at h
      rw [List.cons_append, registerRelease, registerRelease]
      cases hdecode : c.decode artifact.sha256 with
      | none => simp [hdecode] at h
      | some digest =>
          rw [hdecode] at h
          dsimp only at h ⊢
          generalize c.sendArtifact version artifact.platform digest (sends 0) s = sent at h ⊢
          obtain ⟨s', _ | failure⟩ := sent
          · exact ih h
          · cases h

/-- A run that fails got through with some artifacts, and not with the next one. -/
theorem exists_stop (h : (c.registerRelease version artifacts sends s).2 ≠ none) :
    ∃ before artifact after, artifacts = before ++ artifact :: after ∧
      (c.registerRelease version before sends s).2 = none ∧
      (c.registerRelease version (before ++ [artifact]) sends s).2 ≠ none := by
  induction artifacts using List.reverseRecOn with
  | nil => exact absurd rfl h
  | append_singleton init last ih =>
      by_cases hinit : (c.registerRelease version init sends s).2 = none
      · exact ⟨init, last, [], rfl, hinit, h⟩
      · obtain ⟨before, artifact, after, rfl, hstop⟩ := ih hinit
        exact ⟨before, artifact, after ++ [last], by simp, hstop⟩

/-- A run stops at an artifact that cannot be registered after the ones before it. The failure is the
artifact's where the digest is not decoded or the answer arrives. -/
theorem stops_at {before : List ReleaseArtifact} {artifact : ReleaseArtifact}
    (after : List ReleaseArtifact) (hbefore : (c.registerRelease version before sends s).2 = none)
    (hstop : (c.registerRelease version (before ++ [artifact]) sends s).2 ≠ none) :
    (c.decode artifact.sha256 ≠ none ∧ (sends before.length).fate ≠ .mined ∧
      (c.registerRelease version (before ++ artifact :: after) sends s).2 = some .transport) ∨
    (∃ failure, (c.decode artifact.sha256 = none ∨ (sends before.length).fate = .mined) ∧
      (before ≠ [] → failure.OfArtifact) ∧
      c.registerRelease version (before ++ artifact :: after) sends s =
        ((c.registerRelease version before sends s).1, some failure)) := by
  rw [registerRelease_append hbefore] at hstop ⊢
  have hbegun := c.registerRelease_begun version artifact after (fun i => sends (i + before.length))
    (c.registerRelease version before sends s).1
  generalize c.registerRelease version (artifact :: after) _ _ = run at hbegun ⊢
  cases hbegun with
  | undecoded hdecode => exact Or.inr ⟨_, Or.inl hdecode, fun _ => .digest _, rfl⟩
  | unsent digest hdecode hfate | dropped digest hdecode hfate | lost digest hdecode hfate =>
      rw [Nat.zero_add] at hfate
      exact Or.inl ⟨by simp [hdecode], by simp [hfate], rfl⟩
  | refused digest hdecode hfate reason hcall =>
      rw [Nat.zero_add] at hfate
      refine Or.inr ⟨_, Or.inr hfate, fun hne => ?_, rfl⟩
      obtain ⟨first, rest, rfl⟩ := List.exists_cons_of_ne_nil hne
      obtain ⟨_, -, hcan⟩ :=
        (registerRelease_eq_none_iff.mp hbefore).1.each first List.mem_cons_self
      have hactive : (c.registerRelease version (first :: rest) sends s).1.IsActive :=
        registerRelease_preserves (P := Suite.IsActive) (fun _ _ _ _ h => h) hcan.active
      exact ofArtifact_of_error hactive hcan.sender hcall
  | mined digest hdecode hfate hcan =>
      have hone : c.Registrable version [artifact] (c.registerRelease version before sends s).1 :=
        ⟨by simpa using ⟨digest, hdecode, hcan⟩, List.nodup_singleton _⟩
      exact absurd (registerRelease_eq_none_iff.mpr ⟨hone, by simpa using hfate⟩) hstop

end ReleaseClient

open ReleaseClient

/-- A run is all or nothing exactly when two things hold of the list, the state and the fates of the
transactions. If the list is registrable, every transaction is answered or not even the first is sent.
And where the list goes wrong after artifacts that are registered, the artifact has a digest and its
transaction is not answered: the run then fails, but not for the artifact. -/
theorem registerRelease_allOrNothing_iff {d : Deployment} (c : ReleaseClient d) (version : Bytes)
    (artifacts : List ReleaseArtifact) (sends : Nat → Send) (s : Suite) :
    c.AllOrNothing version artifacts sends s ↔
      (c.Registrable version artifacts s →
        (∀ i < artifacts.length, (sends i).fate = .mined) ∨ (sends 0).fate = .unsent) ∧
      ∀ before artifact after, artifacts = before ++ artifact :: after → before ≠ [] →
        c.Registrable version before s → (∀ i < before.length, (sends i).fate = .mined) →
        ¬ c.Registrable version (before ++ [artifact]) s →
        c.decode artifact.sha256 ≠ none ∧ (sends before.length).fate ≠ .mined := by
  constructor
  · intro h
    refine ⟨fun hregistrable => ?_, fun before artifact after hsplit hne hbefore hmined hnot => ?_⟩
    · by_cases hnone : (c.registerRelease version artifacts sends s).2 = none
      · exact Or.inl (registerRelease_eq_none_iff.mp hnone).2
      · exact Or.inr ((completes_after_failure_iff hregistrable hnone).mp (h.again hregistrable hnone))
    · subst hsplit
      have hthrough := registerRelease_eq_none_iff.mpr ⟨hbefore, hmined⟩
      have hstop : (c.registerRelease version (before ++ [artifact]) sends s).2 ≠ none :=
        fun hnone => hnot (registerRelease_eq_none_iff.mp hnone).1
      rcases stops_at after hthrough hstop with ⟨hdecode, hfate, -⟩ | ⟨failure, -, hof, hrun⟩
      · exact ⟨hdecode, hfate⟩
      · -- the first artifact is registered, so that something was
        exfalso
        have hsame := h.nothing failure (by rw [hrun]) (hof hne)
        rw [hrun] at hsame
        obtain ⟨first, rest, rfl⟩ := List.exists_cons_of_ne_nil hne
        have hsent : (sends 0).fate ≠ .unsent := by
          rw [hmined 0 (by simp)]
          decide
        have hhas := hasArtifact_first hbefore hsent
        rw [HasArtifact, hsame] at hhas
        exact not_registrable_of_hasArtifact List.mem_cons_self hhas hbefore
  · rintro ⟨hagain, hnothing⟩
    refine ⟨fun failure hfailure hof => ?_, fun hregistrable hfailure => ?_⟩
    · obtain ⟨before, artifact, after, rfl, hthrough, hstop⟩ :=
        exists_stop (Option.ne_none_iff_exists'.mpr ⟨failure, hfailure⟩)
      rcases stops_at after hthrough hstop with ⟨-, -, htransport⟩ | ⟨_, hblame, -, hrun⟩
      · rw [htransport] at hfailure
        cases hfailure
        cases hof
      · rw [hrun]
        by_cases hne : before = []
        · rw [hne]
          rfl
        · exfalso
          obtain ⟨hbefore, hmined⟩ := registerRelease_eq_none_iff.mp hthrough
          have hnot : ¬ c.Registrable version (before ++ [artifact]) s := by
            intro hregistrable
            rcases hblame with hdecode | hfate
            · exact hregistrable.decode_ne_none (by simp) hdecode
            · refine hstop (registerRelease_eq_none_iff.mpr ⟨hregistrable, fun i hi => ?_⟩)
              rw [List.length_append, List.length_singleton] at hi
              rcases Nat.lt_succ_iff_lt_or_eq.mp hi with hlt | rfl
              · exact hmined i hlt
              · exact hfate
          obtain ⟨hdecode, hfate⟩ := hnothing before artifact after rfl hne hbefore hmined hnot
          exact hblame.elim hdecode hfate
    · rcases hagain hregistrable with hmined | hfate
      · exact absurd (registerRelease_eq_none_iff.mpr ⟨hregistrable, hmined⟩) hfailure
      · exact (completes_after_failure_iff hregistrable hfailure).mpr hfate

namespace Sample

open Igit.Sample

/-- The release authority, with digests of one byte. -/
def releaser : ReleaseClient deployment := ⟨0xa8, fun text => text.head?.map UInt8.toNat⟩

/-- Two artifacts, of which the second has a platform with a space. -/
def spaced : List ReleaseArtifact := [⟨[0x61], [1]⟩, ⟨[0x62, 0x20], [2]⟩]

/-- Two artifacts that can be registered. -/
def pair : List ReleaseArtifact := [⟨[0x61], [1]⟩, ⟨[0x62], [2]⟩]

/-- The connection is lost before the second transaction. -/
def interrupted : Nat → Send
  | 0 => answered
  | _ => ⟨.unsent, 0, Nat.zero_le _⟩

/-- A release whose second artifact is refused has its first one registered, and one that is
interrupted after its first artifact cannot be completed any more. -/
theorem partial_release_registered :
    (releaser.registerRelease [0x31] spaced (fun _ => answered) genesis.suite).2 =
        some (.reverted (.invalidPlatform [0x62, 0x20])) ∧
      HasArtifact deployment
        (releaser.registerRelease [0x31] spaced (fun _ => answered) genesis.suite).1 [0x31] [0x61] ∧
      ¬ HasArtifact deployment genesis.suite [0x31] [0x61] ∧
      releaser.Completes [0x31] pair genesis.suite ∧
      (releaser.registerRelease [0x31] pair interrupted genesis.suite).2 = some .transport ∧
      ¬ releaser.Completes [0x31] pair
        (releaser.registerRelease [0x31] pair interrupted genesis.suite).1 := by
  have hstopped : (releaser.registerRelease [0x31] spaced (fun _ => answered) genesis.suite).2 =
      some (.reverted (.invalidPlatform [0x62, 0x20])) := by decide +kernel
  have hhas : HasArtifact deployment
      (releaser.registerRelease [0x31] spaced (fun _ => answered) genesis.suite).1 [0x31] [0x61] := by
    unfold HasArtifact
    decide +kernel
  have hnew : ¬ HasArtifact deployment genesis.suite [0x31] [0x61] := by
    unfold HasArtifact
    decide +kernel
  have hcompletes : releaser.Completes [0x31] pair genesis.suite :=
    ⟨fun _ => answered, by decide +kernel⟩
  have hlost : (releaser.registerRelease [0x31] pair interrupted genesis.suite).2 =
      some .transport := by decide +kernel
  refine ⟨hstopped, hhas, hnew, hcompletes, hlost, fun h => ?_⟩
  have hfate := (completes_after_failure_iff (completes_iff.mp hcompletes) (by simp [hlost])).mp h
  cases hfate

end Sample

end Client

end Igit
