import Igit.Bootstrap.Effects
import Igit.Library.Registry

/-!
# Badges and artifacts

The badge module numbers its badges and lists them by recipient and by repository, and the release
module lists the platforms of a version. Both only add. In every run a badge is listed once where it
belongs and an artifact once under its version, and neither is ever changed
(`Reachable.registers_kept`).
-/

namespace Igit

open Fallible

/-! ## The badge module -/

namespace Badges

/-- Badges are stored under their own numbers below the next one, and listed once by recipient and
once by repository. -/
structure Filed (b : Badges) : Prop where
  own_id : ∀ id, (b.badges id).present = true → (b.badges id).id = id
  lt_next : ∀ id, (b.badges id).present = true → id < b.nextBadgeId
  by_recipient : ListedOnce b.recipientBadgeIds fun id a =>
    (b.badges id).present = true ∧ (b.badges id).recipient = a
  by_repository : ListedOnce b.repoBadgeIds fun id r =>
    (b.badges id).present = true ∧ (b.badges id).repoId = r

variable {b b' : Badges}

/-- Nobody has a badge. -/
theorem filed_of_empty (habsent : ∀ id, (b.badges id).present = false)
    (hrecipients : ∀ a, b.recipientBadgeIds a = []) (hrepositories : ∀ r, b.repoBadgeIds r = []) :
    b.Filed := by
  have hnone : ∀ id, ¬ (b.badges id).present = true := fun id hid =>
    Bool.false_ne_true ((habsent id).symm.trans hid)
  refine ⟨fun id hid => absurd hid (hnone id), fun id hid => absurd hid (hnone id), ?_, ?_⟩
  · exact .empty hrecipients fun id _ hheld => hnone id hheld.1
  · exact .empty hrepositories fun id _ hheld => hnone id hheld.1

/-- A badge under a number that was free, awarded or imported. -/
structure Added (b : Badges) (badge : Badge) (b' : Badges) : Prop where
  free : (b.badges badge.id).present = false
  present : badge.present = true
  badges_eq : b'.badges = Function.update b.badges badge.id badge
  recipients_eq : b'.recipientBadgeIds = Function.update b.recipientBadgeIds badge.recipient
    (b.recipientBadgeIds badge.recipient ++ [badge.id])
  repositories_eq : b'.repoBadgeIds = Function.update b.repoBadgeIds badge.repoId
    (b.repoBadgeIds badge.repoId ++ [badge.id])
  lt_next : badge.id < b'.nextBadgeId
  next_le : b.nextBadgeId ≤ b'.nextBadgeId

/-- A field of the badges by which they are listed, after one more badge. -/
theorem Added.held {κ : Type} {badge : Badge} (h : b.Added badge b') (field : Badge → κ) (id : Nat)
    (k : κ) :
    ((b'.badges id).present = true ∧ field (b'.badges id) = k) ↔
      ((b.badges id).present = true ∧ field (b.badges id) = k) ∨ id = badge.id ∧ k = field badge := by
  rw [h.badges_eq]
  by_cases hid : id = badge.id
  · subst hid
    rw [Function.update_self, h.free, h.present]
    simp [eq_comm]
  · rw [Function.update_of_ne hid]
    simp [hid]

theorem Filed.add {badge : Badge} (h : b.Filed) (hadded : b.Added badge b') : b'.Filed := by
  have hfree : ∀ {κ : Type} (field : Badge → κ) (k : κ),
      ¬ ((b.badges badge.id).present = true ∧ field (b.badges badge.id) = k) := by
    intro κ field k hheld
    exact Bool.false_ne_true (hadded.free.symm.trans hheld.1)
  refine ⟨fun id hid => ?_, fun id hid => ?_, ?_, ?_⟩
  · rw [hadded.badges_eq] at hid ⊢
    by_cases hsame : id = badge.id
    · rw [hsame, Function.update_self]
    · rw [Function.update_of_ne hsame] at hid ⊢
      exact h.own_id id hid
  · rw [hadded.badges_eq] at hid
    by_cases hsame : id = badge.id
    · rw [hsame]
      exact hadded.lt_next
    · rw [Function.update_of_ne hsame] at hid
      exact (h.lt_next id hid).trans_le hadded.next_le
  · rw [hadded.recipients_eq]
    exact h.by_recipient.push (hfree Badge.recipient _) (hadded.held Badge.recipient)
  · rw [hadded.repositories_eq]
    exact h.by_repository.push (hfree Badge.repoId _) (hadded.held Badge.repoId)

theorem Added.kept {badge : Badge} (h : b.Added badge b') {id : Nat}
    (hid : (b.badges id).present = true) : b'.badges id = b.badges id := by
  rw [h.badges_eq]
  refine Function.update_of_ne ?_ _ _
  rintro rfl
  exact Bool.false_ne_true (h.free.symm.trans hid)

/-- An imported badge. -/
theorem added_withBadge {badge : Badge} (hfree : (b.badges badge.id).present = false)
    (hpresent : badge.present = true) : b.Added badge (b.withBadge badge) := by
  have hnext : badge.id < (b.withBadge badge).nextBadgeId ∧
      b.nextBadgeId ≤ (b.withBadge badge).nextBadgeId := by
    simp only [Badges.withBadge]
    split <;> omega
  exact ⟨hfree, hpresent, rfl, rfl, rfl, hnext.1, hnext.2⟩

/-- An awarded badge takes the next number, which no badge has. -/
theorem Filed.added_awarded {badge : Badge} (h : b.Filed) (hid : badge.id = b.nextBadgeId)
    (hpresent : badge.present = true) : b.Added badge (b.awarded badge) := by
  refine ⟨?_, hpresent, rfl, rfl, rfl, ?_, Nat.le_succ _⟩
  · rw [← Bool.not_eq_true]
    intro htaken
    have hlt := h.lt_next _ htaken
    omega
  · rw [hid]
    exact Nat.lt_succ_self _

end Badges

/-! ## The release module -/

namespace Releases

/-- A version lists the platforms it has artifacts for, each of them once. -/
def Filed (keccak : Keccak) (r : Releases) : Prop :=
  ListedOnce (fun version => r.platformsByVersion (keccak.ofBytes version)) fun platform version =>
    (r.artifacts (artifactKey keccak version platform)).present = true

variable {keccak : Keccak} {r : Releases}

/-- An artifact for which there was none, registered or imported. -/
theorem Filed.withArtifact {artifact : Artifact} (h : r.Filed keccak)
    (habsent : (r.artifacts (artifactKey keccak artifact.version artifact.platform)).present = false)
    (hpresent : artifact.present = true) : (r.withArtifact keccak artifact).Filed keccak := by
  have hlists : (fun version => (r.withArtifact keccak artifact).platformsByVersion
      (keccak.ofBytes version)) = Function.update
        (fun version => r.platformsByVersion (keccak.ofBytes version)) artifact.version
        (r.platformsByVersion (keccak.ofBytes artifact.version) ++ [artifact.platform]) := by
    funext version
    show Function.update r.platformsByVersion _ _ _ = _
    by_cases hversion : version = artifact.version
    · rw [hversion, Function.update_self, Function.update_self]
    · rw [Function.update_of_ne hversion, Function.update_of_ne (mt keccak.ofBytes_inj.mp hversion)]
  rw [Filed, hlists]
  refine ListedOnce.push h (by simp [habsent]) fun platform version => ?_
  show (Function.update r.artifacts (artifactKey keccak artifact.version artifact.platform) artifact
    (artifactKey keccak version platform)).present = true ↔ _
  by_cases hkey : artifactKey keccak version platform = artifactKey keccak artifact.version artifact.platform
  · obtain ⟨rfl, rfl⟩ := artifactKey_inj.mp hkey
    rw [Function.update_self]
    simp [hpresent]
  · rw [Function.update_of_ne hkey]
    exact ⟨Or.inl, fun hor => hor.resolve_right fun heq => hkey (artifactKey_inj.mpr ⟨heq.2, heq.1⟩)⟩

theorem withArtifact_kept {artifact : Artifact}
    (habsent : (r.artifacts (artifactKey keccak artifact.version artifact.platform)).present = false)
    {version platform : Bytes}
    (hpresent : (r.artifacts (artifactKey keccak version platform)).present = true) :
    (r.withArtifact keccak artifact).artifacts (artifactKey keccak version platform) =
      r.artifacts (artifactKey keccak version platform) := by
  refine Function.update_of_ne (fun heq => ?_) _ _
  rw [heq] at hpresent
  exact Bool.false_ne_true (habsent.symm.trans hpresent)

end Releases

/-! ## Whole runs -/

namespace Suite

/-- The state of both modules. -/
structure Filed (keccak : Keccak) (s : Suite) : Prop where
  badges : s.badges.Filed
  releases : s.releases.Filed keccak

/-- What was stored in both modules is there still. -/
structure Keeps (keccak : Keccak) (s s' : Suite) : Prop where
  badges : ∀ id, (s.badges.badges id).present = true → s'.badges.badges id = s.badges.badges id
  artifacts : ∀ version platform,
    (s.releases.artifacts (Releases.artifactKey keccak version platform)).present = true →
      s'.releases.artifacts (Releases.artifactKey keccak version platform) =
        s.releases.artifacts (Releases.artifactKey keccak version platform)

variable {d : Deployment} {keccak : Keccak} {s s' start : Suite}

theorem Keeps.refl (keccak : Keccak) (s : Suite) : s.Keeps keccak s :=
  ⟨fun _ _ => rfl, fun _ _ _ => rfl⟩

theorem Keeps.trans {s'' : Suite} (h : s.Keeps keccak s') (h' : s'.Keeps keccak s'') :
    s.Keeps keccak s'' where
  badges id hid := by
    have hsame := h.badges id hid
    rw [← hsame] at hid ⊢
    exact h'.badges id hid
  artifacts version platform hpresent := by
    have hsame := h.artifacts version platform hpresent
    rw [← hsame] at hpresent ⊢
    exact h'.artifacts version platform hpresent

/-- A change elsewhere. -/
theorem Keeps.of_eq (hbadges : s'.badges = s.badges) (hreleases : s'.releases = s.releases) :
    s.Keeps keccak s' :=
  ⟨fun id _ => by rw [hbadges], fun _ _ _ => by rw [hreleases]⟩

theorem Filed.of_eq (h : s.Filed keccak) (hbadges : s'.badges = s.badges)
    (hreleases : s'.releases = s.releases) : s'.Filed keccak :=
  ⟨hbadges ▸ h.badges, hreleases ▸ h.releases⟩

/-- A record that fits. -/
theorem Filed.stored (h : s.Filed keccak) {record : ImportRecord} (hformed : record.WellFormed)
    (hfits : s.Fits keccak record) :
    (s.stored keccak record).Filed keccak ∧ s.Keeps keccak (s.stored keccak record) := by
  cases record with
  | badge record =>
      have hadded : s.badges.Added record (s.badges.withBadge record) :=
        Badges.added_withBadge hfits.2 hformed.present
      exact ⟨⟨h.badges.add hadded, h.releases⟩, ⟨fun id hid => hadded.kept hid, fun _ _ _ => rfl⟩⟩
  | artifact record =>
      exact ⟨⟨h.badges, h.releases.withArtifact hfits hformed.present⟩,
        ⟨fun _ _ => rfl, fun _ _ hpresent => Releases.withArtifact_kept hfits hpresent⟩⟩
  | _ => exact ⟨h.of_eq rfl rfl, .of_eq rfl rfl⟩

/-- A call of an active suite. -/
theorem Filed.call (h : s.Filed d.keccak) {sender : Address} {now : Nat} {op : Op}
    (heffect : Effect d s sender now op s') :
    s'.Filed d.keccak ∧ s.Keeps d.keccak s' := by
  cases heffect with
  | @awardBadge repoId recipient reason =>
      have hadded : s.badges.Added
          ⟨s.badges.nextBadgeId, repoId, recipient, sender, reason, now, true⟩ _ :=
        h.badges.added_awarded rfl rfl
      exact ⟨⟨h.badges.add hadded, h.releases⟩, ⟨fun id hid => hadded.kept hid, fun _ _ _ => rfl⟩⟩
  | registerArtifact habsent =>
      exact ⟨⟨h.badges, h.releases.withArtifact habsent rfl⟩,
        ⟨fun _ _ => rfl, fun _ _ hpresent => Releases.withArtifact_kept habsent hpresent⟩⟩
  | _ => exact ⟨h.of_eq rfl rfl, .of_eq rfl rfl⟩

end Suite

section Runs

variable {d : Deployment} {w w' : World}

/-- A run from a state with both modules in order keeps them so, and keeps what they hold. -/
theorem Reachable.filed_onwards (h : Reachable d w) (hfiled : w.suite.Filed d.keccak)
    (hrun : Leads d w w') : w'.suite.Filed d.keccak ∧ w.suite.Keeps d.keccak w'.suite := by
  refine h.suite_preserves (P := fun s => s.Filed d.keccak ∧ w.suite.Keeps d.keccak s)
    ⟨?_, ?_, ?_, ?_, ?_⟩ hrun ⟨hfiled, .refl _ _⟩
  · rintro s u - ⟨hs, hkeeps⟩
    exact ⟨hs.of_eq rfl rfl, hkeeps.trans (.of_eq rfl rfl)⟩
  · rintro s deadline - ⟨hs, hkeeps⟩
    exact ⟨hs.of_eq rfl rfl, hkeeps.trans (.of_eq rfl rfl)⟩
  · rintro s record - hformed hfits ⟨hs, hkeeps⟩
    obtain ⟨hstored, hkept⟩ := hs.stored hformed hfits
    exact ⟨hstored, hkeeps.trans hkept⟩
  · rintro w sender op s' - - heffect ⟨hs, hkeeps⟩
    obtain ⟨hafter, hkept⟩ := hs.call heffect
    exact ⟨hafter, hkeeps.trans hkept⟩
  · rintro s e ⟨hs, hkeeps⟩
    exact ⟨hs.of_eq rfl rfl, hkeeps.trans (.of_eq rfl rfl)⟩

theorem initialSuite_filed (d : Deployment) : d.initialSuite.Filed d.keccak := by
  have habsent : ∀ id, (d.initialSuite.badges.badges id).present = false := fun _ => rfl
  refine ⟨Badges.filed_of_empty habsent (fun _ => rfl) (fun _ => rfl), ?_⟩
  exact .empty (fun _ => rfl) fun platform version hpresent => by cases hpresent

theorem Reachable.filed (h : Reachable d w) : w.suite.Filed d.keccak :=
  (Reachable.filed_onwards Relation.ReflTransGen.refl (initialSuite_filed d) h).1

/-- In every run badges are numbered apart and below the next number, each badge is listed once for its
recipient and once for its repository, each version lists its platforms once, and no badge or artifact
is changed later. -/
theorem Reachable.registers_kept (h : Reachable d w) (hrun : Leads d w w') :
    w.suite.badges.Filed ∧ w.suite.releases.Filed d.keccak ∧ w.suite.Keeps d.keccak w'.suite :=
  ⟨h.filed.badges, h.filed.releases, (h.filed_onwards h.filed hrun).2⟩

end Runs

namespace Sample

/-- Who registers releases. -/
def publisher : Account deployment := ⟨0xa8, by decide⟩

/-- The number of Alice's repository `a`. -/
def tools : Bytes32 := deployment.repositoryId alice.address [0x61]

/-- Alice creates the repository and gives Bob a badge. -/
def awarding : List (Nat × Tx deployment) :=
  [callAfter 1 alice (.core (.createRepository [0x61] [] [0x6d])),
    callAfter 1 alice (.registry (.awardBadge tools bob.address [0x74]))]

/-- Bob gets another, and an artifact is registered. -/
def publishing : List (Nat × Tx deployment) :=
  [callAfter 1 alice (.registry (.awardBadge tools bob.address [0x75])),
    callAfter 1 publisher (.registry (.registerArtifact [0x31] [0x6c] 7))]

/-- Bob's first badge is kept when a second one and an artifact follow. -/
theorem first_badge_kept :
    let w := genesis.run awarding
    (w.suite.badges.badges 1).present = true ∧
      ((w.run publishing).suite.badges.badges 2).present = true ∧
      ((w.run publishing).suite.releases.artifacts
        (Releases.artifactKey deployment.keccak [0x31] [0x6c])).present = true ∧
      w.suite.badges.Filed ∧ (w.run publishing).suite.badges.badges 1 = w.suite.badges.badges 1 := by
  intro w
  have hfirst : (w.suite.badges.badges 1).present = true := by decide +kernel
  have hsecond : ((w.run publishing).suite.badges.badges 2).present = true := by decide +kernel
  have hartifact : ((w.run publishing).suite.releases.artifacts
      (Releases.artifactKey deployment.keccak [0x31] [0x6c])).present = true := by decide +kernel
  have hreach : Reachable deployment w := genesis_reachable awarding
  have hrun : Leads deployment w (w.run publishing) := w.run_steps publishing
  obtain ⟨hfiled, -, hkeeps⟩ := Reachable.registers_kept hreach hrun
  exact ⟨hfirst, hsecond, hartifact, hfiled, hkeeps.badges 1 hfirst⟩

end Sample

end Igit
