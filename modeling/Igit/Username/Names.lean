import Igit.Bootstrap.Effects
import Igit.Library.Registry

/-!
# The registered and the reserved names

The username module keeps the owner of a name and the name of an owner in two maps, the reserved
names in a third with a counter beside it, and the owners of the snapshot in a fourth. `Sound` says
that the first two are inverse to each other, that the counter is right, that no name is both reserved
and registered, and that a name of the snapshot that was registered in the claim window belongs to
its owner of old. The last part needs that nothing is registered before activation, since the snapshot
and the deadline are written until then.
-/

namespace Igit

open Fallible

namespace Username

variable (keccak : Keccak) (u : Username)

/-- The owner of a name, zero when it is not registered. -/
def ownerOf (name : Bytes) : Address := (u.records (keccak.ofBytes name)).owner

/-- Whether a name is reserved. -/
def isReserved (name : Bytes) : Bool := u.reserved (keccak.ofBytes name)

/-- The snapshot owner of a name, zero when there is none. -/
def originalOwner (name : Bytes) : Address := u.snapshotOriginalOwner (keccak.ofBytes name)

/-- What the module keeps. -/
structure Sound : Prop where
  paired : Paired 0 [] (u.ownerOf keccak) u.reverse
  unreserved : ∀ name, u.isReserved keccak name = true → u.ownerOf keccak name = 0
  counted : Counts (u.isReserved keccak) u.reservedUsernameCount
  bounded : u.reservedUsernameCount ≤ maxReservedUsernames
  claimed : ∀ name, u.ownerOf keccak name ≠ 0 →
    (u.records (keccak.ofBytes name)).registeredAt ≤ u.originalOwnerClaimDeadline →
    u.originalOwner keccak name ≠ 0 → u.ownerOf keccak name = u.originalOwner keccak name

variable {keccak u} {name : Bytes} {owner : Address} {now : Nat}

/-! ## The maps after a write -/

/-- Different names have different digests, so a write under a digest is a write under the name. -/
theorem update_ofBytes {α : Type} (f : Bytes32 → α) (name other : Bytes) (value : α) :
    Function.update f (keccak.ofBytes name) value (keccak.ofBytes other) =
      Function.update (fun other => f (keccak.ofBytes other)) name value other := by
  by_cases hname : other = name
  · rw [hname, Function.update_self, Function.update_self]
  · rw [Function.update_of_ne hname, Function.update_of_ne (keccak.ofBytes_inj.not.mpr hname)]

theorem records_registered (other : Bytes) :
    (u.registered keccak name owner now).records (keccak.ofBytes other) =
      if other = name then ⟨owner, now⟩ else u.records (keccak.ofBytes other) :=
  (update_ofBytes _ _ _ _).trans (Function.update_apply _ _ _ _)

theorem records_released (other : Bytes) :
    (u.released keccak owner).records (keccak.ofBytes other) =
      if other = u.reverse owner then default else u.records (keccak.ofBytes other) :=
  (update_ofBytes _ _ _ _).trans (Function.update_apply _ _ _ _)

/-- Registering a name changes the owner of that name. -/
theorem ownerOf_registered :
    (u.registered keccak name owner now).ownerOf keccak =
      Function.update (u.ownerOf keccak) name owner := by
  funext other
  rw [ownerOf, records_registered, Function.update_apply]
  split <;> rfl

/-- Releasing frees the name of the sender. -/
theorem ownerOf_released :
    (u.released keccak owner).ownerOf keccak =
      Function.update (u.ownerOf keccak) (u.reverse owner) 0 := by
  funext other
  rw [ownerOf, records_released, Function.update_apply]
  split <;> rfl

/-! ## The functions keep the module sound -/

/-- A free name may be registered by an account without one. -/
theorem Sound.registered (h : u.Sound keccak) (howner : owner ≠ 0)
    (hfree : u.FreeFor keccak name owner now) : (u.registered keccak name owner now).Sound keccak := by
  have hname : name ≠ [] := by
    intro hnil
    have hvalid := hfree.valid
    rw [hnil] at hvalid
    cases hvalid
  refine ⟨?_, ?_, h.counted, h.bounded, ?_⟩
  · rw [ownerOf_registered]
    exact h.paired.assign hname howner hfree.free hfree.unnamed
  · intro other hreserved
    rw [ownerOf_registered]
    by_cases hsame : other = name
    · have hunreserved : u.isReserved keccak name = false := hfree.unreserved
      rw [hsame] at hreserved
      exact absurd (hunreserved.symm.trans hreserved) (by decide)
    · rw [Function.update_of_ne hsame]
      exact h.unreserved other hreserved
  · intro other hregistered hwindow horiginal
    rw [ownerOf_registered] at hregistered ⊢
    by_cases hsame : other = name
    · -- the deadline was checked against the owner of the snapshot
      subst hsame
      rw [Function.update_self]
      rw [records_registered, if_pos rfl] at hwindow
      exact (hfree.original horiginal hwindow).symm
    · rw [Function.update_of_ne hsame] at hregistered ⊢
      rw [records_registered, if_neg hsame] at hwindow
      exact h.claimed other hregistered hwindow horiginal

/-- A name may be released by the account that has it. -/
theorem Sound.released (h : u.Sound keccak) (hnamed : u.reverse owner ≠ []) :
    (u.released keccak owner).Sound keccak := by
  refine ⟨?_, ?_, h.counted, h.bounded, ?_⟩
  · rw [ownerOf_released]
    exact h.paired.release hnamed
  · intro other hreserved
    rw [ownerOf_released]
    by_cases hsame : other = u.reverse owner
    · rw [hsame, Function.update_self]
    · rw [Function.update_of_ne hsame]
      exact h.unreserved other hreserved
  · intro other hregistered hwindow horiginal
    rw [ownerOf_released] at hregistered ⊢
    by_cases hsame : other = u.reverse owner
    · rw [hsame, Function.update_self] at hregistered
      exact absurd rfl hregistered
    · rw [Function.update_of_ne hsame] at hregistered ⊢
      rw [records_released, if_neg hsame] at hwindow
      exact h.claimed other hregistered hwindow horiginal

/-- A flag and its count change together. -/
theorem Recount.counts {key : Bytes32} {reserved : Bool} {count : Nat}
    (h : u.Recount key reserved count) (hkey : key = keccak.ofBytes name)
    (hcounted : Counts (u.isReserved keccak) u.reservedUsernameCount)
    (hbounded : u.reservedUsernameCount ≤ maxReservedUsernames) :
    Counts (Function.update (u.isReserved keccak) name reserved) count ∧
      count ≤ maxReservedUsernames := by
  subst hkey
  cases h with
  | same hsame =>
      have hflag : u.isReserved keccak name = reserved := hsame
      rw [← hflag, Function.update_eq_self]
      exact ⟨hcounted, hbounded⟩
  | more hfree hroom => exact ⟨hcounted.set hfree, hroom⟩
  | fewer htaken hcount =>
      rw [hcount] at hcounted hbounded
      exact ⟨hcounted.unset htaken, by omega⟩

/-- A mark for a name nobody has, or its removal, keeps the count. -/
theorem Sound.marked (h : u.Sound keccak) {reserved : Bool} {count : Nat}
    (hfree : reserved = true → (u.records (keccak.ofBytes name)).owner = 0)
    (hcount : u.Recount (keccak.ofBytes name) reserved count) :
    (u.marked keccak name reserved count).Sound keccak := by
  obtain ⟨hcounted, hbounded⟩ := hcount.counts rfl h.counted h.bounded
  have hflags : (u.marked keccak name reserved count).isReserved keccak =
      Function.update (u.isReserved keccak) name reserved :=
    funext fun other => update_ofBytes _ _ _ _
  refine ⟨h.paired, ?_, ?_, hbounded, h.claimed⟩
  · intro other hother
    rw [hflags] at hother
    by_cases hsame : other = name
    · rw [hsame, Function.update_self] at hother
      rw [hsame]
      exact hfree hother
    · rw [Function.update_of_ne hsame] at hother
      exact h.unreserved other hother
  · rw [hflags]
    exact hcounted

/-- Before anything is registered the snapshot and the deadline may change. -/
theorem Sound.rewrite (h : u.Sound keccak) (hnone : ∀ name, u.ownerOf keccak name = 0)
    (originals : Bytes32 → Address) (deadline : Nat) :
    ({ u with snapshotOriginalOwner := originals, originalOwnerClaimDeadline := deadline
      } : Username).Sound keccak :=
  { h with claimed := fun name hregistered => absurd (hnone name) hregistered }

end Username

/-! ## Runs -/

/-- What a run keeps: the username module is sound, and nothing is registered before activation. -/
structure Suite.NamesSound (keccak : Keccak) (s : Suite) : Prop where
  sound : s.username.Sound keccak
  unregistered : ¬ s.IsActive → ∀ name, s.username.ownerOf keccak name = 0

/-- A record that fits keeps the username module sound. -/
theorem Suite.NamesSound.stored {keccak : Keccak} {s : Suite} {record : ImportRecord}
    (hinactive : ¬ s.IsActive) (hfits : s.Fits keccak record) (h : s.NamesSound keccak) :
    (s.stored keccak record).NamesSound keccak := by
  have hnone := h.unregistered hinactive
  cases record with
  | originalOwner record => exact ⟨h.sound.rewrite hnone _ _, fun _ => hnone⟩
  | reservedName name =>
      refine ⟨h.sound.marked (fun _ : true = true => hnone name) ?_, fun _ => hnone⟩
      exact .more hfits.1 hfits.2
  | _ => exact ⟨h.sound, fun _ => hnone⟩

/-- A call keeps the username module sound. -/
theorem Suite.Effect.namesSound {d : Deployment} {s s' : Suite} {sender : Account d} {now : Nat}
    {op : Op} (h : Effect d s sender.address now op s') (hsound : s.username.Sound d.keccak) :
    s'.username.Sound d.keccak := by
  cases h with
  | registerUsername hfree => exact hsound.registered sender.address_ne_zero hfree
  | claimOriginalUsername hfree => exact hsound.registered sender.address_ne_zero hfree
  | releaseUsername hnamed => exact hsound.released hnamed
  | setReserved _ hfree hcount => exact hsound.marked hfree hcount
  | _ => exact hsound

/-- Every run keeps the username module sound. -/
theorem Reachable.namesSound {d : Deployment} {w : World} (h : Reachable d w) :
    w.suite.NamesSound d.keccak := by
  refine h.suite_invariant (P := Suite.NamesSound d.keccak) ?_ ⟨?_, ?_, ?_, ?_, ?_⟩
  · have hnone : ∀ name, d.initialSuite.username.ownerOf d.keccak name = 0 := fun _ => rfl
    exact ⟨⟨Paired.blank, fun name _ => hnone name, Counts.blank, Nat.zero_le _,
      fun name hregistered => absurd (hnone name) hregistered⟩, fun _ => hnone⟩
  · intro s u hkeep hs
    exact ⟨hs.sound, fun hinactive => hs.unregistered fun hactive => hinactive (hkeep hactive)⟩
  · intro s deadline hinactive hs
    have hnone := hs.unregistered hinactive
    exact ⟨hs.sound.rewrite hnone _ _, fun _ => hnone⟩
  · intro s record hinactive _ hfits hs
    exact hs.stored hinactive hfits
  · intro w sender op s' hreach hactive heffect hw
    refine ⟨heffect.namesSound hw.sound, fun hinactive => absurd ?_ hinactive⟩
    rw [Suite.IsActive, heffect.directory]
    exact hactive
  · intro s e hs
    exact ⟨hs.sound, hs.unregistered⟩

/-- A reserved name is counted, so the counter does not run below zero when the name is freed. -/
theorem Suite.setReserved_no_underflow {d : Deployment} {s : Suite}
    (hsound : s.username.Sound d.keccak) (msg : Message) (name : Bytes) (reserved : Bool) :
    Refuses (s.setReserved d msg name reserved) fun reason => reason ≠ .panic 0x11 := by
  have hcount : reserved ≠ s.username.reserved (d.keccak.ofBytes name) → reserved = false →
      s.username.reservedUsernameCount ≠ 0 := by
    intro hdiffers hfree
    rw [hfree] at hdiffers
    have htaken : s.username.reserved (d.keccak.ofBytes name) = true := by
      simpa using Ne.symm hdiffers
    exact Nat.pos_iff_ne_zero.mp (hsound.counted.pos (n := name) htaken)
  simp only [setReserved, onlyActiveSuite, validateAndHash, checkedSub]
  simpa using fun _ _ _ _ => hcount

/-- In every reachable state the owner of a name has it as their name and the other way round, no
reserved name is registered, the counter is the number of reserved names, at most 128, and never runs
below zero, and a name registered up to the claim deadline that has an owner in the snapshot belongs
to that owner. -/
theorem usernames_inverse_counted_claimed {d : Deployment} {w : World} (h : Reachable d w) :
    (∀ name a, (w.suite.username.records (d.keccak.ofBytes name)).owner = a ∧ a ≠ 0 ↔
      w.suite.username.reverse a = name ∧ name ≠ []) ∧
    (∀ name, w.suite.username.reserved (d.keccak.ofBytes name) = true →
      (w.suite.username.records (d.keccak.ofBytes name)).owner = 0) ∧
    (∃ marked : Finset Bytes,
      (∀ name, name ∈ marked ↔ w.suite.username.reserved (d.keccak.ofBytes name) = true) ∧
        marked.card = w.suite.username.reservedUsernameCount) ∧
    w.suite.username.reservedUsernameCount ≤ 128 ∧
    (∀ msg name reserved, w.suite.setReserved d msg name reserved ≠ .error (.panic 0x11)) ∧
    ∀ name, (w.suite.username.records (d.keccak.ofBytes name)).owner ≠ 0 →
      (w.suite.username.records (d.keccak.ofBytes name)).registeredAt ≤
        w.suite.username.originalOwnerClaimDeadline →
      w.suite.username.snapshotOriginalOwner (d.keccak.ofBytes name) ≠ 0 →
      (w.suite.username.records (d.keccak.ofBytes name)).owner =
        w.suite.username.snapshotOriginalOwner (d.keccak.ofBytes name) := by
  have hsound := h.namesSound.sound
  refine ⟨hsound.paired, hsound.unreserved, hsound.counted, hsound.bounded, ?_, hsound.claimed⟩
  intro msg name reserved hpanic
  exact Suite.setReserved_no_underflow hsound msg name reserved _ hpanic rfl

namespace Sample

/-- The account that reserves names. -/
def policyAdmin : Account deployment := ⟨0xa7, by decide⟩

/-- The bytes of `"abc"`. -/
def shortName : Bytes := [0x61, 0x62, 0x63]

/-- The bytes of `"abd"`. -/
def otherName : Bytes := [0x61, 0x62, 0x64]

/-- `alice` takes a name, and another one is reserved. -/
def named : World := genesis.run
  [callAfter 1 alice (.registry (.registerUsername shortName)),
   callAfter 1 policyAdmin (.registry (.setReserved otherName true))]

theorem named_reachable : Reachable deployment named := genesis_reachable _

/-- The name of `alice` leads to `alice`, and the reserved name to nobody. -/
theorem named_inverse :
    named.suite.username.reverse alice.address = shortName ∧
      (named.suite.username.records (deployment.keccak.ofBytes shortName)).owner = alice.address ∧
      (named.suite.username.records (deployment.keccak.ofBytes otherName)).owner = 0 ∧
      ∃ marked : Finset Bytes, otherName ∈ marked ∧ marked.card = 1 := by
  have hname : named.suite.username.reverse alice.address = shortName := by decide +kernel
  have hreserved : named.suite.username.reserved (deployment.keccak.ofBytes otherName) = true := by
    decide +kernel
  have hcount : named.suite.username.reservedUsernameCount = 1 := by decide +kernel
  obtain ⟨hinverse, hfree, ⟨marked, hmarked, hcard⟩, -⟩ :=
    usernames_inverse_counted_claimed named_reachable
  refine ⟨hname, ((hinverse shortName alice.address).mpr ⟨hname, by decide⟩).1,
    hfree otherName hreserved, marked, (hmarked otherName).mpr hreserved, ?_⟩
  rw [hcard, hcount]

end Sample

end Igit
