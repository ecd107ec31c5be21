import Igit.Bootstrap.Replay
import Igit.Chain.Bech32
import Igit.Client.Entries
import Igit.Contracts.Pages
import Igit.Library.Paging
import Igit.Refs.Listing

/-!
# Listings

The list queries of `cli/internal/chain/evm_suite_registry.go` read a list of the suite page by page,
all pages at one block: `ListRepos`, `ListRefs`, `ListCollaborators`, `BadgesByRecipient`,
`BadgesByRepo` and `ReleaseArtifacts`. `listings_delivered` says exactly when each returns the list
that the contracts hold.

The state of the suite stands for the pinned block. Account texts are parsed before a query starts,
and answers that do not decode are left out.
-/

namespace Igit

open Fallible Chain

namespace Client

/-- Why a query fails. -/
inductive ListFailure where
  /-- `ensureVerified` does not accept the suite -/
  | unverified
  | reverted (reason : Revert)
  /-- `resolveRepository returned invalid repository state` -/
  | invalidRepository
  /-- `listRefsPage returned %d names and %d refs`, and the like for collaborators -/
  | mismatched (left right : Nat)
  /-- `%s returned %T outside uint64` -/
  | outsideUint64 (cursor : Nat)
  /-- `invalid collaborator role value %d` -/
  | invalidRole
  /-- `badge module returned an invalid badge` -/
  | invalidBadge
  /-- `release module returned a missing artifact` -/
  | missingArtifact
  /-- `repository page cursor did not advance from %d`, and the like for the other lists -/
  | didNotAdvance (cursor : Nat)
  deriving DecidableEq, Repr

/-- `suiteQueryPageSize`. -/
def suiteQueryPageSize : Nat := 64

/-- `RepoInfo`. -/
structure RepoInfo where
  owner : Bytes
  name : Bytes
  description : Bytes
  defaultBranch : Bytes
  createdAt : Nat
  updatedAt : Nat
  moderationStatus : String
  deriving DecidableEq, Repr

/-- `RefInfo`. -/
structure RefInfo where
  refName : Bytes
  commitSha : Bytes
  packUris : List Bytes
  updatedAt : Nat
  updatedBy : Bytes
  deriving DecidableEq, Repr

/-- `CollaboratorInfo`. -/
structure CollaboratorInfo where
  address : Bytes
  role : String
  deriving DecidableEq, Repr

/-- The client's `Badge`. -/
structure BadgeInfo where
  id : Nat
  repoId : Bytes32
  repoOwner : Bytes
  repoName : Bytes
  recipient : Bytes
  reason : Bytes
  awardedBy : Bytes
  awardedAt : Nat
  deriving DecidableEq, Repr

/-- The client's `ReleaseArtifact` as it is read. The digest stays a number. -/
structure ArtifactInfo where
  version : Bytes
  platform : Bytes
  sha256 : Bytes32
  registeredBy : Bytes
  registeredAt : Nat
  deriving DecidableEq, Repr

/-- The twenty bytes of an address, first byte first. -/
def addressBytes (address : Address) : List UInt8 :=
  (List.range 20).map fun i => UInt8.ofBitVec ((address >>> (8 * (19 - i))).setWidth 8)

/-- `suiteUserAddress`. The address goes through its hexadecimal text, which always parses. -/
def suiteUserAddress (address : Address) : Bytes :=
  encodeBech32Address injPrefix (addressBytes address)

/-- `moderationStatusName`. -/
def moderationStatusName : RepoStatus → String
  | .active => "active"
  | .frozen => "frozen"
  | .delisted => "delisted"

/-- `collaboratorRoleName`. -/
def collaboratorRoleName : Role → Except ListFailure String
  | .none => throw .invalidRole
  | .maintainer => pure "maintainer"
  | .reader => pure "reader"

/-- `callAt`: a view of the suite at the pinned block. -/
def callAt {α : Type} (view : Except Revert α) : Except ListFailure α := view.mapError .reverted

section Queries

variable (d : Deployment) (s : Suite)

/-- `ensureVerified`, as far as the suite goes: an inactive one is refused. -/
def ensureVerified : Except ListFailure Unit := revertIf (¬ s.IsActive) .unverified

/-- `moderationStatusAt`. -/
def moderationStatusAt (repoId : Bytes32) : Except ListFailure String := do
  let status ← callAt (s.effectiveStatus repoId)
  pure (moderationStatusName status)

/-- What the client tells about a repository of a given status. -/
def repoInfo (repository : Repository) (status : String) : RepoInfo where
  owner := suiteUserAddress repository.owner
  name := repository.name
  description := repository.description
  defaultBranch := repository.defaultBranch
  createdAt := repository.createdAt
  updatedAt := repository.updatedAt
  moderationStatus := status

/-- `repoInfoAt`. -/
def repoInfoAt (repository : Repository) : Except ListFailure RepoInfo := do
  let status ← moderationStatusAt s repository.id
  pure (repoInfo repository status)

/-- `resolveRepoAt`, of which the lists use the number of the repository. -/
def resolveRepoAt (owner : Address) (name : Bytes) : Except ListFailure Bytes32 := do
  let (repository, _canonical) ← callAt (s.resolveRepository d owner name)
  revertIf (repository.present = false) .invalidRepository
  let _info ← repoInfoAt s repository
  pure repository.id

/-- The loop that all queries share: page size, cursors of 64 bits, and the two cursor errors. -/
def pages {α β : Type} (fetch : Nat → Except ListFailure (List α × Nat))
    (convert : α → Except ListFailure β) : Paging.Reader ListFailure α β where
  size := suiteQueryPageSize
  bound := 2 ^ 64
  fetch := fetch
  convert := convert
  outside := .outsideUint64
  stuck := .didNotAdvance

/-- Two arrays of an answer, which have to be equally long. -/
def paired {α β : Type} (answer : List α × List β × Nat) :
    Except ListFailure (List (α × β) × Nat) := do
  revertIf (answer.1.length ≠ answer.2.1.length)
    (.mismatched answer.1.length answer.2.1.length)
  pure (answer.1.zip answer.2.1, answer.2.2)

/-- `ListRepos`. -/
def listRepos (owner : Address) : Except ListFailure (List RepoInfo) := do
  ensureVerified s
  (pages (fun cursor => callAt (s.listRepositoriesPage owner cursor suiteQueryPageSize))
    (repoInfoAt s)).read [] 0

/-- `suiteRefInfo`. -/
def suiteRefInfo (name : Bytes) (reference : GitRef) : RefInfo where
  refName := name
  commitSha := reference.commitSha
  packUris := reference.packUris
  updatedAt := reference.updatedAt
  updatedBy := suiteUserAddress reference.updatedBy

/-- `ListRefs`. -/
def listRefs (owner : Address) (name : Bytes) : Except ListFailure (List RefInfo) := do
  ensureVerified s
  let repoId ← resolveRepoAt d s owner name
  (pages (fun cursor => callAt (s.listRefsPage d repoId cursor suiteQueryPageSize) >>= paired)
    fun entry => pure (suiteRefInfo entry.1 entry.2)).read [] 0

/-- One collaborator of an answer. -/
def collaboratorInfo (account : Address) (role : Role) : Except ListFailure CollaboratorInfo := do
  let name ← collaboratorRoleName role
  pure ⟨suiteUserAddress account, name⟩

/-- `ListCollaborators`. -/
def listCollaborators (owner : Address) (name : Bytes) :
    Except ListFailure (List CollaboratorInfo) := do
  ensureVerified s
  let repoId ← resolveRepoAt d s owner name
  (pages (fun cursor => callAt (s.listCollaboratorsPage repoId cursor suiteQueryPageSize) >>= paired)
    fun entry => collaboratorInfo entry.1 entry.2).read [] 0

/-- What the client tells about a badge for a repository. -/
def badgeInfo (badge : Badge) (repository : Repository) : BadgeInfo where
  id := badge.id
  repoId := badge.repoId
  repoOwner := suiteUserAddress repository.owner
  repoName := repository.name
  recipient := suiteUserAddress badge.recipient
  reason := badge.reason
  awardedBy := suiteUserAddress badge.awardedBy
  awardedAt := badge.awardedAt

/-- One badge of an answer. The source keeps the repositories it has read in a map, which at one block
makes no difference. -/
def badgeAt (badge : Badge) : Except ListFailure BadgeInfo := do
  revertIf (2 ^ 64 ≤ badge.id ∨ badge.present = false) .invalidBadge
  let repository ← callAt (s.requireRepository badge.repoId)
  pure (badgeInfo badge repository)

/-- `badgesPageAt`. -/
def badgesPageAt (page : Nat → Nat → Except Revert (List Badge × Nat)) :
    Except ListFailure (List BadgeInfo) :=
  (pages (fun cursor => callAt (page cursor suiteQueryPageSize)) (badgeAt s)).read [] 0

/-- `BadgesByRecipient`. -/
def badgesByRecipient (recipient : Address) : Except ListFailure (List BadgeInfo) := do
  ensureVerified s
  badgesPageAt s (s.listBadgesByRecipientPage recipient)

/-- `BadgesByRepo`. -/
def badgesByRepo (owner : Address) (name : Bytes) : Except ListFailure (List BadgeInfo) := do
  ensureVerified s
  let repoId ← resolveRepoAt d s owner name
  badgesPageAt s (s.listBadgesByRepositoryPage repoId)

/-- What the client tells about an artifact. -/
def artifactInfo (artifact : Artifact) : ArtifactInfo where
  version := artifact.version
  platform := artifact.platform
  sha256 := artifact.sha256
  registeredBy := suiteUserAddress artifact.registeredBy
  registeredAt := artifact.registeredAt

/-- One artifact of an answer. -/
def artifactAt (artifact : Artifact) : Except ListFailure ArtifactInfo := do
  revertIf (artifact.present = false) .missingArtifact
  pure (artifactInfo artifact)

/-- `ReleaseArtifacts`. -/
def releaseArtifacts (version : Bytes) : Except ListFailure (List ArtifactInfo) := do
  ensureVerified s
  (pages (fun cursor => callAt (s.listArtifactsPage d version cursor suiteQueryPageSize))
    artifactAt).read [] 0

end Queries

/-! ## Delivery -/

/-- An error that is not about cursors. -/
def ListFailure.Harmless (reason : ListFailure) : Prop :=
  (∀ cursor total, reason ≠ .reverted (.invalidCursor cursor total)) ∧
    ∀ cursor, reason ≠ .didNotAdvance cursor

/-- A query returns the stored list exactly under a condition, and never fails because of a cursor. -/
structure Delivers {β : Type} (result : Except ListFailure (List β)) (stored : List β)
    (condition : Prop) : Prop where
  returned : result = .ok stored ↔ condition
  harmless : ∀ reason, result = .error reason → reason.Harmless

variable {d : Deployment} {s : Suite}

/-- A query after a step that has to succeed first. -/
theorem Delivers.after {α β : Type} {x : Except ListFailure α} (value : α)
    {f : α → Except ListFailure (List β)} {stored : List β} {condition rest : Prop}
    (hreturned : ∀ a, x = .ok a ↔ condition ∧ a = value)
    (hharmless : ∀ reason, x = .error reason → reason.Harmless)
    (hrest : condition → Delivers (f value) stored rest) :
    Delivers (x >>= f) stored (condition ∧ rest) where
  returned := by
    rw [bind_eq_ok]
    constructor
    · intro h
      obtain ⟨a, hx, hf⟩ := h
      obtain ⟨hcondition, rfl⟩ := (hreturned a).mp hx
      exact ⟨hcondition, (hrest hcondition).returned.mp hf⟩
    · intro h
      exact ⟨value, (hreturned value).mpr ⟨h.1, rfl⟩, (hrest h.1).returned.mpr h.2⟩
  harmless reason herror := by
    rcases bind_eq_error.mp herror with hx | ⟨a, hx, hf⟩
    · exact hharmless reason hx
    · obtain ⟨hcondition, rfl⟩ := (hreturned a).mp hx
      exact (hrest hcondition).harmless reason hf

/-- Every query starts with the check of the suite. -/
theorem Delivers.verified {β : Type} {query : Except ListFailure (List β)} {stored : List β}
    {rest : Prop} (hrest : s.IsActive → Delivers query stored rest) :
    Delivers (ensureVerified s >>= fun _ => query) stored (s.IsActive ∧ rest) := by
  refine .after () (fun _ => ?_) (fun reason hreason => ?_) hrest
  · simp [ensureVerified, revertIf_eq_ok]
  · obtain ⟨-, rfl⟩ := revertIf_eq_error.mp hreason
    constructor
    · intro _ _ h
      cases h
    · intro _ h
      cases h

section Loop

variable {κ V β : Type} {fetch : Nat → Except ListFailure (List V × Nat)}
  {convert : V → Except ListFailure β} {source : List κ} {read : κ → V} {g : κ → β}

/-- The loop over a list whose records are served in pages: it delivers when the cursors reach the end
and every record can be read. -/
theorem delivers_pages (good : κ → Prop) (hserves : (pages fetch convert).Serves (source.map read))
    (hgood : ∀ key ∈ source, convert (read key) = .ok (g key) ↔ good key)
    (hharmless : ∀ key ∈ source, ∀ reason, convert (read key) = .error reason → reason.Harmless) :
    Delivers ((pages fetch convert).read [] 0) (source.map g)
      (source.length < 2 ^ 64 ∧ ∀ key ∈ source, good key) := by
  have hsize : 0 < (pages fetch convert).size := Nat.succ_pos 63
  have hstart : 0 < (pages fetch convert).bound := Nat.two_pow_pos 64
  have hlength : (source.map read).length = source.length := List.length_map read
  have hread : source.length < 2 ^ 64 →
      (pages fetch convert).read [] 0 = source.mapM fun key => convert (read key) := by
    intro hbound
    rw [Paging.Reader.read_list hserves hsize (hlength ▸ hbound), List.mapM_map]
    rfl
  refine ⟨⟨fun hok => ?_, fun h => ?_⟩, fun reason hfails => ?_⟩
  · have hbound : source.length < 2 ^ 64 := by
      by_contra hlong
      rw [Nat.not_lt, ← hlength] at hlong
      exact Paging.Reader.read_ne_ok hserves hsize hlong hstart hok
    rw [hread hbound, mapM_eq_map_iff] at hok
    exact ⟨hbound, fun key hkey => (hgood key hkey).mp (hok key hkey)⟩
  · rw [hread h.1, mapM_eq_map_iff]
    exact fun key hkey => (hgood key hkey).mpr (h.2 key hkey)
  · rcases Paging.Reader.read_error hserves hsize (Nat.zero_le _) hstart hfails with
      ⟨next, -, -, rfl⟩ | ⟨item, hitem, herror⟩
    · exact ⟨fun _ _ => nofun, fun _ => nofun⟩
    · obtain ⟨key, hkey, rfl⟩ := List.mem_map.mp hitem
      exact hharmless key hkey reason herror

/-- The loop over a list whose records can all be read. -/
theorem delivers_readable (hserves : (pages fetch convert).Serves (source.map read))
    (hconvert : ∀ key ∈ source, convert (read key) = .ok (g key)) :
    Delivers ((pages fetch convert).read [] 0) (source.map g) (source.length < 2 ^ 64) := by
  have hdelivers := delivers_pages (fun _ => True) hserves
    (fun key hkey => iff_of_true (hconvert key hkey) trivial) fun key hkey reason hfails => by
      rw [hconvert key hkey] at hfails
      cases hfails
  exact ⟨hdelivers.returned.trans (and_iff_left fun _ _ => trivial), hdelivers.harmless⟩

end Loop

/-! ## What the queries are served -/

theorem callAt_eq_ok {α : Type} {view : Except Revert α} {value : α} :
    callAt view = .ok value ↔ view = .ok value := mapError_eq_ok

theorem callAt_eq_error {α : Type} {view : Except Revert α} {reason : ListFailure} :
    callAt view = .error reason ↔ ∃ cause, view = .error cause ∧ reason = .reverted cause := by
  cases view with
  | error cause => simp [callAt, Except.mapError, eq_comm]
  | ok value => simp [callAt, Except.mapError]

/-- A cursor of 64 bits leaves room for a page. -/
theorem cursor_room {cursor : Nat} (h : cursor < 2 ^ 64) :
    cursor + suiteQueryPageSize ≤ uint256Max := by
  have hmax : 2 ^ 64 + 64 ≤ uint256Max := by decide
  have hsize : suiteQueryPageSize = 64 := rfl
  omega

/-- The pages of a list of records. -/
theorem serves_records {κ V β : Type} (read : κ → V) (source : List κ)
    (convert : V → Except ListFailure β) :
    (pages (fun cursor => callAt (Suite.pageOf read source cursor suiteQueryPageSize))
      convert).Serves (source.map read) := by
  intro cursor hcursor hinside
  rw [List.length_map] at hcursor ⊢
  exact callAt_eq_ok.mpr
    (Suite.pageOf_eq_ok read (by decide) (by decide) hcursor (cursor_room hinside))

/-- The pages of a list whose records come in a second array. -/
theorem serves_pairs {κ V β : Type} (read : κ → V) (source : List κ)
    {page : Nat → Except Revert (List κ × List V × Nat)} (convert : κ × V → Except ListFailure β)
    (hpage : ∀ cursor names next, Suite.pageOf id source cursor suiteQueryPageSize =
      .ok (names, next) → page cursor = .ok (names, names.map read, next)) :
    (pages (fun cursor => callAt (page cursor) >>= paired) convert).Serves
      (source.map fun name => (name, read name)) := by
  intro cursor hcursor hinside
  rw [List.length_map] at hcursor ⊢
  have hnames : Suite.pageOf id source cursor suiteQueryPageSize = .ok
      ((source.drop cursor).take suiteQueryPageSize,
        min (cursor + suiteQueryPageSize) source.length) := by
    rw [Suite.pageOf_eq_ok id (by decide) (by decide) hcursor (cursor_room hinside), List.map_id]
  show callAt (page cursor) >>= paired = _
  rw [callAt_eq_ok.mpr (hpage cursor _ _ hnames)]
  show paired _ = _
  simp only [paired, bind_eq_ok, revertIf_eq_ok, exists_unit, pure_eq_ok]
  refine ⟨by rw [List.length_map]; exact not_not.mpr rfl, ?_⟩
  rw [← List.map_prod_left_eq_zip, List.map_take, List.map_drop]
  rfl

/-- In an active suite the modules find every repository of the core. -/
theorem effectiveStatus_eq {w : World} (h : Reachable d w) (hactive : w.suite.IsActive) {r : Bytes32}
    (hpresent : (w.suite.core.repositories r).present = true) :
    w.suite.effectiveStatus r = .ok (w.suite.moderation.statuses r) := by
  have hcore := h.registered.complete hactive .core
  simp only [Suite.effectiveStatus, bind_eq_ok, Suite.repository_eq_ok, pure_eq_ok]
  exact ⟨_, ⟨hcore, hpresent, rfl⟩, trivial⟩

/-- What the client reads about a repository of the core. -/
theorem repoInfoAt_eq {w : World} (h : Reachable d w) (hactive : w.suite.IsActive) {r : Bytes32}
    (hpresent : (w.suite.core.repositories r).present = true) :
    repoInfoAt w.suite (w.suite.core.repositories r) = .ok (repoInfo (w.suite.core.repositories r)
      (moderationStatusName (w.suite.moderation.statuses r))) := by
  have hid := h.entries.own_id r hpresent
  simp only [repoInfoAt, moderationStatusAt, hid, bind_eq_ok, callAt_eq_ok,
    effectiveStatus_eq h hactive hpresent, pure_eq_ok]
  exact ⟨_, ⟨_, rfl, rfl⟩, rfl⟩

/-- A locator that is taken resolves to its repository, and any other is not found. -/
theorem resolveRepoAt_eq {w : World} (h : Reachable d w) (hactive : w.suite.IsActive)
    (owner : Address) (name : Bytes) :
    resolveRepoAt d w.suite owner name =
      if w.suite.core.locators (d.locator owner name) = 0 then
        .error (.reverted (.locatorNotFound owner name))
      else .ok (w.suite.core.locators (d.locator owner name)) := by
  split
  next hfree =>
    have hnone : w.suite.resolveRepository d owner name = .error (.locatorNotFound owner name) := by
      rw [Suite.resolveRepository, bind_eq_error]
      exact Or.inl (revertIf_eq_error.mpr ⟨hfree, rfl⟩)
    rw [resolveRepoAt, bind_eq_error]
    exact Or.inl (callAt_eq_error.mpr ⟨_, hnone, rfl⟩)
  next htaken =>
    have hpresent := h.entries.located _ htaken
    have hinfo := repoInfoAt_eq h hactive hpresent
    have hid := h.entries.own_id _ hpresent
    simp only [resolveRepoAt, Suite.resolveRepository, bind_eq_ok, callAt_eq_ok, revertIf_eq_ok,
      exists_unit, pure_eq_ok]
    refine ⟨_, ⟨htaken, rfl⟩, ?_, _, hinfo, hid⟩
    rw [hpresent]
    decide

/-- A query about a repository starts with its name. -/
theorem Delivers.resolved {w : World} (h : Reachable d w) (hactive : w.suite.IsActive)
    (owner : Address) (name : Bytes) {β : Type} {query : Bytes32 → Except ListFailure (List β)}
    {stored : List β} {rest : Prop}
    (hrest : w.suite.core.locators (d.locator owner name) ≠ 0 →
      Delivers (query (w.suite.core.locators (d.locator owner name))) stored rest) :
    Delivers (resolveRepoAt d w.suite owner name >>= query) stored
      (w.suite.core.locators (d.locator owner name) ≠ 0 ∧ rest) := by
  refine .after _ (fun r => ?_) (fun reason hreason => ?_) hrest
  · rw [resolveRepoAt_eq h hactive]
    split
    next hfree => exact ⟨nofun, fun hboth => absurd hfree hboth.1⟩
    next htaken => simp [htaken, eq_comm]
  · rw [resolveRepoAt_eq h hactive] at hreason
    split at hreason
    · cases hreason
      exact ⟨fun _ _ => nofun, fun _ => nofun⟩
    · cases hreason

section Stored

variable (d) (s)

/-- The repositories that the core lists for an owner. -/
def storedRepos (owner : Address) : List RepoInfo :=
  (s.core.ownerRepositories owner).map fun r =>
    repoInfo (s.core.repositories r) (moderationStatusName (s.moderation.statuses r))

/-- The refs that the core lists for a repository. -/
def storedRefs (repoId : Bytes32) : List RefInfo :=
  (s.core.refNames repoId).map fun name =>
    suiteRefInfo name (s.core.refs repoId (d.keccak.ofBytes name))

/-- The texts of the two roles. -/
def roleText : Role → String
  | .reader => "reader"
  | _ => "maintainer"

/-- The collaborators that the core lists for a repository. -/
def storedCollaborators (repoId : Bytes32) : List CollaboratorInfo :=
  (s.core.collaborators repoId).map fun account =>
    ⟨suiteUserAddress account, roleText (s.core.roles repoId account)⟩

/-- The badges of a list. -/
def storedBadges (ids : List Nat) : List BadgeInfo :=
  ids.map fun id => badgeInfo (s.badges.badges id)
    (s.core.repositories (s.badges.badges id).repoId)

/-- The artifacts that the release module lists for a version. -/
def storedArtifacts (version : Bytes) : List ArtifactInfo :=
  (s.releases.platformsByVersion (d.keccak.ofBytes version)).map fun platform =>
    artifactInfo (s.releases.artifacts (Releases.artifactKey d.keccak version platform))

/-- The client can write the numbers of the badges of a list. -/
def BadgesFit (ids : List Nat) : Prop := ∀ id ∈ ids, (s.badges.badges id).id < 2 ^ 64

end Stored

variable {w : World}

theorem listRepos_delivers (h : Reachable d w) (owner : Address) :
    Delivers (listRepos w.suite owner) (storedRepos w.suite owner)
      (w.suite.IsActive ∧ (w.suite.core.ownerRepositories owner).length < 2 ^ 64) := by
  refine .verified fun hactive => delivers_readable (serves_records _ _ _) fun r hr => ?_
  exact repoInfoAt_eq h hactive ((h.ownerIndexed.listed owner r).mp hr).1

/-- A list within the limits of the core is short enough. -/
theorem Delivers.short {β : Type} {result : Except ListFailure (List β)} {stored : List β}
    {p q : Prop} {n : Nat} (h : Delivers result stored (p ∧ q ∧ n < 2 ^ 64)) (hn : n ≤ 1024) :
    Delivers result stored (p ∧ q) := by
  refine ⟨h.returned.trans (and_congr_right fun _ => and_iff_left ?_), h.harmless⟩
  omega

theorem listRefs_delivers (h : Reachable d w) (owner : Address) (name : Bytes) :
    Delivers (listRefs d w.suite owner name)
      (storedRefs d w.suite (w.suite.core.locators (d.locator owner name)))
      (w.suite.IsActive ∧ w.suite.core.locators (d.locator owner name) ≠ 0) := by
  have hshort := h.listings.refs.length_le (w.suite.core.locators (d.locator owner name))
  refine .short (.verified fun hactive => .resolved h hactive owner name fun htaken => ?_) hshort
  refine delivers_readable (serves_pairs _ _ _ fun cursor names next hpage => ?_) fun _ _ => rfl
  simp only [Suite.listRefsPage, bind_eq_ok, Suite.requireRepository_eq_ok, pure_eq_ok]
  exact ⟨_, ⟨h.entries.located _ htaken, rfl⟩, _, hpage, rfl⟩

/-- A listed account has a role with a name. -/
theorem collaboratorInfo_eq {role : Role} (hrole : role ≠ .none) (account : Address) :
    collaboratorInfo account role = .ok ⟨suiteUserAddress account, roleText role⟩ := by
  cases role with
  | none => exact absurd rfl hrole
  | maintainer => rfl
  | reader => rfl

theorem listCollaborators_delivers (h : Reachable d w) (owner : Address) (name : Bytes) :
    Delivers (listCollaborators d w.suite owner name)
      (storedCollaborators w.suite (w.suite.core.locators (d.locator owner name)))
      (w.suite.IsActive ∧ w.suite.core.locators (d.locator owner name) ≠ 0) := by
  have hshort := h.listings.collaborators (w.suite.core.locators (d.locator owner name))
  refine .short (.verified fun hactive => .resolved h hactive owner name fun htaken => ?_)
    (hshort.trans (by decide))
  refine delivers_readable (serves_pairs _ _ _ fun cursor names next hpage => ?_)
    fun account haccount => collaboratorInfo_eq ((h.listed.listed _ account).mp haccount) account
  simp only [Suite.listCollaboratorsPage, bind_eq_ok, Suite.requireRepository_eq_ok, pure_eq_ok]
  exact ⟨_, ⟨h.entries.located _ htaken, rfl⟩, _, hpage, rfl⟩

/-- A badge can be read when its number fits. -/
theorem badgeAt_eq (h : Reachable d w) {id : Nat} (hpresent : (w.suite.badges.badges id).present = true) :
    badgeAt w.suite (w.suite.badges.badges id) =
      if (w.suite.badges.badges id).id < 2 ^ 64 then
        .ok (badgeInfo (w.suite.badges.badges id)
          (w.suite.core.repositories (w.suite.badges.badges id).repoId))
      else .error .invalidBadge := by
  have hrepository := h.entries.awarded id hpresent
  split
  next hfits =>
    simp only [badgeAt, bind_eq_ok, revertIf_eq_ok, exists_unit, callAt_eq_ok,
      Suite.requireRepository_eq_ok, pure_eq_ok, hpresent, Bool.true_eq_false, or_false]
    exact ⟨by omega, _, ⟨hrepository, rfl⟩, rfl⟩
  next hlarge =>
    rw [badgeAt, bind_eq_error]
    exact Or.inl (revertIf_eq_error.mpr ⟨Or.inl (by omega), rfl⟩)

/-- The loop over badges that exist. -/
theorem badgesPageAt_delivers (h : Reachable d w) {ids : List Nat}
    (hpresent : ∀ id ∈ ids, (w.suite.badges.badges id).present = true)
    {page : Nat → Nat → Except Revert (List Badge × Nat)}
    (hpage : page = Suite.pageOf w.suite.badges.badges ids) :
    Delivers (badgesPageAt w.suite page) (storedBadges w.suite ids)
      (ids.length < 2 ^ 64 ∧ BadgesFit w.suite ids) := by
  subst hpage
  refine delivers_pages (fun id => (w.suite.badges.badges id).id < 2 ^ 64) (serves_records _ _ _)
    (fun id hid => ?_) fun id hid reason hfails => ?_
  · rw [badgeAt_eq h (hpresent id hid)]
    split
    next hfits => exact iff_of_true rfl hfits
    next hlarge => exact iff_of_false nofun hlarge
  · rw [badgeAt_eq h (hpresent id hid)] at hfails
    split at hfails
    · cases hfails
    · cases hfails
      exact ⟨fun _ _ => nofun, fun _ => nofun⟩

theorem badgesByRecipient_delivers (h : Reachable d w) (recipient : Address) :
    Delivers (badgesByRecipient w.suite recipient)
      (storedBadges w.suite (w.suite.badges.recipientBadgeIds recipient))
      (w.suite.IsActive ∧ (w.suite.badges.recipientBadgeIds recipient).length < 2 ^ 64 ∧
        BadgesFit w.suite (w.suite.badges.recipientBadgeIds recipient)) :=
  .verified fun _ => badgesPageAt_delivers h
    (fun id hid => (h.filed.badges.by_recipient.only id recipient hid).1) rfl

theorem badgesByRepo_delivers (h : Reachable d w) (owner : Address) (name : Bytes) :
    Delivers (badgesByRepo d w.suite owner name)
      (storedBadges w.suite (w.suite.badges.repoBadgeIds
        (w.suite.core.locators (d.locator owner name))))
      (w.suite.IsActive ∧ w.suite.core.locators (d.locator owner name) ≠ 0 ∧
        (w.suite.badges.repoBadgeIds (w.suite.core.locators (d.locator owner name))).length < 2 ^ 64 ∧
        BadgesFit w.suite (w.suite.badges.repoBadgeIds
          (w.suite.core.locators (d.locator owner name)))) := by
  refine .verified fun hactive => .resolved h hactive owner name fun htaken => ?_
  refine badgesPageAt_delivers h (fun id hid => (h.filed.badges.by_repository.only id _ hid).1) ?_
  funext cursor limit
  have hfound : w.suite.repository (w.suite.core.locators (d.locator owner name)) =
      .ok (w.suite.core.repositories (w.suite.core.locators (d.locator owner name))) :=
    Suite.repository_eq_ok.mpr
      ⟨h.registered.complete hactive .core, h.entries.located _ htaken, rfl⟩
  rw [Suite.listBadgesByRepositoryPage, hfound]
  rfl

theorem releaseArtifacts_delivers (h : Reachable d w) (version : Bytes) :
    Delivers (releaseArtifacts d w.suite version) (storedArtifacts d w.suite version)
      (w.suite.IsActive ∧
        (w.suite.releases.platformsByVersion (d.keccak.ofBytes version)).length < 2 ^ 64) := by
  refine .verified fun _ => delivers_readable (serves_records _ _ _) fun platform hplatform => ?_
  have hpresent := h.filed.releases.only platform version hplatform
  simp only [artifactAt, bind_eq_ok, revertIf_eq_ok, exists_unit, pure_eq_ok]
  exact ⟨by rw [hpresent]; decide, trivial⟩

/-- In every reachable state the client's queries return exactly the lists of the contracts, each entry
once and in order, from an active suite and for names that resolve. Refs and collaborators have no
other condition. Repositories and artifacts need a list that cursors of 64 bits can cross, and badges
need numbers of 64 bits too. No query ever fails because a cursor is invalid or does not advance. -/
theorem listings_delivered (h : Reachable d w) :
    (∀ owner, Delivers (listRepos w.suite owner) (storedRepos w.suite owner)
      (w.suite.IsActive ∧ (w.suite.core.ownerRepositories owner).length < 2 ^ 64)) ∧
    (∀ owner name, Delivers (listRefs d w.suite owner name)
      (storedRefs d w.suite (w.suite.core.locators (d.locator owner name)))
      (w.suite.IsActive ∧ w.suite.core.locators (d.locator owner name) ≠ 0)) ∧
    (∀ owner name, Delivers (listCollaborators d w.suite owner name)
      (storedCollaborators w.suite (w.suite.core.locators (d.locator owner name)))
      (w.suite.IsActive ∧ w.suite.core.locators (d.locator owner name) ≠ 0)) ∧
    (∀ recipient, Delivers (badgesByRecipient w.suite recipient)
      (storedBadges w.suite (w.suite.badges.recipientBadgeIds recipient))
      (w.suite.IsActive ∧ (w.suite.badges.recipientBadgeIds recipient).length < 2 ^ 64 ∧
        BadgesFit w.suite (w.suite.badges.recipientBadgeIds recipient))) ∧
    (∀ owner name, Delivers (badgesByRepo d w.suite owner name)
      (storedBadges w.suite (w.suite.badges.repoBadgeIds
        (w.suite.core.locators (d.locator owner name))))
      (w.suite.IsActive ∧ w.suite.core.locators (d.locator owner name) ≠ 0 ∧
        (w.suite.badges.repoBadgeIds (w.suite.core.locators (d.locator owner name))).length < 2 ^ 64 ∧
        BadgesFit w.suite (w.suite.badges.repoBadgeIds
          (w.suite.core.locators (d.locator owner name))))) ∧
    ∀ version, Delivers (releaseArtifacts d w.suite version) (storedArtifacts d w.suite version)
      (w.suite.IsActive ∧
        (w.suite.releases.platformsByVersion (d.keccak.ofBytes version)).length < 2 ^ 64) :=
  ⟨listRepos_delivers h, listRefs_delivers h, listCollaborators_delivers h,
    badgesByRecipient_delivers h, badgesByRepo_delivers h, releaseArtifacts_delivers h⟩

namespace Sample

open Igit.Sample

/-- The refs of `alice`'s repository are read back. -/
theorem tidied_refs_listed :
    listRefs deployment tidied.suite alice.address projectName =
        .ok (storedRefs deployment tidied.suite project) ∧
      (storedRefs deployment tidied.suite project).length = 1 := by
  have hactive : tidied.suite.IsActive := by decide +kernel
  have hproject : tidied.suite.core.locators (deployment.locator alice.address projectName) =
      project := by decide +kernel
  have hresolves : project ≠ 0 := by decide +kernel
  have hone : (tidied.suite.core.refNames project).length = 1 := by decide +kernel
  have hrefs := ((listings_delivered tidied_reachable).2.1 alice.address projectName).returned
  rw [hproject] at hrefs
  refine ⟨hrefs.mpr ⟨hactive, hresolves⟩, ?_⟩
  rw [storedRefs, List.length_map]
  exact hone

/-- A badge whose number has more than 64 bits. -/
def largeBadge : Badge := ⟨2 ^ 64, firstRepository.id, bob.address, alice.address, [0x61], 5, true⟩

/-- The payload that holds it. -/
def badgePayload : Bytes := Codec.badge.list.encode [largeBadge]

/-- What each module imports: a repository, and a badge for it. -/
def importedBatches : Module → List Batch
  | .core => [⟨1, firstPayload⟩]
  | .badge => [⟨1, badgePayload⟩]
  | _ => []

/-- A bootstrap with these imports. -/
def badgeCalls : List (Account importing × BootstrapOp) :=
  (importAuthority, .setBootstrapCoordinator 0xd2 1) ::
    requiredModules.map
      (fun m => (importOperator, .registerModule (.suite m) (importing.moduleAt m) 1)) ++
    [(importOperator, .attestUsernameEscrowReleased 5)] ++
    requiredModules.flatMap (fun m =>
      [(importOperator, .beginNextModule (.suite m) (importedBatches m).length
        (importedBatches m).length
        (rollingRoot importing.keccak m importing.snapshotRoot (importedBatches m)))] ++
      (importedBatches m).map (fun batch => (importOperator, .importBatch (.suite m) 0 batch.count
        (importing.keccak.ofBytes batch.payload) batch.payload)) ++
      [(importOperator, .finalizeCurrentModule (.suite m))]) ++
    [(importOperator, .activateSuite)]

/-- The world after it. -/
def badged : World :=
  (World.initial importing).run (badgeCalls.map fun call => (1, .call call.1 (.bootstrap call.2)))

theorem badged_reachable : Reachable importing badged := reachable_run _

/-- A badge list with a large number is a list of the contract, and the client cannot read it. -/
theorem large_badge_unlisted :
    Reachable importing badged ∧ badged.suite.IsActive ∧
      badged.suite.listBadgesByRecipientPage bob.address 0 suiteQueryPageSize =
        .ok ([largeBadge], 1) ∧
      badgesByRecipient badged.suite bob.address = .error .invalidBadge := by
  have hactive : badged.suite.IsActive := by decide +kernel
  have hids : badged.suite.badges.recipientBadgeIds bob.address = [2 ^ 64] := by decide +kernel
  have hbadge : badged.suite.badges.badges (2 ^ 64) = largeBadge := by decide +kernel
  have hpage : badged.suite.listBadgesByRecipientPage bob.address 0 suiteQueryPageSize =
      .ok ([largeBadge], 1) := by
    rw [Suite.listBadgesByRecipientPage, hids, Suite.pageOf_eq_ok _ (by decide) (by decide)
      (Nat.zero_le _) (by decide), List.map_singleton, hbadge]
    rfl
  refine ⟨badged_reachable, hactive, hpage, ?_⟩
  rw [badgesByRecipient, ensureVerified, bind_eq_error]
  refine Or.inr ⟨(), revertIf_eq_ok.mpr (not_not.mpr hactive), ?_⟩
  have hserves := serves_records badged.suite.badges.badges
    (badged.suite.badges.recipientBadgeIds bob.address) (badgeAt badged.suite)
  have hrefused : badgeAt badged.suite largeBadge = .error .invalidBadge := by
    rw [badgeAt, bind_eq_error]
    exact Or.inl (revertIf_eq_error.mpr ⟨Or.inl (Nat.le_refl _), rfl⟩)
  have hshort : ((badged.suite.badges.recipientBadgeIds bob.address).map
      badged.suite.badges.badges).length < 2 ^ 64 := by
    rw [hids, List.length_map]
    decide
  refine (Paging.Reader.read_list hserves (Nat.succ_pos 63) hshort).trans ?_
  rw [hids, List.map_singleton, hbadge]
  show [largeBadge].mapM (badgeAt badged.suite) = _
  rw [List.mapM_cons, hrefused]
  rfl

end Sample

end Client

end Igit
