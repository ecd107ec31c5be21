import Igit.Contracts.Storage
import Igit.Library.Codec

/-!
# A deployment of the suite

The immutable side of a deployed suite: the addresses the contracts were created at, the
constructor arguments, and the two functions the contracts take from the chain and the compiler,
`keccak256` and `abi.decode`. Every theorem holds for each `Deployment`. The proof fields are the
constructors' own checks and the fact that nine distinct contracts live at nine distinct
nonzero addresses with code.

`Deployment` asks for a collision-free hash and nine distinct contracts, and both exist:
`Keccak.positional` writes its input down in base 257 and pairs the fields of an encoding, and
`Sample.deployment` is a deployment around it. `Sample.importing` also decodes what codecs of the
fourteen record types write, so that imports can be computed. `abi.decode` itself is left open
everywhere else.
-/

namespace Igit

/-- `abi.decode` at the types the importers use. `none` is a decoding failure, which reverts. -/
structure AbiDecode where
  kindAndRecords : Bytes → Option (Nat × Bytes)
  repositories : Bytes → Option (List ImportRepository)
  aliases : Bytes → Option (List ImportAlias)
  refs : Bytes → Option (List ImportRef)
  collaborators : Bytes → Option (List ImportCollaborator)
  guardianConfigs : Bytes → Option (List ImportGuardianConfig)
  statuses : Bytes → Option (List ImportStatus)
  reports : Bytes → Option (List ImportReport)
  statusTrails : Bytes → Option (List ImportStatusTrail)
  splits : Bytes → Option (List ImportSplits)
  totals : Bytes → Option (List ImportTotal)
  originalOwners : Bytes → Option (List ImportOriginalOwner)
  reservedNames : Bytes → Option (List Bytes)
  badges : Bytes → Option (List Badge)
  artifacts : Bytes → Option (List Artifact)

/-- The seven modules in the order of `SuiteDirectory.requiredModuleAt`. -/
def requiredModules : List Module :=
  [.core, .recovery, .moderation, .economic, .username, .badge, .release]

/-- The position of a module in the bootstrap order. -/
def Module.index : Module → Nat
  | .core => 0
  | .recovery => 1
  | .moderation => 2
  | .economic => 3
  | .username => 4
  | .badge => 5
  | .release => 6

/-- Everything about a suite that is fixed when its contracts are created. -/
structure Deployment where
  keccak : Keccak
  abi : AbiDecode
  chainid : Nat
  suiteDirectory : Address
  bootstrapCoordinator : Address
  moduleAt : Module → Address
  codeLength : Address → Nat
  codeHash : Address → Bytes32
  snapshotRoot : Bytes32
  bootstrapAuthority : Address
  operator : Address
  moderationAdmin : Address
  committee : Address
  economicAdmin : Address
  treasury : Address
  platformFeeBps : Nat
  policyAdmin : Address
  releaseAuthority : Address
  contracts_nodup :
    (suiteDirectory :: bootstrapCoordinator :: requiredModules.map moduleAt).Nodup
  contracts_ne_zero :
    0 ∉ suiteDirectory :: bootstrapCoordinator :: requiredModules.map moduleAt
  contracts_have_code :
    ∀ a ∈ suiteDirectory :: bootstrapCoordinator :: requiredModules.map moduleAt,
      codeLength a ≠ 0 ∧ codeHash a ≠ 0
  chainid_ne_zero : chainid ≠ 0
  snapshotRoot_ne_zero : snapshotRoot ≠ 0
  bootstrapAuthority_ne_zero : bootstrapAuthority ≠ 0
  operator_ne_zero : operator ≠ 0
  moderationAdmin_ne_zero : moderationAdmin ≠ 0
  committee_ne_zero : committee ≠ 0
  economicAdmin_ne_zero : economicAdmin ≠ 0
  treasury_ne_zero : treasury ≠ 0
  platformFeeBps_le : platformFeeBps ≤ 500
  policyAdmin_ne_zero : policyAdmin ≠ 0
  releaseAuthority_ne_zero : releaseAuthority ≠ 0

namespace Deployment

variable (d : Deployment)

/-- The addresses of the nine contracts. -/
def contracts : List Address :=
  d.suiteDirectory :: d.bootstrapCoordinator :: requiredModules.map d.moduleAt

/-- `RepositoryCore._locator`. -/
def locator (owner : Address) (name : Bytes) : Bytes32 := d.keccak.locator owner name

/-- The id `createRepository` and `forkRepository` derive for a repository of `sender`. -/
def repositoryId (sender : Address) (name : Bytes) : Bytes32 :=
  d.keccak.hash (.repository d.chainid d.suiteDirectory sender name)

/-- Every module is one of the nine contracts. -/
theorem moduleAt_mem_contracts (m : Module) : d.moduleAt m ∈ d.contracts := by
  cases m <;> simp [contracts, requiredModules]

/-- No module lives at the zero address. -/
theorem moduleAt_ne_zero (m : Module) : d.moduleAt m ≠ 0 := by
  intro h
  exact d.contracts_ne_zero (h ▸ d.moduleAt_mem_contracts m)

/-- The coordinator does not live at the zero address. -/
theorem bootstrapCoordinator_ne_zero : d.bootstrapCoordinator ≠ 0 := by
  intro h
  apply d.contracts_ne_zero
  rw [h]
  simp

/-- The storage the constructors leave. -/
def initialSuite : Suite where
  directory := { (default : Directory) with bootstrapAuthority := d.bootstrapAuthority }
  coordinator := default
  bootstrap := fun _ => default
  core := default
  recovery := default
  moderation := { (default : Moderation) with committee := d.committee, nextReportId := 1 }
  economic :=
    { (default : Economic) with
      treasury := d.treasury
      platformFeeBps := d.platformFeeBps
      settlementLock := 1 }
  username := default
  badges := { (default : Badges) with nextBadgeId := 1 }
  releases := default

end Deployment

/-- An account outside the suite. The suite's own contracts make no other calls than the ones in
their code, so the sender of a transaction, or of a call out of a payout, is never one of them. It is
not the zero address either, for which nobody can sign. -/
def Account (d : Deployment) : Type := { a : Address // a ∉ d.contracts ∧ a ≠ 0 }

namespace Account

variable {d : Deployment}

/-- The address of an outside account. -/
def address (account : Account d) : Address := account.val

/-- An outside account is not a module. -/
theorem address_ne_moduleAt (account : Account d) (m : Module) :
    account.address ≠ d.moduleAt m := by
  intro h
  apply account.property.1
  have hmem := d.moduleAt_mem_contracts m
  rw [← h] at hmem
  exact hmem

/-- Nobody sends from the zero address. -/
theorem address_ne_zero (account : Account d) : account.address ≠ 0 := account.property.2

/-- An outside account is not the coordinator. -/
theorem address_ne_coordinator (account : Account d) :
    account.address ≠ d.bootstrapCoordinator := by
  intro h
  apply account.property.1
  have hmem : d.bootstrapCoordinator ∈ d.contracts := by simp [Deployment.contracts]
  rw [← h] at hmem
  exact hmem

end Account

/-! ## A collision-free hash -/

/-- A byte string as a number in base 257, with digits from 1 to 256. -/
def encodeBytes : Bytes → Nat
  | [] => 0
  | c :: rest => (c.toNat + 1) + 257 * encodeBytes rest

/-- Different byte strings are different numbers. -/
theorem encodeBytes_inj {value other : Bytes} :
    encodeBytes value = encodeBytes other ↔ value = other := by
  refine ⟨fun h => ?_, fun h => h ▸ rfl⟩
  induction value generalizing other with
  | nil =>
      cases other with
      | nil => rfl
      | cons c rest => simp only [encodeBytes] at h; omega
  | cons c rest ih =>
      cases other with
      | nil => simp only [encodeBytes] at h; omega
      | cons c' rest' =>
          simp only [encodeBytes] at h
          have hc := c.toNat_lt
          have hc' := c'.toNat_lt
          have hdigit : c.toNat = c'.toNat := by omega
          have hrest : encodeBytes rest = encodeBytes rest' := by omega
          rw [UInt8.toNat_inj.mp hdigit, ih hrest]

/-- An address and a byte string as one number. -/
def encodeNamed (owner : Address) (name : Bytes) : Nat := owner.toNat + 2 ^ 160 * encodeBytes name

theorem encodeNamed_inj {owner other : Address} {name name' : Bytes} :
    encodeNamed owner name = encodeNamed other name' ↔ owner = other ∧ name = name' := by
  refine ⟨fun h => ?_, fun ⟨howner, hname⟩ => howner ▸ hname ▸ rfl⟩
  simp only [encodeNamed] at h
  have howner := owner.isLt
  have hother := other.isLt
  have haddress : owner.toNat = other.toNat := by omega
  have hname : encodeBytes name = encodeBytes name' := by omega
  exact ⟨BitVec.eq_of_toNat_eq haddress, encodeBytes_inj.mp hname⟩

/-- A module id as a number. -/
def ModuleId.encode : ModuleId → Nat
  | .suite m => 2 * m.index
  | .other id => 2 * id + 1

theorem ModuleId.encode_inj {id other : ModuleId} : id.encode = other.encode ↔ id = other := by
  refine ⟨fun h => ?_, fun h => h ▸ rfl⟩
  cases id with
  | suite m =>
      cases other with
      | suite n => cases m <;> cases n <;> simp_all [encode, Module.index]
      | other n => simp only [encode] at h; omega
  | other n =>
      cases other with
      | suite m => simp only [encode] at h; omega
      | other k =>
          simp only [encode] at h
          rw [Nat.eq_of_mul_eq_mul_left (by omega) (Nat.succ.inj h)]

/-- A hash without collisions inside a family of encodings, and never zero. -/
def positionalHash : Preimage → Nat
  | .bytes value => encodeBytes value + 1
  | .locator owner name => encodeNamed owner name + 1
  | .repository chainid directory sender name =>
      Nat.pair (Nat.pair chainid directory.toNat) (encodeNamed sender name) + 1
  | .artifact version platform => Nat.pair (encodeBytes version) (encodeBytes platform) + 1
  | .rollingSeed id root => 2 * Nat.pair id.encode root + 2
  | .rollingStep root id sequence count payloadHash =>
      2 * Nat.pair (Nat.pair root id.encode) (Nat.pair (Nat.pair sequence count) payloadHash) + 1

theorem positionalHash_injective {p q : Preimage} (hfamily : p.family = q.family)
    (h : positionalHash p = positionalHash q) : p = q := by
  cases p <;> cases q <;> simp only [Preimage.family] at hfamily <;> try cases hfamily
  all_goals simp only [positionalHash] at h
  case bytes.bytes => rw [encodeBytes_inj.mp (Nat.succ.inj h)]
  case locator.locator owner name owner' name' =>
      obtain ⟨rfl, rfl⟩ := encodeNamed_inj.mp (Nat.succ.inj h)
      rfl
  case repository.repository =>
      obtain ⟨hchain, hnamed⟩ := Nat.pair_eq_pair.mp (Nat.succ.inj h)
      obtain ⟨rfl, hdirectory⟩ := Nat.pair_eq_pair.mp hchain
      obtain ⟨rfl, rfl⟩ := encodeNamed_inj.mp hnamed
      rw [BitVec.eq_of_toNat_eq hdirectory]
  case artifact.artifact =>
      obtain ⟨hversion, hplatform⟩ := Nat.pair_eq_pair.mp (Nat.succ.inj h)
      rw [encodeBytes_inj.mp hversion, encodeBytes_inj.mp hplatform]
  case rollingSeed.rollingSeed =>
      obtain ⟨hid, rfl⟩ := Nat.pair_eq_pair.mp
        (Nat.eq_of_mul_eq_mul_left (by omega) (Nat.succ.inj (Nat.succ.inj h)))
      rw [ModuleId.encode_inj.mp hid]
  case rollingSeed.rollingStep => omega
  case rollingStep.rollingSeed => omega
  case rollingStep.rollingStep =>
      obtain ⟨hleft, hright⟩ := Nat.pair_eq_pair.mp
        (Nat.eq_of_mul_eq_mul_left (by omega) (Nat.succ.inj h))
      obtain ⟨rfl, hid⟩ := Nat.pair_eq_pair.mp hleft
      obtain ⟨hcounts, rfl⟩ := Nat.pair_eq_pair.mp hright
      obtain ⟨rfl, rfl⟩ := Nat.pair_eq_pair.mp hcounts
      rw [ModuleId.encode_inj.mp hid]

/-- The positional hash as a `keccak256`. -/
def Keccak.positional : Keccak := ⟨positionalHash, positionalHash_injective⟩

/-! ## Decoders -/

namespace Codec

/-- Byte strings. -/
def bytes : Codec Bytes := byte.list

/-- Addresses. -/
def address : Codec Address := word 160

/-- Truth values. -/
def bool : Codec Bool := oneOf [false, true] (by decide)

/-- The roles of a collaborator. -/
def role : Codec Role := oneOf [.none, .maintainer, .reader] (by intro a; cases a <;> decide)

/-- The statuses of a repository. -/
def repoStatus : Codec RepoStatus :=
  oneOf [.active, .frozen, .delisted] (by intro a; cases a <;> decide)

/-- The statuses of a report. -/
def reportStatus : Codec ReportStatus :=
  oneOf [.opened, .resolved, .appealed, .appealResolved] (by intro a; cases a <;> decide)

/-- What a trail of a report records. -/
def trailAction : Codec TrailAction :=
  oneOf [.submitted, .resolved, .appealed, .appealResolved, .statusSet]
    (by intro a; cases a <;> decide)

/-- Imported repositories. -/
def importRepository : Codec ImportRepository :=
  (nat.pair (address.pair (bytes.pair (bytes.pair (bytes.pair (nat.pair (nat.pair nat))))))).map
    (fun p => ⟨p.1, p.2.1, p.2.2.1, p.2.2.2.1, p.2.2.2.2.1, p.2.2.2.2.2.1, p.2.2.2.2.2.2.1,
      p.2.2.2.2.2.2.2⟩)
    (fun r => (r.id, r.owner, r.name, r.description, r.defaultBranch, r.forkedFrom, r.createdAt,
      r.updatedAt))
    fun _ => rfl

/-- Imported aliases. -/
def importAlias : Codec ImportAlias :=
  (nat.pair (address.pair bytes)).map (fun p => ⟨p.1, p.2.1, p.2.2⟩)
    (fun r => (r.repoId, r.owner, r.name)) fun _ => rfl

/-- Imported refs. -/
def importRef : Codec ImportRef :=
  (nat.pair (bytes.pair (bytes.pair (bytes.list.pair (nat.pair address))))).map
    (fun p => ⟨p.1, p.2.1, p.2.2.1, p.2.2.2.1, p.2.2.2.2.1, p.2.2.2.2.2⟩)
    (fun r => (r.repoId, r.refName, r.commitSha, r.packUris, r.updatedAt, r.updatedBy))
    fun _ => rfl

/-- Imported collaborators. -/
def importCollaborator : Codec ImportCollaborator :=
  (nat.pair (address.pair role)).map (fun p => ⟨p.1, p.2.1, p.2.2⟩)
    (fun r => (r.repoId, r.account, r.role)) fun _ => rfl

/-- Imported guardians. -/
def importGuardianConfig : Codec ImportGuardianConfig :=
  (nat.pair (address.pair (nat.pair address.list))).map (fun p => ⟨p.1, p.2.1, p.2.2.1, p.2.2.2⟩)
    (fun r => (r.repoId, r.configuredBy, r.threshold, r.guardians)) fun _ => rfl

/-- Imported statuses. -/
def importStatus : Codec ImportStatus :=
  (nat.pair repoStatus).map (fun p => ⟨p.1, p.2⟩) (fun r => (r.repoId, r.status)) fun _ => rfl

/-- Reports. -/
def report : Codec Report :=
  (nat.pair (nat.pair (address.pair (reportStatus.pair (repoStatus.pair (bytes.pair
    (nat.pair (nat.pair bool)))))))).map
    (fun p => ⟨p.1, p.2.1, p.2.2.1, p.2.2.2.1, p.2.2.2.2.1, p.2.2.2.2.2.1, p.2.2.2.2.2.2.1,
      p.2.2.2.2.2.2.2.1, p.2.2.2.2.2.2.2.2⟩)
    (fun r => (r.id, r.repoId, r.reporter, r.status, r.resolution, r.reasonHash, r.createdAt,
      r.updatedAt, r.present))
    fun _ => rfl

/-- Entries of the trail of a report. -/
def trailEntry : Codec TrailEntry :=
  (trailAction.pair (address.pair (repoStatus.pair (bytes.pair nat)))).map
    (fun p => ⟨p.1, p.2.1, p.2.2.1, p.2.2.2.1, p.2.2.2.2⟩)
    (fun r => (r.action, r.actor, r.status, r.reasonHash, r.timestamp)) fun _ => rfl

/-- Imported reports, with their trails. -/
def importReport : Codec ImportReport :=
  (report.pair trailEntry.list).map (fun p => ⟨p.1, p.2⟩) (fun r => (r.report, r.trail)) fun _ => rfl

/-- Entries of the trail of a status. -/
def statusTrailEntry : Codec StatusTrailEntry :=
  (repoStatus.pair (address.pair (bytes.pair (nat.pair nat)))).map
    (fun p => ⟨p.1, p.2.1, p.2.2.1, p.2.2.2.1, p.2.2.2.2⟩)
    (fun r => (r.status, r.actor, r.reasonHash, r.timestamp, r.reportId)) fun _ => rfl

/-- Imported trails of statuses. -/
def importStatusTrail : Codec ImportStatusTrail :=
  (nat.pair statusTrailEntry.list).map (fun p => ⟨p.1, p.2⟩) (fun r => (r.repoId, r.trail))
    fun _ => rfl

/-- Shares of a recipient. -/
def split : Codec Split :=
  (address.pair nat).map (fun p => ⟨p.1, p.2⟩) (fun r => (r.recipient, r.bps)) fun _ => rfl

/-- Imported tables of shares. -/
def importSplits : Codec ImportSplits :=
  (nat.pair split.list).map (fun p => ⟨p.1, p.2⟩) (fun r => (r.repoId, r.splits)) fun _ => rfl

/-- Imported totals. -/
def importTotal : Codec ImportTotal :=
  (nat.pair (bytes.pair nat)).map (fun p => ⟨p.1, p.2.1, p.2.2⟩)
    (fun r => (r.repoId, r.denom, r.amount)) fun _ => rfl

/-- Imported owners of names. -/
def importOriginalOwner : Codec ImportOriginalOwner :=
  (bytes.pair address).map (fun p => ⟨p.1, p.2⟩) (fun r => (r.name, r.owner)) fun _ => rfl

/-- Badges. -/
def badge : Codec Badge :=
  (nat.pair (nat.pair (address.pair (address.pair (bytes.pair (nat.pair bool)))))).map
    (fun p => ⟨p.1, p.2.1, p.2.2.1, p.2.2.2.1, p.2.2.2.2.1, p.2.2.2.2.2.1, p.2.2.2.2.2.2⟩)
    (fun r => (r.id, r.repoId, r.recipient, r.awardedBy, r.reason, r.awardedAt, r.present))
    fun _ => rfl

/-- Artifacts. -/
def artifact : Codec Artifact :=
  (bytes.pair (bytes.pair (nat.pair (address.pair (nat.pair bool))))).map
    (fun p => ⟨p.1, p.2.1, p.2.2.1, p.2.2.2.1, p.2.2.2.2.1, p.2.2.2.2.2⟩)
    (fun r => (r.version, r.platform, r.sha256, r.registeredBy, r.registeredAt, r.present))
    fun _ => rfl

/-- A payload of a kind: the kind and its encoded records. -/
def kindAndRecords : Codec (Nat × Bytes) := nat.pair bytes

end Codec

/-! ## Deployments that exist -/

namespace Sample

/-- Decoders that refuse every payload. The snapshot of this deployment is empty. -/
def emptyDecode : AbiDecode where
  kindAndRecords := fun _ => none
  repositories := fun _ => none
  aliases := fun _ => none
  refs := fun _ => none
  collaborators := fun _ => none
  guardianConfigs := fun _ => none
  statuses := fun _ => none
  reports := fun _ => none
  statusTrails := fun _ => none
  splits := fun _ => none
  totals := fun _ => none
  originalOwners := fun _ => none
  reservedNames := fun _ => none
  badges := fun _ => none
  artifacts := fun _ => none

/-- A suite at the addresses `0xd1` to `0xd9`. -/
def deployment : Deployment where
  keccak := .positional
  abi := emptyDecode
  chainid := 1439
  suiteDirectory := 0xd1
  bootstrapCoordinator := 0xd2
  moduleAt := fun m => BitVec.ofNat 160 (0xd3 + m.index)
  codeLength := fun _ => 1
  codeHash := fun _ => 1
  snapshotRoot := 7
  bootstrapAuthority := 0xa1
  operator := 0xa2
  moderationAdmin := 0xa3
  committee := 0xa4
  economicAdmin := 0xa5
  treasury := 0xa6
  platformFeeBps := 100
  policyAdmin := 0xa7
  releaseAuthority := 0xa8
  contracts_nodup := by decide
  contracts_ne_zero := by decide
  contracts_have_code := by simp
  chainid_ne_zero := by decide
  snapshotRoot_ne_zero := by decide
  bootstrapAuthority_ne_zero := by decide
  operator_ne_zero := by decide
  moderationAdmin_ne_zero := by decide
  committee_ne_zero := by decide
  economicAdmin_ne_zero := by decide
  treasury_ne_zero := by decide
  platformFeeBps_le := by decide
  policyAdmin_ne_zero := by decide
  releaseAuthority_ne_zero := by decide

/-- The account that installs the coordinator. -/
def authority : Account deployment := ⟨0xa1, by decide⟩

/-- The account that runs the bootstrap. -/
def operator : Account deployment := ⟨0xa2, by decide⟩

/-- A user. -/
def alice : Account deployment := ⟨0xa11ce, by decide⟩

/-- Another user. -/
def bob : Account deployment := ⟨0xb0b, by decide⟩

/-- A third user. -/
def carol : Account deployment := ⟨0xca201, by decide⟩

/-- Decoders that read what the codecs write. -/
def codecDecode : AbiDecode where
  kindAndRecords := Codec.kindAndRecords.read
  repositories := Codec.importRepository.list.read
  aliases := Codec.importAlias.list.read
  refs := Codec.importRef.list.read
  collaborators := Codec.importCollaborator.list.read
  guardianConfigs := Codec.importGuardianConfig.list.read
  statuses := Codec.importStatus.list.read
  reports := Codec.importReport.list.read
  statusTrails := Codec.importStatusTrail.list.read
  splits := Codec.importSplits.list.read
  totals := Codec.importTotal.list.read
  originalOwners := Codec.importOriginalOwner.list.read
  reservedNames := Codec.bytes.list.read
  badges := Codec.badge.list.read
  artifacts := Codec.artifact.list.read

/-- The sample deployment with decoders that work. -/
def importing : Deployment := { deployment with abi := codecDecode }

/-- The account that installs the coordinator there. -/
def importAuthority : Account importing := ⟨0xa1, by decide⟩

/-- The account that runs the bootstrap there. -/
def importOperator : Account importing := ⟨0xa2, by decide⟩

end Sample

end Igit
