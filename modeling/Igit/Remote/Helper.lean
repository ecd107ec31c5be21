import Igit.Contracts.World
import Igit.Library.PackStore

/-!
# The remote helper

`cli/internal/remote/helper.go` with the parts of `cli/internal/gitio/gitio.go` it calls: a push is
turned into one call of the core, and a fetch into a list of packs to load. Git, the gateways and
the replication service are not part of the repository. They enter as functions with the behaviour
the helper relies on: `GitRepo` says what `git pack-objects --revs --thin` puts into a pack, and
`Helper.durable` that a pack whose replication was confirmed can be fetched from the gateways.

Several clients share one repository on the chain. Each has its own copy of the refs it last listed
(`remoteRefs`), which may be out of date when it pushes.
-/

namespace Igit

open Fallible

/-- Why the helper gives up. -/
inductive RemoteError where
  /-- `cannot resolve local ref %s` -/
  | unresolvedRef (ref : Bytes)
  /-- `git pack-objects: %w` -/
  | packObjects
  /-- The local Kubo node did not take the pack. -/
  | addTemporary
  /-- `US Kubo swarm peer is not configured` -/
  | peerNotConfigured
  /-- `connect temporary local Kubo to US peer: %w` -/
  | peerUnreachable
  /-- `US replication client is not configured` -/
  | replicationNotConfigured
  /-- The upload was not authorized. -/
  | unauthorizedUpload
  /-- The pin was not confirmed. -/
  | unconfirmedPin
  /-- `unsupported pack uri scheme: %s` -/
  | unsupportedScheme (uri : Bytes)
  /-- No gateway has the pack. -/
  | packUnavailable (cid : Bytes)
  /-- `ingest packfile %s: %w` -/
  | ingest (uri : Bytes)
  /-- `ref %q does not exist` -/
  | refNotFound (ref : Bytes)
  /-- The transaction was reverted. -/
  | chain (reason : Revert)
  deriving DecidableEq, Repr

/-- `chain.RefInfo`, without the fields a push or a fetch does not read. -/
structure RefInfo where
  refName : Bytes
  commitSha : Bytes
  packUris : List Bytes
  deriving DecidableEq, Repr

/-- The cached entry of a ref. Ref names are unique, so the first entry is the only one. -/
def lookupRef (remoteRefs : List RefInfo) (name : Bytes) : Option RefInfo :=
  remoteRefs.find? fun info => info.refName = name

/-! ## Git and the network -/

/-- What the helper asks of the local git repository. Packs hold the objects that can be reached
from the wanted commit and from none of the excluded tips. Thin packs are stored against objects
that can be reached from an excluded tip, and a pack without objects is stored against nothing. -/
structure GitRepo (links : Bytes → List Bytes) where
  resolveRef : Bytes → Bytes
  hasObject : Bytes → Bool
  packRevs : Bytes → List Bytes → Except RemoteError (Pack Bytes)
  mem_objects {want : Bytes} {tips : List Bytes} {pack : Pack Bytes}
    (h : packRevs want tips = .ok pack) {o : Bytes} :
    o ∈ pack.objects ↔ Reaches links want o ∧ ∀ tip ∈ tips, ¬ Reaches links tip o
  bases_reached {want : Bytes} {tips : List Bytes} {pack : Pack Bytes}
    (h : packRevs want tips = .ok pack) {base : Bytes} (hbase : base ∈ pack.bases) :
    ∃ tip ∈ tips, Reaches links tip base
  bases_of_empty {want : Bytes} {tips : List Bytes} {pack : Pack Bytes}
    (h : packRevs want tips = .ok pack) (hempty : pack.objects = []) : pack.bases = []

namespace GitRepo

variable {links : Bytes → List Bytes} (git : GitRepo links)

/-- The excluded commits that are there locally. -/
def presentTips (exclude : List Bytes) : List Bytes :=
  exclude.filter fun ex => ex ≠ [] && git.hasObject ex

/-- `PackObjects`. -/
def packObjects (want : Bytes) (exclude : List Bytes) : Except RemoteError (Pack Bytes) :=
  git.packRevs want (git.presentTips exclude)

end GitRepo

/-- The replication service. -/
structure Replication where
  authorize : Bytes → Except RemoteError Unit
  confirm : Bytes → Except RemoteError Unit

/-- The client's way to the storage network. `firstPeer` is the configured peer, unless it is
blank. The other peers are optional and their failures are ignored. -/
structure Network where
  addTemporary : Pack Bytes → Except RemoteError Bytes
  firstPeer : Option Bytes
  swarmConnect : Bytes → Except RemoteError Unit
  replication : Option Replication

/-- The upload in `pushOne`: add the pack, connect, and have it replicated and pinned. -/
def Network.uploadPack (net : Network) (pack : Pack Bytes) : Except RemoteError Bytes := do
  let cid ← net.addTemporary pack
  match net.firstPeer with
  | none => throw .peerNotConfigured
  | some peer => do
      net.swarmConnect peer
      match net.replication with
      | none => throw .replicationNotConfigured
      | some replication => do
          replication.authorize cid
          replication.confirm cid
          pure cid

/-- `GetFromGateways`. -/
abbrev Gateways := Bytes → Except RemoteError (Pack Bytes)

/-- A client's installation of the helper. -/
structure Helper (links : Bytes → List Bytes) (gateways : Gateways) where
  git : GitRepo links
  net : Network
  durable {pack : Pack Bytes} {cid : Bytes} (h : net.uploadPack pack = .ok cid) :
    gateways cid = .ok pack

/-! ## Pushing -/

/-- `pushSpec`. -/
structure PushSpec where
  src : Bytes
  dst : Bytes
  force : Bool
  deriving DecidableEq, Repr

/-- `packEmpty`: the object count in the header is zero. -/
def packEmpty (pack : Pack Bytes) : Bool := pack.objects.length == 0

/-- The commits a push excludes: every listed tip, unless it is forced. -/
def excludedTips (remoteRefs : List RefInfo) (force : Bool) : List Bytes :=
  if force then [] else remoteRefs.map RefInfo.commitSha

/-- The commit the helper expects at `dst`. -/
def expectedSha (remoteRefs : List RefInfo) (dst : Bytes) : Bytes :=
  ((lookupRef remoteRefs dst).map RefInfo.commitSha).getD []

namespace Helper

variable {links : Bytes → List Bytes} {gateways : Gateways} (helper : Helper links gateways)

/-- Upload a pack and name its location. -/
def uploadUris (pack : Pack Bytes) : Except RemoteError (List Bytes) := do
  let cid ← helper.net.uploadPack pack
  pure [ipfsScheme ++ cid]

/-- The pack locations of a push. With nothing new, a listed ref keeps its locations and an unlisted
one gets a full pack. -/
def packLocations (remoteRefs : List RefInfo) (dst localSha : Bytes) (pack : Pack Bytes) :
    Except RemoteError (List Bytes) :=
  if packEmpty pack then
    match lookupRef remoteRefs dst with
    | some prev => if prev.packUris.length = 0 then helper.uploadUris pack else pure prev.packUris
    | none => do
        let full ← helper.git.packObjects localSha []
        helper.uploadUris full
  else helper.uploadUris pack

/-- `pushOne` up to the transaction it sends. -/
def pushOne (repoId : Bytes32) (remoteRefs : List RefInfo) (spec : PushSpec) :
    Except RemoteError CoreOp :=
  if spec.src = [] then pure (.deleteRef repoId spec.dst)
  else do
    let localSha := helper.git.resolveRef spec.src
    revertIf (localSha = []) (.unresolvedRef spec.src)
    let pack ← helper.git.packObjects localSha (excludedTips remoteRefs spec.force)
    let cids ← helper.packLocations remoteRefs spec.dst localSha pack
    pure (.updateRef repoId spec.dst localSha cids (expectedSha remoteRefs spec.dst) spec.force)

end Helper

/-! ## Fetching -/

/-- The bytes of `"://"`. -/
def schemeSeparator : Bytes := [0x3a, 0x2f, 0x2f]

/-- `fetchPack`. -/
def fetchPack (gateways : Gateways) (uri : Bytes) : Except RemoteError (Pack Bytes) :=
  if uri.take 7 = ipfsScheme then gateways (uri.drop 7)
  else if schemeSeparator <:+: uri then throw (.unsupportedScheme uri)
  else gateways uri

/-- `ListRefs`: the refs of the repository, in the order of its list of names. -/
def Suite.listRefs (d : Deployment) (s : Suite) (repoId : Bytes32) : List RefInfo :=
  (s.core.refNames repoId).map fun name =>
    let stored := s.core.refs repoId (d.keccak.ofBytes name)
    ⟨name, stored.commitSha, stored.packUris⟩

/-- The pack locations of a wanted ref: those of the cached entry, or else those on the chain. -/
def wantedUris (d : Deployment) (s : Suite) (repoId : Bytes32) (remoteRefs : List RefInfo)
    (name : Bytes) : Except RemoteError (List Bytes) :=
  match lookupRef remoteRefs name with
  | some entry => pure entry.packUris
  | none => do
      let stored := s.core.refs repoId (d.keccak.ofBytes name)
      revertIf (stored.present = false) (.refNotFound name)
      pure stored.packUris

/-- `cmdFetchBatch`: load the packs of all wanted refs into the object store, each once. -/
def cmdFetchBatch (d : Deployment) (s : Suite) (repoId : Bytes32) (gateways : Gateways)
    (remoteRefs : List RefInfo) (wanted : List Bytes) (store : List Bytes) :
    Except RemoteError (List Bytes) := do
  let uris ← wanted.mapM (wantedUris d s repoId remoteRefs)
  loadAll (fetchPack gateways) .ingest store (uris.foldl extendBy [])

/-! ## Clients and the chain -/

/-- The chain, and the refs each client last listed. -/
structure RemoteState where
  world : World
  remoteRefs : Nat → List RefInfo

/-- Something that happens: a client lists the refs, a client pushes, or the suite makes a move that
has nothing to do with the helper. -/
inductive RemoteEvent (d : Deployment) (links : Bytes → List Bytes) (gateways : Gateways) where
  | list (client : Nat)
  | push (client : Nat) (helper : Helper links gateways) (sender : Account d) (spec : PushSpec)
  | other (move : Move d)

namespace RemoteState

variable {d : Deployment} {links : Bytes → List Bytes} {gateways : Gateways}

/-- The state after an event. A push that fails before its transaction, or whose transaction is
reverted, changes nothing. -/
def next (repoId : Bytes32) (s : RemoteState) :
    RemoteEvent d links gateways → Except RemoteError RemoteState
  | .list client => pure { s with
      remoteRefs := Function.update s.remoteRefs client (s.world.suite.listRefs d repoId) }
  | .push client helper sender spec => do
      let op ← helper.pushOne repoId (s.remoteRefs client) spec
      let world ← (s.world.next (.call sender (.core op))).mapError .chain
      pure { s with world := world }
  | .other move => do
      let world ← (s.world.next move).mapError .chain
      pure { s with world := world }

end RemoteState

end Igit
