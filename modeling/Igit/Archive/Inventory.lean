import Igit.Archive.Evidence
import Igit.Migration.Ordering

/-!
# The inventory of the archive

`BuildInventory` of `cli/internal/archivev1/inventory.go`: the transactions of the evidence are put
in the order of the chain, checked against the blocks, and the events of the contract are replayed
on an `inventoryBuilder`, which folds each of them into a commitment first (`Builder.apply`). The
sets it collects are sorted into an `Inventory`.

A loop over a map is a `MapLoop`, and what Go leaves open is a `Runtime`.
-/

namespace Igit.Archive

open Fallible
open Migration (ascii bytesLess lessThen)

/-! ## The records of an inventory -/

/-- `InventoryBlock`. -/
structure InventoryBlock where
  height : UInt64
  hash : Bytes
  timestamp : UInt64
  deriving DecidableEq, Repr

/-- `InventoryRepository`. -/
structure InventoryRepository where
  identity : Bytes
  owner : Bytes
  name : Bytes
  aliases : List Bytes
  forkedFrom : Bytes
  createdTxHash : Bytes
  createdHeight : UInt64
  createdTxIndex : UInt32
  deriving DecidableEq, Repr

/-- `InventoryUsername`. -/
structure InventoryUsername where
  name : Bytes
  owner : Bytes
  deriving DecidableEq, Repr

/-- `InventoryModeration`. -/
structure InventoryModeration where
  reportId : UInt64 := 0
  owner : Bytes := []
  repo : Bytes := []
  action : Bytes
  actor : Bytes
  status : Bytes := []
  reasonHash : Bytes := []
  timestamp : UInt64 := 0
  height : UInt64 := 0
  txIndex : UInt32 := 0
  eventIndex : UInt32 := 0
  deriving DecidableEq, Repr

/-- `Inventory`. -/
structure Inventory where
  schema : Bytes
  chainId : Bytes
  contract : Bytes
  cutoverHeight : UInt64
  cutoverBlockHash : Bytes
  txSearchQuery : Bytes
  sourceSha256 : Bytes
  blockSha256 : Bytes
  eventCommitment : Bytes
  scannedTxs : UInt64
  successfulTxs : UInt64
  blocks : List InventoryBlock
  repositories : List InventoryRepository
  owners : List Bytes
  reportIds : List UInt64
  moderationTrail : List InventoryModeration
  usernames : List InventoryUsername
  badgeRecipients : List Bytes
  releaseVersions : List Bytes
  deriving DecidableEq, Repr

/-- The loops over maps. `canonicalEvent` has one for each event. -/
inductive MapLoop where
  | attributes (height : UInt64) (index : UInt32) (eventIndex : Nat)
  | repositories
  | owners
  | reports
  | usernames
  | recipients
  | releases
  | blocks
  deriving DecidableEq, Repr

/-! ## The builder -/

/-- `inventoryBuilder`, without the contract and the blocks, which do not change. -/
structure Builder where
  repositories : HashMap Bytes InventoryRepository
  locators : HashMap Bytes Bytes
  reports : HashMap UInt64 Unit
  usernameByName : HashMap Bytes Bytes
  usernameByUser : HashMap Bytes Bytes
  recipients : HashMap Bytes Unit
  releases : HashMap Bytes Unit
  moderation : List InventoryModeration
  commitment : Digest
  successfulTxs : UInt64
  deriving DecidableEq

/-- The builder of a run that has replayed nothing. -/
def Builder.empty : Builder :=
  ⟨∅, ∅, ∅, ∅, ∅, ∅, ∅, [], ⟨List.replicate 32 0, rfl⟩, 0⟩

/-- The events that name a report. -/
inductive ReportStep where
  | submission
  | resolution
  | appeal
  | appealResolution
  deriving DecidableEq, Repr

/-- The errors of `apply`. -/
inductive EventFailure where
  | missingOwnerOrRepo
  | locatorExists (locator : Bytes)
  | missingForkSource
  | unknownSource (locator : Bytes)
  | occupiedTarget (locator : Bytes)
  | noRepository (identity : Bytes)
  | invalidReportId (step : ReportStep)
  | duplicateReport (id : UInt64)
  | unknownReport (step : ReportStep) (id : UInt64)
  | noTimestamp (height : UInt64)
  | missingActorOrAction
  | missingRepositoryOrReason
  | missingStatus
  | missingNameOrOwner
  | usernameRegistered (name : Bytes)
  | holdsUsername (owner name : Bytes)
  | releaseMismatch (name owner : Bytes)
  | missingRecipient
  | missingVersion
  | unknownAction (action : Bytes)
  deriving DecidableEq, Repr

/-- What an action does to the inventory. -/
inductive Action where
  | createRepo
  | forkRepo
  | transferOwnership
  | submitReport
  | resolveReport
  | appealReport
  | resolveAppeal
  | setModerationStatus
  | registerUsername
  | releaseUsername
  | awardBadge
  | registerRelease
  | keepsKeys
  deriving DecidableEq, Repr

/-- The actions that change something the inventory lists. -/
def listedActions : List (Bytes × Action) :=
  [(ascii "create_repo", .createRepo), (ascii "fork_repo", .forkRepo),
    (ascii "transfer_ownership", .transferOwnership),
    (ascii "submit_moderation_report", .submitReport),
    (ascii "resolve_moderation_report", .resolveReport),
    (ascii "appeal_moderation_report", .appealReport),
    (ascii "resolve_moderation_appeal", .resolveAppeal),
    (ascii "set_moderation_status", .setModerationStatus),
    (ascii "register_username", .registerUsername), (ascii "release_username", .releaseUsername),
    (ascii "award_badge", .awardBadge), (ascii "register_release", .registerRelease)]

/-- The known actions that do not. -/
def otherActions : List Bytes :=
  [ascii "instantiate", ascii "migrate", ascii "update_ref", ascii "delete_ref",
    ascii "set_collaborator", ascii "remove_collaborator", ascii "transfer_ownership_started",
    ascii "transfer_ownership_cancelled", ascii "set_guardians", ascii "recovery_proposed",
    ascii "recovery_approved", ascii "recovery_cancelled", ascii "update_repo_info",
    ascii "set_moderation_committee", ascii "sponsor", ascii "set_revenue_splits",
    ascii "set_fee_config", ascii "set_username_policy", ascii "schedule_upgrade",
    ascii "cancel_upgrade"]

/-- The cases of `apply`. -/
def actionOf (text : Bytes) : Option Action :=
  (listedActions.lookup text).or (if text ∈ otherActions then some .keepsKeys else none)

/-- `owner + "/" + name`. -/
def locatorOf (owner name : Bytes) : Bytes := owner ++ 0x2f :: name

/-- The identity of a repository: the transaction and the event that created it. -/
def identityOf (hash : Bytes) (eventIndex : Nat) : Bytes :=
  lowerHash hash ++ 0x3a :: decimal eventIndex

/-- `appendUnique`. -/
def appendUnique (values : List Bytes) (value : Bytes) : List Bytes :=
  if value ∈ values then values else values ++ [value]

/-- `canonicalEvent`: the fields of an event with NUL between them, the attributes by key. -/
def canonicalEvent (rt : Runtime MapLoop) (tx : OrderedTx) (eventIndex : Nat) (action : Bytes)
    (attributes : Attributes) : Bytes :=
  let keys := rt.sort bytesLess
    (rt.visit (.attributes tx.height tx.index eventIndex) attributes.keys)
  decimal tx.height.toNat ++ 0 :: decimal tx.index.toNat ++ 0 :: tx.hash ++ 0 ::
    decimal eventIndex ++ 0 :: action ++
    keys.flatMap fun key => 0 :: key ++ 0 :: HashMap.getD attributes key []

namespace Builder

variable (b : Builder)

/-- A repository that was created, or forked from another one. -/
def addRepository (tx : OrderedTx) (eventIndex : Nat) (attributes : Attributes) (forked : Bool) :
    Except EventFailure Builder := do
  let owner := attributes.get "owner"
  let name := attributes.get "repo"
  revertIf (owner = [] ∨ name = []) .missingOwnerOrRepo
  let locator := locatorOf owner name
  revertIf (locator ∈ b.locators) (.locatorExists locator)
  let identity := identityOf tx.hash eventIndex
  let source := locatorOf (attributes.get "source_owner") (attributes.get "source_repo")
  revertIf (forked = true ∧ source = ascii "/") .missingForkSource
  let record : InventoryRepository := {
    identity, owner, name, aliases := [locator], forkedFrom := if forked then source else [],
    createdTxHash := lowerHash tx.hash, createdHeight := tx.height, createdTxIndex := tx.index }
  pure { b with
    repositories := b.repositories.insert identity record
    locators := b.locators.insert locator identity }

/-- A repository gets a new owner. It keeps the locators it had. -/
def moveRepository (attributes : Attributes) : Except EventFailure Builder := do
  let newOwner := attributes.get "new_owner"
  let name := attributes.get "repo"
  let oldLocator := locatorOf (attributes.get "old_owner") name
  let newLocator := locatorOf newOwner name
  let identity ← demand (b.locators.lookup oldLocator) (.unknownSource oldLocator)
  revertIf ((b.locators.lookup newLocator).any (· ≠ identity)) (.occupiedTarget newLocator)
  -- the source would read through a nil pointer here
  let record ← demand (b.repositories.lookup identity) (.noRepository identity)
  pure { b with
    repositories := b.repositories.insert identity
      { record with owner := newOwner, aliases := appendUnique record.aliases newLocator }
    locators := b.locators.insert newLocator identity }

/-- `addModeration`. -/
def addModeration (blocks : HashMap UInt64 SourceBlock) (tx : OrderedTx) (eventIndex : Nat)
    (entry : InventoryModeration) : Except EventFailure Builder := do
  let timestamp := ((blocks.lookup tx.height).map SourceBlock.timestamp).getD 0
  revertIf (timestamp = 0) (.noTimestamp tx.height)
  revertIf (entry.actor = [] ∨ entry.action = []) .missingActorOrAction
  revertIf (entry.action = ascii "submitted" ∧
    (entry.owner = [] ∨ entry.repo = [] ∨ entry.reasonHash = [])) .missingRepositoryOrReason
  revertIf ((entry.action = ascii "resolved" ∨ entry.action = ascii "appeal_resolved" ∨
    entry.action = ascii "status_set") ∧ entry.status = []) .missingStatus
  pure { b with moderation := b.moderation ++ [{ entry with
    timestamp, height := tx.height, txIndex := tx.index, eventIndex := UInt32.ofNat eventIndex }] }

/-- The report an event names. -/
def reportId (attributes : Attributes) (step : ReportStep) : Except EventFailure UInt64 := do
  let id ← demand (parseUint64 (attributes.get "report_id")) (.invalidReportId step)
  revertIf (id = 0) (.invalidReportId step)
  pure id

/-- The report an event names, which was submitted before. -/
def knownReport (attributes : Attributes) (step : ReportStep) : Except EventFailure UInt64 := do
  let id ← reportId attributes step
  revertIf (id ∉ b.reports) (.unknownReport step id)
  pure id

/-- A text, or another one where it is empty. -/
def orElse (text other : Bytes) : Bytes := if text = [] then other else text

/-- A report is submitted. -/
def submitReport (blocks : HashMap UInt64 SourceBlock) (tx : OrderedTx) (eventIndex : Nat)
    (sender : Bytes) (attributes : Attributes) : Except EventFailure Builder := do
  let id ← reportId attributes .submission
  revertIf (id ∈ b.reports) (.duplicateReport id)
  addModeration { b with reports := b.reports.insert id () } blocks tx eventIndex {
    reportId := id, owner := attributes.get "owner", repo := attributes.get "repo",
    action := ascii "submitted", actor := orElse (attributes.get "reporter") sender,
    reasonHash := attributes.get "reason_hash" }

/-- A report is resolved, appealed, or its appeal resolved. -/
def followReport (blocks : HashMap UInt64 SourceBlock) (tx : OrderedTx) (eventIndex : Nat)
    (attributes : Attributes) (step : ReportStep) (action actor status : Bytes) :
    Except EventFailure Builder := do
  let id ← b.knownReport attributes step
  b.addModeration blocks tx eventIndex
    { reportId := id, action, actor, status, reasonHash := attributes.get "reason_hash" }

/-- A username is registered. -/
def registerUsername (attributes : Attributes) : Except EventFailure Builder := do
  let name := attributes.get "name"
  let owner := attributes.get "owner"
  revertIf (name = [] ∨ owner = []) .missingNameOrOwner
  revertIf (HashMap.getD b.usernameByName name [] ≠ []) (.usernameRegistered name)
  revertIf (HashMap.getD b.usernameByUser owner [] ≠ [])
    (.holdsUsername owner (HashMap.getD b.usernameByUser owner []))
  pure { b with
    usernameByName := b.usernameByName.insert name owner
    usernameByUser := b.usernameByUser.insert owner name }

/-- A username is released. -/
def releaseUsername (attributes : Attributes) : Except EventFailure Builder := do
  let name := attributes.get "name"
  let owner := attributes.get "owner"
  revertIf (HashMap.getD b.usernameByName name [] ≠ owner ∨
    HashMap.getD b.usernameByUser owner [] ≠ name) (.releaseMismatch name owner)
  pure { b with
    usernameByName := b.usernameByName.erase name
    usernameByUser := b.usernameByUser.erase owner }

/-- A badge is awarded. -/
def awardBadge (attributes : Attributes) : Except EventFailure Builder := do
  let recipient := attributes.get "recipient"
  revertIf (recipient = []) .missingRecipient
  pure { b with recipients := b.recipients.insert recipient () }

/-- A release is registered. -/
def registerRelease (attributes : Attributes) : Except EventFailure Builder := do
  let version := attributes.get "version"
  revertIf (version = []) .missingVersion
  pure { b with releases := b.releases.insert version () }

/-- The event in the commitment. -/
def commit (env : Env) (canonical : Bytes) : Builder :=
  { b with commitment := env.sha256 (b.commitment.1 ++ canonical) }

/-- The switch of `apply`. -/
def perform (blocks : HashMap UInt64 SourceBlock) (tx : OrderedTx) (eventIndex : Nat)
    (action sender : Bytes) (attributes : Attributes) : Except EventFailure Builder :=
  match actionOf action with
  | some .createRepo => b.addRepository tx eventIndex attributes false
  | some .forkRepo => b.addRepository tx eventIndex attributes true
  | some .transferOwnership => b.moveRepository attributes
  | some .submitReport => b.submitReport blocks tx eventIndex sender attributes
  | some .resolveReport =>
      b.followReport blocks tx eventIndex attributes .resolution (ascii "resolved") sender
        (attributes.get "status")
  | some .appealReport =>
      b.followReport blocks tx eventIndex attributes .appeal (ascii "appealed")
        (orElse (attributes.get "owner") sender) []
  | some .resolveAppeal =>
      b.followReport blocks tx eventIndex attributes .appealResolution (ascii "appeal_resolved")
        sender (attributes.get "status")
  | some .setModerationStatus =>
      b.addModeration blocks tx eventIndex {
        owner := attributes.get "owner", repo := attributes.get "repo",
        action := ascii "status_set", actor := sender, status := attributes.get "status",
        reasonHash := attributes.get "reason_hash" }
  | some .registerUsername => b.registerUsername attributes
  | some .releaseUsername => b.releaseUsername attributes
  | some .awardBadge => b.awardBadge attributes
  | some .registerRelease => b.registerRelease attributes
  | some .keepsKeys => pure b
  | none => throw (.unknownAction action)

/-- `apply`. -/
def apply (env : Env) (rt : Runtime MapLoop) (blocks : HashMap UInt64 SourceBlock) (tx : OrderedTx)
    (eventIndex : Nat) (action sender : Bytes) (attributes : Attributes) :
    Except EventFailure Builder :=
  (b.commit env (canonicalEvent rt tx eventIndex action attributes)).perform blocks tx eventIndex
    action sender attributes

end Builder

/-! ## The inventory of a builder -/

/-- `sortedKeys`. -/
def sortedKeys (rt : Runtime MapLoop) (loop : MapLoop) (values : HashMap Bytes Unit) : List Bytes :=
  rt.sort bytesLess (rt.visit loop values.keys)

/-- The order of the repositories: by owner, name and identity. -/
def repositoryLess : InventoryRepository → InventoryRepository → Bool :=
  lessThen InventoryRepository.owner bytesLess
    (lessThen InventoryRepository.name bytesLess fun a b => bytesLess a.identity b.identity)

/-- The records of the inventory, in the order in which a loop visits them. -/
def Builder.visitedRecords (rt : Runtime MapLoop) (b : Builder) : List InventoryRepository :=
  (rt.visit .repositories b.repositories.entries).map fun entry =>
    { entry.2 with aliases := rt.sort bytesLess entry.2.aliases }

/-- `inventory`. The fields that come from elsewhere are empty. -/
def Builder.inventory (b : Builder) (rt : Runtime MapLoop) (chainId contract : Bytes)
    (height : UInt64) : Inventory :=
  let records := b.visitedRecords rt
  let ownerSet : HashMap Bytes Unit := records.foldl (fun owners record =>
    owners.insert record.owner ()) ∅
  { schema := ascii "igit.cosmwasm-v1.inventory.v2", chainId, contract, cutoverHeight := height
    cutoverBlockHash := [], txSearchQuery := [], sourceSha256 := [], blockSha256 := []
    eventCommitment := encodeHex b.commitment.1, scannedTxs := 0, successfulTxs := b.successfulTxs
    blocks := [], repositories := rt.sort repositoryLess records
    owners := sortedKeys rt .owners ownerSet
    reportIds := rt.sort (fun a b => decide (a < b)) (rt.visit .reports b.reports.keys)
    moderationTrail := b.moderation
    usernames := rt.sort (fun a b => bytesLess a.name b.name)
      ((rt.visit .usernames b.usernameByName.entries).map fun entry => ⟨entry.1, entry.2⟩)
    badgeRecipients := sortedKeys rt .recipients b.recipients
    releaseVersions := sortedKeys rt .releases b.releases }

/-! ## The run -/

/-- The errors of `BuildInventory`. -/
inductive Failure where
  | arguments
  | unsafeContract
  | noEvidence
  | search (cause : SearchFailure)
  | count (decoded : Nat) (totalCount : UInt64)
  | noCutoverBlock (height : UInt64)
  | cutoverChain (chainId expected : Bytes)
  | beyondCutover (hash : Bytes) (height : UInt64)
  | duplicatePosition (position previous hash : Bytes)
  | duplicateHash (hash : Bytes)
  | noBlock (height : UInt64)
  | blockChain (height : UInt64) (chainId expected : Bytes)
  | notInBlock (hash : Bytes) (height : UInt64) (index : UInt32)
  | event (hash : Bytes) (eventIndex : Nat) (action : Bytes) (cause : EventFailure)
  | noAction (hash : Bytes)
  | unneededBlocks (blocks required : Nat)
  deriving DecidableEq, Repr

/-- What the loop over the transactions carries. -/
structure Scan where
  seenPosition : HashMap Bytes Bytes
  seenHash : HashMap Bytes Unit
  requiredBlocks : HashMap UInt64 SourceBlock
  builder : Builder
  deriving DecidableEq

/-- What the loop over the transactions reads. -/
structure Target where
  chainId : Bytes
  contract : Bytes
  cutoverHeight : UInt64
  blocks : HashMap UInt64 SourceBlock
  deriving DecidableEq

/-- The place of a transaction in the chain, `"%d/%d"`. -/
def OrderedTx.position (tx : OrderedTx) : Bytes :=
  decimal tx.height.toNat ++ 0x2f :: decimal tx.index.toNat

/-- The order of the transactions: by height, index and hash. -/
def transactionLess : OrderedTx → OrderedTx → Bool :=
  lessThen OrderedTx.height (fun a b => decide (a < b))
    (lessThen OrderedTx.index (fun a b => decide (a < b)) fun a b => bytesLess a.hash b.hash)

section Run

variable (env : Env) (rt : Runtime MapLoop) (target : Target)

/-- One event of a transaction. The second component tells whether the transaction has an action of
the contract yet. -/
def replayEvent (tx : OrderedTx) (sender : Bytes) (sofar : Builder × Bool) (event : AbciEvent × Nat) :
    Except Failure (Builder × Bool) :=
  let attributes := eventAttributes event.1
  if isContractEvent event.1.type attributes target.contract = false then pure sofar
  else
    let action := attributes.get "action"
    if action = [] then pure sofar
    else do
      let b ← (sofar.1.apply env rt target.blocks tx event.2 action sender attributes).mapError
        (.event tx.hash event.2 action)
      pure (b, true)

/-- The events of a transaction that succeeded. -/
def replayTransaction (b : Builder) (tx : OrderedTx) : Except Failure Builder := do
  let (b, matched) ← tx.events.zipIdx.foldlM
    (replayEvent env rt target tx (transactionSender tx.events)) (b, false)
  revertIf (matched = false) (.noAction tx.hash)
  pure { b with successfulTxs := b.successfulTxs + 1 }

/-- One transaction of the loop. -/
def scanTransaction (s : Scan) (tx : OrderedTx) : Except Failure Scan := do
  revertIf (tx.height > target.cutoverHeight) (.beyondCutover tx.hash tx.height)
  let position := tx.position
  revertIf (position ∈ s.seenPosition)
    (.duplicatePosition position (HashMap.getD s.seenPosition position []) tx.hash)
  revertIf (tx.hash ∈ s.seenHash) (.duplicateHash tx.hash)
  let block ← demand (target.blocks.lookup tx.height) (.noBlock tx.height)
  revertIf (block.chainId ≠ target.chainId) (.blockChain tx.height block.chainId target.chainId)
  revertIf (block.txHashes[tx.index.toNat]? ≠ some tx.hash) (.notInBlock tx.hash tx.height tx.index)
  let s := { s with
    seenPosition := s.seenPosition.insert position tx.hash
    seenHash := s.seenHash.insert tx.hash ()
    requiredBlocks := s.requiredBlocks.insert tx.height block }
  if tx.code ≠ 0 then pure s
  else do
    let b ← replayTransaction env rt target s.builder tx
    pure { s with builder := b }

/-- The loop over the transactions and the check of the blocks after it. -/
def scanTransactions (cutoverBlock : SourceBlock) (transactions : List OrderedTx) :
    Except Failure Scan := do
  let s ← transactions.foldlM (scanTransaction env rt target)
    ⟨∅, ∅, AList.singleton target.cutoverHeight cutoverBlock, .empty⟩
  revertIf (target.blocks.keys.length ≠ s.requiredBlocks.keys.length)
    (.unneededBlocks target.blocks.keys.length s.requiredBlocks.keys.length)
  pure s

end Run

/-- The bytes a query cannot hold. -/
def unsafeBytes : Bytes := [0x27, 0x22, 0x20, 0x5c, 0x09, 0x0d, 0x0a]

/-- The blocks of the inventory, by height. -/
def inventoryBlocks (rt : Runtime MapLoop) (requiredBlocks : HashMap UInt64 SourceBlock) :
    List InventoryBlock :=
  let heights := rt.sort (fun a b => decide (a < b)) (rt.visit .blocks requiredBlocks.keys)
  heights.map fun height =>
    let block := requiredBlocks.lookup height
    ⟨height, (block.map SourceBlock.hash).getD [], (block.map SourceBlock.timestamp).getD 0⟩

/-- `BuildInventory`. -/
def buildInventory (env : Env) (rt : Runtime MapLoop) (document : TxSearchDocument)
    (chainId contract : Bytes) (cutoverHeight : UInt64) (evidence : Option BlockEvidence) :
    Except Failure Inventory := do
  let chainId := env.trimSpace chainId
  let contract := env.trimSpace contract
  revertIf (chainId = [] ∨ contract = [] ∨ cutoverHeight = 0) .arguments
  revertIf (contract.any (· ∈ unsafeBytes)) .unsafeContract
  let evidence ← demand evidence .noEvidence
  revertIf (evidence.blocks.keys = [] ∨ evidence.sha256 = []) .noEvidence
  let pages ← (env.decodeTxSearch document.pages contract cutoverHeight).mapError .search
  revertIf (pages.transactions.length ≠ pages.totalCount.toNat)
    (.count pages.transactions.length pages.totalCount)
  let transactions := rt.sort transactionLess pages.transactions
  let cutoverBlock ← demand (evidence.blocks.lookup cutoverHeight) (.noCutoverBlock cutoverHeight)
  revertIf (cutoverBlock.chainId ≠ chainId) (.cutoverChain cutoverBlock.chainId chainId)
  let s ← scanTransactions env rt ⟨chainId, contract, cutoverHeight, evidence.blocks⟩ cutoverBlock
    transactions
  pure { s.builder.inventory rt chainId contract cutoverHeight with
    sourceSha256 := encodeHex (env.sha256 document.raw).1
    blockSha256 := evidence.sha256
    txSearchQuery := pages.query
    scannedTxs := pages.totalCount
    cutoverBlockHash := cutoverBlock.hash
    blocks := inventoryBlocks rt s.requiredBlocks }

end Igit.Archive
