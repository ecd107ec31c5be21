import Igit.Specs.Hooks

/-!
# An import is a decoding and a loop

The seven `_importPayload` functions read a payload as a list of records of one of fourteen kinds
and store the records one by one. `importPayload_eq` says so once for all of them: `decodeRecords`
is the reading, `storeRecord` stores one record of any kind.
-/

namespace Igit

open Fallible

/-- A record of one of the kinds the modules import. -/
inductive ImportRecord where
  | repository (record : ImportRepository)
  | repositoryAlias (record : ImportAlias)
  | ref (record : ImportRef)
  | collaborator (record : ImportCollaborator)
  | guardianConfig (record : ImportGuardianConfig)
  | status (record : ImportStatus)
  | report (record : ImportReport)
  | statusTrail (record : ImportStatusTrail)
  | splits (record : ImportSplits)
  | total (record : ImportTotal)
  | originalOwner (record : ImportOriginalOwner)
  | reservedName (name : Bytes)
  | badge (record : Badge)
  | artifact (record : Artifact)
  deriving DecidableEq, Repr

/-- The module that imports a record. -/
def ImportRecord.module : ImportRecord → Module
  | .repository _ | .repositoryAlias _ | .ref _ | .collaborator _ => .core
  | .guardianConfig _ => .recovery
  | .status _ | .report _ | .statusTrail _ => .moderation
  | .splits _ | .total _ => .economic
  | .originalOwner _ | .reservedName _ => .username
  | .badge _ => .badge
  | .artifact _ => .release

namespace Suite

variable (d : Deployment)

/-- Store one record. -/
def storeRecord (s : Suite) : ImportRecord → Except Revert Suite
  | .repository record => s.storeRepository d record
  | .repositoryAlias record => s.storeAlias d record
  | .ref record => s.storeImportedRef d record
  | .collaborator record => s.storeImportedCollaborator record
  | .guardianConfig record => s.storeGuardianConfig record
  | .status record => s.storeStatus record
  | .report record => s.storeImportedReport d record
  | .statusTrail record => s.storeImportedStatusTrail record
  | .splits record => s.storeSplits record
  | .total record => s.storeTotal d record
  | .originalOwner record => s.storeOriginalOwner d record
  | .reservedName name => s.storeReservedName d name
  | .badge record => s.storeImportedBadge record
  | .artifact record => s.storeImportedArtifact d record

end Suite

/-- A decoded list as records of one kind. -/
def tagged {α : Type} (tag : α → ImportRecord) (records : Option (List α)) :
    Except Revert (List ImportRecord) := do
  let items ← decoded records
  pure (items.map tag)

/-- The records a payload of a module holds. -/
def decodeRecords (abi : AbiDecode) : Module → Bytes → Except Revert (List ImportRecord)
  | .core, payload => do
      let (kind, records) ← decoded (abi.kindAndRecords payload)
      if kind = 0 then tagged .repository (abi.repositories records)
      else if kind = 1 then tagged .repositoryAlias (abi.aliases records)
      else if kind = 2 then tagged .ref (abi.refs records)
      else if kind = 3 then tagged .collaborator (abi.collaborators records)
      else throw (.invalidImportKind kind)
  | .recovery, payload => tagged .guardianConfig (abi.guardianConfigs payload)
  | .moderation, payload => do
      let (kind, records) ← decoded (abi.kindAndRecords payload)
      if kind = 0 then tagged .status (abi.statuses records)
      else if kind = 1 then tagged .report (abi.reports records)
      else if kind = 2 then tagged .statusTrail (abi.statusTrails records)
      else throw (.invalidImportKind kind)
  | .economic, payload => do
      let (kind, records) ← decoded (abi.kindAndRecords payload)
      if kind = 0 then tagged .splits (abi.splits records)
      else if kind = 1 then tagged .total (abi.totals records)
      else throw (.invalidImportKind kind)
  | .username, payload => do
      let (kind, records) ← decoded (abi.kindAndRecords payload)
      if kind = 0 then tagged .originalOwner (abi.originalOwners records)
      else if kind = 1 then tagged .reservedName (abi.reservedNames records)
      else throw (.invalidImportKind kind)
  | .badge, payload => tagged .badge (abi.badges payload)
  | .release, payload => tagged .artifact (abi.artifacts payload)

namespace Suite

variable {d : Deployment} {s : Suite} {m : Module} {payload : Bytes}

/-- Store records one by one and count them. -/
def storeRecords (d : Deployment) (s : Suite) (records : List ImportRecord) :
    Except Revert (Suite × Nat) := do
  let stored ← records.foldlM (storeRecord d) s
  pure (stored, records.length)

/-- One kind of records is decoded and stored like any other. -/
theorem importRecords_eq {α : Type} {records : Option (List α)}
    {store : Suite → α → Except Revert Suite} {tag : α → ImportRecord}
    (htag : ∀ s item, s.storeRecord d (tag item) = store s item) :
    s.importRecords records store = tagged tag records >>= s.storeRecords d := by
  have hstore : store = fun s item => s.storeRecord d (tag item) := by
    funext s item
    exact (htag s item).symm
  cases records with
  | none => rfl
  | some items =>
      show (items.foldlM store s >>= fun stored => pure (stored, items.length)) =
        (items.map tag).foldlM (storeRecord d) s >>= fun stored =>
          pure (stored, (items.map tag).length)
      rw [List.foldlM_map, List.length_map, hstore]

/-- An import decodes its payload and stores the records. -/
theorem importPayload_eq :
    s.importPayload d m payload = decodeRecords d.abi m payload >>= s.storeRecords d := by
  cases m with
  | core =>
      show s.importCore d payload = _
      simp only [importCore, decodeRecords, bind_assoc]
      congr 1
      funext ⟨kind, records⟩
      dsimp only
      split
      · exact importRecords_eq fun _ _ => rfl
      split
      · exact importRecords_eq fun _ _ => rfl
      split
      · exact importRecords_eq fun _ _ => rfl
      split
      · exact importRecords_eq fun _ _ => rfl
      · rfl
  | recovery => exact importRecords_eq fun _ _ => rfl
  | moderation =>
      show s.importModeration d payload = _
      simp only [importModeration, decodeRecords, bind_assoc]
      congr 1
      funext ⟨kind, records⟩
      dsimp only
      split
      · exact importRecords_eq fun _ _ => rfl
      split
      · exact importRecords_eq fun _ _ => rfl
      split
      · exact importRecords_eq fun _ _ => rfl
      · rfl
  | economic =>
      show s.importEconomic d payload = _
      simp only [importEconomic, decodeRecords, bind_assoc]
      congr 1
      funext ⟨kind, records⟩
      dsimp only
      split
      · exact importRecords_eq fun _ _ => rfl
      split
      · exact importRecords_eq fun _ _ => rfl
      · rfl
  | username =>
      show s.importUsername d payload = _
      simp only [importUsername, decodeRecords, bind_assoc]
      congr 1
      funext ⟨kind, records⟩
      dsimp only
      split
      · exact importRecords_eq fun _ _ => rfl
      split
      · exact importRecords_eq fun _ _ => rfl
      · rfl
  | badge => exact importRecords_eq fun _ _ => rfl
  | release => exact importRecords_eq fun _ _ => rfl

/-- The records of a payload belong to the module that decodes it. -/
theorem decodeRecords_module {abi : AbiDecode} :
    Returns (decodeRecords abi m payload) fun records => ∀ x ∈ records, x.module = m := by
  have htagged : ∀ {α : Type} (tag : α → ImportRecord) (records : Option (List α)),
      (∀ item, (tag item).module = m) →
      Returns (tagged tag records) fun records => ∀ x ∈ records, x.module = m := by
    intro α tag records htag
    simp only [tagged, returns_bind, returns_pure, List.forall_mem_map]
    exact returns_true.mono fun items _ item _ => htag item
  cases m with
  | recovery => exact htagged _ _ fun _ => rfl
  | badge => exact htagged _ _ fun _ => rfl
  | release => exact htagged _ _ fun _ => rfl
  | _ =>
      simp only [decodeRecords, returns_bind]
      refine returns_true.mono fun _ _ => ?_
      repeat' split
      all_goals first
        | exact htagged _ _ fun _ => rfl
        | simp

/-- An import succeeds when its payload decodes and every record can be stored in its turn. -/
theorem importPayload_eq_ok {stored : Suite × Nat} :
    s.importPayload d m payload = .ok stored ↔
      ∃ records, decodeRecords d.abi m payload = .ok records ∧
        records.foldlM (storeRecord d) s = .ok stored.1 ∧ stored.2 = records.length := by
  obtain ⟨stored, count⟩ := stored
  simp only [importPayload_eq, storeRecords, bind_eq_ok, pure_eq_ok, Prod.mk.injEq]
  constructor
  · rintro ⟨records, hdecode, _, hstore, rfl, rfl⟩
    exact ⟨records, hdecode, hstore, rfl⟩
  · rintro ⟨records, hdecode, hstore, rfl⟩
    exact ⟨records, hdecode, stored, hstore, rfl, rfl⟩

end Suite

end Igit
