import Igit.Library.Json

/-!
# The documents of the migration

`BuildPlan` and `ReadPlan` of `cli/internal/suitemigration/plan.go` read a snapshot or a plan in two
steps: `rejectDuplicateJSONKeys` walks over the tokens, and `encoding/json` decodes the document into
the structures of `schema.go`, with unknown fields disallowed. The walk compares names exactly and the
decoder up to case, so that a field can be set by two members that the walk takes for different ones:
`fields_set_once_iff`.

A document is given as a tree. What is not JSON at all is refused by both steps.
-/

namespace Igit.Migration

open Fallible Json

/-! ## The walk -/

/-- Why the walk stops. -/
inductive WalkError where
  /-- the tokens end too early -/
  | unexpectedEnd
  /-- `duplicate JSON object key %q` -/
  | duplicateKey (key : Text)
  /-- `object key is not a string` -/
  | keyNotString
  /-- `invalid JSON object close` -/
  | invalidObjectClose
  /-- `invalid JSON array close` -/
  | invalidArrayClose
  /-- `unexpected JSON delimiter %q` -/
  | unexpectedDelimiter
  /-- `trailing JSON data` -/
  | trailingData
  /-- the model ran out of fuel -/
  | exhausted
  deriving DecidableEq

mutual

/-- `walk`: go over one value and return the tokens after it. -/
def walk : Nat → List Token → Except WalkError (List Token)
  | 0, _ => .error .exhausted
  | _ + 1, [] => .error .unexpectedEnd
  | fuel + 1, .openObject :: rest => walkMembers fuel [] rest
  | fuel + 1, .openArray :: rest => walkItems fuel rest
  | _ + 1, .closeObject :: _ => .error .unexpectedDelimiter
  | _ + 1, .closeArray :: _ => .error .unexpectedDelimiter
  | _ + 1, .string _ :: rest => .ok rest
  | _ + 1, .literal :: rest => .ok rest

/-- The loop over the members of an object, with the names seen so far. -/
def walkMembers : Nat → List Text → List Token → Except WalkError (List Token)
  | 0, _, _ => .error .exhausted
  | _ + 1, _, [] => .error .invalidObjectClose
  | _ + 1, _, .closeObject :: rest => .ok rest
  | _ + 1, _, .closeArray :: _ => .error .invalidObjectClose
  | fuel + 1, seen, .string key :: rest =>
      if key ∈ seen then .error (.duplicateKey key)
      else do
        let after ← walk fuel rest
        walkMembers fuel (key :: seen) after
  | _ + 1, _, _ => .error .keyNotString

/-- The loop over the items of an array. -/
def walkItems : Nat → List Token → Except WalkError (List Token)
  | 0, _ => .error .exhausted
  | _ + 1, [] => .error .invalidArrayClose
  | _ + 1, .closeArray :: rest => .ok rest
  | _ + 1, .closeObject :: _ => .error .invalidArrayClose
  | fuel + 1, tokens => do
      let after ← walk fuel tokens
      walkItems fuel after

end

/-- `rejectDuplicateJSONKeys`. Every call and every round takes a token. -/
def rejectDuplicateJSONKeys (tokens : List Token) : Except WalkError Unit := do
  let after ← walk tokens.length tokens
  revertIf (after ≠ []) .trailingData

/-! ## What the walk accepts -/

/-- The members of an object pass the walk after some names: each name is new, and the names within
the values differ. -/
def FreshMembers : List Text → List (Text × Doc) → Prop
  | _, [] => True
  | seen, (name, doc) :: rest =>
      name ∉ seen ∧ doc.KeysDistinct ∧ FreshMembers (name :: seen) rest

theorem freshMembers_iff {seen : List Text} {members : List (Text × Doc)} :
    FreshMembers seen members ↔ (members.map Prod.fst).Nodup ∧
      (∀ name ∈ members.map Prod.fst, name ∉ seen) ∧ Doc.MembersDistinct members := by
  induction members generalizing seen with
  | nil => exact iff_of_true trivial ⟨List.nodup_nil, fun _ h => absurd h List.not_mem_nil, trivial⟩
  | cons member rest ih =>
      obtain ⟨name, doc⟩ := member
      rw [FreshMembers, ih, Doc.MembersDistinct, List.map_cons, List.nodup_cons, List.forall_mem_cons]
      have hnew : (∀ other ∈ rest.map Prod.fst, other ∉ name :: seen) ↔
          name ∉ rest.map Prod.fst ∧ ∀ other ∈ rest.map Prod.fst, other ∉ seen := by
        constructor
        · intro h
          refine ⟨fun hname => h name hname List.mem_cons_self, fun other hother hseen => ?_⟩
          exact h other hother (List.mem_cons_of_mem _ hseen)
        · rintro ⟨hname, hseen⟩ other hother hmem
          rcases List.mem_cons.mp hmem with rfl | hold
          · exact hname hother
          · exact hseen other hother hold
      rw [hnew]
      tauto

/-- Every value begins with a token that closes nothing. -/
theorem tokens_eq_cons (doc : Doc) : ∃ token rest, doc.tokens = token :: rest ∧
    token ≠ .closeArray ∧ token ≠ .closeObject := by
  cases doc with
  | null => exact ⟨_, _, rfl, nofun, nofun⟩
  | bool => exact ⟨_, _, rfl, nofun, nofun⟩
  | number => exact ⟨_, _, rfl, nofun, nofun⟩
  | string => exact ⟨_, _, rfl, nofun, nofun⟩
  | array => exact ⟨_, _, rfl, nofun, nofun⟩
  | object => exact ⟨_, _, rfl, nofun, nofun⟩

/-- A round of the loop over an array. -/
theorem walkItems_cons {fuel : Nat} (doc : Doc) (rest : List Token) :
    walkItems (fuel + 1) (doc.tokens ++ rest) =
      walk fuel (doc.tokens ++ rest) >>= walkItems fuel := by
  obtain ⟨token, others, htokens, harray, hobject⟩ := tokens_eq_cons doc
  rw [htokens, List.cons_append]
  cases token with
  | closeArray => exact absurd rfl harray
  | closeObject => exact absurd rfl hobject
  | _ => rfl

/-- What the walk does with a document: it passes over it exactly when no name is repeated. -/
def Passes (doc : Doc) : Prop :=
  ∀ fuel rest after, doc.tokens.length ≤ fuel →
    (walk fuel (doc.tokens ++ rest) = .ok after ↔ doc.KeysDistinct ∧ after = rest)

theorem walkItems_eq_ok {items : List Doc} (hitems : ∀ item ∈ items, Passes item) {fuel : Nat}
    {rest after : List Token} (hfuel : (Doc.tokensOfItems items).length < fuel) :
    walkItems fuel (Doc.tokensOfItems items ++ .closeArray :: rest) = .ok after ↔
      Doc.ItemsDistinct items ∧ after = rest := by
  induction items generalizing fuel with
  | nil =>
      cases fuel with
      | zero => cases hfuel
      | succ fuel =>
          show Except.ok rest = .ok after ↔ _
          rw [Except.ok.injEq, eq_comm, Doc.ItemsDistinct, true_and]
  | cons item others ih =>
      cases fuel with
      | zero => cases hfuel
      | succ fuel =>
          obtain ⟨token, tail, htokens, -, -⟩ := tokens_eq_cons item
          have hlength : 0 < item.tokens.length := by
            rw [htokens]
            exact Nat.succ_pos _
          rw [Doc.tokensOfItems, List.length_append] at hfuel
          rw [Doc.tokensOfItems, List.append_assoc, walkItems_cons, bind_eq_ok, Doc.ItemsDistinct]
          have hfirst := hitems item List.mem_cons_self fuel
            (Doc.tokensOfItems others ++ .closeArray :: rest)
          constructor
          · rintro ⟨middle, hwalk, hloop⟩
            obtain ⟨hitem, rfl⟩ := (hfirst middle (by omega)).mp hwalk
            obtain ⟨hothers, hafter⟩ := (ih (fun item hitem => hitems item (.tail _ hitem))
              (by omega)).mp hloop
            exact ⟨⟨hitem, hothers⟩, hafter⟩
          · rintro ⟨⟨hitem, hothers⟩, hafter⟩
            exact ⟨_, (hfirst _ (by omega)).mpr ⟨hitem, rfl⟩,
              (ih (fun item hitem => hitems item (.tail _ hitem)) (by omega)).mpr ⟨hothers, hafter⟩⟩

theorem walkMembers_eq_ok {members : List (Text × Doc)}
    (hmembers : ∀ member ∈ members, Passes member.2) {fuel : Nat} {seen : List Text}
    {rest after : List Token} (hfuel : (Doc.tokensOfMembers members).length < fuel) :
    walkMembers fuel seen (Doc.tokensOfMembers members ++ .closeObject :: rest) = .ok after ↔
      FreshMembers seen members ∧ after = rest := by
  induction members generalizing fuel seen with
  | nil =>
      cases fuel with
      | zero => cases hfuel
      | succ fuel =>
          show Except.ok rest = .ok after ↔ _
          rw [Except.ok.injEq, eq_comm, FreshMembers, true_and]
  | cons member others ih =>
      obtain ⟨name, doc⟩ := member
      cases fuel with
      | zero => cases hfuel
      | succ fuel =>
          rw [Doc.tokensOfMembers, List.length_cons, List.length_append] at hfuel
          rw [Doc.tokensOfMembers, List.cons_append, List.append_assoc, walkMembers, FreshMembers]
          have hothers := fun member hmember => hmembers member (.tail _ hmember)
          have hdoc : Passes doc := hmembers (name, doc) List.mem_cons_self
          have hfirst := hdoc fuel (Doc.tokensOfMembers others ++ .closeObject :: rest)
          by_cases hseen : name ∈ seen
          · rw [if_pos hseen]
            exact iff_of_false nofun fun h => h.1.1 hseen
          · rw [if_neg hseen, bind_eq_ok]
            constructor
            · rintro ⟨middle, hwalk, hloop⟩
              obtain ⟨hdoc, rfl⟩ := (hfirst middle (by omega)).mp hwalk
              obtain ⟨hfresh, hafter⟩ := (ih hothers (by omega)).mp hloop
              exact ⟨⟨hseen, hdoc, hfresh⟩, hafter⟩
            · rintro ⟨⟨-, hdoc, hfresh⟩, hafter⟩
              exact ⟨_, (hfirst _ (by omega)).mpr ⟨hdoc, rfl⟩,
                (ih hothers (by omega)).mpr ⟨hfresh, hafter⟩⟩

/-- The walk passes over every document without repeated names, and over no other. -/
theorem passes (doc : Doc) : Passes doc := by
  have hleaf : ∀ {doc : Doc} {token : Token}, doc.tokens = [token] →
      (∀ fuel rest, walk (fuel + 1) (token :: rest) = .ok rest) → doc.KeysDistinct → Passes doc := by
    intro doc token htokens hwalk hdistinct fuel rest after hfuel
    rw [htokens] at hfuel ⊢
    obtain ⟨fuel, rfl⟩ := Nat.exists_eq_add_of_le' hfuel
    show walk (fuel + 1) (token :: rest) = .ok after ↔ _
    rw [hwalk, Except.ok.injEq, eq_comm, and_iff_right hdistinct]
  induction doc with
  | null => exact hleaf rfl (fun _ _ => rfl) trivial
  | bool => exact hleaf rfl (fun _ _ => rfl) trivial
  | number => exact hleaf rfl (fun _ _ => rfl) trivial
  | string => exact hleaf rfl (fun _ _ => rfl) trivial
  | array items ih =>
      intro fuel rest after hfuel
      rw [Doc.tokens, List.length_cons, List.length_append, List.length_singleton] at hfuel
      cases fuel with
      | zero => cases hfuel
      | succ fuel =>
          rw [Doc.tokens, List.cons_append, List.append_assoc, List.singleton_append, walk,
            walkItems_eq_ok ih (by omega), Doc.KeysDistinct]
  | object members ih =>
      intro fuel rest after hfuel
      rw [Doc.tokens, List.length_cons, List.length_append, List.length_singleton] at hfuel
      cases fuel with
      | zero => cases hfuel
      | succ fuel =>
          rw [Doc.tokens, List.cons_append, List.append_assoc, List.singleton_append, walk,
            walkMembers_eq_ok ih (by omega), freshMembers_iff, Doc.KeysDistinct]
          simp only [List.not_mem_nil, not_false_eq_true, implies_true, true_and]

/-- `rejectDuplicateJSONKeys` accepts exactly the documents without repeated names, if nothing comes
after them. -/
theorem rejectDuplicateJSONKeys_eq_ok {doc : Doc} {trailing : List Token} :
    rejectDuplicateJSONKeys (doc.tokens ++ trailing) = .ok () ↔ doc.KeysDistinct ∧ trailing = [] := by
  have hwalk := fun after => passes doc (doc.tokens ++ trailing).length trailing after (by
    rw [List.length_append]
    omega)
  simp only [rejectDuplicateJSONKeys, bind_eq_ok, hwalk, revertIf_eq_ok, not_not]
  constructor
  · rintro ⟨after, ⟨hdistinct, rfl⟩, hnone⟩
    exact ⟨hdistinct, hnone⟩
  · rintro ⟨hdistinct, hnone⟩
    exact ⟨trailing, ⟨hdistinct, rfl⟩, hnone⟩

/-! ## The structures -/

namespace Shapes

/-- A structure with the JSON names of its fields. -/
def record (fields : List (String × Shape)) : Shape :=
  .record (fields.map fun f => (f.1.toList, f.2))

def uint8 : Shape := .number 0 (2 ^ 8 - 1)
def uint16 : Shape := .number 0 (2 ^ 16 - 1)
def uint64 : Shape := .number 0 (2 ^ 64 - 1)
def int : Shape := .number (-2 ^ 63) (2 ^ 63 - 1)

/-- `SnapshotSource`. -/
def snapshotSource : Shape :=
  record [("chain_id", .text), ("contract", .text), ("height", uint64), ("block_hash", .text),
    ("inventory_sha256", .text), ("tx_search_sha256", .text), ("block_evidence_sha256", .text),
    ("event_commitment_sha256", .text)]

/-- `ContractPolicy`. -/
def contractPolicy : Shape :=
  record [("admin", .text), ("treasury", .text), ("committee", .text),
    ("release_authority", .text), ("username_policy_admin", .text), ("platform_fee_bps", uint16)]

/-- `SnapshotRepository`. -/
def snapshotRepository : Shape :=
  record [("id", .text), ("owner", .text), ("name", .text), ("description", .text),
    ("default_branch", .text), ("forked_from", .text), ("created_at", uint64),
    ("updated_at", uint64)]

/-- `SnapshotAlias`. -/
def snapshotAlias : Shape :=
  record [("repo_id", .text), ("owner", .text), ("name", .text)]

/-- `SnapshotRef`. -/
def snapshotRef : Shape :=
  record [("repo_id", .text), ("ref_name", .text), ("commit_sha", .text),
    ("pack_uris", .list .text), ("updated_at", uint64), ("updated_by", .text)]

/-- `SnapshotCollaborator`. -/
def snapshotCollaborator : Shape :=
  record [("repo_id", .text), ("account", .text), ("role", .text)]

/-- `SnapshotGuardianConfig`. -/
def snapshotGuardianConfig : Shape :=
  record [("repo_id", .text), ("configured_by", .text), ("threshold", uint8),
    ("guardians", .list .text)]

/-- `SnapshotFinalStatus`. -/
def snapshotFinalStatus : Shape :=
  record [("repo_id", .text), ("status", .text)]

/-- `SnapshotReportTrail`. -/
def snapshotReportTrail : Shape :=
  record [("action", .text), ("actor", .text), ("status", .text), ("reason_hash", .text),
    ("timestamp", uint64)]

/-- `SnapshotReport`. -/
def snapshotReport : Shape :=
  record [("id", uint64), ("repo_id", .text), ("reporter", .text), ("status", .text),
    ("resolution", .text), ("reason_hash", .text), ("created_at", uint64), ("updated_at", uint64),
    ("trail", .list snapshotReportTrail)]

/-- `SnapshotRepositoryStatusLog`. -/
def snapshotRepositoryStatusLog : Shape :=
  record [("status", .text), ("actor", .text), ("reason_hash", .text), ("timestamp", uint64),
    ("report_id", uint64)]

/-- `SnapshotStatusTrail`. -/
def snapshotStatusTrail : Shape :=
  record [("repo_id", .text), ("trail", .list snapshotRepositoryStatusLog)]

/-- `SnapshotModeration`. -/
def snapshotModeration : Shape :=
  record [("final_statuses", .list snapshotFinalStatus), ("reports", .list snapshotReport),
    ("status_trails", .list snapshotStatusTrail)]

/-- `SnapshotSplit`. -/
def snapshotSplit : Shape :=
  record [("recipient", .text), ("bps", uint16)]

/-- `SnapshotRevenueSplits`. -/
def snapshotRevenueSplits : Shape :=
  record [("repo_id", .text), ("splits", .list snapshotSplit)]

/-- `SnapshotSponsorTotal`. -/
def snapshotSponsorTotal : Shape :=
  record [("repo_id", .text), ("denom", .text), ("amount", .text)]

/-- `SnapshotEconomic`. -/
def snapshotEconomic : Shape :=
  record [("splits", .list snapshotRevenueSplits), ("totals", .list snapshotSponsorTotal)]

/-- `SnapshotOriginalUsername`. -/
def snapshotOriginalUsername : Shape :=
  record [("name", .text), ("owner", .text)]

/-- `UsernameEscrowRelease`. -/
def usernameEscrowRelease : Shape :=
  record [("all_released", .flag), ("contract", .text), ("height", uint64), ("block_hash", .text),
    ("denom", .text), ("escrow_balance", .text), ("evidence_sha256", .text)]

/-- `SnapshotUsername`. -/
def snapshotUsername : Shape :=
  record [("original_owners", .list snapshotOriginalUsername), ("reserved_names", .list .text),
    ("escrow_release", usernameEscrowRelease)]

/-- `SnapshotBadge`. -/
def snapshotBadge : Shape :=
  record [("id", uint64), ("repo_id", .text), ("recipient", .text), ("awarded_by", .text),
    ("reason", .text), ("awarded_at", uint64)]

/-- `SnapshotBadgeRecipientIndex`. -/
def snapshotBadgeRecipientIndex : Shape :=
  record [("recipient", .text), ("badge_ids", .list uint64)]

/-- `SnapshotBadgeRepositoryIndex`. -/
def snapshotBadgeRepositoryIndex : Shape :=
  record [("repo_id", .text), ("badge_ids", .list uint64)]

/-- `SnapshotBadgeIndexes`. -/
def snapshotBadgeIndexes : Shape :=
  record [("by_recipient", .list snapshotBadgeRecipientIndex),
    ("by_repository", .list snapshotBadgeRepositoryIndex)]

/-- `SnapshotRelease`. -/
def snapshotRelease : Shape :=
  record [("version", .text), ("platform", .text), ("sha256", .text), ("registered_by", .text),
    ("registered_at", uint64)]

/-- `SnapshotReleaseVersion`. -/
def snapshotReleaseVersion : Shape :=
  record [("version", .text), ("platforms", .list .text)]

/-- `Snapshot`. -/
def snapshot : Shape :=
  record [("schema", .text), ("source", snapshotSource), ("contract_policy", contractPolicy),
    ("repositories", .list snapshotRepository), ("aliases", .list snapshotAlias),
    ("refs", .list snapshotRef), ("collaborators", .list snapshotCollaborator),
    ("guardian_configs", .list snapshotGuardianConfig), ("moderation", snapshotModeration),
    ("economic", snapshotEconomic), ("username", snapshotUsername),
    ("badges", .list snapshotBadge), ("badge_indexes", snapshotBadgeIndexes),
    ("releases", .list snapshotRelease), ("release_versions", .list snapshotReleaseVersion)]

/-- `PlanSnapshot`. -/
def planSnapshot : Shape :=
  record [("schema", .text), ("sha256", .text), ("root", .text), ("source_chain_id", .text),
    ("source_contract", .text), ("source_height", uint64), ("source_block_hash", .text),
    ("inventory_sha256", .text), ("tx_search_sha256", .text), ("block_evidence_sha256", .text),
    ("event_commitment_sha256", .text)]

/-- `PlanTarget`. -/
def planTarget : Shape :=
  record [("chain_id", uint64), ("suite_version", uint64), ("directory", .text),
    ("coordinator", .text)]

/-- `PlanLimits`. -/
def planLimits : Shape :=
  record [("batch_size", int), ("max_batch_items", int), ("max_payload_bytes", int)]

/-- `PlanBatch`. -/
def planBatch : Shape :=
  record [("sequence", uint64), ("kind", .text), ("kind_code", uint8), ("count", uint64),
    ("item_keys", .list .text), ("payload", .text), ("payload_hash", .text),
    ("rolling_root", .text)]

/-- `ModulePlan`. -/
def modulePlan : Shape :=
  record [("order", int), ("name", .text), ("id", .text), ("expected_count", uint64),
    ("expected_batches", uint64), ("expected_root", .text), ("batches", .list planBatch)]

/-- `PlanSummary`. -/
def planSummary : Shape :=
  record [("repository_count", int), ("alias_count", int), ("ref_count", int),
    ("collaborator_count", int), ("guardian_config_count", int), ("moderation_status_count", int),
    ("moderation_report_count", int), ("moderation_status_trail_count", int),
    ("economic_split_count", int), ("economic_total_count", int), ("username_owner_count", int),
    ("reserved_name_count", int), ("badge_count", int), ("release_artifact_count", int),
    ("batch_count", int), ("transaction_count", int)]

/-- `Plan`. -/
def plan : Shape :=
  record [("schema", .text), ("executable", .flag), ("snapshot", planSnapshot),
    ("target", planTarget), ("contract_policy", contractPolicy),
    ("username_escrow_release", usernameEscrowRelease), ("username_escrow_evidence_hash", .text),
    ("limits", planLimits), ("modules", .list modulePlan), ("summary", planSummary)]

end Shapes

/-- What is decoded. -/
inductive Stage where
  /-- `BuildPlan` decodes a snapshot -/
  | snapshot
  /-- `ReadPlan` decodes a plan -/
  | plan
  deriving DecidableEq

/-- The structure that a stage decodes into. -/
def Stage.shape : Stage → Shape
  | .snapshot => Shapes.snapshot
  | .plan => Shapes.plan

/-- A stage accepts a document: no name is repeated, and the strict decoder has no objection. -/
structure Stage.Accepts (stage : Stage) (folding : Folding) (doc : Doc) : Prop where
  unrepeated : rejectDuplicateJSONKeys doc.tokens = .ok ()
  decoded : ∃ value, decode folding .last doc stage.shape = .ok value

/-- The fields of the structures differ in more than case. -/
theorem Stage.shape_plain (stage : Stage) (folding : Folding) : stage.shape.Plain folding := by
  refine Shape.plain_of_asciiPlain _ ?_
  cases stage with
  | snapshot => decide +kernel
  | plan => decide +kernel

/-- In a document that a stage accepts, no field is set by two members exactly when no object has two
members that set fields and whose names differ in case alone. Then the document has one reading. -/
theorem fields_set_once_iff {stage : Stage} {folding : Folding} {doc : Doc}
    (h : stage.Accepts folding doc) :
    (SetOnce folding doc stage.shape ↔ CaseApart folding doc stage.shape) ∧
      (CaseApart folding doc stage.shape →
        decode folding .first doc stage.shape = decode folding .last doc stage.shape) := by
  have hdistinct : doc.KeysDistinct := by
    have hwalked := h.unrepeated
    rw [← List.append_nil doc.tokens] at hwalked
    exact (rejectDuplicateJSONKeys_eq_ok.mp hwalked).1
  have hiff := setOnce_iff_caseApart hdistinct (stage.shape_plain folding)
  exact ⟨hiff, fun happart => decode_eq_of_setOnce (hiff.mpr happart)⟩

namespace Sample

/-- Folding by upper case alone. -/
def upperFolding : Folding := ⟨Char.toUpper, fun _ _ => rfl⟩

/-- A member with a text. -/
def textMember (name text : String) : Text × Doc := (name.toList, .string text.toList)

/-- A snapshot document with a source and a schema. -/
def plainDocument : Doc :=
  .object [textMember "schema" "a", ("Source".toList, .object [textMember "chain_id" "b"])]

theorem plainDocument_accepted : Stage.snapshot.Accepts upperFolding plainDocument :=
  ⟨by decide +kernel, ⟨_, rfl⟩⟩

/-- It has one reading. -/
theorem plainDocument_reading :
    SetOnce upperFolding plainDocument Stage.snapshot.shape ∧
      decode upperFolding .first plainDocument Stage.snapshot.shape =
        decode upperFolding .last plainDocument Stage.snapshot.shape := by
  obtain ⟨hiff, hreading⟩ := fields_set_once_iff plainDocument_accepted
  have happart : CaseApart upperFolding plainDocument Stage.snapshot.shape := by decide +kernel
  exact ⟨hiff.mpr happart, hreading happart⟩

/-- A snapshot document with two schemas. -/
def twoSchemas : Doc := .object [textMember "schema" "a", textMember "SCHEMA" "b"]

/-- The schema of a decoded snapshot. -/
def schemaOf : Except DecodeError (Option Value) → Option Text
  | .ok (some (.record (.text text :: _))) => some text
  | _ => none

/-- It is accepted, and read in two ways. -/
theorem two_schemas_accepted :
    Stage.snapshot.Accepts upperFolding twoSchemas ∧
      ¬ SetOnce upperFolding twoSchemas Stage.snapshot.shape ∧
      schemaOf (decode upperFolding .last twoSchemas Stage.snapshot.shape) = some ['b'] ∧
      schemaOf (decode upperFolding .first twoSchemas Stage.snapshot.shape) = some ['a'] := by
  have htwice : ¬ SetOnce upperFolding twoSchemas Stage.snapshot.shape := by decide +kernel
  have hlast : schemaOf (decode upperFolding .last twoSchemas Stage.snapshot.shape) = some ['b'] := by
    decide +kernel
  have hfirst : schemaOf (decode upperFolding .first twoSchemas Stage.snapshot.shape) =
      some ['a'] := by decide +kernel
  exact ⟨⟨by decide +kernel, ⟨_, rfl⟩⟩, htwice, hlast, hfirst⟩

end Sample

end Igit.Migration
