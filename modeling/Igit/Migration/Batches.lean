import Igit.Migration.Accepted

/-!
# The loops of `appendRecordBatches`

`appendRecordBatches` of `cli/internal/suitemigration/plan.go` for any group of records and any
encoder, which may fail. The two nested loops are a machine: `Loop.next` is one round of the inner
loop, in which the encoder is asked about one slice. The slice is halved until its payload fits, and
then becomes a batch.

Whatever the encoder answers, the machine stops (`Loop.stops`). A machine that is done has cut the
records into batches (`Cut`), and one that failed was refused a slice or met a record that is too
large by itself. The planner cuts the records of a snapshot in this way, and a module reads them back
from its batches (`buildModule_reads`).
-/

namespace Igit.Migration

variable {α ε : Type}

/-- `recordGroup`: a key for every record, and the encoder of the kind. -/
structure RecordGroup (α ε : Type) where
  kind : Bytes
  kindCode : UInt8
  values : List α
  keys : List Bytes
  encode : List α → Except ε Bytes
  keys_length : keys.length = values.length

/-- The errors of `appendRecordBatches`. -/
inductive BatchError (ε : Type) where
  | encode (cause : ε)
  | recordTooLarge (key : Bytes) (size : Nat)
  deriving DecidableEq, Repr

/-- A point of the loops: before a round of the inner loop, at the end, or at an error. -/
inductive Loop (ε : Type) where
  | round (start stop : Nat) (b : Builder)
  | done (b : Builder)
  | failed (reason : BatchError ε)

namespace Loop

variable (env : Env) (id : ModuleId) (batchSize : Nat) (group : RecordGroup α ε)

/-- The head of the outer loop. -/
def outer (start : Nat) (b : Builder) : Loop ε :=
  if start < group.values.length then
    .round start (min (start + batchSize) group.values.length) b
  else .done b

/-- One round of the inner loop. -/
def next : Loop ε → Loop ε
  | .round start stop b =>
      match group.encode (group.values.extract start stop) with
      | .error cause => .failed (.encode cause)
      | .ok payload =>
          if payload.length ≤ maximumPayloadBytes then
            outer batchSize group stop
              (b.push env id group.kind group.kindCode (stop - start) (group.keys.extract start stop)
                payload)
          else if stop - start = 1 then
            .failed (.recordTooLarge (group.keys.getD start []) payload.length)
          else .round start (start + (stop - start) / 2) b
  | point => point

/-- The point after some rounds of `appendRecordBatches`. -/
def appendRecordBatches (b : Builder) (rounds : Nat) : Loop ε :=
  (next env id batchSize group)^[rounds] (outer batchSize group 0 b)

end Loop

/-! ## What one round can do -/

/-- The four ends of a round: the encoder fails, the payload fits, a single record is too large, or
the slice is halved. -/
theorem Loop.next_round (env : Env) (id : ModuleId) (batchSize : Nat) (group : RecordGroup α ε)
    (start stop : Nat) (b : Builder) :
    (∃ cause, group.encode (group.values.extract start stop) = .error cause ∧
        next env id batchSize group (.round start stop b) = .failed (.encode cause)) ∨
      ∃ payload, group.encode (group.values.extract start stop) = .ok payload ∧
        (payload.length ≤ maximumPayloadBytes ∧
            next env id batchSize group (.round start stop b) = outer batchSize group stop
              (b.push env id group.kind group.kindCode (stop - start) (group.keys.extract start stop)
                payload) ∨
          maximumPayloadBytes < payload.length ∧ stop - start = 1 ∧
            next env id batchSize group (.round start stop b) =
              .failed (.recordTooLarge (group.keys.getD start []) payload.length) ∨
          maximumPayloadBytes < payload.length ∧ stop - start ≠ 1 ∧
            next env id batchSize group (.round start stop b) =
              .round start (start + (stop - start) / 2) b) := by
  unfold next
  cases hencode : group.encode (group.values.extract start stop) with
  | error cause => exact .inl ⟨cause, rfl, by simp only [hencode]⟩
  | ok payload =>
      refine .inr ⟨payload, rfl, ?_⟩
      simp only [hencode]
      by_cases hfits : payload.length ≤ maximumPayloadBytes
      · exact .inl ⟨hfits, if_pos hfits⟩
      · have hlarge : maximumPayloadBytes < payload.length := Nat.lt_of_not_le hfits
        rw [if_neg hfits]
        by_cases hone : stop - start = 1
        · exact .inr (.inl ⟨hlarge, hone, if_pos hone⟩)
        · exact .inr (.inr ⟨hlarge, hone, if_neg hone⟩)

/-- The batches of the first records: each is a slice that was encoded and fits. -/
inductive Cut (env : Env) (id : ModuleId) (batchSize : Nat) (group : RecordGroup α ε) (b : Builder) :
    Nat → Builder → Prop
  | nil : Cut env id batchSize group b 0 b
  | push {start stop : Nat} {earlier : Builder} {payload : Bytes}
      (hcut : Cut env id batchSize group b start earlier) (hlt : start < stop)
      (hle : stop ≤ group.values.length) (hsize : stop - start ≤ batchSize)
      (hencode : group.encode (group.values.extract start stop) = .ok payload)
      (hfits : payload.length ≤ maximumPayloadBytes) :
      Cut env id batchSize group b stop
        (earlier.push env id group.kind group.kindCode (stop - start) (group.keys.extract start stop)
          payload)

/-- What holds at every point of the loops. -/
inductive Loop.Reached (env : Env) (id : ModuleId) (batchSize : Nat) (group : RecordGroup α ε)
    (b : Builder) : Loop ε → Prop
  | round {start stop : Nat} {current : Builder} (hcut : Cut env id batchSize group b start current)
      (hlt : start < stop) (hle : stop ≤ group.values.length) (hsize : stop - start ≤ batchSize) :
      Reached env id batchSize group b (.round start stop current)
  | done {current : Builder} (hcut : Cut env id batchSize group b group.values.length current) :
      Reached env id batchSize group b (.done current)
  | refused {start stop : Nat} {cause : ε} (hlt : start < stop) (hle : stop ≤ group.values.length)
      (hsize : stop - start ≤ batchSize)
      (hencode : group.encode (group.values.extract start stop) = .error cause) :
      Reached env id batchSize group b (.failed (.encode cause))
  | tooLarge {start : Nat} {payload : Bytes} (hlt : start < group.values.length)
      (hencode : group.encode (group.values.extract start (start + 1)) = .ok payload)
      (hlarge : maximumPayloadBytes < payload.length) :
      Reached env id batchSize group b
        (.failed (.recordTooLarge (group.keys.getD start []) payload.length))

namespace Loop

variable {env : Env} {id : ModuleId} {batchSize : Nat} {group : RecordGroup α ε} {b : Builder}
  {point : Loop ε}

theorem Reached.outer (hpositive : 1 ≤ batchSize) {start : Nat} {current : Builder}
    (hle : start ≤ group.values.length) (hcut : Cut env id batchSize group b start current) :
    Reached env id batchSize group b (outer batchSize group start current) := by
  unfold Loop.outer
  by_cases hlt : start < group.values.length
  · rw [if_pos hlt]
    exact .round hcut (by omega) (by omega) (by omega)
  · rw [if_neg hlt]
    have hend : start = group.values.length := by omega
    subst hend
    exact .done hcut

/-- One round keeps what holds at every point. -/
theorem Reached.next (hpositive : 1 ≤ batchSize) (h : Reached env id batchSize group b point) :
    Reached env id batchSize group b (next env id batchSize group point) := by
  cases h with
  | @round start stop current hcut hlt hle hsize =>
      rcases next_round env id batchSize group start stop current with
        ⟨cause, hencode, hnext⟩ | ⟨payload, hencode, hround⟩
      · rw [hnext]
        exact .refused hlt hle hsize hencode
      · rcases hround with ⟨hfits, hnext⟩ | ⟨hlarge, hone, hnext⟩ | ⟨-, hone, hnext⟩
        · rw [hnext]
          exact .outer hpositive hle (.push hcut hlt hle hsize hencode hfits)
        · rw [hnext]
          have hstop : stop = start + 1 := by omega
          subst hstop
          exact .tooLarge hle hencode hlarge
        · rw [hnext]
          exact .round hcut (by omega) (by omega) (by omega)
  | done hcut => exact .done hcut
  | refused hlt hle hsize hencode => exact .refused hlt hle hsize hencode
  | tooLarge hlt hencode hlarge => exact .tooLarge hlt hencode hlarge

/-- So it holds after any number of rounds. -/
theorem reached (hpositive : 1 ≤ batchSize) (rounds : Nat) :
    Reached env id batchSize group b (appendRecordBatches env id batchSize group b rounds) := by
  induction rounds with
  | zero => exact .outer hpositive (Nat.zero_le _) .nil
  | succ rounds ih =>
      rw [appendRecordBatches, Function.iterate_succ_apply']
      exact ih.next hpositive

/-! ## The loops stop -/

/-- Some number of rounds leads to the end or to an error. -/
def Stops (env : Env) (id : ModuleId) (batchSize : Nat) (group : RecordGroup α ε) (point : Loop ε) :
    Prop :=
  ∃ rounds, (∃ b, (Loop.next env id batchSize group)^[rounds] point = .done b) ∨
    ∃ reason, (Loop.next env id batchSize group)^[rounds] point = .failed reason

theorem Stops.of_next (h : Stops env id batchSize group (Loop.next env id batchSize group point)) :
    Stops env id batchSize group point := by
  obtain ⟨rounds, h⟩ := h
  exact ⟨rounds + 1, h⟩

/-- From a round the loops stop, if they stop from every later head of the outer loop. The induction
is on the size of the slice, which the round halves. -/
theorem Stops.round {start : Nat}
    (houter : ∀ later, start < later → ∀ b, Stops env id batchSize group (.outer batchSize group later b))
    {stop : Nat} (hlt : start < stop) (b : Builder) :
    Stops env id batchSize group (.round start stop b) := by
  induction hsize : stop - start using Nat.strong_induction_on generalizing stop with
  | _ size ih =>
      refine .of_next ?_
      rcases next_round env id batchSize group start stop b with
        ⟨cause, -, hnext⟩ | ⟨payload, -, hround⟩
      · rw [hnext]
        exact ⟨0, .inr ⟨_, rfl⟩⟩
      · rcases hround with ⟨-, hnext⟩ | ⟨-, -, hnext⟩ | ⟨-, hone, hnext⟩
        · rw [hnext]
          exact houter stop hlt _
        · rw [hnext]
          exact ⟨0, .inr ⟨_, rfl⟩⟩
        · rw [hnext]
          exact ih (start + (stop - start) / 2 - start) (by omega) (by omega) rfl

/-- The loops stop. The induction is on the records that are left. -/
theorem Stops.outer (hpositive : 1 ≤ batchSize) (start : Nat) (b : Builder) :
    Stops env id batchSize group (.outer batchSize group start b) := by
  induction hleft : group.values.length - start using Nat.strong_induction_on
    generalizing start b with
  | _ left ih =>
      unfold Loop.outer
      by_cases hlt : start < group.values.length
      · rw [if_pos hlt]
        refine .round (fun later hlater current => ?_) (by omega) b
        exact ih (group.values.length - later) (by omega) later current rfl
      · rw [if_neg hlt]
        exact ⟨0, .inl ⟨_, rfl⟩⟩

theorem stops (hpositive : 1 ≤ batchSize) (b : Builder) :
    ∃ rounds, (∃ result, appendRecordBatches env id batchSize group b rounds = .done result) ∨
      ∃ reason, appendRecordBatches env id batchSize group b rounds = .failed reason :=
  Stops.outer hpositive 0 b

end Loop

/-! ## Batches that were cut -/

/-- The records of a batch, their keys and their payload. -/
structure Piece (α : Type) where
  records : List α
  keys : List Bytes
  payload : Bytes

/-- The root after some pieces. -/
def rolledPieces (env : Env) (id : ModuleId) (b : Builder) (pieces : List (Piece α)) : Bytes32 :=
  env.rollFrom id b.batches.length b.root
    (pieces.map fun piece => (UInt64.ofNat piece.records.length, piece.payload))

/-- The batch of a piece after the earlier ones. -/
def Piece.toPlanBatch (env : Env) (id : ModuleId) (group : RecordGroup α ε) (b : Builder)
    (earlier : List (Piece α)) (piece : Piece α) : PlanBatch where
  sequence := UInt64.ofNat (b.batches.length + earlier.length)
  kind := group.kind
  kindCode := group.kindCode
  count := UInt64.ofNat piece.records.length
  itemKeys := piece.keys
  payload := .canonical piece.payload
  payloadHash := .canonical (env.keccak.ofBytes piece.payload)
  rollingRoot := .canonical (rolledPieces env id b (earlier ++ [piece]))

/-- The batches of pieces, after the earlier ones. -/
def planBatches (env : Env) (id : ModuleId) (group : RecordGroup α ε) (b : Builder) :
    List (Piece α) → List (Piece α) → List PlanBatch
  | _, [] => []
  | earlier, piece :: rest =>
      piece.toPlanBatch env id group b earlier :: planBatches env id group b (earlier ++ [piece]) rest

/-- A piece that was encoded, within both limits. -/
structure Piece.Fits (batchSize : Nat) (group : RecordGroup α ε) (piece : Piece α) : Prop where
  records_ne_nil : piece.records ≠ []
  records_le : piece.records.length ≤ batchSize
  keys_length : piece.keys.length = piece.records.length
  encoded : group.encode piece.records = .ok piece.payload
  payload_le : piece.payload.length ≤ maximumPayloadBytes

/-- Pieces make up the first records and their keys, and their batches were appended. -/
structure CutInto (env : Env) (id : ModuleId) (batchSize : Nat) (group : RecordGroup α ε)
    (b : Builder) (position : Nat) (result : Builder) (pieces : List (Piece α)) : Prop where
  records : pieces.flatMap Piece.records = group.values.take position
  keys : pieces.flatMap Piece.keys = group.keys.take position
  fits : ∀ piece ∈ pieces, piece.Fits batchSize group
  batches : result.batches = b.batches ++ planBatches env id group b [] pieces
  root : result.root = rolledPieces env id b pieces
  count : result.count = b.count + UInt64.ofNat position

section Cut

variable {env : Env} {id : ModuleId} {batchSize : Nat} {group : RecordGroup α ε} {b result : Builder}

theorem rollFrom_concat {position : Nat} {root : Bytes32} {batches : List (UInt64 × Bytes)}
    {last : UInt64 × Bytes} :
    env.rollFrom id position root (batches ++ [last]) =
      env.rollingStep (env.rollFrom id position root batches) id
        (UInt64.ofNat (position + batches.length)) last.1 (env.keccak.ofBytes last.2) := by
  induction batches generalizing position root with
  | nil => rfl
  | cons first rest ih =>
      rw [List.cons_append, Env.rollFrom, Env.rollFrom, ih, List.length_cons]
      have hposition : position + 1 + rest.length = position + (rest.length + 1) := by omega
      rw [hposition]

theorem planBatches_concat {earlier pieces : List (Piece α)} {last : Piece α} :
    planBatches env id group b earlier (pieces ++ [last]) =
      planBatches env id group b earlier pieces ++
        [last.toPlanBatch env id group b (earlier ++ pieces)] := by
  induction pieces generalizing earlier with
  | nil => rw [List.append_nil]; rfl
  | cons piece rest ih =>
      rw [List.cons_append, planBatches, planBatches, ih, List.append_assoc, List.cons_append]
      rfl

theorem length_planBatches {earlier pieces : List (Piece α)} :
    (planBatches env id group b earlier pieces).length = pieces.length := by
  induction pieces generalizing earlier with
  | nil => rfl
  | cons piece rest ih => rw [planBatches, List.length_cons, List.length_cons, ih]

/-- A slice after the records before it. -/
theorem take_append_extract {β : Type} {items : List β} {start stop : Nat} (h : start ≤ stop) :
    items.take start ++ items.extract start stop = items.take stop := by
  rw [List.extract_eq_take_drop, ← List.take_add, Nat.add_sub_cancel' h]

theorem length_extract_of_le {β : Type} {items : List β} {start stop : Nat} (hle : stop ≤ items.length) :
    (items.extract start stop).length = stop - start := by
  rw [List.extract_eq_take_drop, List.length_take, List.length_drop]
  omega

/-- What the loops cut is cut into pieces. -/
theorem Cut.pieces {position : Nat} (h : Cut env id batchSize group b position result) :
    ∃ pieces, CutInto env id batchSize group b position result pieces := by
  induction h with
  | nil => exact ⟨[], rfl, rfl, by simp, (List.append_nil _).symm, rfl, (UInt64.add_zero _).symm⟩
  | @push start stop earlier payload hcut hlt hle hsize hencode hfits ih =>
      obtain ⟨pieces, hpieces⟩ := ih
      have hrecords : (group.values.extract start stop).length = stop - start :=
        length_extract_of_le hle
      have hkeys : (group.keys.extract start stop).length = stop - start :=
        length_extract_of_le (group.keys_length ▸ hle)
      have hlength : earlier.batches.length = b.batches.length + pieces.length := by
        rw [hpieces.batches, List.length_append, length_planBatches]
      have hroot : (earlier.push env id group.kind group.kindCode (stop - start)
          (group.keys.extract start stop) payload).root = rolledPieces env id b
            (pieces ++ [⟨group.values.extract start stop, group.keys.extract start stop, payload⟩]) := by
        rw [rolledPieces, List.map_append, List.map_singleton, rollFrom_concat, List.length_map,
          hrecords, ← hlength]
        show env.rollingStep earlier.root id _ _ _ = _
        rw [hpieces.root]
        rfl
      refine ⟨pieces ++ [⟨group.values.extract start stop, group.keys.extract start stop, payload⟩],
        ?_, ?_, ?_, ?_, hroot, ?_⟩
      · rw [List.flatMap_append, hpieces.records, List.flatMap_singleton,
          take_append_extract (Nat.le_of_lt hlt)]
      · rw [List.flatMap_append, hpieces.keys, List.flatMap_singleton,
          take_append_extract (Nat.le_of_lt hlt)]
      · refine List.forall_mem_append.mpr ⟨hpieces.fits, List.forall_mem_singleton.mpr ?_⟩
        refine ⟨fun hnil => ?_, hrecords.trans_le hsize, hkeys.trans hrecords.symm, hencode, hfits⟩
        rw [show group.values.extract start stop = [] from hnil, List.length_nil] at hrecords
        omega
      · rw [planBatches_concat, List.nil_append, ← List.append_assoc, ← hpieces.batches,
          Piece.toPlanBatch, ← hroot, ← hlength, hrecords]
        rfl
      · show earlier.count + UInt64.ofNat (stop - start) = _
        rw [hpieces.count, UInt64.add_assoc, ← UInt64.ofNat_add, Nat.add_sub_cancel' (Nat.le_of_lt hlt)]

end Cut

/-! ## When the loops fail -/

/-- A slice has no larger payload than a longer one around it. -/
def RecordGroup.Grows (group : RecordGroup α ε) : Prop :=
  ∀ before part after whole payload, group.encode (before ++ part ++ after) = .ok whole →
    group.encode part = .ok payload → payload.length ≤ whole.length

/-- A record is too large by itself. -/
def RecordGroup.HasLargeRecord (group : RecordGroup α ε) : Prop :=
  ∃ record ∈ group.values, ∃ payload,
    group.encode [record] = .ok payload ∧ maximumPayloadBytes < payload.length

namespace Loop

variable {env : Env} {id : ModuleId} {batchSize : Nat} {group : RecordGroup α ε} {b : Builder}

/-- The encoder refuses a slice that the loops ask it about. -/
def EncoderFails (env : Env) (id : ModuleId) (batchSize : Nat) (group : RecordGroup α ε)
    (b : Builder) : Prop :=
  ∃ rounds start stop current cause,
    appendRecordBatches env id batchSize group b rounds = .round start stop current ∧
      group.encode (group.values.extract start stop) = .error cause

/-- A failure is the encoder's, or a record is too large. The induction is on the rounds. -/
theorem failure_cause (hpositive : 1 ≤ batchSize) {rounds : Nat} {reason : BatchError ε}
    (h : appendRecordBatches env id batchSize group b rounds = .failed reason) :
    EncoderFails env id batchSize group b ∨ group.HasLargeRecord := by
  induction rounds with
  | zero =>
      have hhead : outer batchSize group 0 b = .failed reason := h
      unfold outer at hhead
      split at hhead <;> cases hhead
  | succ rounds ih =>
      have hnext := h
      rw [appendRecordBatches, Function.iterate_succ_apply'] at hnext
      have hreached := @reached α ε env id batchSize group b hpositive rounds
      cases hpoint : appendRecordBatches env id batchSize group b rounds with
      | done result =>
          rw [show (next env id batchSize group)^[rounds] (outer batchSize group 0 b) = _ from hpoint]
            at hnext
          cases hnext
      | failed earlier =>
          rw [show (next env id batchSize group)^[rounds] (outer batchSize group 0 b) = _ from hpoint]
            at hnext
          cases hnext
          exact ih hpoint
      | round start stop current =>
          rw [show (next env id batchSize group)^[rounds] (outer batchSize group 0 b) = _ from hpoint]
            at hnext
          rw [hpoint] at hreached
          cases hreached with
          | round hcut hlt hle hsize =>
              rcases next_round env id batchSize group start stop current with
                ⟨cause, hencode, -⟩ | ⟨payload, hencode, hround⟩
              · exact .inl ⟨rounds, start, stop, current, cause, hpoint, hencode⟩
              · rcases hround with ⟨-, hto⟩ | ⟨hlarge, hone, -⟩ | ⟨-, -, hto⟩
                · rw [hto] at hnext
                  unfold outer at hnext
                  split at hnext <;> cases hnext
                · have hstop : stop = start + 1 := by omega
                  subst hstop
                  have hsingle : group.values.extract start (start + 1) =
                      [group.values.get ⟨start, hle⟩] := by
                    rw [List.extract_eq_take_drop, Nat.add_sub_cancel_left,
                      List.drop_eq_getElem_cons hle]
                    rfl
                  rw [hsingle] at hencode
                  exact .inr ⟨_, List.get_mem _ _, payload, hencode, hlarge⟩
                · rw [hto] at hnext
                  cases hnext

/-- Where the encoder fails, the loops fail. -/
theorem fails_of_encoderFails (h : EncoderFails env id batchSize group b) :
    ∃ rounds reason, appendRecordBatches env id batchSize group b rounds = .failed reason := by
  obtain ⟨rounds, start, stop, current, cause, hpoint, hencode⟩ := h
  refine ⟨rounds + 1, .encode cause, ?_⟩
  rw [appendRecordBatches, Function.iterate_succ_apply',
    show (next env id batchSize group)^[rounds] (outer batchSize group 0 b) = _ from hpoint]
  rcases next_round env id batchSize group start stop current with
    ⟨other, hother, hnext⟩ | ⟨payload, hother, -⟩
  · rw [hencode] at hother
    cases hother
    exact hnext
  · rw [hencode] at hother
    cases hother

/-- Loops that are done met no record that is too large. -/
theorem not_hasLargeRecord_of_done (hpositive : 1 ≤ batchSize) (hgrows : group.Grows) {rounds : Nat}
    {result : Builder} (h : appendRecordBatches env id batchSize group b rounds = .done result) :
    ¬ group.HasLargeRecord := by
  intro hlarge
  obtain ⟨record, hrecord, payload, hencode, hlarge⟩ := hlarge
  have hreached := @reached α ε env id batchSize group b hpositive rounds
  rw [h] at hreached
  cases hreached with
  | done hcut =>
      obtain ⟨pieces, hpieces⟩ := hcut.pieces
      rw [← List.take_length (l := group.values), ← hpieces.records] at hrecord
      obtain ⟨piece, hpiece, hmem⟩ := List.mem_flatMap.mp hrecord
      obtain ⟨before, after, hsplit⟩ := List.append_of_mem hmem
      have hfits := hpieces.fits piece hpiece
      have hwhole : group.encode (before ++ [record] ++ after) = .ok piece.payload := by
        rw [List.append_assoc, List.singleton_append, ← hsplit]
        exact hfits.encoded
      have hle := hgrows before [record] after piece.payload payload hwhole hencode
      have hmax := hfits.payload_le
      omega

/-- `appendRecordBatches` stops. When it is done, the records and their keys are cut in order into
batches within the limits, which continue the numbers and the root of the module. It fails when the
encoder fails it, or when a record is too large by itself, and only then. -/
theorem appendRecordBatches_spec (env : Env) (id : ModuleId) (batchSize : Nat)
    (group : RecordGroup α ε) (b : Builder) (hpositive : 1 ≤ batchSize) (hgrows : group.Grows) :
    (∃ rounds, (∃ result, appendRecordBatches env id batchSize group b rounds = .done result) ∨
      ∃ reason, appendRecordBatches env id batchSize group b rounds = .failed reason) ∧
    (∀ rounds result, appendRecordBatches env id batchSize group b rounds = .done result →
      ∃ pieces, CutInto env id batchSize group b group.values.length result pieces) ∧
    ((∃ rounds reason, appendRecordBatches env id batchSize group b rounds = .failed reason) ↔
      EncoderFails env id batchSize group b ∨ group.HasLargeRecord) := by
  refine ⟨stops hpositive b, fun rounds result hdone => ?_, fun h => ?_, fun h => ?_⟩
  · have hreached := @reached α ε env id batchSize group b hpositive rounds
    rw [hdone] at hreached
    cases hreached with
    | done hcut => exact hcut.pieces
  · obtain ⟨rounds, reason, hfailed⟩ := h
    exact failure_cause hpositive hfailed
  · rcases h with hencoder | hlarge
    · exact fails_of_encoderFails hencoder
    · obtain ⟨rounds, ⟨result, hdone⟩ | ⟨reason, hfailed⟩⟩ := @stops α ε env id batchSize group
        hpositive b
      · exact absurd hlarge (not_hasLargeRecord_of_done hpositive hgrows hdone)
      · exact ⟨rounds, reason, hfailed⟩

end Loop

/-! ## The groups of the planner -/

/-- Every record of a kind has a key. -/
theorem Snapshot.length_itemKeys (env : Env) (s : Snapshot) (k : Kind) :
    (s.itemKeys env k).length = (s.values k).length := by
  rw [itemKeys, values, List.length_map, List.length_map]

/-- The group of a kind. Its encoder does not fail. -/
def Snapshot.group (env : Env) (s : Snapshot) (k : Kind) : RecordGroup k.Record Empty where
  kind := k.name
  kindCode := k.code
  values := s.values k
  keys := s.itemKeys env k
  encode := fun records => .ok (env.encode k records)
  keys_length := s.length_itemKeys env k

namespace Loop

variable {env : Env} {s : Snapshot} {k : Kind} {m : Module} {batchSize : Nat}

/-- A round on a slice of the planner's records. -/
theorem next_planned {start size : Nat} {b : Builder} :
    next env (.suite m) batchSize (s.group env k) (.round start (start + size) b) =
      if (env.encode k (((s.values k).drop start).take size)).length ≤ maximumPayloadBytes then
        outer batchSize (s.group env k) (start + size)
          (b.push env (.suite m) k.name k.code size (((s.itemKeys env k).drop start).take size)
            (env.encode k (((s.values k).drop start).take size)))
      else if size = 1 then
        .failed (.recordTooLarge ((s.itemKeys env k).getD start [])
          (env.encode k (((s.values k).drop start).take size)).length)
      else .round start (start + size / 2) b := by
  have hsize : start + size - start = size := by omega
  show (if _ then _ else _) = _
  simp only [Snapshot.group, List.extract_eq_take_drop, hsize]

/-- `fitBatch` is the inner loop. -/
theorem fitBatch_rounds {start : Nat} {key : Bytes} {b : Builder} {fuel size chosen : Nat}
    (hpositive : 1 ≤ size) (hfuel : size ≤ fuel)
    (h : fitBatch env k ((s.values k).drop start) key fuel size = .ok chosen) :
    1 ≤ chosen ∧ chosen ≤ size ∧ ∃ rounds,
      (next env (.suite m) batchSize (s.group env k))^[rounds] (.round start (start + size) b) =
        outer batchSize (s.group env k) (start + chosen)
          (b.push env (.suite m) k.name k.code chosen (((s.itemKeys env k).drop start).take chosen)
            (env.encode k (((s.values k).drop start).take chosen))) := by
  induction fuel generalizing size with
  | zero => omega
  | succ fuel ih =>
      unfold fitBatch at h
      by_cases hfits : (env.encode k (((s.values k).drop start).take size)).length ≤
          maximumPayloadBytes
      · rw [if_pos hfits] at h
        obtain rfl := Except.ok.inj h
        refine ⟨hpositive, Nat.le_refl _, 1, ?_⟩
        rw [Function.iterate_one, next_planned, if_pos hfits]
      · rw [if_neg hfits] at h
        by_cases hone : size = 1
        · simp only [if_pos hone] at h
          cases h
        · simp only [if_neg hone] at h
          obtain ⟨hchosen, hle, rounds, hrun⟩ := ih (show 1 ≤ size / 2 by omega) (by omega) h
          have hnext : next env (.suite m) batchSize (s.group env k) (.round start (start + size) b) =
              .round start (start + size / 2) b := by
            rw [next_planned, if_neg hfits, if_neg hone]
          refine ⟨hchosen, hle.trans (Nat.div_le_self _ _), rounds + 1, ?_⟩
          rw [Function.iterate_succ_apply, hnext]
          exact hrun

theorem outer_end {start : Nat} {b : Builder} (h : (s.values k).length ≤ start) :
    outer batchSize (s.group env k) start b = .done b := if_neg (Nat.not_lt.mpr h)

theorem outer_round {start : Nat} {b : Builder} (h : start < (s.values k).length) :
    outer batchSize (s.group env k) start b =
      .round start (start + min batchSize ((s.values k).drop start).length) b := by
  have hstop : min (start + batchSize) (s.group env k).values.length =
      start + min batchSize ((s.values k).drop start).length := by
    rw [List.length_drop]
    show min (start + batchSize) (s.values k).length = _
    omega
  have hlt : start < (s.group env k).values.length := h
  rw [outer, if_pos hlt, hstop]

/-- `splitBatches` is the outer loop. The induction is on its fuel. -/
theorem splitBatches_rounds (hpositive : 1 ≤ batchSize) {start fuel : Nat} {b : Builder}
    {batches : List (List k.Record × List Bytes)} (hfuel : (s.values k).length - start ≤ fuel)
    (h : splitBatches env k batchSize fuel ((s.values k).drop start)
      ((s.itemKeys env k).drop start) = .ok batches) :
    ∃ rounds, (next env (.suite m) batchSize (s.group env k))^[rounds]
      (outer batchSize (s.group env k) start b) = .done (batches.foldl (Builder.append env m k) b) := by
  induction fuel generalizing start b batches with
  | zero =>
      obtain rfl := Except.ok.inj h
      exact ⟨0, outer_end (by omega)⟩
  | succ fuel ih =>
      unfold splitBatches at h
      by_cases hnone : ((s.values k).drop start).length = 0
      · rw [if_pos hnone] at h
        obtain rfl := Except.ok.inj h
        rw [List.length_drop] at hnone
        exact ⟨0, outer_end (by omega)⟩
      · rw [if_neg hnone] at h
        rw [List.length_drop] at hnone
        obtain ⟨chosen, hfit, h⟩ := Fallible.bind_eq_ok.mp h
        obtain ⟨rest, hrest, hbatches⟩ := Fallible.bind_eq_ok.mp h
        obtain rfl := Fallible.pure_eq_ok.mp hbatches
        have hfirst : 1 ≤ min batchSize ((s.values k).drop start).length := by
          rw [List.length_drop]
          omega
        obtain ⟨hone, hle, rounds, hrun⟩ := @fitBatch_rounds env s k m batchSize start _ b _ _ _ hfirst
          (Nat.le_refl _) hfit
        rw [List.drop_drop, List.drop_drop] at hrest
        obtain ⟨more, hmore⟩ := @ih (start + chosen) (b.push env (.suite m) k.name k.code chosen
          (((s.itemKeys env k).drop start).take chosen)
          (env.encode k (((s.values k).drop start).take chosen))) rest (by omega) hrest
        have htaken : (((s.values k).drop start).take chosen).length = chosen := by
          rw [List.length_take]
          omega
        refine ⟨more + rounds, ?_⟩
        rw [outer_round (by omega), Function.iterate_add_apply, hrun, List.foldl_cons, Builder.append,
          htaken]
        exact hmore

/-- The planner's `appendRecordBatches` is a run of the loops. -/
theorem appendRecordBatches_rounds (hpositive : 1 ≤ batchSize) {b result : Builder}
    (h : Migration.appendRecordBatches env s m batchSize b k = .ok result) :
    ∃ rounds, appendRecordBatches env (.suite m) batchSize (s.group env k) b rounds =
      .done result := by
  simp only [Migration.appendRecordBatches, Fallible.bind_eq_ok, Fallible.revertIf_eq_ok,
    Fallible.exists_unit, Fallible.pure_eq_ok] at h
  obtain ⟨-, batches, hsplit, hresult⟩ := h
  obtain ⟨rounds, hrounds⟩ := @splitBatches_rounds env s k m batchSize hpositive 0
    (s.values k).length b batches (Nat.le_refl _) hsplit
  exact ⟨rounds, hresult ▸ hrounds⟩

/-- So it cuts the records of the kind into pieces. -/
theorem planned_pieces (hpositive : 1 ≤ batchSize) {b result : Builder}
    (h : Migration.appendRecordBatches env s m batchSize b k = .ok result) :
    ∃ pieces, CutInto env (.suite m) batchSize (s.group env k) b (s.values k).length result pieces := by
  obtain ⟨rounds, hdone⟩ := appendRecordBatches_rounds hpositive h
  have hreached := @reached _ _ env (.suite m) batchSize (s.group env k) b hpositive rounds
  rw [hdone] at hreached
  cases hreached with
  | done hcut => exact hcut.pieces

end Loop

/-! ## What the modules read from a plan -/

section Reading

variable {env : Env} {abi : AbiDecode} {s : Snapshot} {m : Module} {batchSize : Nat}

/-- The records a module decodes from batches, one batch after the other. -/
def readBatches (abi : AbiDecode) (m : Module) (batches : List PlanBatch) :
    Except Revert (List ImportRecord) :=
  List.flatten <$> batches.mapM fun batch => decodeRecords abi m (batch.payload.valueD [])

/-- Geth reads the records of a snapshot back, in whatever pieces they are packed. -/
def Env.ReadsBack (env : Env) (s : Snapshot) : Prop :=
  ∀ k piece, piece ≠ [] → piece <:+: s.values k → env.unpack k (env.pack k piece) = some piece

/-- The records of some kinds, as they are imported. -/
def Snapshot.imports (s : Snapshot) (kinds : List Kind) : Except Revert (List ImportRecord) :=
  List.flatten <$> kinds.mapM fun k => decoded ((s.values k).mapM k.toImport)

theorem readBatches_append (earlier later : List PlanBatch) :
    readBatches abi m (earlier ++ later) =
      (· ++ ·) <$> readBatches abi m earlier <*> readBatches abi m later := by
  simp [readBatches, List.mapM_append, seq_eq_bind_map]

theorem decoded_mapM_append {α β : Type} (f : α → Option β) (first second : List α) :
    decoded ((first ++ second).mapM f) =
      (· ++ ·) <$> decoded (first.mapM f) <*> decoded (second.mapM f) := by
  rw [List.mapM_append]
  cases first.mapM f <;> cases second.mapM f <;> rfl

/-- The batches of pieces are read as the records of the pieces. -/
theorem readBatches_planBatches (hfaithful : env.Faithful abi) {k : Kind} {b : Builder}
    {earlier pieces : List (Piece k.Record)}
    (hfits : ∀ piece ∈ pieces, piece.Fits batchSize (s.group env k))
    (hback : ∀ piece ∈ pieces, env.unpack k (env.pack k piece.records) = some piece.records) :
    readBatches abi k.module (planBatches env (.suite m) (s.group env k) b earlier pieces) =
      decoded ((pieces.flatMap Piece.records).mapM k.toImport) := by
  induction pieces generalizing earlier with
  | nil => rfl
  | cons piece rest ih =>
      obtain ⟨hpiece, hrest⟩ := List.forall_mem_cons.mp hfits
      obtain ⟨hread, hlater⟩ := List.forall_mem_cons.mp hback
      have hpayload : env.encode k piece.records = piece.payload := Except.ok.inj hpiece.encoded
      have hone : readBatches abi k.module [piece.toPlanBatch env (.suite m) (s.group env k) b earlier] =
          decoded (piece.records.mapM k.toImport) := by
        rw [← hfaithful.decodeRecords_encode hread, hpayload]
        simp [readBatches, Piece.toPlanBatch, Text.valueD]
      rw [planBatches, ← List.singleton_append, readBatches_append, hone, ih hrest hlater,
        List.flatMap_cons, decoded_mapM_append]

/-- The kinds of a module are planned one after the other. -/
theorem readBatches_planned (hfaithful : env.Faithful abi) (hback : env.ReadsBack s)
    (hpositive : 1 ≤ batchSize)
    {kinds : List Kind} (hkinds : ∀ k ∈ kinds, k.module = m) {b result : Builder}
    (h : kinds.foldlM (appendRecordBatches env s m batchSize) b = .ok result) :
    readBatches abi m result.batches =
      (· ++ ·) <$> readBatches abi m b.batches <*> s.imports kinds := by
  induction kinds generalizing b with
  | nil =>
      rw [List.foldlM_nil, Fallible.pure_eq_ok] at h
      simp [← h, Snapshot.imports]
  | cons k rest ih =>
      obtain ⟨rfl, hrest⟩ := List.forall_mem_cons.mp hkinds
      rw [List.foldlM_cons, Fallible.bind_eq_ok] at h
      obtain ⟨middle, hfirst, h⟩ := h
      obtain ⟨pieces, hcut⟩ := Loop.planned_pieces hpositive hfirst
      have hvalues : pieces.flatMap Piece.records = s.values k :=
        hcut.records.trans (List.take_length ..)
      have hpieces : ∀ piece ∈ pieces,
          env.unpack k (env.pack k piece.records) = some piece.records := by
        intro piece hpiece
        refine hback k piece.records (hcut.fits piece hpiece).records_ne_nil ?_
        rw [← hvalues, List.flatMap_def]
        exact List.infix_of_mem_flatten (List.mem_map_of_mem hpiece)
      rw [ih hrest h, hcut.batches, readBatches_append,
        readBatches_planBatches hfaithful hcut.fits hpieces, hvalues]
      simp [Snapshot.imports, seq_eq_bind_map]

theorem module_of_mem_kindsOf : ∀ k ∈ kindsOf m, k.module = m := by
  cases m <;> decide

/-- From the batches of its plan a module reads the records of its kinds. -/
theorem buildModule_reads (hfaithful : env.Faithful abi) (hback : env.ReadsBack s)
    (hpositive : 1 ≤ batchSize)
    {root : Bytes32} {module : ModulePlan} (h : buildModule env s root batchSize m = .ok module) :
    module.name = moduleName m ∧ readBatches abi m module.batches = s.imports (kindsOf m) := by
  obtain ⟨b, hb, h⟩ := Fallible.bind_eq_ok.mp h
  split at h
  · cases h
    have hread := readBatches_planned hfaithful hback hpositive module_of_mem_kindsOf hb
    exact ⟨rfl, hread.trans (by simp [readBatches])⟩
  · cases h

end Reading

namespace Sample

/-- Three records of forty thousand bytes each. -/
def largeGroup : RecordGroup Nat Unit where
  kind := ascii "records"
  kindCode := 0
  values := [1, 2, 3]
  keys := [ascii "1", ascii "2", ascii "3"]
  encode := fun records => .ok (List.replicate (40000 * records.length) 0)
  keys_length := rfl

theorem largeGroup_grows : largeGroup.Grows := by
  intro before part after whole payload hwhole hpart
  obtain rfl := Except.ok.inj hwhole
  obtain rfl := Except.ok.inj hpart
  simp only [List.length_replicate, List.length_append]
  omega

/-- Two batches are cut of them, although three records are allowed in a batch. -/
theorem largeGroup_cut :
    ∃ pieces : List (Piece Nat),
      pieces.flatMap Piece.records = [1, 2, 3] ∧ ∀ piece ∈ pieces, piece.Fits 3 largeGroup := by
  have hspec := Loop.appendRecordBatches_spec Igit.Sample.codecEnv (.suite .core) 3 largeGroup
    ⟨[], 0, 0⟩ (by omega) largeGroup_grows
  obtain ⟨rounds, ⟨result, hdone⟩ | ⟨reason, hfailed⟩⟩ := hspec.1
  · obtain ⟨pieces, hpieces⟩ := hspec.2.1 rounds result hdone
    exact ⟨pieces, hpieces.records, hpieces.fits⟩
  · rcases hspec.2.2.mp ⟨rounds, reason, hfailed⟩ with hencoder | ⟨record, -, payload, hencode, hlarge⟩
    · obtain ⟨_, _, _, _, _, -, hencode⟩ := hencoder
      cases hencode
    · obtain rfl := Except.ok.inj hencode
      rw [List.length_replicate, List.length_singleton] at hlarge
      exact absurd hlarge (by decide)

end Sample

end Igit.Migration
