import Igit.Library.Session
import Igit.Migration.Schema

/-!
# Recent activity

`contractActivity` of `web/src/lib/activity.ts` collects the newest transactions of the suite. It
walks the last 100000 blocks newest first in spans of 10000, halves a span when the provider refuses
it, keeps one log a transaction, and stops when it has enough. The node's answers are fixed, and any
request may fail. Whatever fails, a list that is returned is the one a single query over the whole
window would give (`contractActivity_naive`), and no query spans more than 10000 blocks.
-/

namespace Igit.Web

open Migration (ascii)

/-! ## The node and its answers -/

/-- `RpcLog`. -/
structure RpcLog where
  address : Bytes
  topics : List Bytes
  data : Bytes
  blockNumber : Nat
  transactionHash : Bytes
  logIndex : Nat
  removed : Bool
  deriving DecidableEq, Repr

/-- The fields of `RpcTransaction` that are read. -/
structure RpcTransaction where
  hash : Bytes
  sender : Option Bytes
  deriving DecidableEq, Repr

/-- The fields of `RpcReceipt` that are read. -/
structure RpcReceipt where
  status : Option Nat
  logs : Option (List RpcLog)
  deriving DecidableEq, Repr

/-- What a log says. -/
structure Decoded where
  action : Bytes
  attributes : List (Bytes × Bytes)
  deriving DecidableEq, Repr

/-- `ContractTx`. -/
structure ContractTx where
  txhash : Bytes
  height : Nat
  timestamp : Bytes
  code : Nat
  action : Bytes
  sender : Bytes
  attributes : List (Bytes × Bytes)
  deriving DecidableEq, Repr

/-- The answers of the node during a call: the suite it verifies, its newest block, its logs, and its
transactions, receipts and block times. -/
structure Node where
  modules : List Bytes
  latest : Nat
  logs : List RpcLog
  transaction : Bytes → Option RpcTransaction
  receipt : Bytes → Option RpcReceipt
  blockTime : Nat → Option Nat

/-- What the browser provides: lower case, the text of a date, addresses in bech32, and the decoding
of a log by the modules' interfaces. -/
structure Browser where
  toLowerCase : Bytes → Bytes
  toISOString : Nat → Bytes
  toInjectiveAddress : Bytes → Bytes
  decodeLog : RpcLog → Decoded

/-- An error, by its message. -/
structure RpcError where
  message : Bytes
  deriving DecidableEq, Repr

/-- The requests so far, and the block ranges among them. -/
structure Requests where
  count : Nat
  spans : List (Nat × Nat)
  deriving DecidableEq, Repr

/-- Which request fails, and how. -/
abbrev Faults := Nat → Option RpcError

/-- A computation of the client. -/
abbrev Client := Session Requests RpcError

/-! ## The client -/

/-- How many blocks back the activity is looked for. -/
def activityBlockWindow : Nat := 100000

/-- How many blocks one request asks for at most. -/
def logRangeLimit : Nat := 10000

/-- How often a span that fails is split. -/
def logRangeSplitDepth : Nat := 6

section Client

variable (node : Node) (browser : Browser) (faults : Faults)

/-- `rpcRequest`. -/
def rpcRequest {α : Type} (answer : α) : Client α := do
  let requests ← get
  set { requests with count := requests.count + 1 }
  match faults requests.count with
  | some error => throw error
  | none => pure answer

/-- The logs of the modules in a range. -/
def logsBetween (start stop : Nat) : List RpcLog :=
  node.logs.filter fun log =>
    log.address ∈ node.modules && (decide (start ≤ log.blockNumber) && decide (log.blockNumber ≤ stop))

/-- `eth_getLogs`. -/
def getLogs (start stop : Nat) : Client (List RpcLog) := do
  modify fun requests => { requests with spans := requests.spans ++ [(start, stop)] }
  rpcRequest faults (logsBetween node start stop)

/-- The messages that speak of a range or a result that is too large. -/
def rangeMessages : List Bytes :=
  [ascii "blocks distance", ascii "block range", ascii "block distance", ascii "range is too large",
    ascii "too many blocks", ascii "query returned more than", ascii "more than 10000 results",
    ascii "log response size exceeded", ascii "query timeout exceeded"]

/-- `isLogRangeError`. -/
def isLogRangeError (error : RpcError) : Bool :=
  rangeMessages.any fun text => decide (text <:+: browser.toLowerCase error.message)

/-- `logsInSpan`, with the number of times the span may still be halved. -/
def logsInSpan : Nat → Nat → Nat → Client (List RpcLog)
  | 0, start, stop => getLogs node faults start stop
  | splits + 1, start, stop =>
      tryCatch (getLogs node faults start stop) fun error =>
        if start ≥ stop ∨ isLogRangeError browser error = false then throw error
        else do
          let middle := start + (stop - start) / 2
          let head ← logsInSpan splits start middle
          let tail ← logsInSpan splits (middle + 1) stop
          pure (head ++ tail)

/-- `descendingSpans`, whose loop ends once its blocks are used up. -/
def spansFrom : Nat → Nat → Nat → List (Nat × Nat)
  | 0, _, _ => []
  | blocks + 1, first, stop =>
      if stop < first then []
      else
        -- `end - step + 1n > from`, without negative numbers
        let start := if stop + 1 > first + logRangeLimit then stop + 1 - logRangeLimit else first
        if start = 0 ∨ start ≤ first then [(start, stop)]
        else (start, stop) :: spansFrom blocks first (start - 1)

/-- The spans of the window, the newest first. -/
def descendingSpans (first stop : Nat) : List (Nat × Nat) := spansFrom (stop + 1) first stop

/-- `unique.set`: a `Map` keeps the place of a key that it has. -/
def setUnique (unique : List (Bytes × RpcLog)) (key : Bytes) (log : RpcLog) :
    List (Bytes × RpcLog) :=
  match unique with
  | [] => [(key, log)]
  | (other, kept) :: rest =>
      if other = key then (key, log) :: rest else (other, kept) :: setUnique rest key log

/-- The order of the logs, newest first. -/
def newerEq (left right : RpcLog) : Bool :=
  decide (right.blockNumber < left.blockNumber ∨
    right.blockNumber = left.blockNumber ∧ right.logIndex ≤ left.logIndex)

/-- `orderLogs`. -/
def orderLogs (logs : List RpcLog) : List RpcLog :=
  let unique := logs.foldl (fun unique log =>
    if log.removed then unique else setUnique unique (browser.toLowerCase log.transactionHash) log) []
  (unique.map Prod.snd).insertionSort fun left right => newerEq left right = true

/-- `blockTimestamp`, with its cache. -/
def blockTimestamp (height : Nat) (cache : List (Nat × Bytes)) :
    Client (Option Bytes × List (Nat × Bytes)) :=
  match cache.lookup height with
  | some hit => pure (some hit, cache)
  | none => do
      let block ← rpcRequest faults (node.blockTime height)
      match block with
      | none => pure (none, cache)
      | some time =>
          let timestamp := browser.toISOString time
          pure (some timestamp, (height, timestamp) :: cache)

/-- A sender other than the one asked for. -/
def otherSender (target : Option Bytes) (sender normalized : Bytes) : Bool :=
  match target with
  | none => false
  | some target => target ≠ [] && (browser.toLowerCase normalized ≠ target &&
      browser.toLowerCase sender ≠ target)

/-- The entry for a log, unless something is missing or the sender is another one. -/
def assemble (target : Option Bytes) (log : RpcLog) (transaction : Option RpcTransaction)
    (receipt : Option RpcReceipt) (timestamp : Option Bytes) : Option ContractTx := do
  let transaction ← transaction
  let receipt ← receipt
  let sender ← transaction.sender
  let status ← receipt.status
  let logs ← receipt.logs
  let timestamp ← timestamp
  let normalizedSender := browser.toInjectiveAddress sender
  if otherSender browser target sender normalizedSender then none
  else
    let primary := ((logs.map browser.decodeLog).find? fun event =>
      event.action ≠ ascii "contract_event").getD (browser.decodeLog log)
    pure { txhash := transaction.hash, height := log.blockNumber, timestamp
           code := if status = 1 then 0 else 1, action := primary.action
           sender := normalizedSender, attributes := primary.attributes }

/-- The variables of the loop. -/
structure Progress where
  output : List ContractTx
  seen : List Bytes
  timestamps : List (Nat × Bytes)

/-- The body of the inner loop. The second component tells whether it returns. -/
def visitLog (limit : Nat) (target : Option Bytes) (p : Progress) (log : RpcLog) :
    Client (Progress × Bool) :=
  let hash := browser.toLowerCase log.transactionHash
  if hash ∈ p.seen then pure (p, false)
  else do
    let transaction ← rpcRequest faults (node.transaction log.transactionHash)
    let receipt ← rpcRequest faults (node.receipt log.transactionHash)
    let (timestamp, timestamps) ← blockTimestamp node browser faults log.blockNumber p.timestamps
    let p : Progress := { p with seen := hash :: p.seen, timestamps }
    match assemble browser target log transaction receipt timestamp with
    | none => pure (p, false)
    | some entry =>
        let output := p.output ++ [entry]
        pure ({ p with output }, decide (output.length ≥ limit))

/-- The inner loop. -/
def visitLogs (limit : Nat) (target : Option Bytes) : List RpcLog → Progress → Client (Progress × Bool)
  | [], p => pure (p, false)
  | log :: rest, p => do
      let (p, returns) ← visitLog node browser faults limit target p log
      if returns = true then pure (p, true) else visitLogs limit target rest p

/-- The outer loop. -/
def visitSpans (limit : Nat) (target : Option Bytes) :
    List (Nat × Nat) → Progress → Client (List ContractTx)
  | [], p => pure p.output
  | span :: rest, p => do
      let logs ← logsInSpan node browser faults logRangeSplitDepth span.1 span.2
      let (p, returns) ← visitLogs node browser faults limit target (orderLogs browser logs) p
      if returns = true then pure p.output else visitSpans limit target rest p

/-- `contractActivity`. -/
def contractActivity (limit : Nat) (sender : Option Bytes) : Client (List ContractTx) := do
  let _ ← rpcRequest faults node.modules
  let latest ← rpcRequest faults node.latest
  let first := if latest > activityBlockWindow then latest - activityBlockWindow else 0
  visitSpans node browser faults limit (sender.map browser.toLowerCase)
    (descendingSpans first latest) ⟨[], [], []⟩

end Client

/-! ## The naive result -/

/-- A log comes before another. -/
def Before (a b : RpcLog) : Prop :=
  a.blockNumber < b.blockNumber ∨ a.blockNumber = b.blockNumber ∧ a.logIndex < b.logIndex

instance (a b : RpcLog) : Decidable (Before a b) := inferInstanceAs (Decidable (_ ∨ _))

/-- The logs that were not removed. -/
def live (logs : List RpcLog) : List RpcLog := logs.filter fun log => !log.removed

/-- A node gives its logs in ascending order. -/
structure Node.Ascending (node : Node) : Prop where
  blocks : node.logs.Pairwise fun a b => a.blockNumber ≤ b.blockNumber
  positions : (live node.logs).Pairwise Before

section Naive

variable (node : Node) (browser : Browser)

/-- The transaction of a log. -/
def txKey (log : RpcLog) : Bytes := browser.toLowerCase log.transactionHash

/-- The newest log of each transaction, of logs in ascending order. -/
def newestLogs : List RpcLog → List RpcLog
  | [] => []
  | log :: rest =>
      if txKey browser log ∈ rest.map (txKey browser) then newestLogs rest else log :: newestLogs rest

/-- The time of a block. -/
def timestampOf (height : Nat) : Option Bytes := (node.blockTime height).map browser.toISOString

/-- The entry of a log, if its transaction, its receipt and its time are there. -/
def entryOf (log : RpcLog) : Option ContractTx :=
  assemble browser none log (node.transaction log.transactionHash)
    (node.receipt log.transactionHash) (timestampOf node browser log.blockNumber)

/-- The first block of the window. -/
def windowStart : Nat :=
  if node.latest > activityBlockWindow then node.latest - activityBlockWindow else 0

/-- All logs of the window, one a transaction, sorted, without those that lack something, and the first
`limit` of them. -/
def naiveActivity (limit : Nat) : List ContractTx :=
  let logs := live (logsBetween node (windowStart node) node.latest)
  (((newestLogs browser logs).insertionSort fun left right => newerEq left right = true).filterMap
    (entryOf node browser)).take limit

end Naive

/-! ## Ranges of blocks -/

/-- A filter by a range is one by its lower and one by its upper part. -/
theorem filter_split {α : Type} {rank : α → Nat} {keep : α → Bool} {items : List α}
    (h : items.Pairwise fun a b => rank a ≤ rank b) {start middle stop : Nat}
    (hstart : start ≤ middle + 1) (hstop : middle ≤ stop) :
    items.filter (fun a => keep a && (decide (start ≤ rank a) && decide (rank a ≤ middle))) ++
        items.filter (fun a => keep a && (decide (middle + 1 ≤ rank a) && decide (rank a ≤ stop))) =
      items.filter fun a => keep a && (decide (start ≤ rank a) && decide (rank a ≤ stop)) := by
  induction items with
  | nil => rfl
  | cons first rest ih =>
      obtain ⟨hfirst, hrest⟩ := List.pairwise_cons.mp h
      by_cases hle : rank first ≤ middle
      · -- the first element is not in the upper part
        have hupper : ¬ middle + 1 ≤ rank first := by omega
        have hinside : rank first ≤ stop := by omega
        simp only [List.filter_cons, hle, hupper, hinside, decide_true, decide_false, Bool.and_true,
          Bool.and_false, Bool.false_eq_true, if_false]
        rw [← ih hrest]
        split
        · rfl
        · rfl
      · -- nothing is in the lower part
        have hnone : (first :: rest).filter (fun a => keep a &&
            (decide (start ≤ rank a) && decide (rank a ≤ middle))) = [] := by
          refine List.filter_eq_nil_iff.mpr fun a ha => ?_
          have habove : ¬ rank a ≤ middle := by
            rcases List.mem_cons.mp ha with rfl | hmem
            · exact hle
            · have hmore := hfirst a hmem
              omega
          simp [habove]
        rw [hnone, List.nil_append]
        refine List.filter_congr fun a ha => ?_
        have habove : middle + 1 ≤ rank a := by
          rcases List.mem_cons.mp ha with rfl | hmem
          · omega
          · have hmore := hfirst a hmem
            omega
        have hbelow : start ≤ rank a := by omega
        simp [habove, hbelow]

section Runs

variable {node : Node} {browser : Browser} {faults : Faults}

theorem logsBetween_split (h : node.Ascending) {start middle stop : Nat} (hstart : start ≤ middle + 1)
    (hstop : middle ≤ stop) :
    logsBetween node start middle ++ logsBetween node (middle + 1) stop =
      logsBetween node start stop :=
  filter_split h.blocks hstart hstop

/-- The logs of a range are in ascending order. -/
theorem live_logsBetween (h : node.Ascending) (start stop : Nat) :
    (live (logsBetween node start stop)).Pairwise Before := by
  refine h.positions.sublist ?_
  rw [live, logsBetween, List.filter_comm]
  exact List.filter_sublist

/-- A request fails or is answered. -/
theorem rpcRequest_after {α : Type} (answer : α) (s : Requests) :
    (rpcRequest faults answer).after s =
      (match faults s.count with
        | some error => .error error
        | none => .ok answer, { s with count := s.count + 1 }) := by
  show (match faults s.count with
    | some error => (throw error : Client α)
    | none => pure answer).after { s with count := s.count + 1 } = _
  cases faults s.count with
  | none => rfl
  | some error => rfl

theorem rpcRequest_yields {α : Type} (answer : α) :
    (rpcRequest faults answer).Yields (· = answer) := by
  intro s a s' hrun
  rw [rpcRequest_after] at hrun
  cases hfault : faults s.count with
  | none =>
      rw [hfault] at hrun
      cases hrun
      rfl
  | some error =>
      rw [hfault] at hrun
      cases hrun

theorem getLogs_after (start stop : Nat) (s : Requests) :
    (getLogs node faults start stop).after s =
      (rpcRequest faults (logsBetween node start stop)).after
        { s with spans := s.spans ++ [(start, stop)] } := rfl

theorem getLogs_yields (start stop : Nat) :
    (getLogs node faults start stop).Yields (· = logsBetween node start stop) := by
  intro s a s' hrun
  rw [getLogs_after] at hrun
  exact rpcRequest_yields _ _ a s' hrun

/-- The logs of a span, however often it is halved. -/
theorem logsInSpan_yields (h : node.Ascending) (splits start stop : Nat) :
    (logsInSpan node browser faults splits start stop).Yields (· = logsBetween node start stop) := by
  induction splits generalizing start stop with
  | zero => exact getLogs_yields start stop
  | succ splits ih =>
      refine (getLogs_yields start stop).tryCatch fun error => .ite (fun _ => Session.yields_throw) ?_
      intro hsplit
      have hlt : start < stop := by
        by_contra hge
        exact hsplit (Or.inl (Nat.le_of_not_lt hge))
      refine (ih start _).bind fun head hhead => (ih _ stop).bind fun tail htail => ?_
      refine Session.yields_pure ?_
      rw [hhead, htail]
      exact logsBetween_split h (by omega) (by omega)

/-- The spans cover the blocks, newest first. -/
theorem spansFrom_cover (h : node.Ascending) {blocks first stop : Nat} (hblocks : stop < blocks)
    (hle : first ≤ stop) :
    (spansFrom blocks first stop).flatMap (fun span => (live (logsBetween node span.1 span.2)).reverse) =
      (live (logsBetween node first stop)).reverse := by
  induction blocks generalizing stop with
  | zero => exact absurd hblocks (Nat.not_lt_zero _)
  | succ blocks ih =>
      rw [spansFrom, if_neg (Nat.not_lt.mpr hle)]
      by_cases hlong : stop + 1 > first + logRangeLimit
      · have hlimit : logRangeLimit = 10000 := rfl
        have hstart : ¬ (stop + 1 - logRangeLimit = 0 ∨ stop + 1 - logRangeLimit ≤ first) := by omega
        simp only [if_pos hlong, if_neg hstart, List.flatMap_cons]
        have hsplit : logsBetween node first (stop + 1 - logRangeLimit - 1) ++
            logsBetween node (stop + 1 - logRangeLimit - 1 + 1) stop = logsBetween node first stop :=
          logsBetween_split h (by omega) (by omega)
        rw [Nat.sub_add_cancel (by omega)] at hsplit
        rw [ih (by omega) (by omega), ← List.reverse_append, ← hsplit, live, live, live,
          List.filter_append]
      · simp only [if_neg hlong, le_refl, or_true, if_true, List.flatMap_cons, List.flatMap_nil,
          List.append_nil]

/-- No span is longer than the limit. -/
theorem spansFrom_short {blocks first stop : Nat} {span : Nat × Nat}
    (h : span ∈ spansFrom blocks first stop) : span.2 + 1 ≤ span.1 + logRangeLimit := by
  induction blocks generalizing stop with
  | zero => cases h
  | succ blocks ih =>
      have hlimit : logRangeLimit = 10000 := rfl
      rw [spansFrom] at h
      by_cases hempty : stop < first
      · rw [if_pos hempty] at h
        cases h
      · rw [if_neg hempty] at h
        have hself : stop + 1 ≤
            (if stop + 1 > first + logRangeLimit then stop + 1 - logRangeLimit else first) +
              logRangeLimit := by
          by_cases hlong : stop + 1 > first + logRangeLimit
          · rw [if_pos hlong]
            omega
          · rw [if_neg hlong]
            omega
        revert h hself
        dsimp only
        generalize (if stop + 1 > first + logRangeLimit then stop + 1 - logRangeLimit else first) = start
        intro h hself
        by_cases hlast : start = 0 ∨ start ≤ first
        · rw [if_pos hlast, List.mem_singleton] at h
          rw [h]
          exact hself
        · rw [if_neg hlast] at h
          rcases List.mem_cons.mp h with rfl | hmem
          · exact hself
          · exact ih hmem

end Runs

/-! ## One log a transaction -/

section Fresh

variable (browser : Browser)

/-- The logs whose transactions were not seen before. -/
def freshLogs (seen : List Bytes) : List RpcLog → List RpcLog
  | [] => []
  | log :: rest =>
      if txKey browser log ∈ seen then freshLogs seen rest
      else log :: freshLogs (txKey browser log :: seen) rest

variable {browser} {seen seen' : List Bytes} {logs : List RpcLog}

/-- Only which transactions were seen counts. -/
theorem freshLogs_congr (h : ∀ k, k ∈ seen ↔ k ∈ seen') (logs : List RpcLog) :
    freshLogs browser seen logs = freshLogs browser seen' logs := by
  induction logs generalizing seen seen' with
  | nil => rfl
  | cons log rest ih =>
      have hcons : ∀ k, k ∈ txKey browser log :: seen ↔ k ∈ txKey browser log :: seen' := by
        intro k
        rw [List.mem_cons, List.mem_cons, h]
      simp only [freshLogs, h, ih h, ih hcons]

/-- The fresh logs of two lists are those of the first and what is new in the second. -/
theorem freshLogs_append (seen : List Bytes) (logs more : List RpcLog) :
    freshLogs browser seen (logs ++ more) =
      freshLogs browser seen logs ++ freshLogs browser (logs.map (txKey browser) ++ seen) more := by
  induction logs generalizing seen with
  | nil => rfl
  | cons log rest ih =>
      by_cases hseen : txKey browser log ∈ seen
      · have hsame : ∀ k, k ∈ rest.map (txKey browser) ++ seen ↔
            k ∈ (log :: rest).map (txKey browser) ++ seen := by
          intro k
          simp only [List.map_cons, List.cons_append, List.mem_cons]
          exact ⟨Or.inr, fun hk => hk.elim (fun heq => heq ▸ List.mem_append_right _ hseen) id⟩
        rw [List.cons_append, freshLogs, if_pos hseen, freshLogs, if_pos hseen, ih,
          freshLogs_congr hsame]
      · have hsame : ∀ k, k ∈ rest.map (txKey browser) ++ txKey browser log :: seen ↔
            k ∈ (log :: rest).map (txKey browser) ++ seen := by
          intro k
          simp only [List.map_cons, List.cons_append, List.mem_cons, List.mem_append]
          tauto
        rw [List.cons_append, freshLogs, if_neg hseen, freshLogs, if_neg hseen, ih,
          freshLogs_congr hsame, List.cons_append]

/-- To pick the first log of each transaction beforehand changes nothing. -/
theorem freshLogs_freshLogs (hsub : ∀ k ∈ seen, k ∈ seen') (logs : List RpcLog) :
    freshLogs browser seen' (freshLogs browser seen logs) = freshLogs browser seen' logs := by
  induction logs generalizing seen seen' with
  | nil => rfl
  | cons log rest ih =>
      by_cases hseen : txKey browser log ∈ seen
      · rw [freshLogs, if_pos hseen, ih hsub, freshLogs, if_pos (hsub _ hseen)]
      · rw [freshLogs, if_neg hseen]
        by_cases hseen' : txKey browser log ∈ seen'
        · rw [freshLogs, if_pos hseen', freshLogs, if_pos hseen']
          exact ih (List.forall_mem_cons.mpr ⟨hseen', hsub⟩)
        · rw [freshLogs, if_neg hseen', freshLogs, if_neg hseen', ih]
          intro k hk
          rcases List.mem_cons.mp hk with rfl | hk
          · exact List.mem_cons_self
          · exact List.mem_cons_of_mem _ (hsub k hk)

/-- No transaction is left out. -/
theorem mem_keys_freshLogs {k : Bytes} :
    k ∈ (freshLogs browser seen logs).map (txKey browser) ++ seen ↔
      k ∈ logs.map (txKey browser) ++ seen := by
  induction logs generalizing seen with
  | nil => rfl
  | cons log rest ih =>
      have hrest := @ih (txKey browser log :: seen)
      simp only [List.mem_append, List.mem_cons] at hrest
      simp only [List.map_cons, List.cons_append, List.mem_cons, List.mem_append]
      by_cases hseen : txKey browser log ∈ seen
      · have hskip := @ih seen
        rw [List.mem_append, List.mem_append] at hskip
        rw [freshLogs, if_pos hseen, hskip]
        exact ⟨Or.inr, fun hk => hk.elim (fun heq => Or.inr (heq ▸ hseen)) id⟩
      · rw [freshLogs, if_neg hseen, List.map_cons, List.mem_cons]
        tauto

/-- One more transaction that was seen. -/
theorem mem_freshLogs_cons {k : Bytes} {log : RpcLog} :
    log ∈ freshLogs browser (k :: seen) logs ↔
      log ∈ freshLogs browser seen logs ∧ txKey browser log ≠ k := by
  induction logs generalizing seen with
  | nil => simp [freshLogs]
  | cons first rest ih =>
      have hswap : ∀ k', k' ∈ txKey browser first :: k :: seen ↔
          k' ∈ k :: txKey browser first :: seen := by
        intro k'
        simp only [List.mem_cons]
        tauto
      by_cases hseen : txKey browser first ∈ seen
      · rw [freshLogs, if_pos (List.mem_cons_of_mem _ hseen), freshLogs, if_pos hseen]
        exact ih
      · by_cases hk : txKey browser first = k
        · subst hk
          rw [freshLogs, if_pos List.mem_cons_self, freshLogs, if_neg hseen, List.mem_cons]
          have hnot : log ∈ freshLogs browser (txKey browser first :: seen) rest →
              txKey browser log ≠ txKey browser first := fun hmem => (ih.mp hmem).2
          exact ⟨fun hmem => ⟨Or.inr hmem, hnot hmem⟩,
            fun hmem => hmem.1.resolve_left fun heq => hmem.2 (heq ▸ rfl)⟩
        · rw [freshLogs, if_neg (by simp [hk, hseen]), freshLogs, if_neg hseen,
            freshLogs_congr hswap, List.mem_cons, List.mem_cons, ih]
          constructor
          · rintro (rfl | ⟨hmem, hne⟩)
            · exact ⟨Or.inl rfl, hk⟩
            · exact ⟨Or.inr hmem, hne⟩
          · rintro ⟨rfl | hmem, hne⟩
            · exact Or.inl rfl
            · exact Or.inr ⟨hmem, hne⟩

/-- The newest logs of transactions are the first ones from behind. -/
theorem freshLogs_reverse (logs : List RpcLog) :
    freshLogs browser [] logs.reverse = (newestLogs browser logs).reverse := by
  induction logs with
  | nil => rfl
  | cons log rest ih =>
      have hkeys : (txKey browser log ∈ rest.reverse.map (txKey browser) ++ []) ↔
          txKey browser log ∈ rest.map (txKey browser) := by
        rw [List.append_nil, List.map_reverse, List.mem_reverse]
      rw [List.reverse_cons, freshLogs_append, ih, freshLogs, newestLogs]
      by_cases hmem : txKey browser log ∈ rest.map (txKey browser)
      · rw [if_pos (hkeys.mpr hmem), if_pos hmem, freshLogs, List.append_nil]
      · rw [if_neg (mt hkeys.mp hmem), if_neg hmem, freshLogs, List.reverse_cons]

/-- The newest logs are some of the logs, in their order. -/
theorem newestLogs_sublist (logs : List RpcLog) : (newestLogs browser logs).Sublist logs := by
  induction logs with
  | nil => exact .slnil
  | cons log rest ih =>
      rw [newestLogs]
      split
      · exact ih.cons _
      · exact ih.cons_cons _

/-! ## Sorting -/

instance newerEq_total : Std.Total fun left right : RpcLog => newerEq left right = true where
  total a b := by
    simp only [newerEq, decide_eq_true_eq]
    omega

instance newerEq_trans : IsTrans RpcLog fun left right => newerEq left right = true where
  trans a b c := by
    simp only [newerEq, decide_eq_true_eq]
    omega

/-- Logs in ascending order are the same when they stand at the same place. -/
theorem eq_of_position (h : logs.Pairwise Before) {a b : RpcLog} (ha : a ∈ logs) (hb : b ∈ logs)
    (hab : newerEq a b = true) (hba : newerEq b a = true) : a = b := by
  by_contra hne
  have hsymm : logs.Pairwise fun a b => Before a b ∨ Before b a := h.imp Or.inl
  have hinstance : Std.Symm fun a b : RpcLog => Before a b ∨ Before b a := ⟨fun _ _ => Or.symm⟩
  have hdistinct := hsymm.forall ha hb hne
  simp only [newerEq, decide_eq_true_eq] at hab hba
  unfold Before at hdistinct
  omega

/-- Sorting logs from newest to oldest. -/
theorem sort_eq {items sorted : List RpcLog} (h : logs.Pairwise Before) (hmem : ∀ a ∈ sorted, a ∈ logs)
    (hperm : items.Perm sorted) (hsorted : sorted.Pairwise fun a b => newerEq a b = true) :
    items.insertionSort (fun left right => newerEq left right = true) = sorted := by
  have hsame := (List.perm_insertionSort (fun left right => newerEq left right = true) items).trans hperm
  refine hsame.eq_of_pairwise (fun a b ha hb hab hba => ?_) (List.pairwise_insertionSort _ _) hsorted
  exact eq_of_position h (hmem a (hsame.mem_iff.mp ha)) (hmem b hb) hab hba

theorem pairwise_newest (h : logs.Pairwise Before) :
    (newestLogs browser logs).reverse.Pairwise fun a b => newerEq a b = true := by
  rw [List.pairwise_reverse]
  refine (h.sublist (newestLogs_sublist logs)).imp fun {a b} hbefore => ?_
  simp only [newerEq, decide_eq_true_eq]
  unfold Before at hbefore
  omega

/-- What the `Map` of `orderLogs` holds after the logs: the last log of each transaction. -/
structure Collected (browser : Browser) (logs : List RpcLog) (unique : List (Bytes × RpcLog)) : Prop where
  keyed : ∀ entry ∈ unique, entry.1 = txKey browser entry.2
  nodup : (unique.map Prod.fst).Nodup
  values : ∀ log, log ∈ unique.map Prod.snd ↔ log ∈ freshLogs browser [] logs.reverse

theorem map_fst_setUnique (unique : List (Bytes × RpcLog)) (key : Bytes) (log : RpcLog) :
    (setUnique unique key log).map Prod.fst =
      if key ∈ unique.map Prod.fst then unique.map Prod.fst else unique.map Prod.fst ++ [key] := by
  induction unique with
  | nil => rfl
  | cons entry rest ih =>
      obtain ⟨other, kept⟩ := entry
      rw [setUnique]
      by_cases hother : other = key
      · rw [if_pos hother, if_pos (by simp [hother]), List.map_cons, List.map_cons, hother]
      · rw [if_neg hother, List.map_cons, ih, List.map_cons]
        by_cases hrest : key ∈ rest.map Prod.fst
        · rw [if_pos hrest, if_pos (List.mem_cons_of_mem _ hrest)]
        · rw [if_neg hrest, if_neg (by simp [Ne.symm hother, hrest]), List.cons_append]

/-- Setting a key replaces its entry and leaves the others. -/
theorem mem_setUnique {unique : List (Bytes × RpcLog)} (hnodup : (unique.map Prod.fst).Nodup)
    (key : Bytes) (log : RpcLog) (entry : Bytes × RpcLog) :
    entry ∈ setUnique unique key log ↔ entry = (key, log) ∨ entry ∈ unique ∧ entry.1 ≠ key := by
  induction unique with
  | nil => simp [setUnique]
  | cons first rest ih =>
      obtain ⟨other, kept⟩ := first
      rw [List.map_cons, List.nodup_cons] at hnodup
      rw [setUnique]
      by_cases hother : other = key
      · subst hother
        have hrest : ∀ entry ∈ rest, entry.1 ≠ other := fun entry hmem heq =>
          hnodup.1 (List.mem_map.mpr ⟨entry, hmem, heq⟩)
        rw [if_pos rfl, List.mem_cons]
        constructor
        · rintro (rfl | hmem)
          · exact Or.inl rfl
          · exact Or.inr ⟨List.mem_cons_of_mem _ hmem, hrest entry hmem⟩
        · rintro (rfl | ⟨hmem, hne⟩)
          · exact Or.inl rfl
          · rcases List.mem_cons.mp hmem with rfl | hmem
            · exact absurd rfl hne
            · exact Or.inr hmem
      · rw [if_neg hother, List.mem_cons, ih hnodup.2]
        constructor
        · rintro (rfl | heq | ⟨hmem, hne⟩)
          · exact Or.inr ⟨List.mem_cons_self, hother⟩
          · exact Or.inl heq
          · exact Or.inr ⟨List.mem_cons_of_mem _ hmem, hne⟩
        · rintro (heq | ⟨hmem, hne⟩)
          · exact Or.inr (Or.inl heq)
          · rcases List.mem_cons.mp hmem with rfl | hmem
            · exact Or.inl rfl
            · exact Or.inr (Or.inr ⟨hmem, hne⟩)

/-- One more log. -/
theorem Collected.set {unique : List (Bytes × RpcLog)} (h : Collected browser logs unique)
    (log : RpcLog) : Collected browser (logs ++ [log]) (setUnique unique (txKey browser log) log) where
  keyed entry hentry := by
    rcases (mem_setUnique h.nodup _ log entry).mp hentry with rfl | ⟨hmem, -⟩
    · rfl
    · exact h.keyed entry hmem
  nodup := by
    rw [map_fst_setUnique]
    split
    · exact h.nodup
    · rename_i hnew
      exact List.nodup_append.mpr ⟨h.nodup, List.nodup_singleton _, fun a ha b hb heq =>
        hnew (List.mem_singleton.mp hb ▸ heq ▸ ha)⟩
  values other := by
    rw [List.reverse_append, List.reverse_singleton, List.singleton_append, freshLogs,
      if_neg List.not_mem_nil, List.mem_cons, mem_freshLogs_cons, ← h.values, List.mem_map, List.mem_map]
    constructor
    · rintro ⟨entry, hentry, rfl⟩
      rcases (mem_setUnique h.nodup _ log entry).mp hentry with rfl | ⟨hmem, hne⟩
      · exact Or.inl rfl
      · exact Or.inr ⟨⟨entry, hmem, rfl⟩, h.keyed entry hmem ▸ hne⟩
    · rintro (rfl | ⟨⟨entry, hmem, rfl⟩, hne⟩)
      · exact ⟨_, (mem_setUnique h.nodup _ other _).mpr (Or.inl rfl), rfl⟩
      · refine ⟨entry, (mem_setUnique h.nodup _ log entry).mpr (Or.inr ⟨hmem, ?_⟩), rfl⟩
        rw [h.keyed entry hmem]
        exact hne

/-- The loop keeps the last log of every transaction. -/
theorem collected_foldl (logs : List RpcLog) :
    Collected browser logs
      (logs.foldl (fun unique log => setUnique unique (txKey browser log) log) []) := by
  induction logs using List.reverseRecOn with
  | nil => exact ⟨by simp, List.nodup_nil, by simp [freshLogs]⟩
  | append_singleton logs log ih =>
      rw [List.foldl_append]
      exact ih.set log

/-- The logs of a span, one a transaction and newest first. -/
theorem orderLogs_eq (h : (live logs).Pairwise Before) :
    orderLogs browser logs = freshLogs browser [] (live logs).reverse := by
  have hfold : logs.foldl (fun unique log => if log.removed then unique
      else setUnique unique (browser.toLowerCase log.transactionHash) log) [] =
      (live logs).foldl (fun unique log => setUnique unique (txKey browser log) log) [] := by
    rw [live, List.foldl_filter]
    congr 1
    funext unique log
    cases log.removed with
    | true => rfl
    | false => rfl
  have hcollected : Collected browser (live logs) _ := collected_foldl (live logs)
  obtain ⟨hkeyed, hnodup, hvalues⟩ := hcollected
  rw [orderLogs, hfold]
  have hsub : ∀ a ∈ freshLogs browser [] (live logs).reverse, a ∈ live logs := by
    intro a ha
    rw [freshLogs_reverse, List.mem_reverse] at ha
    exact (newestLogs_sublist _).mem ha
  have hsorted : (freshLogs browser [] (live logs).reverse).Pairwise fun a b => newerEq a b = true := by
    rw [freshLogs_reverse]
    exact pairwise_newest h
  refine sort_eq h hsub ?_ hsorted
  refine (List.perm_ext_iff_of_nodup ?_ ?_).mpr hvalues
  · -- the keys are distinct, and each is that of its log
    refine List.Nodup.of_map (txKey browser) ?_
    rw [List.map_map]
    rwa [List.map_congr_left (g := txKey browser ∘ Prod.snd) hkeyed] at hnodup
  · rw [freshLogs_reverse, List.nodup_reverse]
    refine (h.sublist (newestLogs_sublist _)).imp fun {a b} hbefore heq => ?_
    subst heq
    unfold Before at hbefore
    omega

/-- So is the naive order. -/
theorem sort_newest (h : logs.Pairwise Before) :
    (newestLogs browser logs).insertionSort (fun left right => newerEq left right = true) =
      freshLogs browser [] logs.reverse := by
  rw [freshLogs_reverse]
  refine sort_eq h (fun a ha => ?_) (List.reverse_perm _).symm (pairwise_newest h)
  exact (newestLogs_sublist _).mem (List.mem_reverse.mp ha)

end Fresh

/-! ## The loops -/

section Loops

variable {node : Node} {browser : Browser} {faults : Faults} {limit : Nat}

/-- The cache holds the times of blocks. -/
def SoundCache (node : Node) (browser : Browser) (cache : List (Nat × Bytes)) : Prop :=
  ∀ height timestamp, cache.lookup height = some timestamp →
    timestampOf node browser height = some timestamp

theorem blockTimestamp_yields {height : Nat} {cache : List (Nat × Bytes)}
    (hcache : SoundCache node browser cache) :
    (blockTimestamp node browser faults height cache).Yields fun result =>
      result.1 = timestampOf node browser height ∧ SoundCache node browser result.2 := by
  unfold blockTimestamp
  cases hhit : cache.lookup height with
  | some hit => exact Session.yields_pure ⟨(hcache height hit hhit).symm, hcache⟩
  | none =>
      refine (rpcRequest_yields _).bind fun block hblock => ?_
      subst hblock
      cases htime : node.blockTime height with
      | none => exact Session.yields_pure ⟨by rw [timestampOf, htime]; rfl, hcache⟩
      | some time =>
          refine Session.yields_pure ⟨by rw [timestampOf, htime]; rfl, fun other timestamp hlookup => ?_⟩
          rw [List.lookup_cons] at hlookup
          by_cases hother : other = height
          · subst hother
            simp only [beq_self_eq_true] at hlookup
            rw [timestampOf, htime]
            exact hlookup
          · simp only [beq_false_of_ne hother] at hlookup
            exact hcache other timestamp hlookup

/-- A loop that has not returned yet. -/
structure Progress.Going (node : Node) (browser : Browser) (limit : Nat) (p : Progress) : Prop where
  cache : SoundCache node browser p.timestamps
  short : p.output.length < limit

/-- Where the loop is after more logs: at the limit, or further on. -/
def Advanced (node : Node) (browser : Browser) (limit : Nat) (p : Progress) (logs : List RpcLog)
    (result : Progress × Bool) : Prop :=
  let entries := p.output ++ (freshLogs browser p.seen logs).filterMap (entryOf node browser)
  (result.2 = true ∧ result.1.output = entries.take limit ∧ limit ≤ entries.length) ∨
    (result.2 = false ∧ result.1.output = entries ∧ result.1.Going node browser limit ∧
      ∀ k, k ∈ result.1.seen ↔ k ∈ logs.map (txKey browser) ++ p.seen)

/-- One log. -/
theorem visitLog_yields {p : Progress} (hp : p.Going node browser limit) (log : RpcLog) :
    (visitLog node browser faults limit none p log).Yields (Advanced node browser limit p [log]) := by
  unfold visitLog
  refine .ite (fun (hseen : txKey browser log ∈ p.seen) => Session.yields_pure (Or.inr ?_))
    fun (hfresh : txKey browser log ∉ p.seen) => ?_
  · have hskip : freshLogs browser p.seen [log] = [] := by rw [freshLogs, if_pos hseen, freshLogs]
    refine ⟨rfl, by rw [hskip]; simp, hp, fun k => ?_⟩
    rw [List.map_singleton, List.singleton_append, List.mem_cons]
    exact ⟨Or.inr, fun hk => hk.elim (fun heq => heq ▸ hseen) id⟩
  · have hone : freshLogs browser p.seen [log] = [log] := by rw [freshLogs, if_neg hfresh, freshLogs]
    refine (rpcRequest_yields _).bind fun transaction htransaction =>
      (rpcRequest_yields _).bind fun receipt hreceipt =>
      (blockTimestamp_yields hp.cache).bind fun result hresult => ?_
    obtain ⟨timestamp, timestamps⟩ := result
    obtain ⟨htimestamp, hcache⟩ := hresult
    have hentry : assemble browser none log transaction receipt timestamp =
        entryOf node browser log := by
      rw [htransaction, hreceipt, show timestamp = _ from htimestamp]
      rfl
    simp only [hentry]
    cases hnone : entryOf node browser log with
    | none =>
        refine Session.yields_pure (Or.inr ⟨rfl, ?_, ⟨hcache, hp.short⟩, fun k => Iff.rfl⟩)
        rw [hone, List.filterMap_cons_none hnone, List.filterMap_nil, List.append_nil]
    | some entry =>
        have hentries : p.output ++ (freshLogs browser p.seen [log]).filterMap (entryOf node browser) =
            p.output ++ [entry] := by
          rw [hone, List.filterMap_cons_some hnone, List.filterMap_nil]
        have hshort := hp.short
        refine Session.yields_pure ?_
        unfold Advanced
        rw [hentries]
        by_cases hfull : limit ≤ (p.output ++ [entry]).length
        · refine Or.inl ⟨decide_eq_true hfull, ?_, hfull⟩
          rw [List.take_of_length_le]
          rw [List.length_append, List.length_singleton]
          omega
        · exact Or.inr ⟨decide_eq_false hfull, rfl, ⟨hcache, Nat.lt_of_not_le hfull⟩, fun k => Iff.rfl⟩

/-- The logs of a span. -/
theorem visitLogs_yields {p : Progress} (hp : p.Going node browser limit) (logs : List RpcLog) :
    (visitLogs node browser faults limit none logs p).Yields (Advanced node browser limit p logs) := by
  induction logs generalizing p with
  | nil =>
      refine Session.yields_pure (Or.inr ⟨rfl, ?_, hp, fun k => Iff.rfl⟩)
      rw [freshLogs, List.filterMap_nil, List.append_nil]
  | cons log rest ih =>
      refine (visitLog_yields hp log).bind fun result hresult => ?_
      obtain ⟨middle, returns⟩ := result
      have happend : freshLogs browser p.seen (log :: rest) = freshLogs browser p.seen [log] ++
          freshLogs browser ([log].map (txKey browser) ++ p.seen) rest :=
        freshLogs_append p.seen [log] rest
      unfold Advanced
      rw [happend, List.filterMap_append, ← List.append_assoc]
      rcases hresult with ⟨hreturns, houtput, hfull⟩ | ⟨hreturns, houtput, hgoing, hseen⟩
      · -- the loop stops here, and what follows is beyond the limit
        refine .ite (fun _ => Session.yields_pure (Or.inl ⟨rfl, ?_, ?_⟩))
          fun hgoes => absurd hreturns hgoes
        · rw [List.take_append_of_le_length hfull]
          exact houtput
        · rw [List.length_append]
          exact Nat.le_add_right_of_le hfull
      · refine .ite (fun hstops => absurd (hreturns.symm.trans hstops) Bool.false_ne_true) fun _ => ?_
        intro s finish s' hrun
        have hfinish := ih hgoing s finish s' hrun
        unfold Advanced at hfinish
        rw [freshLogs_congr hseen, show middle.output = _ from houtput] at hfinish
        rcases hfinish with hdone | ⟨hmore, houtput', hgoing', hseen'⟩
        · exact Or.inl hdone
        · refine Or.inr ⟨hmore, houtput', hgoing', fun k => ?_⟩
          rw [hseen', List.mem_append, hseen]
          simp only [List.map_cons, List.map_nil, List.mem_append, List.mem_cons, List.not_mem_nil]
          tauto

/-- All spans. -/
theorem visitSpans_yields (h : node.Ascending) {p : Progress} (hp : p.Going node browser limit)
    (spans : List (Nat × Nat)) :
    (visitSpans node browser faults limit none spans p).Yields fun output =>
      output = (p.output ++ (freshLogs browser p.seen (spans.flatMap fun span =>
        (live (logsBetween node span.1 span.2)).reverse)).filterMap (entryOf node browser)).take limit := by
  induction spans generalizing p with
  | nil =>
      refine Session.yields_pure ?_
      rw [List.flatMap_nil, freshLogs, List.filterMap_nil, List.append_nil,
        List.take_of_length_le (Nat.le_of_lt hp.short)]
  | cons span rest ih =>
      refine (logsInSpan_yields h _ _ _).bind fun logs hlogs => ?_
      subst hlogs
      refine (visitLogs_yields hp _).bind fun result hresult => ?_
      obtain ⟨middle, returns⟩ := result
      -- the logs of a span stay in order, and one a transaction is what would be picked anyway
      have hlive := live_logsBetween h span.1 span.2
      have horder : ∀ seen, freshLogs browser seen
          (orderLogs browser (logsBetween node span.1 span.2)) =
          freshLogs browser seen (live (logsBetween node span.1 span.2)).reverse := by
        intro seen
        rw [orderLogs_eq hlive]
        exact freshLogs_freshLogs (fun k hk => absurd hk List.not_mem_nil) _
      have hkeys : ∀ k, k ∈ (orderLogs browser (logsBetween node span.1 span.2)).map (txKey browser) ++
          p.seen ↔ k ∈ (live (logsBetween node span.1 span.2)).reverse.map (txKey browser) ++ p.seen := by
        intro k
        have hsame := @mem_keys_freshLogs browser [] (live (logsBetween node span.1 span.2)).reverse k
        rw [List.append_nil, List.append_nil] at hsame
        rw [orderLogs_eq hlive, List.mem_append, List.mem_append, hsame]
      unfold Advanced at hresult
      rw [horder] at hresult
      rw [List.flatMap_cons, freshLogs_append, List.filterMap_append, ← List.append_assoc]
      rcases hresult with ⟨hreturns, houtput, hfull⟩ | ⟨hreturns, houtput, hgoing, hseen⟩
      · refine .ite (fun _ => Session.yields_pure ?_) fun hgoes => absurd hreturns hgoes
        rw [List.take_append_of_le_length hfull]
        exact houtput
      · refine .ite (fun hstops => absurd (hreturns.symm.trans hstops) Bool.false_ne_true) fun _ => ?_
        intro s finish s' hrun
        have hfinish := ih hgoing s finish s' hrun
        rw [show middle.output = _ from houtput,
          freshLogs_congr fun k => (hseen k).trans (hkeys k)] at hfinish
        exact hfinish

end Loops

/-! ## The queries -/

section Queries

variable {node : Node} {browser : Browser} {faults : Faults} {limit : Nat} {target : Option Bytes}

/-- No query so far spans more blocks than the limit. -/
def Bounded (requests : Requests) : Prop :=
  ∀ span ∈ requests.spans, span.2 + 1 ≤ span.1 + logRangeLimit

theorem rpcRequest_bounded {α : Type} (answer : α) :
    Session.Stays Bounded (rpcRequest faults answer) := by
  intro s hs
  rw [rpcRequest_after]
  exact hs

/-- No request asks for a longer span than it is given. -/
theorem getLogs_bounded {start stop : Nat} (h : stop + 1 ≤ start + logRangeLimit) :
    Session.Stays Bounded (getLogs node faults start stop) := by
  intro s hs
  rw [getLogs_after]
  refine rpcRequest_bounded _ _ fun span hspan => ?_
  rcases List.mem_append.mp hspan with hold | hnew
  · exact hs span hold
  · rw [List.mem_singleton.mp hnew]
    exact h

/-- Splitting a span makes no longer ones. -/
theorem logsInSpan_bounded (splits : Nat) {start stop : Nat} (h : stop + 1 ≤ start + logRangeLimit) :
    Session.Stays Bounded (logsInSpan node browser faults splits start stop) := by
  induction splits generalizing start stop with
  | zero => exact getLogs_bounded h
  | succ splits ih =>
      refine (getLogs_bounded h).tryCatch fun error => .ite (fun _ => Session.stays_throw) fun _ => ?_
      refine (ih ?_).bind fun head => (ih ?_).bind fun tail => Session.stays_pure
      · omega
      · omega

theorem blockTimestamp_bounded (height : Nat) (cache : List (Nat × Bytes)) :
    Session.Stays Bounded (blockTimestamp node browser faults height cache) := by
  unfold blockTimestamp
  cases cache.lookup height with
  | some hit => exact Session.stays_pure
  | none =>
      refine (rpcRequest_bounded _).bind fun block => ?_
      cases block with
      | none => exact Session.stays_pure
      | some time => exact Session.stays_pure

theorem visitLogs_bounded (logs : List RpcLog) (p : Progress) :
    Session.Stays Bounded (visitLogs node browser faults limit target logs p) := by
  induction logs generalizing p with
  | nil => exact Session.stays_pure
  | cons log rest ih =>
      refine Session.Stays.bind ?_ fun result => .ite (fun _ => Session.stays_pure) fun _ => ih _
      refine .ite (fun _ => Session.stays_pure) fun _ => ?_
      refine (rpcRequest_bounded _).bind fun transaction => (rpcRequest_bounded _).bind fun receipt =>
        (blockTimestamp_bounded _ _).bind fun result => ?_
      dsimp only
      split
      · exact Session.stays_pure
      · exact Session.stays_pure

theorem visitSpans_bounded {spans : List (Nat × Nat)}
    (h : ∀ span ∈ spans, span.2 + 1 ≤ span.1 + logRangeLimit) (p : Progress) :
    Session.Stays Bounded (visitSpans node browser faults limit target spans p) := by
  induction spans generalizing p with
  | nil => exact Session.stays_pure
  | cons span rest ih =>
      obtain ⟨hspan, hrest⟩ := List.forall_mem_cons.mp h
      refine (logsInSpan_bounded _ hspan).bind fun logs => (visitLogs_bounded _ p).bind fun result => ?_
      exact .ite (fun _ => Session.stays_pure) fun _ => ih hrest _

end Queries

/-- Whichever requests fail, a list that is returned is the naive one, and no query spans more than
10000 blocks. -/
theorem contractActivity_naive {node : Node} (h : node.Ascending) (browser : Browser) (faults : Faults)
    {limit : Nat} (hlimit : 1 ≤ limit) :
    (∀ output requests, (contractActivity node browser faults limit none).after ⟨0, []⟩ =
      (.ok output, requests) → output = naiveActivity node browser limit) ∧
    ∀ span ∈ ((contractActivity node browser faults limit none).after ⟨0, []⟩).2.spans,
      span.2 + 1 - span.1 ≤ 10000 := by
  constructor
  · intro output requests hrun
    have hreturned : (contractActivity node browser faults limit none).Yields
        (· = naiveActivity node browser limit) := by
      refine (rpcRequest_yields _).bind fun _ _ => (rpcRequest_yields _).bind fun latest hlatest => ?_
      subst hlatest
      intro s output s' hrun
      have hstart : Progress.Going node browser limit ⟨[], [], []⟩ :=
        ⟨fun height timestamp hlookup => (by cases hlookup), hlimit⟩
      have hvisited : output = ((freshLogs browser []
          ((spansFrom (node.latest + 1) (windowStart node) node.latest).flatMap fun span =>
            (live (logsBetween node span.1 span.2)).reverse)).filterMap
              (entryOf node browser)).take limit :=
        visitSpans_yields h hstart _ s output s' hrun
      have hwindow : windowStart node ≤ node.latest := by
        unfold windowStart
        split <;> omega
      rw [hvisited, spansFrom_cover h (Nat.lt_succ_self node.latest) hwindow, naiveActivity,
        sort_newest (live_logsBetween h _ _)]
    exact hreturned _ output requests hrun
  · intro span hspan
    have hbounded : Session.Stays Bounded (contractActivity node browser faults limit none) :=
      (rpcRequest_bounded _).bind fun _ => (rpcRequest_bounded _).bind fun latest =>
        visitSpans_bounded (fun span hmem => spansFrom_short hmem) _
    have hshort := hbounded ⟨0, []⟩ (fun span hmem => absurd hmem List.not_mem_nil) span hspan
    have hlimit : logRangeLimit = 10000 := rfl
    omega

namespace Sample

/-- A log of the module at `[1]`. -/
def log (block index : Nat) (tx : Bytes) : RpcLog := ⟨[1], [], [], block, tx, index, false⟩

/-- A node at block 12000 with two logs of one transaction in block 11999 and one of another in block
5. It has answers to everything. -/
def node : Node where
  modules := [[1]]
  latest := 12000
  logs := [log 5 0 [0xa], log 11999 3 [0xb], log 11999 4 [0xb]]
  transaction := fun hash => some ⟨hash, some [7]⟩
  receipt := fun _ => some ⟨some 1, some []⟩
  blockTime := fun height => some height

def browser : Browser where
  toLowerCase := id
  toISOString := fun _ => [0x74]
  toInjectiveAddress := id
  decodeLog := fun _ => ⟨ascii "update_ref", []⟩

/-- The first query for logs is refused for its range. -/
def refused : Faults := fun request => if request = 2 then some ⟨ascii "block range"⟩ else none

/-- The entry of a transaction. -/
def entry (hash : Bytes) (height : Nat) : ContractTx :=
  ⟨hash, height, [0x74], 0, ascii "update_ref", [7], []⟩

/-- The span is halved, and both transactions are found, the newer one first. -/
theorem refused_range_read :
    (contractActivity node browser refused 50 none).after ⟨0, []⟩ =
        (.ok [entry [0xb] 11999, entry [0xa] 5],
          ⟨12, [(2001, 12000), (2001, 7000), (7001, 12000), (0, 2000)]⟩) ∧
      [entry [0xb] 11999, entry [0xa] 5] = naiveActivity node browser 50 := by
  have hascending : node.Ascending := ⟨by decide, by decide⟩
  have hrun : (contractActivity node browser refused 50 none).after ⟨0, []⟩ =
      (.ok [entry [0xb] 11999, entry [0xa] 5],
        ⟨12, [(2001, 12000), (2001, 7000), (7001, 12000), (0, 2000)]⟩) := by decide +kernel
  exact ⟨hrun, (contractActivity_naive hascending browser refused (by omega)).1 _ _ hrun⟩

end Sample

end Igit.Web
