import Igit.Chain.Rpc
import Igit.Chain.Nonce

/-!
# Sending a transaction

`transact` of `cli/internal/chain/evm_transactor.go` with the calls it makes: the account and chain
are looked up, a nonce is reserved, gas and price are estimated, the transaction is signed and sent,
and its receipt is awaited. `Exchanges` is everything the node does during one `transact`, with
`accepted` the attempts of `eth_sendRawTransaction` at which it accepts the transaction, whatever it
answers and whether or not the answer arrives.

`eth_sendRawTransaction` is repeated after a lost answer. An error without a hash then says only that
the last attempt was not answered with one (`unhashed_failure_unaccepted_iff`).
-/

namespace Igit.Chain

open Fallible

/-- The status of an `EVMReceipt`. -/
structure Receipt where
  status : Bytes
  deriving DecidableEq, Repr

/-- The errors of `WaitReceipt`. A mined transaction that failed has a receipt. -/
inductive WaitFailure where
  | rpc (failure : RpcFailure)
  | stopped
  | reverted (receipt : Receipt)
  deriving DecidableEq, Repr

/-- The errors of `transact`. -/
inductive TransactFailure where
  | signerUnavailable
  | notConfigured
  | owner
  | rpc (failure : RpcFailure)
  | nullResult
  | quantity
  | chainMismatch (reported required : UInt64)
  | account
  | nonceOverflow
  | gasOverflow
  | contractRevert (code : Int) (message data : Bytes)
  | sign
  | invalidRaw
  | emptyHash
  | reverted (hash status : Bytes)
  | receiptUnconfirmed (hash : Bytes) (failure : WaitFailure)
  deriving DecidableEq, Repr

/-- The transaction hash of an error: `TransactionRevertedError` and `EVMReceiptUnconfirmedError`
have one. -/
def TransactFailure.hash : TransactFailure → Option Bytes
  | .reverted hash _ => some hash
  | .receiptUnconfirmed hash _ => some hash
  | _ => none

/-- `EVMTransaction`. -/
structure Transaction where
  chainId : UInt64
  nonce : UInt64
  target : Bytes
  data : Bytes
  gasLimit : UInt64
  gasPrice : Bytes
  value : Bytes
  deriving DecidableEq, Repr

/-- `EVMSigner`. -/
structure Signer where
  ownerAddress : Option Bytes
  signTransaction : Transaction → Option Bytes

/-- `EVMTransactor`, with the endpoint of its RPC transport and the chain ID of its profile, where 0
stands for any. -/
structure Transactor where
  signer : Option Signer
  endpoint : Option Bytes
  expectedChainId : UInt64

/-- What the node does during one `transact`. A request that is not created is not accepted. -/
structure Exchanges where
  chainId : Script Bytes
  transactionCount : Script Bytes
  estimateGas : Script Bytes
  gasPrice : Script Bytes
  send : Script Bytes
  accepted : Nat → Bool
  accepted_sent : ∀ attempt, accepted attempt = true → send.exchange attempt ≠ .unsent
  receipt : Script Receipt
  receipts : List (Script Receipt)

/-- `EVMTransactionResult`. -/
structure TransactionResult where
  hash : Bytes
  receipt : Option Receipt
  deriving DecidableEq, Repr

/-- What `transact` returns, with the transaction it gave to `SendRawTransaction` and the number of
times that was sent. -/
structure Outcome where
  result : Option TransactionResult
  failure : Option TransactFailure
  signed : Option Bytes
  broadcasts : Nat
  deriving DecidableEq, Repr

/-- An error before the broadcast. -/
def Outcome.refused (failure : TransactFailure) : Outcome := ⟨none, some failure, none, 0⟩

/-! ## The calls -/

namespace Codec

variable (codec : Codec) (endpoint : Bytes)

/-- `parseHexUint`, as an error of `transact`. -/
def uintOf (raw : Bytes) : Except TransactFailure UInt64 :=
  match codec.parseHexUint raw with
  | some value => pure value
  | none => throw .quantity

/-- A call for a quantity: `ChainID`, `TransactionCount` and `EstimateGas`. -/
def quantity (script : Script Bytes) : Except TransactFailure UInt64 := do
  let value ← ((codec.call endpoint script).1).mapError .rpc
  revertIf (codec.trimSpace (value.getD []) = []) .nullResult
  codec.uintOf (value.getD [])

/-- `GasPrice`. -/
def gasPrice (script : Script Bytes) : Except TransactFailure Bytes := do
  let value ← ((codec.call endpoint script).1).mapError .rpc
  let _ ← codec.uintOf (value.getD [])
  pure (codec.normalizeHex (value.getD []))

def injectiveMinGasPriceWei : UInt64 := 160000000

/-- The hexadecimal digit of a value below 16. -/
def hexChar (digit : Nat) : UInt8 := UInt8.ofNat (if digit < 10 then 0x30 + digit else 0x57 + digit)

/-- `0x%x`. -/
def hexText (n : UInt64) : Bytes :=
  [0x30, 0x78] ++ if n = 0 then [0x30] else (Nat.digits 16 n.toNat).reverse.map hexChar

/-- `0x` and `hexEncode`. -/
def hexEncode (data : Bytes) : Bytes :=
  [0x30, 0x78] ++ data.flatMap fun byte => [hexChar (byte.toNat / 16), hexChar (byte.toNat % 16)]

/-- `injectiveLegacyGasPrice`. -/
def injectiveLegacyGasPrice (chainId : UInt64) (price : Bytes) : Except TransactFailure Bytes := do
  let wei ← codec.uintOf price
  let raised := (chainId = 1439 ∨ chainId = 1776) ∧ wei < injectiveMinGasPriceWei
  pure (hexText (if raised then injectiveMinGasPriceWei else wei))

/-- `AdjustEVMGasLimit`. -/
def adjustEVMGasLimit (estimated headroom : UInt64) : Except TransactFailure UInt64 := do
  let quotient := estimated / 10
  revertIf (quotient > maxUint64 / 14) .gasOverflow
  let extra := estimated % 10 * 14 / 10
  revertIf (quotient * 14 > maxUint64 - extra) .gasOverflow
  let scaled := quotient * 14 + extra
  revertIf (scaled > maxUint64 - headroom) .gasOverflow
  pure (scaled + headroom)

/-- `wrapEVMRPCError`: an RPC error with data is a contract's revert. -/
def wrapEVMRPCError : TransactFailure → TransactFailure
  | .rpc (.rpc code message data) =>
      if data = [] then .rpc (.rpc code message data) else .contractRevert code message data
  | failure => failure

/-- The text `internal error`. -/
def internalError : Bytes :=
  [0x69, 0x6e, 0x74, 0x65, 0x72, 0x6e, 0x61, 0x6c, 0x20, 0x65, 0x72, 0x72, 0x6f, 0x72]

/-- `isTransientReceiptRPCError`. -/
def isTransientReceiptRPCError (failure : RpcFailure) : Bool :=
  failure.retryable || match failure with
    | .rpc code message _ =>
        code == -32603 || (codec.toLower message).tails.any internalError.isPrefixOf
    | _ => false

def maxReceiptRpcErrors : Nat := 3

/-- A receipt of a failed transaction: its status is `0x0`, in either case, or `0`. -/
def failed (receipt : Receipt) : Bool :=
  codec.trimSpace receipt.status ∈ [[0x30, 0x78, 0x30], [0x30, 0x58, 0x30], [0x30]]

/-- A round of `WaitReceipt`: the receipt, or the number of errors in a row so far. -/
def poll (transientErrors : Nat) (script : Script Receipt) : Except WaitFailure (Receipt ⊕ Nat) :=
  match (codec.call endpoint script).1 with
  | .error failure =>
      if codec.isTransientReceiptRPCError failure = false ∨
          transientErrors ≥ maxReceiptRpcErrors - 1 then throw (.rpc failure)
      else pure (.inr (transientErrors + 1))
  | .ok none => pure (.inr 0)
  | .ok (some receipt) =>
      if codec.failed receipt then throw (.reverted receipt) else pure (.inl receipt)

/-- `WaitReceipt`. The context ends in the wait after the last poll. -/
def waitReceipt (transientErrors : Nat) (script : Script Receipt) :
    List (Script Receipt) → Except WaitFailure Receipt
  | [] => do
      match ← codec.poll endpoint transientErrors script with
      | .inl receipt => pure receipt
      | .inr _ => throw .stopped
  | next :: rest => do
      match ← codec.poll endpoint transientErrors script with
      | .inl receipt => pure receipt
      | .inr errors => waitReceipt errors next rest

end Codec

/-! ## The pipeline -/

/-- What is known when the nonce is reserved. -/
structure Connection where
  signer : Signer
  endpoint : Bytes
  sender : Bytes
  chainId : UInt64

/-- `transact` before the reservation. -/
def Transactor.connect (t : Transactor) (codec : Codec) (ex : Exchanges) :
    Except TransactFailure Connection := do
  let some signer := t.signer | throw .signerUnavailable
  let some endpoint := t.endpoint | throw .notConfigured
  let some owner := signer.ownerAddress | throw .owner
  let some sender := codec.normalizeEVMAddress owner | throw .owner
  let chainId ← codec.quantity endpoint ex.chainId
  revertIf (t.expectedChainId ≠ 0 ∧ t.expectedChainId ≠ chainId)
    (.chainMismatch chainId t.expectedChainId)
  pure ⟨signer, endpoint, sender, chainId⟩

namespace Connection

variable (c : Connection) (codec : Codec) (ex : Exchanges)

/-- The errors of the nonce manager. -/
def ofNonceFailure : NonceFailure TransactFailure → TransactFailure
  | .pending failure => failure
  | .overflow => .nonceOverflow

/-- The reservation. -/
def reserve (m : NonceManager) : NonceManager × Except TransactFailure Reservation :=
  match codec.normalizeEVMAddress c.sender with
  | none => (m, .error .account)
  | some sender =>
      let reserved := m.reserve ⟨c.endpoint, c.chainId, codec.toLower sender⟩
        (codec.quantity c.endpoint ex.transactionCount)
      (reserved.1, reserved.2.mapError ofNonceFailure)

/-- `transact` from the reservation to the signed transaction. -/
def sign (nonce : UInt64) (target data value : Bytes) : Except TransactFailure Bytes := do
  let gas ← (codec.quantity c.endpoint ex.estimateGas).mapError Codec.wrapEVMRPCError
  let gasLimit ← Codec.adjustEVMGasLimit gas 10000
  let price ← codec.gasPrice c.endpoint ex.gasPrice
  let gasPrice ← codec.injectiveLegacyGasPrice c.chainId price
  let some raw := c.signer.signTransaction
    ⟨c.chainId, nonce, target, Codec.hexEncode data, gasLimit, gasPrice, value⟩ | throw .sign
  revertIf (codec.isHexBytes raw = false) .invalidRaw
  pure raw

/-- `transact` from `SendRawTransaction` on. -/
def broadcast (raw : Bytes) : Outcome :=
  match codec.call c.endpoint ex.send with
  | (.error failure, made) => ⟨none, some (Codec.wrapEVMRPCError (.rpc failure)), some raw, made⟩
  | (.ok answer, made) =>
      let hash := answer.getD []
      if codec.trimSpace hash = [] then ⟨none, some .emptyHash, some raw, made⟩
      else
        match codec.waitReceipt c.endpoint 0 ex.receipt ex.receipts with
        | .ok receipt => ⟨some ⟨hash, some receipt⟩, none, some raw, made⟩
        | .error (.reverted receipt) =>
            ⟨some ⟨hash, some receipt⟩, some (.reverted hash receipt.status), some raw, made⟩
        | .error failure =>
            ⟨some ⟨hash, none⟩, some (.receiptUnconfirmed hash failure), some raw, made⟩

/-- `transact` after the reservation. -/
def complete (nonce : UInt64) (target data value : Bytes) : Outcome :=
  match c.sign codec ex nonce target data value with
  | .error failure => .refused failure
  | .ok raw => c.broadcast codec ex raw

end Connection

/-- `transact`. A reservation whose transaction is not confirmed is invalidated. -/
def Transactor.transact (t : Transactor) (codec : Codec) (m : NonceManager) (ex : Exchanges)
    (target data value : Bytes) : Outcome × NonceManager :=
  match t.connect codec ex with
  | .error failure => (.refused failure, m)
  | .ok c =>
      match c.reserve codec ex m with
      | (m', .error failure) => (.refused failure, m')
      | (m', .ok r) =>
          let outcome := c.complete codec ex r.nonce target data value
          (outcome, if outcome.failure.isNone then m' else m'.invalidate r)

/-! ## Errors without a hash -/

variable {codec : Codec} {ex : Exchanges}

/-- The node answers with a transaction hash. -/
def Codec.Hashed (codec : Codec) (exchange : Exchange Bytes) : Prop :=
  ∃ answer, callOnce exchange = .ok answer ∧ codec.trimSpace (answer.getD []) ≠ []

/-- An error without a hash. -/
def Outcome.Unhashed (outcome : Outcome) : Prop :=
  ∃ failure, outcome.failure = some failure ∧ failure.hash = none

/-- If the transaction was sent, then up to the last attempt, which was answered with a hash exactly
when the outcome is not an error without one. -/
def Outcome.SentBy (outcome : Outcome) (codec : Codec) (ex : Exchanges) : Prop :=
  0 < outcome.broadcasts →
    outcome.broadcasts = ex.send.last + 1 ∧
      (outcome.Unhashed ↔ ¬ codec.Hashed (ex.send.exchange ex.send.last))

theorem Outcome.refused_sentBy (failure : TransactFailure) :
    (Outcome.refused failure).SentBy codec ex :=
  fun hsent => absurd hsent (Nat.lt_irrefl 0)

theorem Codec.wrapEVMRPCError_hash (failure : RpcFailure) :
    (Codec.wrapEVMRPCError (.rpc failure)).hash = none := by
  cases failure with
  | rpc code message data =>
      show TransactFailure.hash (if data = [] then _ else _) = none
      split
      · rfl
      · rfl
  | _ => rfl

/-- The outcome after a broadcast is decided by the last attempt. -/
theorem Connection.broadcast_sentBy (c : Connection) (raw : Bytes) :
    (c.broadcast codec ex raw).SentBy codec ex := by
  unfold Connection.broadcast
  cases hcall : codec.call c.endpoint ex.send with
  | mk result made =>
      cases result with
      | error failure =>
          intro hsent
          have hlast := Codec.call_error hcall hsent
          refine ⟨(hlast none).1, iff_of_true ⟨_, rfl, Codec.wrapEVMRPCError_hash failure⟩
            fun hhashed => ?_⟩
          obtain ⟨answer, hanswer, -⟩ := hhashed
          exact (hlast answer).2 hanswer
      | ok answer =>
          obtain ⟨hmade, hlast⟩ := Codec.call_ok hcall
          show Outcome.SentBy (if codec.trimSpace (answer.getD []) = [] then _ else _) codec ex
          split
          · next hblank =>
              intro hsent
              refine ⟨hmade, iff_of_true ⟨_, rfl, rfl⟩ fun hhashed => ?_⟩
              obtain ⟨other, hother, htext⟩ := hhashed
              cases hlast.symm.trans hother
              exact htext hblank
          · next htext =>
              have hhashed : codec.Hashed (ex.send.exchange ex.send.last) := ⟨answer, hlast, htext⟩
              have hunhashed : ∀ outcome : Outcome, outcome.broadcasts = made →
                  (∀ failure, outcome.failure = some failure → failure.hash ≠ none) →
                  outcome.SentBy codec ex := by
                intro outcome hbroadcasts hhash _
                refine ⟨hbroadcasts.trans hmade, iff_of_false (fun h => ?_) (not_not_intro hhashed)⟩
                obtain ⟨failure, hfailure, hnone⟩ := h
                exact hhash failure hfailure hnone
              split
              · exact hunhashed _ rfl fun _ hfailure => nomatch hfailure
              · refine hunhashed _ rfl fun failure hfailure => ?_
                cases hfailure
                exact Option.some_ne_none _
              · refine hunhashed _ rfl fun failure hfailure => ?_
                cases hfailure
                exact Option.some_ne_none _

/-- The outcome of `transact` is decided by the last attempt. -/
theorem Transactor.transact_sentBy (t : Transactor) (m : NonceManager) (target data value : Bytes) :
    (t.transact codec m ex target data value).1.SentBy codec ex := by
  unfold Transactor.transact
  split
  · exact Outcome.refused_sentBy _
  · next c _ =>
      split
      · exact Outcome.refused_sentBy _
      · next m' r _ =>
          show (c.complete codec ex r.nonce target data value).SentBy codec ex
          unfold Connection.complete
          split
          · exact Outcome.refused_sentBy _
          · exact c.broadcast_sentBy _

/-- A transaction that is sent is sent up to the attempt after which the client does not try again. An
error without a hash means that the node never accepted the transaction, exactly when the node answers
that attempt with a hash if it accepts the transaction at any. -/
theorem unhashed_failure_unaccepted_iff (t : Transactor) (codec : Codec) (m : NonceManager)
    (ex : Exchanges) (target data value : Bytes) :
    let outcome := (t.transact codec m ex target data value).1
    (0 < outcome.broadcasts → outcome.broadcasts = ex.send.last + 1) ∧
    ((outcome.Unhashed → ∀ attempt < outcome.broadcasts, ex.accepted attempt = false) ↔
      ((∃ attempt < outcome.broadcasts, ex.accepted attempt = true) →
        codec.Hashed (ex.send.exchange ex.send.last))) := by
  intro outcome
  have hsentBy : outcome.SentBy codec ex := t.transact_sentBy m target data value
  refine ⟨fun hsent => (hsentBy hsent).1, fun h hsome => ?_, fun h hunhashed attempt hattempt => ?_⟩
  · obtain ⟨attempt, hattempt, haccepted⟩ := hsome
    by_contra hhashed
    have hfalse := h ((hsentBy (by omega)).2.mpr hhashed) attempt hattempt
    exact absurd (haccepted.symm.trans hfalse) (by decide)
  · by_contra haccepted
    have hsome : ex.accepted attempt = true := Bool.eq_true_of_not_eq_false haccepted
    exact (hsentBy (by omega)).2.mp hunhashed (h ⟨attempt, hattempt, hsome⟩)

namespace Sample

/-- The text functions on texts without spaces and capital letters. -/
def plainCodec : Codec := ⟨id, id, some⟩

/-- A signer whose raw transaction shows the nonce. -/
def signer : Signer := ⟨some [0xa1], fun tx => some [0x30, 0x30 + tx.nonce.toUInt8]⟩

def transactor : Transactor := ⟨some signer, some [0x6e], 0⟩

/-- A call that is answered with one text at every attempt. -/
def answering (text : Bytes) : Script Bytes :=
  ⟨fun _ => .answered 200 0 (.result text), fun _ => false⟩

/-- A call for the receipt of a transaction that succeeded. -/
def mined : Script Receipt := ⟨fun _ => .answered 200 0 (.result ⟨[0x31]⟩), fun _ => false⟩

/-- The node accepts the transaction at the first attempt, but its answer is lost. It refuses the
second attempt because it knows the transaction. -/
def lostAnswer : Exchanges where
  chainId := answering [0x31]
  transactionCount := answering [0x30]
  estimateGas := answering [0x31]
  gasPrice := answering [0x31]
  send := ⟨fun attempt => if attempt = 0 then .lost false
    else .answered 200 0 (.error (-32000) [0x6b] []), fun _ => false⟩
  accepted := fun attempt => attempt == 0
  accepted_sent := by
    intro attempt haccepted
    obtain rfl : attempt = 0 := beq_iff_eq.mp haccepted
    intro hunsent
    cases hunsent
  receipt := mined
  receipts := []

/-- The node counts the transaction and accepts the next one. -/
def repeated : Exchanges where
  chainId := answering [0x31]
  transactionCount := answering [0x31]
  estimateGas := answering [0x31]
  gasPrice := answering [0x31]
  send := answering [0x68]
  accepted := fun _ => true
  accepted_sent := by
    intro attempt _ hunsent
    cases hunsent
  receipt := mined
  receipts := []

/-- The first operation. -/
def first : Outcome × NonceManager := transactor.transact plainCodec default lostAnswer [] [] []

/-- The operation repeated after its error. -/
def second : Outcome × NonceManager := transactor.transact plainCodec first.2 repeated [] [] []

/-- An operation whose transaction was accepted returns an error without a hash, and the repeated
operation has a second transaction accepted. -/
theorem lost_answer_executes_twice :
    first.1 = ⟨none, some (.rpc (.rpc (-32000) [0x6b] [])), some [0x30, 0x30], 2⟩ ∧
      first.1.Unhashed ∧ lostAnswer.accepted 0 = true ∧
      second.1 = ⟨some ⟨[0x68], some ⟨[0x31]⟩⟩, none, some [0x30, 0x31], 1⟩ ∧
      repeated.accepted 0 = true := by
  have hfirst : first.1 = ⟨none, some (.rpc (.rpc (-32000) [0x6b] [])), some [0x30, 0x30], 2⟩ := by
    decide +kernel
  refine ⟨hfirst, ?_, rfl, by decide +kernel, rfl⟩
  rw [hfirst]
  exact ⟨_, rfl, rfl⟩

end Sample

end Igit.Chain
