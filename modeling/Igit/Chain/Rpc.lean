import Igit.Evm.Primitives

/-!
# The JSON-RPC transport

`Call` of `cli/internal/chain/evm_rpc.go` with `callOnce`, `retryableRPCError` and the functions
that read a quantity from an answer. A `Script` says what happens to each attempt of one call: the
node's answer as it reaches the client, and whether the context ends while the client waits to try
again. `Codec.call` also returns how many attempts were made. A call is its last attempt
(`Codec.call_ok`, `Codec.call_error`).
-/

namespace Igit.Chain

open Fallible

/-- The JSON of an answer. -/
inductive Body (α : Type) where
  | garbled
  | error (code : Int) (message data : Bytes)
  | null
  | mistyped
  | result (value : α)
  deriving DecidableEq, Repr

/-- One HTTP exchange as the client sees it: the request is not created, or no answer is read
(because the context ended, when `stopped`), or an answer is read. -/
inductive Exchange (α : Type) where
  | unsent
  | lost (stopped : Bool)
  | answered (status length : Nat) (body : Body α)
  deriving DecidableEq, Repr

/-- The errors of a call. -/
inductive RpcFailure where
  | notConfigured
  | create
  | transport (stopped : Bool)
  | tooLarge
  | http (status : Nat)
  | decode
  | rpc (code : Int) (message data : Bytes)
  | decodeResult
  | retryStopped
  | exhausted
  deriving DecidableEq, Repr

def maxRpcAttempts : Nat := 3
def maxRpcResponseBytes : Nat := 8388608

/-- `callOnce`. A null result leaves the output as it was. -/
def callOnce {α : Type} : Exchange α → Except RpcFailure (Option α)
  | .unsent => throw .create
  | .lost stopped => throw (.transport stopped)
  | .answered status length body => do
      revertIf (length > maxRpcResponseBytes) .tooLarge
      revertIf (status < 200 ∨ status ≥ 300) (.http status)
      match body with
      | .garbled => throw .decode
      | .error code message data => throw (.rpc code message data)
      | .null => pure none
      | .mistyped => throw .decodeResult
      | .result value => pure (some value)

/-- `retryableRPCError`. -/
def RpcFailure.retryable : RpcFailure → Bool
  | .http status => status == 408 || status == 429 || decide (status ≥ 500)
  | .transport stopped => !stopped
  | _ => false

/-- What happens to the attempts of one call, and whether the context ends in the wait after each. -/
structure Script (α : Type) where
  exchange : Nat → Exchange α
  stopped : Nat → Bool

namespace Script

variable {α : Type} (script : Script α)

/-- The loop of `Call` from an attempt on, with the number of attempts made. -/
def attempts : Nat → Nat → Except RpcFailure (Option α) × Nat
  | 0, attempt => (.error .exhausted, attempt)
  | remaining + 1, attempt =>
      match callOnce (script.exchange attempt) with
      | .ok value => (.ok value, attempt + 1)
      | .error failure =>
          if failure.retryable = false ∨ attempt = maxRpcAttempts - 1 then
            (.error failure, attempt + 1)
          else if script.stopped attempt then (.error .retryStopped, attempt + 1)
          else attempts remaining (attempt + 1)

/-- The client tries again after an attempt. -/
def again (attempt : Nat) : Bool :=
  match callOnce (script.exchange attempt) with
  | .ok _ => false
  | .error failure =>
      failure.retryable && decide (attempt < maxRpcAttempts - 1) && !script.stopped attempt

theorem exists_last : ∃ attempt, script.again attempt = false := by
  refine ⟨maxRpcAttempts - 1, ?_⟩
  unfold again
  split
  · rfl
  · simp

/-- The last attempt: the first one after which the client does not try again. -/
def last : Nat := Nat.find script.exists_last

end Script

/-- The text functions of the Go library and the address parser. -/
structure Codec where
  trimSpace : Bytes → Bytes
  toLower : Bytes → Bytes
  normalizeEVMAddress : Bytes → Option Bytes

/-- `Call`, with the number of attempts made. -/
def Codec.call {α : Type} (codec : Codec) (endpoint : Bytes) (script : Script α) :
    Except RpcFailure (Option α) × Nat :=
  if codec.trimSpace endpoint = [] then (.error .notConfigured, 0)
  else script.attempts maxRpcAttempts 0

/-! ## Quantities -/

/-- The value of a hexadecimal digit. -/
def hexDigit (c : UInt8) : Option Nat :=
  if 0x30 ≤ c ∧ c ≤ 0x39 then some (c.toNat - 0x30)
  else if 0x61 ≤ c ∧ c ≤ 0x66 then some (c.toNat - 0x61 + 10)
  else if 0x41 ≤ c ∧ c ≤ 0x46 then some (c.toNat - 0x41 + 10)
  else none

/-- `strings.TrimPrefix`. -/
def trimFront (front value : Bytes) : Bytes :=
  if front.isPrefixOf value then value.drop front.length else value

/-- The text without space around it and without `0x` or `0X`. -/
def Codec.hexDigits (codec : Codec) (raw : Bytes) : Bytes :=
  trimFront [0x30, 0x58] (trimFront [0x30, 0x78] (codec.trimSpace raw))

/-- `parseHexUint`. -/
def Codec.parseHexUint (codec : Codec) (raw : Bytes) : Option UInt64 :=
  let value := codec.hexDigits raw
  if value.length > 16 then none
  else (value.mapM hexDigit).map fun digits =>
    UInt64.ofNat (digits.foldl (fun acc digit => 16 * acc + digit) 0)

/-- `normalizeHex`. -/
def Codec.normalizeHex (codec : Codec) (raw : Bytes) : Bytes :=
  let value := codec.trimSpace raw
  if [0x30, 0x78].isPrefixOf value ∨ [0x30, 0x58].isPrefixOf value then
    [0x30, 0x78] ++ value.drop 2
  else [0x30, 0x78] ++ value

/-- `decodeHexBytes` accepts the text. -/
def Codec.isHexBytes (codec : Codec) (raw : Bytes) : Bool :=
  let value := codec.hexDigits raw
  value.length % 2 == 0 && (value.mapM hexDigit).isSome

/-! ## A call is its last attempt -/

namespace Script

variable {α : Type} {script : Script α}

/-- The result is decided by the attempt after which the client does not try again. -/
theorem attempts_last {remaining attempt : Nat} {result : Except RpcFailure (Option α)} {made : Nat}
    (h : script.attempts remaining attempt = (result, made)) (hremaining : 0 < remaining)
    (hbound : attempt + remaining = maxRpcAttempts)
    (hbefore : ∀ earlier < attempt, script.again earlier = true) :
    made = script.last + 1 ∧
      ∀ value, result = .ok value ↔ callOnce (script.exchange script.last) = .ok value := by
  induction remaining generalizing attempt with
  | zero => exact absurd hremaining (Nat.lt_irrefl 0)
  | succ remaining ih =>
      rw [attempts] at h
      -- the attempt is the last one, and its result is the call's
      have hstop : script.again attempt = false →
          (∀ value, result = .ok value ↔ callOnce (script.exchange attempt) = .ok value) →
          made = attempt + 1 → made = script.last + 1 ∧
            ∀ value, result = .ok value ↔ callOnce (script.exchange script.last) = .ok value := by
        intro hagain hresult hmade
        have hlast : script.last = attempt :=
          (Nat.find_eq_iff _).mpr ⟨hagain, fun n hn => by simp [hbefore n hn]⟩
        rw [hlast]
        exact ⟨hmade, hresult⟩
      cases hcall : callOnce (script.exchange attempt) with
      | ok value =>
          rw [hcall] at h
          obtain ⟨rfl, rfl⟩ := Prod.mk.inj h
          exact hstop (by simp [again, hcall]) (by simp [hcall]) rfl
      | error failure =>
          have hagain : script.again attempt = (failure.retryable &&
              decide (attempt < maxRpcAttempts - 1) && !script.stopped attempt) := by
            rw [again, hcall]
          have hfails : ∀ value, callOnce (script.exchange attempt) ≠ .ok value := by simp [hcall]
          have hattempt : attempt ≤ maxRpcAttempts - 1 := by omega
          rw [hcall] at h
          dsimp only at h
          split at h
          · next hfinal =>
              obtain ⟨rfl, rfl⟩ := Prod.mk.inj h
              refine hstop ?_ (by simp [hfails]) rfl
              rcases hfinal with hrefused | rfl
              · simp [hagain, hrefused]
              · simp [hagain]
          · next hretry =>
              obtain ⟨hretryable, hmore⟩ := not_or.mp hretry
              split at h
              · next hstopped =>
                  obtain ⟨rfl, rfl⟩ := Prod.mk.inj h
                  exact hstop (by simp [hagain, hstopped]) (by simp [hfails]) rfl
              · next hgoes =>
                  refine ih h (by omega) (by omega) fun earlier hearlier => ?_
                  rcases Nat.lt_succ_iff_lt_or_eq.mp hearlier with hlt | rfl
                  · exact hbefore earlier hlt
                  · simp [hagain, hgoes, hretryable, Nat.lt_of_le_of_ne hattempt hmore]

end Script

variable {α : Type} {codec : Codec} {endpoint : Bytes} {script : Script α}

/-- A call that returns was answered at its last attempt. -/
theorem Codec.call_ok {value : Option α} {made : Nat}
    (h : codec.call endpoint script = (.ok value, made)) :
    made = script.last + 1 ∧ callOnce (script.exchange script.last) = .ok value := by
  unfold Codec.call at h
  split at h
  · cases h
  · obtain ⟨hmade, hresult⟩ := Script.attempts_last h (by decide) rfl (by simp)
    exact ⟨hmade, (hresult value).mp rfl⟩

/-- A call that fails was not answered at its last attempt. -/
theorem Codec.call_error {failure : RpcFailure} {made : Nat}
    (h : codec.call endpoint script = (.error failure, made)) (hmade : 0 < made) (value : Option α) :
    made = script.last + 1 ∧ callOnce (script.exchange script.last) ≠ .ok value := by
  unfold Codec.call at h
  split at h
  · cases h
    exact absurd hmade (Nat.lt_irrefl 0)
  · obtain ⟨hlast, hresult⟩ := Script.attempts_last h (by decide) rfl (by simp)
    refine ⟨hlast, fun hok => ?_⟩
    cases (hresult value).mpr hok

end Igit.Chain
