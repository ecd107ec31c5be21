import Igit.Evm.Primitives

/-!
# The nonce manager

`evmNonceManager` of `cli/internal/chain/evm_nonce.go`. Operations of one registry run concurrently,
but `reserve` and `invalidate` hold the manager's lock, so a run is a sequence of them, of
broadcasts, and of failures. The node's pending count is read when the cache has to be synchronised
and grows when a transaction is broadcast.

A failure makes the next operation read the pending count while reservations of the failed
generation may still be waiting to be broadcast, and so does an operation for another account. Open
reservations keep distinct nonces as long as no reservation the node does not count yet is open when
the manager synchronises (`nonces_distinct_of_synced`).
-/

namespace Igit.Chain

open Fallible

/-- The endpoint, chain and account a nonce belongs to. -/
structure NonceKey where
  endpoint : Bytes
  chainId : UInt64
  account : Bytes
  deriving DecidableEq, Repr, Inhabited

/-- `evmNonceManager`. -/
structure NonceManager where
  valid : Bool
  key : NonceKey
  next : UInt64
  generation : UInt64
  deriving DecidableEq, Repr, Inhabited

/-- `evmNonceReservation`. -/
structure Reservation where
  key : NonceKey
  generation : UInt64
  nonce : UInt64
  deriving DecidableEq, Repr

/-- The errors of `reserve`, with the error of reading the pending count. -/
inductive NonceFailure (ε : Type) where
  | pending (failure : ε)
  | overflow
  deriving DecidableEq, Repr

def maxUint64 : UInt64 := 0xffffffffffffffff

namespace NonceManager

variable {ε : Type} (m : NonceManager)

/-- The cache is for this key. -/
def cached (key : NonceKey) : Bool := m.valid && decide (m.key = key)

/-- The end of `reserve`: hand out the next nonce. -/
def handOut : NonceManager × Except (NonceFailure ε) Reservation :=
  if m.next = maxUint64 then ({ m with valid := false }, .error .overflow)
  else ({ m with next := m.next + 1 }, .ok ⟨m.key, m.generation, m.next⟩)

/-- `reserve`. `pending` is the answer of the node, which is asked when the cache is of no use. -/
def reserve (key : NonceKey) (pending : Except ε UInt64) :
    NonceManager × Except (NonceFailure ε) Reservation :=
  if m.cached key then m.handOut
  else
    match pending with
    | .error failure => ({ m with valid := false }, .error (.pending failure))
    | .ok count =>
        if count = maxUint64 then (m, .error .overflow)
        else handOut ⟨true, key, count, m.generation + 1⟩

/-- `invalidate`. -/
def invalidate (r : Reservation) : NonceManager :=
  if m.valid ∧ m.key = r.key ∧ m.generation = r.generation then
    { m with valid := false, generation := m.generation + 1 }
  else m

variable {m} {m' : NonceManager} {key : NonceKey} {pending : Except ε UInt64}

/-- A reservation is handed out from the cache or after a synchronisation. -/
theorem reserve_ok {r : Reservation} (h : m.reserve key pending = (m', .ok r)) :
    (m.cached key = true ∧ (m.handOut : _ × Except (NonceFailure ε) Reservation) = (m', .ok r)) ∨
    (m.cached key = false ∧ ∃ count, pending = .ok count ∧
      (handOut ⟨true, key, count, m.generation + 1⟩ : _ × Except (NonceFailure ε) Reservation) =
        (m', .ok r)) := by
  unfold reserve at h
  split at h
  · next hcached => exact .inl ⟨hcached, h⟩
  · next hcached =>
      refine .inr ⟨Bool.eq_false_of_not_eq_true hcached, ?_⟩
      cases pending with
      | error failure => cases h
      | ok count =>
          change (if count = maxUint64 then (m, .error .overflow)
            else handOut ⟨true, key, count, m.generation + 1⟩) = (m', .ok r) at h
          split at h
          · cases h
          · exact ⟨count, rfl, h⟩

/-- A refused reservation leaves the manager as it was, or without a cache. -/
theorem reserve_error {failure : NonceFailure ε} (h : m.reserve key pending = (m', .error failure)) :
    m' = m ∨ m'.valid = false := by
  have hout : ∀ start : NonceManager, (start.handOut : _ × Except (NonceFailure ε) Reservation) =
      (m', .error failure) → m'.valid = false := by
    intro start hstart
    unfold handOut at hstart
    split at hstart
    · cases hstart
      rfl
    · cases hstart
  unfold reserve at h
  split at h
  · exact .inr (hout m h)
  · cases pending with
    | error failure =>
        cases h
        exact .inr rfl
    | ok count =>
        change (if count = maxUint64 then (m, .error .overflow)
          else handOut ⟨true, key, count, m.generation + 1⟩) = (m', .error failure) at h
        split at h
        · cases h
          exact .inl rfl
        · exact .inr (hout _ h)

end NonceManager

/-! ## Runs -/

/-- The manager, the node's pending counts, and the reservations that are neither invalidated nor
broadcast. -/
structure NonceState where
  manager : NonceManager
  pending : NonceKey → UInt64
  pool : List Reservation

/-- A step of a run: an operation reserves a nonce, where reading the pending count may fail; an
operation gives its reservation up; a transaction is broadcast, after which the nodes count at least
as many as before; an operation fails after its broadcast. -/
inductive NonceEvent where
  | reserve (key : NonceKey) (readable : Bool)
  | fail (r : Reservation)
  | broadcast (r : Reservation) (growth : NonceKey → Nat)
  | failLate (r : Reservation)

namespace NonceState

/-- A new manager before any node. -/
def initial (pending : NonceKey → UInt64) : NonceState := ⟨default, pending, []⟩

/-- The node's answer about its pending count. -/
def answer (s : NonceState) (key : NonceKey) (readable : Bool) : Except Unit UInt64 :=
  if readable then .ok (s.pending key) else .error ()

theorem answer_ok {s : NonceState} {key : NonceKey} {readable : Bool} {count : UInt64}
    (h : s.answer key readable = .ok count) : readable = true ∧ count = s.pending key := by
  cases readable with
  | true =>
      cases h
      exact ⟨rfl, rfl⟩
  | false => cases h

/-- The pending counts after a broadcast. -/
def grown (s : NonceState) (growth : NonceKey → Nat) : NonceKey → UInt64 :=
  fun key => UInt64.ofNat (min ((s.pending key).toNat + growth key) maxUint64.toNat)

/-- The state after `reserve`: a reservation that was handed out is open. -/
def take (s : NonceState) : NonceManager × Except (NonceFailure Unit) Reservation → NonceState
  | (manager, .ok r) => ⟨manager, s.pending, r :: s.pool⟩
  | (manager, .error _) => ⟨manager, s.pending, s.pool⟩

/-- What an event leaves. -/
def step (s : NonceState) : NonceEvent → NonceState
  | .reserve key readable => s.take (s.manager.reserve key (s.answer key readable))
  | .fail r => ⟨s.manager.invalidate r, s.pending, s.pool.erase r⟩
  | .broadcast r growth => ⟨s.manager, s.grown growth, s.pool.erase r⟩
  | .failLate r => ⟨s.manager.invalidate r, s.pending, s.pool⟩

/-- No two open reservations of one key have one nonce. -/
def Distinct (s : NonceState) : Prop :=
  s.pool.Pairwise fun a b => a.key = b.key → a.nonce ≠ b.nonce

/-- The open reservations of a key are all counted by the node. -/
def Counted (s : NonceState) (key : NonceKey) : Prop :=
  ∀ r ∈ s.pool, r.key = key → r.nonce < s.pending key

/-- An event that does not synchronise the manager while a reservation of the key is open that the
node does not count. -/
def Synced (s : NonceState) : NonceEvent → Prop
  | .reserve key _ => s.manager.cached key = false → s.Counted key
  | _ => True

instance (s : NonceState) : Decidable s.Distinct :=
  inferInstanceAs (Decidable (s.pool.Pairwise fun a b => a.key = b.key → a.nonce ≠ b.nonce))

instance (s : NonceState) (event : NonceEvent) : Decidable (s.Synced event) :=
  match event with
  | .reserve key _ => inferInstanceAs
      (Decidable (s.manager.cached key = false → ∀ r ∈ s.pool, r.key = key → r.nonce < s.pending key))
  | .fail _ | .broadcast _ _ | .failLate _ => isTrue trivial

/-- Open reservations are distinct, and those of the cached key are below the next nonce. -/
structure Sound (s : NonceState) : Prop where
  distinct : s.Distinct
  below : s.manager.valid = true → ∀ r ∈ s.pool, r.key = s.manager.key → r.nonce < s.manager.next

variable {s : NonceState}

/-- The next nonce is handed out from a manager above the open reservations of its key. -/
theorem Sound.handOut {m m' : NonceManager} {pool : List Reservation} {pending : NonceKey → UInt64}
    {ε : Type} {r : Reservation}
    (hdistinct : pool.Pairwise fun a b : Reservation => a.key = b.key → a.nonce ≠ b.nonce)
    (hbelow : ∀ other ∈ pool, other.key = m.key → other.nonce < m.next)
    (h : (m.handOut : NonceManager × Except (NonceFailure ε) Reservation) = (m', .ok r)) :
    Sound ⟨m', pending, r :: pool⟩ := by
  unfold NonceManager.handOut at h
  split at h
  · cases h
  · next hmax =>
      cases h
      have hnext : (m.next + 1).toNat = m.next.toNat + 1 := by
        have hne : m.next.toNat ≠ maxUint64.toNat := fun heq => hmax (UInt64.toNat_inj.mp heq)
        have hlt := m.next.toNat_lt
        rw [UInt64.toNat_add]
        change m.next.toNat ≠ 18446744073709551615 at hne
        change (m.next.toNat + 1) % 18446744073709551616 = _
        omega
      constructor
      · refine List.pairwise_cons.mpr ⟨fun other hother hkey => ?_, hdistinct⟩
        exact (UInt64.ne_of_lt (hbelow other hother hkey.symm)).symm
      · intro _ other hother hkey
        rw [UInt64.lt_iff_toNat_lt]
        change other.nonce.toNat < (m.next + 1).toNat
        rw [hnext]
        rcases List.mem_cons.mp hother with rfl | hold
        · exact Nat.lt_succ_self _
        · have hlt := UInt64.lt_iff_toNat_lt.mp (hbelow other hold hkey)
          omega

/-- Invalidating the cache does no harm. -/
theorem Sound.invalidate (h : s.Sound) (r : Reservation) :
    Sound ⟨s.manager.invalidate r, s.pending, s.pool⟩ := by
  refine ⟨h.distinct, ?_⟩
  show (s.manager.invalidate r).valid = true → ∀ other ∈ s.pool,
    other.key = (s.manager.invalidate r).key → other.nonce < (s.manager.invalidate r).next
  unfold NonceManager.invalidate
  split
  · intro hvalid
    cases hvalid
  · exact h.below

/-- A reservation that is closed does no harm. -/
theorem Sound.close (h : s.Sound) (r : Reservation) (pending : NonceKey → UInt64) :
    Sound ⟨s.manager, pending, s.pool.erase r⟩ :=
  ⟨h.distinct.erase r, fun hvalid other hother => h.below hvalid other (List.mem_of_mem_erase hother)⟩

/-- An event that does not synchronise the manager too early keeps the state sound. -/
theorem Sound.step (h : s.Sound) {event : NonceEvent} (hsynced : s.Synced event) :
    (s.step event).Sound := by
  cases event with
  | fail r => exact (h.invalidate r).close r s.pending
  | broadcast r growth => exact h.close r (s.grown growth)
  | failLate r => exact h.invalidate r
  | reserve key readable =>
      show (s.take (s.manager.reserve key (s.answer key readable))).Sound
      cases hreserve : s.manager.reserve key (s.answer key readable) with
      | mk manager result =>
          cases result with
          | error failure =>
              refine ⟨h.distinct, fun hvalid => ?_⟩
              rcases NonceManager.reserve_error hreserve with rfl | hinvalid
              · exact h.below hvalid
              · rw [show manager.valid = true from hvalid] at hinvalid
                cases hinvalid
          | ok r =>
              rcases NonceManager.reserve_ok hreserve with ⟨hcached, hout⟩ | ⟨hcached, count, hread, hout⟩
              · have hvalid : s.manager.valid = true := (Bool.and_eq_true_iff.mp hcached).1
                exact Sound.handOut h.distinct (h.below hvalid) hout
              · have hcount := answer_ok hread
                refine Sound.handOut h.distinct ?_ hout
                intro other hother hkey
                rw [hcount.2]
                exact hsynced hcached other hother hkey

/-- A synchronisation hands out the nonce of an open reservation. -/
def Collides (s : NonceState) (key : NonceKey) (readable : Bool) : Prop :=
  s.manager.cached key = false ∧ readable = true ∧ s.pending key ≠ maxUint64 ∧
    ∃ r ∈ s.pool, r.key = key ∧ r.nonce = s.pending key

/-- The reservation that follows a synchronisation has the nonce the node counts. -/
theorem step_reserve_pool {key : NonceKey} (hcached : s.manager.cached key = false)
    (hmax : s.pending key ≠ maxUint64) :
    (s.step (.reserve key true)).pool =
      ⟨key, s.manager.generation + 1, s.pending key⟩ :: s.pool := by
  show (s.take (s.manager.reserve key (.ok (s.pending key)))).pool = _
  have hreserve : s.manager.reserve key (.ok (s.pending key) : Except Unit UInt64) =
      NonceManager.handOut ⟨true, key, s.pending key, s.manager.generation + 1⟩ := by
    unfold NonceManager.reserve
    rw [hcached]
    exact if_neg hmax
  rw [hreserve, NonceManager.handOut, if_neg hmax]
  rfl

/-- A synchronisation that gets no count below the last nonce reserves nothing. -/
theorem step_reserve_refused {key : NonceKey} {readable : Bool}
    (hcached : s.manager.cached key = false)
    (hrefused : readable = false ∨ s.pending key = maxUint64) :
    (s.step (.reserve key readable)).pool = s.pool := by
  show (s.take (s.manager.reserve key (s.answer key readable))).pool = _
  unfold NonceManager.reserve
  rw [hcached]
  cases readable with
  | false => rfl
  | true =>
      have hmax : s.pending key = maxUint64 := by
        rcases hrefused with hfalse | hmax
        · cases hfalse
        · exact hmax
      show (s.take (if s.pending key = maxUint64 then (s.manager, .error .overflow)
        else NonceManager.handOut ⟨true, key, s.pending key, s.manager.generation + 1⟩)).pool = _
      rw [if_pos hmax]
      rfl

/-- In a sound state the next reservation is distinct from the open ones unless it collides. -/
theorem Sound.distinct_reserve_iff (h : s.Sound) (key : NonceKey) (readable : Bool) :
    (s.step (.reserve key readable)).Distinct ↔ ¬ s.Collides key readable := by
  by_cases hcached : s.manager.cached key = true
  · have hsynced : s.Synced (.reserve key readable) :=
      fun hnot => absurd (hcached.symm.trans hnot) (by decide)
    exact iff_of_true (h.step hsynced).distinct
      fun hcollides => absurd (hcached.symm.trans hcollides.1) (by decide)
  · have hnot : s.manager.cached key = false := Bool.eq_false_of_not_eq_true hcached
    by_cases hrefused : readable = false ∨ s.pending key = maxUint64
    · have hpool := step_reserve_refused hnot hrefused
      unfold Distinct
      rw [hpool]
      refine iff_of_true h.distinct fun hcollides => ?_
      obtain ⟨-, hreadable, hmax, -⟩ := hcollides
      rcases hrefused with hfalse | hlast
      · exact absurd (hreadable.symm.trans hfalse) (by decide)
      · exact hmax hlast
    · obtain ⟨hreadable, hmax⟩ := not_or.mp hrefused
      obtain rfl : readable = true := Bool.eq_true_of_not_eq_false hreadable
      unfold Distinct
      rw [step_reserve_pool hnot hmax, List.pairwise_cons]
      constructor
      · intro hdistinct hcollides
        obtain ⟨-, -, -, r, hr, hkey, hnonce⟩ := hcollides
        exact hdistinct.1 r hr hkey.symm hnonce.symm
      · intro hfree
        refine ⟨fun r hr hkey hnonce => ?_, h.distinct⟩
        exact hfree ⟨hnot, rfl, hmax, r, hr, hkey.symm, hnonce.symm⟩

theorem sound_initial (pending : NonceKey → UInt64) : (initial pending).Sound :=
  ⟨List.Pairwise.nil, fun _ _ hr => absurd hr List.not_mem_nil⟩

end NonceState

open NonceState in
/-- In a run in which the manager never reads the pending count while a reservation is open that the
node does not count, open reservations of one endpoint, chain and account have distinct nonces. At
every such point the next reservation is distinct from them exactly when it does not read the nonce
of one of them from the node. -/
theorem nonces_distinct_of_synced {pending : NonceKey → UInt64} {events : List NonceEvent}
    (h : Along Synced NonceState.step (initial pending) events) :
    (events.foldl NonceState.step (initial pending)).Distinct ∧
    ∀ key readable, ((events.foldl NonceState.step (initial pending)).step
        (.reserve key readable)).Distinct ↔
      ¬ (events.foldl NonceState.step (initial pending)).Collides key readable := by
  have hsound : (events.foldl NonceState.step (initial pending)).Sound :=
    along_preserves (fun _ _ hsynced hbefore => hbefore.step hsynced) h (sound_initial pending)
  exact ⟨hsound.distinct, hsound.distinct_reserve_iff⟩

namespace Sample

/-- An account at a node. -/
def key : NonceKey := ⟨[0x6e], 1439, [0xa1]⟩

/-- The state after some events, with no transaction counted at the beginning. -/
def after (events : List NonceEvent) : NonceState :=
  events.foldl NonceState.step (.initial fun _ => 0)

/-- A transaction is broadcast, and every node counts it. -/
def counted (r : Reservation) : NonceEvent := .broadcast r fun _ => 1

/-- Two transactions are broadcast before one of them fails, and two more are begun. -/
def orderly : List NonceEvent :=
  [.reserve key true, .reserve key true, counted ⟨key, 1, 0⟩, counted ⟨key, 1, 1⟩,
   .failLate ⟨key, 1, 1⟩, .reserve key true, .reserve key true]

/-- The new reservations have new nonces. -/
theorem orderly_distinct :
    (after orderly).pool.map Reservation.nonce = [3, 2] ∧ (after orderly).Distinct := by
  have hsynced : Along NonceState.Synced NonceState.step (.initial fun _ => 0) orderly := by
    decide +kernel
  exact ⟨by decide +kernel, (nonces_distinct_of_synced hsynced).1⟩

/-- The first of two operations fails before the second is broadcast. The fourth then gets the nonce
of the second. -/
theorem failed_sibling_repeats_nonce :
    ¬ (after [.reserve key true, .reserve key true, .fail ⟨key, 1, 0⟩, .reserve key true,
      .reserve key true]).Distinct := by
  decide +kernel

end Sample

end Igit.Chain
