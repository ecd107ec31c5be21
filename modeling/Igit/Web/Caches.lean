import Igit.Library.Fallible

/-!
# Reads after writes

The caches of `web/src/lib/transport.ts` and `web/src/lib/registry.ts`: verified suites with the block
they were verified at (`verifySuite`), and repositories that were looked up (`cached`). A write clears
both when its receipt is there, so that later reads see its block. The parts of asynchronous functions
between two awaits are the steps of a machine here, in any order, and the node answers from its newest
block. A verification or a lookup that is under way while a write clears the caches stores its older
block afterwards, and a later read returns it (`Sample.stale_reads`). In runs in which no such
load is under way at that time, no read returns older data (`reads_current`).
-/

namespace Igit.Web

open Fallible

/-! ## Promises -/

/-- Where a verification is: its request for the block number is sent, answered by the node, its result
is stored by `then`, it has failed, or it is settled by `finally`, with its block if it succeeded. -/
inductive VerificationPhase where
  | asked
  | answered (block : Nat)
  | stored (block : Nat)
  | failed
  | settled (block : Option Nat)
  deriving DecidableEq, Repr

/-- The block of a verification, once it is known. -/
def VerificationPhase.tag : VerificationPhase → Option Nat
  | .answered block | .stored block | .settled (some block) => some block
  | _ => none

/-- The reads: `readModule` without a binding, `resolveRepo` and `listRefs`. -/
inductive ReadKind (Q : Type) where
  | module
  | repo (query : Q)
  | refs (query : Q)
  deriving DecidableEq, Repr

/-- What a read does with its binding: it reads a module, it looks a repository up, it does so for a
list of refs, or it reads the refs of a repository that was looked up at a block. -/
inductive Goal (Q : Type) where
  | module
  | repo (query : Q)
  | refsRepo (query : Q)
  | refs (repoBlock : Nat)
  deriving DecidableEq, Repr

/-- A read whose result goes to the query cache. -/
def Goal.stores {Q : Type} : Goal Q → Prop
  | .repo _ | .refsRepo _ => True
  | .module | .refs _ => False

/-- Where a read is: it awaits a verification, it reads at a block, or it is a list of refs whose
repository is known. -/
inductive ReadPhase (Q : Type) where
  | verifying (verification : Nat) (goal : Goal Q)
  | reading (block : Nat) (goal : Goal Q)
  | resolved (repoBlock : Nat)
  deriving DecidableEq, Repr

/-- A read, with the blocks of the writes that had resolved when it started. -/
structure Read (S Q : Type) where
  suite : S
  after : List Nat
  phase : ReadPhase Q
  deriving DecidableEq, Repr

/-- Where a write is: it verifies the suite, its transaction is sent, it is mined in a block, its
receipt is there, or the verifications are cleared. -/
inductive WritePhase where
  | verifying (verification : Nat)
  | sent
  | mined (block : Nat)
  | confirmed (block : Nat)
  | cleared (block : Nat)
  deriving DecidableEq, Repr

/-- The block of a write. -/
def WritePhase.block : WritePhase → Option Nat
  | .mined block | .confirmed block | .cleared block => some block
  | .verifying _ | .sent => none

/-- A write by a wallet. -/
structure Write where
  provider : Nat
  phase : WritePhase
  deriving DecidableEq, Repr

/-- The result of a read: the blocks its data come from, and the blocks of the writes that had resolved
when it started. -/
structure Returned where
  after : List Nat
  blocks : List Nat
  deriving DecidableEq, Repr

/-- The page and the node: time, the newest block, both caches with their times, the pending
verifications, all promises under way, the wallets that are busy, the blocks of the writes that have
cleared the verifications or resolved, and the results. -/
structure Tab (S Q : Type) where
  now : Nat
  height : Nat
  verificationCache : S → Option (Nat × Nat)
  verificationPending : S → Option Nat
  queryCache : Q → Option (Nat × Nat)
  verifications : Nat → Option (S × VerificationPhase)
  nextVerification : Nat
  reads : Nat → Option (Read S Q)
  writes : Nat → Option Write
  transactionLocks : List Nat
  cleared : List Nat
  resolved : List Nat
  returned : List Returned

/-- `VERIFY_TTL_MS` and `CACHE_TTL_MS`. -/
def cacheTTL : Nat := 30000

/-- A binding, or the verification that will give it. -/
inductive Binding where
  | known (block : Nat)
  | promised (verification : Nat)
  deriving DecidableEq, Repr

namespace Tab

variable {S Q : Type} [DecidableEq S] [DecidableEq Q] (t : Tab S Q)

/-- A page at a node, with nothing cached. -/
def initial (now height : Nat) : Tab S Q where
  now := now
  height := height
  verificationCache := fun _ => none
  verificationPending := fun _ => none
  queryCache := fun _ => none
  verifications := fun _ => none
  nextVerification := 0
  reads := fun _ => none
  writes := fun _ => none
  transactionLocks := []
  cleared := []
  resolved := []
  returned := []

/-- A cached value that is not too old. -/
def unexpired (entry : Option (Nat × Nat)) : Option Nat :=
  entry.bind fun (block, timestamp) => if t.now - timestamp < cacheTTL then some block else none

/-- `verifySuiteNow`, as far as its first request. -/
def verifySuiteNow (suite : S) : Tab S Q :=
  { t with
    verifications := Function.update t.verifications t.nextVerification (some (suite, .asked))
    verificationPending := Function.update t.verificationPending suite (some t.nextVerification)
    nextVerification := t.nextVerification + 1 }

/-- `verifySuite`. -/
def verifySuite (suite : S) (force : Bool) : Tab S Q × Binding :=
  if force = true then (t.verifySuiteNow suite, .promised t.nextVerification)
  else match t.unexpired (t.verificationCache suite) with
    | some block => (t, .known block)
    | none => match t.verificationPending suite with
      | some pending => (t, .promised pending)
      | none => (t.verifySuiteNow suite, .promised t.nextVerification)

/-- A read goes on, or is over. -/
def setRead (id : Nat) (read : Option (Read S Q)) : Tab S Q :=
  { t with reads := Function.update t.reads id read }

/-- A read awaits its binding. -/
def awaitBinding (id : Nat) (suite : S) (after : List Nat) (goal : Goal Q) : Tab S Q :=
  match t.verifySuite suite false with
  | (next, .known block) => next.setRead id (some ⟨suite, after, .reading block goal⟩)
  | (next, .promised verification) =>
      next.setRead id (some ⟨suite, after, .verifying verification goal⟩)

/-- A read returns. -/
def deliver (id : Nat) (after blocks : List Nat) : Tab S Q :=
  { t.setRead id none with returned := t.returned ++ [⟨after, blocks⟩] }

/-- A read, up to its first await. -/
def startRead (id : Nat) (suite : S) : ReadKind Q → Tab S Q
  | .module => t.awaitBinding id suite t.resolved .module
  | .repo query =>
      match t.unexpired (t.queryCache query) with
      | some block => t.deliver id t.resolved [block]
      | none => t.awaitBinding id suite t.resolved (.repo query)
  | .refs query =>
      match t.unexpired (t.queryCache query) with
      | some block => t.setRead id (some ⟨suite, t.resolved, .resolved block⟩)
      | none => t.awaitBinding id suite t.resolved (.refsRepo query)

/-- `queryCache.set`. -/
def storeQuery (query : Q) (block : Nat) : Tab S Q :=
  { t with queryCache := Function.update t.queryCache query (some (block, t.now)) }

/-- A read whose calls at a block are answered. -/
def finishReading (id : Nat) (read : Read S Q) (block : Nat) : Goal Q → Tab S Q
  | .module => t.deliver id read.after [block]
  | .repo query => (t.storeQuery query block).deliver id read.after [block]
  | .refsRepo query =>
      (t.storeQuery query block).setRead id (some { read with phase := .resolved block })
  | .refs repoBlock => t.deliver id read.after [repoBlock, block]

/-- A verification changes. -/
def setVerification (id : Nat) (suite : S) (phase : VerificationPhase) : Tab S Q :=
  { t with verifications := Function.update t.verifications id (some (suite, phase)) }

/-- A write goes on, or is over. -/
def setWrite (id : Nat) (write : Option Write) : Tab S Q :=
  { t with writes := Function.update t.writes id write }

/-- A block with some of the transactions that were sent. -/
def mineBlock (included : List Nat) : Tab S Q :=
  { t with
    height := t.height + 1
    writes := fun id =>
      match t.writes id with
      | some ⟨provider, .sent⟩ =>
          some ⟨provider, if id ∈ included then .mined (t.height + 1) else .sent⟩
      | write => write }

/-- `clearSuiteCache` of a write. -/
def clearSuiteCache (block : Nat) : Tab S Q :=
  { t with
    verificationCache := fun _ => none
    verificationPending := fun _ => none
    cleared := block :: t.cleared }

/-- `clearQueryCache` of a write, which then resolves. -/
def clearQueryCache (block : Nat) : Tab S Q :=
  { t with queryCache := fun _ => none, resolved := block :: t.resolved }

end Tab

/-! ## Steps -/

/-- What can happen next. -/
inductive TabStep (S Q : Type) where
  | tick (elapsed : Nat)
  | newBlock (included : List Nat)
  | startRead (read : Nat) (suite : S) (kind : ReadKind Q)
  | nodeAnswers (verification : Nat)
  | verificationStored (verification : Nat)
  | verificationFails (verification : Nat)
  | verificationSettles (verification : Nat)
  | readBound (read : Nat)
  | readAnswered (read : Nat)
  | refsContinue (read : Nat)
  | readFails (read : Nat)
  | startWrite (write provider : Nat) (suite : S)
  | writeSent (write : Nat)
  | receiptSeen (write : Nat)
  | clearSuite (write : Nat)
  | clearQuery (write : Nat)
  | writeFails (write : Nat)
  deriving DecidableEq, Repr

namespace Tab

variable {S Q : Type} [DecidableEq S] [DecidableEq Q] (t : Tab S Q)

/-- What happens to a verification. -/
def stepVerification (id : Nat) (f : S → VerificationPhase → Option (Tab S Q)) :
    Option (Tab S Q) :=
  (t.verifications id).bind fun (suite, phase) => f suite phase

/-- The page after a step, if it can happen. -/
def step : TabStep S Q → Option (Tab S Q)
  | .tick elapsed => some { t with now := t.now + elapsed }
  | .newBlock included => some (t.mineBlock included)
  | .startRead id suite kind => if t.reads id = none then some (t.startRead id suite kind) else none
  | .nodeAnswers id => t.stepVerification id fun suite phase =>
      if phase = .asked then some (t.setVerification id suite (.answered t.height)) else none
  | .verificationStored id => t.stepVerification id fun suite phase =>
      match phase with
      | .answered block => some { t.setVerification id suite (.stored block) with
          verificationCache := Function.update t.verificationCache suite (some (block, t.now)) }
      | _ => none
  | .verificationFails id => t.stepVerification id fun suite phase =>
      match phase with
      | .asked | .answered _ => some (t.setVerification id suite .failed)
      | _ => none
  | .verificationSettles id => t.stepVerification id fun suite phase =>
      match phase with
      | .stored block => some { t.setVerification id suite (.settled (some block)) with
          verificationPending := Function.update t.verificationPending suite none }
      | .failed => some { t.setVerification id suite (.settled none) with
          verificationPending := Function.update t.verificationPending suite none }
      | _ => none
  | .readBound id => (t.reads id).bind fun read =>
      match read.phase with
      | .verifying verification goal =>
          match t.verifications verification with
          | some (_, .settled (some block)) =>
              some (t.setRead id (some { read with phase := .reading block goal }))
          | some (_, .settled none) => some (t.setRead id none)
          | _ => none
      | _ => none
  | .readAnswered id => (t.reads id).bind fun read =>
      match read.phase with
      | .reading block goal => some (t.finishReading id read block goal)
      | _ => none
  | .refsContinue id => (t.reads id).bind fun read =>
      match read.phase with
      | .resolved repoBlock => some (t.awaitBinding id read.suite read.after (.refs repoBlock))
      | _ => none
  | .readFails id => some (t.setRead id none)
  | .startWrite id provider suite =>
      if t.writes id = none ∧ provider ∉ t.transactionLocks then
        some { (t.verifySuiteNow suite).setWrite id
            (some ⟨provider, .verifying t.nextVerification⟩) with
          transactionLocks := provider :: t.transactionLocks }
      else none
  | .writeSent id => (t.writes id).bind fun write =>
      match write.phase with
      | .verifying verification =>
          match t.verifications verification with
          | some (_, .settled (some _)) => some (t.setWrite id (some { write with phase := .sent }))
          | _ => none
      | _ => none
  | .receiptSeen id => (t.writes id).bind fun write =>
      match write.phase with
      | .mined block => some (t.setWrite id (some { write with phase := .confirmed block }))
      | _ => none
  | .clearSuite id => (t.writes id).bind fun write =>
      match write.phase with
      | .confirmed block =>
          some { (t.clearSuiteCache block).setWrite id
              (some { write with phase := .cleared block }) with
            transactionLocks := t.transactionLocks.erase write.provider }
      | _ => none
  | .clearQuery id => (t.writes id).bind fun write =>
      match write.phase with
      | .cleared block => some ((t.clearQueryCache block).setWrite id none)
      | _ => none
  | .writeFails id => (t.writes id).bind fun write =>
      match write.phase with
      | .cleared _ => none
      | _ => some { t.setWrite id none with
          transactionLocks := t.transactionLocks.erase write.provider }

/-- The page after some steps. -/
def run : List (TabStep S Q) → Tab S Q → Option (Tab S Q)
  | [], t => some t
  | first :: rest, t => (t.step first).bind (run rest)

/-- The block of a verification, once it is known. -/
def tag (id : Nat) : Option Nat := (t.verifications id).bind fun (_, phase) => phase.tag

end Tab

/-! ## Loads that are under way -/

/-- The block a read has, or will have from its verification. -/
def ReadPhase.Binds {Q : Type} (tag : Nat → Option Nat) : ReadPhase Q → Nat → Prop
  | .verifying verification _, block => tag verification = some block
  | .reading current _, block => current = block
  | .resolved _, _ => False

/-- A read that will store in the query cache. -/
def ReadPhase.Stores {Q : Type} : ReadPhase Q → Prop
  | .verifying _ goal | .reading _ goal => goal.stores
  | .resolved _ => False

/-- The block of the repository of a list of refs. -/
def ReadPhase.repoBlock {Q : Type} : ReadPhase Q → Option Nat
  | .verifying _ (.refs block) | .reading _ (.refs block) | .resolved block => some block
  | _ => none

namespace Tab

variable {S Q : Type} [DecidableEq S] [DecidableEq Q] (t : Tab S Q)

/-- A step that leaves no older load behind: when a write clears the verifications, none is between the
node's answer and the cache with an older block; when it clears the query cache, no lookup is at an
older block. -/
def Undisturbed : TabStep S Q → Prop
  | .clearSuite id => ∀ provider written, t.writes id = some ⟨provider, .confirmed written⟩ →
      ∀ verification suite block,
        t.verifications verification = some (suite, .answered block) → written ≤ block
  | .clearQuery id => ∀ provider written, t.writes id = some ⟨provider, .cleared written⟩ →
      ∀ reader read block, t.reads reader = some read → read.phase.Stores →
        read.phase.Binds t.tag block → written ≤ block
  | _ => True

/-- A run of such steps. -/
def UndisturbedRun : List (TabStep S Q) → Tab S Q → Prop
  | [], _ => True
  | first :: rest, t => t.Undisturbed first ∧ (t.step first).elim True (UndisturbedRun rest)

end Tab

/-! ## What holds in such runs -/

/-- No block of a list is newer than a block. -/
def NoneNewer (blocks : List Nat) (block : Nat) : Prop := ∀ written ∈ blocks, written ≤ block

/-- A read is current: its blocks are not older than the writes before it, nor, if it stores its
result, than any write that has resolved. -/
structure Read.Current {S Q : Type} (tag : Nat → Option Nat) (resolved : List Nat)
    (read : Read S Q) : Prop where
  after : ∀ written ∈ read.after, written ∈ resolved
  binds : ∀ block, read.phase.Binds tag block → NoneNewer read.after block
  stores : read.phase.Stores → ∀ block, read.phase.Binds tag block → NoneNewer resolved block
  repo : ∀ block, read.phase.repoBlock = some block → NoneNewer read.after block

/-- The page is current: what is cached, pending, answered, read and returned is not older than the
writes whose caches were cleared. -/
structure Tab.Current {S Q : Type} (t : Tab S Q) : Prop where
  height : NoneNewer t.cleared t.height
  resolved : ∀ written ∈ t.resolved, written ∈ t.cleared
  cache : ∀ suite entry, t.verificationCache suite = some entry → NoneNewer t.cleared entry.1
  answered : ∀ id suite block, t.verifications id = some (suite, .answered block) →
    NoneNewer t.cleared block
  pending : ∀ suite id block, t.verificationPending suite = some id → t.tag id = some block →
    NoneNewer t.cleared block
  queries : ∀ query entry, t.queryCache query = some entry → NoneNewer t.resolved entry.1
  reads : ∀ id read, t.reads id = some read → read.Current t.tag t.resolved
  mined : ∀ id write block, t.writes id = some write → write.phase.block = some block →
    block ≤ t.height
  clearing : ∀ id provider block, t.writes id = some ⟨provider, .cleared block⟩ →
    block ∈ t.cleared
  returned : ∀ result ∈ t.returned, ∀ block ∈ result.blocks, NoneNewer result.after block

section Steps

variable {S Q : Type}

/-- A map that changes at one key keeps what holds for its entries. -/
theorem entries_update {K V : Type} [DecidableEq K] {P : K → V → Prop} {f : K → Option V}
    (h : ∀ key value, f key = some value → P key value) {key : K} {new : Option V}
    (hnew : ∀ value, new = some value → P key value) (other : K) (value : V)
    (hother : Function.update f key new other = some value) : P other value := by
  by_cases hkey : other = key
  · subst hkey
    exact hnew value (by simpa using hother)
  · rw [Function.update_of_ne hkey] at hother
    exact h other value hother

/-- A read stays current when no verification gets a block that is older than the writes. -/
theorem Read.Current.retag {read : Read S Q} {tag next : Nat → Option Nat} {resolved : List Nat}
    (h : read.Current tag resolved)
    (hnext : ∀ id block, next id = some block → tag id = some block ∨ NoneNewer resolved block) :
    read.Current next resolved := by
  have hbinds : ∀ block, read.phase.Binds next block →
      read.phase.Binds tag block ∨ NoneNewer resolved block := by
    intro block hblock
    cases hphase : read.phase with
    | verifying id goal =>
        rw [hphase] at hblock
        exact hnext id block hblock
    | reading current goal =>
        rw [hphase] at hblock
        exact Or.inl hblock
    | resolved current =>
        rw [hphase] at hblock
        exact hblock.elim
  refine ⟨h.after, fun block hblock => ?_, fun hstores block hblock => ?_, h.repo⟩
  · rcases hbinds block hblock with hold | hnew
    · exact h.binds block hold
    · exact fun written hwritten => hnew written (h.after written hwritten)
  · rcases hbinds block hblock with hold | hnew
    · exact h.stores hstores block hold
    · exact hnew

/-- A read gets the block of its verification. -/
theorem Read.Current.bind {read : Read S Q} {tag : Nat → Option Nat} {resolved : List Nat}
    (h : read.Current tag resolved) {verification block : Nat} {goal : Goal Q}
    (hphase : read.phase = .verifying verification goal)
    (htag : tag verification = some block) :
    Read.Current tag resolved { read with phase := .reading block goal } := by
  have hbinds : read.phase.Binds tag block := by
    rw [hphase]
    exact htag
  refine ⟨h.after, ?_, fun hstores => ?_, fun other hother => ?_⟩
  · rintro other ⟨⟩
    exact h.binds block hbinds
  · rintro other ⟨⟩
    exact h.stores (by rw [hphase]; exact hstores) block hbinds
  · refine h.repo other ?_
    rw [hphase]
    cases goal <;> exact hother

variable {t next : Tab S Q}

namespace Tab

/-- The block of a verification, by its phase. -/
theorem tag_eq_some {id block : Nat} :
    t.tag id = some block ↔
      ∃ suite phase, t.verifications id = some (suite, phase) ∧ phase.tag = some block := by
  unfold tag
  constructor
  · intro h
    obtain ⟨⟨suite, phase⟩, hentry, hphase⟩ := Option.bind_eq_some_iff.mp h
    exact ⟨suite, phase, hentry, hphase⟩
  · rintro ⟨suite, phase, hentry, hphase⟩
    exact Option.bind_eq_some_iff.mpr ⟨(suite, phase), hentry, hphase⟩

/-- What is returned from a cache stands in it. -/
theorem exists_of_unexpired {entry : Option (Nat × Nat)} {block : Nat}
    (h : t.unexpired entry = some block) : ∃ timestamp, entry = some (block, timestamp) := by
  obtain ⟨⟨stored, timestamp⟩, hentry, hblock⟩ := Option.bind_eq_some_iff.mp h
  dsimp only at hblock
  split at hblock
  · cases hblock
    exact ⟨timestamp, hentry⟩
  · cases hblock

/-- An older write is not newer than a block that no cleared write is newer than. -/
theorem Current.noneNewer_resolved (h : t.Current) {block : Nat}
    (hblock : NoneNewer t.cleared block) : NoneNewer t.resolved block :=
  fun written hwritten => hblock written (h.resolved written hwritten)

/-- A verification that starts, gets a block that is new enough, keeps its block or loses it leaves the
page current, with what it does to the caches. -/
theorem Current.setVerification (h : t.Current) {id : Nat} {suite : S} {phase : VerificationPhase}
    {cache : S → Option (Nat × Nat)} {pending : S → Option Nat} (following : Nat)
    (htag : ∀ block, phase.tag = some block → t.tag id = some block ∨ NoneNewer t.cleared block)
    (hanswered : ∀ block, phase = .answered block → NoneNewer t.cleared block)
    (hcache : ∀ other entry, cache other = some entry → NoneNewer t.cleared entry.1)
    (hpending : ∀ other verification, pending other = some verification →
      t.verificationPending other = some verification ∨ (verification = id ∧ phase.tag = none)) :
    Current { t with
      verifications := Function.update t.verifications id (some (suite, phase))
      verificationCache := cache
      verificationPending := pending
      nextVerification := following } := by
  have hold : ∀ other block,
      ((Function.update t.verifications id (some (suite, phase)) other).bind
        fun (_, phase) => phase.tag) = some block →
      (t.tag other = some block ∨ NoneNewer t.cleared block) ∧
        (other = id → phase.tag = some block) := by
    intro other block hblock
    by_cases hother : other = id
    · subst hother
      rw [Function.update_self] at hblock
      exact ⟨htag block hblock, fun _ => hblock⟩
    · rw [Function.update_of_ne hother] at hblock
      exact ⟨Or.inl hblock, fun heq => absurd heq hother⟩
  refine { h with cache := hcache, answered := ?_, pending := ?_, reads := ?_ }
  · intro other named block hentry
    refine entries_update (P := fun _ (entry : S × VerificationPhase) => ∀ block,
      entry.2 = .answered block → NoneNewer t.cleared block) ?_ ?_ other (named, .answered block) hentry
      block rfl
    · rintro key ⟨other, _⟩ hkey block rfl
      exact h.answered key other block hkey
    · intro entry hentry block hphase
      cases hentry
      exact hanswered block hphase
  · intro other verification block hverification hblock
    obtain ⟨hblock, hsame⟩ := hold verification block hblock
    rcases hpending other verification hverification with hkept | ⟨hnew, hnone⟩
    · rcases hblock with hblock | hblock
      · exact h.pending other verification block hkept hblock
      · exact hblock
    · rw [hsame hnew] at hnone
      cases hnone
  · intro reader read hread
    refine (h.reads reader read hread).retag fun other block hblock => ?_
    exact (hold other block hblock).1.imp_right h.noneNewer_resolved

/-- A read that is current leaves the page current. -/
theorem Current.setRead (h : t.Current) {id : Nat} {read : Option (Read S Q)}
    (hread : ∀ new, read = some new → new.Current t.tag t.resolved) : (t.setRead id read).Current :=
  { h with reads := entries_update h.reads hread }

/-- A result of blocks that are new enough leaves the page current. -/
theorem Current.deliver (h : t.Current) {id : Nat} {after blocks : List Nat}
    (hblocks : ∀ block ∈ blocks, NoneNewer after block) : (t.deliver id after blocks).Current := by
  have hread : (t.setRead id none).Current := h.setRead (by simp)
  refine { hread with returned := fun result hresult => ?_ }
  rcases List.mem_append.mp hresult with hresult | hresult
  · exact h.returned result hresult
  · rw [List.mem_singleton.mp hresult]
    exact hblocks

/-- A lookup at a block that is new enough may be cached. -/
theorem Current.storeQuery [DecidableEq Q] (h : t.Current) {query : Q} {block : Nat}
    (hblock : NoneNewer t.resolved block) : (t.storeQuery query block).Current := by
  refine { h with queries := entries_update h.queries fun entry hentry => ?_ }
  cases hentry
  exact hblock

/-- A read whose calls are answered leaves the page current. -/
theorem Current.finishReading [DecidableEq Q] (h : t.Current) (id : Nat) {read : Read S Q}
    {block : Nat} {goal : Goal Q} (hread : read.Current t.tag t.resolved)
    (hphase : read.phase = .reading block goal) :
    (t.finishReading id read block goal).Current := by
  have hblock : NoneNewer read.after block := hread.binds block (by rw [hphase]; rfl)
  have hstores : goal.stores → NoneNewer t.resolved block := fun hgoal =>
    hread.stores (by rw [hphase]; exact hgoal) block (by rw [hphase]; rfl)
  cases goal with
  | module =>
      refine h.deliver fun other hother => ?_
      rw [List.mem_singleton.mp hother]
      exact hblock
  | repo query =>
      refine (h.storeQuery (hstores trivial)).deliver fun other hother => ?_
      rw [List.mem_singleton.mp hother]
      exact hblock
  | refsRepo query =>
      refine (h.storeQuery (hstores trivial)).setRead fun new hnew => ?_
      cases hnew
      refine ⟨hread.after, nofun, nofun, fun other hother => ?_⟩
      cases hother
      exact hblock
  | refs repoBlock =>
      have hrepo : NoneNewer read.after repoBlock := hread.repo repoBlock (by rw [hphase]; rfl)
      refine h.deliver fun other hother => ?_
      rcases List.mem_cons.mp hother with heq | hother
      · rw [heq]
        exact hrepo
      · rw [List.mem_singleton.mp hother]
        exact hblock

/-- A write that goes on, or is over, leaves the page current. -/
theorem Current.setWrite (h : t.Current) {id : Nat} {write : Option Write} (locks : List Nat)
    (hmined : ∀ new block, write = some new → new.phase.block = some block → block ≤ t.height)
    (hclearing : ∀ provider block, write = some ⟨provider, .cleared block⟩ → block ∈ t.cleared) :
    Current { t.setWrite id write with transactionLocks := locks } := by
  refine { h with mined := ?_, clearing := ?_ }
  · intro other new block hother
    exact entries_update (P := fun _ (new : Write) => new.phase.block = some block → block ≤ t.height)
      (fun key value => h.mined key value block) (fun new => hmined new block) other new hother
  · intro other provider block hother
    exact entries_update (P := fun _ (new : Write) => new = ⟨provider, .cleared block⟩ → block ∈ t.cleared)
      (fun key value hvalue heq => h.clearing key provider block (heq ▸ hvalue))
      (fun value hvalue heq => hclearing provider block (heq ▸ hvalue)) other
      ⟨provider, .cleared block⟩ hother rfl

/-- A new block leaves the page current. -/
theorem Current.mineBlock (h : t.Current) (included : List Nat) :
    (t.mineBlock included).Current := by
  refine { h with height := ?_, mined := ?_, clearing := ?_ }
  · exact fun written hwritten => Nat.le_succ_of_le (h.height written hwritten)
  · intro id write block hwrite hblock
    show block ≤ t.height + 1
    unfold Tab.mineBlock at hwrite
    dsimp only at hwrite
    split at hwrite
    · cases hwrite
      dsimp only at hblock
      split at hblock
      · cases hblock
        exact le_rfl
      · cases hblock
    · exact Nat.le_succ_of_le (h.mined id write block hwrite hblock)
  · intro id provider block hwrite
    unfold Tab.mineBlock at hwrite
    dsimp only at hwrite
    split at hwrite
    · split at hwrite
      · cases hwrite
      · cases hwrite
    · exact h.clearing id provider block hwrite

/-- A write clears the verifications, when none of them is about to store an older block. -/
theorem Current.clearSuiteCache (h : t.Current) {written : Nat} (hheight : written ≤ t.height)
    (hanswered : ∀ id suite block, t.verifications id = some (suite, .answered block) →
      written ≤ block) : (t.clearSuiteCache written).Current where
  height := List.forall_mem_cons.mpr ⟨hheight, h.height⟩
  resolved other hother := List.mem_cons_of_mem _ (h.resolved other hother)
  cache := nofun
  answered id suite block hentry :=
    List.forall_mem_cons.mpr ⟨hanswered id suite block hentry, h.answered id suite block hentry⟩
  pending := nofun
  queries := h.queries
  reads := h.reads
  mined := h.mined
  clearing id provider block hwrite := List.mem_cons_of_mem _ (h.clearing id provider block hwrite)
  returned := h.returned

/-- A write clears the query cache and resolves, when no lookup is about to store an older block. -/
theorem Current.clearQueryCache (h : t.Current) {written : Nat} (hcleared : written ∈ t.cleared)
    (hstores : ∀ id read block, t.reads id = some read → read.phase.Stores →
      read.phase.Binds t.tag block → written ≤ block) : (t.clearQueryCache written).Current := by
  refine { h with resolved := ?_, queries := nofun, reads := fun id read hread => ?_ }
  · exact List.forall_mem_cons.mpr ⟨hcleared, h.resolved⟩
  · have hcurrent := h.reads id read hread
    refine ⟨?_, hcurrent.binds, fun hread' block hblock => ?_, hcurrent.repo⟩
    · exact fun other hother => List.mem_cons_of_mem _ (hcurrent.after other hother)
    · exact List.forall_mem_cons.mpr
        ⟨hstores id read block hread hread' hblock, hcurrent.stores hread' block hblock⟩

/-- A page with nothing cached is current. -/
theorem initial_current (now height : Nat) : (initial now height : Tab S Q).Current where
  height := nofun
  resolved := nofun
  cache := nofun
  answered := nofun
  pending := nofun
  queries := nofun
  reads := nofun
  mined := nofun
  clearing := nofun
  returned := nofun

variable [DecidableEq S]

/-- A verification that starts leaves the page current. -/
theorem Current.verifySuiteNow (h : t.Current) (suite : S) : (t.verifySuiteNow suite).Current := by
  refine h.setVerification (t.nextVerification + 1) (by simp [VerificationPhase.tag]) (by simp)
    h.cache fun other verification hother => ?_
  by_cases hsuite : other = suite
  · subst hsuite
    rw [Function.update_self] at hother
    exact Or.inr ⟨(Option.some.inj hother).symm, rfl⟩
  · rw [Function.update_of_ne hsuite] at hother
    exact Or.inl hother

/-- What a binding of a read that starts now, or goes on now, can be: from the cache, from the
verification that is pending, or from a new one. -/
theorem verifySuite_cases (suite : S) :
    (∃ block, t.verifySuite suite false = (t, .known block) ∧
        ∃ timestamp, t.verificationCache suite = some (block, timestamp)) ∨
      (∃ pending, t.verifySuite suite false = (t, .promised pending) ∧
        t.verificationPending suite = some pending) ∨
      t.verifySuite suite false = (t.verifySuiteNow suite, .promised t.nextVerification) := by
  unfold verifySuite
  rw [if_neg (by simp)]
  cases hcache : t.unexpired (t.verificationCache suite) with
  | some block => exact Or.inl ⟨block, rfl, exists_of_unexpired hcache⟩
  | none =>
      cases hpending : t.verificationPending suite with
      | some pending => exact Or.inr (Or.inl ⟨pending, rfl, rfl⟩)
      | none => exact Or.inr (Or.inr rfl)

/-- A read that awaits its binding leaves the page current. -/
theorem Current.awaitBinding (h : t.Current) {id : Nat} (suite : S) {after : List Nat} {goal : Goal Q}
    (hafter : ∀ written ∈ after, written ∈ t.resolved)
    (hgoal : ∀ block, goal = .refs block → NoneNewer after block) :
    (t.awaitBinding id suite after goal).Current := by
  have hrepo : ∀ block, (ReadPhase.reading 0 goal).repoBlock = some block →
      NoneNewer after block := by
    intro block hblock
    cases goal with
    | refs repoBlock =>
        cases hblock
        exact hgoal block rfl
    | module => cases hblock
    | repo query => cases hblock
    | refsRepo query => cases hblock
  -- Whatever block the binding has is not older than the writes that have cleared the caches.
  have hcurrent : ∀ phase : ReadPhase Q,
      (∀ block, phase.Binds t.tag block → NoneNewer t.cleared block) →
      phase.repoBlock = (ReadPhase.reading 0 goal).repoBlock →
      Read.Current t.tag t.resolved (⟨suite, after, phase⟩ : Read S Q) := by
    intro phase hphase hgoal
    refine ⟨hafter, fun block hblock => ?_, fun _ block hblock => ?_, fun block hblock => ?_⟩
    · exact fun written hwritten =>
        h.noneNewer_resolved (hphase block hblock) written (hafter written hwritten)
    · exact h.noneNewer_resolved (hphase block hblock)
    · exact hrepo block (hgoal ▸ hblock)
  unfold Tab.awaitBinding
  rcases verifySuite_cases (t := t) suite with
    ⟨block, heq, timestamp, hcache⟩ | ⟨pending, heq, hpending⟩ | heq
  · rw [heq]
    refine h.setRead fun new hnew => ?_
    cases hnew
    refine hcurrent _ (fun other hother => ?_) (by cases goal <;> rfl)
    cases hother
    exact h.cache suite _ hcache
  · rw [heq]
    refine h.setRead fun new hnew => ?_
    cases hnew
    exact hcurrent _ (fun block hblock => h.pending suite pending block hpending hblock)
      (by cases goal <;> rfl)
  · rw [heq]
    refine (h.verifySuiteNow suite).setRead fun new hnew => ?_
    cases hnew
    have hnone : (t.verifySuiteNow suite).tag t.nextVerification = none := by
      simp [tag, Tab.verifySuiteNow, VerificationPhase.tag]
    refine ⟨hafter, fun block hblock => ?_, fun _ block hblock => ?_, fun block hblock => ?_⟩
    · exact absurd (hnone.symm.trans hblock) (by simp)
    · exact absurd (hnone.symm.trans hblock) (by simp)
    · refine hrepo block (Eq.trans ?_ hblock)
      cases goal <;> rfl

/-- A read that starts leaves the page current. -/
theorem Current.startRead (h : t.Current) (id : Nat) (suite : S) (kind : ReadKind Q) :
    (t.startRead id suite kind).Current := by
  have hcached : ∀ query block, t.unexpired (t.queryCache query) = some block →
      NoneNewer t.resolved block := by
    intro query block hblock
    obtain ⟨timestamp, hentry⟩ := exists_of_unexpired hblock
    exact h.queries query _ hentry
  cases kind with
  | module => exact h.awaitBinding suite (fun _ hwritten => hwritten) (by simp)
  | repo query =>
      unfold Tab.startRead
      dsimp only
      cases hquery : t.unexpired (t.queryCache query) with
      | some block =>
          refine h.deliver fun other hother => ?_
          rw [List.mem_singleton.mp hother]
          exact hcached query block hquery
      | none => exact h.awaitBinding suite (fun _ hwritten => hwritten) (by simp)
  | refs query =>
      unfold Tab.startRead
      dsimp only
      cases hquery : t.unexpired (t.queryCache query) with
      | some block =>
          refine h.setRead fun new hnew => ?_
          cases hnew
          refine ⟨fun _ hwritten => hwritten, nofun, nofun, fun other hother => ?_⟩
          cases hother
          exact hcached query block hquery
      | none => exact h.awaitBinding suite (fun _ hwritten => hwritten) (by simp)

/-- Step lemma: a step that leaves no older load behind keeps the page current. -/
theorem Current.step [DecidableEq Q] (h : t.Current) {step : TabStep S Q}
    (hstep : t.step step = some next) (hundisturbed : t.Undisturbed step) : next.Current := by
  have herased : ∀ suite other verification,
      Function.update t.verificationPending suite none other = some verification →
      t.verificationPending other = some verification := by
    intro suite other verification hother
    by_cases hsuite : other = suite
    · rw [hsuite, Function.update_self] at hother
      cases hother
    · rwa [Function.update_of_ne hsuite] at hother
  cases step with
  | tick elapsed =>
      cases hstep
      exact { h with }
  | newBlock included =>
      cases hstep
      exact h.mineBlock included
  | startRead id suite kind =>
      simp only [Tab.step] at hstep
      split at hstep
      · cases hstep
        exact h.startRead id suite kind
      · cases hstep
  | nodeAnswers id =>
      obtain ⟨⟨suite, phase⟩, hentry, heq⟩ := Option.bind_eq_some_iff.mp hstep
      dsimp only at heq
      split at heq
      · cases heq
        refine h.setVerification t.nextVerification ?_ ?_ h.cache fun _ _ => Or.inl
        · rintro block ⟨⟩
          exact Or.inr h.height
        · rintro block ⟨⟩
          exact h.height
      · cases heq
  | verificationStored id =>
      obtain ⟨⟨suite, phase⟩, hentry, heq⟩ := Option.bind_eq_some_iff.mp hstep
      dsimp only at heq
      split at heq
      · next block =>
        cases heq
        refine h.setVerification t.nextVerification ?_ nofun (entries_update h.cache ?_)
          fun _ _ => Or.inl
        · rintro other ⟨⟩
          exact Or.inr (h.answered id suite block hentry)
        · rintro entry ⟨⟩
          exact h.answered id suite block hentry
      · cases heq
  | verificationFails id =>
      obtain ⟨⟨suite, phase⟩, hentry, heq⟩ := Option.bind_eq_some_iff.mp hstep
      dsimp only at heq
      split at heq
      · cases heq
        exact h.setVerification t.nextVerification nofun nofun h.cache fun _ _ => Or.inl
      · cases heq
        exact h.setVerification t.nextVerification nofun nofun h.cache fun _ _ => Or.inl
      · cases heq
  | verificationSettles id =>
      obtain ⟨⟨suite, phase⟩, hentry, heq⟩ := Option.bind_eq_some_iff.mp hstep
      dsimp only at heq
      split at heq
      · next block =>
        cases heq
        refine h.setVerification t.nextVerification ?_ nofun h.cache
          fun other verification hother => Or.inl (herased suite other verification hother)
        rintro other ⟨⟩
        exact Or.inl (tag_eq_some.mpr ⟨suite, _, hentry, rfl⟩)
      · cases heq
        exact h.setVerification t.nextVerification nofun nofun h.cache
          fun other verification hother => Or.inl (herased suite other verification hother)
      · cases heq
  | readBound id =>
      obtain ⟨read, hread, heq⟩ := Option.bind_eq_some_iff.mp hstep
      have hcurrent := h.reads id read hread
      split at heq
      · next verification goal hphase =>
        split at heq
        · next suite block hentry =>
          cases heq
          have htag : t.tag verification = some block := tag_eq_some.mpr ⟨suite, _, hentry, rfl⟩
          exact h.setRead fun new hnew => Option.some.inj hnew ▸ hcurrent.bind hphase htag
        · cases heq
          exact h.setRead nofun
        · cases heq
      · cases heq
  | readAnswered id =>
      obtain ⟨read, hread, heq⟩ := Option.bind_eq_some_iff.mp hstep
      split at heq
      · next block goal hphase =>
        cases heq
        exact h.finishReading id (h.reads id read hread) hphase
      · cases heq
  | refsContinue id =>
      obtain ⟨read, hread, heq⟩ := Option.bind_eq_some_iff.mp hstep
      have hcurrent := h.reads id read hread
      split at heq
      · next repoBlock hphase =>
        cases heq
        refine h.awaitBinding read.suite hcurrent.after ?_
        rintro block ⟨⟩
        exact hcurrent.repo repoBlock (by rw [hphase]; rfl)
      · cases heq
  | readFails id =>
      cases hstep
      exact h.setRead nofun
  | startWrite id provider suite =>
      simp only [Tab.step] at hstep
      split at hstep
      · cases hstep
        refine (h.verifySuiteNow suite).setWrite _ ?_ ?_
        · rintro new block ⟨⟩ ⟨⟩
        · rintro new block ⟨⟩
      · cases hstep
  | writeSent id =>
      obtain ⟨write, hwrite, heq⟩ := Option.bind_eq_some_iff.mp hstep
      split at heq
      · split at heq
        · cases heq
          refine h.setWrite t.transactionLocks ?_ ?_
          · rintro new block ⟨⟩ ⟨⟩
          · rintro new block ⟨⟩
        · cases heq
      · cases heq
  | receiptSeen id =>
      obtain ⟨write, hwrite, heq⟩ := Option.bind_eq_some_iff.mp hstep
      split at heq
      · next block hphase =>
        cases heq
        refine h.setWrite t.transactionLocks ?_ ?_
        · rintro new other ⟨⟩ ⟨⟩
          exact h.mined id write block hwrite (by rw [hphase]; rfl)
        · rintro new other ⟨⟩
      · cases heq
  | clearSuite id =>
      obtain ⟨⟨provider, phase⟩, hwrite, heq⟩ := Option.bind_eq_some_iff.mp hstep
      cases phase with
      | confirmed written =>
          cases heq
          have hheight : written ≤ t.height := h.mined id _ written hwrite rfl
          have hcleared := h.clearSuiteCache hheight (hundisturbed provider written hwrite)
          refine hcleared.setWrite _ ?_ ?_
          · rintro new block ⟨⟩ ⟨⟩
            exact hheight
          · rintro _ block ⟨⟩
            exact List.mem_cons_self
      | verifying verification => cases heq
      | sent => cases heq
      | mined block => cases heq
      | cleared block => cases heq
  | clearQuery id =>
      obtain ⟨⟨provider, phase⟩, hwrite, heq⟩ := Option.bind_eq_some_iff.mp hstep
      cases phase with
      | cleared written =>
          cases heq
          have hcleared := h.clearQueryCache (h.clearing id provider written hwrite)
            (hundisturbed provider written hwrite)
          exact hcleared.setWrite t.transactionLocks nofun nofun
      | verifying verification => cases heq
      | sent => cases heq
      | mined block => cases heq
      | confirmed block => cases heq
  | writeFails id =>
      obtain ⟨write, hwrite, heq⟩ := Option.bind_eq_some_iff.mp hstep
      split at heq
      · cases heq
      · cases heq
        exact h.setWrite _ nofun nofun

/-- Run lemma: steps that leave no older load behind keep the page current. -/
theorem Current.run [DecidableEq Q] (h : t.Current) {steps : List (TabStep S Q)}
    (hrun : Tab.run steps t = some next) (hundisturbed : Tab.UndisturbedRun steps t) :
    next.Current := by
  induction steps generalizing t with
  | nil =>
      cases hrun
      exact h
  | cons first rest ih =>
      obtain ⟨middle, hfirst, hrest⟩ := Option.bind_eq_some_iff.mp hrun
      obtain ⟨hstep, hsteps⟩ := hundisturbed
      rw [hfirst] at hsteps
      exact ih (h.step hfirst hstep) hrest hsteps

end Tab

end Steps

/-! ## Results -/

/-- In every interleaving of reads and writes in which no older verification or lookup is about to be
stored when a write clears the caches, a read that starts after a write has resolved returns only data
of blocks that are not older than the block of that write. -/
theorem reads_current {S Q : Type} [DecidableEq S] [DecidableEq Q] (now height : Nat)
    (steps : List (TabStep S Q)) (t : Tab S Q) (hrun : Tab.run steps (Tab.initial now height) = some t)
    (hundisturbed : Tab.UndisturbedRun steps (Tab.initial now height)) :
    ∀ result ∈ t.returned, ∀ written ∈ result.after, ∀ block ∈ result.blocks, written ≤ block := by
  intro result hresult written hwritten block hblock
  have hcurrent := (Tab.initial_current now height).run hrun hundisturbed
  exact hcurrent.returned result hresult block hblock written hwritten

namespace Sample

/-- A write, and a list of refs that starts after it. -/
def quietRun : List (TabStep Nat Nat) :=
  [.startWrite 0 0 0, .nodeAnswers 0, .verificationStored 0, .verificationSettles 0, .writeSent 0,
    .newBlock [0], .receiptSeen 0, .clearSuite 0, .clearQuery 0, .startRead 0 0 (.refs 0),
    .nodeAnswers 1, .verificationStored 1, .verificationSettles 1, .readBound 0, .readAnswered 0,
    .refsContinue 0, .readAnswered 0]

/-- A read whose verification is answered before a write and stored after it; then one more read. -/
def staleVerification : List (TabStep Nat Nat) :=
  [.startRead 0 0 .module, .nodeAnswers 0, .startWrite 0 0 0, .nodeAnswers 1, .verificationStored 1,
    .verificationSettles 1, .writeSent 0, .newBlock [0], .receiptSeen 0, .clearSuite 0, .clearQuery 0,
    .verificationStored 0, .startRead 1 0 .module, .readAnswered 1]

/-- A lookup that is bound before a write and stored after it; then one more lookup. -/
def staleLookup : List (TabStep Nat Nat) :=
  [.startRead 0 0 (.repo 0), .nodeAnswers 0, .verificationStored 0, .verificationSettles 0,
    .readBound 0, .startWrite 0 0 0, .nodeAnswers 1, .verificationStored 1, .verificationSettles 1,
    .writeSent 0, .newBlock [0], .receiptSeen 0, .clearSuite 0, .clearQuery 0, .readAnswered 0,
    .startRead 1 0 (.repo 0)]

/-- Nothing but the write's own verification is there when it clears the caches. -/
theorem quietRun_undisturbed : Tab.UndisturbedRun quietRun (Tab.initial 0 0) := by
  iterate 7 refine And.intro trivial ?_
  refine And.intro ?_ (And.intro ?_ ?_)
  · intro provider written hwrite verification suite block hentry
    have hown : verification = 0 :=
      entries_update (P := fun id _ => id = 0) (entries_update (entries_update
        (entries_update nofun fun _ _ => rfl) fun _ _ => rfl) fun _ _ => rfl) (fun _ _ => rfl)
        verification _ hentry
    subst hown
    cases hentry
  · intro provider written hwrite reader read block hread
    cases hread
  · iterate 8 refine And.intro trivial ?_
    exact trivial

/-- The list of refs that starts after the write shows its block. -/
theorem quiet_reads :
    ∃ t, Tab.run quietRun (Tab.initial 0 0) = some t ∧
      t.returned = [⟨[1], [1, 1]⟩] ∧
      ∀ result ∈ t.returned, ∀ written ∈ result.after, ∀ block ∈ result.blocks,
        written ≤ block := by
  have hreturned : (Tab.run quietRun (Tab.initial 0 0)).map Tab.returned =
      some [⟨[1], [1, 1]⟩] := by
    decide +kernel
  obtain ⟨t, hrun, hresults⟩ := Option.map_eq_some_iff.mp hreturned
  exact ⟨t, hrun, hresults, reads_current 0 0 quietRun t hrun quietRun_undisturbed⟩

/-- Some read that starts after a write returns data of a block before it. -/
def ReadsStale (steps : List (TabStep Nat Nat)) : Prop :=
  ∃ t, Tab.run steps (Tab.initial 0 0) = some t ∧
    ∃ result ∈ t.returned, ∃ written ∈ result.after, ∃ block ∈ result.blocks, block < written

theorem readsStale_of_last {steps : List (TabStep Nat Nat)}
    (h : ((Tab.run steps (Tab.initial 0 0)).map fun t => t.returned.getLast?) =
      some (some ⟨[1], [0]⟩)) : ReadsStale steps := by
  obtain ⟨t, hrun, hlast⟩ := Option.map_eq_some_iff.mp h
  exact ⟨t, hrun, ⟨[1], [0]⟩, List.mem_of_getLast? hlast, 1, by simp, 0, by simp, by omega⟩

/-- In both runs the read that starts after the write returns data of the block before it. -/
theorem stale_reads : ReadsStale staleVerification ∧ ReadsStale staleLookup :=
  ⟨readsStale_of_last (by decide +kernel), readsStale_of_last (by decide +kernel)⟩

end Sample

end Igit.Web
