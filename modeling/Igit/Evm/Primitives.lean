import Igit.Library.Fallible

/-!
# Words, messages and hashes of the chain

The values every contract of the suite computes with. Strings are their bytes. Timestamps and
counters are natural numbers, and every place where the source narrows or adds to one of them
checks the bound here as it does there (`now64`, `addTime`).

`Bytes32` is unbounded on purpose: the suite treats `keccak256` as collision free, and no
injective function from byte strings into 256 bits exists. Every 32-byte value is a `Bytes32`,
so statements over all of them cover the real ones.
-/

namespace Igit

/-- A 20-byte account address. The zero address is the source's `address(0)`. -/
abbrev Address := BitVec 160

/-- The bytes of a `string` or `bytes` value. -/
abbrev Bytes := List UInt8

instance : LawfulBEq Bytes := inferInstance

/-- A 32-byte identifier or digest, with room for a collision-free `keccak256`. -/
abbrev Bytes32 := Nat

/-- `type(uint64).max`. -/
def uint64Max : Nat := 2 ^ 64 - 1

/-- `type(uint256).max`. -/
def uint256Max : Nat := 2 ^ 256 - 1

/-- One day in seconds, the source's `1 days`. -/
def days : Nat := 86400

/-- What a contract sees of a call: `msg.sender` and `block.timestamp`. -/
structure Message where
  sender : Address
  timestamp : Nat
  deriving DecidableEq, Repr

/-- The seven modules named in `SuiteIds`. -/
inductive Module where
  | core
  | recovery
  | moderation
  | economic
  | username
  | badge
  | release
  deriving DecidableEq, Repr

/-- A `bytes32` module id: one of the seven of `SuiteIds`, or any other word. -/
inductive ModuleId where
  | suite (module : Module)
  | other (id : Bytes32)
  deriving DecidableEq, Repr

/-- What the contracts hash. `bytes` is `keccak256(bytes(s))`. The others are
`keccak256(abi.encode(..))` at the argument types of one call site each. -/
inductive Preimage where
  | bytes (value : Bytes)
  | locator (owner : Address) (name : Bytes)
  | repository (chainid : Nat) (directory sender : Address) (name : Bytes)
  | artifact (version platform : Bytes)
  | rollingSeed (id : ModuleId) (snapshotRoot : Bytes32)
  | rollingStep (root : Bytes32) (id : ModuleId) (sequence count : Nat) (payloadHash : Bytes32)
  deriving DecidableEq, Repr

/-- The encodings that are injective together. `abi.encode` is injective at fixed argument types,
and the two rolling encodings differ in length. A raw byte string may coincide with an encoding,
so nothing is assumed between the other families. -/
def Preimage.family : Preimage → Nat
  | .bytes _ => 0
  | .locator _ _ => 1
  | .repository _ _ _ _ => 2
  | .artifact _ _ => 3
  | .rollingSeed _ _ => 4
  | .rollingStep _ _ _ _ _ => 4

/-- `keccak256`, taken as collision free. -/
structure Keccak where
  hash : Preimage → Bytes32
  injective : ∀ {p q : Preimage}, p.family = q.family → hash p = hash q → p = q

namespace Keccak

variable (keccak : Keccak)

/-- `keccak256(bytes(value))`. -/
def ofBytes (value : Bytes) : Bytes32 := keccak.hash (.bytes value)

/-- `RepositoryCore._locator`. -/
def locator (owner : Address) (name : Bytes) : Bytes32 := keccak.hash (.locator owner name)

/-- Different byte strings have different digests. -/
@[simp] theorem ofBytes_inj {value other : Bytes} :
    keccak.ofBytes value = keccak.ofBytes other ↔ value = other := by
  constructor
  · intro h
    have heq := keccak.injective (p := .bytes value) (q := .bytes other) rfl h
    exact Preimage.bytes.inj heq
  · rintro rfl
    rfl

/-- A locator digest determines the owner and the name. -/
@[simp] theorem locator_inj {owner other : Address} {name name' : Bytes} :
    keccak.locator owner name = keccak.locator other name' ↔ owner = other ∧ name = name' := by
  constructor
  · intro h
    have heq := keccak.injective (p := .locator owner name) (q := .locator other name') rfl h
    exact Preimage.locator.inj heq
  · rintro ⟨rfl, rfl⟩
    rfl

end Keccak

end Igit
