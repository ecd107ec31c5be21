import Mathlib

/-!
# Codecs

A codec writes values as byte strings and reads them back from the front of a longer string. The
constructions below give codecs for numbers, pairs, lists and everything that can be mapped to
them, each with its round trip, so that a format assembled from them is decodable by construction.
-/

namespace Igit

/-- A way to write values as bytes and read them back, whatever follows them. -/
structure Codec (α : Type) where
  encode : α → List UInt8
  decode : List UInt8 → Option (α × List UInt8)
  decode_encode : ∀ a rest, decode (encode a ++ rest) = some (a, rest)

namespace Codec

variable {α β : Type}

/-- Read a string that holds one value and nothing else. -/
def read (codec : Codec α) (bytes : List UInt8) : Option α :=
  match codec.decode bytes with
  | some (a, []) => some a
  | _ => none

/-- What was written is read. -/
theorem read_encode (codec : Codec α) (a : α) : codec.read (codec.encode a) = some a := by
  have h := codec.decode_encode a []
  rw [List.append_nil] at h
  rw [read, h]

/-! ## Numbers -/

/-- The digits of a number in base 255, each one higher, lowest first, and a zero at the end. The
fuel bounds the number of digits. -/
def encodeDigits : Nat → Nat → List UInt8
  | 0, _ => [0]
  | fuel + 1, n => if n = 0 then [0] else UInt8.ofNat (n % 255 + 1) :: encodeDigits fuel (n / 255)

/-- Read digits up to the zero. -/
def decodeDigits : List UInt8 → Option (Nat × List UInt8)
  | [] => none
  | c :: rest =>
      if c = 0 then some (0, rest)
      else (decodeDigits rest).map fun found => (c.toNat - 1 + 255 * found.1, found.2)

/-- The digits read back, and what follows them is left over. -/
theorem decodeDigits_encodeDigits {fuel n : Nat} (hfuel : n < 2 ^ fuel) (rest : List UInt8) :
    decodeDigits (encodeDigits fuel n ++ rest) = some (n, rest) := by
  induction fuel generalizing n with
  | zero =>
      have hzero : n = 0 := by omega
      subst hzero
      rfl
  | succ fuel ih =>
      rw [encodeDigits]
      by_cases hzero : n = 0
      · subst hzero
        rfl
      · have hquotient : n / 255 < 2 ^ fuel := by
          rw [pow_succ] at hfuel
          omega
        have hdigit : (UInt8.ofNat (n % 255 + 1)).toNat = n % 255 + 1 := by
          rw [UInt8.toNat_ofNat']
          omega
        have hne : UInt8.ofNat (n % 255 + 1) ≠ 0 := by
          intro heq
          have hnat := congrArg UInt8.toNat heq
          rw [hdigit, UInt8.toNat_zero] at hnat
          omega
        rw [if_neg hzero, List.cons_append, decodeDigits, if_neg hne, ih hquotient, Option.map_some,
          hdigit]
        have hsum : n % 255 + 1 - 1 + 255 * (n / 255) = n := by omega
        simp only [hsum]

/-- Numbers, by their digits. -/
def nat : Codec Nat where
  encode := fun n => encodeDigits (n.log2 + 1) n
  decode := decodeDigits
  decode_encode := fun _ rest => decodeDigits_encodeDigits Nat.lt_log2_self rest

/-- Values that are told by a number. -/
def viaNat (toNat : α → Nat) (ofNat : Nat → Option α) (h : ∀ a, ofNat (toNat a) = some a) :
    Codec α where
  encode := fun a => nat.encode (toNat a)
  decode := fun bytes => do
    let found ← nat.decode bytes
    let a ← ofNat found.1
    pure (a, found.2)
  decode_encode := by
    intro a rest
    rw [nat.decode_encode]
    simp [h]

/-- The values of a list, by their position. -/
def oneOf [DecidableEq α] (values : List α) (h : ∀ a, a ∈ values) : Codec α :=
  viaNat (fun a => values.idxOf a) (fun n => values[n]?) fun a =>
    List.getElem?_idxOf (h a)

/-- Fixed-width words. -/
def word (width : Nat) : Codec (BitVec width) :=
  viaNat BitVec.toNat (fun n => some (BitVec.ofNat width n)) fun w => by simp

/-- Single bytes. -/
def byte : Codec UInt8 :=
  viaNat UInt8.toNat (fun n => some (UInt8.ofNat n)) fun c => by simp

/-! ## Composite values -/

/-- Two values, one after the other. -/
def pair (first : Codec α) (second : Codec β) : Codec (α × β) where
  encode := fun both => first.encode both.1 ++ second.encode both.2
  decode := fun bytes => do
    let found ← first.decode bytes
    let other ← second.decode found.2
    pure ((found.1, other.1), other.2)
  decode_encode := by
    intro both rest
    rw [List.append_assoc, first.decode_encode]
    simp [second.decode_encode]

/-- Values that are another view of values with a codec. -/
def map (codec : Codec α) (view : α → β) (unview : β → α) (h : ∀ b, view (unview b) = b) :
    Codec β where
  encode := fun b => codec.encode (unview b)
  decode := fun bytes => (codec.decode bytes).map fun found => (view found.1, found.2)
  decode_encode := by
    intro b rest
    rw [codec.decode_encode, Option.map_some]
    simp only [h]

/-- Read `n` values. -/
def decodeMany (codec : Codec α) : Nat → List UInt8 → Option (List α × List UInt8)
  | 0, bytes => some ([], bytes)
  | n + 1, bytes => do
      let found ← codec.decode bytes
      let others ← codec.decodeMany n found.2
      pure (found.1 :: others.1, others.2)

/-- A list of items reads back, and what follows it is left over. -/
theorem decodeMany_encode (codec : Codec α) (items : List α) (rest : List UInt8) :
    codec.decodeMany items.length (items.flatMap codec.encode ++ rest) = some (items, rest) := by
  induction items with
  | nil => rfl
  | cons item others ih =>
      rw [List.flatMap_cons, List.append_assoc, List.length_cons, decodeMany, codec.decode_encode]
      simp [ih]

/-- A list, after its length. -/
def list (codec : Codec α) : Codec (List α) where
  encode := fun items => nat.encode items.length ++ items.flatMap codec.encode
  decode := fun bytes => do
    let found ← nat.decode bytes
    codec.decodeMany found.1 found.2
  decode_encode := by
    intro items rest
    rw [List.append_assoc, nat.decode_encode]
    exact codec.decodeMany_encode items rest

end Codec

end Igit
