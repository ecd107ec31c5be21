import Igit.Evm.Primitives
import Igit.Library.BitGroups
import Igit.Library.Runes

/-!
# Addresses in bech32

`decodeBech32Address` and `encodeBech32Address` of `cli/internal/chain/evm_address.go`. A text is its
bytes. The decoder goes through the runes of the data part, takes the lowest byte of each rune and
writes its value at the index of the rune's first byte, so that the other bytes of a longer rune stay
zero.
-/

namespace Igit.Chain

open Fallible Runes BitGroups

/-- `unicode.ToLower`, of which only the ASCII part is fixed here. -/
structure UnicodeCase where
  toLower : Nat → Nat
  ascii : ∀ c < 0x80, toLower c = if 0x41 ≤ c ∧ c ≤ 0x5a then c + 0x20 else c

/-- `strings.ToLower(value) == value`. A byte outside UTF-8 would be replaced. -/
def UnicodeCase.isLower (u : UnicodeCase) (value : Bytes) : Bool :=
  (runes value).all fun rune => u.toLower rune.1 == rune.1 && !(rune.1 == runeError && rune.2 == 1)

/-- The errors of the decoder. -/
inductive Bech32Error where
  | invalidAddress (value : Bytes)
  | unsupportedPrefix (hrp : Bytes)
  | invalidCharacter (char : Nat)
  | invalidChecksum (value : Bytes)
  | bitConversion (fromBits toBits : Nat)
  | exceedsBits (value : UInt8) (fromBits : Nat)
  | invalidPadding
  | nonZeroPadding
  | payloadLength (length : Nat)
  deriving DecidableEq, Repr

def bech32Charset : Bytes :=
  "qpzry9x8gf2tvdw0s3jn54khce6mua7l".toList.map fun c => UInt8.ofNat c.toNat

/-- The human-readable part `inj`. -/
def injPrefix : Bytes := [0x69, 0x6e, 0x6a]

/-- `strings.LastIndexByte`, or nothing for its -1. -/
def lastIndexByte (value : Bytes) (c : UInt8) : Option Nat :=
  (value.reverse.idxOf? c).map fun i => value.length - 1 - i

/-! ## Checksums -/

def generators : List (BitVec 32) := [0x3b6a57b2, 0x26508e6d, 0x1ea119fa, 0x3d4233dd, 0x2a1462b3]

/-- The loop over the generators, from the one with index `i` on. -/
def applyGenerators (top : BitVec 32) : Nat → List (BitVec 32) → BitVec 32 → BitVec 32
  | _, [], checksum => checksum
  | i, generator :: rest, checksum =>
      applyGenerators top (i + 1) rest
        (if (top >>> i) &&& 1 ≠ 0 then checksum ^^^ generator else checksum)

/-- One round of `bech32Polymod`. -/
def polymodStep (checksum : BitVec 32) (value : UInt8) : BitVec 32 :=
  applyGenerators (checksum >>> 25) 0 generators
    ((checksum &&& 0x1ffffff) <<< 5 ^^^ value.toBitVec.setWidth 32)

/-- `bech32Polymod`. -/
def bech32Polymod (values : List UInt8) : BitVec 32 := values.foldl polymodStep 1

/-- `bech32HrpExpand`. -/
def bech32HrpExpand (hrp : Bytes) : List UInt8 :=
  (runes hrp).map (fun rune => UInt8.ofNat (rune.1 >>> 5)) ++
    0 :: (runes hrp).map fun rune => UInt8.ofNat (rune.1 &&& 31)

/-- `bech32Checksum`. -/
def bech32Checksum (hrp : Bytes) (values : List UInt8) : List UInt8 :=
  let mod := bech32Polymod (bech32HrpExpand hrp ++ values ++ List.replicate 6 0) ^^^ 1
  (List.range 6).map fun i => UInt8.ofBitVec (((mod >>> (5 * (5 - i))) &&& 31).setWidth 8)

/-- `bech32VerifyChecksum`. -/
def bech32VerifyChecksum (hrp : Bytes) (values : List UInt8) : Bool :=
  bech32Polymod (bech32HrpExpand hrp ++ values) == 1

/-! ## Regrouping bits -/

/-- `byte((accumulator >> bits) & uint(maxValue))`. -/
def group (toBits : Nat) (accumulator : BitVec 64) (bits : Nat) : UInt8 :=
  UInt8.ofBitVec (((accumulator >>> bits) &&& BitVec.ofNat 64 (2 ^ toBits - 1)).setWidth 8)

/-- The inner loop of `bech32ConvertBits`, which takes a bit at least in each round, and the number
of bits it leaves. -/
def emitGroups (toBits : Nat) (accumulator : BitVec 64) : Nat → Nat → List UInt8 × Nat
  | 0, bits => ([], bits)
  | fuel + 1, bits =>
      if toBits ≤ bits then
        let rest := emitGroups toBits accumulator fuel (bits - toBits)
        (group toBits accumulator (bits - toBits) :: rest.1, rest.2)
      else ([], bits)

/-- What the outer loop of `bech32ConvertBits` has at its end. -/
structure Regrouped where
  result : List UInt8
  accumulator : BitVec 64
  bits : Nat

/-- The outer loop of `bech32ConvertBits`. -/
def regroup (fromBits toBits : Nat) :
    BitVec 64 → Nat → List UInt8 → Except Bech32Error Regrouped
  | accumulator, bits, [] => pure ⟨[], accumulator, bits⟩
  | accumulator, bits, value :: rest => do
      revertIf (value.toBitVec >>> fromBits ≠ 0) (.exceedsBits value fromBits)
      let accumulator := accumulator <<< fromBits ||| value.toBitVec.setWidth 64
      let emitted := emitGroups toBits accumulator (bits + fromBits) (bits + fromBits)
      let more ← regroup fromBits toBits accumulator emitted.2 rest
      pure ⟨emitted.1 ++ more.result, more.accumulator, more.bits⟩

/-- `bech32ConvertBits`. -/
def bech32ConvertBits (data : List UInt8) (fromBits toBits : Nat) (pad : Bool) :
    Except Bech32Error (List UInt8) := do
  revertIf (fromBits = 0 ∨ toBits = 0 ∨ fromBits > 8 ∨ toBits > 8) (.bitConversion fromBits toBits)
  let done ← regroup fromBits toBits 0 0 data
  let last := (done.accumulator <<< (toBits - done.bits)) &&& BitVec.ofNat 64 (2 ^ toBits - 1)
  if pad then
    pure (if done.bits > 0 then done.result ++ [UInt8.ofBitVec (last.setWidth 8)] else done.result)
  else do
    revertIf (done.bits ≥ fromBits) .invalidPadding
    revertIf (last ≠ 0) .nonZeroPadding
    pure done.result

/-! ## Addresses -/

/-- The loop of `decodeBech32Address` over the runes of the data part. -/
def charValues : List (Nat × Nat) → Except Bech32Error (List UInt8)
  | [] => pure []
  | rune :: rest =>
      -- `byte(char)` keeps the lowest eight bits of the rune
      match bech32Charset.idxOf? (UInt8.ofNat rune.1) with
      | none => throw (.invalidCharacter rune.1)
      | some index => do
          let values ← charValues rest
          pure (UInt8.ofNat index :: List.replicate (rune.2 - 1) 0 ++ values)

/-- `decodeBech32Address`. -/
def decodeBech32Address (u : UnicodeCase) (value : Bytes) : Except Bech32Error (List UInt8) := do
  revertIf (value = [] ∨ u.isLower value = false) (.invalidAddress value)
  match lastIndexByte value 0x31 with
  | none => throw (.invalidAddress value)
  | some separator => do
      revertIf (separator = 0 ∨ separator + 7 > value.length) (.invalidAddress value)
      let hrp := value.take separator
      revertIf (hrp ≠ injPrefix) (.unsupportedPrefix hrp)
      let values ← charValues (runes (value.drop (separator + 1)))
      revertIf (bech32VerifyChecksum hrp values = false) (.invalidChecksum value)
      let converted ← bech32ConvertBits (values.take (values.length - 6)) 5 8 false
      revertIf (converted.length ≠ 20) (.payloadLength converted.length)
      pure converted

/-- `encodeBech32Address`. -/
def encodeBech32Address (hrp : Bytes) (payload : List UInt8) : Bytes :=
  match bech32ConvertBits payload 8 5 true with
  | .error _ => []
  | .ok converted =>
      hrp ++ 0x31 :: (converted ++ bech32Checksum hrp converted).map fun value =>
        bech32Charset.getD value.toNat 0

/-! ## The checksum is linear -/

/-- The bits of five-bit or eight-bit values. -/
def bitsOf (w : Nat) (values : List UInt8) : List Bool := values.flatMap fun v => bitsDown v.toBitVec w

/-- Every value has so many bits. -/
def AllBelow (w : Nat) (values : List UInt8) : Prop := ∀ v ∈ values, Below w v.toBitVec

/-- The bits of bytes are those of bit vectors. -/
theorem bitsOf_eq (w : Nat) (values : List UInt8) :
    bitsOf w values = (values.map UInt8.toBitVec).flatMap fun x => bitsDown x w := by
  rw [List.flatMap_map]
  rfl

theorem eq_of_bitsOf {w : Nat} (hw : 0 < w) {xs ys : List UInt8} (hxs : AllBelow w xs)
    (hys : AllBelow w ys) (h : bitsOf w xs = bitsOf w ys) : xs = ys := by
  rw [bitsOf_eq, bitsOf_eq] at h
  have hsame := flatMap_bitsDown_inj hw (List.forall_mem_map.mpr hxs) (List.forall_mem_map.mpr hys) h
  exact List.map_injective_iff.mpr (fun _ _ => UInt8.toBitVec_inj.mp) hsame

theorem length_bitsOf (w : Nat) (values : List UInt8) :
    (bitsOf w values).length = values.length * w := by
  rw [bitsOf_eq, length_flatMap_bitsDown, List.length_map]

/-- A bit test of the source. -/
theorem shift_and_one (x : BitVec 32) (i : Nat) : (x >>> i) &&& 1 ≠ 0 ↔ x.getLsbD i = true := by
  have hone : (x >>> i) &&& 1#32 = BitVec.setWidth 32 (BitVec.ofBool ((x >>> i).getLsbD 0)) :=
    BitVec.and_one_eq_setWidth_ofBool_getLsbD
  show (x >>> i) &&& 1#32 ≠ 0 ↔ _
  rw [hone, BitVec.getLsbD_ushiftRight, Nat.add_zero]
  cases x.getLsbD i with
  | false => decide
  | true => decide

/-- The generators are added to the checksum, whatever it is. -/
theorem applyGenerators_eq (top : BitVec 32) (i : Nat) (gens : List (BitVec 32))
    (checksum : BitVec 32) :
    applyGenerators top i gens checksum = checksum ^^^ applyGenerators top i gens 0#32 := by
  induction gens generalizing i checksum with
  | nil => exact BitVec.xor_zero.symm
  | cons generator rest ih =>
      rw [applyGenerators, applyGenerators, ih]
      split
      · rw [ih (i + 1) (0#32 ^^^ generator), BitVec.zero_xor, BitVec.xor_assoc]
      · rfl

/-- Which generators are added is linear in the bits that choose them. -/
theorem applyGenerators_xor (a b : BitVec 32) (i : Nat) (gens : List (BitVec 32)) :
    applyGenerators (a ^^^ b) i gens 0#32 =
      applyGenerators a i gens 0#32 ^^^ applyGenerators b i gens 0#32 := by
  induction gens generalizing i with
  | nil => exact BitVec.xor_self.symm
  | cons generator rest ih =>
      simp only [applyGenerators, shift_and_one, BitVec.getLsbD_xor]
      rw [applyGenerators_eq, applyGenerators_eq a, applyGenerators_eq b, ih]
      generalize applyGenerators a (i + 1) rest 0#32 = x
      generalize applyGenerators b (i + 1) rest 0#32 = y
      refine BitVec.eq_of_getLsbD_eq fun j _ => ?_
      cases a.getLsbD i with
      | false =>
          cases b.getLsbD i with
          | false => simp
          | true =>
              simp only [BitVec.getLsbD_xor, Bool.false_bne, if_true, Bool.false_eq_true, if_false]
              cases x.getLsbD j <;> cases y.getLsbD j <;> simp
      | true =>
          cases b.getLsbD i with
          | false =>
              simp only [BitVec.getLsbD_xor, Bool.bne_false, if_true, Bool.false_eq_true, if_false]
              cases x.getLsbD j <;> cases y.getLsbD j <;> simp
          | true =>
              simp only [BitVec.getLsbD_xor, Bool.bne_true, Bool.not_true, if_true,
                Bool.false_eq_true, if_false]
              cases x.getLsbD j <;> cases y.getLsbD j <;> simp

/-- What a round makes of the checksum, apart from the value. -/
def polymodShift (checksum : BitVec 32) : BitVec 32 := polymodStep checksum 0

theorem polymodStep_eq (checksum : BitVec 32) (value : UInt8) :
    polymodStep checksum value = polymodShift checksum ^^^ value.toBitVec.setWidth 32 := by
  have hzero : (0 : UInt8).toBitVec.setWidth 32 = 0#32 := rfl
  unfold polymodShift polymodStep
  rw [hzero, applyGenerators_eq, applyGenerators_eq (checksum >>> 25) 0 generators (_ ^^^ 0#32),
    BitVec.xor_zero, BitVec.xor_assoc, BitVec.xor_assoc, BitVec.xor_comm (value.toBitVec.setWidth 32)]

theorem polymodShift_xor (a b : BitVec 32) :
    polymodShift (a ^^^ b) = polymodShift a ^^^ polymodShift b := by
  have hzero : (0 : UInt8).toBitVec.setWidth 32 = 0#32 := rfl
  have hshift : (a ^^^ b) >>> 25 = a >>> 25 ^^^ b >>> 25 := BitVec.ushiftRight_xor_distrib a b 25
  have hmask : ((a ^^^ b) &&& 0x1ffffff) <<< 5 =
      (a &&& 0x1ffffff) <<< 5 ^^^ (b &&& 0x1ffffff) <<< 5 := by
    refine BitVec.eq_of_getLsbD_eq fun j _ => ?_
    simp only [BitVec.getLsbD_shiftLeft, BitVec.getLsbD_and, BitVec.getLsbD_xor,
      Bool.and_xor_distrib_right, Bool.and_xor_distrib_left]
  unfold polymodShift polymodStep
  rw [hzero, BitVec.xor_zero, BitVec.xor_zero, BitVec.xor_zero, hshift, hmask, applyGenerators_eq,
    applyGenerators_eq (a >>> 25), applyGenerators_eq (b >>> 25), applyGenerators_xor]
  generalize (a &&& 0x1ffffff) <<< 5 = p
  generalize (b &&& 0x1ffffff) <<< 5 = q
  generalize applyGenerators (a >>> 25) 0 generators 0#32 = x
  generalize applyGenerators (b >>> 25) 0 generators 0#32 = y
  rw [BitVec.xor_assoc, BitVec.xor_assoc, ← BitVec.xor_assoc q, BitVec.xor_comm q x,
    BitVec.xor_assoc x]

/-- A short checksum is shifted without a generator. -/
theorem polymodShift_of_below {checksum : BitVec 32} (h : Below 25 checksum) :
    polymodShift checksum = checksum <<< 5 := by
  have hzero : (0 : UInt8).toBitVec.setWidth 32 = 0#32 := rfl
  have htop : checksum >>> 25 = 0#32 := by
    refine BitVec.eq_of_getLsbD_eq fun j _ => ?_
    rw [BitVec.getLsbD_ushiftRight, h (25 + j) (Nat.le_add_right 25 j), BitVec.getLsbD_zero]
  have hmask : checksum &&& 0x1ffffff = checksum := by
    have hones : (0x1ffffff : BitVec 32) = BitVec.ofNat 32 (2 ^ 25 - 1) := rfl
    refine BitVec.eq_of_getLsbD_eq fun j hj => ?_
    rw [hones, BitVec.getLsbD_and, BitVec.getLsbD_ofNat, Nat.testBit_two_pow_sub_one]
    by_cases hlow : j < 25
    · simp [hlow, hj]
    · simp [h j (Nat.le_of_not_lt hlow)]
  unfold polymodShift polymodStep
  rw [hzero, htop, hmask, BitVec.xor_zero]
  rfl

/-- Values shifted into a word one after the other. -/
def packed (start : BitVec 32) (values : List UInt8) : BitVec 32 :=
  values.foldl (fun acc v => acc <<< 5 ||| v.toBitVec.setWidth 32) start

/-- A value is added to a shifted word without carries. -/
theorem shiftLeft_xor_eq_or {acc : BitVec 32} {v : UInt8} (hv : Below 5 v.toBitVec) :
    acc <<< 5 ^^^ v.toBitVec.setWidth 32 = acc <<< 5 ||| v.toBitVec.setWidth 32 := by
  refine BitVec.eq_of_getLsbD_eq fun j hj => ?_
  rw [BitVec.getLsbD_xor, BitVec.getLsbD_or, BitVec.getLsbD_shiftLeft, BitVec.getLsbD_setWidth]
  by_cases hlow : j < 5
  · simp [hlow]
  · simp [hv j (Nat.le_of_not_lt hlow)]

theorem below_shiftIn {k : Nat} {acc : BitVec 32} {v : UInt8} (hacc : Below (5 * k) acc)
    (hv : Below 5 v.toBitVec) : Below (5 * (k + 1)) (acc <<< 5 ||| v.toBitVec.setWidth 32) := by
  intro i hi
  have hback : 5 * k ≤ i - 5 := by omega
  rw [BitVec.getLsbD_or, BitVec.getLsbD_shiftLeft, BitVec.getLsbD_setWidth, hacc (i - 5) hback,
    hv i (by omega), Bool.and_false, Bool.and_false, Bool.or_false]

/-- The last six values are added to the checksum of six zeros as they are. The word shifted in so
far stays below the generators. -/
theorem foldl_polymodStep {k : Nat} {c acc : BitVec 32} {values : List UInt8}
    (hacc : Below (5 * k) acc) (hvalues : AllBelow 5 values) (hk : k + values.length ≤ 6) :
    values.foldl polymodStep (c ^^^ acc) =
      (List.replicate values.length 0).foldl polymodStep c ^^^ packed acc values := by
  induction values generalizing k c acc with
  | nil => rfl
  | cons v rest ih =>
      obtain ⟨hv, hrest⟩ := List.forall_mem_cons.mp hvalues
      rw [List.length_cons] at hk
      have hlow : Below 25 acc := fun i hi => hacc i (by omega)
      have hstep : polymodStep (c ^^^ acc) v =
          polymodStep c 0 ^^^ (acc <<< 5 ||| v.toBitVec.setWidth 32) := by
        rw [polymodStep_eq, polymodShift_xor, polymodShift_of_below hlow, BitVec.xor_assoc,
          shiftLeft_xor_eq_or hv]
        rfl
      rw [List.foldl_cons, hstep, ih (below_shiftIn hacc hv) hrest (by omega)]
      rfl

theorem bitsDown_packed {k : Nat} {acc : BitVec 32} {values : List UInt8}
    (hvalues : AllBelow 5 values) (hk : k + values.length ≤ 6) :
    bitsDown (packed acc values) (5 * (k + values.length)) =
      bitsDown acc (5 * k) ++ bitsOf 5 values := by
  induction values generalizing k acc with
  | nil => exact (List.append_nil _).symm
  | cons v rest ih =>
      obtain ⟨hv, hrest⟩ := List.forall_mem_cons.mp hvalues
      rw [List.length_cons] at hk ⊢
      have hshift : k + (rest.length + 1) = k + 1 + rest.length := by omega
      have hnext := @ih (k + 1) (acc <<< 5 ||| v.toBitVec.setWidth 32) hrest (by omega)
      have hin : bitsDown (acc <<< 5 ||| v.toBitVec.setWidth 32) (5 * (k + 1)) =
          bitsDown acc (5 * k) ++ bitsDown v.toBitVec 5 := by
        rw [Nat.mul_succ]
        exact bitsDown_shiftIn hv (by omega)
      rw [hshift]
      show bitsDown (packed (acc <<< 5 ||| v.toBitVec.setWidth 32) rest) _ = _
      rw [hnext, hin, List.append_assoc]
      rfl

/-- The six groups of a checksum are its thirty bits. -/
theorem bitsOf_groups (mod : BitVec 32) :
    bitsOf 5 ((List.range 6).map fun i =>
      UInt8.ofBitVec (((mod >>> (5 * (5 - i))) &&& 31).setWidth 8)) = bitsDown mod 30 := by
  have hgroup : ∀ shift : Nat, bitsDown (((mod >>> shift) &&& 31).setWidth 8) 5 =
      bitsDown (mod >>> shift) 5 := by
    intro shift
    have hones : (31 : BitVec 32) = BitVec.ofNat 32 (2 ^ 5 - 1) := rfl
    refine bitsDown_eq_iff.mpr fun i hi => ?_
    have h8 : i < 8 := by omega
    have h32 : i < 32 := by omega
    rw [hones, BitVec.getLsbD_setWidth, BitVec.getLsbD_and, BitVec.getLsbD_ofNat,
      Nat.testBit_two_pow_sub_one]
    simp [hi, h8, h32]
  have hsplit : bitsDown mod 30 = bitsDown (mod >>> 25) 5 ++ (bitsDown (mod >>> 20) 5 ++
      (bitsDown (mod >>> 15) 5 ++ (bitsDown (mod >>> 10) 5 ++ (bitsDown (mod >>> 5) 5 ++
        bitsDown mod 5)))) := by
    rw [bitsDown_add mod 5 25, bitsDown_add mod 5 20, bitsDown_add mod 5 15, bitsDown_add mod 5 10,
      bitsDown_add mod 5 5]
  have hlast : bitsDown (mod >>> 0) 5 = bitsDown mod 5 := by rw [BitVec.ushiftRight_zero]
  rw [hsplit, ← hlast, ← hgroup, ← hgroup, ← hgroup, ← hgroup, ← hgroup, ← hgroup]
  rfl

theorem allBelow_groups (mod : BitVec 32) :
    AllBelow 5 ((List.range 6).map fun i =>
      UInt8.ofBitVec (((mod >>> (5 * (5 - i))) &&& 31).setWidth 8)) := by
  refine List.forall_mem_map.mpr fun i _ => ?_
  intro j hj
  have hones : (31 : BitVec 32) = BitVec.ofNat 32 (2 ^ 5 - 1) := rfl
  rw [UInt8.toBitVec_ofBitVec, hones, BitVec.getLsbD_setWidth, BitVec.getLsbD_and,
    BitVec.getLsbD_ofNat, Nat.testBit_two_pow_sub_one]
  have hnot : ¬ j < 5 := by omega
  simp [hnot]

/-- A valid checksum is the one the encoder computes. -/
theorem checksum_of_verify {hrp : Bytes} {data checksum : List UInt8} (hlength : checksum.length = 6)
    (hbelow : AllBelow 5 checksum) (h : bech32VerifyChecksum hrp (data ++ checksum) = true) :
    bech32Checksum hrp data = checksum := by
  have hsum : bech32Polymod (bech32HrpExpand hrp ++ data ++ List.replicate 6 0) ^^^
      packed 0#32 checksum = 1 := by
    have hvalid := of_decide_eq_true h
    unfold bech32Polymod at hvalid ⊢
    have hstart : Below (5 * 0) (0#32) := fun i _ => BitVec.getLsbD_zero
    rw [← List.append_assoc, List.foldl_append] at hvalid
    rw [List.foldl_append, ← hlength, ← foldl_polymodStep hstart hbelow (by omega), BitVec.xor_zero]
    exact hvalid
  have hmod : bech32Polymod (bech32HrpExpand hrp ++ data ++ List.replicate 6 0) ^^^ 1 =
      packed 0#32 checksum := by
    rw [← hsum, ← BitVec.xor_assoc, BitVec.xor_self, BitVec.zero_xor]
  have hbits : bitsDown (packed 0#32 checksum) 30 = bitsOf 5 checksum := by
    have hpacked := @bitsDown_packed 0 0#32 checksum hbelow (by omega)
    rw [hlength] at hpacked
    exact hpacked
  unfold bech32Checksum
  rw [hmod]
  refine eq_of_bitsOf (by omega) (allBelow_groups _) hbelow ?_
  rw [bitsOf_groups, hbits]

/-! ## Regrouping keeps the bits -/

theorem bitsDown_group {toBits bits : Nat} {acc : BitVec 64} (hto : toBits ≤ 8) :
    bitsDown (group toBits acc bits).toBitVec toBits = bitsDown (acc >>> bits) toBits := by
  refine bitsDown_eq_iff.mpr fun i hi => ?_
  have h8 : i < 8 := by omega
  have h64 : i < 64 := by omega
  unfold group
  rw [UInt8.toBitVec_ofBitVec, BitVec.getLsbD_setWidth, BitVec.getLsbD_and, BitVec.getLsbD_ofNat,
    Nat.testBit_two_pow_sub_one]
  simp [hi, h8, h64]

theorem below_group {toBits bits : Nat} {acc : BitVec 64} :
    Below toBits (group toBits acc bits).toBitVec := by
  intro i hi
  have hnot : ¬ i < toBits := by omega
  unfold group
  rw [UInt8.toBitVec_ofBitVec, BitVec.getLsbD_setWidth, BitVec.getLsbD_and, BitVec.getLsbD_ofNat,
    Nat.testBit_two_pow_sub_one]
  simp [hnot]

/-- The inner loop takes groups off the top until fewer bits than a group are left. -/
theorem emitGroups_spec {toBits fuel bits : Nat} {acc : BitVec 64} (hpos : 0 < toBits)
    (hto : toBits ≤ 8) (hfuel : bits ≤ fuel) :
    bitsDown acc bits = bitsOf toBits (emitGroups toBits acc fuel bits).1 ++
        bitsDown acc (emitGroups toBits acc fuel bits).2 ∧
      (emitGroups toBits acc fuel bits).2 < toBits ∧
      AllBelow toBits (emitGroups toBits acc fuel bits).1 := by
  induction fuel generalizing bits with
  | zero =>
      obtain rfl := Nat.le_zero.mp hfuel
      exact ⟨rfl, hpos, by simp [emitGroups, AllBelow]⟩
  | succ fuel ih =>
      unfold emitGroups
      by_cases hmore : toBits ≤ bits
      · rw [if_pos hmore]
        obtain ⟨hbits, hlt, hbelow⟩ := @ih (bits - toBits) (by omega)
        have hsum : bits = toBits + (bits - toBits) := by omega
        refine ⟨?_, hlt, List.forall_mem_cons.mpr ⟨below_group, hbelow⟩⟩
        calc bitsDown acc bits
            = bitsDown acc (toBits + (bits - toBits)) := by rw [← hsum]
          _ = bitsDown (acc >>> (bits - toBits)) toBits ++ bitsDown acc (bits - toBits) :=
              bitsDown_add acc toBits (bits - toBits)
          _ = _ := by
              rw [← bitsDown_group hto, hbits, ← List.append_assoc]
              rfl
      · rw [if_neg hmore]
        exact ⟨rfl, by omega, by simp [AllBelow]⟩

theorem below_of_shift {fromBits : Nat} {v : UInt8} (h : v.toBitVec >>> fromBits = 0) :
    Below fromBits v.toBitVec := by
  intro i hi
  have hbit := congrArg (fun x : BitVec 8 => x.getLsbD (i - fromBits)) h
  simp only [BitVec.getLsbD_ushiftRight] at hbit
  rw [Nat.add_sub_cancel' hi] at hbit
  exact hbit.trans BitVec.getLsbD_zero

/-- The outer loop keeps the stream of bits. -/
theorem regroup_spec {fromBits toBits bits : Nat} {acc : BitVec 64} {data : List UInt8}
    {done : Regrouped} (hpos : 0 < toBits) (hto : toBits ≤ 8) (hfrom : fromBits ≤ 8)
    (hbits : bits < toBits) (h : regroup fromBits toBits acc bits data = .ok done) :
    bitsDown acc bits ++ bitsOf fromBits data =
        bitsOf toBits done.result ++ bitsDown done.accumulator done.bits ∧
      done.bits < toBits ∧ AllBelow toBits done.result := by
  induction data generalizing acc bits done with
  | nil =>
      obtain rfl := Except.ok.inj h
      exact ⟨List.append_nil _, hbits, by simp [AllBelow]⟩
  | cons v rest ih =>
      unfold regroup at h
      obtain ⟨_, hvalue, h⟩ := bind_eq_ok.mp h
      obtain ⟨more, hmore, hdone⟩ := bind_eq_ok.mp h
      obtain rfl := (pure_eq_ok.mp hdone).symm
      have hv : Below fromBits v.toBitVec :=
        below_of_shift (not_not.mp (revertIf_eq_ok.mp hvalue))
      obtain ⟨hemit, hleft, hbelow⟩ := @emitGroups_spec toBits (bits + fromBits) (bits + fromBits)
        (acc <<< fromBits ||| v.toBitVec.setWidth 64) hpos hto (Nat.le_refl _)
      obtain ⟨hstream, hlast, hrest⟩ := ih hleft hmore
      refine ⟨?_, hlast, List.forall_mem_append.mpr ⟨hbelow, hrest⟩⟩
      calc bitsDown acc bits ++ bitsOf fromBits (v :: rest)
          = bitsDown acc bits ++ bitsDown v.toBitVec fromBits ++ bitsOf fromBits rest :=
            (List.append_assoc _ _ _).symm
        _ = bitsDown (acc <<< fromBits ||| v.toBitVec.setWidth 64) (bits + fromBits) ++
              bitsOf fromBits rest := by rw [bitsDown_shiftIn hv (by omega)]
        _ = _ := by
            rw [hemit, List.append_assoc, hstream, ← List.append_assoc]
            congr 1
            exact List.flatMap_append.symm

/-- Every byte fits eight bits, so that regrouping bytes does not fail. -/
theorem regroup_bytes (toBits : Nat) (acc : BitVec 64) (bits : Nat) (data : List UInt8) :
    ∃ done, regroup 8 toBits acc bits data = .ok done := by
  induction data generalizing acc bits with
  | nil => exact ⟨_, rfl⟩
  | cons v rest ih =>
      have hshift : v.toBitVec >>> 8 = 0 := by
        refine BitVec.eq_of_getLsbD_eq fun i _ => ?_
        rw [BitVec.getLsbD_ushiftRight, BitVec.getLsbD_of_ge _ _ (by omega)]
        exact BitVec.getLsbD_zero.symm
      obtain ⟨more, hmore⟩ := ih (acc <<< 8 ||| v.toBitVec.setWidth 64)
        (emitGroups toBits (acc <<< 8 ||| v.toBitVec.setWidth 64) (bits + 8) (bits + 8)).2
      refine ⟨_, bind_eq_ok.mpr ⟨(), revertIf_eq_ok.mpr (not_not.mpr hshift),
        bind_eq_ok.mpr ⟨more, hmore, rfl⟩⟩⟩

/-- The encoder gets back the values that a payload of twenty bytes was made of. -/
theorem convertBits_back {data payload : List UInt8} (hdata : AllBelow 5 data)
    (h : bech32ConvertBits data 5 8 false = .ok payload) (hlength : payload.length = 20) :
    bech32ConvertBits payload 8 5 true = .ok data := by
  unfold bech32ConvertBits at h
  obtain ⟨_, -, h⟩ := bind_eq_ok.mp h
  obtain ⟨done, hdone, h⟩ := bind_eq_ok.mp h
  simp only [Bool.false_eq_true, if_false] at h
  obtain ⟨_, hpadding, h⟩ := bind_eq_ok.mp h
  obtain ⟨_, -, h⟩ := bind_eq_ok.mp h
  obtain rfl := pure_eq_ok.mp h
  have hleft : done.bits < 5 := Nat.lt_of_not_le (revertIf_eq_ok.mp hpadding)
  obtain ⟨hstream, -, -⟩ := regroup_spec (by omega) (by omega) (by omega) (by omega) hdone
  -- 160 bits and fewer than five more are groups of five: there are no more
  have hcount : data.length * 5 = 160 + done.bits := by
    have hlengths := congrArg List.length hstream
    simp only [List.length_append, length_bitsDown, length_bitsOf, hlength] at hlengths
    omega
  have hnone : done.bits = 0 := by omega
  have hforward : bitsOf 5 data = bitsOf 8 done.result := by
    rw [hnone] at hstream
    exact hstream.trans (List.append_nil _)
  obtain ⟨back, hback⟩ := regroup_bytes 5 0 0 done.result
  obtain ⟨hreturn, hbits, hbelow⟩ := regroup_spec (by omega) (by omega) (by omega) (by omega) hback
  have hbackCount : 160 = back.result.length * 5 + back.bits := by
    have hlengths := congrArg List.length hreturn
    simp only [List.length_append, length_bitsDown, length_bitsOf, hlength] at hlengths
    omega
  have hbackNone : back.bits = 0 := by omega
  have hsame : back.result = data := by
    refine eq_of_bitsOf (by omega) hbelow hdata ?_
    rw [hbackNone] at hreturn
    exact (hreturn.trans (List.append_nil _)).symm.trans hforward.symm
  have hpad : ¬ back.bits > 0 := by omega
  unfold bech32ConvertBits
  refine bind_eq_ok.mpr ⟨(), revertIf_eq_ok.mpr (by decide), bind_eq_ok.mpr ⟨back, hback, ?_⟩⟩
  simp only [if_true, if_neg hpad, hsame]
  rfl

/-! ## Texts -/

/-- A character is found back at its index. -/
theorem charset_getD {c : UInt8} {index : Nat} (h : bech32Charset.idxOf? c = some index) :
    index < 32 ∧ bech32Charset.getD index 0 = c := by
  obtain ⟨hlt, hget, -⟩ := List.idxOf?_eq_some_iff.mp h
  refine ⟨hlt, ?_⟩
  rw [List.getD_eq_getElem _ _ hlt, hget]

/-- A number below 32 takes five bits. -/
theorem below_ofNat {index : Nat} (h : index < 32) : Below 5 (UInt8.ofNat index).toBitVec := by
  intro i hi
  show (BitVec.ofNat 8 index).getLsbD i = false
  have hpow : 2 ^ 5 ≤ 2 ^ i := Nat.pow_le_pow_right (by omega) hi
  rw [BitVec.getLsbD_ofNat, Nat.testBit_lt_two_pow (by omega), Bool.and_false]

/-- On ASCII bytes the loop of the decoder finds one value a byte, which gives the byte back. -/
theorem charValues_ascii {text : Bytes} {values : List UInt8}
    (h : charValues (text.map fun c => (c.toNat, 1)) = .ok values) :
    AllBelow 5 values ∧ values.map (fun v => bech32Charset.getD v.toNat 0) = text := by
  induction text generalizing values with
  | nil =>
      obtain rfl := Except.ok.inj h
      exact ⟨by simp [AllBelow], rfl⟩
  | cons c rest ih =>
      rw [List.map_cons, charValues] at h
      cases hindex : bech32Charset.idxOf? (UInt8.ofNat c.toNat) with
      | none =>
          rw [hindex] at h
          cases h
      | some index =>
          rw [hindex] at h
          obtain ⟨more, hmore, hvalues⟩ := bind_eq_ok.mp h
          obtain rfl := pure_eq_ok.mp hvalues
          obtain ⟨hbelow, hback⟩ := ih hmore
          obtain ⟨hlt, hchar⟩ := charset_getD hindex
          have hnat : (UInt8.ofNat index).toNat = index := by
            rw [UInt8.toNat_ofNat']
            omega
          refine ⟨List.forall_mem_cons.mpr ⟨below_ofNat hlt, hbelow⟩, ?_⟩
          show bech32Charset.getD (UInt8.ofNat index).toNat 0 ::
            more.map (fun v => bech32Charset.getD v.toNat 0) = c :: rest
          rw [hnat, hchar, hback, UInt8.ofNat_toNat]

/-- The text around the last separator. -/
theorem split_lastIndexByte {value : Bytes} {c : UInt8} {i : Nat}
    (h : lastIndexByte value c = some i) : value = value.take i ++ c :: value.drop (i + 1) := by
  obtain ⟨j, hfind, rfl⟩ := Option.map_eq_some_iff.mp h
  obtain ⟨hlt, hget, -⟩ := List.idxOf?_eq_some_iff.mp hfind
  rw [List.length_reverse] at hlt
  rw [List.getElem_reverse] at hget
  have hin : value.length - 1 - j < value.length := by omega
  conv_lhs => rw [← List.take_append_drop (value.length - 1 - j) value]
  rw [List.drop_eq_getElem_cons hin, hget]

/-- The encoder writes ASCII. -/
theorem encode_ascii (payload : List UInt8) :
    ∀ c ∈ encodeBech32Address injPrefix payload, c < 0x80 := by
  have hcharset : ∀ i, bech32Charset.getD i 0 < 0x80 := by
    intro i
    by_cases hlt : i < bech32Charset.length
    · have hall : ∀ c ∈ bech32Charset, c < 0x80 := by decide +kernel
      rw [List.getD_eq_getElem _ _ hlt]
      exact hall _ (List.getElem_mem hlt)
    · rw [List.getD_eq_default _ _ (Nat.le_of_not_lt hlt)]
      decide
  have hhrp : ∀ c ∈ injPrefix, c < 0x80 := by decide +kernel
  have hseparator : (0x31 : UInt8) < 0x80 := by decide
  unfold encodeBech32Address
  cases bech32ConvertBits payload 8 5 true with
  | error reason => simp
  | ok converted =>
      refine List.forall_mem_append.mpr ⟨hhrp, List.forall_mem_cons.mpr ⟨hseparator, ?_⟩⟩
      exact List.forall_mem_map.mpr fun v _ => hcharset v.toNat

/-- An ASCII text that the decoder accepts is the one the encoder writes. -/
theorem encode_decode_ascii {u : UnicodeCase} {value : Bytes} {payload : List UInt8}
    (hascii : ∀ c ∈ value, c < 0x80) (h : decodeBech32Address u value = .ok payload) :
    encodeBech32Address injPrefix payload = value := by
  unfold decodeBech32Address at h
  obtain ⟨_, -, h⟩ := bind_eq_ok.mp h
  cases hseparator : lastIndexByte value 0x31 with
  | none =>
      rw [hseparator] at h
      cases h
  | some separator =>
      rw [hseparator] at h
      dsimp only at h
      obtain ⟨_, hlong, h⟩ := bind_eq_ok.mp h
      obtain ⟨_, hprefix, h⟩ := bind_eq_ok.mp h
      obtain ⟨values, hvalues, h⟩ := bind_eq_ok.mp h
      obtain ⟨_, hverify, h⟩ := bind_eq_ok.mp h
      obtain ⟨converted, hconvert, h⟩ := bind_eq_ok.mp h
      obtain ⟨_, hlength, h⟩ := bind_eq_ok.mp h
      obtain rfl := pure_eq_ok.mp h
      have hhrp : value.take separator = injPrefix := not_not.mp (revertIf_eq_ok.mp hprefix)
      have hsplit := split_lastIndexByte hseparator
      have htail : ∀ c ∈ value.drop (separator + 1), c < 0x80 :=
        fun c hc => hascii c (List.mem_of_mem_drop hc)
      rw [runes_ascii htail] at hvalues
      obtain ⟨hbelow, hback⟩ := charValues_ascii hvalues
      have hcount : 6 ≤ values.length := by
        have hlengths := congrArg List.length hback
        rw [List.length_map, List.length_drop] at hlengths
        have hfits := (not_or.mp (revertIf_eq_ok.mp hlong)).2
        omega
      -- the values are the data and the six values of the checksum
      have hparts : values.take (values.length - 6) ++ values.drop (values.length - 6) = values :=
        List.take_append_drop _ _
      have hdata := convertBits_back (fun v hv => hbelow v (List.mem_of_mem_take hv)) hconvert
        (not_not.mp (revertIf_eq_ok.mp hlength))
      have hchecksum : bech32Checksum injPrefix (values.take (values.length - 6)) =
          values.drop (values.length - 6) := by
        refine checksum_of_verify ?_ (fun v hv => hbelow v (List.mem_of_mem_drop hv)) ?_
        · rw [List.length_drop]
          omega
        · rw [hparts, ← hhrp]
          exact Bool.not_eq_false _ ▸ revertIf_eq_ok.mp hverify
      unfold encodeBech32Address
      rw [hdata]
      dsimp only
      rw [hchecksum, hparts, hback, ← hhrp]
      exact hsplit.symm

/-- The decoder accepts a text. -/
def Bech32Accepts (u : UnicodeCase) (value : Bytes) : Prop :=
  ∃ payload, decodeBech32Address u value = .ok payload

/-- Encoding what was decoded gives a text back exactly when it is ASCII or refused, and no two such
texts are the same address. -/
theorem reencodes_iff (u : UnicodeCase) (value : Bytes) :
    ((∀ payload, decodeBech32Address u value = .ok payload →
        encodeBech32Address injPrefix payload = value) ↔
      ¬ (Bech32Accepts u value ∧ ∃ c ∈ value, 0x80 ≤ c)) ∧
    ∀ other payload, ¬ (∃ c ∈ value, 0x80 ≤ c) → ¬ (∃ c ∈ other, 0x80 ≤ c) →
      decodeBech32Address u value = .ok payload → decodeBech32Address u other = .ok payload →
        value = other := by
  have hsmall : ∀ {text : Bytes}, ¬ (∃ c ∈ text, 0x80 ≤ c) → ∀ c ∈ text, c < 0x80 :=
    fun h c hc => UInt8.not_le.mp fun hle => h ⟨c, hc, hle⟩
  refine ⟨⟨fun h hbad => ?_, fun h payload hdecode => ?_⟩, ?_⟩
  · obtain ⟨⟨payload, hdecode⟩, c, hc, hlarge⟩ := hbad
    rw [← h payload hdecode] at hc
    exact absurd hlarge (UInt8.not_le.mpr (encode_ascii payload c hc))
  · refine encode_decode_ascii (hsmall fun hlarge => ?_) hdecode
    exact h ⟨⟨payload, hdecode⟩, hlarge⟩
  · intro other payload hvalue hother hdecode hdecodeOther
    rw [← encode_decode_ascii (hsmall hvalue) hdecode,
      encode_decode_ascii (hsmall hother) hdecodeOther]

namespace Sample

/-- The zero address. -/
def zeroAddress : Bytes := encodeBech32Address injPrefix (List.replicate 20 0)

/-- The zero address with `U+0171`, whose lowest byte is that of `q`, for the first two characters of
its data. -/
def homograph : Bytes := injPrefix ++ [0x31, 0xc5, 0xb1] ++ zeroAddress.drop 6

/-- ASCII letters have lower-case forms, and other runes are their own. -/
def asciiCase : UnicodeCase :=
  ⟨fun c => if 0x41 ≤ c ∧ c ≤ 0x5a then c + 0x20 else c, fun _ _ => rfl⟩

/-- Two texts are the zero address, and the second is not what the encoder writes. -/
theorem homograph_accepted :
    decodeBech32Address asciiCase zeroAddress = .ok (List.replicate 20 0) ∧
      decodeBech32Address asciiCase homograph = .ok (List.replicate 20 0) ∧
      encodeBech32Address injPrefix (List.replicate 20 0) ≠ homograph := by
  decide +kernel

end Sample

end Igit.Chain
