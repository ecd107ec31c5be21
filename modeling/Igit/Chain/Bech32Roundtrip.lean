import Igit.Chain.Bech32

/-!
# What is encoded is decoded

The other direction of `Chain.Bech32`. The checksum that `bech32Checksum` appends is accepted for
every human-readable part and every data (`verify_checksum`), and regrouping bytes to five bits with
padding and back loses nothing (`convertBits_roundtrip`). So every payload of twenty bytes is what the
decoder reads in its address.
-/

namespace Igit.Chain

open Fallible Runes BitGroups

/-! ## The checksum is accepted -/

theorem below_xor {w : Nat} {a b : BitVec 32} (ha : Below w a) (hb : Below w b) :
    Below w (a ^^^ b) := by
  intro i hi
  rw [BitVec.getLsbD_xor, ha i hi, hb i hi]
  rfl

/-- The generators have thirty bits. -/
theorem below_applyGenerators {top checksum : BitVec 32} {i : Nat} {gens : List (BitVec 32)}
    (hgens : ∀ g ∈ gens, Below 30 g) (h : Below 30 checksum) :
    Below 30 (applyGenerators top i gens checksum) := by
  induction gens generalizing i checksum with
  | nil => exact h
  | cons generator rest ih =>
      obtain ⟨hgenerator, hrest⟩ := List.forall_mem_cons.mp hgens
      refine ih hrest ?_
      split
      · exact below_xor h hgenerator
      · exact h

theorem below_generators : ∀ g ∈ generators, Below 30 g := by
  have hgenerators : generators =
      [0x3b6a57b2, 0x26508e6d, 0x1ea119fa, 0x3d4233dd, 0x2a1462b3].map (BitVec.ofNat 32) := rfl
  rw [hgenerators]
  refine List.forall_mem_map.mpr fun n hn i hi => ?_
  have hlt : n < 2 ^ 30 := by
    simp only [List.mem_cons, List.not_mem_nil, or_false] at hn
    omega
  have hpow : 2 ^ 30 ≤ 2 ^ i := Nat.pow_le_pow_right (by omega) hi
  rw [BitVec.getLsbD_ofNat, Nat.testBit_lt_two_pow (by omega), Bool.and_false]

/-- A round leaves thirty bits, whatever it starts from. -/
theorem below_polymodStep (checksum : BitVec 32) (value : UInt8) :
    Below 30 (polymodStep checksum value) := by
  refine below_applyGenerators below_generators (below_xor ?_ ?_)
  · intro i hi
    have hones : (0x1ffffff : BitVec 32) = BitVec.ofNat 32 (2 ^ 25 - 1) := rfl
    have hnot : ¬ i - 5 < 25 := by omega
    rw [BitVec.getLsbD_shiftLeft, BitVec.getLsbD_and, hones, BitVec.getLsbD_ofNat,
      Nat.testBit_two_pow_sub_one]
    simp [hnot]
  · intro i hi
    rw [BitVec.getLsbD_setWidth, BitVec.getLsbD_of_ge _ i (by omega), Bool.and_false]

theorem below_foldl_polymodStep {checksum : BitVec 32} (h : Below 30 checksum) (values : List UInt8) :
    Below 30 (values.foldl polymodStep checksum) := by
  induction values generalizing checksum with
  | nil => exact h
  | cons value rest ih => exact ih (below_polymodStep checksum value)

theorem below_one : Below 30 (1 : BitVec 32) := by
  intro i hi
  have hne : i ≠ 0 := by omega
  show (1#32).getLsbD i = false
  rw [BitVec.getLsbD_one]
  simp [hne]

/-- Values shifted in one after the other take five bits each. -/
theorem below_packed {k : Nat} {acc : BitVec 32} {values : List UInt8} (hacc : Below (5 * k) acc)
    (hvalues : AllBelow 5 values) : Below (5 * (k + values.length)) (packed acc values) := by
  induction values generalizing k acc with
  | nil => exact hacc
  | cons v rest ih =>
      obtain ⟨hv, hrest⟩ := List.forall_mem_cons.mp hvalues
      have hshift : k + (v :: rest).length = k + 1 + rest.length := by
        rw [List.length_cons]
        omega
      rw [hshift]
      exact ih (below_shiftIn hacc hv) hrest

/-- The six groups of a word of thirty bits are shifted back to the word. -/
theorem packed_groups {mod : BitVec 32} (h : Below 30 mod) :
    packed 0#32 ((List.range 6).map fun i =>
      UInt8.ofBitVec (((mod >>> (5 * (5 - i))) &&& 31).setWidth 8)) = mod := by
  have hstart : Below (5 * 0) (0#32) := fun i _ => BitVec.getLsbD_zero
  have hpacked := below_packed hstart (allBelow_groups mod)
  have hbits := @bitsDown_packed 0 0#32 _ (allBelow_groups mod) (by simp)
  rw [List.length_map, List.length_range] at hpacked hbits
  refine eq_of_bitsDown hpacked h (hbits.trans ?_)
  rw [bitsOf_groups]
  rfl

/-- The checksum of any data under any human-readable part is accepted. -/
theorem verify_checksum (hrp : Bytes) (data : List UInt8) :
    bech32VerifyChecksum hrp (data ++ bech32Checksum hrp data) = true := by
  have hstart : Below (5 * 0) (0#32) := fun i _ => BitVec.getLsbD_zero
  have hmod : Below 30 (bech32Polymod (bech32HrpExpand hrp ++ data ++ List.replicate 6 0) ^^^ 1) :=
    below_xor (below_foldl_polymodStep below_one _) below_one
  have hlength : (bech32Checksum hrp data).length = 6 := by
    rw [bech32Checksum, List.length_map, List.length_range]
  have hbelow : AllBelow 5 (bech32Checksum hrp data) := allBelow_groups _
  have hpacked : packed 0#32 (bech32Checksum hrp data) =
      bech32Polymod (bech32HrpExpand hrp ++ data ++ List.replicate 6 0) ^^^ 1 := packed_groups hmod
  refine decide_eq_true ?_
  have hfold := @foldl_polymodStep 0 ((bech32HrpExpand hrp ++ data).foldl polymodStep 1) 0#32
    (bech32Checksum hrp data) hstart hbelow (by omega)
  rw [BitVec.xor_zero, hlength, hpacked, ← List.foldl_append] at hfold
  show (bech32HrpExpand hrp ++ (data ++ bech32Checksum hrp data)).foldl polymodStep 1 = 1
  rw [← List.append_assoc, hfold, ← List.foldl_append]
  show bech32Polymod _ ^^^ (bech32Polymod _ ^^^ 1) = 1
  rw [← BitVec.xor_assoc, BitVec.xor_self, BitVec.zero_xor]

/-! ## Regrouping there and back -/

theorem allBelow_bytes (data : List UInt8) : AllBelow 8 data :=
  fun v _ i hi => BitVec.getLsbD_of_ge v.toBitVec i hi

/-- The group that pads the last bits: the bits, and zeros below them. -/
theorem bitsDown_padded {toBits bits : Nat} (acc : BitVec 64) (hto : toBits ≤ 8)
    (hbits : bits ≤ toBits) :
    bitsDown (((acc <<< (toBits - bits)) &&& BitVec.ofNat 64 (2 ^ toBits - 1)).setWidth 8) toBits =
      bitsDown acc bits ++ List.replicate (toBits - bits) false := by
  have hzero : Below (toBits - bits) (0#8) := fun i _ => BitVec.getLsbD_zero
  have hshift := @bitsDown_shiftIn 64 8 (toBits - bits) acc 0#8 bits hzero (by omega)
  have hfalse : bitsDown (0#8) (toBits - bits) = List.replicate (toBits - bits) false := by
    generalize toBits - bits = w
    induction w with
    | zero => rfl
    | succ w ih => rw [bitsDown, ih, BitVec.getLsbD_zero, List.replicate_succ]
  rw [BitVec.setWidth_zero, BitVec.or_zero, hfalse, Nat.add_sub_cancel' hbits] at hshift
  rw [← hshift]
  refine bitsDown_eq_iff.mpr fun i hi => ?_
  have h8 : i < 8 := by omega
  have h64 : i < 64 := by omega
  rw [BitVec.getLsbD_setWidth, BitVec.getLsbD_and, BitVec.getLsbD_ofNat, Nat.testBit_two_pow_sub_one]
  simp [hi, h8, h64]

theorem below_padded {toBits : Nat} (acc : BitVec 64) (shift : Nat) :
    Below toBits (((acc <<< shift) &&& BitVec.ofNat 64 (2 ^ toBits - 1)).setWidth 8) := by
  intro i hi
  have hnot : ¬ i < toBits := by omega
  rw [BitVec.getLsbD_setWidth, BitVec.getLsbD_and, BitVec.getLsbD_ofNat, Nat.testBit_two_pow_sub_one]
  simp [hnot]

/-- Bytes in groups of five bits: their bits, and fewer than five zeros. -/
theorem convertBits_pad (data : List UInt8) :
    ∃ values pad, bech32ConvertBits data 8 5 true = .ok values ∧ AllBelow 5 values ∧ pad < 5 ∧
      bitsOf 5 values = bitsOf 8 data ++ List.replicate pad false := by
  obtain ⟨done, hdone⟩ := regroup_bytes 5 0 0 data
  obtain ⟨hstream, hbits, hbelow⟩ := regroup_spec (by omega) (by omega) (by omega) (by omega) hdone
  have hconvert : bech32ConvertBits data 8 5 true = .ok (if done.bits > 0 then done.result ++
      [UInt8.ofBitVec (((done.accumulator <<< (5 - done.bits)) &&&
        BitVec.ofNat 64 (2 ^ 5 - 1)).setWidth 8)] else done.result) :=
    bind_eq_ok.mpr ⟨(), revertIf_eq_ok.mpr (by decide), bind_eq_ok.mpr ⟨done, hdone, rfl⟩⟩
  have hdata : bitsOf 8 data = bitsOf 5 done.result ++ bitsDown done.accumulator done.bits := hstream
  by_cases hmore : done.bits > 0
  · rw [if_pos hmore] at hconvert
    refine ⟨_, 5 - done.bits, hconvert, ?_, by omega, ?_⟩
    · refine List.forall_mem_append.mpr ⟨hbelow, List.forall_mem_singleton.mpr ?_⟩
      exact below_padded done.accumulator (5 - done.bits)
    · have hlast := @bitsDown_padded 5 done.bits done.accumulator (by omega) (by omega)
      rw [hdata, List.append_assoc, ← hlast]
      exact List.flatMap_append.trans (congrArg _ (List.append_nil _))
  · rw [if_neg hmore] at hconvert
    have hnone : done.bits = 0 := by omega
    refine ⟨_, 0, hconvert, hbelow, by omega, ?_⟩
    rw [hdata, hnone, List.replicate_zero, List.append_nil]
    exact (List.append_nil _).symm

/-- Values of five bits are regrouped. -/
theorem regroup_below {toBits : Nat} {data : List UInt8} (h : AllBelow 5 data) (acc : BitVec 64)
    (bits : Nat) : ∃ done, regroup 5 toBits acc bits data = .ok done := by
  induction data generalizing acc bits with
  | nil => exact ⟨_, rfl⟩
  | cons v rest ih =>
      obtain ⟨hv, hrest⟩ := List.forall_mem_cons.mp h
      have hshift : v.toBitVec >>> 5 = 0 := by
        refine BitVec.eq_of_getLsbD_eq fun i _ => ?_
        rw [BitVec.getLsbD_ushiftRight, hv (5 + i) (Nat.le_add_right 5 i)]
        exact BitVec.getLsbD_zero.symm
      obtain ⟨more, hmore⟩ := ih hrest (acc <<< 5 ||| v.toBitVec.setWidth 64)
        (emitGroups toBits (acc <<< 5 ||| v.toBitVec.setWidth 64) (bits + 5) (bits + 5)).2
      exact ⟨_, bind_eq_ok.mpr ⟨(), revertIf_eq_ok.mpr (not_not.mpr hshift),
        bind_eq_ok.mpr ⟨more, hmore, rfl⟩⟩⟩

/-- Zeros that are left over leave no padding behind. -/
theorem padding_zero {acc : BitVec 64} {bits : Nat} (hbits : bits ≤ 8)
    (h : bitsDown acc bits = List.replicate bits false) :
    (acc <<< (8 - bits)) &&& BitVec.ofNat 64 (2 ^ 8 - 1) = 0 := by
  have hacc : ∀ i < bits, acc.getLsbD i = (0#64).getLsbD i := by
    refine bitsDown_eq_iff.mp (h.trans ?_)
    clear h
    induction bits with
    | zero => rfl
    | succ w ih => rw [bitsDown, ← ih (by omega), BitVec.getLsbD_zero, List.replicate_succ]
  refine BitVec.eq_of_getLsbD_eq fun i hi => ?_
  show _ = (0#64).getLsbD i
  rw [BitVec.getLsbD_and, BitVec.getLsbD_ofNat, Nat.testBit_two_pow_sub_one, BitVec.getLsbD_zero,
    BitVec.getLsbD_shiftLeft]
  by_cases h8 : i < 8
  · by_cases hlow : i < 8 - bits
    · simp [hlow]
    · rw [hacc (i - (8 - bits)) (by omega), BitVec.getLsbD_zero, Bool.and_false, Bool.false_and]
  · simp [h8]

/-- Bytes in groups of five bits with padding, and back: the same bytes. -/
theorem convertBits_roundtrip (data : List UInt8) :
    ∃ values, bech32ConvertBits data 8 5 true = .ok values ∧ AllBelow 5 values ∧
      bech32ConvertBits values 5 8 false = .ok data := by
  obtain ⟨values, pad, hforward, hbelow, hpad, hbits⟩ := convertBits_pad data
  obtain ⟨done, hdone⟩ := @regroup_below 8 values hbelow 0 0
  obtain ⟨hstream, hleft, -⟩ := regroup_spec (by omega) (by omega) (by omega) (by omega) hdone
  have hback : bitsOf 8 data ++ List.replicate pad false =
      bitsOf 8 done.result ++ bitsDown done.accumulator done.bits := hbits.symm.trans hstream
  -- both sides are whole bytes and fewer than eight more bits
  have hcount : data.length * 8 + pad = done.result.length * 8 + done.bits := by
    have hlengths := congrArg List.length hback
    simp only [List.length_append, length_bitsDown, length_bitsOf, List.length_replicate] at hlengths
    exact hlengths
  have hlengths : (bitsOf 8 data).length = (bitsOf 8 done.result).length := by
    rw [length_bitsOf, length_bitsOf]
    omega
  have hdoneBits : done.bits = pad := by omega
  obtain ⟨hsame, hrest⟩ := List.append_inj hback hlengths
  have hresult : done.result = data :=
    (eq_of_bitsOf (by omega) (allBelow_bytes data) (allBelow_bytes done.result) hsame).symm
  have hzero := padding_zero (by omega) (hrest.symm.trans (by rw [hdoneBits]))
  refine ⟨values, hforward, hbelow, ?_⟩
  refine bind_eq_ok.mpr ⟨(), revertIf_eq_ok.mpr (by decide), bind_eq_ok.mpr ⟨done, hdone, ?_⟩⟩
  simp only [Bool.false_eq_true, if_false]
  refine bind_eq_ok.mpr ⟨(), revertIf_eq_ok.mpr (by omega), ?_⟩
  refine bind_eq_ok.mpr ⟨(), revertIf_eq_ok.mpr (not_not.mpr hzero), ?_⟩
  rw [hresult]
  rfl

/-! ## Texts -/

/-- The character of a value is found at the value. -/
theorem idxOf_charset {v : UInt8} (hv : Below 5 v.toBitVec) :
    bech32Charset.idxOf? (bech32Charset.getD v.toNat 0) = some v.toNat := by
  have hlt : v.toNat < 32 := by
    refine Nat.lt_of_not_le fun hle => ?_
    obtain ⟨i, hi, hbit⟩ := Nat.exists_ge_and_testBit_of_ge_two_pow (show 2 ^ 5 ≤ v.toNat from hle)
    have hlow := hv i hi
    rw [show v.toBitVec.getLsbD i = v.toNat.testBit i from rfl, hbit] at hlow
    cases hlow
  have hall : ∀ i < 32, bech32Charset.idxOf? (bech32Charset.getD i 0) = some i := by decide +kernel
  exact hall v.toNat hlt

/-- The decoder reads the values that were written. -/
theorem charValues_written {values : List UInt8} (h : AllBelow 5 values) :
    charValues ((values.map fun v => bech32Charset.getD v.toNat 0).map fun c => (c.toNat, 1)) =
      .ok values := by
  induction values with
  | nil => rfl
  | cons v rest ih =>
      obtain ⟨hv, hrest⟩ := List.forall_mem_cons.mp h
      rw [List.map_cons, List.map_cons, charValues, UInt8.ofNat_toNat, idxOf_charset hv]
      refine bind_eq_ok.mpr ⟨rest, ih hrest, ?_⟩
      rw [UInt8.ofNat_toNat]
      rfl

/-- A separator that the rest of the text does not hold is the last one. -/
theorem lastIndexByte_append {hrp rest : Bytes} {c : UInt8} (h : c ∉ rest) :
    lastIndexByte (hrp ++ c :: rest) c = some hrp.length := by
  have hreverse : (hrp ++ c :: rest).reverse = rest.reverse ++ c :: hrp.reverse := by simp
  have hindex : (rest.reverse ++ c :: hrp.reverse).idxOf? c = some rest.length := by
    refine List.idxOf?_eq_some_iff.mpr ⟨by simp, by simp, fun j hj => ?_⟩
    have hin : j < rest.reverse.length := by
      rw [List.length_reverse]
      exact hj
    rw [List.getElem_append_left hin]
    exact fun heq => h (List.mem_reverse.mp (heq ▸ List.getElem_mem hin))
  rw [lastIndexByte, hreverse, hindex, Option.map_some]
  congr 1
  simp only [List.length_append, List.length_cons]
  omega

/-- Characters of the charset are lower-case ASCII and no separator. -/
theorem charset_lower (i : Nat) : bech32Charset.getD i 0 < 0x80 ∧
    ¬ (0x41 ≤ (bech32Charset.getD i 0).toNat ∧ (bech32Charset.getD i 0).toNat ≤ 0x5a) ∧
      bech32Charset.getD i 0 ≠ 0x31 := by
  by_cases hlt : i < bech32Charset.length
  · have hall : ∀ c ∈ bech32Charset, c < 0x80 ∧ ¬ (0x41 ≤ c.toNat ∧ c.toNat ≤ 0x5a) ∧ c ≠ 0x31 := by
      decide +kernel
    rw [List.getD_eq_getElem _ _ hlt]
    exact hall _ (List.getElem_mem hlt)
  · rw [List.getD_eq_default _ _ (Nat.le_of_not_lt hlt)]
    decide

/-- ASCII without capitals is lower case. -/
theorem isLower_ascii (u : UnicodeCase) {value : Bytes} (hascii : ∀ c ∈ value, c < 0x80)
    (hlower : ∀ c ∈ value, ¬ (0x41 ≤ c.toNat ∧ c.toNat ≤ 0x5a)) : u.isLower value = true := by
  unfold UnicodeCase.isLower
  rw [runes_ascii hascii, List.all_eq_true]
  intro rune hrune
  obtain ⟨c, hc, rfl⟩ := List.mem_map.mp hrune
  have hsmall : c.toNat < 0x80 := hascii c hc
  have hne : c.toNat ≠ runeError := by
    unfold runeError
    omega
  rw [u.ascii c.toNat hsmall, if_neg (hlower c hc)]
  simp [hne]

/-- A text of the charset after `inj1` is lower-case ASCII with one separator. -/
theorem written_lower (u : UnicodeCase) (values : List UInt8) :
    let text := values.map fun v => bech32Charset.getD v.toNat 0
    (∀ c ∈ text, c < 0x80) ∧ u.isLower (injPrefix ++ 0x31 :: text) = true ∧
      lastIndexByte (injPrefix ++ 0x31 :: text) 0x31 = some 3 := by
  intro text
  have hascii : ∀ c ∈ text, c < 0x80 := List.forall_mem_map.mpr fun v _ => (charset_lower v.toNat).1
  have hcapital : ∀ c ∈ text, ¬ (0x41 ≤ c.toNat ∧ c.toNat ≤ 0x5a) :=
    List.forall_mem_map.mpr fun v _ => (charset_lower v.toNat).2.1
  have hhrp : ∀ c ∈ injPrefix ++ [0x31], c < 0x80 ∧ ¬ (0x41 ≤ c.toNat ∧ c.toNat ≤ 0x5a) := by
    decide +kernel
  have hsplit : injPrefix ++ 0x31 :: text = injPrefix ++ [0x31] ++ text := by simp
  refine ⟨hascii, ?_, lastIndexByte_append fun hmem => ?_⟩
  · rw [hsplit]
    refine isLower_ascii u (List.forall_mem_append.mpr ⟨fun c hc => (hhrp c hc).1, hascii⟩) ?_
    exact List.forall_mem_append.mpr ⟨fun c hc => (hhrp c hc).2, hcapital⟩
  · obtain ⟨v, -, hv⟩ := List.mem_map.mp hmem
    exact (charset_lower v.toNat).2.2 hv

/-- The decoder accepts what is written of data and their checksum. -/
theorem decode_written (u : UnicodeCase) {data checksum payload : List UInt8}
    (hall : AllBelow 5 (data ++ checksum)) (hchecksum : checksum.length = 6)
    (hverify : bech32VerifyChecksum injPrefix (data ++ checksum) = true)
    (hconvert : bech32ConvertBits data 5 8 false = .ok payload) (hlength : payload.length = 20) :
    decodeBech32Address u (injPrefix ++ 0x31 ::
      (data ++ checksum).map fun v => bech32Charset.getD v.toNat 0) = .ok payload := by
  obtain ⟨hascii, hlower, hseparator⟩ := written_lower u (data ++ checksum)
  have hvalues := charValues_written hall
  rw [← runes_ascii hascii] at hvalues
  have hdata : (data ++ checksum).take ((data ++ checksum).length - 6) = data := by
    rw [List.length_append, hchecksum, Nat.add_sub_cancel, List.take_left]
  have hprefix : injPrefix.length = 3 := rfl
  generalize htext : (data ++ checksum).map (fun v => bech32Charset.getD v.toNat 0) = text at *
  have hcount : text.length = data.length + 6 := by
    rw [← htext, List.length_map, List.length_append, hchecksum]
  have hhrp : (injPrefix ++ 0x31 :: text).take 3 = injPrefix := rfl
  have hrest : (injPrefix ++ 0x31 :: text).drop (3 + 1) = text := rfl
  unfold decodeBech32Address
  refine bind_eq_ok.mpr ⟨(), revertIf_eq_ok.mpr ?_, ?_⟩
  · rw [hlower]
    simp
  rw [hseparator]
  dsimp only
  rw [hhrp, hrest]
  refine bind_eq_ok.mpr ⟨(), revertIf_eq_ok.mpr ?_, ?_⟩
  · simp only [List.length_append, List.length_cons, hprefix, hcount]
    omega
  refine bind_eq_ok.mpr ⟨(), revertIf_eq_ok.mpr (not_not.mpr rfl), ?_⟩
  refine bind_eq_ok.mpr ⟨data ++ checksum, hvalues, ?_⟩
  refine bind_eq_ok.mpr ⟨(), revertIf_eq_ok.mpr ?_, ?_⟩
  · show ¬ bech32VerifyChecksum injPrefix (data ++ checksum) = false
    rw [hverify]
    decide
  refine bind_eq_ok.mpr ⟨payload, ?_, bind_eq_ok.mpr ⟨(), revertIf_eq_ok.mpr ?_, rfl⟩⟩
  · rw [hdata]
    exact hconvert
  · exact not_not.mpr hlength

/-- The address of twenty bytes is decoded to them. The checksum and the regrouping behind it work for
data of any length. -/
theorem bech32_decode_encode (u : UnicodeCase) (payload : List UInt8) (hlength : payload.length = 20) :
    decodeBech32Address u (encodeBech32Address injPrefix payload) = .ok payload ∧
      (∀ hrp values, bech32VerifyChecksum hrp (values ++ bech32Checksum hrp values) = true) ∧
      ∀ data, ∃ values, bech32ConvertBits data 8 5 true = .ok values ∧
        bech32ConvertBits values 5 8 false = .ok data := by
  refine ⟨?_, verify_checksum, fun data => ?_⟩
  · obtain ⟨values, hforward, hbelow, hback⟩ := convertBits_roundtrip payload
    have hchecksum : (bech32Checksum injPrefix values).length = 6 := by
      rw [bech32Checksum, List.length_map, List.length_range]
    have hall : AllBelow 5 (values ++ bech32Checksum injPrefix values) :=
      List.forall_mem_append.mpr ⟨hbelow, allBelow_groups _⟩
    have hencode : encodeBech32Address injPrefix payload = injPrefix ++ 0x31 ::
        (values ++ bech32Checksum injPrefix values).map fun value =>
          bech32Charset.getD value.toNat 0 := by
      rw [encodeBech32Address, hforward]
    rw [hencode]
    exact decode_written u hall hchecksum (verify_checksum injPrefix values) hback hlength
  · obtain ⟨values, hforward, -, hback⟩ := convertBits_roundtrip data
    exact ⟨values, hforward, hback⟩

namespace Sample

/-- The address of twenty ones. -/
theorem ones_decoded :
    decodeBech32Address asciiCase (encodeBech32Address injPrefix (List.replicate 20 1)) =
      .ok (List.replicate 20 1) :=
  (bech32_decode_encode asciiCase (List.replicate 20 1) rfl).1

end Sample

end Igit.Chain
