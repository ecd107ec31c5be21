import Igit.Library.Numerals
import Igit.Remote.Url

/-!
# INJ amounts

`parseINJ` of `cli/cmd/igit/main.go`, which turns a decimal amount into base units, and `evmINJValue`
of `cli/internal/chain/evm_suite_values.go`, which turns these into the quantity a transaction sends.
`Spells` says what a decimal is: digits with at most one point, and perhaps `inj` after them. The two
functions together accept exactly the positive decimals of at most eighteen places and send their
value times 10^18 (`parseINJ_exact`).
-/

namespace Igit.Client

open Fallible
open Migration (ascii)
open Remote (trimBack trimBack_append trimBack_of_not)

/-- The errors of both functions. -/
inductive AmountError where
  | tooManyDecimals (amount : Bytes)
  | invalidAmount (amount : Bytes)
  | notPositive
  | notBaseUnits
  | invalidBaseUnits (amount : Bytes)
  deriving DecidableEq, Repr

/-- `strings.Cut` at a point. -/
def cutPoint (text : Bytes) : Bytes × Bytes :=
  (text.takeWhile (· != 0x2e), (text.dropWhile (· != 0x2e)).drop 1)

/-- A decimal digit. -/
def isDigitRune (rune : Nat) : Bool := decide (0x30 ≤ rune) && decide (rune ≤ 0x39)

/-- The digits of both parts of an amount, padded to eighteen places. -/
def paddedDigits (whole frac : Bytes) : Bytes :=
  whole ++ (frac ++ List.replicate (18 - frac.length) 0x30)

/-- `parseINJ`. -/
def parseINJ (s : Bytes) : Except AmountError Bytes := do
  let (whole, frac) := cutPoint (trimBack (ascii "inj") s)
  let whole := if whole = [] then ascii "0" else whole
  revertIf (frac.length > 18) (.tooManyDecimals s)
  let digits := paddedDigits whole frac
  revertIf (((Runes.runes digits).all fun rune => isDigitRune rune.1) = false) (.invalidAmount s)
  let base := digits.dropWhile (· == 0x30)
  revertIf (base = []) .notPositive
  pure (base ++ ascii "inj")

/-- `SetString` of a `big.Int`, with base ten. -/
def setString (text : Bytes) : Option Int :=
  match text with
  | 0x2d :: rest => (parseDecimal rest).map fun n => -(n : Int)
  | 0x2b :: rest => (parseDecimal rest).map Int.ofNat
  | _ => (parseDecimal text).map Int.ofNat

/-- `Text` of a `big.Int`, with base sixteen. -/
def hexText (n : Nat) : Bytes := (Nat.toDigits 16 n).map fun c => UInt8.ofNat c.toNat

/-- A JSON-RPC quantity. -/
def quantity (n : Nat) : Bytes := ascii "0x" ++ hexText n

/-- `evmINJValue`. -/
def evmINJValue (amount : Bytes) : Except AmountError Bytes := do
  let value := Runes.trimSpace amount
  revertIf ((ascii "inj").isSuffixOf value = false) .notBaseUnits
  let integer ← demand (setString (trimBack (ascii "inj") value)) (.invalidBaseUnits amount)
  revertIf (integer ≤ 0) (.invalidBaseUnits amount)
  pure (quantity integer.toNat)

/-! ## Decimals -/

/-- A text that is a decimal, with the digits before and after its point. Either may be missing, and
`inj` may follow. -/
structure Spells (s whole frac : Bytes) : Prop where
  whole_digits : whole.all isDigitByte = true
  frac_digits : frac.all isDigitByte = true
  text : ∃ body, (s = body ∨ s = body ++ ascii "inj") ∧
    (body = whole ∧ frac = [] ∨ body = whole ++ 0x2e :: frac)

/-- The value of a decimal. -/
def decimalValue (whole frac : Bytes) : ℚ :=
  digitsValue whole + digitsValue frac / 10 ^ frac.length

/-- A decimal of at most eighteen places in base units. -/
def baseUnits (whole frac : Bytes) : Nat :=
  digitsValue whole * 10 ^ 18 + digitsValue frac * 10 ^ (18 - frac.length)

/-- Base units are the value of a decimal times 10^18. -/
theorem baseUnits_eq {whole frac : Bytes} (h : frac.length ≤ 18) :
    (baseUnits whole frac : ℚ) = decimalValue whole frac * 10 ^ 18 := by
  have hsplit : (10 : ℚ) ^ 18 = 10 ^ frac.length * 10 ^ (18 - frac.length) := by
    rw [← pow_add, Nat.add_sub_cancel' h]
  have hfrac : (digitsValue frac : ℚ) / 10 ^ frac.length * 10 ^ 18 =
      digitsValue frac * 10 ^ (18 - frac.length) := by
    rw [hsplit, ← mul_assoc, div_mul_cancel₀ _ (pow_ne_zero _ (by norm_num))]
  unfold baseUnits decimalValue
  rw [add_mul, hfrac]
  push_cast
  norm_num

theorem baseUnits_pos_iff {whole frac : Bytes} (h : frac.length ≤ 18) :
    0 < baseUnits whole frac ↔ 0 < decimalValue whole frac := by
  rw [← Nat.cast_pos (α := ℚ), baseUnits_eq h]
  exact mul_pos_iff_of_pos_right (by norm_num)

theorem digitsValue_paddedDigits {whole frac : Bytes} (h : frac.length ≤ 18) :
    digitsValue (paddedDigits whole frac) = baseUnits whole frac := by
  rw [paddedDigits, digitsValue_append, digitsValue_append, digitsValue_zeros, List.length_append,
    List.length_replicate, Nat.add_sub_cancel' h, Nat.add_zero]
  rfl

theorem paddedDigits_all {whole frac : Bytes} :
    (paddedDigits whole frac).all isDigitByte = true ↔
      whole.all isDigitByte = true ∧ frac.all isDigitByte = true := by
  have hzeros : (List.replicate (18 - frac.length) (0x30 : UInt8)).all isDigitByte = true :=
    List.all_eq_true.mpr fun c hc => by rw [List.eq_of_mem_replicate hc]; rfl
  rw [paddedDigits, List.all_append, List.all_append, hzeros, Bool.and_true, Bool.and_eq_true]

/-! ## Reading a text -/

/-- A suffix is dropped or was not there. -/
theorem trimBack_eq (back value : Bytes) :
    value = trimBack back value ∨ value = trimBack back value ++ back := by
  by_cases h : back <:+ value
  · obtain ⟨body, rfl⟩ := h
    exact Or.inr (by rw [trimBack_append])
  · exact Or.inl (trimBack_of_not h).symm

theorem cutPoint_append {whole : Bytes} (frac : Bytes) (h : 0x2e ∉ whole) :
    cutPoint (whole ++ 0x2e :: frac) = (whole, frac) := by
  have hall : ∀ c ∈ whole, (c != 0x2e) = true := fun c hc => bne_iff_ne.mpr fun heq => h (heq ▸ hc)
  simp [cutPoint, List.takeWhile_append_of_pos hall, List.dropWhile_append_of_pos hall]

theorem cutPoint_of_notMem {text : Bytes} (h : 0x2e ∉ text) : cutPoint text = (text, []) := by
  have hall : ∀ c ∈ text, (c != 0x2e) = true := fun c hc => bne_iff_ne.mpr fun heq => h (heq ▸ hc)
  simp [cutPoint, List.takeWhile_eq_self_iff.mpr hall, List.dropWhile_eq_nil_iff.mpr hall]

/-- The two parts of a text, and the point between them when there is one. -/
theorem cutPoint_eq (text : Bytes) :
    text = (cutPoint text).1 ∧ (cutPoint text).2 = [] ∨
      text = (cutPoint text).1 ++ 0x2e :: (cutPoint text).2 := by
  by_cases h : 0x2e ∈ text
  · obtain ⟨whole, frac, rfl, hwhole⟩ := List.eq_append_cons_of_mem h
    exact Or.inr (by rw [cutPoint_append frac hwhole])
  · exact Or.inl (by rw [cutPoint_of_notMem h]; exact ⟨rfl, rfl⟩)

theorem isDigitRune_lt {n : Nat} (h : isDigitRune n = true) : n < 0x80 := by
  rw [isDigitRune, Bool.and_eq_true, decide_eq_true_eq, decide_eq_true_eq] at h
  omega

/-- The runes of a text are digits when its bytes are. -/
theorem runes_all_digits (text : Bytes) :
    ((Runes.runes text).all fun rune => isDigitRune rune.1) = text.all isDigitByte := by
  rw [Runes.all_runes (fun _ => isDigitRune_lt)]
  -- both tests compare the code of a byte with the same bounds
  exact congrArg text.all (funext fun c => rfl)

/-- A zero in the place of a missing whole part is trimmed again. -/
theorem paddedDigits_orZero (whole frac : Bytes) :
    (paddedDigits (if whole = [] then ascii "0" else whole) frac).dropWhile (· == 0x30) =
      (paddedDigits whole frac).dropWhile (· == 0x30) := by
  cases whole with
  | nil =>
      show (0x30 :: paddedDigits [] frac).dropWhile (· == 0x30) = _
      exact List.dropWhile_cons_of_pos rfl
  | cons c rest => rfl

theorem orZero_all (whole : Bytes) :
    (if whole = [] then ascii "0" else whole).all isDigitByte = whole.all isDigitByte := by
  cases whole with
  | nil => decide +kernel
  | cons c rest => rfl

/-- What `parseINJ` does once the text is cut: it wants digits, at most eighteen of them after the
point, and one that is not zero. -/
theorem parseINJ_eq_ok {s base : Bytes} :
    parseINJ s = .ok base ↔ ∃ whole frac, cutPoint (trimBack (ascii "inj") s) = (whole, frac) ∧
      whole.all isDigitByte = true ∧ frac.all isDigitByte = true ∧ frac.length ≤ 18 ∧
      0 < baseUnits whole frac ∧
      base = (paddedDigits whole frac).dropWhile (· == 0x30) ++ ascii "inj" := by
  cases hcut : cutPoint (trimBack (ascii "inj") s) with
  | mk whole frac =>
      simp only [parseINJ, hcut, bind_eq_ok, exists_unit, revertIf_eq_ok, pure_eq_ok,
        runes_all_digits, paddedDigits_orZero, Bool.not_eq_false, paddedDigits_all, orZero_all]
      constructor
      · rintro ⟨hlength, ⟨hwhole, hfrac⟩, hpositive, rfl⟩
        have hle : frac.length ≤ 18 := Nat.not_lt.mp hlength
        have hdigits := paddedDigits_all.mpr ⟨hwhole, hfrac⟩
        refine ⟨whole, frac, rfl, hwhole, hfrac, hle, ?_, rfl⟩
        rw [← digitsValue_paddedDigits hle]
        exact (digitsValue_pos_iff hdigits).mpr hpositive
      · rintro ⟨first, second, heq, hwhole, hfrac, hle, hpositive, rfl⟩
        obtain ⟨rfl, rfl⟩ := Prod.mk.inj heq
        rw [← digitsValue_paddedDigits hle] at hpositive
        have hdigits := paddedDigits_all.mpr ⟨hwhole, hfrac⟩
        exact ⟨Nat.not_lt.mpr hle, ⟨hwhole, hfrac⟩, (digitsValue_pos_iff hdigits).mp hpositive, rfl⟩

/-- Digits hold no byte outside their range. -/
theorem notMem_digits {digits : Bytes} {c : UInt8} (h : digits.all isDigitByte = true)
    (hc : isDigitByte c = false) : c ∉ digits := by
  intro hmem
  rw [List.all_eq_true.mp h c hmem] at hc
  cases hc

/-- The parts of a decimal are those it is cut into. -/
theorem Spells.cut {s whole frac : Bytes} (h : Spells s whole frac) :
    cutPoint (trimBack (ascii "inj") s) = (whole, frac) := by
  obtain ⟨hwhole, hfrac, body, htext, hbody⟩ := h
  have hpoint : 0x2e ∉ whole := notMem_digits hwhole rfl
  -- no decimal ends in the unit, so only a unit written after it is dropped
  have hunit : ¬ ascii "inj" <:+ body := by
    intro hsuffix
    have hmem : 0x6a ∈ body := hsuffix.mem (by decide +kernel)
    have hwhole' : 0x6a ∉ whole := notMem_digits hwhole rfl
    have hfrac' : 0x6a ∉ frac := notMem_digits hfrac rfl
    rcases hbody with ⟨rfl, -⟩ | rfl
    · exact hwhole' hmem
    · simp [hwhole', hfrac'] at hmem
  have htrim : trimBack (ascii "inj") s = body := by
    rcases htext with rfl | rfl
    · exact trimBack_of_not hunit
    · exact trimBack_append _ _
  rw [htrim]
  rcases hbody with ⟨rfl, rfl⟩ | rfl
  · exact cutPoint_of_notMem hpoint
  · exact cutPoint_append frac hpoint

/-- Two parts made of digits spell the text they were cut from. -/
theorem spells_of_cut {s whole frac : Bytes}
    (h : cutPoint (trimBack (ascii "inj") s) = (whole, frac)) (hwhole : whole.all isDigitByte = true)
    (hfrac : frac.all isDigitByte = true) : Spells s whole frac := by
  have hparts := cutPoint_eq (trimBack (ascii "inj") s)
  rw [h] at hparts
  exact ⟨hwhole, hfrac, trimBack (ascii "inj") s, trimBack_eq _ s, hparts⟩

/-! ## The quantity sent -/

/-- A text of digits is read as a number. -/
theorem setString_digits {digits : Bytes} (hne : digits ≠ []) (h : digits.all isDigitByte = true) :
    setString digits = some (digitsValue digits : Int) := by
  have hminus : 0x2d ∉ digits := notMem_digits h rfl
  have hplus : 0x2b ∉ digits := notMem_digits h rfl
  have hparse : parseDecimal digits = some (digitsValue digits) := if_pos ⟨hne, h⟩
  unfold setString
  split
  · exact absurd List.mem_cons_self hminus
  · exact absurd List.mem_cons_self hplus
  · rw [hparse]
    rfl

/-- Base units are sent as the quantity they stand for. -/
theorem evmINJValue_digits {digits : Bytes} (h : digits.all isDigitByte = true)
    (hpos : 0 < digitsValue digits) :
    evmINJValue (digits ++ ascii "inj") = .ok (quantity (digitsValue digits)) := by
  have hne : digits ≠ [] := by
    rintro rfl
    exact absurd hpos (by decide)
  have hspace : ∀ c : UInt8, isDigitByte c = true → c < 0x80 ∧ Runes.isSpace c.toNat = false := by
    decide +kernel
  have hunit : ∀ c ∈ ascii "inj", c < 0x80 := by decide +kernel
  have htrim : Runes.trimSpace (digits ++ ascii "inj") = digits ++ ascii "inj" := by
    refine Runes.trimSpace_eq_self (fun c hc => ?_) (fun c hc => ?_) (fun c hc => ?_)
    · rcases List.mem_append.mp hc with hc | hc
      · exact (hspace c (List.all_eq_true.mp h c hc)).1
      · exact hunit c hc
    · rw [List.head?_append_of_ne_nil _ hne] at hc
      exact (hspace c (List.all_eq_true.mp h c (List.mem_of_mem_head? hc))).2
    · have hlast : (digits ++ ascii "inj").getLast? = some 0x6a := by
        rw [List.getLast?_append]
        rfl
      rw [hlast, Option.mem_some_iff] at hc
      subst hc
      decide +kernel
  have hsuffix : (ascii "inj").isSuffixOf (digits ++ ascii "inj") = true :=
    List.isSuffixOf_iff_suffix.mpr (List.suffix_append _ _)
  have hnonneg : ¬ (digitsValue digits : Int) ≤ 0 := by omega
  simp only [evmINJValue, htrim, hsuffix, trimBack_append, setString_digits hne h, bind_eq_ok,
    exists_unit, revertIf_eq_ok, demand_eq_ok, pure_eq_ok]
  exact ⟨by decide, _, rfl, hnonneg, rfl⟩

/-- An amount is taken exactly when its text is a positive decimal of at most eighteen places, and
what is then sent is the quantity of its value times 10^18. -/
theorem parseINJ_exact (s : Bytes) :
    ((∃ base, parseINJ s = .ok base) ↔
      ∃ whole frac, Spells s whole frac ∧ frac.length ≤ 18 ∧ 0 < decimalValue whole frac) ∧
    ∀ base whole frac, parseINJ s = .ok base → Spells s whole frac →
      ∃ n : Nat, evmINJValue base = .ok (quantity n) ∧ (n : ℚ) = decimalValue whole frac * 10 ^ 18 := by
  refine ⟨⟨?_, ?_⟩, ?_⟩
  · rintro ⟨base, h⟩
    obtain ⟨whole, frac, hcut, hwhole, hfrac, hle, hpositive, -⟩ := parseINJ_eq_ok.mp h
    exact ⟨whole, frac, spells_of_cut hcut hwhole hfrac, hle, (baseUnits_pos_iff hle).mp hpositive⟩
  · rintro ⟨whole, frac, hspells, hle, hpositive⟩
    exact ⟨_, parseINJ_eq_ok.mpr ⟨whole, frac, hspells.cut, hspells.whole_digits,
      hspells.frac_digits, hle, (baseUnits_pos_iff hle).mpr hpositive, rfl⟩⟩
  · intro base whole frac h hspells
    obtain ⟨whole', frac', hcut, hwhole, hfrac, hle, hpositive, rfl⟩ := parseINJ_eq_ok.mp h
    obtain ⟨rfl, rfl⟩ := Prod.mk.inj (hspells.cut.symm.trans hcut)
    have hdigits : ((paddedDigits whole frac).dropWhile (· == 0x30)).all isDigitByte = true :=
      List.all_eq_true.mpr fun c hc => List.all_eq_true.mp (paddedDigits_all.mpr ⟨hwhole, hfrac⟩) c
        ((List.dropWhile_sublist _).mem hc)
    have hvalue : digitsValue ((paddedDigits whole frac).dropWhile (· == 0x30)) =
        baseUnits whole frac := by
      rw [digitsValue_dropWhile, digitsValue_paddedDigits hle]
    exact ⟨_, evmINJValue_digits hdigits (hvalue ▸ hpositive), by rw [hvalue, baseUnits_eq hle]⟩

namespace Sample

/-- Half an INJ is 5·10^17 base units. -/
theorem half_inj_sent : Spells (ascii ".5inj") [] (ascii "5") ∧
    parseINJ (ascii ".5inj") = .ok (ascii "500000000000000000inj") ∧
    ∃ n : Nat, evmINJValue (ascii "500000000000000000inj") = .ok (quantity n) ∧
      (n : ℚ) = decimalValue [] (ascii "5") * 10 ^ 18 := by
  have hspells : Spells (ascii ".5inj") [] (ascii "5") :=
    ⟨rfl, by decide +kernel, ascii ".5", Or.inr (by decide +kernel), Or.inr (by decide +kernel)⟩
  have hparse : parseINJ (ascii ".5inj") = .ok (ascii "500000000000000000inj") := by decide +kernel
  exact ⟨hspells, hparse, (parseINJ_exact _).2 _ _ _ hparse hspells⟩

end Sample

end Igit.Client
