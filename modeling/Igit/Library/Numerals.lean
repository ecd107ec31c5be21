import Mathlib

/-!
# Decimal numerals

The decimal text of a number in ASCII bytes, and how a text is read as one. Reading gives back the
number a numeral was written for (`parseDecimal_decimal`), so that two numbers with one numeral are
one number (`decimal_injective`). A numeral has digits only (`isDigit_of_mem_decimal`). `digitsValue`
is the number that digits with zeros in front stand for.
-/

namespace Igit

/-- An ASCII digit. -/
def isDigitByte (c : UInt8) : Bool := 0x30 ≤ c && c ≤ 0x39

/-- The decimal text of a number. -/
def decimal (n : Nat) : List UInt8 := (Nat.toDigits 10 n).map fun c => UInt8.ofNat c.toNat

/-- The number that digits stand for. -/
def digitsValue (digits : List UInt8) : Nat :=
  digits.foldl (fun sofar c => 10 * sofar + (c.toNat - 0x30)) 0

/-- The number a text stands for, when it is made of digits. -/
def parseDecimal (text : List UInt8) : Option Nat :=
  if text ≠ [] ∧ text.all isDigitByte then some (digitsValue text) else none

/-- The digits of a numeral are the codes from zero to nine. -/
theorem digit_range {n : Nat} {c : Char} (h : c ∈ Nat.toDigits 10 n) :
    0x30 ≤ c.toNat ∧ c.toNat ≤ 0x39 := by
  have hdigit := Nat.isDigit_of_mem_toDigits (by omega) (by omega) h
  rw [Char.isDigit, Bool.and_eq_true, decide_eq_true_eq, decide_eq_true_eq, ge_iff_le,
    UInt32.le_iff_toNat_le, UInt32.le_iff_toNat_le] at hdigit
  exact hdigit

theorem toNat_digit {n : Nat} {c : Char} (h : c ∈ Nat.toDigits 10 n) :
    (UInt8.ofNat c.toNat).toNat = c.toNat := by
  obtain ⟨-, hle⟩ := digit_range h
  exact UInt8.toNat_ofNat_of_lt' (show c.toNat < 256 by omega)

/-- A numeral has digits only. -/
theorem isDigit_of_mem_decimal {n : Nat} {c : UInt8} (h : c ∈ decimal n) :
    isDigitByte c = true := by
  obtain ⟨digit, hdigit, rfl⟩ := List.mem_map.mp h
  obtain ⟨hge, hle⟩ := digit_range hdigit
  simp only [isDigitByte, Bool.and_eq_true, decide_eq_true_eq, UInt8.le_iff_toNat_le,
    toNat_digit hdigit]
  exact ⟨hge, hle⟩

theorem decimal_ne_nil (n : Nat) : decimal n ≠ [] := by
  rw [decimal, ne_eq, List.map_eq_nil_iff]
  exact Nat.toDigits_ne_nil

/-- A numeral is read as the number it was written for. -/
@[simp] theorem parseDecimal_decimal (n : Nat) : parseDecimal (decimal n) = some n := by
  have hdigits : (decimal n).all isDigitByte = true :=
    List.all_eq_true.mpr fun c hc => isDigit_of_mem_decimal hc
  have hvalue : digitsValue (decimal n) = n := by
    have hfold : ∀ (digits : List Char) (start : Nat), (∀ c ∈ digits, c ∈ Nat.toDigits 10 n) →
        (digits.map fun c => UInt8.ofNat c.toNat).foldl
          (fun sofar c => 10 * sofar + (c.toNat - 0x30)) start =
          Nat.ofDigitChars 10 digits start := by
      intro digits
      induction digits with
      | nil => exact fun _ _ => rfl
      | cons c rest ih =>
          intro start h
          obtain ⟨hc, hrest⟩ := List.forall_mem_cons.mp h
          rw [List.map_cons, List.foldl_cons, toNat_digit hc, ih _ hrest]
          rfl
    rw [digitsValue, decimal, hfold _ 0 fun _ h => h]
    exact Nat.ofDigitChars_ten_toDigits
  rw [parseDecimal, if_pos ⟨decimal_ne_nil n, hdigits⟩, hvalue]

theorem decimal_injective : Function.Injective decimal := by
  intro n m h
  have hread : parseDecimal (decimal n) = parseDecimal (decimal m) := congrArg parseDecimal h
  rw [parseDecimal_decimal, parseDecimal_decimal] at hread
  exact Option.some.inj hread

/-! ## The value of digits -/

/-- Digits in front of others count by their place. -/
theorem digitsValue_append (digits more : List UInt8) :
    digitsValue (digits ++ more) = digitsValue digits * 10 ^ more.length + digitsValue more := by
  have hfold : ∀ start, more.foldl (fun sofar c => 10 * sofar + (c.toNat - 0x30)) start =
      start * 10 ^ more.length + digitsValue more := by
    unfold digitsValue
    induction more with
    | nil => simp
    | cons c rest ih =>
        intro start
        rw [List.foldl_cons, List.foldl_cons, ih, ih (10 * 0 + _), List.length_cons, pow_succ]
        ring
  rw [digitsValue, List.foldl_append, hfold]
  rfl

theorem digitsValue_zeros (count : Nat) : digitsValue (List.replicate count 0x30) = 0 := by
  induction count with
  | zero => rfl
  | succ count ih =>
      rw [List.replicate_succ, ← List.singleton_append, digitsValue_append, ih]
      simp [digitsValue]

/-- Zeros in front do not count. -/
theorem digitsValue_dropWhile (digits : List UInt8) :
    digitsValue (digits.dropWhile (· == 0x30)) = digitsValue digits := by
  induction digits with
  | nil => rfl
  | cons c rest ih =>
      by_cases hc : c = 0x30
      · rw [List.dropWhile_cons_of_pos (by simp [hc]), ih, ← List.singleton_append (x := c),
          digitsValue_append, hc]
        simp [digitsValue]
      · rw [List.dropWhile_cons_of_neg (by simp [hc])]

/-- A number with a first digit other than zero is positive. -/
theorem digitsValue_pos {c : UInt8} {rest : List UInt8} (hc : isDigitByte c = true)
    (hzero : c ≠ 0x30) : 0 < digitsValue (c :: rest) := by
  simp only [isDigitByte, Bool.and_eq_true, decide_eq_true_eq, UInt8.le_iff_toNat_le] at hc
  have hge : 0x30 ≤ c.toNat := hc.1
  have hne : c.toNat ≠ 0x30 := fun heq => hzero (UInt8.toNat_inj.mp heq)
  have hfirst : 0 < digitsValue [c] := by
    show 0 < 10 * 0 + (c.toNat - 0x30)
    omega
  rw [← List.singleton_append, digitsValue_append]
  have hpow : 0 < 10 ^ rest.length := Nat.pow_pos (by omega)
  have hproduct := Nat.mul_pos hfirst hpow
  omega

/-- Digits are worth something exactly when they are not all zeros. -/
theorem digitsValue_pos_iff {digits : List UInt8} (h : digits.all isDigitByte = true) :
    0 < digitsValue digits ↔ digits.dropWhile (· == 0x30) ≠ [] := by
  rw [← digitsValue_dropWhile]
  cases hdrop : digits.dropWhile (· == 0x30) with
  | nil => simp [digitsValue]
  | cons c rest =>
      have hhead := List.head_dropWhile_not (· == 0x30) (l := digits) (by rw [hdrop]; simp)
      have hc : c ≠ 0x30 := by
        simp only [hdrop, List.head_cons] at hhead
        exact fun heq => absurd hhead (by simp [heq])
      have hmem : c ∈ digits := (List.dropWhile_sublist _).mem (hdrop ▸ List.mem_cons_self)
      exact iff_of_true (digitsValue_pos (List.all_eq_true.mp h c hmem) hc) (List.cons_ne_nil _ _)

end Igit
