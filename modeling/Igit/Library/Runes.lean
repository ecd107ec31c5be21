import Mathlib

/-!
# Runes of a byte string

How a loop over a text goes through its UTF-8 encoding: `decodeRune` reads the first code point and
its width, and takes any byte that starts no valid sequence as the replacement character of width
one. `runes` goes through a whole text. A text of ASCII bytes is its own list of runes
(`runes_ascii`), and a check that only ASCII runes pass is a check of the bytes (`all_runes`).
-/

namespace Igit.Runes

/-- The replacement character. -/
def runeError : Nat := 0xfffd

/-- A byte in a range. -/
def between (low high c : UInt8) : Bool := low ≤ c && c ≤ high

/-- The first code point of a text and the number of its bytes. -/
def decodeRune : List UInt8 → Nat × Nat
  | [] => (runeError, 0)
  | b0 :: rest =>
      if b0 < 0x80 then (b0.toNat, 1)
      else if between 0xc2 0xdf b0 then
        match rest with
        | b1 :: _ =>
            if between 0x80 0xbf b1 then (b0.toNat % 0x20 * 0x40 + b1.toNat % 0x40, 2)
            else (runeError, 1)
        | _ => (runeError, 1)
      else if between 0xe0 0xef b0 then
        match rest with
        | b1 :: b2 :: _ =>
            -- neither an overlong form nor a surrogate
            if between (if b0 = 0xe0 then 0xa0 else 0x80) (if b0 = 0xed then 0x9f else 0xbf) b1 &&
                between 0x80 0xbf b2 then
              ((b0.toNat % 0x10 * 0x40 + b1.toNat % 0x40) * 0x40 + b2.toNat % 0x40, 3)
            else (runeError, 1)
        | _ => (runeError, 1)
      else if between 0xf0 0xf4 b0 then
        match rest with
        | b1 :: b2 :: b3 :: _ =>
            -- neither an overlong form nor beyond the last code point
            if between (if b0 = 0xf0 then 0x90 else 0x80) (if b0 = 0xf4 then 0x8f else 0xbf) b1 &&
                between 0x80 0xbf b2 && between 0x80 0xbf b3 then
              (((b0.toNat % 0x08 * 0x40 + b1.toNat % 0x40) * 0x40 + b2.toNat % 0x40) * 0x40 +
                b3.toNat % 0x40, 4)
            else (runeError, 1)
        | _ => (runeError, 1)
      else (runeError, 1)

/-- The runes of a text with their widths. Each takes a byte at least, so that the length of the
text is fuel enough. -/
def runesFrom : Nat → List UInt8 → List (Nat × Nat)
  | 0, _ => []
  | _ + 1, [] => []
  | fuel + 1, b :: rest =>
      decodeRune (b :: rest) :: runesFrom fuel ((b :: rest).drop (decodeRune (b :: rest)).2)

def runes (text : List UInt8) : List (Nat × Nat) := runesFrom text.length text

/-- White space. -/
def isSpace (rune : Nat) : Bool :=
  rune ∈ [0x09, 0x0a, 0x0b, 0x0c, 0x0d, 0x20, 0x85, 0xa0, 0x1680, 0x2028, 0x2029, 0x202f, 0x205f,
    0x3000] || (decide (0x2000 ≤ rune) && decide (rune ≤ 0x200a))

/-- The bytes of the runes up to the first that is no space. -/
def spaceWidth (text : List (Nat × Nat)) : Nat :=
  ((text.takeWhile fun rune => isSpace rune.1).map Prod.snd).sum

/-- A text without white space around it. -/
def trimSpace (text : List UInt8) : List UInt8 :=
  let rest := text.drop (spaceWidth (runes text))
  rest.take (rest.length - spaceWidth (runes rest).reverse)

/-- The runes of an ASCII text are its bytes. -/
theorem runes_ascii {text : List UInt8} (h : ∀ c ∈ text, c < 0x80) :
    runes text = text.map fun c => (c.toNat, 1) := by
  unfold runes
  induction text with
  | nil => rfl
  | cons b rest ih =>
      obtain ⟨hb, hrest⟩ := List.forall_mem_cons.mp h
      have hrune : decodeRune (b :: rest) = (b.toNat, 1) := if_pos hb
      show decodeRune (b :: rest) ::
        runesFrom rest.length ((b :: rest).drop (decodeRune (b :: rest)).2) = _
      rw [hrune, List.drop_one, List.tail_cons, ih hrest, List.map_cons]

theorem between_iff {low high c : UInt8} :
    between low high c = true ↔ low.toNat ≤ c.toNat ∧ c.toNat ≤ high.toNat := by
  simp only [between, Bool.and_eq_true, decide_eq_true_eq, UInt8.le_iff_toNat_le]

theorem not_runeError_lt : ¬ runeError < 0x80 := by decide

/-- An ASCII text that neither starts nor ends with white space is left as it is. -/
theorem trimSpace_eq_self {text : List UInt8} (h : ∀ c ∈ text, c < 0x80)
    (hfirst : ∀ c ∈ text.head?, isSpace c.toNat = false)
    (hlast : ∀ c ∈ text.getLast?, isSpace c.toNat = false) : trimSpace text = text := by
  have hwidth : ∀ (bytes : List UInt8), (∀ c ∈ bytes.head?, isSpace c.toNat = false) →
      spaceWidth (bytes.map fun c => (c.toNat, 1)) = 0 := by
    intro bytes hhead
    cases bytes with
    | nil => rfl
    | cons c rest =>
        have hc : isSpace c.toNat = false := hhead c rfl
        rw [spaceWidth, List.map_cons, List.takeWhile_cons_of_neg (by simp [hc])]
        rfl
  have hback : ∀ c ∈ text.reverse.head?, isSpace c.toNat = false := by
    rw [List.head?_reverse]
    exact hlast
  simp only [trimSpace, runes_ascii h, hwidth text hfirst, List.drop_zero, ← List.map_reverse,
    hwidth text.reverse hback, Nat.sub_zero, List.take_length]

/-- Only an ASCII byte decodes to an ASCII code point. -/
theorem ascii_of_decodeRune {b : UInt8} {rest : List UInt8}
    (h : (decodeRune (b :: rest)).1 < 0x80) : b < 0x80 := by
  by_contra hb
  unfold decodeRune at h
  dsimp only at h
  rw [if_neg hb] at h
  -- the longer forms have no code points that short
  by_cases h2 : between 0xc2 0xdf b = true
  · rw [if_pos h2] at h
    have hlow : 0xc2 ≤ b.toNat := (between_iff.mp h2).1
    have hhigh : b.toNat ≤ 0xdf := (between_iff.mp h2).2
    split at h
    next b1 _ =>
      split at h
      · dsimp only at h
        omega
      · exact not_runeError_lt h
    next => exact not_runeError_lt h
  rw [if_neg h2] at h
  by_cases h3 : between 0xe0 0xef b = true
  · rw [if_pos h3] at h
    have hlow : 0xe0 ≤ b.toNat := (between_iff.mp h3).1
    have hhigh : b.toNat ≤ 0xef := (between_iff.mp h3).2
    split at h
    next b1 b2 _ =>
      by_cases hmore : (between (if b = 0xe0 then 0xa0 else 0x80)
          (if b = 0xed then 0x9f else 0xbf) b1 && between 0x80 0xbf b2) = true
      · rw [if_pos hmore] at h
        dsimp only at h
        have hb1 := between_iff.mp (Bool.and_eq_true_iff.mp hmore).1
        by_cases hfirst : b = 0xe0
        · rw [if_pos hfirst, if_neg (by rw [hfirst]; decide)] at hb1
          have hb1low : 0xa0 ≤ b1.toNat := hb1.1
          have hb1high : b1.toNat ≤ 0xbf := hb1.2
          omega
        · have hne : b.toNat ≠ 0xe0 := fun heq => hfirst (UInt8.toNat_inj.mp heq)
          omega
      · rw [if_neg hmore] at h
        exact not_runeError_lt h
    next => exact not_runeError_lt h
  rw [if_neg h3] at h
  by_cases h4 : between 0xf0 0xf4 b = true
  · rw [if_pos h4] at h
    have hlow : 0xf0 ≤ b.toNat := (between_iff.mp h4).1
    have hhigh : b.toNat ≤ 0xf4 := (between_iff.mp h4).2
    split at h
    next b1 b2 b3 _ =>
      by_cases hmore : (between (if b = 0xf0 then 0x90 else 0x80)
          (if b = 0xf4 then 0x8f else 0xbf) b1 && between 0x80 0xbf b2 &&
            between 0x80 0xbf b3) = true
      · rw [if_pos hmore] at h
        dsimp only at h
        have hb1 := between_iff.mp (Bool.and_eq_true_iff.mp (Bool.and_eq_true_iff.mp hmore).1).1
        by_cases hfirst : b = 0xf0
        · rw [if_pos hfirst, if_neg (by rw [hfirst]; decide)] at hb1
          have hb1low : 0x90 ≤ b1.toNat := hb1.1
          have hb1high : b1.toNat ≤ 0xbf := hb1.2
          omega
        · have hne : b.toNat ≠ 0xf0 := fun heq => hfirst (UInt8.toNat_inj.mp heq)
          omega
      · rw [if_neg hmore] at h
        exact not_runeError_lt h
    next => exact not_runeError_lt h
  · rw [if_neg h4] at h
    exact not_runeError_lt h

/-- A text whose runes are ASCII is ASCII. -/
theorem ascii_of_runesFrom {fuel : Nat} {text : List UInt8} (hfuel : text.length ≤ fuel)
    (h : ∀ rune ∈ runesFrom fuel text, rune.1 < 0x80) : ∀ c ∈ text, c < 0x80 := by
  induction fuel generalizing text with
  | zero =>
      rw [List.length_eq_zero_iff.mp (Nat.le_zero.mp hfuel)]
      simp
  | succ fuel ih =>
      cases text with
      | nil => simp
      | cons b rest =>
          rw [runesFrom, List.forall_mem_cons] at h
          obtain ⟨hfirst, hlater⟩ := h
          have hb : b < 0x80 := ascii_of_decodeRune hfirst
          have hrune : decodeRune (b :: rest) = (b.toNat, 1) := if_pos hb
          rw [hrune] at hlater
          rw [List.length_cons] at hfuel
          exact List.forall_mem_cons.mpr ⟨hb, ih (by omega) hlater⟩

/-- A check of the runes that only ASCII passes is a check of the bytes. -/
theorem all_runes {p : Nat → Bool} (hp : ∀ n, p n = true → n < 0x80) (text : List UInt8) :
    ((runes text).all fun rune => p rune.1) = text.all fun c => p c.toNat := by
  by_cases hascii : ∀ c ∈ text, c < 0x80
  · rw [runes_ascii hascii, List.all_map]
    rfl
  · have hrunes : ((runes text).all fun rune => p rune.1) = false := by
      rw [← Bool.not_eq_true, List.all_eq_true]
      exact fun hall => hascii
        (ascii_of_runesFrom (Nat.le_refl _) fun rune hrune => hp _ (hall rune hrune))
    have hbytes : (text.all fun c => p c.toNat) = false := by
      rw [← Bool.not_eq_true, List.all_eq_true]
      exact fun hall => hascii fun c hc => UInt8.lt_iff_toNat_lt.mpr (hp _ (hall c hc))
    rw [hrunes, hbytes]

end Igit.Runes
