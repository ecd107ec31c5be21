import Mathlib

/-!
# Bits in groups

`bitsDown x w` are the lowest `w` bits of a word, the highest first. A stream of bits cut into groups
of one width determines the groups (`flatMap_bitsDown_inj`), so that cutting it anew into groups of
another width and back loses nothing.
-/

namespace Igit.BitGroups

variable {n m w : Nat}

/-- The lowest bits of a word, the highest of them first. -/
def bitsDown (x : BitVec n) : Nat → List Bool
  | 0 => []
  | w + 1 => x.getLsbD w :: bitsDown x w

@[simp] theorem length_bitsDown (x : BitVec n) (w : Nat) : (bitsDown x w).length = w := by
  induction w with
  | zero => rfl
  | succ w ih => rw [bitsDown, List.length_cons, ih]

/-- The bits depend on the bits. -/
theorem bitsDown_eq_iff {x : BitVec n} {y : BitVec m} :
    bitsDown x w = bitsDown y w ↔ ∀ i < w, x.getLsbD i = y.getLsbD i := by
  induction w with
  | zero => simp [bitsDown]
  | succ w ih =>
      rw [bitsDown, bitsDown, List.cons.injEq, ih]
      constructor
      · intro h i hi
        rcases Nat.lt_succ_iff_lt_or_eq.mp hi with hlt | rfl
        · exact h.2 i hlt
        · exact h.1
      · intro h
        exact ⟨h w (Nat.lt_succ_self w), fun i hi => h i (Nat.lt_succ_of_lt hi)⟩

/-- The highest of the bits, then the rest. -/
theorem bitsDown_add (x : BitVec n) (high low : Nat) :
    bitsDown x (high + low) = bitsDown (x >>> low) high ++ bitsDown x low := by
  induction high with
  | zero => rw [Nat.zero_add, bitsDown, List.nil_append]
  | succ high ih =>
      rw [Nat.add_right_comm, bitsDown, bitsDown, ih, BitVec.getLsbD_ushiftRight, Nat.add_comm low]
      rfl

/-- A word of `w` bits: the bits above are zero. -/
def Below (w : Nat) (x : BitVec n) : Prop := ∀ i, w ≤ i → x.getLsbD i = false

theorem eq_of_bitsDown {x y : BitVec n} (hx : Below w x) (hy : Below w y)
    (h : bitsDown x w = bitsDown y w) : x = y := by
  refine BitVec.eq_of_getLsbD_eq fun i _ => ?_
  by_cases hi : i < w
  · exact bitsDown_eq_iff.mp h i hi
  · rw [hx i (Nat.le_of_not_lt hi), hy i (Nat.le_of_not_lt hi)]

/-- Groups of one width are determined by their bits. -/
theorem flatMap_bitsDown_inj (hw : 0 < w) {xs ys : List (BitVec n)} (hxs : ∀ x ∈ xs, Below w x)
    (hys : ∀ y ∈ ys, Below w y)
    (h : (xs.flatMap fun x => bitsDown x w) = ys.flatMap fun y => bitsDown y w) : xs = ys := by
  induction xs generalizing ys with
  | nil =>
      cases ys with
      | nil => rfl
      | cons y ys =>
          have hlength := congrArg List.length h
          simp only [List.flatMap_nil, List.flatMap_cons, List.length_nil, List.length_append,
            length_bitsDown] at hlength
          omega
  | cons x xs ih =>
      cases ys with
      | nil =>
          have hlength := congrArg List.length h
          simp only [List.flatMap_nil, List.flatMap_cons, List.length_nil, List.length_append,
            length_bitsDown] at hlength
          omega
      | cons y ys =>
          obtain ⟨hx, hxs⟩ := List.forall_mem_cons.mp hxs
          obtain ⟨hy, hys⟩ := List.forall_mem_cons.mp hys
          rw [List.flatMap_cons, List.flatMap_cons] at h
          obtain ⟨hfirst, hrest⟩ := List.append_inj h (by simp)
          rw [eq_of_bitsDown hx hy hfirst, ih hxs hys hrest]

/-- The bits of groups of one width are so many times the width. -/
theorem length_flatMap_bitsDown (xs : List (BitVec n)) (w : Nat) :
    (xs.flatMap fun x => bitsDown x w).length = xs.length * w := by
  induction xs with
  | nil => simp
  | cons x xs ih =>
      rw [List.flatMap_cons, List.length_append, length_bitsDown, ih, List.length_cons, Nat.succ_mul]
      omega

/-- Shifting a group in from the right appends its bits. -/
theorem bitsDown_shiftIn {acc : BitVec n} {x : BitVec m} {bits : Nat} (hx : Below w x)
    (hfit : bits + w ≤ n) :
    bitsDown (acc <<< w ||| x.setWidth n) (bits + w) = bitsDown acc bits ++ bitsDown x w := by
  rw [bitsDown_add]
  congr 1
  · refine bitsDown_eq_iff.mpr fun i hi => ?_
    have hin : w + i < n := by omega
    have hzero : x.getLsbD (w + i) = false := hx (w + i) (Nat.le_add_right w i)
    have hback : w + i - w = i := by omega
    have hnot : ¬ w + i < w := by omega
    simp only [BitVec.getLsbD_ushiftRight, BitVec.getLsbD_or, BitVec.getLsbD_shiftLeft,
      BitVec.getLsbD_setWidth, hin, hzero, hback, hnot, decide_true, decide_false, Bool.not_false,
      Bool.true_and, Bool.or_false]
  · refine bitsDown_eq_iff.mpr fun i hi => ?_
    have hin : i < n := by omega
    simp only [BitVec.getLsbD_or, BitVec.getLsbD_shiftLeft, BitVec.getLsbD_setWidth, hi, hin,
      decide_true, Bool.not_true, Bool.false_and, Bool.and_false, Bool.false_or, Bool.true_and]

end Igit.BitGroups
