import Mathlib

/-!
# Lists with an index map and swap-and-pop removal

A list stored next to a map from its elements to their positions supports removal in constant
time: the last element is written over the removed one and the list loses its last cell. The
position map counts from one, so that zero means "not in the list". `Indexed` states that the
map is exact on the list, and `Indexed.push` and `Indexed.swapPop` state that appending and
removing keep it so.
-/

namespace Igit

variable {α : Type*}

/-- Overwrite cell `i` with the last element and drop the last cell. -/
def swapPop (items : List α) (i : Nat) : List α :=
  match items.getLast? with
  | none => []
  | some last => (items.set i last).dropLast

/-- Cell `j` after a removal: cell `i` holds the old last element, the others are unchanged. -/
theorem getElem?_swapPop (items : List α) (i j : Nat) :
    (swapPop items i)[j]? =
      if j + 1 < items.length then
        if i = j then items.getLast? else items[j]?
      else none := by
  unfold swapPop
  cases hlast : items.getLast? with
  | none =>
      have hnil : items = [] := by simpa using hlast
      simp [hnil]
  | some last =>
      rw [List.getElem?_dropLast, List.getElem?_set, List.length_set]
      by_cases hj : j + 1 < items.length
      · have hin : j < items.length - 1 := by omega
        have hlt : j < items.length := by omega
        by_cases hij : i = j
        · subst hij
          simp [hin, hj, hlt]
        · simp [hin, hj, hij]
      · have hout : ¬ j < items.length - 1 := by omega
        simp [hout, hj]

/-- Removal leaves the elements of the other cells, in some order. -/
theorem swapPop_perm {items : List α} {i : Nat} (hi : i < items.length) :
    (swapPop items i).Perm (items.eraseIdx i) := by
  obtain ⟨front, last, rfl⟩ := List.eq_nil_or_concat items |>.resolve_left (by
    rintro rfl
    simp at hi)
  rw [List.concat_eq_append] at hi ⊢
  have hlast : (front ++ [last]).getLast? = some last := by simp
  have hpop : swapPop (front ++ [last]) i = ((front ++ [last]).set i last).dropLast := by
    rw [swapPop, hlast]
  rw [hpop]
  by_cases hend : i < front.length
  · rw [List.set_append_left _ _ hend, List.dropLast_concat, List.eraseIdx_append_of_lt_length hend]
    exact (List.set_perm_cons_eraseIdx hend last).trans (List.perm_append_singleton _ _).symm
  · -- the removed cell is the last one
    have hi' : i = front.length := by
      rw [List.length_append, List.length_singleton] at hi
      omega
    subst hi'
    rw [List.eraseIdx_append_of_length_le (Nat.le_refl _)]
    simp

/-- `index` gives the position, counted from one, of every element of `items`. -/
def Indexed (items : List α) (index : α → Nat) : Prop :=
  ∀ i x, items[i]? = some x → index x = i + 1

namespace Indexed

variable {items : List α} {index : α → Nat}

/-- The empty list is indexed by any map. -/
@[simp] theorem nil : Indexed ([] : List α) index := by
  intro i x h
  simp at h

/-- An indexed list has no duplicates, since a position determines its element. -/
theorem nodup (h : Indexed items index) : items.Nodup := by
  rw [List.nodup_iff_getElem?_ne_getElem?]
  intro i j hij hj heq
  have hi : items[i]? = some items[j] := by rw [heq, List.getElem?_eq_getElem hj]
  have hpos := (h i _ hi).symm.trans (h j _ (List.getElem?_eq_getElem hj))
  omega

/-- Elements of an indexed list have a position. -/
theorem pos_of_mem (h : Indexed items index) {x : α} (hx : x ∈ items) : index x ≠ 0 := by
  obtain ⟨i, hi⟩ := List.mem_iff_getElem?.mp hx
  rw [h i x hi]
  omega

/-- The recorded position of a member is the cell that holds it. -/
theorem getElem?_of_mem (h : Indexed items index) {x : α} (hx : x ∈ items) :
    items[index x - 1]? = some x := by
  obtain ⟨i, hi⟩ := List.mem_iff_getElem?.mp hx
  rw [h i x hi]
  simpa using hi

/-- The elements left after a removal are the others. -/
theorem mem_swapPop (h : Indexed items index) {i : Nat} {x : α} (hx : items[i]? = some x)
    {y : α} : y ∈ swapPop items i ↔ y ∈ items ∧ y ≠ x := by
  have hi : i < items.length := (List.getElem?_eq_some_iff.mp hx).1
  constructor
  · intro hy
    obtain ⟨j, hj⟩ := List.mem_iff_getElem?.mp hy
    rw [getElem?_swapPop] at hj
    split at hj
    · rename_i hbound
      split at hj
      · -- the moved last element sits at the removed cell
        rename_i hij
        subst hij
        rw [List.getLast?_eq_getElem?] at hj
        refine ⟨List.mem_of_getElem? hj, ?_⟩
        rintro rfl
        have hpos := (h _ _ hj).symm.trans (h _ _ hx)
        omega
      · rename_i hij
        refine ⟨List.mem_of_getElem? hj, ?_⟩
        rintro rfl
        have hpos := (h _ _ hj).symm.trans (h _ _ hx)
        omega
    · exact absurd hj (by simp)
  · rintro ⟨hy, hne⟩
    obtain ⟨j, hj⟩ := List.mem_iff_getElem?.mp hy
    have hlt : j < items.length := (List.getElem?_eq_some_iff.mp hj).1
    have hji : i ≠ j := by
      rintro rfl
      exact hne (Option.some.inj (hj.symm.trans hx))
    by_cases hend : j + 1 < items.length
    · refine List.mem_of_getElem? (i := j) ?_
      rw [getElem?_swapPop, if_pos hend, if_neg hji]
      exact hj
    · -- the last element moved to cell `i`
      refine List.mem_of_getElem? (i := i) ?_
      rw [getElem?_swapPop, if_pos (by omega), if_pos rfl, List.getLast?_eq_getElem?,
        show items.length - 1 = j by omega]
      exact hj

variable [DecidableEq α]

/-- Changing the map away from the list keeps it exact. -/
theorem update_of_not_mem (h : Indexed items index) {x : α} (hx : x ∉ items) (n : Nat) :
    Indexed items (Function.update index x n) := by
  intro i y hy
  have hne : y ≠ x := by
    rintro rfl
    exact hx (List.mem_of_getElem? hy)
  rw [Function.update_of_ne hne]
  exact h i y hy

/-- Appending a new element and recording its position keeps the map exact. -/
theorem push (h : Indexed items index) {x : α} (hx : x ∉ items) :
    Indexed (items ++ [x]) (Function.update index x (items.length + 1)) := by
  intro i y hy
  rcases Nat.lt_trichotomy i items.length with hlt | heq | hgt
  · rw [List.getElem?_append_left hlt] at hy
    exact h.update_of_not_mem hx _ i y hy
  · subst heq
    have hyx : y = x := by simpa using hy.symm
    rw [hyx, Function.update_self]
  · rw [List.getElem?_append_right (by omega), List.getElem?_eq_none (by simp; omega)] at hy
    exact absurd hy (by simp)

/-- Removing a cell and recording the new position of the moved element keeps the map exact. -/
theorem swapPop (h : Indexed items index) {i : Nat} {last : α} (hlast : items.getLast? = some last) :
    Indexed (swapPop items i) (Function.update index last (i + 1)) := by
  intro j y hy
  have hlast' : items[items.length - 1]? = some last := by
    rw [← List.getLast?_eq_getElem?]
    exact hlast
  rw [getElem?_swapPop] at hy
  split at hy
  · rename_i hbound
    split at hy
    · rename_i hij
      subst hij
      have hy' : y = last := Option.some.inj (hy.symm.trans hlast)
      rw [hy', Function.update_self]
    · have hne : y ≠ last := by
        rintro rfl
        have hpos := (h _ _ hy).symm.trans (h _ _ hlast')
        omega
      rw [Function.update_of_ne hne]
      exact h j y hy
  · exact absurd hy (by simp)

end Indexed

end Igit
