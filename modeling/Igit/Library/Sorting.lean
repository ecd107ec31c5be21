import Igit.Library.Tables

/-!
# Sorting by a comparison

An unstable sort is known by what it may leave: `SortedBy less items out` says that `out` has the
elements of `items` and no element that is less than one before it. A comparison of keys that
follows a rank in a linear order (`Orders`) leaves nothing open when the keys are distinct:
`SortedBy.unique`. Sorting by insertion is one such sort (`sortedBy_insertionSort`). `Keyed` forgets
the keys and their ranks.
-/

namespace Igit

variable {α κ κ' ρ ρ' : Type}

/-- What a sort may leave of a list. -/
structure SortedBy (less : α → α → Bool) (items out : List α) : Prop where
  perm : out.Perm items
  ordered : out.Pairwise fun a b => less b a = false

/-- Comparisons that agree on the elements leave the same lists. -/
theorem SortedBy.congr {less less' : α → α → Bool} {items out : List α}
    (h : SortedBy less items out) (hless : ∀ a ∈ items, ∀ b ∈ items, less a b = less' a b) :
    SortedBy less' items out := by
  refine ⟨h.perm, h.ordered.imp_of_mem fun {a b} ha hb hle => ?_⟩
  rw [← hless b (h.perm.mem_iff.mp hb) a (h.perm.mem_iff.mp ha)]
  exact hle

/-- A comparison follows a rank that tells the keys apart. -/
structure Orders [LinearOrder ρ] (less : κ → κ → Bool) (rank : κ → ρ) (Valid : κ → Prop) : Prop where
  less_iff : ∀ {a b}, Valid a → Valid b → (less a b = true ↔ rank a < rank b)
  inj : ∀ {a b}, Valid a → Valid b → rank a = rank b → a = b

/-- Compare by the first component, and by the second where the first is the same. -/
def lexLess [DecidableEq κ] (less : κ → κ → Bool) (less' : κ' → κ' → Bool) (a b : κ × κ') : Bool :=
  if a.1 ≠ b.1 then less a.1 b.1 else less' a.2 b.2

section Ranks

variable [LinearOrder ρ] [LinearOrder ρ'] {less : κ → κ → Bool} {rank : κ → ρ} {Valid : κ → Prop}
  {key : α → κ} {items items' out out' : List α}

/-- A linear order is its own rank. -/
theorem Orders.lt : Orders (fun a b : ρ => decide (a < b)) id fun _ => True :=
  ⟨fun _ _ => decide_eq_true_iff, fun _ _ h => h⟩

/-- Pairs are ranked by their components. -/
theorem Orders.lex [DecidableEq κ] {less' : κ' → κ' → Bool} {rank' : κ' → ρ'} {Valid' : κ' → Prop}
    (h : Orders less rank Valid) (h' : Orders less' rank' Valid') :
    Orders (lexLess less less') (fun k => toLex (rank k.1, rank' k.2))
      fun k => Valid k.1 ∧ Valid' k.2 where
  less_iff := by
    intro a b ha hb
    rw [Prod.Lex.lt_iff]
    show lexLess less less' a b = true ↔
      rank a.1 < rank b.1 ∨ rank a.1 = rank b.1 ∧ rank' a.2 < rank' b.2
    unfold lexLess
    by_cases hkey : a.1 = b.1
    · rw [if_neg (not_not.mpr hkey), h'.less_iff ha.2 hb.2, hkey]
      simp
    · rw [if_pos hkey, h.less_iff ha.1 hb.1]
      refine ⟨Or.inl, fun hor => ?_⟩
      rcases hor with hlt | ⟨hsame, -⟩
      · exact hlt
      · exact absurd (h.inj ha.1 hb.1 hsame) hkey
  inj := by
    intro a b ha hb heq
    obtain ⟨hfirst, hsecond⟩ := Prod.mk.inj (toLex.injective heq)
    exact Prod.ext (h.inj ha.1 hb.1 hfirst) (h'.inj ha.2 hb.2 hsecond)

theorem Orders.not_less_iff (h : Orders less rank Valid) {a b : κ} (ha : Valid a) (hb : Valid b) :
    less b a = false ↔ rank a ≤ rank b := by
  rw [← Bool.not_eq_true, h.less_iff hb ha, not_lt]

/-- A sorted list is ordered by rank. -/
theorem SortedBy.ranked (h : SortedBy (fun a b => less (key a) (key b)) items out)
    (horders : Orders less rank Valid) (hvalid : ∀ a ∈ items, Valid (key a)) :
    out.Pairwise fun a b => rank (key a) ≤ rank (key b) :=
  h.ordered.imp_of_mem fun {a b} ha hb hle =>
    (horders.not_less_iff (hvalid a (h.perm.mem_iff.mp ha)) (hvalid b (h.perm.mem_iff.mp hb))).mp hle

/-- With distinct keys there is one sorted list, whatever the order of the elements was. -/
theorem SortedBy.unique (h : SortedBy (fun a b => less (key a) (key b)) items out)
    (h' : SortedBy (fun a b => less (key a) (key b)) items' out') (hperm : items'.Perm items)
    (horders : Orders less rank Valid) (hvalid : ∀ a ∈ items, Valid (key a))
    (hkeys : (items.map key).Nodup) : out = out' := by
  have hranked := h.ranked horders hvalid
  have hranked' := h'.ranked horders fun a ha => hvalid a (hperm.mem_iff.mp ha)
  have hsame : out.Perm out' := h.perm.trans (hperm.symm.trans h'.perm.symm)
  refine hsame.eq_of_pairwise (fun a b ha hb hle hge => ?_) hranked hranked'
  have hin : a ∈ items := h.perm.mem_iff.mp ha
  have hin' : b ∈ items := hperm.mem_iff.mp (h'.perm.mem_iff.mp hb)
  have hkey : key a = key b := horders.inj (hvalid a hin) (hvalid b hin') (le_antisymm hle hge)
  exact List.inj_on_of_nodup_map hkeys hin hin' hkey

/-- Sorting by insertion sorts. -/
theorem sortedBy_insertionSort (horders : Orders less rank Valid)
    (hvalid : ∀ a ∈ items, Valid (key a)) :
    SortedBy (fun a b => less (key a) (key b)) items
      (items.insertionSort fun a b => less (key b) (key a) = false) := by
  have hperm := List.perm_insertionSort (fun a b => less (key b) (key a) = false) items
  refine ⟨hperm, ?_⟩
  -- the ranks of the sorted elements are the sorted ranks
  have hranks := List.map_insertionSort (fun a b => less (key b) (key a) = false) (· ≤ ·)
    (fun a => rank (key a)) items fun a ha b hb => horders.not_less_iff (hvalid a ha) (hvalid b hb)
  have hsorted := List.pairwise_insertionSort (· ≤ ·) (items.map fun a => rank (key a))
  rw [← hranks, List.pairwise_map] at hsorted
  refine hsorted.imp_of_mem fun {a b} ha hb hle => ?_
  exact (horders.not_less_iff (hvalid a (hperm.mem_iff.mp ha)) (hvalid b (hperm.mem_iff.mp hb))).mpr
    hle

end Ranks

/-- A comparison of the items of a list that compares distinct keys. -/
inductive Keyed (less : α → α → Bool) (items : List α) : Prop where
  | intro {κ ρ : Type} [LinearOrder ρ] {keyLess : κ → κ → Bool} {rank : κ → ρ} {Valid : κ → Prop}
      (key : α → κ) (orders : Orders keyLess rank Valid)
      (less_eq : less = fun a b => keyLess (key a) (key b))
      (valid : ∀ a ∈ items, Valid (key a)) (distinct : (items.map key).Nodup)

/-- Two runs of a sort on the same items leave the same list. -/
theorem Keyed.unique {less less' : α → α → Bool} {items items' out out' : List α}
    (h : Keyed less items) (hperm : items'.Perm items)
    (hless : ∀ a ∈ items, ∀ b ∈ items, less' a b = less a b)
    (hsorted : SortedBy less items out) (hsorted' : SortedBy less' items' out') : out = out' := by
  cases h with
  | intro key orders less_eq valid distinct =>
      have hcongr : SortedBy less items' out' := hsorted'.congr fun a ha b hb =>
        hless a (hperm.mem_iff.mp ha) b (hperm.mem_iff.mp hb)
      rw [less_eq] at hsorted hcongr
      exact hsorted.unique hcongr hperm orders valid distinct

theorem Keyed.sortedBy_insertionSort {less : α → α → Bool} {items : List α} (h : Keyed less items) :
    SortedBy less items (items.insertionSort fun a b => less b a = false) := by
  cases h with
  | intro key orders less_eq valid distinct =>
      rw [less_eq]
      exact Igit.sortedBy_insertionSort orders valid

end Igit
