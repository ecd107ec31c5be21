import Igit.Library.Sorting

/-!
# Loops over maps and unstable sorts

A program that collects the entries of a hash map meets them in an order the language does not fix,
and a sort that is not stable may leave equal elements in any order. `Runtime` is one way to make
these choices, with a choice of its own for each loop of the program. A list that is sorted by
distinct keys after it was collected does not depend on them (`Runtime.sort_unique`), and neither
does a sorted list of elements of a linear order (`Runtime.sort_unique_of_order`).
-/

namespace Igit

/-- A hash map. The order of its entries means nothing. -/
abbrev HashMap (κ V : Type) := AList fun _ : κ => V

namespace HashMap

variable {κ V : Type} [DecidableEq κ]

/-- The value at a key, or the one that stands for none. -/
def getD (m : HashMap κ V) (key : κ) (default : V) : V := (m.lookup key).getD default

/-- An entry after an insertion is the inserted one or was there before. -/
theorem mem_entries_insert {m : HashMap κ V} {key : κ} {value : V} {entry : (_ : κ) × V}
    (h : entry ∈ (m.insert key value).entries) : entry = ⟨key, value⟩ ∨ entry ∈ m.entries := by
  rw [AList.entries_insert, List.mem_cons] at h
  exact h.imp id fun hold => (List.kerase_sublist key m.entries).mem hold

/-- A map that is filled key by key. -/
theorem lookup_foldl_insert (f : κ → V) (keys : List κ) (values : HashMap κ V) (key : κ) :
    (keys.foldl (fun values key => values.insert key (f key)) values).lookup key =
      if key ∈ keys then some (f key) else values.lookup key := by
  induction keys generalizing values with
  | nil => simp
  | cons first rest ih =>
      rw [List.foldl_cons, ih]
      by_cases hrest : key ∈ rest
      · rw [if_pos hrest, if_pos (List.mem_cons_of_mem _ hrest)]
      · by_cases hfirst : key = first
        · subst hfirst
          rw [if_neg hrest, if_pos List.mem_cons_self, AList.lookup_insert]
        · rw [if_neg hrest, if_neg (by simp [hfirst, hrest]), AList.lookup_insert_ne hfirst]

end HashMap

/-- What a run leaves to chance: the order in which a loop visits a map, and the order a sort gives
to elements that compare as equal. -/
structure Runtime (Loop : Type) where
  visit : {α : Type} → Loop → List α → List α
  visit_perm : ∀ {α : Type} (loop : Loop) (items : List α), (visit loop items).Perm items
  sort : {α : Type} → (α → α → Bool) → List α → List α
  sort_perm : ∀ {α : Type} (less : α → α → Bool) (items : List α), (sort less items).Perm items
  sort_ordered : ∀ {α ρ : Type} [LinearOrder ρ] (less : α → α → Bool) (rank : α → ρ)
    (items : List α), (∀ a ∈ items, ∀ b ∈ items, less a b = true ↔ rank a < rank b) →
    (sort less items).Pairwise fun a b => less b a = false

namespace Runtime

variable {Loop α : Type}

/-- The runtime that visits a map in the order of its entries and sorts by insertion. -/
def plain (Loop : Type) : Runtime Loop where
  visit := fun _ items => items
  visit_perm := fun _ _ => .refl _
  sort := fun less items => items.insertionSort fun a b => less b a = false
  sort_perm := fun _ _ => List.perm_insertionSort _ _
  sort_ordered := by
    intro α ρ _ less rank items hless
    have hranked : ∀ a ∈ items, ∀ b ∈ items, less b a = false ↔ rank a ≤ rank b := by
      intro a ha b hb
      rw [← Bool.not_eq_true, hless b hb a ha, not_lt]
    have hranks := List.map_insertionSort (fun a b => less b a = false) (· ≤ ·) rank items hranked
    have hsorted := List.pairwise_insertionSort (· ≤ ·) (items.map rank)
    rw [← hranks, List.pairwise_map] at hsorted
    have hperm := List.perm_insertionSort (fun a b => less b a = false) items
    exact hsorted.imp_of_mem fun {a b} ha hb hle =>
      (hranked a (hperm.mem_iff.mp ha) b (hperm.mem_iff.mp hb)).mpr hle

variable (rt rt' : Runtime Loop) {less : α → α → Bool} {items items' : List α}

/-- A sort by distinct keys sorts. -/
theorem sortedBy (h : Keyed less items) : SortedBy less items (rt.sort less items) := by
  refine ⟨rt.sort_perm less items, ?_⟩
  cases h with
  | intro key orders less_eq valid distinct =>
      subst less_eq
      exact rt.sort_ordered _ (fun a => _) items fun a ha b hb =>
        orders.less_iff (valid a ha) (valid b hb)

/-- Two runs that sort the same elements by distinct keys get the same list. -/
theorem sort_unique (h : Keyed less items) (hperm : items'.Perm items) :
    rt.sort less items = rt'.sort less items' := by
  have hkeyed' : Keyed less items' := by
    cases h with
    | intro key orders less_eq valid distinct =>
        exact .intro key orders less_eq (fun a ha => valid a (hperm.mem_iff.mp ha))
          ((hperm.map key).nodup_iff.mpr distinct)
  exact h.unique hperm (fun _ _ _ _ => rfl) (rt.sortedBy h) (rt'.sortedBy hkeyed')

/-- Two runs that sort the same elements of a linear order get the same list, repeated elements
included. -/
theorem sort_unique_of_order {ρ : Type} [LinearOrder ρ] {rank : α → ρ}
    (h : Orders less rank fun _ => True) (hperm : items'.Perm items) :
    rt.sort less items = rt'.sort less items' := by
  have hranked : ∀ (rt : Runtime Loop) (items : List α),
      (rt.sort less items).Pairwise fun a b => rank a ≤ rank b := by
    intro rt items
    refine (rt.sort_ordered less rank items fun a _ b _ => h.less_iff trivial trivial).imp ?_
    intro a b hle
    exact (h.not_less_iff trivial trivial).mp hle
  have hsame : (rt.sort less items).Perm (rt'.sort less items') :=
    (rt.sort_perm less items).trans (hperm.symm.trans (rt'.sort_perm less items').symm)
  refine hsame.eq_of_pairwise (fun a b _ _ hle hge => ?_) (hranked rt items) (hranked rt' items')
  exact h.inj trivial trivial (le_antisymm hle hge)

end Runtime

end Igit
