import Mathlib

/-!
# Registries

Three small invariants of registries kept in maps. `Paired` says that a map from names to holders and
a map from holders to names are inverse to each other, apart from the blank name and the blank holder
that stand for no entry. `Counts` says that a number is the number of names with a flag. Both come
with the two writes that keep them. `ListedOnce` says that lists hold each entry once where it belongs,
and comes with the write that appends an entry.
-/

namespace Igit

variable {N H : Type*}

/-- The holder of every name and the name of every holder agree. -/
def Paired (noHolder : H) (noName : N) (holder : N → H) (name : H → N) : Prop :=
  ∀ n h, (holder n = h ∧ h ≠ noHolder) ↔ (name h = n ∧ n ≠ noName)

namespace Paired

variable {noHolder : H} {noName : N} {holder : N → H} {name : H → N}

/-- Nothing is held and nobody is named. -/
theorem blank : Paired noHolder noName (fun _ => noHolder) (fun _ => noName) :=
  fun _ _ => ⟨fun h => absurd h.1.symm h.2, fun h => absurd h.1.symm h.2⟩

variable [DecidableEq N] [DecidableEq H]

/-- A free name is given to a holder without one. -/
theorem assign (hpaired : Paired noHolder noName holder name) {n : N} {h : H}
    (hn : n ≠ noName) (hh : h ≠ noHolder) (hfree : holder n = noHolder) (hunnamed : name h = noName) :
    Paired noHolder noName (Function.update holder n h) (Function.update name h n) := by
  intro n' h'
  by_cases hsame : n' = n
  · subst hsame
    rw [Function.update_self]
    by_cases hsame' : h' = h
    · subst hsame'
      rw [Function.update_self]
      exact ⟨fun _ => ⟨rfl, hn⟩, fun _ => ⟨rfl, hh⟩⟩
    · -- nobody else had the name
      rw [Function.update_of_ne hsame', ← hpaired n' h', hfree]
      exact ⟨fun hother => absurd hother.1.symm hsame', fun hother => absurd hother.1.symm hother.2⟩
  · rw [Function.update_of_ne hsame]
    by_cases hsame' : h' = h
    · subst hsame'
      rw [Function.update_self, hpaired n' h', hunnamed]
      exact ⟨fun hother => absurd hother.1.symm hother.2, fun hother => absurd hother.1.symm hsame⟩
    · rw [Function.update_of_ne hsame']
      exact hpaired n' h'

/-- A holder gives a name up. -/
theorem release (hpaired : Paired noHolder noName holder name) {h : H} (hnamed : name h ≠ noName) :
    Paired noHolder noName (Function.update holder (name h) noHolder)
      (Function.update name h noName) := by
  have hheld : holder (name h) = h := ((hpaired (name h) h).mpr ⟨rfl, hnamed⟩).1
  intro n' h'
  by_cases hsame : n' = name h
  · rw [hsame, Function.update_self]
    by_cases hsame' : h' = h
    · rw [hsame', Function.update_self]
      exact ⟨fun hother => absurd hother.1.symm hother.2, fun hother => absurd hother.1.symm hother.2⟩
    · rw [Function.update_of_ne hsame', ← hpaired (name h) h', hheld]
      exact ⟨fun hother => absurd hother.1.symm hother.2, fun hother => absurd hother.1.symm hsame'⟩
  · rw [Function.update_of_ne hsame]
    by_cases hsame' : h' = h
    · rw [hsame', Function.update_self, hpaired n' h]
      exact ⟨fun hother => absurd hother.1.symm hsame, fun hother => absurd hother.1.symm hother.2⟩
    · rw [Function.update_of_ne hsame']
      exact hpaired n' h'

end Paired

/-- The number of names with a flag. -/
def Counts (flag : N → Bool) (count : Nat) : Prop :=
  ∃ marked : Finset N, (∀ n, n ∈ marked ↔ flag n = true) ∧ marked.card = count

namespace Counts

variable {flag : N → Bool} {count : Nat}

/-- No name has a flag. -/
theorem blank : Counts (fun _ : N => false) 0 :=
  ⟨∅, fun n => by simp, Finset.card_empty⟩

/-- A flag is there, so the count is not zero. -/
theorem pos (hcounts : Counts flag count) {n : N} (hn : flag n = true) : 0 < count := by
  obtain ⟨marked, hmarked, rfl⟩ := hcounts
  exact Finset.card_pos.mpr ⟨n, (hmarked n).mpr hn⟩

variable [DecidableEq N]

/-- One more flag. -/
theorem set (hcounts : Counts flag count) {n : N} (hn : flag n = false) :
    Counts (Function.update flag n true) (count + 1) := by
  obtain ⟨marked, hmarked, rfl⟩ := hcounts
  have hnew : n ∉ marked := by
    rw [hmarked, hn]
    decide
  refine ⟨insert n marked, fun n' => ?_, Finset.card_insert_of_notMem hnew⟩
  rw [Finset.mem_insert, hmarked]
  by_cases hsame : n' = n
  · simp [hsame]
  · simp [hsame]

/-- One flag less. -/
theorem unset (hcounts : Counts flag (count + 1)) {n : N} (hn : flag n = true) :
    Counts (Function.update flag n false) count := by
  obtain ⟨marked, hmarked, hcard⟩ := hcounts
  have hold : n ∈ marked := (hmarked n).mpr hn
  refine ⟨marked.erase n, fun n' => ?_, ?_⟩
  · rw [Finset.mem_erase, hmarked]
    by_cases hsame : n' = n
    · simp [hsame]
    · simp [hsame]
  · rw [Finset.card_erase_of_mem hold, hcard]
    rfl

end Counts

/-- Each list holds the entries that belong to its key, each of them once. -/
structure ListedOnce {κ ι : Type*} [DecidableEq ι] (lists : κ → List ι) (belongs : ι → κ → Prop) : Prop where
  once : ∀ i k, belongs i k → (lists k).count i = 1
  only : ∀ i k, i ∈ lists k → belongs i k

namespace ListedOnce

variable {κ ι : Type*} [DecidableEq ι] {lists : κ → List ι} {belongs belongs' : ι → κ → Prop}

/-- Nothing belongs anywhere. -/
theorem empty (hlists : ∀ k, lists k = []) (hnone : ∀ i k, ¬ belongs i k) : ListedOnce lists belongs where
  once i k h := absurd h (hnone i k)
  only i k h := by
    rw [hlists] at h
    cases h

variable [DecidableEq κ]

/-- A new entry is appended where it belongs. -/
theorem push (h : ListedOnce lists belongs) {i : ι} {k : κ} (hnew : ¬ belongs i k)
    (hbelongs : ∀ i' k', belongs' i' k' ↔ belongs i' k' ∨ i' = i ∧ k' = k) :
    ListedOnce (Function.update lists k (lists k ++ [i])) belongs' where
  once i' k' hheld := by
    have hfresh : i ∉ lists k := fun hmem => hnew (h.only i k hmem)
    by_cases hk : k' = k
    · subst hk
      rw [Function.update_self, List.count_append]
      by_cases hi : i' = i
      · subst hi
        rw [List.count_eq_zero.mpr hfresh, List.count_singleton_self]
      · have hold : belongs i' k' := ((hbelongs i' k').mp hheld).resolve_right fun heq => hi heq.1
        rw [h.once i' k' hold, List.count_eq_zero.mpr (by simpa using hi)]
    · rw [Function.update_of_ne hk]
      exact h.once i' k' (((hbelongs i' k').mp hheld).resolve_right fun heq => hk heq.2)
  only i' k' hmem := by
    rw [hbelongs]
    by_cases hk : k' = k
    · subst hk
      rw [Function.update_self, List.mem_append, List.mem_singleton] at hmem
      rcases hmem with hold | hi
      · exact Or.inl (h.only i' k' hold)
      · exact Or.inr ⟨hi, rfl⟩
    · rw [Function.update_of_ne hk] at hmem
      exact Or.inl (h.only i' k' hmem)

end ListedOnce

end Igit
