import Mathlib

/-!
# Hash chains

A hash chain folds a numbered sequence of items into one root. When a step determines the root
before it, its number and its item, and no step yields the seed, the root determines the whole
sequence, whatever its length (`chain_injective`). It is enough to know this of the steps that were
made (`chain_injective_of_steps`).
-/

namespace Igit

variable {R I : Type}

/-- The root after `items`, the first of which has number `i`. -/
def chainFrom (step : R → Nat → I → R) : Nat → R → List I → R
  | _, root, [] => root
  | i, root, item :: rest => chainFrom step (i + 1) (step root i item) rest

/-- The root after `items`, counted from zero. -/
def chain (step : R → Nat → I → R) (seed : R) (items : List I) : R := chainFrom step 0 seed items

variable {step : R → Nat → I → R} {seed root : R} {items other : List I} {item : I} {i : Nat}

theorem chainFrom_concat :
    chainFrom step i root (items ++ [item]) =
      step (chainFrom step i root items) (i + items.length) item := by
  induction items generalizing i root with
  | nil => rfl
  | cons first rest ih =>
      rw [List.cons_append, chainFrom, chainFrom, ih, List.length_cons]
      congr 1
      omega

/-- One more item is one more step. -/
theorem chain_concat :
    chain step seed (items ++ [item]) = step (chain step seed items) items.length item := by
  rw [chain, chain, chainFrom_concat, Nat.zero_add]

/-- Where the number of an item plays no part, a chain is a fold. -/
theorem chainFrom_eq_foldl {f : R → I → R} :
    chainFrom (fun r _ x => f r x) i root items = items.foldl f root := by
  induction items generalizing i root with
  | nil => rfl
  | cons first rest ih => rw [chainFrom, ih, List.foldl_cons]

/-- The steps a chain makes: for each item the root before it and its number. -/
def chainSteps (step : R → Nat → I → R) : Nat → R → List I → List (R × Nat × I)
  | _, _, [] => []
  | i, root, item :: rest => (root, i, item) :: chainSteps step (i + 1) (step root i item) rest

theorem chainSteps_concat :
    chainSteps step i root (items ++ [item]) =
      chainSteps step i root items ++
        [(chainFrom step i root items, i + items.length, item)] := by
  induction items generalizing i root with
  | nil => rfl
  | cons first rest ih =>
      rw [List.cons_append, chainSteps, chainSteps, ih, chainFrom, List.length_cons,
        List.cons_append]
      congr 5
      omega

/-- One more item is one more step, from the root before it. -/
theorem mem_chainSteps_concat {made : R × Nat × I} :
    made ∈ chainSteps step 0 seed (items ++ [item]) ↔
      made ∈ chainSteps step 0 seed items ∨ made = (chain step seed items, items.length, item) := by
  rw [chainSteps_concat, List.mem_append, List.mem_singleton, Nat.zero_add]
  rfl

/-- Two sequences with one root are one sequence, when the steps made for them can be told apart. -/
theorem chain_injective_of_steps
    (hstep : ∀ p ∈ chainSteps step 0 seed items, ∀ q ∈ chainSteps step 0 seed other,
      step p.1 p.2.1 p.2.2 = step q.1 q.2.1 q.2.2 → p.1 = q.1 ∧ p.2.2 = q.2.2)
    (hseed : ∀ p, p ∈ chainSteps step 0 seed items ∨ p ∈ chainSteps step 0 seed other →
      step p.1 p.2.1 p.2.2 ≠ seed)
    (h : chain step seed items = chain step seed other) : items = other := by
  -- induction from the end, where the last step was made
  induction items using List.reverseRecOn generalizing other with
  | nil =>
      rcases List.eq_nil_or_concat other with hnil | ⟨earlier, last, hconcat⟩
      · exact hnil.symm
      · rw [List.concat_eq_append] at hconcat
        subst hconcat
        rw [chain_concat] at h
        exact absurd h.symm (hseed _ (Or.inr (mem_chainSteps_concat.mpr (Or.inr rfl))))
  | append_singleton earlier last ih =>
      rw [chain_concat] at h
      have hmade := mem_chainSteps_concat.mpr (Or.inr (Eq.refl (chain step seed earlier,
        earlier.length, last)))
      rcases List.eq_nil_or_concat other with hnil | ⟨earlier', last', hconcat⟩
      · rw [hnil] at h
        exact absurd h (hseed _ (Or.inl hmade))
      · rw [List.concat_eq_append] at hconcat
        subst hconcat
        rw [chain_concat] at h
        obtain ⟨hroot, hlast⟩ := hstep _ hmade _ (mem_chainSteps_concat.mpr (Or.inr rfl)) h
        have hearlier : earlier = earlier' := ih
          (fun p hp q hq => hstep p (mem_chainSteps_concat.mpr (Or.inl hp)) q
            (mem_chainSteps_concat.mpr (Or.inl hq)))
          (fun p hp => hseed p (hp.imp (fun h => mem_chainSteps_concat.mpr (Or.inl h))
            fun h => mem_chainSteps_concat.mpr (Or.inl h))) hroot
        rw [hearlier, show last = last' from hlast]

/-- Two sequences with one root are one sequence. -/
theorem chain_injective
    (hstep : ∀ {r r' : R} {i j : Nat} {x y : I}, step r i x = step r' j y → r = r' ∧ x = y)
    (hseed : ∀ r i x, step r i x ≠ seed) (h : chain step seed items = chain step seed other) :
    items = other :=
  chain_injective_of_steps (fun _ _ _ _ => hstep) (fun p _ => hseed p.1 p.2.1 p.2.2) h

end Igit
