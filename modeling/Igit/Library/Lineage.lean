import Igit.Library.Tables

/-!
# Lineages

Every node has at most one parent. `Depth` counts the ancestors of a node whose lineage ends. A list
that names parents first has only such nodes (`ParentsFirst.depth`), and ordering the nodes by depth
puts parents first (`parentsFirst_of_depth`). In a list that is closed under parents a lineage is
shorter than the list (`Depth.lt_length`).
-/

namespace Igit

variable {α : Type} {parent : α → Option α} {a : α} {n m : Nat} {nodes : List α}

/-- The lineage of a node ends after `n` ancestors. -/
inductive Depth (parent : α → Option α) : α → Nat → Prop where
  | root {a : α} (h : parent a = none) : Depth parent a 0
  | child {a p : α} {n : Nat} (h : parent a = some p) (hparent : Depth parent p n) :
      Depth parent a (n + 1)

/-- A lineage has one length. -/
theorem Depth.unique (h : Depth parent a n) (h' : Depth parent a m) : n = m := by
  induction h generalizing m with
  | root hroot =>
      cases h' with
      | root _ => rfl
      | child hparent _ => exact absurd (hroot.symm.trans hparent) (Option.some_ne_none _).symm
  | child hparent _ ih =>
      cases h' with
      | root hroot => exact absurd (hroot.symm.trans hparent) (Option.some_ne_none _).symm
      | child hother hdepth =>
          cases hparent.symm.trans hother
          rw [ih hdepth]

/-- No node is its own parent in a lineage that ends. -/
theorem Depth.ne_parent (h : Depth parent a n) : parent a ≠ some a := by
  intro hself
  induction h with
  | root hroot => exact absurd (hroot.symm.trans hself) (Option.some_ne_none _).symm
  | child hparent _ ih =>
      cases hparent.symm.trans hself
      exact ih hself

/-- Renaming the nodes changes no lineage. -/
theorem Depth.map_iff {β : Type} {parent' : β → Option β} {f : α → β}
    (hparent : ∀ a, parent' (f a) = (parent a).map f) :
    Depth parent' (f a) n ↔ Depth parent a n := by
  induction n generalizing a with
  | zero =>
      have hroot : parent' (f a) = none ↔ parent a = none := by
        rw [hparent, Option.map_eq_none_iff]
      constructor
      · intro h
        cases h with
        | root hnone => exact .root (hroot.mp hnone)
      · intro h
        cases h with
        | root hnone => exact .root (hroot.mpr hnone)
  | succ n ih =>
      constructor
      · intro h
        cases h with
        | child hsome hdepth =>
            rw [hparent, Option.map_eq_some_iff] at hsome
            obtain ⟨p, hp, rfl⟩ := hsome
            exact .child hp (ih.mp hdepth)
      · intro h
        cases h with
        | child hsome hdepth => exact .child (by rw [hparent, hsome]; rfl) (ih.mpr hdepth)

/-- Every node comes after its parent. -/
def ParentsFirst (parent : α → Option α) (nodes : List α) : Prop :=
  ∀ before a after, nodes = before ++ a :: after → ∀ p, parent a = some p → p ∈ before

/-- With parents first every lineage ends. -/
theorem ParentsFirst.depth (h : ParentsFirst parent nodes) : ∀ a ∈ nodes, ∃ n, Depth parent a n := by
  induction nodes using List.reverseRecOn with
  | nil => simp
  | append_singleton nodes last ih =>
      have hnodes : ∀ a ∈ nodes, ∃ n, Depth parent a n :=
        ih fun before a after hsplit => h before a (after ++ [last]) (by
          rw [hsplit, List.append_assoc]
          rfl)
      intro a ha
      rcases List.mem_append.mp ha with hold | hlast
      · exact hnodes a hold
      · obtain rfl := List.mem_singleton.mp hlast
        cases hparent : parent a with
        | none => exact ⟨0, .root hparent⟩
        | some p =>
            obtain ⟨n, hn⟩ := hnodes p (h nodes a [] rfl p hparent)
            exact ⟨n + 1, .child hparent hn⟩

/-- Ordered by depth, parents come first. -/
theorem parentsFirst_of_depth (depth : α → Nat)
    (horder : nodes.Pairwise fun a b => depth a ≤ depth b)
    (hparent : ∀ a ∈ nodes, ∀ p, parent a = some p → p ∈ nodes ∧ depth p < depth a) :
    ParentsFirst parent nodes := by
  intro before a after hsplit p hp
  have hmem : a ∈ nodes := by
    rw [hsplit]
    exact List.mem_append_right _ List.mem_cons_self
  obtain ⟨hnode, hlt⟩ := hparent a hmem p hp
  exact mem_before horder hsplit hnode hlt

/-- A lineage visits different nodes, so it is shorter than the list of all nodes. -/
theorem Depth.lt_length (h : Depth parent a n) (hmem : a ∈ nodes)
    (hclosed : ∀ a ∈ nodes, ∀ p, parent a = some p → p ∈ nodes) : n < nodes.length := by
  have hchain : ∃ chain : List α, chain.length = n + 1 ∧ chain.Nodup ∧ chain ⊆ nodes ∧
      ∀ c ∈ chain, ∃ m ≤ n, Depth parent c m := by
    induction h with
    | @root a hroot =>
        refine ⟨[a], rfl, List.nodup_singleton a, List.cons_subset.mpr ⟨hmem, List.nil_subset _⟩, ?_⟩
        intro c hc
        obtain rfl := List.mem_singleton.mp hc
        exact ⟨0, Nat.le_refl 0, .root hroot⟩
    | @child a p n hparent hdepth ih =>
        obtain ⟨chain, hlength, hnodup, hsub, hdepths⟩ := ih (hclosed a hmem p hparent)
        have hself : Depth parent a (n + 1) := .child hparent hdepth
        have hnew : a ∉ chain := by
          intro hin
          obtain ⟨m, hm, hdepth'⟩ := hdepths a hin
          have heq := hself.unique hdepth'
          omega
        refine ⟨a :: chain, by rw [List.length_cons, hlength], List.nodup_cons.mpr ⟨hnew, hnodup⟩,
          List.cons_subset.mpr ⟨hmem, hsub⟩, fun c hc => ?_⟩
        rcases List.mem_cons.mp hc with rfl | hold
        · exact ⟨n + 1, Nat.le_refl _, hself⟩
        · obtain ⟨m, hm, hdepth'⟩ := hdepths c hold
          exact ⟨m, by omega, hdepth'⟩
  obtain ⟨chain, hlength, hnodup, hsub, -⟩ := hchain
  have hle := (List.subperm_of_subset hnodup hsub).length_le
  omega

end Igit
