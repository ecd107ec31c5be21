import Igit.Library.Fallible

/-!
# Checked lists and the tables they are written to

`checkAll` goes through a list with a check that may look at the items before the current one, as a
loop does that remembers what it has seen. `find?_key_eq_some` looks an item up by its key, and
`mem_before` finds an item of a list that is ordered by rank.

The rest is about a sequence of writes to a store. One entry of it that every item overwrites or
leaves alone holds the latest write (`foldl_latest`).
-/

namespace Igit

open Fallible

variable {α ε : Type}

/-! ## Checks -/

/-- Check each item of a list against the items before it. -/
def checkAll (check : List α → α → Except ε Unit) : List α → List α → Except ε Unit
  | _, [] => pure ()
  | seen, item :: rest => do
      check seen item
      checkAll check (seen ++ [item]) rest

theorem checkAll_eq_ok_from {check : List α → α → Except ε Unit} {seen items : List α} {u : Unit} :
    checkAll check seen items = .ok u ↔
      ∀ before item after, items = before ++ item :: after →
        check (seen ++ before) item = .ok () := by
  induction items generalizing seen with
  | nil => simp [checkAll, pure, Except.pure]
  | cons first rest ih =>
      rw [checkAll, bind_eq_ok, exists_unit, ih]
      constructor
      · intro h before item after hsplit
        obtain ⟨hfirst, hrest⟩ := h
        cases before with
        | nil =>
            obtain ⟨rfl, -⟩ := List.cons.inj hsplit
            rw [List.append_nil]
            exact hfirst
        | cons head before =>
            obtain ⟨rfl, htail⟩ := List.cons.inj hsplit
            have hitem := hrest before item after htail
            rw [List.append_assoc] at hitem
            exact hitem
      · intro h
        constructor
        · have hfirst := h [] first rest rfl
          rw [List.append_nil] at hfirst
          exact hfirst
        · intro before item after hsplit
          have hitem := h (first :: before) item after (by rw [hsplit]; rfl)
          rw [List.append_assoc]
          exact hitem

/-- A list passes when each item passes after the items before it. -/
theorem checkAll_eq_ok {check : List α → α → Except ε Unit} {items : List α} {u : Unit} :
    checkAll check [] items = .ok u ↔
      ∀ before item after, items = before ++ item :: after → check before item = .ok () :=
  checkAll_eq_ok_from

/-- The items of a loop are accepted when each is accepted in the state the ones before it leave. -/
theorem along_iff_forall_split {β : Type} {accepts : β → α → Prop} {next : β → α → β} {start : β}
    {items : List α} :
    Along accepts next start items ↔
      ∀ before item after, items = before ++ item :: after →
        accepts (before.foldl next start) item := by
  induction items generalizing start with
  | nil => simp [Along]
  | cons first rest ih =>
      rw [Along, ih]
      constructor
      · intro h before item after hsplit
        cases before with
        | nil =>
            obtain ⟨rfl, -⟩ := List.cons.inj hsplit
            exact h.1
        | cons head before =>
            obtain ⟨rfl, htail⟩ := List.cons.inj hsplit
            exact h.2 before item after htail
      · intro h
        refine ⟨h [] first rest rfl, fun before item after hsplit => ?_⟩
        exact h (first :: before) item after (by rw [hsplit]; rfl)

/-- The places of a mapped list are those of the list. -/
theorem forall_split_map_iff {γ : Type} {P : List α → α → Prop} {f : γ → α} {items : List γ} :
    (∀ before item after, items.map f = before ++ item :: after → P before item) ↔
      ∀ before item after, items = before ++ item :: after → P (before.map f) (f item) := by
  constructor
  · intro h before item after hsplit
    refine h (before.map f) (f item) (after.map f) ?_
    rw [hsplit, List.map_append, List.map_cons]
  · intro h before item after hsplit
    obtain ⟨front, rest, rfl, rfl, hrest⟩ := List.map_eq_append_iff.mp hsplit
    obtain ⟨middle, back, rfl, rfl, rfl⟩ := List.map_eq_cons_iff.mp hrest
    exact h front middle back rfl

theorem checkAll_map_eq_ok {γ : Type} {check : List α → α → Except ε Unit} {f : γ → α}
    {items : List γ} {u : Unit} :
    checkAll check [] (items.map f) = .ok u ↔
      ∀ before item after, items = before ++ item :: after →
        check (before.map f) (f item) = .ok () := by
  rw [checkAll_eq_ok]
  exact forall_split_map_iff (P := fun before item => check before item = .ok ())

theorem along_map_iff {β γ : Type} {accepts : β → α → Prop} {next : β → α → β} {start : β}
    {f : γ → α} {items : List γ} :
    Along accepts next start (items.map f) ↔
      ∀ before item after, items = before ++ item :: after →
        accepts ((before.map f).foldl next start) (f item) := by
  rw [along_iff_forall_split]
  exact forall_split_map_iff (P := fun before item => accepts (before.foldl next start) item)

/-- What every item of a list meets, it meets at its place. -/
theorem forall_split_iff {P : α → Prop} {items : List α} :
    (∀ before item after, items = before ++ item :: after → P item) ↔ ∀ item ∈ items, P item := by
  constructor
  · intro h item hitem
    obtain ⟨before, after, hsplit⟩ := List.append_of_mem hitem
    exact h before item after hsplit
  · intro h before item after hsplit
    apply h
    rw [hsplit]
    exact List.mem_append_right _ List.mem_cons_self

/-- The keys of a list are distinct when each is new at its place. -/
theorem forall_split_new_iff {κ : Type} {key : α → κ} {items : List α} :
    (∀ before item after, items = before ++ item :: after →
      ∀ other ∈ before, key other ≠ key item) ↔ (items.map key).Nodup := by
  constructor
  · intro h
    induction items using List.reverseRecOn with
    | nil => exact List.nodup_nil
    | append_singleton items item ih =>
        rw [List.map_append, List.map_singleton]
        refine List.nodup_append.mpr ⟨ih fun before other after hsplit => ?_, List.nodup_singleton _, ?_⟩
        · exact h before other (after ++ [item]) (by rw [hsplit, List.append_assoc]; rfl)
        · intro k hk k' hk' heq
          obtain ⟨other, hother, rfl⟩ := List.mem_map.mp hk
          obtain rfl := List.mem_singleton.mp hk'
          exact h items item [] rfl other hother heq
  · intro h before item after hsplit other hother heq
    rw [hsplit, List.map_append, List.map_cons] at h
    exact (List.nodup_append.mp h).2.2 _ (List.mem_map_of_mem hother) _ List.mem_cons_self heq

/-- What a check wants of an item holds of every item of a checked list. -/
theorem forall_of_checkAll {check : List α → α → Except ε Unit} {items : List α} {u : Unit}
    {P : α → Prop} (h : checkAll check [] items = .ok u)
    (hcheck : ∀ seen item, check seen item = .ok () → P item) : ∀ item ∈ items, P item :=
  forall_split_iff.mp fun before item after hsplit =>
    hcheck before item (checkAll_eq_ok.mp h before item after hsplit)

/-- A check that wants new keys leaves distinct keys. -/
theorem nodup_of_checkAll {κ : Type} {key : α → κ} {check : List α → α → Except ε Unit}
    {items : List α} {u : Unit} (h : checkAll check [] items = .ok u)
    (hcheck : ∀ seen item, check seen item = .ok () → ∀ other ∈ seen, key other ≠ key item) :
    (items.map key).Nodup :=
  forall_split_new_iff.mp fun before item after hsplit =>
    hcheck before item (checkAll_eq_ok.mp h before item after hsplit)

/-- One more place of a table is filled. -/
theorem countP_update {β : Type} [DecidableEq α] {p : β → Bool} {f : α → β} {items : List α} {item : α}
    {value : β} (hnodup : items.Nodup) (hitem : item ∈ items) (hold : p (f item) = false)
    (hnew : p value = true) :
    items.countP (fun other => p (Function.update f item value other)) =
      items.countP (fun other => p (f other)) + 1 := by
  obtain ⟨before, after, rfl⟩ := List.append_of_mem hitem
  have hothers : item ∉ before ++ after := (List.nodup_middle.mp hnodup).notMem
  have hsame : ∀ part : List α, item ∉ part →
      part.countP (fun other => p (Function.update f item value other)) =
        part.countP fun other => p (f other) := by
    intro part hpart
    refine List.countP_congr fun other hother => ?_
    have hne : other ≠ item := by
      rintro rfl
      exact hpart hother
    rw [Function.update_of_ne hne]
  rw [List.countP_append, List.countP_append, List.countP_cons, List.countP_cons,
    hsame before (fun h => hothers (by simp [h])), hsame after (fun h => hothers (by simp [h]))]
  simp only [Function.update_self, hold, hnew, if_true, Bool.false_eq_true, if_false]
  omega

/-! ## Keys -/

/-- With distinct keys an item is found by its key. -/
theorem find?_key_eq_some {κ : Type} [DecidableEq κ] {key : α → κ} {items : List α}
    (hkeys : (items.map key).Nodup) {k : κ} {item : α} :
    items.find? (fun other => decide (key other = k)) = some item ↔ item ∈ items ∧ key item = k := by
  constructor
  · intro h
    have hkey := List.find?_some h
    exact ⟨List.mem_of_find?_eq_some h, by simpa using hkey⟩
  · intro h
    obtain ⟨hitem, rfl⟩ := h
    cases hfind : items.find? (fun other => decide (key other = key item)) with
    | none =>
        have hnone := List.find?_eq_none.mp hfind item hitem
        simp at hnone
    | some other =>
        have hkey : key other = key item := by
          have hfound := List.find?_some hfind
          simpa using hfound
        rw [List.inj_on_of_nodup_map hkeys (List.mem_of_find?_eq_some hfind) hitem hkey]

/-! ## Order -/

/-- In a list ordered by rank, what has a lower rank than an item comes before it. -/
theorem mem_before {rank : α → Nat} {items before after : List α} {item other : α}
    (horder : items.Pairwise fun a b => rank a ≤ rank b) (hsplit : items = before ++ item :: after)
    (hother : other ∈ items) (hlt : rank other < rank item) : other ∈ before := by
  rw [hsplit] at hother horder
  have hafter := (List.pairwise_append.mp horder).2.1
  rcases List.mem_append.mp hother with hbefore | hrest
  · exact hbefore
  · rcases List.mem_cons.mp hrest with rfl | hlater
    · exact absurd hlt (Nat.lt_irrefl _)
    · have hle := (List.pairwise_cons.mp hafter).1 other hlater
      omega

/-- Sorting by a relation that follows a rank orders by rank. -/
theorem insertionSort_pairwise_rank {r : α → α → Prop} [DecidableRel r] {rank : α → Nat}
    (hle : ∀ a b, r a b → rank a ≤ rank b) (hge : ∀ a b, ¬ r a b → rank b ≤ rank a)
    (items : List α) : (items.insertionSort r).Pairwise fun a b => rank a ≤ rank b := by
  have hinsert : ∀ a (sorted : List α), sorted.Pairwise (fun a b => rank a ≤ rank b) →
      (sorted.orderedInsert r a).Pairwise fun a b => rank a ≤ rank b := by
    intro a sorted hsorted
    induction sorted with
    | nil => exact List.pairwise_singleton _ a
    | cons b rest ih =>
        obtain ⟨hfirst, hrest⟩ := List.pairwise_cons.mp hsorted
        by_cases h : r a b
        · rw [List.orderedInsert_cons_of_le r rest h]
          refine List.pairwise_cons.mpr ⟨fun c hc => ?_, hsorted⟩
          have hab := hle a b h
          rcases List.mem_cons.mp hc with rfl | hc
          · exact hab
          · have hbc := hfirst c hc
            omega
        · rw [List.orderedInsert_of_not_le r rest h]
          refine List.pairwise_cons.mpr ⟨fun c hc => ?_, ih hrest⟩
          rcases (List.mem_orderedInsert r).mp hc with rfl | hc
          · exact hge c b h
          · exact hfirst c hc
  induction items with
  | nil => exact List.Pairwise.nil
  | cons a rest ih => exact hinsert a _ ih

/-! ## Writes -/

section Writes

variable {S V : Type} {step : S → α → S} {s : S} {items : List α}

/-- The latest write among the items. -/
def latest (write : α → Option V) (items : List α) : Option V := items.reverse.findSome? write

/-- An entry that each item overwrites or leaves alone holds the latest write. -/
theorem foldl_latest (read : S → V) {write : α → Option V}
    (h : ∀ s item, read (step s item) = (write item).getD (read s)) :
    read (items.foldl step s) = (latest write items).getD (read s) := by
  induction items using List.reverseRecOn with
  | nil => rfl
  | append_singleton items item ih =>
      rw [List.foldl_append, List.foldl_cons, List.foldl_nil, h, ih]
      unfold latest
      rw [List.reverse_append, List.reverse_singleton, List.singleton_append, List.findSome?_cons]
      cases write item with
      | none => rfl
      | some value => rfl

variable {write : α → Option V}

theorem latest_eq_none : latest write items = none ↔ ∀ item ∈ items, write item = none := by
  unfold latest
  rw [List.findSome?_eq_none_iff]
  simp only [List.mem_reverse]

theorem exists_of_latest {value : V} (h : latest write items = some value) :
    ∃ item ∈ items, write item = some value := by
  obtain ⟨item, hitem, hwrite⟩ := List.exists_of_findSome?_eq_some h
  exact ⟨item, List.mem_reverse.mp hitem, hwrite⟩

/-- A place that counts as free until it is written is free when it was and nothing is written. -/
theorem latest_getD_free (Free : V → Prop) (initial : V)
    (hwrite : ∀ item ∈ items, ∀ value, write item = some value → ¬ Free value) :
    Free ((latest write items).getD initial) ↔
      Free initial ∧ ∀ item ∈ items, write item = none := by
  cases hlatest : latest write items with
  | none =>
      have hnone := latest_eq_none.mp hlatest
      exact ⟨fun h => ⟨h, hnone⟩, fun h => h.1⟩
  | some value =>
      obtain ⟨item, hitem, hvalue⟩ := exists_of_latest hlatest
      refine iff_of_false (hwrite item hitem value hvalue) fun h => ?_
      exact absurd (hvalue.symm.trans (h.2 item hitem)) (Option.some_ne_none value)

end Writes

end Igit
