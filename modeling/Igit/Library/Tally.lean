import Mathlib

/-!
# Tallies

A tally keeps running totals of labelled amounts for a number of accounts, and lists the labels of
each account in the order they first came up. Totals are kept under a hash of the label. When the
hash is injective, a tally is what its entries say: a total is the sum of the matching amounts
(`totals_foldl`), and the listed labels are exactly those with a total, once each.
-/

namespace Igit

/-- Running totals, listed labels and the flags that tell which labels are listed. -/
structure Tally (K D H : Type) where
  totals : K → H → Nat
  labels : K → List D
  known : K → H → Bool

namespace Tally

variable {K D H : Type}

/-- An amount added to a label of an account. -/
structure Entry (K D : Type) where
  account : K
  label : D
  amount : Nat
  deriving DecidableEq, Repr

/-- A tally without entries. -/
def empty : Tally K D H := ⟨fun _ _ => 0, fun _ => [], fun _ _ => false⟩

/-- The flags and the list of labels say the same, without repetition, and a label is listed exactly
when it has a total. -/
structure Listed (hash : D → H) (t : Tally K D H) : Prop where
  known : ∀ account label, t.known account (hash label) = true ↔ label ∈ t.labels account
  nodup : ∀ account, (t.labels account).Nodup
  totals : ∀ account label, label ∈ t.labels account ↔ t.totals account (hash label) ≠ 0

theorem listed_empty {hash : D → H} : (empty : Tally K D H).Listed hash where
  known := fun _ _ => by simp [empty]
  nodup := fun _ => List.nodup_nil
  totals := fun _ _ => by simp [empty]

section Additions

variable [DecidableEq K] [DecidableEq H]

/-- Add an entry, listing its label if it is new. -/
def add (hash : D → H) (t : Tally K D H) (entry : Entry K D) : Tally K D H where
  totals := Function.update t.totals entry.account (Function.update (t.totals entry.account)
    (hash entry.label) (t.totals entry.account (hash entry.label) + entry.amount))
  labels := if t.known entry.account (hash entry.label) then t.labels else
    Function.update t.labels entry.account (t.labels entry.account ++ [entry.label])
  known := if t.known entry.account (hash entry.label) then t.known else
    Function.update t.known entry.account
      (Function.update (t.known entry.account) (hash entry.label) true)

/-- After an entry its label is listed, and the others are as before. -/
theorem Listed.mem_labels_add {hash : D → H} {t : Tally K D H} {entry : Entry K D}
    (h : t.Listed hash) (account : K) (label : D) :
    label ∈ (t.add hash entry).labels account ↔
      label ∈ t.labels account ∨ (account = entry.account ∧ label = entry.label) := by
  by_cases hknown : t.known entry.account (hash entry.label) = true
  · have hlabels : (t.add hash entry).labels = t.labels := if_pos hknown
    have hlisted := (h.known _ _).mp hknown
    rw [hlabels]
    constructor
    · exact .inl
    · intro hmem
      rcases hmem with hmem | ⟨rfl, rfl⟩
      · exact hmem
      · exact hlisted
  · have hlabels : (t.add hash entry).labels = Function.update t.labels entry.account
        (t.labels entry.account ++ [entry.label]) := if_neg hknown
    rw [hlabels]
    by_cases haccount : account = entry.account
    · subst haccount
      simp
    · simp [haccount]

variable [DecidableEq D]

/-- What an entry adds to a label of an account. -/
def Entry.share (entry : Entry K D) (account : K) (label : D) : Nat :=
  if entry.account = account ∧ entry.label = label then entry.amount else 0

/-- What entries add to a label of an account together. -/
def sumOf (entries : List (Entry K D)) (account : K) (label : D) : Nat :=
  (entries.map fun entry => entry.share account label).sum

theorem sumOf_append {entries more : List (Entry K D)} {account : K} {label : D} :
    sumOf (entries ++ more) account label =
      sumOf entries account label + sumOf more account label := by
  simp [sumOf]

variable {hash : D → H} {t : Tally K D H} {entry : Entry K D} {entries : List (Entry K D)}

/-- An entry adds its amount to the total of its account and label, and to no other. -/
theorem totals_add (hinjective : Function.Injective hash) (account : K) (label : D) :
    (t.add hash entry).totals account (hash label) =
      t.totals account (hash label) + entry.share account label := by
  show Function.update t.totals entry.account _ account (hash label) = _
  by_cases haccount : entry.account = account
  · subst haccount
    rw [Function.update_self]
    by_cases hlabel : entry.label = label
    · subst hlabel
      rw [Function.update_self, Entry.share, if_pos ⟨rfl, rfl⟩]
    · rw [Function.update_of_ne (fun heq => hlabel (hinjective heq).symm), Entry.share,
        if_neg fun hboth => hlabel hboth.2, Nat.add_zero]
  · rw [Function.update_of_ne (Ne.symm haccount), Entry.share, if_neg fun hboth => haccount hboth.1,
      Nat.add_zero]

/-- A total is the sum of the entries that match it. -/
theorem totals_foldl (hinjective : Function.Injective hash) (account : K) (label : D) :
    (entries.foldl (add hash) t).totals account (hash label) =
      t.totals account (hash label) + sumOf entries account label := by
  induction entries generalizing t with
  | nil => rfl
  | cons first rest ih =>
      rw [List.foldl_cons, ih, totals_add hinjective, Nat.add_assoc]
      simp [sumOf]

/-- An entry of some amount keeps the labels listed. -/
theorem Listed.add (hinjective : Function.Injective hash) (h : t.Listed hash)
    (hamount : entry.amount ≠ 0) : (t.add hash entry).Listed hash := by
  refine ⟨fun account label => ?_, fun account => ?_, fun account label => ?_⟩
  · rw [h.mem_labels_add, ← h.known]
    by_cases hknown : t.known entry.account (hash entry.label) = true
    · have hflags : (t.add hash entry).known = t.known := if_pos hknown
      rw [hflags]
      constructor
      · exact .inl
      · intro hmem
        rcases hmem with hmem | ⟨rfl, rfl⟩
        · exact hmem
        · exact hknown
    · have hflags : (t.add hash entry).known = Function.update t.known entry.account
          (Function.update (t.known entry.account) (hash entry.label) true) := if_neg hknown
      rw [hflags]
      by_cases haccount : account = entry.account
      · subst haccount
        by_cases hlabel : label = entry.label
        · subst hlabel
          simp
        · have hhash : hash label ≠ hash entry.label := fun heq => hlabel (hinjective heq)
          simp [hlabel, hhash]
      · simp [haccount]
  · by_cases hknown : t.known entry.account (hash entry.label) = true
    · have hlabels : (t.add hash entry).labels = t.labels := if_pos hknown
      rw [hlabels]
      exact h.nodup account
    · have hlabels : (t.add hash entry).labels = Function.update t.labels entry.account
          (t.labels entry.account ++ [entry.label]) := if_neg hknown
      rw [hlabels]
      by_cases haccount : account = entry.account
      · subst haccount
        have hnew : entry.label ∉ t.labels entry.account :=
          fun hmem => hknown ((h.known _ _).mpr hmem)
        rw [Function.update_self, ← List.concat_eq_append]
        exact (h.nodup _).concat hnew
      · rw [Function.update_of_ne haccount]
        exact h.nodup account
  · rw [h.mem_labels_add, h.totals, totals_add hinjective]
    by_cases hboth : entry.account = account ∧ entry.label = label
    · obtain ⟨rfl, rfl⟩ := hboth
      rw [Entry.share, if_pos ⟨rfl, rfl⟩]
      constructor
      · intro _
        omega
      · intro _
        exact .inr ⟨rfl, rfl⟩
    · rw [Entry.share, if_neg hboth, Nat.add_zero]
      constructor
      · intro hmem
        rcases hmem with hmem | ⟨rfl, rfl⟩
        · exact hmem
        · exact absurd ⟨rfl, rfl⟩ hboth
      · exact .inl

/-- A tally of nonzero entries lists its labels right. -/
theorem Listed.foldl (hinjective : Function.Injective hash) (h : t.Listed hash)
    (hamounts : ∀ entry ∈ entries, entry.amount ≠ 0) :
    (entries.foldl (Tally.add hash) t).Listed hash := by
  induction entries generalizing t with
  | nil => exact h
  | cons first rest ih =>
      obtain ⟨hfirst, hrest⟩ := List.forall_mem_cons.mp hamounts
      exact ih (h.add hinjective hfirst) hrest

end Additions

end Tally

end Igit
