import Mathlib

/-!
# Computations that may be refused

A computation in `Except ε` either returns a value or is refused with a reason. `revertIf`
is the guard of such a computation. The lemmas below take a successful run apart: `bind_eq_ok`
at a sequencing point, `revertIf_eq_ok` and `exists_unit` at a guard, `forM_eq_ok` at a loop of
guards, `foldlM_eq_ok` at a loop whose rounds are understood, and `foldlM_preserves` at any loop
whose body may be refused.

`Returns x P` is the postcondition form of the same facts: whatever `x` returns satisfies `P`. Its
simp set computes the condition under which it holds, so that a property of the result alone is
proved without naming the intermediate values. `Refuses x R` says the same of the reasons of a
refusal, and `Blames` follows a loop up to its first refusal.
-/

namespace Igit.Fallible

variable {ε α β : Type}

/-- Refuse with `reason` when `condition` holds, and go on otherwise. -/
def revertIf (condition : Prop) [Decidable condition] (reason : ε) : Except ε Unit :=
  if condition then .error reason else .ok ()

/-- A guard lets the computation pass exactly when its condition fails. -/
@[simp] theorem revertIf_eq_ok {condition : Prop} [Decidable condition] {reason : ε} {u : Unit} :
    revertIf condition reason = .ok u ↔ ¬ condition := by
  unfold revertIf
  split <;> simp_all

/-- A guard refuses exactly when its condition holds, and with its own reason. -/
@[simp] theorem revertIf_eq_error {condition : Prop} [Decidable condition] {reason other : ε} :
    revertIf condition reason = .error other ↔ condition ∧ reason = other := by
  unfold revertIf
  split <;> simp_all

/-- A sequence succeeds exactly when both of its halves do. -/
theorem bind_eq_ok {x : Except ε α} {f : α → Except ε β} {result : β} :
    (x >>= f) = .ok result ↔ ∃ a, x = .ok a ∧ f a = .ok result := by
  cases x with
  | error reason => simp [bind, Except.bind]
  | ok a => simp [bind, Except.bind]

/-- A sequence is refused by its first half, or by the second half after the first returned. -/
theorem bind_eq_error {x : Except ε α} {f : α → Except ε β} {reason : ε} :
    (x >>= f) = .error reason ↔ x = .error reason ∨ ∃ a, x = .ok a ∧ f a = .error reason := by
  cases x with
  | error other => simp [bind, Except.bind]
  | ok a => simp [bind, Except.bind]

/-- There is one way to return nothing. -/
theorem exists_unit {P : Unit → Prop} : (∃ u, P u) ↔ P () :=
  ⟨fun ⟨_, h⟩ => h, fun h => ⟨(), h⟩⟩

/-- A guard that depends on a case, before a rest that does not. -/
theorem ite_revertIf_eq_ok {c p q : Prop} [Decidable c] [Decidable p] [Decidable q]
    {reason other : ε} {x : Except ε α} {result : α} :
    (if c then revertIf p reason >>= fun _ => x else revertIf q other >>= fun _ => x) = .ok result ↔
      (c → ¬ p) ∧ (¬ c → ¬ q) ∧ x = .ok result := by
  by_cases hc : c
  · simp [hc, bind_eq_ok]
  · simp [hc, bind_eq_ok]

/-- `pure` in a refusable computation never refuses. -/
@[simp] theorem pure_eq_ok {a b : α} : (pure a : Except ε α) = .ok b ↔ a = b := by
  simp [pure, Except.pure]

/-- The value of an option, or a refusal. -/
def demand (value : Option α) (reason : ε) : Except ε α := value.elim (throw reason) pure

@[simp] theorem demand_eq_ok {value : Option α} {reason : ε} {a : α} :
    demand value reason = .ok a ↔ value = some a := by
  cases value with
  | none => simp [demand, throw, throwThe, MonadExceptOf.throw]
  | some b => simp [demand]

/-- A computation that succeeds has a result. -/
theorem exists_of_isOk {x : Except ε α} (h : x.isOk = true) : ∃ a, x = .ok a := by
  cases x with
  | ok a => exact ⟨a, rfl⟩
  | error reason => cases h

/-- Renaming the reasons changes no result. -/
@[simp] theorem mapError_eq_ok {ε' : Type} {x : Except ε α} {f : ε → ε'} {a : α} :
    x.mapError f = .ok a ↔ x = .ok a := by
  cases x <;> simp [Except.mapError]

/-- A loop of checks passes exactly when each of them does. -/
theorem forM_eq_ok {check : α → Except ε Unit} {items : List α} {u : PUnit} :
    items.forM check = .ok u ↔ ∀ item ∈ items, check item = .ok () := by
  rw [List.forM_eq_forM]
  induction items with
  | nil => simp [pure, Except.pure]
  | cons item rest ih =>
      rw [List.forM_cons, bind_eq_ok, exists_unit, ih, List.forall_mem_cons]

/-- A loop of checks fails with one of them. -/
theorem forM_eq_error {check : α → Except ε Unit} {items : List α} {reason : ε}
    (h : items.forM check = .error reason) : ∃ item ∈ items, check item = .error reason := by
  rw [List.forM_eq_forM] at h
  induction items with
  | nil => cases h
  | cons item rest ih =>
      rw [List.forM_cons, bind_eq_error] at h
      rcases h with hfirst | ⟨_, -, hrest⟩
      · exact ⟨item, List.mem_cons_self, hfirst⟩
      · obtain ⟨other, hmem, hother⟩ := ih hrest
        exact ⟨other, List.mem_cons_of_mem _ hmem, hother⟩

/-- Every round of a loop that ran to its end was a success. -/
theorem foldlM_rounds {f : β → α → Except ε β} {items : List α} {start finish : β}
    (hrun : items.foldlM f start = .ok finish) :
    ∀ item ∈ items, ∃ before after, f before item = .ok after := by
  induction items generalizing start with
  | nil => exact fun item hmem => absurd hmem List.not_mem_nil
  | cons first rest ih =>
      intro item hmem
      rw [List.foldlM_cons, bind_eq_ok] at hrun
      obtain ⟨middle, hfirst, hrest⟩ := hrun
      rcases List.mem_cons.mp hmem with rfl | hmem
      · exact ⟨start, middle, hfirst⟩
      · exact ih hrest item hmem

/-- A property kept by every successful round of a loop is kept by the whole loop. -/
theorem foldlM_preserves {P : β → Prop} {f : β → α → Except ε β} {items : List α}
    (hround : ∀ item ∈ items, ∀ before after, f before item = .ok after → P before → P after)
    {start finish : β} (hrun : items.foldlM f start = .ok finish) (hstart : P start) :
    P finish := by
  induction items generalizing start with
  | nil =>
      rw [List.foldlM_nil, pure_eq_ok] at hrun
      exact hrun ▸ hstart
  | cons item rest ih =>
      rw [List.foldlM_cons, bind_eq_ok] at hrun
      obtain ⟨middle, hfirst, hrest⟩ := hrun
      have hmiddle : P middle := hround item (by simp) start middle hfirst hstart
      exact ih (fun other hmem => hround other (by simp [hmem])) hrest hmiddle

/-- Every item is accepted at the point the loop has reached when it comes to it. -/
def Along (accepts : β → α → Prop) (next : β → α → β) : β → List α → Prop
  | _, [] => True
  | start, item :: rest => accepts start item ∧ Along accepts next (next start item) rest

instance decidableAlong {accepts : β → α → Prop} {next : β → α → β}
    [∀ b item, Decidable (accepts b item)] :
    ∀ start items, Decidable (Along accepts next start items)
  | _, [] => isTrue trivial
  | start, item :: rest =>
      have : Decidable (Along accepts next (next start item) rest) :=
        decidableAlong (next start item) rest
      inferInstanceAs (Decidable (accepts start item ∧ Along accepts next (next start item) rest))

/-- A loop of two lists is a loop of the first and then one of the second. -/
theorem along_append {accepts : β → α → Prop} {next : β → α → β} {start : β}
    {items more : List α} :
    Along accepts next start (items ++ more) ↔
      Along accepts next start items ∧ Along accepts next (items.foldl next start) more := by
  induction items generalizing start with
  | nil => simp [Along]
  | cons item rest ih => simp only [List.cons_append, Along, List.foldl_cons, ih, and_assoc]

/-- A check that does not look at the state of the loop can be made beforehand. -/
theorem along_and_forall {accepts : β → α → Prop} {P : α → Prop} {next : β → α → β} {start : β}
    {items : List α} :
    Along (fun b item => accepts b item ∧ P item) next start items ↔
      Along accepts next start items ∧ ∀ item ∈ items, P item := by
  induction items generalizing start with
  | nil => simp [Along]
  | cons item rest ih =>
      rw [Along, Along, ih, List.forall_mem_cons]
      tauto

/-- What every accepted item keeps is kept along the items. -/
theorem along_preserves {accepts : β → α → Prop} {next : β → α → β} {P : β → Prop} {start : β}
    {items : List α} (hround : ∀ b item, accepts b item → P b → P (next b item))
    (h : Along accepts next start items) (hstart : P start) : P (items.foldl next start) := by
  induction items generalizing start with
  | nil => exact hstart
  | cons item rest ih =>
      obtain ⟨hitem, hrest⟩ := h
      exact ih hrest (hround start item hitem hstart)

/-- A loop whose rounds are understood is understood: it succeeds when every round accepts its
item, and its result is that of the loop without checks. -/
theorem foldlM_eq_ok {accepts : β → α → Prop} {next : β → α → β} {f : β → α → Except ε β}
    (hround : ∀ before item after,
      f before item = .ok after ↔ accepts before item ∧ after = next before item)
    {items : List α} {start finish : β} :
    items.foldlM f start = .ok finish ↔
      Along accepts next start items ∧ finish = items.foldl next start := by
  induction items generalizing start with
  | nil =>
      rw [List.foldlM_nil, pure_eq_ok]
      exact ⟨fun h => ⟨trivial, h.symm⟩, fun h => h.2.symm⟩
  | cons item rest ih =>
      simp only [List.foldlM_cons, bind_eq_ok, hround, ih, Along, List.foldl_cons]
      constructor
      · rintro ⟨_, ⟨haccepts, rfl⟩, halong, hfinish⟩
        exact ⟨⟨haccepts, halong⟩, hfinish⟩
      · rintro ⟨⟨haccepts, halong⟩, hfinish⟩
        exact ⟨_, ⟨haccepts, rfl⟩, halong, hfinish⟩

/-- A function that refuses no item of a list can be mapped over it. -/
theorem mapM_ok {f : α → Except ε β} {items : List α} (h : ∀ item ∈ items, ∃ b, f item = .ok b) :
    ∃ results, items.mapM f = .ok results ∧
      ∀ b, b ∈ results ↔ ∃ item ∈ items, f item = .ok b := by
  induction items with
  | nil => exact ⟨[], rfl, by simp⟩
  | cons first rest ih =>
      obtain ⟨b, hb⟩ := h first (by simp)
      obtain ⟨results, hresults, hmem⟩ := ih fun item hitem => h item (List.mem_cons_of_mem _ hitem)
      refine ⟨b :: results, ?_, fun other => ?_⟩
      · rw [List.mapM_cons, hb, hresults]
        rfl
      · have hfirst : f first = .ok other ↔ other = b := by
          rw [hb, Except.ok.injEq, eq_comm]
        simp only [List.mem_cons, hmem, exists_eq_or_imp, hfirst]

/-- Mapping returns the results item by item. -/
theorem mapM_eq_ok_iff {f : α → Except ε β} {items : List α} {results : List β} :
    items.mapM f = .ok results ↔ List.Forall₂ (fun item b => f item = .ok b) items results := by
  induction items generalizing results with
  | nil =>
      rw [List.mapM_nil, pure_eq_ok, List.forall₂_nil_left_iff]
      exact eq_comm
  | cons first rest ih =>
      simp only [List.mapM_cons, bind_eq_ok, ih, pure_eq_ok, List.forall₂_cons_left_iff]
      refine ⟨?_, ?_⟩
      · rintro ⟨b, hfirst, others, hothers, rfl⟩
        exact ⟨b, others, hfirst, hothers, rfl⟩
      · rintro ⟨b, others, hfirst, hothers, rfl⟩
        exact ⟨b, hfirst, others, hothers, rfl⟩

/-- A mapped list comes out as expected exactly when every item does. -/
theorem mapM_eq_map_iff {f : α → Except ε β} {g : α → β} {items : List α} :
    items.mapM f = .ok (items.map g) ↔ ∀ item ∈ items, f item = .ok (g item) := by
  rw [mapM_eq_ok_iff, List.forall₂_map_right_iff, List.forall₂_same]

/-- Mapping over the same items in another order returns the same results in another order. -/
theorem mapM_perm {f : α → Except ε β} {items items' : List α} {results : List β}
    (h : items.mapM f = .ok results) (hperm : items'.Perm items) :
    ∃ results', items'.mapM f = .ok results' ∧ results'.Perm results := by
  obtain ⟨results', hresults', hperm'⟩ := List.perm_comp_forall₂ hperm (mapM_eq_ok_iff.mp h)
  exact ⟨results', mapM_eq_ok_iff.mpr hresults', hperm'⟩

/-- What each successful round of a loop changes in a known way, the loop changes by a fold. -/
theorem foldlM_tracks {γ : Type} {view : β → γ} {next : γ → α → γ} {f : β → α → Except ε β}
    {items : List α} {start finish : β}
    (hround : ∀ before item after, f before item = .ok after → view after = next (view before) item)
    (hrun : items.foldlM f start = .ok finish) : view finish = items.foldl next (view start) := by
  induction items generalizing start with
  | nil =>
      rw [List.foldlM_nil, pure_eq_ok] at hrun
      rw [hrun, List.foldl_nil]
  | cons item rest ih =>
      rw [List.foldlM_cons, bind_eq_ok] at hrun
      obtain ⟨middle, hfirst, hrest⟩ := hrun
      rw [ih hrest, hround start item middle hfirst, List.foldl_cons]

/-- A function into options that is mapped over a list gives as many results. -/
theorem length_of_mapM {f : α → Option β} {items : List α} {results : List β}
    (h : items.mapM f = some results) : results.length = items.length := by
  induction items generalizing results with
  | nil =>
      cases h
      rfl
  | cons first rest ih =>
      simp only [List.mapM_cons, Option.bind_eq_bind, Option.bind_eq_some_iff] at h
      obtain ⟨b, -, others, hothers, hresults⟩ := h
      cases hresults
      rw [List.length_cons, List.length_cons, ih hothers]

/-- A function into options that has a value at every item has values along a list. -/
theorem exists_mapM {f : α → Option β} {R : α → β → Prop} {items : List α}
    (h : ∀ item ∈ items, ∃ b, f item = some b ∧ R item b) :
    ∃ results, items.mapM f = some results ∧ List.Forall₂ R items results := by
  induction items with
  | nil => exact ⟨[], rfl, .nil⟩
  | cons first rest ih =>
      obtain ⟨⟨b, hb, hfirst⟩, hlater⟩ := List.forall_mem_cons.mp h
      obtain ⟨results, hresults, hrest⟩ := ih hlater
      exact ⟨b :: results, by simp [hb, hresults], .cons hfirst hrest⟩

/-- The reason of a refusal, if there is one. -/
def refusal : Except ε α → Option ε
  | .error reason => some reason
  | .ok _ => none

theorem refusal_eq_some {x : Except ε α} {reason : ε} :
    refusal x = some reason ↔ x = .error reason := by
  cases x <;> simp [refusal]

/-! ## Postconditions -/

/-- Every value that `x` can return satisfies `P`. -/
def Returns (x : Except ε α) (P : α → Prop) : Prop := ∀ a, x = .ok a → P a

variable {P Q : α → Prop} {x : Except ε α}

@[simp] theorem returns_pure {a : α} : Returns (pure a : Except ε α) P ↔ P a := by
  simp [Returns]

@[simp] theorem returns_throw {reason : ε} : Returns (throw reason : Except ε α) P := by
  simp [Returns]

@[simp] theorem returns_true : Returns x fun _ => True := fun _ _ => trivial

@[simp] theorem returns_bind {P : β → Prop} {f : α → Except ε β} :
    Returns (x >>= f) P ↔ Returns x fun a => Returns (f a) P := by
  simp only [Returns, bind_eq_ok]
  exact ⟨fun h a hx b hf => h b ⟨a, hx, hf⟩, fun h b ⟨a, hx, hf⟩ => h a hx b hf⟩

@[simp] theorem returns_map {P : β → Prop} {f : α → β} :
    Returns (f <$> x) P ↔ Returns x fun a => P (f a) := by
  cases x <;> simp [Returns, Functor.map, Except.map]

@[simp] theorem returns_ite {c : Prop} [Decidable c] {y : Except ε α} :
    Returns (if c then x else y) P ↔ (c → Returns x P) ∧ (¬ c → Returns y P) := by
  split <;> simp_all

@[simp] theorem returns_revertIf {c : Prop} [Decidable c] {reason : ε} {P : Unit → Prop} :
    Returns (revertIf c reason) P ↔ (¬ c → P ()) := by
  simp only [Returns, revertIf_eq_ok]
  exact ⟨fun h => h (), fun h _ => h⟩

/-- A weaker postcondition. -/
theorem Returns.mono (h : Returns x P) (himp : ∀ a, P a → Q a) : Returns x Q :=
  fun a hx => himp a (h a hx)

/-! ## Reasons of a refusal -/

/-- Every reason for which `x` can be refused satisfies `R`. -/
def Refuses (x : Except ε α) (R : ε → Prop) : Prop := ∀ reason, x = .error reason → R reason

variable {R : ε → Prop}

@[simp] theorem refuses_pure {a : α} : Refuses (pure a : Except ε α) R := by
  simp [Refuses, pure, Except.pure]

@[simp] theorem refuses_throw {reason : ε} : Refuses (throw reason : Except ε α) R ↔ R reason := by
  simp [Refuses, throw, throwThe, MonadExceptOf.throw]

@[simp] theorem refuses_bind {f : α → Except ε β} :
    Refuses (x >>= f) R ↔ Refuses x R ∧ Returns x fun a => Refuses (f a) R := by
  simp only [Refuses, Returns, bind_eq_error]
  constructor
  · intro h
    exact ⟨fun reason hx => h reason (.inl hx), fun a hx reason hf => h reason (.inr ⟨a, hx, hf⟩)⟩
  · rintro ⟨hx, hf⟩ reason (hreason | ⟨a, ha, hreason⟩)
    · exact hx reason hreason
    · exact hf a ha reason hreason

@[simp] theorem refuses_map {f : α → β} : Refuses (f <$> x) R ↔ Refuses x R := by
  cases x <;> simp [Refuses, Functor.map, Except.map]

@[simp] theorem refuses_ite {c : Prop} [Decidable c] {y : Except ε α} :
    Refuses (if c then x else y) R ↔ (c → Refuses x R) ∧ (¬ c → Refuses y R) := by
  split <;> simp_all

@[simp] theorem refuses_revertIf {c : Prop} [Decidable c] {reason : ε} :
    Refuses (revertIf c reason) R ↔ (c → R reason) := by
  simp only [Refuses, revertIf_eq_error]
  exact ⟨fun h hc => h reason ⟨hc, rfl⟩, fun h _ ⟨hc, heq⟩ => heq ▸ h hc⟩

/-- A loop is refused for the reasons of its rounds. -/
theorem refuses_foldlM {f : β → α → Except ε β} {items : List α} {start : β}
    (hround : ∀ before item, Refuses (f before item) R) :
    Refuses (items.foldlM f start) R := by
  induction items generalizing start with
  | nil => simp
  | cons item rest ih =>
      rw [List.foldlM_cons, refuses_bind]
      exact ⟨hround start item, fun after _ => ih⟩

/-! ## Loops that stop for a known reason -/

/-- The loop ends in `Q`, or the first round that is refused is refused as `blame` says. -/
def Blames (f : β → α → Except ε β) (blame : β → α → ε → Prop) (Q : β → Prop) : β → List α → Prop
  | start, [] => Q start
  | start, item :: rest =>
      Refuses (f start item) (blame start item) ∧
        Returns (f start item) fun next => Blames f blame Q next rest

section Blames

variable {f : β → α → Except ε β} {blame : β → α → ε → Prop} {Q Q' : β → Prop} {start : β}
  {items more : List α}

/-- A round that succeeds, before a loop. -/
theorem Blames.cons {item : α} {next : β} (hround : f start item = .ok next)
    (hrest : Blames f blame Q next items) : Blames f blame Q start (item :: items) := by
  refine ⟨fun reason hrefused => ?_, fun other hother => ?_⟩
  · rw [hround] at hrefused
    cases hrefused
  · rw [hround] at hother
    cases hother
    exact hrest

/-- One loop after the other. -/
theorem Blames.append (h : Blames f blame Q start items)
    (hmore : ∀ middle, Q middle → Blames f blame Q' middle more) :
    Blames f blame Q' start (items ++ more) := by
  induction items generalizing start with
  | nil => exact hmore start h
  | cons item rest ih => exact ⟨h.1, h.2.mono fun next hnext => ih hnext⟩

/-- The end of a loop that ran to its end. -/
theorem Blames.returns (h : Blames f blame Q start items) : Returns (items.foldlM f start) Q := by
  induction items generalizing start with
  | nil =>
      rw [List.foldlM_nil, returns_pure]
      exact h
  | cons item rest ih =>
      rw [List.foldlM_cons, returns_bind]
      exact h.2.mono fun next hnext => ih hnext

/-- Whom to blame for a round that was refused. -/
theorem Blames.refused {item : α} {after : List α} {middle : β} {reason : ε}
    (h : Blames f blame Q start (items ++ item :: after)) (hrun : items.foldlM f start = .ok middle)
    (hrefused : f middle item = .error reason) : blame middle item reason := by
  induction items generalizing start with
  | nil =>
      rw [List.foldlM_nil, pure_eq_ok] at hrun
      subst hrun
      exact h.1 reason hrefused
  | cons first rest ih =>
      rw [List.foldlM_cons, bind_eq_ok] at hrun
      obtain ⟨next, hfirst, hrest⟩ := hrun
      exact ih (h.2 next hfirst) hrest

end Blames

end Igit.Fallible

namespace Igit

/-- An invariant of every step is an invariant of every run. -/
theorem reflTransGen_preserves {α : Type*} {R : α → α → Prop} {P : α → Prop}
    (hstep : ∀ before after, R before after → P before → P after) {start finish : α}
    (hrun : Relation.ReflTransGen R start finish) (hstart : P start) : P finish := by
  induction hrun with
  | refl => exact hstart
  | tail _ hlast ih => exact hstep _ _ hlast ih

end Igit
