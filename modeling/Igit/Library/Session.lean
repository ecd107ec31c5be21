import Mathlib

/-!
# Computations in a session

A computation that talks to a server may fail at any of its requests, and what it has asked for is not
undone by the failure. `Session σ ε` is such a computation over a state `σ` that survives errors of
type `ε`. `Yields x P` says that whatever `x` returns satisfies `P`, in whatever state it starts, and
`Stays I x` that `x` keeps `I`, whether it returns or fails.
-/

namespace Igit

/-- A computation whose state survives its errors. -/
abbrev Session (σ ε α : Type) := ExceptT ε (StateM σ) α

namespace Session

variable {σ ε α β : Type}

/-- The outcome from a state, and the state after it. -/
def after (x : Session σ ε α) (s : σ) : Except ε α × σ := x s

/-- A sequence runs its second part from the state the first one left, unless that one threw. -/
theorem after_bind (x : Session σ ε α) (f : α → Session σ ε β) (s : σ) :
    (x >>= f).after s = match x.after s with
      | (.ok a, s') => (f a).after s'
      | (.error e, s') => (.error e, s') := by
  show (match x.after s with
    | (result, s') => (ExceptT.bindCont f result : StateM σ (Except ε β)) s') = _
  cases x.after s with
  | mk result s' =>
      cases result with
      | ok a => rfl
      | error e => rfl

/-- A handler runs from the state in which its exception was thrown: nothing is rolled back. -/
theorem after_tryCatch (x : Session σ ε α) (handle : ε → Session σ ε α) (s : σ) :
    (tryCatch x handle).after s = match x.after s with
      | (.ok a, s') => (.ok a, s')
      | (.error e, s') => (handle e).after s' := by
  show (match x.after s with
    | (result, s') => (match result with
      | .ok a => (pure (.ok a) : StateM σ (Except ε α))
      | .error e => handle e) s') = _
  cases x.after s with
  | mk result s' =>
      cases result with
      | ok a => rfl
      | error e => rfl

/-! ## What is returned -/

/-- Whatever is returned satisfies `P`. -/
def Yields (x : Session σ ε α) (P : α → Prop) : Prop :=
  ∀ s a s', x.after s = (.ok a, s') → P a

variable {P : α → Prop} {x : Session σ ε α}

/-- A returned value has the properties it has. -/
theorem yields_pure {a : α} (h : P a) : Yields (pure a : Session σ ε α) P := by
  intro s b s' hrun
  cases hrun
  exact h

theorem yields_throw {e : ε} : Yields (throw e : Session σ ε α) P := by
  intro s a s' hrun
  cases hrun

/-- What a sequence returns is returned by its second part, which may use what the first one yields.
-/
theorem Yields.bind {Q : β → Prop} {f : α → Session σ ε β} (hx : Yields x P)
    (hf : ∀ a, P a → Yields (f a) Q) : Yields (x >>= f) Q := by
  intro s b s' hrun
  rw [after_bind] at hrun
  cases hfirst : x.after s with
  | mk result middle =>
      rw [hfirst] at hrun
      cases result with
      | ok a => exact hf a (hx s a middle hfirst) middle b s' hrun
      | error e => cases hrun

/-- A handled session yields what both the session and its handler yield. -/
theorem Yields.tryCatch {handle : ε → Session σ ε α} (hx : Yields x P)
    (hhandle : ∀ e, Yields (handle e) P) : Yields (tryCatch x handle) P := by
  intro s a s' hrun
  rw [after_tryCatch] at hrun
  cases hfirst : x.after s with
  | mk result middle =>
      rw [hfirst] at hrun
      cases result with
      | ok b =>
          cases hrun
          exact hx s _ _ hfirst
      | error e => exact hhandle e middle a s' hrun

/-- A branch yields what its two sides yield under their conditions. -/
theorem Yields.ite {c : Prop} [Decidable c] {y : Session σ ε α} (hx : c → Yields x P)
    (hy : ¬ c → Yields y P) : Yields (if c then x else y) P := by
  by_cases hc : c
  · rw [if_pos hc]
    exact hx hc
  · rw [if_neg hc]
    exact hy hc

/-! ## What is kept -/

/-- A property of the state that is kept, whatever the outcome. -/
def Stays (I : σ → Prop) (x : Session σ ε α) : Prop := ∀ s, I s → I (x.after s).2

variable {I : σ → Prop}

theorem stays_pure {a : α} : Stays I (pure a : Session σ ε α) := fun _ hs => hs

theorem stays_throw {e : ε} : Stays I (throw e : Session σ ε α) := fun _ hs => hs

/-- A sequence keeps what its parts keep, also when the first of them throws. -/
theorem Stays.bind {f : α → Session σ ε β} (hx : Stays I x) (hf : ∀ a, Stays I (f a)) :
    Stays I (x >>= f) := by
  intro s hs
  have hmiddle := hx s hs
  rw [after_bind]
  cases hfirst : x.after s with
  | mk result middle =>
      rw [hfirst] at hmiddle
      cases result with
      | ok a => exact hf a middle hmiddle
      | error e => exact hmiddle

/-- A handled session keeps what both the session and its handler keep. -/
theorem Stays.tryCatch {handle : ε → Session σ ε α} (hx : Stays I x)
    (hhandle : ∀ e, Stays I (handle e)) : Stays I (tryCatch x handle) := by
  intro s hs
  have hmiddle := hx s hs
  rw [after_tryCatch]
  cases hfirst : x.after s with
  | mk result middle =>
      rw [hfirst] at hmiddle
      cases result with
      | ok a => exact hmiddle
      | error e => exact hhandle e middle hmiddle

/-- A branch keeps what its two sides keep under their conditions. -/
theorem Stays.ite {c : Prop} [Decidable c] {y : Session σ ε α} (hx : c → Stays I x)
    (hy : ¬ c → Stays I y) : Stays I (if c then x else y) := by
  by_cases hc : c
  · rw [if_pos hc]
    exact hx hc
  · rw [if_neg hc]
    exact hy hc

end Session

end Igit
