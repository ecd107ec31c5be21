import Mathlib

/-!
# What has happened since

A history is a list of events, oldest first. `Since ends x later history` says that `x` happened,
that `later` is everything after it, and that nothing in `later` ends what `x` began.
-/

namespace Igit

variable {α : Type*}

/-- `x` is in the history, followed by `later`, in which no event `ends` what it began. -/
def Since (ends : α → Prop) (x : α) (later history : List α) : Prop :=
  (∃ before, history = before ++ x :: later) ∧ ∀ y ∈ later, ¬ ends y

namespace Since

variable {ends : α → Prop} {x y : α} {later history : List α}

/-- The newest event has nothing after it. -/
theorem now (x : α) (history : List α) : Since ends x [] (history ++ [x]) :=
  ⟨⟨history, rfl⟩, by simp⟩

/-- An event that ends nothing may be added. -/
theorem push (h : Since ends x later history) (hy : ¬ ends y) :
    Since ends x (later ++ [y]) (history ++ [y]) := by
  obtain ⟨⟨before, rfl⟩, hlater⟩ := h
  refine ⟨⟨before, by simp⟩, fun z hz => ?_⟩
  rcases List.mem_append.mp hz with hz | hz
  · exact hlater z hz
  · rw [List.mem_singleton.mp hz]
    exact hy

end Since

end Igit
