import Igit.Library.Fallible

/-!
# Reading a list page by page

A source hands out a list in pages, each with the cursor of the next one, and a reader asks for page
after page until one is short. `Reader.read_list` says that a reader of a paged list returns the
whole list, and `Reader.read_error` which errors it can end with.
-/

namespace Igit

open Fallible

/-- A map over a list fails with the error of one of its items. -/
theorem Fallible.mapM_eq_error {ε α β : Type} {f : α → Except ε β} {items : List α} {reason : ε}
    (h : items.mapM f = .error reason) : ∃ item ∈ items, f item = .error reason := by
  induction items with
  | nil => cases h
  | cons first rest ih =>
      rw [List.mapM_cons, bind_eq_error] at h
      rcases h with hfirst | ⟨b, -, hrest⟩
      · exact ⟨first, List.mem_cons_self, hfirst⟩
      · rw [bind_eq_error] at hrest
        rcases hrest with hrest | ⟨_, -, hnone⟩
        · obtain ⟨item, hitem, hfails⟩ := ih hrest
          exact ⟨item, List.mem_cons_of_mem _ hitem, hfails⟩
        · cases hnone

namespace Paging

variable {ε α β : Type}

/-- What a reader asks for and how it reads the answers. -/
structure Reader (ε α β : Type) where
  /-- the number of entries it asks for -/
  size : Nat
  /-- cursors are below this bound -/
  bound : Nat
  fetch : Nat → Except ε (List α × Nat)
  convert : α → Except ε β
  /-- the error for a next cursor that is out of bounds -/
  outside : Nat → ε
  /-- the error for a next cursor that is no further than the cursor itself -/
  stuck : Nat → ε

namespace Reader

variable (r : Reader ε α β)

/-- Read the pages from a cursor on, after the entries read so far. The cursor rises with every
round and is bounded, so the rounds come to an end. -/
def read (result : List β) (cursor : Nat) : Except ε (List β) :=
  match r.fetch cursor with
  | .error reason => .error reason
  | .ok (page, next) =>
      if _hbound : r.bound ≤ next then .error (r.outside next)
      else
        match page.mapM r.convert with
        | .error reason => .error reason
        | .ok entries =>
            if page.length = 0 ∨ page.length < r.size then .ok (result ++ entries)
            else if _hstuck : next ≤ cursor then .error (r.stuck cursor)
            else read (result ++ entries) next
termination_by r.bound - cursor
decreasing_by omega

/-- The source of the reader hands out `list`: from a cursor inside the list and the bound it gives as
many entries as were asked for, or those that are left, and the cursor after them. -/
def Serves (list : List α) : Prop :=
  ∀ cursor, cursor ≤ list.length → cursor < r.bound → r.fetch cursor =
    .ok ((list.drop cursor).take r.size, min (cursor + r.size) list.length)

variable {r} {list : List α}

/-- One round in the middle of a paged list. -/
theorem read_eq (h : r.Serves list) {result : List β} {cursor : Nat}
    (hcursor : cursor ≤ list.length) (hinside : cursor < r.bound) :
    r.read result cursor =
      if r.bound ≤ min (cursor + r.size) list.length then
        .error (r.outside (min (cursor + r.size) list.length))
      else ((list.drop cursor).take r.size).mapM r.convert >>= fun entries =>
        if list.length < cursor + r.size ∨ r.size = 0 then .ok (result ++ entries)
        else r.read (result ++ entries) (cursor + r.size) := by
  have hlength : ((list.drop cursor).take r.size).length = min r.size (list.length - cursor) := by
    rw [List.length_take, List.length_drop]
  rw [read, h cursor hcursor hinside]
  by_cases hbound : r.bound ≤ min (cursor + r.size) list.length
  · simp only [dif_pos hbound, if_pos hbound]
  · simp only [dif_neg hbound, if_neg hbound, hlength]
    cases hentries : ((list.drop cursor).take r.size).mapM r.convert with
    | error reason => rfl
    | ok entries =>
        show (if _ then _ else _) = if _ then _ else _
        by_cases hlast : list.length < cursor + r.size ∨ r.size = 0
        · rw [if_pos hlast, if_pos (by omega)]
        · have hnext : min (cursor + r.size) list.length = cursor + r.size := by omega
          rw [if_neg hlast, if_neg (by omega), dif_neg (by omega), hnext]

/-- What is left to read from a cursor: a page, and the rest. -/
theorem mapM_drop (convert : α → Except ε β) (size cursor : Nat) :
    (list.drop cursor).mapM convert =
      ((list.drop cursor).take size).mapM convert >>= fun entries =>
        (list.drop (cursor + size)).mapM convert >>= fun rest => .ok (entries ++ rest) := by
  conv_lhs => rw [← List.take_append_drop size (list.drop cursor), List.mapM_append, List.drop_drop]
  rfl

/-- From a cursor on, a reader of a paged list returns the entries that are left, as long as the
cursors can reach its end. -/
theorem read_from (h : r.Serves list) (hsize : 0 < r.size) (hbound : list.length < r.bound)
    {result : List β} {cursor : Nat} (hcursor : cursor ≤ list.length) :
    r.read result cursor =
      (list.drop cursor).mapM r.convert >>= fun entries => .ok (result ++ entries) := by
  -- the entries left to read decrease with every page
  generalize hleft : list.length - cursor = left
  induction left using Nat.strong_induction_on generalizing result cursor with
  | _ left ih =>
      rw [read_eq h hcursor (by omega), if_neg (by omega), mapM_drop r.convert r.size cursor]
      cases hentries : ((list.drop cursor).take r.size).mapM r.convert with
      | error reason => rfl
      | ok entries =>
          show (if _ then _ else _) = _
          by_cases hlast : list.length < cursor + r.size
          · have hnone : list.drop (cursor + r.size) = [] := List.drop_eq_nil_of_le (by omega)
            rw [if_pos (Or.inl hlast), hnone]
            show _ = Except.ok (result ++ (entries ++ []))
            rw [List.append_nil]
          · rw [if_neg (by omega), ih (list.length - (cursor + r.size)) (by omega) (by omega) rfl]
            show _ = ((list.drop (cursor + r.size)).mapM r.convert >>= fun rest =>
              .ok (entries ++ rest)) >>= fun entries => .ok (result ++ entries)
            cases (list.drop (cursor + r.size)).mapM r.convert with
            | error reason => rfl
            | ok rest =>
                show Except.ok (result ++ entries ++ rest) = .ok (result ++ (entries ++ rest))
                rw [List.append_assoc]

/-- A reader of a paged list returns the whole list, each entry once and in order. -/
theorem read_list (h : r.Serves list) (hsize : 0 < r.size) (hbound : list.length < r.bound) :
    r.read [] 0 = list.mapM r.convert := by
  rw [read_from h hsize hbound (Nat.zero_le _), List.drop_zero]
  cases list.mapM r.convert with
  | error reason => rfl
  | ok entries => rfl

/-- A reader of a paged list fails because an entry cannot be read or the next cursor is out of
bounds, and for nothing else. -/
theorem read_error (h : r.Serves list) (hsize : 0 < r.size) {result : List β} {cursor : Nat}
    (hcursor : cursor ≤ list.length) (hinside : cursor < r.bound) {reason : ε} (hfails : r.read result cursor = .error reason) :
    (∃ next, r.bound ≤ next ∧ next ≤ list.length ∧ reason = r.outside next) ∨
      ∃ item ∈ list, r.convert item = .error reason := by
  generalize hleft : list.length - cursor = left
  induction left using Nat.strong_induction_on generalizing result cursor with
  | _ left ih =>
      rw [read_eq h hcursor hinside] at hfails
      split at hfails
      next hbound =>
        cases hfails
        exact Or.inl ⟨_, hbound, Nat.min_le_right _ _, rfl⟩
      next hnext =>
        rcases bind_eq_error.mp hfails with hpage | ⟨entries, -, hrest⟩
        · obtain ⟨item, hitem, hitems⟩ := mapM_eq_error hpage
          exact Or.inr ⟨item, List.mem_of_mem_drop (List.mem_of_mem_take hitem), hitems⟩
        · split at hrest
          next => cases hrest
          next hmore => exact ih _ (by omega) (by omega) (by omega) hrest rfl

/-- Cursors that cannot reach the end of a paged list stop its reader. -/
theorem read_ne_ok (h : r.Serves list) (hsize : 0 < r.size) (hbound : r.bound ≤ list.length)
    {result entries : List β} {cursor : Nat} (hinside : cursor < r.bound) :
    r.read result cursor ≠ .ok entries := by
  generalize hleft : list.length - cursor = left
  induction left using Nat.strong_induction_on generalizing result cursor with
  | _ left ih =>
      intro hread
      rw [read_eq h (by omega) hinside] at hread
      split at hread
      next => cases hread
      next hnext =>
        obtain ⟨page, -, hrest⟩ := bind_eq_ok.mp hread
        rw [if_neg (by omega)] at hrest
        exact ih _ (by omega) (by omega) rfl hrest

end Reader

end Paging

end Igit
