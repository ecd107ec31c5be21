import Mathlib

/-!
# Text in lines and fields

A file that is only appended to is a sequence of lines that each end in a separator. Splitting such
a text at the separator gives the lines back when none of them contains it, and the same goes for
the first fields of a line. Every text is such lines and a rest (`exists_terminated`). A reader that
holds one line at a time in a buffer of a fixed size (`scanLines`) gives them back exactly when each
fits (`scanLines_terminated`).
-/

namespace Igit

variable {α : Type} {sep : α}

/-- The text of lines that each end in `sep`. -/
def terminated (sep : α) (lines : List (List α)) : List α := lines.flatMap fun line => line ++ [sep]

theorem terminated_append (lines more : List (List α)) :
    terminated sep (lines ++ more) = terminated sep lines ++ terminated sep more :=
  List.flatMap_append

theorem mem_terminated {x : α} {line : List α} {lines : List (List α)} (hline : line ∈ lines)
    (hx : x ∈ line) : x ∈ terminated sep lines :=
  List.mem_flatMap.mpr ⟨line, hline, List.mem_append_left _ hx⟩

/-- A text is lines that end in the separator, and what follows the last of them. -/
theorem exists_terminated (sep : α) (text : List α) : ∃ lines last,
    (∀ line ∈ lines, sep ∉ line) ∧ sep ∉ last ∧ text = terminated sep lines ++ last := by
  induction text with
  | nil => exact ⟨[], [], by simp, by simp, rfl⟩
  | cons c rest ih =>
      obtain ⟨lines, last, hlines, hlast, rfl⟩ := ih
      by_cases hc : c = sep
      · exact ⟨[] :: lines, last, List.forall_mem_cons.mpr ⟨by simp, hlines⟩, hlast, by
          rw [hc]
          rfl⟩
      have hcons : ∀ line, sep ∉ line → sep ∉ c :: line :=
        fun line hline => List.not_mem_cons_of_ne_of_not_mem (Ne.symm hc) hline
      cases lines with
      | nil => exact ⟨[], c :: last, by simp, hcons last hlast, rfl⟩
      | cons line later =>
          obtain ⟨hline, hlater⟩ := List.forall_mem_cons.mp hlines
          exact ⟨(c :: line) :: later, last, List.forall_mem_cons.mpr ⟨hcons line hline, hlater⟩,
            hlast, rfl⟩

variable [BEq α] [LawfulBEq α]

/-- What stands before the first separator is split off. -/
theorem splitOn_cons_sep {first rest : List α} (h : sep ∉ first) :
    (first ++ sep :: rest).splitOn sep = first :: rest.splitOn sep := by
  have hfree : ∀ x ∈ first, (x == sep) = false := by
    intro x hx
    rw [beq_eq_false_iff_ne]
    intro heq
    exact h (heq ▸ hx)
  have hsep : (fun x => x == sep) sep = true := beq_self_eq_true sep
  exact List.splitOnP_append_cons_of_forall_mem hfree sep hsep rest

/-- Lines without separators are read back, with what follows the last of them. -/
theorem splitOn_terminated {lines : List (List α)} (h : ∀ line ∈ lines, sep ∉ line)
    (rest : List α) : (terminated sep lines ++ rest).splitOn sep = lines ++ rest.splitOn sep := by
  induction lines with
  | nil => rfl
  | cons line later ih =>
      obtain ⟨hline, hlater⟩ := List.forall_mem_cons.mp h
      have htext : terminated sep (line :: later) ++ rest =
          line ++ sep :: (terminated sep later ++ rest) := by
        unfold terminated
        rw [List.flatMap_cons, List.append_assoc, List.append_assoc]
        rfl
      rw [htext, splitOn_cons_sep hline, ih hlater]
      rfl

/-- The parts of a text are its lines. -/
theorem splitOn_eq {lines : List (List α)} {last : List α} (hlines : ∀ line ∈ lines, sep ∉ line)
    (hlast : sep ∉ last) : (terminated sep lines ++ last).splitOn sep = lines ++ [last] := by
  have hfree : ∀ x ∈ last, (x == sep) = false := by
    intro x hx
    rw [beq_eq_false_iff_ne]
    intro heq
    exact hlast (heq ▸ hx)
  rw [splitOn_terminated hlines]
  exact congrArg (lines ++ ·) (List.splitOnP_eq_singleton hfree)

/-- A part of a text has no separator, and nothing that is not in the text. -/
theorem mem_splitOn {part text : List α} (h : part ∈ text.splitOn sep) : sep ∉ part ∧ part ⊆ text := by
  obtain ⟨lines, last, hlines, hlast, rfl⟩ := exists_terminated sep text
  rw [splitOn_eq hlines hlast] at h
  rcases List.mem_append.mp h with hline | hend
  · exact ⟨hlines part hline, fun x hx => List.mem_append_left _ (mem_terminated hline hx)⟩
  · obtain rfl := List.mem_singleton.mp hend
    exact ⟨hlast, fun x hx => List.mem_append_right _ hx⟩

theorem terminated_splitOn (text : List α) : terminated sep (text.splitOn sep) = text ++ [sep] := by
  obtain ⟨lines, last, hlines, hlast, rfl⟩ := exists_terminated sep text
  rw [splitOn_eq hlines hlast, terminated_append, List.append_assoc]
  exact congrArg (terminated sep lines ++ ·) (List.append_nil _)

/-- A text without separators in front of another is put in front of its first part. -/
theorem splitOn_append {first : List α} (hfirst : sep ∉ first) (rest : List α) :
    ∃ head tail, rest.splitOn sep = head :: tail ∧
      (first ++ rest).splitOn sep = (first ++ head) :: tail := by
  obtain ⟨lines, last, hlines, hlast, rfl⟩ := exists_terminated sep rest
  have happend : ∀ part, sep ∉ part → sep ∉ first ++ part :=
    fun part hpart h => (List.mem_append.mp h).elim hfirst hpart
  rw [splitOn_eq hlines hlast]
  cases lines with
  | nil => exact ⟨last, [], rfl, @splitOn_eq _ _ _ _ [] _ (by simp) (happend last hlast)⟩
  | cons line later =>
      obtain ⟨hline, hlater⟩ := List.forall_mem_cons.mp hlines
      have htext : first ++ (terminated sep (line :: later) ++ last) =
          terminated sep ((first ++ line) :: later) ++ last := by
        simp [terminated]
      refine ⟨line, later ++ [last], rfl, ?_⟩
      rw [htext, splitOn_eq (List.forall_mem_cons.mpr ⟨happend line hline, hlater⟩) hlast]
      rfl

/-- A separator splits what stands before it from what stands after it. -/
theorem splitOn_append_cons_sep (first rest : List α) :
    (first ++ sep :: rest).splitOn sep = first.splitOn sep ++ rest.splitOn sep := by
  obtain ⟨lines, last, hlines, hlast, rfl⟩ := exists_terminated sep first
  have htext : terminated sep lines ++ last ++ sep :: rest =
      terminated sep (lines ++ [last]) ++ rest := by
    simp [terminated]
  have hparts : ∀ part ∈ lines ++ [last], sep ∉ part := by
    intro part hpart
    rcases List.mem_append.mp hpart with hline | hend
    · exact hlines part hline
    · exact List.mem_singleton.mp hend ▸ hlast
  rw [htext, splitOn_terminated hparts, splitOn_eq hlines hlast]

/-- The parts of joined texts are the parts of each. -/
theorem splitOn_intercalate_eq_flatMap {texts : List (List α)} (h : texts ≠ []) :
    (List.intercalate [sep] texts).splitOn sep = texts.flatMap (List.splitOn sep) := by
  induction texts with
  | nil => exact absurd rfl h
  | cons first rest ih =>
      cases rest with
      | nil => simp [List.intercalate]
      | cons second later =>
          rw [List.intercalate_cons_of_ne_nil (by simp), List.append_assoc, List.singleton_append,
            splitOn_append_cons_sep, ih (by simp)]
          rfl

theorem splitOn_ne_nil (sep : α) (text : List α) : text.splitOn sep ≠ [] := by
  obtain ⟨lines, last, hlines, hlast, rfl⟩ := exists_terminated sep text
  rw [splitOn_eq hlines hlast]
  simp

/-- The parts determine the text. -/
theorem splitOn_injective : Function.Injective (List.splitOn sep) :=
  Function.LeftInverse.injective (g := List.intercalate [sep]) fun _ =>
    List.intercalate_splitOn sep

/-- Two lists of texts are joined to one text exactly when they have the same parts. -/
theorem intercalate_eq_iff {texts texts' : List (List α)} (h : texts ≠ []) (h' : texts' ≠ []) :
    List.intercalate [sep] texts = List.intercalate [sep] texts' ↔
      texts.flatMap (List.splitOn sep) = texts'.flatMap (List.splitOn sep) := by
  rw [← splitOn_intercalate_eq_flatMap h, ← splitOn_intercalate_eq_flatMap h',
    splitOn_injective.eq_iff]

/-- A text without separators is its only part. -/
theorem splitOn_of_notMem {text : List α} (h : sep ∉ text) : text.splitOn sep = [text] :=
  @splitOn_eq _ _ _ _ [] _ (by simp) h

/-- Texts without the separator are not cut. -/
theorem flatMap_splitOn_of_notMem {texts : List (List α)} (h : ∀ text ∈ texts, sep ∉ text) :
    texts.flatMap (List.splitOn sep) = texts := by
  have hcut : texts.flatMap (List.splitOn sep) = texts.flatMap fun text => [text] :=
    List.flatMap_congr fun text htext => splitOn_of_notMem (h text htext)
  rw [hcut, List.flatMap_singleton']

/-- Joined parts are cut at the joints. -/
theorem splitOn_intercalate_of_notMem {texts : List (List α)} (hne : texts ≠ [])
    (h : ∀ text ∈ texts, sep ∉ text) : (List.intercalate [sep] texts).splitOn sep = texts := by
  rw [splitOn_intercalate_eq_flatMap hne, flatMap_splitOn_of_notMem h]

/-! ## A reader with a buffer -/

section Scan

variable {α : Type} [DecidableEq α] {sep : α} {limit : Nat}

/-- Go through a text with the part of the current line that was read before, and tell whether the
end was reached. A line of `limit` items fills the buffer before its end is found. -/
def scanFrom (sep : α) (limit : Nat) : List α → List α → List (List α) × Bool
  | [], [] => ([], true)
  | line@(_ :: _), [] => ([line], true)
  | line, c :: rest =>
      if c = sep then
        let more := scanFrom sep limit [] rest
        (line :: more.1, more.2)
      else if limit ≤ line.length + 1 then ([], false)
      else scanFrom sep limit (line ++ [c]) rest

/-- The lines of a text as far as they fit the buffer, and whether all of them did. -/
def scanLines (sep : α) (limit : Nat) (text : List α) : List (List α) × Bool :=
  scanFrom sep limit [] text

theorem scanFrom_sep (line rest : List α) :
    scanFrom sep limit line (sep :: rest) =
      (line :: (scanFrom sep limit [] rest).1, (scanFrom sep limit [] rest).2) := by
  rw [scanFrom, if_pos rfl]

theorem scanFrom_cons {c : α} (h : c ≠ sep) (line rest : List α) :
    scanFrom sep limit line (c :: rest) =
      if limit ≤ line.length + 1 then ([], false) else scanFrom sep limit (line ++ [c]) rest := by
  rw [scanFrom, if_neg h]

/-- A line that fits is read. -/
theorem scanFrom_fits {before line : List α} (hfree : sep ∉ line)
    (hfits : before.length + line.length < limit) (rest : List α) :
    scanFrom sep limit before (line ++ sep :: rest) =
      ((before ++ line) :: (scanFrom sep limit [] rest).1, (scanFrom sep limit [] rest).2) := by
  induction line generalizing before with
  | nil => rw [List.nil_append, List.append_nil, scanFrom_sep]
  | cons c line ih =>
      have hc : c ≠ sep := fun h => hfree (h ▸ List.mem_cons_self)
      have hline : sep ∉ line := fun h => hfree (List.mem_cons_of_mem c h)
      rw [List.length_cons] at hfits
      rw [List.cons_append, scanFrom_cons hc, if_neg (by omega),
        ih hline (by rw [List.length_append, List.length_singleton]; omega), List.append_assoc]
      rfl

/-- A line that does not fit stops the reader. -/
theorem scanFrom_tooLong {before line : List α} (hfree : sep ∉ line) (hbefore : before.length < limit)
    (hlong : limit ≤ before.length + line.length) (rest : List α) :
    scanFrom sep limit before (line ++ rest) = ([], false) := by
  induction line generalizing before with
  | nil =>
      rw [List.length_nil] at hlong
      omega
  | cons c line ih =>
      have hc : c ≠ sep := fun h => hfree (h ▸ List.mem_cons_self)
      have hline : sep ∉ line := fun h => hfree (List.mem_cons_of_mem c h)
      rw [List.length_cons] at hlong
      rw [List.cons_append, scanFrom_cons hc]
      by_cases hfull : limit ≤ before.length + 1
      · rw [if_pos hfull]
      · rw [if_neg hfull]
        refine ih hline ?_ ?_
        · rw [List.length_append, List.length_singleton]
          omega
        · rw [List.length_append, List.length_singleton]
          omega

/-- Terminated lines are all read exactly when each of them fits. -/
theorem scanLines_terminated (hlimit : 0 < limit) {lines : List (List α)}
    (hfree : ∀ line ∈ lines, sep ∉ line) :
    ((scanLines sep limit (terminated sep lines)).2 = true ↔ ∀ line ∈ lines, line.length < limit) ∧
      ((∀ line ∈ lines, line.length < limit) →
        (scanLines sep limit (terminated sep lines)).1 = lines) := by
  unfold scanLines
  induction lines with
  | nil => exact ⟨by simp [terminated, scanFrom], fun _ => rfl⟩
  | cons line later ih =>
      obtain ⟨hline, hlater⟩ := List.forall_mem_cons.mp hfree
      obtain ⟨hend, hlines⟩ := ih hlater
      have htext : terminated sep (line :: later) = line ++ sep :: terminated sep later := by
        unfold terminated
        rw [List.flatMap_cons, List.append_assoc]
        rfl
      rw [htext, List.forall_mem_cons]
      by_cases hfits : line.length < limit
      · rw [scanFrom_fits hline (by rw [List.length_nil]; omega), List.nil_append]
        refine ⟨⟨fun h => ⟨hfits, hend.mp h⟩, fun h => hend.mpr h.2⟩, fun h => ?_⟩
        rw [hlines h.2]
      · rw [scanFrom_tooLong hline (by rw [List.length_nil]; omega)
          (by rw [List.length_nil]; omega)]
        refine ⟨iff_of_false (by simp) fun h => hfits h.1, fun h => absurd h.1 hfits⟩

end Scan

end Igit
