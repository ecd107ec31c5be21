import Igit.Library.Tables
import Igit.Replication.Pins

/-!
# Reading the state file back

`record` writes the strings of a ticket and a request into a line without escaping them, and
`loadState` reads the first two fields of every line. A use is read back from a file that could be
read back before exactly when it is `Readable`: its ticket and its CID have no separator, and the
lines that a newline in another field begins say nothing that is not so (`World.record_restores_iff`).
`state_file_restored` is the same along every run of the service.
-/

namespace Igit.Replication

open Fallible

/-! ## Lines and what they write -/

/-- The CID that a line gives a ticket. -/
def lineWrite (jti line : Bytes) : Option Bytes :=
  (lineEntry line).bind fun entry => if entry.1 = jti then some entry.2 else none

theorem lineWrite_eq_some {jti line cid : Bytes} :
    lineWrite jti line = some cid ↔ lineEntry line = some (jti, cid) := by
  unfold lineWrite
  cases lineEntry line with
  | none => simp
  | some entry =>
      obtain ⟨other, value⟩ := entry
      by_cases heq : other = jti
      · simp [heq]
      · simp [heq]

theorem loadLine_apply (used : Used) (line jti : Bytes) :
    loadLine used line jti = (lineWrite jti line).or (used jti) := by
  unfold loadLine lineWrite
  cases lineEntry line with
  | none => rfl
  | some entry =>
      obtain ⟨key, cid⟩ := entry
      show Function.update used key (some cid) jti =
        (if key = jti then some cid else none).or (used jti)
      by_cases heq : key = jti
      · rw [heq, Function.update_self, if_pos rfl]
        rfl
      · rw [Function.update_of_ne (Ne.symm heq), if_neg heq]
        rfl

/-- A ticket has the CID of the latest line that gives it one. -/
theorem foldl_loadLine_apply (lines : List Bytes) (used : Used) (jti : Bytes) :
    lines.foldl loadLine used jti = (latest (lineWrite jti) lines).or (used jti) := by
  induction lines using List.reverseRecOn with
  | nil => rfl
  | append_singleton lines line ih =>
      rw [List.foldl_append, List.foldl_cons, List.foldl_nil, loadLine_apply, ih]
      unfold latest
      rw [List.reverse_append, List.reverse_singleton, List.singleton_append, List.findSome?_cons]
      cases lineWrite jti line with
      | none => rfl
      | some cid => rfl

/-- A text without separators. -/
def SepFree (text : Bytes) : Prop := tab ∉ text ∧ newline ∉ text

/-- What is read has no separators. -/
theorem sepFree_of_lineEntry {line jti cid : Bytes} (h : lineEntry line = some (jti, cid))
    (hline : newline ∉ line) : SepFree jti ∧ SepFree cid := by
  have hparts : ∀ part ∈ line.splitOn tab, SepFree part := fun part hpart =>
    ⟨(mem_splitOn hpart).1, fun hin => hline ((mem_splitOn hpart).2 hin)⟩
  unfold lineEntry at h
  split at h
  · next hsplit =>
      cases h
      rw [hsplit] at hparts
      exact ⟨hparts _ List.mem_cons_self, hparts _ (List.mem_cons_of_mem _ List.mem_cons_self)⟩
  · cases h

/-! ## One use -/

/-- The lines after the first that a record takes up in the file. -/
def continuation (cl : Claims) (req : Request) : List Bytes :=
  ((recordLine cl req).splitOn newline).tail

/-- A line without separators in its ticket and its CID begins with both. -/
theorem splitOn_recordLine {cl : Claims} {req : Request} (hjti : SepFree cl.jti)
    (hcid : SepFree req.cid) : ∃ line, lineEntry line = some (cl.jti, req.cid) ∧
      (recordLine cl req).splitOn newline = line :: continuation cl req := by
  have hstart : newline ∉ cl.jti ++ tab :: (req.cid ++ [tab]) := by
    intro hin
    rcases List.mem_append.mp hin with hin | hin
    · exact hjti.2 hin
    · rcases List.mem_cons.mp hin with heq | hin
      · revert heq
        decide
      · rcases List.mem_append.mp hin with hin | hin
        · exact hcid.2 hin
        · revert hin
          decide
  obtain ⟨rest, hrest⟩ : ∃ rest, recordLine cl req = (cl.jti ++ tab :: (req.cid ++ [tab])) ++ rest := by
    refine ⟨decimal cl.expiresAt ++ tab :: (cl.subject ++ tab :: (req.owner ++ tab :: (req.repo ++
      tab :: (req.ref ++ tab :: decimal req.size)))), ?_⟩
    unfold recordLine
    simp only [List.append_assoc, List.cons_append, List.nil_append]
  obtain ⟨head, tail, -, hsplit⟩ := splitOn_append hstart rest
  refine ⟨cl.jti ++ tab :: (req.cid ++ [tab]) ++ head, ?_, ?_⟩
  · have htext : cl.jti ++ tab :: (req.cid ++ [tab]) ++ head =
        cl.jti ++ tab :: (req.cid ++ tab :: head) := by simp
    unfold lineEntry
    rw [htext, splitOn_cons_sep hjti.1, splitOn_cons_sep hcid.1]
  · unfold continuation
    rw [hrest, hsplit]
    rfl

namespace World

/-- The file is read back as the tickets in memory. -/
def Restores (w : World) : Prop := loadState w.file = w.used

/-- A use that is read back as what it is: ticket and CID have no separators, and a line that its
other fields add gives a ticket only the CID that the ticket has. -/
structure Readable (w : World) (cl : Claims) (req : Request) : Prop where
  jti : SepFree cl.jti
  cid : SepFree req.cid
  invents_nothing : ∀ jti cid, latest (lineWrite jti) (continuation cl req) = some cid →
    Function.update w.used cl.jti (some req.cid) jti = some cid

/-- A use of a new ticket is read back exactly when it is readable. -/
theorem record_restores_iff {w : World} (hlined : w.Lined) (hrestores : w.Restores) {cl : Claims}
    {req : Request} (hunused : w.used cl.jti = none) :
    (w.record cl req).Restores ↔ w.Readable cl req := by
  have hloaded := hlined.loadState_record cl req
  rw [hrestores] at hloaded
  have hused : (w.record cl req).used cl.jti = some req.cid := Function.update_self ..
  -- with its ticket and CID free of separators, a use is followed by its continuation
  have hrest : SepFree cl.jti → SepFree req.cid → ∀ jti, loadState (w.record cl req).file jti =
      (latest (lineWrite jti) (continuation cl req)).or ((w.record cl req).used jti) := by
    intro hjti hcid jti
    obtain ⟨line, hentry, hsplit⟩ := splitOn_recordLine hjti hcid
    have hfirst : loadLine w.used line = (w.record cl req).used := by
      funext other
      rw [loadLine_apply]
      by_cases heq : other = cl.jti
      · subst heq
        rw [lineWrite_eq_some.mpr hentry, hused]
        rfl
      · have hnone : lineWrite other line = none := by
          unfold lineWrite
          rw [hentry]
          exact if_neg (Ne.symm heq)
        rw [hnone]
        exact (Function.update_of_ne heq _ _).symm
    rw [hloaded, hsplit, List.foldl_cons, hfirst, foldl_loadLine_apply]
  constructor
  · intro h
    have hentry : ∃ line ∈ (recordLine cl req).splitOn newline,
        lineEntry line = some (cl.jti, req.cid) := by
      have hread : loadState (w.record cl req).file cl.jti = some req.cid := by
        rw [h]
        exact hused
      rw [hloaded, foldl_loadLine_apply, hunused, Option.or_none] at hread
      obtain ⟨line, hline, hwrite⟩ := exists_of_latest hread
      exact ⟨line, hline, lineWrite_eq_some.mp hwrite⟩
    obtain ⟨line, hline, hline'⟩ := hentry
    obtain ⟨hjti, hcid⟩ := sepFree_of_lineEntry hline' (mem_splitOn hline).1
    refine ⟨hjti, hcid, fun jti cid hwrite => ?_⟩
    have hread := hrest hjti hcid jti
    rw [h, hwrite] at hread
    exact hread
  · intro h
    funext jti
    rw [hrest h.jti h.cid jti]
    cases hwrite : latest (lineWrite jti) (continuation cl req) with
    | none => rfl
    | some cid => exact (h.invents_nothing jti cid hwrite).symm

/-- A line without separators in its fields is readable. -/
theorem readable_of_clean {cl : Claims} {req : Request} (h : Clean cl req) (w : World) :
    w.Readable cl req := by
  have hsub : ∀ x, x ∈ cl.jti ∨ x ∈ req.cid → x ∈ recordLine cl req := by
    intro x hx
    unfold recordLine
    rcases hx with hx | hx
    · exact List.mem_append_left _ hx
    · exact List.mem_append_right _ (List.mem_cons_of_mem _ (List.mem_append_left _ hx))
  have hnone : continuation cl req = [] := congrArg List.tail (splitOn_of_notMem h.line)
  refine ⟨⟨h.jti, fun hin => h.line (hsub _ (Or.inl hin))⟩,
    ⟨h.cid, fun hin => h.line (hsub _ (Or.inr hin))⟩, fun jti cid hwrite => ?_⟩
  rw [hnone] at hwrite
  cases hwrite

end World

/-! ## Runs -/

namespace State

/-- An event that records no unreadable use. -/
def RecordsReadable (cfg : Config) (s : State) : Event → Prop
  | .request now http answers =>
      ∀ cl req, s.world.Fresh cfg now http cl req → answers.pinAdd = .done →
        cfg.verified answers.cat req = true → answers.stateWrite = true → s.world.Readable cl req
  | .restart => True

variable {cfg : Config} {s : State}

theorem lined_step (h : s.world.Lined) (event : Event) : (s.step cfg event).world.Lined := by
  cases event with
  | restart => exact h
  | request now http answers =>
      have hhandled := s.world.replicate_handled cfg now http answers
      rw [State.step]
      generalize s.world.replicate cfg now http answers = handled at hhandled
      cases hhandled with
      | refused | repeated | unrecorded | unpinned => exact h
      | recorded cl req hfresh hdone hverified hwrite =>
          have hpinned : (s.world.pin req.cid).Lined := h
          exact hpinned.record cl req

/-- A request with a new ticket whose content is verified is recorded. -/
theorem replicate_records {now : Int} {http : Http} {answers : Answers} {cl : Claims} {req : Request}
    (hfresh : s.world.Fresh cfg now http cl req) (hdone : answers.pinAdd = .done)
    (hverified : cfg.verified answers.cat req = true) (hwrite : answers.stateWrite = true) :
    (s.world.replicate cfg now http answers).1 = (s.world.pin req.cid).record cl req := by
  have hpost : ¬ http.post = false := by
    rw [hfresh.post]
    decide
  unfold World.replicate
  rw [if_neg hpost, hfresh.body]
  simp only [hfresh.authorized, hfresh.unused]
  unfold World.pinAndRecord
  rw [hdone]
  simp only [hverified, hwrite, if_true]

/-- From a file that is read back, the next event leaves one exactly when it records no unreadable
use. -/
theorem restores_step_iff (hlined : s.world.Lined) (hrestores : s.world.Restores) (event : Event) :
    (s.step cfg event).world.Restores ↔ s.RecordsReadable cfg event := by
  cases event with
  | restart => exact iff_of_true rfl trivial
  | request now http answers =>
      have hrecorded : ∀ cl req, s.world.Fresh cfg now http cl req →
          (((s.world.pin req.cid).record cl req).Restores ↔ s.world.Readable cl req) :=
        fun cl req hfresh => World.record_restores_iff (w := s.world) hlined hrestores hfresh.unused
      constructor
      · intro h cl req hfresh hdone hverified hwrite
        refine (hrecorded cl req hfresh).mp ?_
        rw [← replicate_records hfresh hdone hverified hwrite]
        exact h
      · intro h
        have hhandled := s.world.replicate_handled cfg now http answers
        rw [State.step]
        generalize s.world.replicate cfg now http answers = handled at hhandled
        cases hhandled with
        | refused | repeated | unrecorded | unpinned => exact hrestores
        | recorded cl req hfresh hdone hverified hwrite =>
            exact (hrecorded cl req hfresh).mpr (h cl req hfresh hdone hverified hwrite)

end State

/-- In a run that records only readable uses the state file is read back as exactly the tickets in
memory. At every such point, the next event keeps that so exactly when it records no unreadable
use. -/
theorem state_file_restored {cfg : Config} {pinned : Bytes → Bool} {events : List Event}
    (h : Along (State.RecordsReadable cfg) (State.step cfg) (.initial pinned) events) :
    loadState (events.foldl (State.step cfg) (.initial pinned)).world.file =
      (events.foldl (State.step cfg) (.initial pinned)).world.used ∧
    ∀ event, ((events.foldl (State.step cfg) (.initial pinned)).step cfg event).world.Restores ↔
      (events.foldl (State.step cfg) (.initial pinned)).RecordsReadable cfg event := by
  have hrun : (events.foldl (State.step cfg) (.initial pinned)).world.Lined ∧
      (events.foldl (State.step cfg) (.initial pinned)).world.Restores := by
    refine along_preserves (P := fun s : State => s.world.Lined ∧ s.world.Restores)
      (fun s event hreadable hbefore => ?_) h ⟨⟨[], rfl, by simp⟩, rfl⟩
    exact ⟨State.lined_step hbefore.1 event,
      (State.restores_step_iff hbefore.1 hbefore.2 event).mpr hreadable⟩
  exact ⟨hrun.2, State.restores_step_iff hrun.1 hrun.2⟩

namespace Sample

theorem replicateWith_readable (s : State) : s.RecordsReadable cfg (replicateWith 1) :=
  fun cl req hfresh hdone hverified hwrite =>
    World.readable_of_clean ((replicateWith_safe s).2 cl req hfresh hdone hverified hwrite) s.world

/-- A use is read back after a restart. -/
theorem use_read_back :
    loadState (after [replicateWith 1, .restart]).world.file =
      (after [replicateWith 1, .restart]).world.used ∧
    (after [replicateWith 1, .restart]).world.used [0x31] = some [0x63] := by
  have hreadable : Along (State.RecordsReadable cfg) (State.step cfg) (.initial fun _ => false)
      [replicateWith 1, .restart] := ⟨replicateWith_readable _, trivial, trivial⟩
  exact ⟨(state_file_restored hreadable).1, by decide +kernel⟩

/-- A ref with a newline is recorded, and the file is read back with a ticket that was never used. -/
theorem injected_line_invents_use :
    (after [replicateWith 3]).reported = [[0x63]] ∧
      (after [replicateWith 3]).world.used [0x34] = none ∧
      loadState (after [replicateWith 3]).world.file [0x34] = some [0x64] := by
  decide +kernel

end Sample

end Igit.Replication
