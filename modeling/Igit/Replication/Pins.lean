import Igit.Library.Lines
import Igit.Replication.Service

/-!
# What the service reports pinned stays pinned

Pins belong to CIDs and uses to tickets, so a request may remove the pin another one was recorded
for. `Handled` lists what a request can do. A run keeps every reported CID pinned as long as no
request fails verification for a CID that was reported before, and as long as the lines of the
state file can be read back (`reported_stays_pinned_of_safe`); one failed request for the same CID
is enough to lose the pin (`failed_request_unpins_reported`).
-/

namespace Igit.Replication

open Fallible

/-! ## Runs -/

/-- The world and the CIDs the service has reported as pinned. -/
structure State where
  world : World
  reported : List Bytes

/-- A request with what happens outside while it is handled, or a restart of the service. -/
inductive Event where
  | request (now : Int) (http : Http) (answers : Answers)
  | restart
  deriving DecidableEq, Repr

/-- The CID a reply reports as pinned. -/
def Reply.reported : Reply → Option Bytes
  | .pinned _ cid _ _ => some cid
  | .error _ _ => none

namespace State

/-- A new service without a state file, in front of any Kubo node. -/
def initial (pinned : Bytes → Bool) : State := ⟨⟨fun _ => none, none, pinned⟩, []⟩

/-- What a handled request leaves. -/
def handle (s : State) (handled : World × Reply) : State :=
  ⟨handled.1, s.reported ++ handled.2.reported.toList⟩

/-- What an event leaves. -/
def step (cfg : Config) (s : State) : Event → State
  | .request now http answers => s.handle (s.world.replicate cfg now http answers)
  | .restart => ⟨s.world.restart, s.reported⟩

/-- Every CID reported as pinned is pinned. -/
def KeepsPins (s : State) : Prop := ∀ cid ∈ s.reported, s.world.pinned cid = true

end State

/-! ## Requests -/

/-- An authorized request with a ticket that has not been used. -/
structure World.Fresh (cfg : Config) (w : World) (now : Int) (http : Http) (cl : Claims)
    (req : Request) : Prop where
  post : http.post = true
  body : http.body = some req
  authorized : cfg.authorize now http.authorization req = .ok cl
  unused : w.used cl.jti = none

/-- What a request can do. -/
inductive World.Handled (cfg : Config) (w : World) (now : Int) (http : Http) (answers : Answers) :
    World × Reply → Prop where
  | refused (status : Nat) (message : String) : Handled cfg w now http answers (w, .error status message)
  | repeated (cl : Claims) (req : Request) (hused : w.used cl.jti = some req.cid) :
      Handled cfg w now http answers (w, .pinned 200 req.cid cl.expiresAt true)
  | unrecorded (cid : Bytes) (status : Nat) (message : String) :
      Handled cfg w now http answers (w.pin cid, .error status message)
  | unpinned (cl : Claims) (req : Request) (hfresh : w.Fresh cfg now http cl req)
      (hdone : answers.pinAdd = .done) (hunverified : cfg.verified answers.cat req = false)
      (hrm : answers.pinRm = true) (status : Nat) (message : String) :
      Handled cfg w now http answers ((w.pin req.cid).unpin req.cid, .error status message)
  | recorded (cl : Claims) (req : Request) (hfresh : w.Fresh cfg now http cl req)
      (hdone : answers.pinAdd = .done) (hverified : cfg.verified answers.cat req = true)
      (hwrite : answers.stateWrite = true) :
      Handled cfg w now http answers
        ((w.pin req.cid).record cl req, .pinned 201 req.cid cl.expiresAt false)

/-- The part of a request that talks to Kubo. -/
theorem World.pinAndRecord_handled {cfg : Config} {w : World} {now : Int} {http : Http}
    {cl : Claims} {req : Request} (hfresh : w.Fresh cfg now http cl req) (answers : Answers) :
    w.Handled cfg now http answers (w.pinAndRecord cfg cl req answers) := by
  unfold pinAndRecord
  cases hadd : answers.pinAdd with
  | failed pinned =>
      cases pinned with
      | false => exact .refused _ _
      | true => exact .unrecorded _ _ _
  | done =>
      cases hverified : cfg.verified answers.cat req with
      | true =>
          cases hwrite : answers.stateWrite with
          | true => exact .recorded cl req hfresh hadd hverified hwrite
          | false => exact .unrecorded _ _ _
      | false =>
          cases hrm : answers.pinRm with
          | true => exact .unpinned cl req hfresh hadd hverified hrm _ _
          | false => exact .unrecorded _ _ _

/-- Every request is handled in one of these ways. -/
theorem World.replicate_handled (cfg : Config) (w : World) (now : Int) (http : Http)
    (answers : Answers) : w.Handled cfg now http answers (w.replicate cfg now http answers) := by
  unfold replicate
  by_cases hpost : http.post = false
  · rw [if_pos hpost]
    exact .refused _ _
  · rw [if_neg hpost]
    cases hbody : http.body with
    | none => exact .refused _ _
    | some req =>
        dsimp only
        cases hauthorized : cfg.authorize now http.authorization req with
        | error denial => exact .refused _ _
        | ok cl =>
            dsimp only
            cases hused : w.used cl.jti with
            | none =>
                have hfresh : w.Fresh cfg now http cl req :=
                  ⟨Bool.not_eq_false _ ▸ hpost, hbody, hauthorized, hused⟩
                exact pinAndRecord_handled hfresh answers
            | some existing =>
                by_cases hcid : existing = req.cid
                · show w.Handled cfg now http answers (if existing = req.cid then _ else _)
                  rw [if_pos hcid]
                  exact .repeated cl req (hcid ▸ hused)
                · show w.Handled cfg now http answers (if existing = req.cid then _ else _)
                  rw [if_neg hcid]
                  exact .refused _ _

/-! ## The state file -/

/-- The line of a use can be read back. -/
structure Clean (cl : Claims) (req : Request) : Prop where
  line : newline ∉ recordLine cl req
  jti : tab ∉ cl.jti
  cid : tab ∉ req.cid

/-- A clean line adds its ticket. -/
theorem loadLine_recordLine {cl : Claims} {req : Request} (h : Clean cl req) (used : Used) :
    loadLine used (recordLine cl req) = Function.update used cl.jti (some req.cid) := by
  unfold loadLine lineEntry recordLine
  rw [splitOn_cons_sep h.jti, splitOn_cons_sep h.cid]

/-- A file of lines is loaded line by line. -/
theorem loadState_terminated {lines : List Bytes} (h : ∀ line ∈ lines, newline ∉ line) :
    loadState (some (terminated newline lines)) = lines.foldl loadLine fun _ => none := by
  have hsplit := splitOn_terminated h []
  rw [List.append_nil] at hsplit
  show ((terminated newline lines).splitOn newline).foldl loadLine _ = _
  rw [hsplit, List.foldl_append]
  rfl

/-- A missing file is loaded as an empty one. -/
theorem loadState_getD (file : Option Bytes) : loadState (some (file.getD [])) = loadState file := by
  cases file <;> rfl

namespace World

/-- The file is made of lines. -/
def Lined (w : World) : Prop :=
  ∃ lines, w.file.getD [] = terminated newline lines ∧ ∀ line ∈ lines, newline ∉ line

theorem Lined.record {w : World} (h : w.Lined) (cl : Claims) (req : Request) :
    (w.record cl req).Lined := by
  obtain ⟨lines, hfile, hlines⟩ := h
  refine ⟨lines ++ (recordLine cl req).splitOn newline, ?_, fun line hline => ?_⟩
  · show w.file.getD [] ++ recordLine cl req ++ [newline] = _
    rw [terminated_append, terminated_splitOn, hfile, List.append_assoc]
  · rcases List.mem_append.mp hline with hold | hnew
    · exact hlines line hold
    · exact (mem_splitOn hnew).1

/-- A recorded use is read after everything before it. -/
theorem Lined.loadState_record {w : World} (h : w.Lined) (cl : Claims) (req : Request) :
    loadState (w.record cl req).file =
      ((recordLine cl req).splitOn newline).foldl loadLine (loadState w.file) := by
  obtain ⟨lines, hfile, hlines⟩ := h
  have hold : loadState w.file = lines.foldl loadLine fun _ => none := by
    rw [← loadState_getD, hfile, loadState_terminated hlines]
  have htext : w.file.getD [] ++ recordLine cl req ++ [newline] =
      terminated newline (lines ++ (recordLine cl req).splitOn newline) := by
    rw [terminated_append, terminated_splitOn, hfile, List.append_assoc]
  have hmore : ∀ line ∈ lines ++ (recordLine cl req).splitOn newline, newline ∉ line := by
    intro line hline
    rcases List.mem_append.mp hline with hbefore | hnew
    · exact hlines line hbefore
    · exact (mem_splitOn hnew).1
  show loadState (some (w.file.getD [] ++ recordLine cl req ++ [newline])) = _
  rw [htext, loadState_terminated hmore, List.foldl_append, hold]

end World

/-! ## The invariant -/

namespace State

/-- The tickets in memory are those of the file, which is made of lines, and everything used and
everything reported is pinned. -/
structure Sound (s : State) : Prop where
  lines : s.world.Lined
  loaded : s.world.used = loadState s.world.file
  recorded : ∀ jti cid, s.world.used jti = some cid → cid ∈ s.reported
  pinned : s.KeepsPins

/-- A request that fails verification for a CID reported before, and removes its pin. -/
def Unpins (cfg : Config) (s : State) (now : Int) (http : Http) (answers : Answers) : Prop :=
  ∃ cl req, s.world.Fresh cfg now http cl req ∧ answers.pinAdd = .done ∧
    cfg.verified answers.cat req = false ∧ answers.pinRm = true ∧ req.cid ∈ s.reported

/-- An event that removes no reported pin and writes no line that is read back differently. -/
def Safe (cfg : Config) (s : State) : Event → Prop
  | .request now http answers =>
      ¬ s.Unpins cfg now http answers ∧
        ∀ cl req, s.world.Fresh cfg now http cl req → answers.pinAdd = .done →
          cfg.verified answers.cat req = true → answers.stateWrite = true → Clean cl req
  | .restart => True

variable {cfg : Config} {s : State}

theorem sound_initial (pinned : Bytes → Bool) : (initial pinned).Sound := by
  refine ⟨⟨[], rfl, by simp⟩, rfl, ?_, ?_⟩
  · intro jti cid h
    cases h
  · intro cid h
    cases h

/-- Another pin does no harm. -/
theorem KeepsPins.pin (h : s.KeepsPins) (cid : Bytes) :
    KeepsPins ⟨s.world.pin cid, s.reported⟩ := by
  intro other hother
  show Function.update s.world.pinned cid true other = true
  by_cases heq : other = cid
  · rw [heq, Function.update_self]
  · rw [Function.update_of_ne heq]
    exact h other hother

/-- A recorded use keeps the state sound. -/
theorem Sound.record (h : s.Sound) {cl : Claims} {req : Request} (hclean : Clean cl req) :
    Sound ⟨(s.world.pin req.cid).record cl req, s.reported ++ [req.cid]⟩ := by
  have hlined : (s.world.pin req.cid).Lined := h.lines
  refine ⟨hlined.record cl req, ?_, ?_, ?_⟩
  · show Function.update s.world.used cl.jti (some req.cid) = loadState _
    rw [hlined.loadState_record, splitOn_of_notMem hclean.line, List.foldl_cons, List.foldl_nil,
      loadLine_recordLine hclean, h.loaded]
    rfl
  · intro jti cid hused
    change Function.update s.world.used cl.jti (some req.cid) jti = some cid at hused
    by_cases heq : jti = cl.jti
    · rw [heq, Function.update_self, Option.some.injEq] at hused
      rw [← hused]
      exact List.mem_append_right _ List.mem_cons_self
    · rw [Function.update_of_ne heq] at hused
      exact List.mem_append_left _ (h.recorded jti cid hused)
  · intro cid hcid
    rcases List.mem_append.mp hcid with hold | hnew
    · exact (h.pinned.pin req.cid) cid hold
    · rw [List.mem_singleton.mp hnew]
      exact Function.update_self ..

/-- A request that fails verification leaves its CID unpinned. -/
theorem replicate_unpins {now : Int} {http : Http} {answers : Answers} {cl : Claims} {req : Request}
    (hfresh : s.world.Fresh cfg now http cl req) (hdone : answers.pinAdd = .done)
    (hunverified : cfg.verified answers.cat req = false) (hrm : answers.pinRm = true) :
    s.world.replicate cfg now http answers =
      ((s.world.pin req.cid).unpin req.cid, .error 502 "pack verification failed") := by
  have hpost : ¬ http.post = false := by
    rw [hfresh.post]
    decide
  unfold World.replicate
  rw [if_neg hpost, hfresh.body]
  simp only [hfresh.authorized, hfresh.unused]
  unfold World.pinAndRecord
  rw [hdone]
  simp only [hunverified, hrm, Bool.false_eq_true, if_false, if_true]

/-- A request keeps the pins of a sound state exactly when it does not remove a reported one. -/
theorem Sound.keepsPins_request_iff (h : s.Sound) (now : Int) (http : Http) (answers : Answers) :
    (s.step cfg (.request now http answers)).KeepsPins ↔ ¬ s.Unpins cfg now http answers := by
  constructor
  · intro hkeeps hunpins
    obtain ⟨cl, req, hfresh, hdone, hunverified, hrm, hreported⟩ := hunpins
    have hstep : s.step cfg (.request now http answers) =
        ⟨(s.world.pin req.cid).unpin req.cid, s.reported⟩ := by
      rw [State.step, replicate_unpins hfresh hdone hunverified hrm]
      exact congrArg (State.mk _) (List.append_nil _)
    rw [hstep] at hkeeps
    have hpinned := hkeeps req.cid hreported
    have hremoved : ((s.world.pin req.cid).unpin req.cid).pinned req.cid = false :=
      Function.update_self ..
    rw [hremoved] at hpinned
    cases hpinned
  · intro hsafe
    have hhandled := s.world.replicate_handled cfg now http answers
    rw [State.step]
    generalize s.world.replicate cfg now http answers = handled at hhandled
    have herror : ∀ (w : World) (status : Nat) (message : String),
        s.handle (w, .error status message) = ⟨w, s.reported⟩ :=
      fun w _ _ => congrArg (State.mk w) (List.append_nil _)
    cases hhandled with
    | refused status message =>
        rw [herror]
        exact h.pinned
    | repeated cl req hused =>
        intro cid hcid
        rcases List.mem_append.mp hcid with hold | hnew
        · exact h.pinned cid hold
        · rw [List.mem_singleton.mp hnew]
          exact h.pinned _ (h.recorded cl.jti req.cid hused)
    | unrecorded cid status message =>
        rw [herror]
        exact h.pinned.pin cid
    | unpinned cl req hfresh hdone hunverified hrm status message =>
        have hnew : req.cid ∉ s.reported :=
          fun hmem => hsafe ⟨cl, req, hfresh, hdone, hunverified, hrm, hmem⟩
        rw [herror]
        intro cid hcid
        have hne : cid ≠ req.cid := fun heq => hnew (heq ▸ hcid)
        show Function.update (s.world.pin req.cid).pinned req.cid false cid = true
        rw [Function.update_of_ne hne]
        exact h.pinned.pin req.cid cid hcid
    | recorded cl req hfresh hdone hverified hwrite =>
        intro cid hcid
        rcases List.mem_append.mp hcid with hold | hnew
        · exact h.pinned.pin req.cid cid hold
        · rw [List.mem_singleton.mp hnew]
          exact Function.update_self ..

/-- A safe event keeps the state sound. -/
theorem Sound.step (h : s.Sound) {event : Event} (hsafe : s.Safe cfg event) :
    (s.step cfg event).Sound := by
  cases event with
  | restart =>
      refine ⟨h.lines, rfl, fun jti cid hused => h.recorded jti cid ?_, h.pinned⟩
      rw [h.loaded]
      exact hused
  | request now http answers =>
      obtain ⟨hkept, hclean⟩ := hsafe
      have hpins := (h.keepsPins_request_iff now http answers).mpr hkept
      have hhandled := s.world.replicate_handled cfg now http answers
      rw [State.step] at hpins ⊢
      generalize s.world.replicate cfg now http answers = handled at hhandled hpins
      cases hhandled with
      | repeated cl req hused =>
          exact ⟨h.lines, h.loaded,
            fun jti cid hcid => List.mem_append_left _ (h.recorded jti cid hcid), hpins⟩
      | recorded cl req hfresh hdone hverified hwrite =>
          exact h.record (hclean cl req hfresh hdone hverified hwrite)
      | refused | unrecorded | unpinned =>
          refine ⟨h.lines, h.loaded, fun jti cid hcid => ?_, hpins⟩
          exact List.mem_append_left _ (h.recorded jti cid hcid)

end State

/-- In a run in which no request fails verification for a CID reported before, and every line
written to the state file can be read back, every CID reported as pinned is pinned. At every such
point, the next request keeps that so exactly when it does not remove the pin of a reported CID. -/
theorem reported_stays_pinned_of_safe {cfg : Config} {pinned : Bytes → Bool} {events : List Event}
    (h : Along (State.Safe cfg) (State.step cfg) (.initial pinned) events) :
    (events.foldl (State.step cfg) (.initial pinned)).KeepsPins ∧
    ∀ now http answers,
      ((events.foldl (State.step cfg) (.initial pinned)).step cfg
        (.request now http answers)).KeepsPins ↔
      ¬ (events.foldl (State.step cfg) (.initial pinned)).Unpins cfg now http answers := by
  have hsound : (events.foldl (State.step cfg) (.initial pinned)).Sound :=
    along_preserves (fun _ _ hsafe hbefore => hbefore.step hsafe) h (State.sound_initial pinned)
  exact ⟨hsound.pinned, hsound.keepsPins_request_iff⟩

namespace Sample

/-- The ticket `jti` for a CID and a digest, with a ref. -/
def ticket (jti cid digest : UInt8) (ref : Bytes) : Claims where
  kind := replicationKind
  subject := [0x73]
  cid := [cid]
  owner := [0x6f]
  repo := [0x72]
  ref := ref
  packSha256 := [digest]
  size := 1
  expiresAt := 100
  jti := [jti]

/-- A service that reads four tickets and takes content for its own digest. -/
def cfg : Config where
  hmac := fun _ => []
  base64 := some
  unmarshal := fun payload =>
    if payload = [1] then some (ticket 0x31 0x63 0xaa [0x66])
    else if payload = [2] then some (ticket 0x32 0x63 0xbb [0x66])
    else if payload = [3] then some (ticket 0x33 0x63 0xaa [0x66, newline, 0x34, tab, 0x64])
    else if payload = [4] then some (ticket 0x34 0x64 0xaa [0x66])
    else none
  sha256Hex := id
  maxBytes := 1024

/-- The request with the ticket of a payload, answered by a Kubo that works and holds `0xaa`. -/
def replicateWith (payload : UInt8) : Event :=
  .request 0 ⟨true, bearer ++ [0x61, dot, payload, dot],
    (cfg.unmarshal [payload]).map fun cl =>
      ⟨cl.cid, cl.owner, cl.repo, cl.ref, cl.packSha256, cl.size, cl.expiresAt⟩⟩
    ⟨.done, some [0xaa], true, true⟩

/-- The state after some events at an empty Kubo node. -/
def after (events : List Event) : State :=
  events.foldl (State.step cfg) (.initial fun _ => false)

/-- The first ticket is verified and recorded in a clean line, in any state. -/
theorem replicateWith_safe (s : State) : s.Safe cfg (replicateWith 1) := by
  have hticket : cfg.authorize 0 (bearer ++ [0x61, dot, 1, dot])
      ⟨[0x63], [0x6f], [0x72], [0x66], [0xaa], 1, 100⟩ = .ok (ticket 0x31 0x63 0xaa [0x66]) := by
    decide +kernel
  constructor
  · intro hunpins
    obtain ⟨cl, req, hfresh, -, hunverified, -⟩ := hunpins
    cases hfresh.body
    revert hunverified
    decide +kernel
  · intro cl req hfresh _ _ _
    cases hfresh.body
    cases hfresh.authorized.symm.trans hticket
    exact ⟨by decide +kernel, by decide, by decide⟩

/-- The first ticket, used again after a restart, finds its CID pinned. -/
theorem repeated_use_pinned :
    (after [replicateWith 1, .restart, replicateWith 1]).reported = [[0x63], [0x63]] ∧
      (after [replicateWith 1, .restart, replicateWith 1]).world.pinned [0x63] = true := by
  have hsafe : Along (State.Safe cfg) (State.step cfg) (.initial fun _ => false)
      [replicateWith 1, .restart, replicateWith 1] :=
    ⟨replicateWith_safe _, trivial, replicateWith_safe _, trivial⟩
  have hkeeps := (reported_stays_pinned_of_safe hsafe).1
  exact ⟨by decide +kernel, hkeeps [0x63] (by decide +kernel)⟩

/-- A ticket with another digest for a CID that is recorded and reported removes its pin. -/
theorem failed_request_unpins_reported :
    [0x63] ∈ (after [replicateWith 1, replicateWith 2]).reported ∧
      (after [replicateWith 1, replicateWith 2]).world.used [0x31] = some [0x63] ∧
      (after [replicateWith 1, replicateWith 2]).world.pinned [0x63] = false := by
  decide +kernel

/-- A ref with a newline writes a line for another ticket. After a restart that ticket is taken for
used, and its CID is reported as pinned without ever having been. -/
theorem injected_line_reports_unpinned :
    [0x64] ∈ (after [replicateWith 3, .restart, replicateWith 4]).reported ∧
      (after [replicateWith 3, .restart, replicateWith 4]).world.pinned [0x64] = false := by
  decide +kernel

end Sample

end Igit.Replication
