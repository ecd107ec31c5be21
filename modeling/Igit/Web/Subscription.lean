import Igit.Library.Fallible

/-!
# Block subscriptions

`BlockSubscriptionManager` of `web/src/lib/block-subscription.ts`, with the sockets and timers of the
page around it. An event runs to its end before the next one. `startPollingFallback` is the exception:
it waits for a first poll before it sets the polling interval, and other events may come in between. A
first poll that completes after the manager was disconnected, or after polling was started again, sets
an interval that nobody clears (`Sample.interval_leaks`). In runs without such a poll there is never
more than one interval, and nothing goes on without listeners (`polling_contained`).
-/

namespace Igit.Web

open Fallible

/-! ## The page -/

/-- `WebSocket.readyState`. -/
inductive ReadyState where
  | connecting
  | opened
  | closing
  | closed
  deriving DecidableEq, Repr

/-- A socket, and whether its handlers are set. -/
structure Socket where
  readyState : ReadyState
  attached : Bool
  deriving DecidableEq, Repr

/-- `ConnectionState`. -/
inductive ConnectionState where
  | connected
  | connecting
  | disconnected
  | polling
  deriving DecidableEq, Repr

/-- A call of `startPollingFallback` that waits for its first poll. It is superseded when the manager
was disconnected or polling was started again since. -/
structure FirstPoll where
  superseded : Bool
  deriving DecidableEq, Repr

/-- The first delay before a reconnect, in milliseconds. -/
def reconnectInitialDelay : Nat := 1000

/-- The longest delay before a reconnect. -/
def reconnectMaxDelay : Nat := 30000

/-- After so many failures the page polls. -/
def maxFailures : Nat := 3

/-- The fields of the manager, and the sockets, timers and first polls of the page. -/
structure Page where
  ws : Option Nat
  blockListeners : List Nat
  reconnectTimer : Option Nat
  pollingTimer : Option Nat
  currentDelay : Nat
  failureCount : Nat
  connectionState : ConnectionState
  isPollingFallback : Bool
  sockets : Nat → Socket
  timeouts : List Nat
  intervals : List Nat
  firstPolls : List FirstPoll
  nextId : Nat

namespace Page

/-- A new manager. -/
def initial : Page where
  ws := none
  blockListeners := []
  reconnectTimer := none
  pollingTimer := none
  currentDelay := reconnectInitialDelay
  failureCount := 0
  connectionState := .disconnected
  isPollingFallback := false
  sockets := fun _ => ⟨.closed, false⟩
  timeouts := []
  intervals := []
  firstPolls := []
  nextId := 0

variable (p : Page)

/-- `setConnectionState`. -/
def setConnectionState (state : ConnectionState) : Page := { p with connectionState := state }

/-- `clearTimers`. -/
def clearTimers : Page :=
  { p with
    timeouts := p.timeouts.filter fun id => p.reconnectTimer ≠ some id
    reconnectTimer := none
    intervals := p.intervals.filter fun id => p.pollingTimer ≠ some id
    pollingTimer := none }

/-- The first polls so far are superseded. -/
def supersede : Page := { p with firstPolls := p.firstPolls.map fun _ => ⟨true⟩ }

/-- A socket changes. -/
def setSocket (id : Nat) (socket : Socket) : Page :=
  { p with sockets := Function.update p.sockets id socket }

/-- A socket whose handlers are taken away and that is closed if it is not closing anyway. -/
def released (socket : Socket) : Socket where
  attached := false
  readyState := match socket.readyState with
    | .opened | .connecting => .closing
    | other => other

/-- The part of `disconnect` about the socket. -/
def dropSocket : Page :=
  match p.ws with
  | none => p
  | some id => { p.setSocket id (released (p.sockets id)) with ws := none }

/-- `disconnect`. -/
def disconnect : Page := p.clearTimers.supersede.dropSocket.setConnectionState .disconnected

/-- `startPollingFallback`, up to its first poll. -/
def startPollingFallback : Page :=
  let p := (p.setConnectionState .polling).clearTimers.supersede
  { p with firstPolls := p.firstPolls ++ [⟨false⟩] }

/-- `startPollingFallback`, after a first poll. -/
def setPollingInterval (index : Nat) : Page :=
  { p with
    firstPolls := p.firstPolls.eraseIdx index
    pollingTimer := some p.nextId
    intervals := p.intervals ++ [p.nextId]
    nextId := p.nextId + 1 }

/-- `scheduleReconnect`. -/
def scheduleReconnect : Page :=
  let p := (p.setConnectionState .connecting).clearTimers
  { p with
    reconnectTimer := some p.nextId
    timeouts := p.timeouts ++ [p.nextId]
    nextId := p.nextId + 1
    currentDelay := min (p.currentDelay * 2) reconnectMaxDelay }

/-- What `connect` and `onclose` do after a failure. -/
def retryOrPoll : Page :=
  if p.failureCount ≥ maxFailures then
    ({ p with isPollingFallback := true } : Page).startPollingFallback
  else p.scheduleReconnect

/-- `this.ws && this.ws.readyState !== WebSocket.CLOSED`. -/
def hasSocket : Bool :=
  match p.ws with
  | none => false
  | some id => decide ((p.sockets id).readyState ≠ .closed)

/-- `connect`. The constructor of the socket may throw. -/
def connect (throws : Bool) : Page :=
  if p.isPollingFallback = true then p.startPollingFallback
  else if p.hasSocket = true then p
  else
    let p := (p.setConnectionState .connecting).clearTimers
    if throws = true then ({ p with failureCount := p.failureCount + 1 } : Page).retryOrPoll
    else { p.setSocket p.nextId ⟨.connecting, true⟩ with ws := some p.nextId, nextId := p.nextId + 1 }

/-- The listeners change. -/
def setListeners (listeners : List Nat) : Page := { p with blockListeners := listeners }

/-- `this.blockListeners.add`. -/
def added (listener : Nat) : List Nat :=
  if listener ∈ p.blockListeners then p.blockListeners else p.blockListeners ++ [listener]

/-- `subscribeToBlocks`. -/
def subscribeToBlocks (listener : Nat) (throws : Bool) : Page :=
  if (p.added listener).length = 1 then (p.setListeners (p.added listener)).connect throws
  else p.setListeners (p.added listener)

/-- The function that `subscribeToBlocks` returns. -/
def unsubscribe (listener : Nat) : Page :=
  if (p.blockListeners.erase listener).length = 0 then
    (p.setListeners (p.blockListeners.erase listener)).disconnect
  else p.setListeners (p.blockListeners.erase listener)

/-- `onopen`. The message it sends is answered by messages. -/
def onopen : Page :=
  ({ p with failureCount := 0, currentDelay := reconnectInitialDelay } : Page).setConnectionState
    .connected

/-- `onclose`. -/
def onclose : Page :=
  if p.blockListeners.length = 0 then
    ({ p with ws := none, failureCount := p.failureCount + 1 } : Page).setConnectionState .disconnected
  else ({ p with ws := none, failureCount := p.failureCount + 1 } : Page).retryOrPoll

/-- `handleMessage` of a subscription error. -/
def onSubscriptionError : Page :=
  if p.failureCount + 1 ≥ maxFailures then
    ({ p with failureCount := p.failureCount + 1, isPollingFallback := true } :
      Page).disconnect.startPollingFallback
  else { p with failureCount := p.failureCount + 1 }

/-- `reconnect`. -/
def reconnect (throws : Bool) : Page :=
  let reset : Page := { p with failureCount := 0, isPollingFallback := false }
  if p.blockListeners.length > 0 then reset.disconnect.connect throws else reset.disconnect

end Page

/-! ## Events -/

/-- What can happen next. -/
inductive PageEvent where
  | subscribe (listener : Nat) (throws : Bool)
  | unsubscribe (listener : Nat)
  | reconnect (throws : Bool)
  | socketOpens (id : Nat)
  | socketStartsClosing (id : Nat)
  | socketCloses (id : Nat)
  | subscriptionError (id : Nat)
  | otherMessage (id : Nat)
  | timeoutFires (id : Nat) (throws : Bool)
  | intervalPolls (id : Nat)
  | firstPollCompletes (index : Nat)
  deriving DecidableEq, Repr

namespace Page

/-- The handler of an event, if the socket has it. -/
def handled (p : Page) (id : Nat) (handler : Page → Page) : Page :=
  if (p.sockets id).attached = true then handler p else p

/-- A socket changes its state. -/
def setReadyState (p : Page) (id : Nat) (state : ReadyState) : Page :=
  p.setSocket id { p.sockets id with readyState := state }

/-- The page after an event, if it can happen. A poll of an interval tells the listeners about a
block, as other messages do, and changes nothing. -/
def step (p : Page) : PageEvent → Option Page
  | .subscribe listener throws => some (p.subscribeToBlocks listener throws)
  | .unsubscribe listener => some (p.unsubscribe listener)
  | .reconnect throws => some (p.reconnect throws)
  | .socketOpens id =>
      if (p.sockets id).readyState = .connecting then
        some ((p.setReadyState id .opened).handled id onopen)
      else none
  | .socketStartsClosing id =>
      if (p.sockets id).readyState = .opened then some (p.setReadyState id .closing) else none
  | .socketCloses id =>
      if (p.sockets id).readyState ≠ .closed then
        some ((p.setReadyState id .closed).handled id onclose)
      else none
  | .subscriptionError id =>
      if (p.sockets id).readyState = .opened then some (p.handled id onSubscriptionError) else none
  | .otherMessage id => if (p.sockets id).readyState = .opened then some p else none
  | .timeoutFires id throws =>
      if id ∈ p.timeouts then
        some (({ p with timeouts := p.timeouts.erase id } : Page).connect throws)
      else none
  | .intervalPolls id => if id ∈ p.intervals then some p else none
  | .firstPollCompletes index =>
      if index < p.firstPolls.length then some (p.setPollingInterval index) else none

/-- The page after some events. -/
def run (p : Page) : List PageEvent → Option Page
  | [] => some p
  | event :: rest => (p.step event).bind fun next => next.run rest

end Page

/-- An event other than the completion of a superseded first poll. -/
def Timely (p : Page) (event : PageEvent) : Prop :=
  ∀ index, event = .firstPollCompletes index → p.firstPolls[index]? ≠ some ⟨true⟩

/-- One timely event. -/
def TimelyStep (p q : Page) : Prop := ∃ event, Timely p event ∧ p.step event = some q

/-- A socket that is not closed or closing. -/
def Socket.Active (socket : Socket) : Prop :=
  socket.readyState = .connecting ∨ socket.readyState = .opened

/-! ## What the manager keeps track of -/

/-- The manager knows the live timers and sockets, and there is one first poll at most that counts. While
it is pending no interval is set. -/
structure Tracked (p : Page) : Prop where
  intervals_eq : p.intervals = p.pollingTimer.toList
  timeouts_known : ∀ id ∈ p.timeouts, p.reconnectTimer = some id
  attached_known : ∀ id, (p.sockets id).readyState ≠ .closed → (p.sockets id).attached = true →
    p.ws = some id
  active_attached : ∀ id, (p.sockets id).Active → (p.sockets id).attached = true
  poll_before_interval : ⟨false⟩ ∈ p.firstPolls → p.pollingTimer = none
  one_poll : p.firstPolls.count ⟨false⟩ ≤ 1

/-- Something goes on, or is about to. -/
def Busy (p : Page) : Prop :=
  p.ws ≠ none ∨ p.timeouts ≠ [] ∨ p.pollingTimer ≠ none ∨ ⟨false⟩ ∈ p.firstPolls

/-- Nothing goes on without a listener. -/
structure Contained (p : Page) : Prop where
  tracked : Tracked p
  heard : Busy p → p.blockListeners ≠ []

/-- A page that was just loaded has nothing going on. -/
theorem contained_initial : Contained Page.initial where
  tracked := by
    refine ⟨rfl, fun id hid => ?_, fun id hready => absurd rfl hready, fun id hactive => ?_,
      fun hmem => ?_, Nat.zero_le 1⟩
    · cases hid
    · rcases hactive with h | h
      · cases h
      · cases h
    · cases hmem
  heard := by
    rintro (h | h | h | h)
    · exact absurd rfl h
    · exact absurd rfl h
    · exact absurd rfl h
    · cases h

/-- While somebody listens, anything the manager knows of may go on. -/
theorem Tracked.contained {p : Page} (h : Tracked p) (hheard : p.blockListeners ≠ []) : Contained p :=
  ⟨h, fun _ => hheard⟩

namespace Tracked

variable {p : Page}

/-- No timer is left. -/
theorem timeouts_clearTimers (h : Tracked p) : p.clearTimers.timeouts = [] := by
  refine List.filter_eq_nil_iff.mpr fun id hid => ?_
  simp [h.timeouts_known id hid]

/-- `clearTimers` leaves no interval behind. -/
theorem intervals_clearTimers (h : Tracked p) : p.clearTimers.intervals = [] := by
  refine List.filter_eq_nil_iff.mpr fun id hid => ?_
  rw [h.intervals_eq] at hid
  simp [Option.mem_toList.mp hid]

theorem clearTimers (h : Tracked p) : Tracked p.clearTimers where
  intervals_eq := h.intervals_clearTimers
  timeouts_known id hid := by
    rw [h.timeouts_clearTimers] at hid
    cases hid
  attached_known := h.attached_known
  active_attached := h.active_attached
  poll_before_interval _ := rfl
  one_poll := h.one_poll

theorem not_mem_supersede (p : Page) : ⟨false⟩ ∉ p.supersede.firstPolls := by
  intro hmem
  obtain ⟨_, -, heq⟩ := List.mem_map.mp hmem
  cases heq

theorem supersede (h : Tracked p) : Tracked p.supersede where
  intervals_eq := h.intervals_eq
  timeouts_known := h.timeouts_known
  attached_known := h.attached_known
  active_attached := h.active_attached
  poll_before_interval hmem := absurd hmem (not_mem_supersede p)
  one_poll := by
    rw [List.count_eq_zero.mpr (not_mem_supersede p)]
    exact Nat.zero_le 1

theorem setListeners (h : Tracked p) (listeners : List Nat) : Tracked (p.setListeners listeners) :=
  ⟨h.1, h.2, h.3, h.4, h.5, h.6⟩

/-- Failures and the fallback may be noted at any time. -/
theorem setFlags (h : Tracked p) (failures : Nat) (fallback : Bool) :
    Tracked { p with failureCount := failures, isPollingFallback := fallback } :=
  ⟨h.1, h.2, h.3, h.4, h.5, h.6⟩

theorem setConnectionState (h : Tracked p) (state : ConnectionState) :
    Tracked (p.setConnectionState state) :=
  ⟨h.1, h.2, h.3, h.4, h.5, h.6⟩

/-- Starting to poll: the new first poll is the one that counts. -/
theorem startPollingFallback (h : Tracked p) : Tracked p.startPollingFallback := by
  have hbefore := (h.setConnectionState .polling).clearTimers.supersede
  refine ⟨hbefore.1, hbefore.2, hbefore.3, hbefore.4, fun _ => rfl, ?_⟩
  show List.count _ ((p.setConnectionState .polling).clearTimers.supersede.firstPolls ++ [⟨false⟩]) ≤ 1
  rw [List.count_append, List.count_eq_zero.mpr (not_mem_supersede _), List.count_singleton_self]

/-- Scheduling a reconnect replaces the timeout that was scheduled. -/
theorem scheduleReconnect (h : Tracked p) : Tracked p.scheduleReconnect := by
  have hbefore := (h.setConnectionState .connecting).clearTimers
  refine ⟨hbefore.1, fun id hid => ?_, hbefore.3, hbefore.4, hbefore.5, hbefore.6⟩
  have hid' : id ∈ (p.setConnectionState .connecting).clearTimers.timeouts ++ [p.nextId] := hid
  rw [(h.setConnectionState .connecting).timeouts_clearTimers, List.nil_append,
    List.mem_singleton] at hid'
  rw [hid']
  rfl

theorem retryOrPoll (h : Tracked p) : Tracked p.retryOrPoll := by
  unfold Page.retryOrPoll
  split
  · exact (h.setFlags p.failureCount true).startPollingFallback
  · exact h.scheduleReconnect

/-- A page without a socket gets one. -/
theorem openSocket (h : Tracked p) (hnone : p.hasSocket = false) (id next : Nat) :
    Tracked { p.setSocket id ⟨.connecting, true⟩ with ws := some id, nextId := next } := by
  have hother : ∀ other, (p.sockets other).readyState ≠ .closed →
      (p.sockets other).attached = true → False := by
    intro other hready hattached
    have hws := h.attached_known other hready hattached
    simp [Page.hasSocket, hws, hready] at hnone
  refine ⟨h.1, h.2, fun other hready hattached => ?_, fun other hactive => ?_, h.5, h.6⟩
  · have hready' : (Function.update p.sockets id ⟨.connecting, true⟩ other).readyState ≠ .closed := hready
    have hattached' : (Function.update p.sockets id ⟨.connecting, true⟩ other).attached = true :=
      hattached
    by_cases hsame : other = id
    · rw [hsame]
    · rw [Function.update_of_ne hsame] at hready' hattached'
      exact absurd hattached' fun hattached => hother other hready' hattached
  · show (Function.update p.sockets id ⟨.connecting, true⟩ other).attached = true
    have hactive' : (Function.update p.sockets id ⟨.connecting, true⟩ other).Active := hactive
    by_cases hsame : other = id
    · rw [hsame, Function.update_self]
    · rw [Function.update_of_ne hsame] at hactive' ⊢
      exact h.active_attached other hactive'

/-- `connect` loses track of nothing, whether or not the constructor throws. -/
theorem connect (h : Tracked p) (throws : Bool) : Tracked (p.connect throws) := by
  unfold Page.connect
  by_cases hpolling : p.isPollingFallback = true
  · rw [if_pos hpolling]
    exact h.startPollingFallback
  · rw [if_neg hpolling]
    by_cases hsocket : p.hasSocket = true
    · rw [if_pos hsocket]
      exact h
    · rw [if_neg hsocket]
      have hbefore := (h.setConnectionState .connecting).clearTimers
      cases throws with
      | true => exact (hbefore.setFlags (p.failureCount + 1) p.isPollingFallback).retryOrPoll
      | false => exact hbefore.openSocket (Bool.eq_false_of_not_eq_true hsocket) _ _

/-- A socket that loses its handlers. -/
theorem releaseSocket (h : Tracked p) {id : Nat} (hws : p.ws = some id) :
    Tracked { p.setSocket id (Page.released (p.sockets id)) with ws := none } := by
  refine ⟨h.1, h.2, fun other hready hattached => ?_, fun other hactive => ?_, h.5, h.6⟩
  · have hready' : (Function.update p.sockets id (Page.released (p.sockets id)) other).readyState ≠
        .closed := hready
    have hattached' : (Function.update p.sockets id (Page.released (p.sockets id)) other).attached =
        true := hattached
    by_cases hsame : other = id
    · rw [hsame, Function.update_self] at hattached'
      cases hattached'
    · -- no other socket has handlers
      rw [Function.update_of_ne hsame] at hready' hattached'
      have hother := h.attached_known other hready' hattached'
      rw [hws, Option.some.injEq] at hother
      exact absurd hother.symm hsame
  · show (Function.update p.sockets id (Page.released (p.sockets id)) other).attached = true
    have hactive' : (Function.update p.sockets id (Page.released (p.sockets id)) other).Active := hactive
    by_cases hsame : other = id
    · rw [hsame, Function.update_self] at hactive'
      simp only [Page.released, Socket.Active] at hactive'
      revert hactive'
      cases (p.sockets id).readyState with
      | connecting | opened | closing | closed => rintro (h | h) <;> cases h
    · rw [Function.update_of_ne hsame] at hactive' ⊢
      exact h.active_attached other hactive'

theorem dropSocket (h : Tracked p) : Tracked p.dropSocket := by
  unfold Page.dropSocket
  cases hws : p.ws with
  | none => exact h
  | some id => exact h.releaseSocket hws

theorem disconnect (h : Tracked p) : Tracked p.disconnect :=
  h.clearTimers.supersede.dropSocket.setConnectionState _

/-- A socket changes its state without becoming active. -/
theorem setReadyState (h : Tracked p) {id : Nat} {state : ReadyState}
    (hopen : (p.sockets id).readyState ≠ .closed)
    (hactive : (⟨state, (p.sockets id).attached⟩ : Socket).Active → (p.sockets id).Active) :
    Tracked (p.setReadyState id state) := by
  refine ⟨h.1, h.2, fun other hready hattached => ?_, fun other hother => ?_, h.5, h.6⟩
  · have hready' : (Function.update p.sockets id ⟨state, (p.sockets id).attached⟩ other).readyState ≠
        .closed := hready
    have hattached' : (Function.update p.sockets id ⟨state, (p.sockets id).attached⟩ other).attached =
        true := hattached
    by_cases hsame : other = id
    · subst hsame
      rw [Function.update_self] at hattached'
      exact h.attached_known other hopen hattached'
    · rw [Function.update_of_ne hsame] at hready' hattached'
      exact h.attached_known other hready' hattached'
  · show (Function.update p.sockets id ⟨state, (p.sockets id).attached⟩ other).attached = true
    have hother' : (Function.update p.sockets id ⟨state, (p.sockets id).attached⟩ other).Active := hother
    by_cases hsame : other = id
    · subst hsame
      rw [Function.update_self] at hother' ⊢
      exact h.active_attached other (hactive hother')
    · rw [Function.update_of_ne hsame] at hother' ⊢
      exact h.active_attached other hother'

/-- The socket of the manager has closed. -/
theorem forgetSocket (h : Tracked p) {id : Nat} (hws : p.ws = some id)
    (hclosed : (p.sockets id).readyState = .closed) (failures : Nat) :
    Tracked { p with ws := none, failureCount := failures } := by
  refine ⟨h.1, h.2, fun other hready hattached => ?_, h.4, h.5, h.6⟩
  have hother := h.attached_known other hready hattached
  rw [hws, Option.some.injEq] at hother
  subst hother
  exact absurd hclosed hready

/-- A first poll that counts sets the interval. -/
theorem setPollingInterval (h : Tracked p) {index : Nat} (hindex : index < p.firstPolls.length)
    (htimely : p.firstPolls[index]? ≠ some ⟨true⟩) : Tracked (p.setPollingInterval index) := by
  have hpoll : p.firstPolls[index] = ⟨false⟩ := by
    rw [List.getElem?_eq_getElem hindex] at htimely
    cases hsuperseded : p.firstPolls[index] with
    | mk superseded =>
        cases superseded with
        | false => rfl
        | true => exact absurd (by rw [hsuperseded]) htimely
  have hmem : ⟨false⟩ ∈ p.firstPolls := hpoll ▸ List.getElem_mem hindex
  have hnone := h.poll_before_interval hmem
  -- it was the only one, so none is left
  have hleft : (p.firstPolls.eraseIdx index).count ⟨false⟩ = 0 := by
    have hcount := (List.getElem_cons_eraseIdx_perm hindex).count_eq ⟨false⟩
    have hone := h.one_poll
    rw [hpoll, List.count_cons_self] at hcount
    omega
  refine ⟨?_, h.2, h.3, h.4, fun hmem' => ?_, ?_⟩
  · show p.intervals ++ [p.nextId] = [p.nextId]
    rw [h.intervals_eq, hnone]
    rfl
  · exact absurd hmem' (List.count_eq_zero.mp hleft)
  · show (p.firstPolls.eraseIdx index).count ⟨false⟩ ≤ 1
    omega

end Tracked

/-! ## Listeners -/

namespace Page

variable (p : Page)

/-- What dropping the socket leaves alone. -/
theorem dropSocket_frame : p.dropSocket.ws = none ∧ p.dropSocket.blockListeners = p.blockListeners ∧
    p.dropSocket.timeouts = p.timeouts ∧ p.dropSocket.pollingTimer = p.pollingTimer ∧
    p.dropSocket.firstPolls = p.firstPolls := by
  unfold dropSocket
  cases hws : p.ws with
  | none => exact ⟨hws, rfl, rfl, rfl, rfl⟩
  | some id => exact ⟨rfl, rfl, rfl, rfl, rfl⟩

@[simp] theorem blockListeners_disconnect : p.disconnect.blockListeners = p.blockListeners :=
  p.clearTimers.supersede.dropSocket_frame.2.1

@[simp] theorem blockListeners_retryOrPoll : p.retryOrPoll.blockListeners = p.blockListeners := by
  unfold retryOrPoll
  split
  · rfl
  · rfl

@[simp] theorem blockListeners_connect (throws : Bool) :
    (p.connect throws).blockListeners = p.blockListeners := by
  unfold connect
  split
  · rfl
  · split
    · rfl
    · cases throws with
      | true => exact blockListeners_retryOrPoll _
      | false => rfl

end Page

/-- After a disconnect nothing goes on. -/
theorem Tracked.not_busy_disconnect {p : Page} (h : Tracked p) : ¬ Busy p.disconnect := by
  obtain ⟨hws, -, htimeouts, hpolling, hpolls⟩ := p.clearTimers.supersede.dropSocket_frame
  rintro (hsocket | htimer | hinterval | hpoll)
  · exact hsocket hws
  · exact htimer (htimeouts.trans h.timeouts_clearTimers)
  · exact hinterval hpolling
  · exact not_mem_supersede _ (hpolls ▸ hpoll)

/-- After `disconnect` nothing goes on. -/
theorem Tracked.contained_disconnect {p : Page} (h : Tracked p) : Contained p.disconnect :=
  ⟨h.disconnect, fun hbusy => absurd hbusy h.not_busy_disconnect⟩

/-! ## Steps and runs -/

namespace Contained

variable {p q : Page}

/-- The first listener that comes connects. -/
theorem subscribeToBlocks (h : Contained p) (listener : Nat) (throws : Bool) :
    Contained (p.subscribeToBlocks listener throws) := by
  have hne : p.added listener ≠ [] := by
    unfold Page.added
    split
    · rename_i hmem
      exact List.ne_nil_of_mem hmem
    · exact List.append_ne_nil_of_right_ne_nil _ (List.cons_ne_nil _ _)
  have htracked := h.tracked.setListeners (p.added listener)
  unfold Page.subscribeToBlocks
  split
  · exact (htracked.connect throws).contained (by rw [Page.blockListeners_connect]; exact hne)
  · exact htracked.contained hne

/-- The last listener that leaves disconnects. -/
theorem unsubscribe (h : Contained p) (listener : Nat) : Contained (p.unsubscribe listener) := by
  have htracked := h.tracked.setListeners (p.blockListeners.erase listener)
  unfold Page.unsubscribe
  split
  · exact htracked.contained_disconnect
  · rename_i hne
    exact htracked.contained fun hnil => hne (List.length_eq_zero_iff.mpr hnil)

theorem reconnect (h : Contained p) (throws : Bool) : Contained (p.reconnect throws) := by
  have htracked := h.tracked.setFlags 0 false
  unfold Page.reconnect
  dsimp only
  split
  · rename_i hlisteners
    refine (htracked.disconnect.connect throws).contained ?_
    rw [Page.blockListeners_connect, Page.blockListeners_disconnect]
    exact List.ne_nil_of_length_pos hlisteners
  · exact htracked.contained_disconnect

/-- A socket with handlers belongs to the manager, so there are listeners. -/
theorem heard_socket (h : Contained p) {id : Nat} (hready : (p.sockets id).readyState ≠ .closed)
    (hattached : (p.sockets id).attached = true) : p.blockListeners ≠ [] :=
  h.heard (Or.inl (by rw [h.tracked.attached_known id hready hattached]; simp))

/-- A socket that opens starts nothing without a listener. -/
theorem socketOpens (h : Contained p) {id : Nat} (hready : (p.sockets id).readyState = .connecting) :
    Contained ((p.setReadyState id .opened).handled id Page.onopen) := by
  have hopen : (p.sockets id).readyState ≠ .closed := by rw [hready]; decide
  have htracked : Tracked (p.setReadyState id .opened) :=
    h.tracked.setReadyState hopen fun _ => Or.inl hready
  have hlisteners : Busy (p.setReadyState id .opened) → p.blockListeners ≠ [] := h.heard
  unfold Page.handled
  split
  · exact ⟨⟨htracked.1, htracked.2, htracked.3, htracked.4, htracked.5, htracked.6⟩, hlisteners⟩
  · exact ⟨htracked, hlisteners⟩

theorem socketStartsClosing (h : Contained p) {id : Nat}
    (hready : (p.sockets id).readyState = .opened) : Contained (p.setReadyState id .closing) := by
  have hopen : (p.sockets id).readyState ≠ .closed := by rw [hready]; decide
  exact ⟨h.tracked.setReadyState hopen fun _ => Or.inr hready, h.heard⟩

/-- A socket that closes starts nothing without a listener. -/
theorem socketCloses (h : Contained p) {id : Nat} (hready : (p.sockets id).readyState ≠ .closed) :
    Contained ((p.setReadyState id .closed).handled id Page.onclose) := by
  have htracked : Tracked (p.setReadyState id .closed) := by
    refine h.tracked.setReadyState hready ?_
    rintro (hstate | hstate)
    · cases hstate
    · cases hstate
  unfold Page.handled
  have hsocket : (p.setReadyState id .closed).sockets id = ⟨.closed, (p.sockets id).attached⟩ :=
    Function.update_self _ _ _
  rw [hsocket]
  by_cases hattached : (p.sockets id).attached = true
  · have hheard : (p.setReadyState id .closed).blockListeners ≠ [] := h.heard_socket hready hattached
    have hws : (p.setReadyState id .closed).ws = some id :=
      h.tracked.attached_known id hready hattached
    have hforgot := htracked.forgetSocket hws (by rw [hsocket]) (p.failureCount + 1)
    rw [if_pos hattached]
    unfold Page.onclose
    rw [if_neg fun hlength => hheard (List.length_eq_zero_iff.mp hlength)]
    exact hforgot.retryOrPoll.contained (by rw [Page.blockListeners_retryOrPoll]; exact hheard)
  · rw [if_neg hattached]
    exact ⟨htracked, h.heard⟩

theorem subscriptionError (h : Contained p) {id : Nat}
    (hready : (p.sockets id).readyState = .opened) :
    Contained (p.handled id Page.onSubscriptionError) := by
  unfold Page.handled
  split
  · rename_i hattached
    have hheard := h.heard_socket (by rw [hready]; decide) hattached
    unfold Page.onSubscriptionError
    split
    · have htracked := h.tracked.setFlags (p.failureCount + 1) true
      refine htracked.disconnect.startPollingFallback.contained ?_
      exact (Page.blockListeners_disconnect _).trans_ne hheard
    · exact (h.tracked.setFlags (p.failureCount + 1) p.isPollingFallback).contained hheard
  · exact h

/-- A reconnect that comes due starts nothing without a listener. -/
theorem timeoutFires (h : Contained p) {id : Nat} (hid : id ∈ p.timeouts) (throws : Bool) :
    Contained (({ p with timeouts := p.timeouts.erase id } : Page).connect throws) := by
  have hheard := h.heard (Or.inr (Or.inl (List.ne_nil_of_mem hid)))
  have htracked : Tracked { p with timeouts := p.timeouts.erase id } :=
    ⟨h.tracked.1, fun other hother => h.tracked.2 other (List.mem_of_mem_erase hother), h.tracked.3,
      h.tracked.4, h.tracked.5, h.tracked.6⟩
  exact (htracked.connect throws).contained (by rw [Page.blockListeners_connect]; exact hheard)

/-- A first poll that still counts when it completes starts nothing without a listener. -/
theorem firstPollCompletes (h : Contained p) {index : Nat} (hindex : index < p.firstPolls.length)
    (htimely : p.firstPolls[index]? ≠ some ⟨true⟩) : Contained (p.setPollingInterval index) := by
  refine (h.tracked.setPollingInterval hindex htimely).contained (h.heard (Or.inr (Or.inr (Or.inr ?_))))
  rw [List.getElem?_eq_getElem hindex] at htimely
  have hmem : p.firstPolls[index] ∈ p.firstPolls := List.getElem_mem hindex
  revert hmem htimely
  cases p.firstPolls[index] with
  | mk superseded =>
      cases superseded with
      | false => exact fun _ hmem => hmem
      | true => exact fun htimely => absurd rfl htimely

/-- One timely event. -/
theorem step (h : Contained p) (hstep : TimelyStep p q) : Contained q := by
  obtain ⟨event, htimely, hnext⟩ := hstep
  cases event with
  | subscribe listener throws =>
      cases hnext
      exact h.subscribeToBlocks listener throws
  | unsubscribe listener =>
      cases hnext
      exact h.unsubscribe listener
  | reconnect throws =>
      cases hnext
      exact h.reconnect throws
  | socketOpens id =>
      obtain ⟨hready, heq⟩ := Option.ite_none_right_eq_some.mp hnext
      cases heq
      exact h.socketOpens hready
  | socketStartsClosing id =>
      obtain ⟨hready, heq⟩ := Option.ite_none_right_eq_some.mp hnext
      cases heq
      exact h.socketStartsClosing hready
  | socketCloses id =>
      obtain ⟨hready, heq⟩ := Option.ite_none_right_eq_some.mp hnext
      cases heq
      exact h.socketCloses hready
  | subscriptionError id =>
      obtain ⟨hready, heq⟩ := Option.ite_none_right_eq_some.mp hnext
      cases heq
      exact h.subscriptionError hready
  | otherMessage id =>
      obtain ⟨-, heq⟩ := Option.ite_none_right_eq_some.mp hnext
      cases heq
      exact h
  | timeoutFires id throws =>
      obtain ⟨hid, heq⟩ := Option.ite_none_right_eq_some.mp hnext
      cases heq
      exact h.timeoutFires hid throws
  | intervalPolls id =>
      obtain ⟨-, heq⟩ := Option.ite_none_right_eq_some.mp hnext
      cases heq
      exact h
  | firstPollCompletes index =>
      obtain ⟨hindex, heq⟩ := Option.ite_none_right_eq_some.mp hnext
      cases heq
      exact h.firstPollCompletes hindex (htimely index rfl)

end Contained

/-- In a run in which no superseded first poll completes there is one polling interval at most, and
without listeners there is neither an interval nor a reconnect timer nor an active socket. -/
theorem polling_contained {p : Page} (h : Relation.ReflTransGen TimelyStep Page.initial p) :
    p.intervals.length ≤ 1 ∧
      (p.blockListeners = [] → p.intervals = [] ∧ p.timeouts = [] ∧ ∀ id, ¬ (p.sockets id).Active) := by
  have hcontained : Contained p :=
    reflTransGen_preserves (fun _ _ hstep hbefore => hbefore.step hstep) h contained_initial
  obtain ⟨htracked, hheard⟩ := hcontained
  refine ⟨?_, fun hnobody => ?_⟩
  · rw [htracked.intervals_eq]
    exact Option.length_toList_le
  · have hidle : ¬ Busy p := fun hbusy => hheard hbusy hnobody
    simp only [Busy, not_or, not_not] at hidle
    obtain ⟨hws, htimeouts, hpolling, -⟩ := hidle
    refine ⟨by rw [htracked.intervals_eq, hpolling]; rfl, htimeouts, fun id hactive => ?_⟩
    have hopen : (p.sockets id).readyState ≠ .closed := by
      rcases hactive with hstate | hstate
      · rw [hstate]
        decide
      · rw [hstate]
        decide
    have hknown := htracked.attached_known id hopen (htracked.active_attached id hactive)
    rw [hws] at hknown
    cases hknown

namespace Sample

/-- A listener subscribes, and three sockets fail one after the other: polling starts. -/
def fallback : List PageEvent := [.subscribe 0 true, .timeoutFires 0 true, .timeoutFires 1 true]

/-- What is left of a page. -/
def remains (p : Page) : List Nat × List FirstPoll × List Nat :=
  (p.blockListeners, p.firstPolls, p.intervals)

/-- The listener leaves while the first poll is pending, and the interval is set with nobody there. When
it comes back in time there are two intervals. -/
theorem interval_leaks :
    (Page.initial.run (fallback ++ [.unsubscribe 0, .firstPollCompletes 0])).map remains =
        some ([], [], [2]) ∧
      (Page.initial.run (fallback ++ [.unsubscribe 0, .subscribe 0 false, .firstPollCompletes 0,
        .firstPollCompletes 0])).map remains = some ([0], [], [2, 3]) := by
  constructor
  · decide
  · decide

/-- A first poll that completes undisturbed sets the one interval. -/
theorem interval_set : ∃ p, Relation.ReflTransGen TimelyStep Page.initial p ∧
    remains p = ([0], [], [2]) ∧ p.intervals.length ≤ 1 := by
  have hrun : Relation.ReflTransGen TimelyStep Page.initial _ :=
    (((Relation.ReflTransGen.refl.tail ⟨.subscribe 0 true, nofun, rfl⟩).tail
      ⟨.timeoutFires 0 true, nofun, rfl⟩).tail ⟨.timeoutFires 1 true, nofun, rfl⟩).tail
        ⟨.firstPollCompletes 0, fun index h => by cases h; decide, rfl⟩
  exact ⟨_, hrun, rfl, (polling_contained hrun).1⟩

end Sample

end Igit.Web
