import VpnPanel.Lib.TSys
import VpnPanel.UserPage.EventStream

/-!
# The refresh loop of the public page

`composables/useUserPageRefresh.ts` with `utils/refreshPolicy.ts`. A request is
kept until its promise settles, whether or not its answer still counts. The
answers, the timers, the stream and the document's visibility are events that
come in any order.
-/

namespace VpnPanel.UserPage

open VpnPanel.Lib

/-! ## The polling policy -/

def PENDING_POLL_MS : Nat := 1000
def PENDING_POLL_WINDOW_MS : Int := 120000
def IDLE_POLL_MS : Nat := 15000

structure PollableNode where
  status : String
  ready : Bool
  deriving DecidableEq, Repr

structure PollableDevice where
  status : String
  nodes : List PollableNode
  deriving DecidableEq, Repr

/-- The part of the account's payload that decides how the page is polled. -/
structure UserInfo where
  blocked : Bool
  statusCode : String
  devices : List PollableDevice
  deriving DecidableEq, Repr

inductive PublicApiErrorKind
  | notFound | blocked | conflict | validation | network | server | unknown
  deriving DecidableEq, Repr

structure PublicApiError where
  kind : PublicApiErrorKind
  status : Option Nat := none
  deriving DecidableEq, Repr

def hasPendingWork : Option UserInfo → Bool
  | none => false
  | some info =>
      if info.blocked ∨ info.statusCode ≠ "active" then false
      else info.devices.any fun device =>
        device.status = "pending" || device.nodes.any fun node => !node.ready

def nextPollDelayMs (info : Option UserInfo) (hidden : Bool) (pendingForMs : Int) : Option Nat :=
  if hidden then none
  else if !hasPendingWork info then some IDLE_POLL_MS
  else if pendingForMs < PENDING_POLL_WINDOW_MS then some PENDING_POLL_MS
  else some IDLE_POLL_MS

structure RefreshState where
  data : Option UserInfo
  error : Option PublicApiError
  retrying : Bool

def resolveRefresh (state : RefreshState) : Except PublicApiError UserInfo → RefreshState
  | .ok data => ⟨some data, none, false⟩
  | .error error => ⟨state.data, some error, state.data.isSome⟩

/-! ## The page -/

structure Request where
  run : Nat
  ticket : Nat
  token : Token
  /-- Its controller was aborted. -/
  aborted : Bool := false
  deriving DecidableEq, Repr

/-- How the promise of a read settles; `failed none` is an error that is no
`PublicApiError`. -/
inductive Outcome
  | ok (data : UserInfo)
  | failed (error : Option PublicApiError)
  | aborted
  deriving DecidableEq, Repr

structure Page where
  /-- `getToken()` -/
  token : Token
  /-- `visibility.isHidden()` -/
  hidden : Bool := false
  /-- `now()` -/
  now : Int := 0
  /-- The counter of the stale guard. -/
  current : Nat := 0
  info : Option UserInfo := none
  error : Option PublicApiError := none
  retrying : Bool := false
  loading : Bool := true
  refreshing : Bool := false
  lastLoadedAt : Option Int := none
  notificationsAvailable : Bool := false
  /-- The delay of the poll timer that is armed. -/
  timer : Option Nat := none
  /-- The request whose `AbortController` is held. -/
  controller : Option Nat := none
  run : Nat := 0
  inFlight : Bool := false
  queued : Bool := false
  started : Bool := false
  pendingSince : Option Int := none
  /-- The visibility listener is registered. -/
  listening : Bool := false
  stream : UserEventStream := {}
  /-- The reads whose promise has not settled. -/
  requests : List Request := []

namespace Page

variable (p : Page)

def pendingForMs : Page × Int :=
  if !hasPendingWork p.info then ({ p with pendingSince := none }, 0)
  else
    let since := p.pendingSince.getD p.now
    ({ p with pendingSince := some since }, p.now - since)

/-- (Re)arm the fallback poll for the state that is on screen. -/
def schedule : Page :=
  let p := { p with timer := none }
  if !p.started ∨ (p.info = none ∧ p.error = none) then p
  else if p.info ≠ none then
    let (p, pendingForMs) := p.pendingForMs
    { p with timer := nextPollDelayMs p.info p.hidden pendingForMs }
  else { p with timer := if p.hidden then none else some IDLE_POLL_MS }

def apply (result : Except PublicApiError UserInfo) : Page :=
  let next := resolveRefresh ⟨p.info, p.error, p.retrying⟩ result
  { p with info := next.data, error := next.error, retrying := next.retrying }

def dropRevokedState : Page :=
  { p with
    current := p.current + 1
    info := none, error := none, retrying := false, lastLoadedAt := none, pendingSince := none
    loading := true }

def seize : Page := { p with run := p.run + 1, inFlight := false, queued := false }

/-- `controller?.abort()`, and the controller is given up. -/
def abort : Page :=
  { p with
    requests := p.requests.map fun r =>
      if p.controller = some r.run then { r with aborted := true } else r
    controller := none }

/-- A read begins, up to the `await`. -/
def begin (silent : Bool) : Page :=
  { p with
    inFlight := true
    run := p.run + 1
    refreshing := p.refreshing || !silent
    current := p.current + 1
    controller := some (p.run + 1)
    requests := ⟨p.run + 1, p.current + 1, p.token, false⟩ :: p.requests }

def refresh (silent : Bool) : Page :=
  if !p.started then p
  else if p.inFlight then { p with queued := true }
  else p.begin silent

/-- The answer to this request may still be applied. -/
def Counts (r : Request) : Prop := r.run = p.run ∧ r.ticket = p.current ∧ p.token = r.token

instance (r : Request) : Decidable (p.Counts r) := by
  unfold Counts
  infer_instance

/-- What is done with the outcome, before the finaliser. -/
def receive (r : Request) : Outcome → Page
  | .ok data =>
      if p.Counts r then { p.apply (.ok data) with lastLoadedAt := some p.now } else p
  | .failed error =>
      if p.Counts r then p.apply (.error (error.getD ⟨.unknown, none⟩)) else p
  | .aborted => p

/-- The `finally` block of `refresh`. -/
def finish (r : Request) : Page :=
  if r.run = p.run then
    let p := { p with inFlight := false, controller := none, refreshing := false, loading := false }
    if !p.started then { p with queued := false }
    else if p.queued then ({ p with queued := false } : Page).refresh true
    else p.schedule
  else p

/-- The promise of a read settles. -/
def settle (r : Request) (outcome : Outcome) : Page :=
  (({ p with requests := p.requests.erase r } : Page).receive r outcome).finish r

def acceptInfo (data : UserInfo) : Page :=
  let p := { p with current := p.current + 1 }
  ({ p.apply (.ok data) with lastLoadedAt := some p.now, loading := false } : Page).schedule

def invalidate : Page := { p with current := p.current + 1 }

def closeStream : Page := { p with stream := p.stream.close, notificationsAvailable := false }

def syncStream : Page :=
  if p.started ∧ !p.hidden then { p with stream := p.stream.openFor p.token } else p.closeStream

def reset : Page :=
  let p := ({ p with current := p.current + 1 } : Page).seize.abort
  let p := { p with
    timer := none, pendingSince := none
    info := none, error := none, retrying := false, lastLoadedAt := none, loading := true }
  p.syncStream.refresh false

def onVisibilityChange : Page :=
  if p.hidden then ({ p with timer := none } : Page).closeStream
  else p.syncStream.refresh true

def start : Page :=
  if p.started then p
  else ({ p with started := true, listening := true } : Page).syncStream.refresh false

def stop : Page :=
  let p := ({ p with started := false, current := p.current + 1 } : Page).seize.abort
  ({ p with timer := none, pendingSince := none, listening := false } : Page).closeStream

/-- The handlers the page gives the stream. `environment.onUnauthorized` clears
the caches of another component. -/
def handle : Option Signal → Page
  | none => p
  | some (.onConnected event) =>
      ({ p with notificationsAvailable := event.notifications } : Page).refresh true
  | some (.onChanged _) => p.refresh true
  | some .onUnauthorized =>
      ({ p with notificationsAvailable := false } : Page).dropRevokedState.refresh true

end Page

inductive Event
  | start
  | stop
  | reset
  | refresh (silent : Bool)
  | acceptInfo (data : UserInfo)
  | invalidate
  /-- The document is hidden or shown, and `visibilitychange` is fired. -/
  | visibility (hidden : Bool)
  | setToken (token : Token)
  /-- A source of this generation fires. -/
  | frame (generation : Nat) (frame : Frame)
  | retryTimer
  | pollTimer
  | settle (request : Request) (outcome : Outcome)
  | clock (now : Int)
  deriving DecidableEq, Repr

/-- The next state; `none` when the event is not enabled. A promise settles with
an `AbortError` only when its controller was aborted. -/
def Page.step (p : Page) : Event → Option Page
  | .start => some p.start
  | .stop => some p.stop
  | .reset => some p.reset
  | .refresh silent => some (p.refresh silent)
  | .acceptInfo data => some (p.acceptInfo data)
  | .invalidate => some p.invalidate
  | .visibility hidden =>
      let p := { p with hidden }
      some (if p.listening then p.onVisibilityChange else p)
  | .setToken token => some { p with token }
  | .frame generation frame =>
      if generation ≠ p.stream.generation then some p
      else if p.stream.source = some generation then
        let (stream, signal) := p.stream.receive frame
        some (({ p with stream } : Page).handle signal)
      else none
  | .retryTimer =>
      if p.stream.retry ≠ none then
        some { p with
          stream := ({ p.stream with retry := none } : UserEventStream).connect p.token }
      else none
  | .pollTimer =>
      if p.timer ≠ none then some (({ p with timer := none } : Page).refresh true) else none
  | .settle request outcome =>
      if request ∈ p.requests ∧ (outcome = .aborted → request.aborted = true) then
        some (p.settle request outcome)
      else none
  | .clock now => some { p with now }

/-- The page of an account, from the moment it is set up. -/
def userPage (token : Token) (hidden : Bool) : TSys Page Event where
  init := { token, hidden }
  step := Page.step

end VpnPanel.UserPage
