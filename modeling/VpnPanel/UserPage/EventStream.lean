import Mathlib.Data.List.Basic

/-!
# The change stream of the public page

`utils/userEventStream.ts`: one `EventSource` for the account's token. A source
is known by the generation it was created under, and the listeners of an older
one do nothing.
-/

namespace VpnPanel.UserPage

abbrev Token := String

def STREAM_RETRY_DELAYS_MS : List Nat := [1000, 2000, 5000, 15000, 30000]

structure ConnectedEvent where
  userId : Option String
  notifications : Bool
  deriving DecidableEq, Repr

/-- What the browser fires on a source, with the parsed payload where there is
one. `closed` is whether `readyState` is `CLOSED`. -/
inductive Frame
  | connected (payload : Option ConnectedEvent)
  | changed (reason : Option String)
  | unauthorized
  | error (closed : Bool)
  | open
  deriving DecidableEq, Repr

/-- The handlers the stream calls. -/
inductive Signal
  | onConnected (event : ConnectedEvent)
  | onChanged (reason : String)
  | onUnauthorized
  deriving DecidableEq, Repr

structure UserEventStream where
  source : Option Nat := none
  connectedToken : Option Token := none
  generation : Nat := 0
  attempts : Nat := 0
  /-- The delay of the retry timer that is armed. -/
  retry : Option Nat := none
  disabled : Bool := false
  rejectedToken : Option Token := none
  deriving DecidableEq, Repr

namespace UserEventStream

def cancelRetry (s : UserEventStream) : UserEventStream := { s with retry := none }

def detach (s : UserEventStream) : UserEventStream :=
  { s with generation := s.generation + 1, source := none, connectedToken := none }

def scheduleRetry (s : UserEventStream) : UserEventStream :=
  if s.disabled then s
  else { s.cancelRetry with
    retry := STREAM_RETRY_DELAYS_MS[min s.attempts (STREAM_RETRY_DELAYS_MS.length - 1)]?
    attempts := s.attempts + 1 }

def connect (token : Token) (s : UserEventStream) : UserEventStream :=
  if token = "" then s
  else { s.cancelRetry with
    generation := s.generation + 1
    connectedToken := some token
    source := some (s.generation + 1) }

/-- `open`, a reserved word here. -/
def openFor (token : Token) (s : UserEventStream) : UserEventStream :=
  let s := { s with disabled := false }
  if token = "" then s.cancelRetry.detach
  else if s.source ≠ none ∧ s.connectedToken = some token then s
  else if s.source = none ∧ s.rejectedToken = some token then s
  else s.detach.connect token

def close (s : UserEventStream) : UserEventStream :=
  ({ s with disabled := true } : UserEventStream).cancelRetry.detach

/-- The listeners of the current source. -/
def receive (s : UserEventStream) : Frame → UserEventStream × Option Signal
  | .connected payload =>
      ({ s with attempts := 0 }, some (.onConnected (payload.getD ⟨none, false⟩)))
  | .changed reason => (s, some (.onChanged (reason.getD "")))
  | .unauthorized =>
      (({ s with rejectedToken := s.connectedToken, disabled := true } : UserEventStream).detach,
        some .onUnauthorized)
  | .error closed => (if closed then s.detach.scheduleRetry else s, none)
  | .open => ({ s with attempts := 0 }, none)

end UserEventStream

end VpnPanel.UserPage
