import VpnPanel.Lib.TSys
import VpnPanel.Events.Hub

/-!
# Open streams

`user_event_stream` of `services/events.py`, one coroutine for each open
stream, beside the hub it listens to. A stream waits for its slot with a ticker
armed, and reads the slot when the loop next runs it: whatever falls between the
write that woke it and that read finds the slot still full.
-/

namespace VpnPanel.Events

open VpnPanel.Lib VpnPanel.Backend

inductive Phase
  /-- Yielding frames, rechecking the token or the client. -/
  | busy
  /-- In `queue.get()`, with the ticker of this wait armed or fired. -/
  | waiting (ticking : Bool)
  | ended
  deriving DecidableEq, Repr

structure Server where
  hub : Hub := {}
  phase : SubscriptionId → Phase := fun _ => .ended

inductive Event
  | subscribe (userId : UserId)
  /-- The stream arms its ticker and enters `queue.get()`. -/
  | wait (id : SubscriptionId)
  /-- The ticker's sleep is over: `_put_after` offers the timer mark. -/
  | tick (id : SubscriptionId)
  /-- `queue.get()` returns; the ticker is cancelled. -/
  | take (subscription : Subscription)
  /-- The stream ends or its response is dropped: the subscription is released. -/
  | unsubscribe (subscription : Subscription)
  | notify (userId : UserId) (reason : String)
  | runHandle (handle : TimerHandle)
  | advance (clock : Time)
  | stop
  deriving DecidableEq, Repr

namespace Server

def close (s : Server) (subscription : Subscription) : Server where
  hub := s.hub.unsubscribe subscription
  phase := Function.update s.phase subscription.id .ended

/-- What the stream does with the item it read. -/
def read (s : Server) (subscription : Subscription) (item : Item) : Server :=
  let emptied := { s.hub with slots := Function.update s.hub.slots subscription.id none }
  match item with
  | .terminated => { s with hub := emptied }.close subscription
  | .timer => { s with hub := emptied, phase := Function.update s.phase subscription.id .busy }
  | .reason _ => { s with
      hub := { emptied with owed := Function.update s.hub.owed subscription.id false }
      phase := Function.update s.phase subscription.id .busy }

/-- The next state; `none` when the event is not enabled. -/
def step (cfg : HubConfig) (s : Server) : Event → Option Server
  | .subscribe userId =>
      (s.hub.subscribe cfg userId).map fun (subscription, hub) =>
        { hub, phase := Function.update s.phase subscription.id .busy }
  | .wait id =>
      if s.phase id = .busy then
        some { s with phase := Function.update s.phase id (.waiting true) }
      else none
  | .tick id =>
      if s.phase id = .waiting true then
        some {
          hub := { s.hub with slots := Hub.offer s.hub.slots id .timer }
          phase := Function.update s.phase id (.waiting false) }
      else none
  | .take subscription =>
      match s.phase subscription.id, s.hub.slots subscription.id with
      | .waiting _, some item => some (s.read subscription item)
      | _, _ => none
  | .unsubscribe subscription => some (s.close subscription)
  | .notify userId reason => some { s with hub := s.hub.fanOut cfg userId reason }
  | .runHandle handle =>
      if handle ∈ s.hub.handles ∧ handle.deadline ≤ s.hub.clock then
        some { s with hub := s.hub.runHandle handle }
      else none
  | .advance clock =>
      if s.hub.clock ≤ clock then some { s with hub := { s.hub with clock } } else none
  | .stop => some { s with hub := s.hub.stop }

end Server

/-- The hub with its streams, from a process that serves none. -/
def server (cfg : HubConfig) : TSys Server Event where
  init := {}
  step := Server.step cfg

/-! ## What a step does -/

/-- What each event needs, and the state it leaves. -/
def Event.Does (cfg : HubConfig) (s s' : Server) : Event → Prop
  | .subscribe userId => ∃ subscription hub,
      s.hub.subscribe cfg userId = some (subscription, hub) ∧
      s' = { hub, phase := Function.update s.phase subscription.id .busy }
  | .wait id => s.phase id = .busy ∧
      s' = { s with phase := Function.update s.phase id (.waiting true) }
  | .tick id => s.phase id = .waiting true ∧ s' = {
      hub := { s.hub with slots := Hub.offer s.hub.slots id .timer }
      phase := Function.update s.phase id (.waiting false) }
  | .take subscription => ∃ ticking item, s.phase subscription.id = .waiting ticking ∧
      s.hub.slots subscription.id = some item ∧ s' = s.read subscription item
  | .unsubscribe subscription => s' = s.close subscription
  | .notify userId reason => s' = { s with hub := s.hub.fanOut cfg userId reason }
  | .runHandle handle => handle ∈ s.hub.handles ∧ handle.deadline ≤ s.hub.clock ∧
      s' = { s with hub := s.hub.runHandle handle }
  | .advance clock => s.hub.clock ≤ clock ∧ s' = { s with hub := { s.hub with clock } }
  | .stop => s' = { s with hub := s.hub.stop }

theorem server_step {cfg : HubConfig} {s s' : Server} {e : Event}
    (h : (server cfg).step s e = some s') : e.Does cfg s s' := by
  change Server.step cfg s e = some s' at h
  cases e with
  | subscribe userId =>
      obtain ⟨⟨subscription, hub⟩, hsub, hs⟩ := Option.map_eq_some_iff.mp h
      exact ⟨subscription, hub, hsub, hs.symm⟩
  | wait id =>
      obtain ⟨hbusy, hs⟩ := Option.ite_none_right_eq_some.mp h
      exact ⟨hbusy, (Option.some.inj hs).symm⟩
  | tick id =>
      obtain ⟨hwaiting, hs⟩ := Option.ite_none_right_eq_some.mp h
      exact ⟨hwaiting, (Option.some.inj hs).symm⟩
  | take subscription =>
      simp only [Server.step] at h
      split at h
      · next ticking item hphase hslot =>
          exact ⟨ticking, item, hphase, hslot, (Option.some.inj h).symm⟩
      · cases h
  | runHandle handle =>
      obtain ⟨⟨hmem, hdue⟩, hs⟩ := Option.ite_none_right_eq_some.mp h
      exact ⟨hmem, hdue, (Option.some.inj hs).symm⟩
  | advance clock =>
      obtain ⟨hle, hs⟩ := Option.ite_none_right_eq_some.mp h
      exact ⟨hle, (Option.some.inj hs).symm⟩
  | _ => exact (Option.some.inj h).symm

end VpnPanel.Events
