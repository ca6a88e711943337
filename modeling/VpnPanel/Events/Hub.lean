import Mathlib.Algebra.GroupWithZero.Nat
import Mathlib.Logic.Function.Basic
import VpnPanel.Lib.Rows
import VpnPanel.Backend.Schema

/-!
# The event hub

`UserEventHub` of `services/events.py`: the open streams of a process, the
coalescing state that a user's streams share, and the timers of the event loop
that belong to it. A subscription's queue has one slot. A method of the hub runs
without giving the loop away, so each is one function on the state.
-/

namespace VpnPanel.Events

open VpnPanel.Lib VpnPanel.Backend

abbrev SubscriptionId := Nat
abbrev FanoutId := Nat
abbrev HandleId := Nat

def reasonNodeHeartbeat : String := "node.heartbeat"

/-- `COALESCED_REASONS`. -/
def coalescedReasons : List String := [reasonNodeHeartbeat]

/-- What a queue holds: a reason, the mark of the stream's timer (`_TIMER`), or
the sentinel that ends the stream (`_TERMINATED`). -/
inductive Item
  | reason (text : String)
  | timer
  | terminated
  deriving DecidableEq, Repr

/-- `UserEventSubscription`; its queue is the slot of its id. -/
structure Subscription where
  id : SubscriptionId
  userId : UserId
  deriving DecidableEq, Repr

/-- `_Fanout`, with the user it is stored under and its own identity, which a
timer keeps after the hub has dropped it. -/
structure Fanout where
  id : FanoutId
  userId : UserId
  subscriptions : List Subscription := []
  lastDeliveredAt : Option Time := none
  trailing : Option HandleId := none
  deriving DecidableEq, Repr

/-- A call of `_deliver` that the loop makes at its deadline. -/
structure TimerHandle where
  id : HandleId
  fanout : FanoutId
  reason : String
  deadline : Time
  deriving DecidableEq, Repr

/-- One call of `_deliver`. -/
structure Delivery where
  fanout : FanoutId
  reason : String
  at_ : Time
  deriving DecidableEq, Repr

structure HubConfig where
  coalesceSeconds : Time
  maxSubscriptions : Nat

abbrev Slots := SubscriptionId → Option Item

/-- The hub and the part of the loop it uses. The last three fields are history:
no function of the hub reads them. -/
structure Hub where
  stopping : Bool := false
  fanouts : List Fanout := []
  slots : Slots := fun _ => none
  /-- `loop.time()`. -/
  clock : Time := 0
  /-- The handles that are to run. -/
  handles : List TimerHandle := []
  cancelled : List HandleId := []
  nextId : Nat := 0
  /-- The deliveries, the latest first. -/
  log : List Delivery := []
  /-- The fanouts with a notification held back since their last delivery. -/
  suppressed : FanoutId → Bool := fun _ => false
  /-- The subscriptions notified since their stream last read a reason. -/
  owed : SubscriptionId → Bool := fun _ => false

namespace Hub

variable (cfg : HubConfig) (h : Hub)

/-! ## Timers and slots -/

/-- `handle.cancel()`. -/
def cancel (handle : HandleId) : Hub :=
  { h with
    handles := h.handles.filter (·.id ≠ handle)
    cancelled := handle :: h.cancelled }

/-- Cancel the trailing timer of a fanout, if it has one. -/
def cancelTrailing (fanout : Fanout) : Hub :=
  match fanout.trailing with
  | none => h
  | some handle => h.cancel handle

/-- `put_nowait` under `suppress(QueueFull)`: a full slot keeps what it has. -/
def offer (slots : Slots) (id : SubscriptionId) (item : Item) : Slots :=
  match slots id with
  | none => Function.update slots id (some item)
  | some _ => slots

/-- The loop of `_deliver` over the subscriptions of a fanout. -/
def offerAll (item : Item) : List Subscription → Slots → Slots
  | [], slots => slots
  | first :: rest, slots => offerAll item rest (offer slots first.id item)

/-- `UserEventSubscription.terminate`: whatever was unread goes. -/
def terminate (slots : Slots) (id : SubscriptionId) : Slots :=
  Function.update slots id (some .terminated)

def terminateAll : List Subscription → Slots → Slots
  | [], slots => slots
  | first :: rest, slots => terminateAll rest (terminate slots first.id)

/-! ## Streams come and go -/

def subscriptionCount : Nat := (h.fanouts.map (·.subscriptions.length)).sum

def fanoutOf? (userId : UserId) : Option Fanout := Rows.get? Fanout.userId h.fanouts userId

/-- `none` is the error of a stopping hub or of a process at its limit. -/
def subscribe (userId : UserId) : Option (Subscription × Hub) :=
  if h.stopping then none
  else if h.subscriptionCount ≥ cfg.maxSubscriptions then none
  else
    let subscription : Subscription := ⟨h.nextId, userId⟩
    let opened := { h with
      slots := Function.update h.slots subscription.id none
      owed := Function.update h.owed subscription.id false }
    match h.fanoutOf? userId with
    | some fanout => some (subscription, { opened with
        fanouts := Rows.save Fanout.id
          { fanout with subscriptions := fanout.subscriptions ++ [subscription] } h.fanouts
        nextId := h.nextId + 1 })
    | none => some (subscription, { opened with
        fanouts := h.fanouts ++
          [{ id := h.nextId + 1, userId, subscriptions := [subscription] }]
        nextId := h.nextId + 2 })

/-- Release a stream, and with its user's last stream the coalescing timer. -/
def unsubscribe (subscription : Subscription) : Hub :=
  match h.fanoutOf? subscription.userId with
  | none => h
  | some fanout =>
      let subscriptions := fanout.subscriptions.erase subscription
      if subscriptions = [] then
        { h.cancelTrailing fanout with
          fanouts := h.fanouts.filter (·.userId ≠ subscription.userId) }
      else { h with fanouts := Rows.save Fanout.id { fanout with subscriptions } h.fanouts }

/-- The synchronous end of `stop`: every timer is cancelled and every stream
woken with the sentinel. -/
def stop : Hub :=
  let timers := h.fanouts.foldl cancelTrailing h
  { timers with
    stopping := true
    fanouts := []
    slots := terminateAll (h.fanouts.flatMap (·.subscriptions)) h.slots }

/-! ## Notifications -/

/-- `_deliver`. It supersedes a trailing timer of the same fanout. -/
def deliver (fanout : Fanout) (reason : String) : Hub :=
  let timers := h.cancelTrailing fanout
  { timers with
    fanouts := Rows.save Fanout.id
      { fanout with trailing := none, lastDeliveredAt := some h.clock } h.fanouts
    slots := offerAll (.reason reason) fanout.subscriptions h.slots
    log := ⟨fanout.id, reason, h.clock⟩ :: h.log
    suppressed := Function.update h.suppressed fanout.id false
    owed := fun id => h.owed id || fanout.subscriptions.any (·.id = id) }

/-- The notification is held back: one trailing delivery stands for all of its
window. -/
def suppress (fanout : Fanout) (delay : Time) (reason : String) : Hub :=
  let held := { h with suppressed := Function.update h.suppressed fanout.id true }
  if fanout.trailing.all (· ∈ h.cancelled) then
    { held with
      fanouts := Rows.save Fanout.id { fanout with trailing := some h.nextId } h.fanouts
      handles := h.handles ++ [⟨h.nextId, fanout.id, reason, h.clock + delay⟩]
      nextId := h.nextId + 1 }
  else held

/-- Whether a notification is delivered at once. -/
def immediate (fanout : Fanout) (reason : String) : Bool :=
  reason ∉ coalescedReasons ||
    match fanout.lastDeliveredAt with
    | none => true
    | some last => h.clock - last ≥ cfg.coalesceSeconds

/-- `_fan_out`. -/
def fanOut (userId : UserId) (reason : String) : Hub :=
  match h.fanoutOf? userId with
  | none => h
  | some fanout =>
      if h.immediate cfg fanout reason then h.deliver fanout reason
      else
        let elapsed := h.clock - fanout.lastDeliveredAt.getD h.clock
        h.suppress fanout (cfg.coalesceSeconds - elapsed) reason

/-- The loop runs a handle: it leaves the loop and calls `_deliver`. -/
def runHandle (handle : TimerHandle) : Hub :=
  let ran := { h with handles := h.handles.filter (·.id ≠ handle.id) }
  match Rows.get? Fanout.id h.fanouts handle.fanout with
  | none => ran
  | some fanout => ran.deliver fanout handle.reason

/-! ## What each method does to a slot -/

variable {h : Hub}

theorem cancelTrailing_slots (fanout : Fanout) : (h.cancelTrailing fanout).slots = h.slots := by
  unfold cancelTrailing
  cases fanout.trailing <;> rfl

theorem cancelTrailing_owed (fanout : Fanout) : (h.cancelTrailing fanout).owed = h.owed := by
  unfold cancelTrailing
  cases fanout.trailing <;> rfl

/-- A full slot is left alone by every offer. -/
theorem offer_of_full {slots : Slots} {id other : SubscriptionId} {item : Item}
    (h : slots id ≠ none) : offer slots other item id = slots id := by
  unfold offer
  cases hs : slots other with
  | some _ => rfl
  | none =>
      have hne : id ≠ other := fun heq => h (heq ▸ hs)
      simp [Function.update_of_ne hne]

theorem offer_self {slots : Slots} {id : SubscriptionId} {item : Item} (h : slots id = none) :
    offer slots id item id = some item := by
  simp [offer, h]

theorem offer_of_ne {slots : Slots} {id other : SubscriptionId} {item : Item} (hne : id ≠ other) :
    offer slots other item id = slots id := by
  unfold offer
  cases slots other with
  | some _ => rfl
  | none => simp [Function.update_of_ne hne]

theorem offerAll_of_full {id : SubscriptionId} {item : Item} (subscriptions : List Subscription) :
    ∀ {slots : Slots}, slots id ≠ none → offerAll item subscriptions slots id = slots id := by
  induction subscriptions with
  | nil => exact fun _ => rfl
  | cons first rest ih =>
      intro slots hfull
      have hfirst : offer slots first.id item id = slots id := offer_of_full hfull
      rw [offerAll, ih (by rwa [hfirst]), hfirst]

/-- An empty slot that is offered something is filled with it. -/
theorem offerAll_of_empty {id : SubscriptionId} {item : Item} (subscriptions : List Subscription) :
    ∀ {slots : Slots}, slots id = none → (∃ s ∈ subscriptions, s.id = id) →
      offerAll item subscriptions slots id = some item := by
  induction subscriptions with
  | nil => simp
  | cons first rest ih =>
      intro slots hempty hmem
      rw [offerAll]
      by_cases hfirst : id = first.id
      · have hself : offer slots first.id item id = some item := by
          rw [← hfirst]
          exact offer_self hempty
        rw [offerAll_of_full rest (by simp [hself]), hself]
      · have hrest : ∃ s ∈ rest, s.id = id := by
          obtain ⟨s, hs, rfl⟩ := hmem
          rcases List.mem_cons.mp hs with rfl | hs
          · exact absurd rfl hfirst
          · exact ⟨s, hs, rfl⟩
        exact ih (by rw [offer_of_ne hfirst, hempty]) hrest

theorem terminateAll_cases (subscriptions : List Subscription) (id : SubscriptionId) :
    ∀ slots : Slots, terminateAll subscriptions slots id = slots id ∨
      terminateAll subscriptions slots id = some .terminated := by
  induction subscriptions with
  | nil => exact fun _ => .inl rfl
  | cons first rest ih =>
      intro slots
      rcases ih (terminate slots first.id) with h | h
      · by_cases hid : id = first.id
        · right
          rw [terminateAll, h]
          simp [terminate, hid]
        · left
          rw [terminateAll, h]
          simp [terminate, hid]
      · exact .inr h

theorem unsubscribe_frame (subscription : Subscription) :
    (h.unsubscribe subscription).slots = h.slots ∧ (h.unsubscribe subscription).owed = h.owed := by
  unfold unsubscribe
  cases h.fanoutOf? subscription.userId with
  | none => exact ⟨rfl, rfl⟩
  | some fanout =>
      dsimp only
      split
      · exact ⟨cancelTrailing_slots fanout, cancelTrailing_owed fanout⟩
      · exact ⟨rfl, rfl⟩

/-- A new subscription has an empty slot and nothing owed. -/
theorem subscribe_frame {cfg : HubConfig} {userId : UserId} {subscription : Subscription}
    {hub : Hub}
    (hs : h.subscribe cfg userId = some (subscription, hub)) :
    hub.slots = Function.update h.slots subscription.id none ∧
      hub.owed = Function.update h.owed subscription.id false := by
  unfold subscribe at hs
  split at hs
  · cases hs
  · split at hs
    · cases hs
    · dsimp only at hs
      split at hs <;> cases hs <;> exact ⟨rfl, rfl⟩

theorem suppress_frame (fanout : Fanout) (delay : Time) (reason : String) :
    (h.suppress fanout delay reason).slots = h.slots ∧
      (h.suppress fanout delay reason).owed = h.owed := by
  unfold suppress
  dsimp only
  split <;> exact ⟨rfl, rfl⟩

theorem stop_owed : h.stop.owed = h.owed := by
  have hfold : ∀ (fanouts : List Fanout) (g : Hub),
      (fanouts.foldl cancelTrailing g).owed = g.owed := by
    intro fanouts
    induction fanouts with
    | nil => exact fun _ => rfl
    | cons first rest ih => exact fun g => (ih _).trans (cancelTrailing_owed first)
  exact hfold h.fanouts h

end Hub

end VpnPanel.Events
