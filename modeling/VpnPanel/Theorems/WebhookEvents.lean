import VpnPanel.Lib.Separated
import VpnPanel.Worker.Jobs

/-!
# Webhook events

The deliveries and redeliveries of one webhook, one after the other, each with
the outcome of its publish. An event that is answered `already_processed` is to
have had its job published before, and different events are to have different
keys.
-/

namespace VpnPanel.Theorems

open VpnPanel.Lib VpnPanel.Backend VpnPanel.Worker

/-- What identifies an event: its type, its timestamp and its user. A payload
without a user uuid has the empty one. -/
structure EventIdentity where
  eventType : Json
  timestamp : Json
  userUuid : Json
  deriving DecidableEq, Repr

def identity (payload : WebhookPayload) : EventIdentity :=
  ⟨payload.eventType, payload.time, (payload.uuid.getD (.text "")).or (.text "")⟩

/-! ## Sequences of deliveries -/

/-- The recorded events, the events whose job the broker has, and the events
that were answered `already_processed`. -/
structure WebhookLog where
  events : List RemnawaveWebhookEvent := []
  published : List EventIdentity := []
  answered : List EventIdentity := []

/-- A correctly signed delivery, and how the publish of its job ends if it
comes to that. -/
structure Delivery where
  payload : WebhookPayload
  outcome : Publish

def receive (log : WebhookLog) (delivery : Delivery) : WebhookLog :=
  match remnawaveWebhook log.events delivery.payload with
  | .error _ => log
  | .ok .alreadyProcessed =>
      { log with answered := log.answered ++ [identity delivery.payload] }
  | .ok (.recorded row _ _) =>
      { log with
        events := log.events ++ [row]
        published := if delivery.outcome.delivers then
          log.published ++ [identity delivery.payload] else log.published }

def deliveries : TSys WebhookLog Delivery where
  init := {}
  step log delivery := some (receive log delivery)

/-- Every event answered `already_processed` had its job published. -/
def Processed (log : WebhookLog) : Prop := ∀ event ∈ log.answered, event ∈ log.published

/-! ## Keys -/

/-- The text of a value that is a text. -/
def Json.isText : Json → Bool
  | .text _ => true
  | _ => false

/-- Type, timestamp and uuid are texts, and the separator of the key is in
neither the type nor the uuid. -/
def separable (payload : WebhookPayload) : Bool :=
  Json.isText (identity payload).eventType && Json.isText (identity payload).timestamp &&
    Json.isText (identity payload).userUuid &&
    (identity payload).eventType.str.toList.all (· ≠ ':') &&
    (identity payload).userUuid.str.toList.all (· ≠ ':')

theorem eventKey_toList (payload : WebhookPayload) :
    payload.eventKey.toList = (identity payload).eventType.str.toList ++
      ':' :: ((identity payload).timestamp.str.toList ++
        ':' :: (identity payload).userUuid.str.toList) := by
  unfold WebhookPayload.eventKey identity
  simp [String.toList_append]

theorem eq_of_isText {a b : Json} (ha : Json.isText a = true) (hb : Json.isText b = true)
    (h : a.str = b.str) : a = b := by
  cases a with
  | text value =>
      cases b with
      | text other => exact congrArg Json.text h
      | _ => cases hb
  | _ => cases ha

/-- The keys of separable payloads tell their events apart. -/
theorem identity_of_eventKey {p q : WebhookPayload} (hp : separable p = true)
    (hq : separable q = true) (h : p.eventKey = q.eventKey) : identity p = identity q := by
  simp only [separable, Bool.and_eq_true, List.all_eq_true] at hp hq
  obtain ⟨⟨⟨⟨hptype, hptime⟩, hpuser⟩, hpfirst⟩, hplast⟩ := hp
  obtain ⟨⟨⟨⟨hqtype, hqtime⟩, hquser⟩, hqfirst⟩, hqlast⟩ := hq
  -- the separator is none of the characters of the outer fields
  have hfree : ∀ {l : List Char}, (∀ x ∈ l, decide (x ≠ ':') = true) → ':' ∉ l :=
    fun hall hmem => of_decide_eq_true (hall _ hmem) rfl
  have hkeys := congrArg String.toList h
  rw [eventKey_toList, eventKey_toList] at hkeys
  obtain ⟨htype, htime, huser⟩ := Separated.three_fields (hfree hpfirst) (hfree hqfirst)
    (hfree hplast) (hfree hqlast) hkeys
  have htype' := eq_of_isText hptype hqtype (String.toList_inj.mp htype)
  have htime' := eq_of_isText hptime hqtime (String.toList_inj.mp htime)
  have huser' := eq_of_isText hpuser hquser (String.toList_inj.mp huser)
  exact EventIdentity.mk.injEq .. ▸ ⟨htype', htime', huser'⟩

/-! ## Runs -/

/-- The delivery is recorded, and its job does not reach the broker. -/
def loses (log : WebhookLog) (delivery : Delivery) : Bool :=
  match remnawaveWebhook log.events delivery.payload with
  | .ok (.recorded _ _ _) => !delivery.outcome.delivers
  | _ => false

/-- A delivery of a separable payload whose job is not lost. -/
def keepsEvent (log : WebhookLog) (delivery : Delivery) : Bool :=
  separable delivery.payload && !loses log delivery

/-- Every recorded key is the key of a published event. -/
structure Recorded (log : WebhookLog) : Prop where
  events : ∀ row ∈ log.events, ∃ payload, separable payload = true ∧
    payload.eventKey = row.eventKey ∧ identity payload ∈ log.published
  processed : Processed log

theorem remnawaveWebhook_recorded {events : List RemnawaveWebhookEvent} {payload : WebhookPayload}
    {row : RemnawaveWebhookEvent} {name : CommandName} {target : Option String}
    (h : remnawaveWebhook events payload = .ok (.recorded row name target)) :
    row.eventKey = payload.eventKey := by
  unfold remnawaveWebhook at h
  split at h
  · cases h
  · split at h
    · cases h
    · split at h
      · cases h
        rfl
      · cases h

theorem remnawaveWebhook_alreadyProcessed {events : List RemnawaveWebhookEvent}
    {payload : WebhookPayload}
    (h : remnawaveWebhook events payload = .ok .alreadyProcessed) :
    ∃ row ∈ events, row.eventKey = payload.eventKey := by
  unfold remnawaveWebhook at h
  split at h
  · cases h
  · split at h
    · next hany =>
        obtain ⟨row, hrow, hkey⟩ := List.any_eq_true.mp hany
        exact ⟨row, hrow, of_decide_eq_true hkey⟩
    · split at h <;> cases h

/-- **Step.** -/
theorem recorded_step {log : WebhookLog} {delivery : Delivery} (h : Recorded log)
    (hsound : keepsEvent log delivery = true) : Recorded (receive log delivery) := by
  obtain ⟨hseparable, hkept⟩ := Bool.and_eq_true_iff.mp hsound
  unfold receive
  unfold loses at hkept
  split
  · exact h
  · next hanswer =>
      refine ⟨h.events, fun event hevent => ?_⟩
      rcases List.mem_append.mp hevent with hevent | hevent
      · exact h.processed event hevent
      · -- the recorded event of this key is this event
        rw [List.mem_singleton.mp hevent]
        obtain ⟨row, hrow, hkey⟩ := remnawaveWebhook_alreadyProcessed hanswer
        obtain ⟨payload, hpayload, hrowkey, hpublished⟩ := h.events row hrow
        rw [← identity_of_eventKey hpayload hseparable (hrowkey.trans hkey)]
        exact hpublished
  · next row name target hanswer =>
      rw [hanswer] at hkept
      have hdelivers : delivery.outcome.delivers = true := by simpa using hkept
      rw [if_pos hdelivers]
      refine ⟨fun other hother => ?_, fun event hevent => ?_⟩
      · rcases List.mem_append.mp hother with hother | hother
        · obtain ⟨payload, hpayload, hkey, hpublished⟩ := h.events other hother
          exact ⟨payload, hpayload, hkey, List.mem_append_left _ hpublished⟩
        · rw [List.mem_singleton.mp hother]
          exact ⟨delivery.payload, hseparable, (remnawaveWebhook_recorded hanswer).symm,
            List.mem_append_right _ List.mem_cons_self⟩
      · exact List.mem_append_left _ (h.processed event hevent)

def updatedEvent : WebhookPayload where
  event := .text "user.updated"
  timestamp := .text "2025-01-01T00:00:00Z"
  uuid := some (.text "u1")

def deletedEvent : WebhookPayload := { updatedEvent with event := .text "user.deleted" }

/-- Two events of one user at one time, the first delivered twice. -/
def redelivered : List Delivery := [
  ⟨updatedEvent, .accepted⟩,
  ⟨deletedEvent, .unconfirmed "connection lost"⟩,
  ⟨updatedEvent, .accepted⟩]

end VpnPanel.Theorems
