import VpnPanel.Backend.Operations

/-!
# Remnawave webhook

`api_parts/remnawave.py`: the route behind `POST /api/remnawave/webhook`, from
the point where the signature, its timestamp and the JSON syntax have been
accepted. It records the event under its key, commits, and publishes a job.
-/

namespace VpnPanel.Backend

/-- A JSON value as the route uses it: by its truth value and by its text. A
float, boolean, list or object is `other`. -/
inductive Json
  | null
  | text (value : String)
  | int (value : Int)
  | other (repr : String) (truthy : Bool)
  deriving DecidableEq, Repr

def Json.truthy : Json → Bool
  | .null => false
  | .text value => value ≠ ""
  | .int value => value ≠ 0
  | .other _ truthy => truthy

/-- `str(value)`. -/
def Json.str : Json → String
  | .null => "None"
  | .text value => value
  | .int value => toString value
  | .other repr _ => repr

/-- `a or b`. -/
def Json.or (a b : Json) : Json := if a.truthy then a else b

/-- What a nullable text column stores of the value; the driver refuses any
other type. -/
def Json.column? : Json → Option (Option String)
  | .null => some none
  | .text value => some (some value)
  | .int _ | .other _ _ => none

/-- The members of a payload the route looks up, `null` where absent. `uuid` is
the member of `data`; it is `none` when `data` is no object. -/
structure WebhookPayload where
  event : Json := .null
  type : Json := .null
  timestamp : Json := .null
  createdAt : Json := .null
  uuid : Option Json := none
  deriving DecidableEq, Repr

namespace WebhookPayload

def eventType (payload : WebhookPayload) : Json := payload.event.or payload.type

def time (payload : WebhookPayload) : Json :=
  (payload.timestamp.or payload.createdAt).or (.text "")

/-- `data.get('uuid')`, with `{}` for a `data` that is no object. -/
def userUuid (payload : WebhookPayload) : Json := payload.uuid.getD .null

/-- `_webhook_event_key`. -/
def eventKey (payload : WebhookPayload) : String :=
  payload.eventType.str ++ ":" ++ payload.time.str ++ ":" ++
    ((payload.uuid.getD (.text "")).or (.text "")).str

end WebhookPayload

structure RemnawaveWebhookEvent where
  eventKey : String
  eventType : String
  remnawaveUserUuid : Option String
  deriving DecidableEq, Repr

/-- What the route goes on to after its checks. -/
inductive WebhookAnswer
  | alreadyProcessed
  /-- Committed; the enqueue function and its argument follow. -/
  | recorded (row : RemnawaveWebhookEvent) (name : CommandName) (target : Option String)
  deriving DecidableEq, Repr

/-- The job of an event: its user, or a full reconcile when it names none. -/
def webhookJob (uuid : Option String) : CommandName × Option String :=
  if truthy uuid then (.remnawaveSyncUser, uuid) else (.remnawaveFullReconcile, none)

/-- `remnawave_webhook`, up to its commit. -/
def remnawaveWebhook (events : List RemnawaveWebhookEvent) (payload : WebhookPayload) :
    Except HttpError WebhookAnswer :=
  if !payload.eventType.truthy then .error ⟨400, "Missing webhook event type"⟩
  else if events.any (·.eventKey = payload.eventKey) then .ok .alreadyProcessed
  else
    match payload.eventType.column?, payload.userUuid.column? with
    | some (some eventType), some uuid =>
        let job := webhookJob uuid
        .ok (.recorded ⟨payload.eventKey, eventType, uuid⟩ job.1 job.2)
    | _, _ => .error internalError

end VpnPanel.Backend
