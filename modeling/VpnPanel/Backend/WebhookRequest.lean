import VpnPanel.Backend.ProxySettings
import VpnPanel.Backend.Webhook
import VpnPanel.Lib.Integer
import VpnPanel.Lib.TSys

/-!
# Requests to the webhook

`POST /api/remnawave/webhook` from its first line: the headers, the signature of
the body, the JSON, and then the route of `Backend.Webhook`; with the secret
that `PUT /api/remnawave/settings` stores. Between the look-up of an event and
its commit, and between the commit and the publish of its job, anything else may
happen. Bodies are signed by whoever has the secret, and anyone may send a body
with any headers.
-/

namespace VpnPanel.Backend

open VpnPanel.Lib VpnPanel.Lib.Text

abbrev Body := List UInt8

/-- What `json.loads` makes of a body. -/
inductive LoadedBody
  | object (payload : WebhookPayload)
  | other
  | malformed
  /-- Any error but `JSONDecodeError`. -/
  | raises
  deriving DecidableEq, Repr

/-- What the route takes from outside. `fernet` is missing where
`REMNAWAVE_SECRET_KEY` is missing or short; `hexdigest` is that of HMAC-SHA256. -/
structure WebhookConfig where
  digits : Digits
  fernet : Option Fernet
  hexdigest : Text → Body → Text
  hexdigest_hex : ∀ secret body, (hexdigest secret body).length = 64 ∧
    (hexdigest secret body).all ("0123456789abcdef".toList.contains ·) = true
  loads : Body → LoadedBody

/-! ## Settings -/

structure RemnawaveSettings where
  baseUrl : Option Text := none
  enabled : Bool := false
  pollingEnabled : Bool := false
  pollingIntervalSeconds : Int := 300
  apiToken : Option Text := none
  webhookSecret : Option Text := none
  subscriptionUrl : Option Text := none
  deriving DecidableEq, Repr

structure RemnawaveSettingsIn where
  baseUrl : Option Text := none
  enabled : Bool := false
  pollingEnabled : Bool := false
  pollingIntervalSeconds : Int := 300
  apiToken : Option Text := none
  webhookSecret : Option Text := none
  subscriptionUrl : Option Text := none
  clearApiToken : Bool := false
  clearWebhookSecret : Bool := false
  interval : 60 ≤ pollingIntervalSeconds

section

variable (cfg : WebhookConfig)

/-- A secret column after an update: cleared, replaced, or kept. -/
def updatedSecret (iv : Nat) (stored given : Option Text) (clear : Bool) :
    Except HttpError (Option Text) :=
  if clear then .ok none
  else match given with
    | none => .ok stored
    | some value =>
        if value = [] then .ok stored
        else match cfg.fernet with
          | none => .error internalError
          | some fernet => .ok (some (fernet.encrypt iv value))

/-- `update_remnawave_settings`; both secrets draw their own `iv`. -/
def updateRemnawaveSettings (settings : RemnawaveSettings) (data : RemnawaveSettingsIn)
    (tokenIv secretIv : Nat) : Except HttpError RemnawaveSettings := do
  let apiToken ← updatedSecret cfg tokenIv settings.apiToken data.apiToken data.clearApiToken
  let webhookSecret ← updatedSecret cfg secretIv settings.webhookSecret data.webhookSecret
    data.clearWebhookSecret
  return {
    baseUrl := data.baseUrl.or settings.baseUrl
    enabled := data.enabled
    pollingEnabled := data.pollingEnabled
    pollingIntervalSeconds := data.pollingIntervalSeconds
    apiToken
    webhookSecret
    subscriptionUrl := data.subscriptionUrl.or settings.subscriptionUrl }

/-! ## The route -/

structure WebhookRequest where
  body : Body
  signature : Option Text
  timestamp : Option Text
  deriving DecidableEq, Repr

/-- `_WEBHOOK_TIMESTAMP_TOLERANCE_SECONDS` -/
def webhookTimestampTolerance : Nat := 300

/-- `not text` -/
def missing (t : Option Text) : Bool := t.all List.isEmpty

def notConfigured : HttpError := ⟨401, "Remnawave webhook is not configured"⟩
def invalidSignature : HttpError := ⟨401, "Invalid webhook signature"⟩

/-- The checks up to the signature; the result is the secret it was made with. -/
def webhookSigner (settings : RemnawaveSettings) (request : WebhookRequest) (now : Time) :
    Except HttpError Text :=
  if !settings.enabled || missing settings.webhookSecret then .error notConfigured
  else if missing request.signature || missing request.timestamp then .error invalidSignature
  else match cfg.digits.int? (request.timestamp.getD []) with
    | none => .error ⟨400, "Invalid webhook timestamp"⟩
    | some eventTs =>
        if webhookTimestampTolerance < (now.tdiv 1000000 - eventTs).natAbs then
          .error ⟨400, "Webhook timestamp outside tolerance"⟩
        else match cfg.fernet.bind (·.decrypt (settings.webhookSecret.getD [])) with
          | none => .error internalError
          | some secret =>
              -- `compare_digest` refuses texts that are not ASCII
              if !(request.signature.getD []).all (·.toNat < 128) then .error internalError
              else if request.signature.getD [] ≠ cfg.hexdigest secret request.body then
                .error invalidSignature
              else .ok secret

/-- `remnawave_webhook`, up to its commit. -/
def webhookRequest (settings : RemnawaveSettings) (events : List RemnawaveWebhookEvent)
    (request : WebhookRequest) (now : Time) : Except HttpError WebhookAnswer := do
  let _ ← webhookSigner cfg settings request now
  match cfg.loads request.body with
  | .object payload => remnawaveWebhook events payload
  | .other => .error ⟨400, "Invalid webhook payload"⟩
  | .malformed => .error ⟨400, "Invalid webhook payload"⟩
  | .raises => .error internalError

end

/-! ## What passes -/

/-- The stored secret of the webhook, while it is in use. -/
def RemnawaveSettings.Uses (cfg : WebhookConfig) (settings : RemnawaveSettings) (secret : Text) :
    Prop :=
  settings.enabled = true ∧ ∃ stored fernet, settings.webhookSecret = some stored ∧ stored ≠ [] ∧
    cfg.fernet = some fernet ∧ fernet.decrypt stored = some secret

/-- The row of an event; a type or a uuid that is no text has none. -/
def webhookRow (payload : WebhookPayload) : Option RemnawaveWebhookEvent :=
  match payload.eventType.column?, payload.userUuid.column? with
  | some (some eventType), some uuid => some ⟨payload.eventKey, eventType, uuid⟩
  | _, _ => none

variable {cfg : WebhookConfig} {settings : RemnawaveSettings} {request : WebhookRequest}
  {now : Time} {secret : Text}

theorem missing_eq_false {t : Option Text} :
    missing t = false ↔ ∃ value, t = some value ∧ value ≠ [] := by
  cases t <;> simp [missing]

theorem hexdigest_ascii (secret : Text) (body : Body) :
    (cfg.hexdigest secret body).all (·.toNat < 128) = true := by
  have hlow : "0123456789abcdef".toList.all (fun c => decide (c.toNat < 128)) = true := by decide
  refine List.all_eq_true.mpr fun c hc => ?_
  have hdigit := List.all_eq_true.mp (cfg.hexdigest_hex secret body).2 c hc
  exact List.all_eq_true.mp hlow c (List.contains_iff_mem.mp hdigit)

theorem hexdigest_ne_nil (secret : Text) (body : Body) : cfg.hexdigest secret body ≠ [] := by
  intro hnil
  have hlength := (cfg.hexdigest_hex secret body).1
  rw [hnil] at hlength
  cases hlength

/-- A request passes with the right signature of its body and a timestamp that
is close; nothing ties the two together. -/
theorem webhookSigner_ok : webhookSigner cfg settings request now = .ok secret ↔
    settings.Uses cfg secret ∧ request.signature = some (cfg.hexdigest secret request.body) ∧
      ∃ timestamp eventTs, request.timestamp = some timestamp ∧ timestamp ≠ [] ∧
        cfg.digits.int? timestamp = some eventTs ∧
        (now.tdiv 1000000 - eventTs).natAbs ≤ webhookTimestampTolerance := by
  constructor
  · intro h
    unfold webhookSigner at h
    split at h
    · cases h
    next hconfigured =>
    split at h
    · cases h
    next hheaders =>
    simp only [Bool.or_eq_true, Bool.not_eq_true', not_or, Bool.not_eq_false,
      Bool.not_eq_true, missing_eq_false] at hconfigured hheaders
    obtain ⟨henabled, stored, hstored, hne⟩ := hconfigured
    obtain ⟨⟨signature, hsignature, -⟩, timestamp, htimestamp, hnonempty⟩ := hheaders
    rw [hstored, hsignature, htimestamp] at h
    simp only [Option.getD_some] at h
    split at h
    · cases h
    next eventTs hts =>
    split at h
    · cases h
    next hclose =>
    split at h
    · cases h
    next found hfound =>
    split at h
    · cases h
    split at h
    · cases h
    next hsame =>
    cases h
    obtain ⟨fernet, hfernet, hdecrypt⟩ := Option.bind_eq_some_iff.mp hfound
    refine ⟨⟨henabled, stored, fernet, hstored, hne, hfernet, hdecrypt⟩, ?_, timestamp, eventTs,
      htimestamp, hnonempty, hts, not_lt.mp hclose⟩
    rw [hsignature, not_not.mp hsame]
  · rintro ⟨⟨henabled, stored, fernet, hstored, hne, hfernet, hdecrypt⟩, hsignature, timestamp,
      eventTs, htimestamp, hnonempty, hts, hclose⟩
    have hsigned : missing (some (cfg.hexdigest secret request.body)) = false :=
      missing_eq_false.mpr ⟨_, rfl, hexdigest_ne_nil _ _⟩
    have htimed : missing (some timestamp) = false := missing_eq_false.mpr ⟨_, rfl, hnonempty⟩
    have hheld : missing (some stored) = false := missing_eq_false.mpr ⟨_, rfl, hne⟩
    unfold webhookSigner
    simp only [henabled, hstored, hsignature, htimestamp, hheld, hsigned, htimed, hts, hfernet,
      Option.getD_some, Option.bind_some, hdecrypt, hexdigest_ascii, Bool.not_true, Bool.or_self,
      Bool.false_eq_true, if_false, not_lt.mpr hclose, ne_eq, not_true_eq_false]

/-- A recorded event is new and has a row. -/
theorem remnawaveWebhook_iff {events : List RemnawaveWebhookEvent} {payload : WebhookPayload}
    {row : RemnawaveWebhookEvent} {name : CommandName} {target : Option String} :
    remnawaveWebhook events payload = .ok (.recorded row name target) ↔
      payload.eventType.truthy = true ∧ (∀ e ∈ events, e.eventKey ≠ payload.eventKey) ∧
        webhookRow payload = some row ∧ webhookJob row.remnawaveUserUuid = (name, target) := by
  unfold remnawaveWebhook webhookRow
  cases htype : payload.eventType.truthy with
  | false => simp
  | true =>
      by_cases hseen : events.any (·.eventKey = payload.eventKey) = true
      · rw [if_neg (by simp), if_pos hseen]
        obtain ⟨e, he, hkey⟩ := List.any_eq_true.mp hseen
        constructor
        · intro h
          cases h
        · rintro ⟨-, hnew, -⟩
          exact absurd (of_decide_eq_true hkey) (hnew e he)
      · have hnew : ∀ e ∈ events, e.eventKey ≠ payload.eventKey := by
          intro e he hkey
          exact hseen (List.any_eq_true.mpr ⟨e, he, decide_eq_true hkey⟩)
        rw [if_neg (by simp), if_neg hseen]
        rcases payload.eventType.column? with _ | _ | eventType
        · simp
        · simp
        rcases payload.userUuid.column? with _ | uuid
        · simp
        constructor
        · intro h
          cases h
          exact ⟨rfl, hnew, rfl, rfl⟩
        · rintro ⟨-, -, hrow, hjob⟩
          cases hrow
          dsimp only at hjob ⊢
          rw [hjob]

end VpnPanel.Backend
