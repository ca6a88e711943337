import VpnPanel.Backend.Operations
import VpnPanel.Backend.ProxyLinks

/-!
# The Telegram proxy in the panel

The tables `telegram_proxy_settings` and `telegram_proxy_node_states`, the admin
routes of `routers/telegram_proxy.py`, the worker routes of
`internal_worker_parts/telegram_proxy.py`, and the proxy on the public page. The
one settings row is the one migration 0017 inserts; no route removes it. Secrets
are stored encrypted, with a key that stays.
-/

namespace VpnPanel.Backend

open VpnPanel.Lib VpnPanel.Lib.Text

/-- Authenticated encryption of texts. `encrypt` draws an `iv` for each text. -/
structure Fernet where
  encrypt : (iv : Nat) → Text → Text
  decrypt : Text → Option Text
  decrypt_encrypt : ∀ iv t, decrypt (encrypt iv t) = some t
  encrypt_ne_nil : ∀ iv t, encrypt iv t ≠ []

/-- Texts stored with a mark before them. -/
def Fernet.marked : Fernet where
  encrypt _ t := '*' :: t
  decrypt t := if t.head? = some '*' then some t.tail else none
  decrypt_encrypt _ _ := rfl
  encrypt_ne_nil _ _ := List.cons_ne_nil _ _

/-- What the proxy code takes from outside. -/
structure ProxyConfig where
  backend : Config
  lowering : Lowering
  fernet : Fernet

theorem defaultPort_ok : 1 ≤ (443 : Int) ∧ (443 : Int) ≤ 65535 := by decide

def exampleProxy : ProxyConfig := ⟨exampleConfig, Lowering.asciiOnly, .marked⟩

/-! ## Rows -/

structure TelegramProxySettings where
  enabled : Bool := false
  port : Int := 443
  tlsDomain : Text := "cloudsyncpro.net".toList
  secretEncrypted : Option Text := none
  primaryNodeId : Option NodeId := none
  lastRotationAt : Option Time := none
  lastRotationReason : Option String := none
  lastRotationError : Option String := none
  deriving DecidableEq, Repr

/-- `TelegramProxyResultStatus`. -/
inductive ProxyStatus
  | unknown | disabled | active | ready | failed
  deriving DecidableEq, Repr

/-- The members of `_READY_STATUSES`. -/
def ProxyStatus.isReady : ProxyStatus → Bool
  | .active | .ready => true
  | _ => false

structure TelegramProxyNodeState where
  nodeId : NodeId
  status : ProxyStatus := .unknown
  publicHost : Option Text := none
  publicPort : Option Int := none
  lastAppliedAt : Option Time := none
  lastCheckedAt : Option Time := none
  lastError : Option String := none
  deriving DecidableEq, Repr

/-- The panel with the two tables. -/
structure ProxyPanel where
  panel : Panel := {}
  settings : TelegramProxySettings := {}
  states : List TelegramProxyNodeState := []

def ProxyPanel.db (s : ProxyPanel) : Db := s.panel.db

/-- `db.get(TelegramProxyNodeState, node_id)`. -/
def ProxyPanel.state? (s : ProxyPanel) (id : NodeId) : Option TelegramProxyNodeState :=
  Rows.get? TelegramProxyNodeState.nodeId s.states id

/-! ## Links -/

section

variable (cfg : ProxyConfig)

/-- `select_primary_node_state`. -/
def selectPrimaryNodeState (s : ProxyPanel) : Except CheckError (Option TelegramProxyNodeState) :=
  match s.settings.primaryNodeId.bind s.state? with
  | none => .ok none
  | some state =>
      if !state.status.isReady then .ok none
      else match state.publicHost, state.publicPort with
        | some host, some port => do
            let _ ← (normalizePublicHost cfg.lowering.lower host).mapError .valueError
            let _ ← normalizePublicPort (.integer port)
            return some state
        | _, _ => .ok none

/-- `_response_links`; an error is one no handler catches. -/
def responseLinks (s : ProxyPanel) : Except CheckError (Option TelegramProxyLinks) :=
  match s.settings.secretEncrypted with
  | none => .ok none
  | some secretEncrypted =>
      if !s.settings.enabled || secretEncrypted = [] then .ok none
      else do
        match ← selectPrimaryNodeState cfg s with
        | none => return none
        | some state =>
            match state.publicHost, state.publicPort, cfg.fernet.decrypt secretEncrypted with
            | some host, some port, some secret =>
                return some (← buildProxyLinks cfg.lowering.lower host (.integer port) secret
                  s.settings.tlsDomain)
            | _, _, _ => return none

structure PublicTelegramProxy where
  enabled : Bool
  primaryNodeName : String
  tgUrl : Text
  httpsUrl : Text
  status : ProxyStatus
  deriving DecidableEq, Repr

/-- What `_public_telegram_proxy` may raise. -/
inductive PublicProxyError
  | check (error : CheckError)
  | invalidToken
  deriving DecidableEq, Repr

/-- `_public_telegram_proxy`. -/
def publicTelegramProxy (s : ProxyPanel) : Except PublicProxyError (Option PublicTelegramProxy) :=
  match s.settings.secretEncrypted with
  | none => .ok none
  | some secretEncrypted =>
      if !s.settings.enabled then .ok none
      else
        match selectPrimaryNodeState cfg s, s.settings.primaryNodeId with
        | .ok (some state), some primaryNodeId =>
            match cfg.fernet.decrypt secretEncrypted with
            | none => .error .invalidToken
            | some secret =>
                match state.publicHost, state.publicPort, s.db.node? primaryNodeId with
                | some host, some port, some node => do
                    let links ← (buildProxyLinks cfg.lowering.lower host (.integer port) secret
                      s.settings.tlsDomain).mapError .check
                    return some ⟨true, node.name, links.tgUrl, links.tMeUrl, state.status⟩
                | _, _, _ => .ok none
        | _, _ => .ok none

/-! ## Settings -/

/-- The body of `PUT /settings` as it is sent; `port` meets its field bounds. -/
structure TelegramProxySettingsIn where
  enabled : Bool
  port : Int
  primaryNodeId : Option NodeId := none
  publicHost : Option Text := none
  tlsDomain : Text := "cloudsyncpro.net".toList
  secret : Option Text := none
  port_ok : 1 ≤ port ∧ port ≤ 65535

/-- What the field validators make of it. The public host is checked and then
never read. -/
structure ValidSettings where
  enabled : Bool
  port : Int
  primaryNodeId : Option NodeId
  publicHost : Option Text
  tlsDomain : Text
  secret : Option Text

def normalizeTlsDomain (value : Text) : Except CheckError Text :=
  let normalized := cfg.lowering.lower (strip value)
  if normalized = [] then .error (.valueError "telegram proxy tls domain is required")
  else .ok normalized

/-- `normalize_secret`. -/
def normalizeSecret : Option Text → Except CheckError (Option Text)
  | none => .ok none
  | some value =>
      if value = [] then .ok none
      else (validateProxySecret cfg.lowering.lower value).map some

/-- `normalize_host`. -/
def normalizeHost : Option Text → Except CheckError (Option Text)
  | none => .ok none
  | some value =>
      ((normalizePublicHost cfg.lowering.lower value).mapError .valueError).map some

def CheckError.message : CheckError → String
  | .valueError message => message
  | .typeError message => message

/-- What a field's validator adds to the answer. -/
def fieldError {α : Type} (field : String) : Except CheckError α → List String
  | .ok _ => []
  | .error e =>
      let message := e.message
      [s!"{field}: Value error, {message}"]

/-- `validation_exception_handler`. -/
def invalidRequest (messages : List String) : HttpError :=
  ⟨422, "Invalid request: " ++ "; ".intercalate messages⟩

/-- The validators of the body; all that fail are told. -/
def validateSettings (data : TelegramProxySettingsIn) : Except HttpError ValidSettings :=
  match normalizeHost cfg data.publicHost, normalizeTlsDomain cfg data.tlsDomain,
    normalizeSecret cfg data.secret with
  | .ok publicHost, .ok tlsDomain, .ok secret =>
      .ok ⟨data.enabled, data.port, data.primaryNodeId, publicHost, tlsDomain, secret⟩
  | publicHost, tlsDomain, secret => .error (invalidRequest (fieldError "public_host" publicHost ++
      fieldError "tls_domain" tlsDomain ++ fieldError "secret" secret))

/-- The tables a route committed, and the job it queued. -/
structure ProxyEffect where
  panel : ProxyPanel
  queued : Option Job := none

abbrev ProxyOutcome := Except HttpError ProxyEffect

def updateTelegramProxySettings (s : ProxyPanel) (data : TelegramProxySettingsIn) (iv : Nat) :
    ProxyOutcome :=
  match validateSettings cfg data with
  | .error e => .error e
  | .ok data =>
      if data.primaryNodeId.any fun id => (s.db.node? id).isNone then
        .error ⟨404, "Primary node not found"⟩
      else .ok { panel := { s with settings := { s.settings with
        enabled := data.enabled
        port := data.port
        primaryNodeId := data.primaryNodeId
        tlsDomain := data.tlsDomain
        secretEncrypted := (data.secret.map (cfg.fernet.encrypt iv)).or
          s.settings.secretEncrypted } } }

/-- `_primary_node`. -/
def primaryNode (s : ProxyPanel) : Except HttpError Node :=
  match s.settings.primaryNodeId with
  | none => .error ⟨409, "Telegram proxy primary node is not configured"⟩
  | some id =>
      match s.db.node? id with
      | none => .error ⟨404, "Telegram proxy primary node not found"⟩
      | some node => .ok node

def applyTelegramProxy (s : ProxyPanel) : ProxyOutcome :=
  if !s.settings.enabled then .error ⟨409, "Telegram proxy is disabled"⟩
  else if s.settings.secretEncrypted.getD [] = [] then
    .error ⟨409, "Telegram proxy secret is not configured"⟩
  else do
    let node ← primaryNode s
    return { panel := s, queued := some (telegramApplyJob node.id) }

def disableTelegramProxy (s : ProxyPanel) : ProxyOutcome := do
  let node ← primaryNode s
  return {
    panel := { s with settings := { s.settings with enabled := false } }
    queued := some (telegramDisableJob node.id) }

/-- Sixteen random bytes. -/
abbrev Drawn := { bytes : List UInt8 // bytes.length = 16 }

def rotateTelegramProxySecret (s : ProxyPanel) (drawn : Drawn) (iv : Nat) (now : Time) :
    ProxyOutcome := do
  let node ← primaryNode s
  return {
    panel := { s with settings := { s.settings with
      secretEncrypted := some (cfg.fernet.encrypt iv (generateProxySecret drawn.1 false))
      lastRotationAt := some now
      lastRotationReason := some "manual"
      lastRotationError := none } }
    queued := some (telegramApplyJob node.id) }

/-! ## Worker routes -/

structure TelegramProxyDesiredConfig where
  enabled : Bool
  secret : Option Text
  port : Int
  publicHost : Option Text
  tlsDomain : Text
  deriving DecidableEq, Repr

structure TelegramProxySnapshot where
  nodeId : NodeId
  url : String
  token : String
  desired : TelegramProxyDesiredConfig
  deriving DecidableEq, Repr

/-- `node.server_endpoint`. -/
def Node.serverEndpoint (node : Node) : Option Text :=
  match node.interface .endpoint with
  | some (.text endpoint) => some endpoint.toList
  | _ => none

/-- `_desired_config`; an error is one no handler catches. -/
def desiredConfig (settings : TelegramProxySettings) (node : Node) :
    Except PublicProxyError TelegramProxyDesiredConfig := do
  let secret ← match settings.secretEncrypted with
    | none => pure none
    | some secretEncrypted =>
        if secretEncrypted = [] then pure none
        else match cfg.fernet.decrypt secretEncrypted with
          | none => .error .invalidToken
          | some secret => pure (some secret)
  let publicHost ← (hostFromEndpoint cfg.lowering.lower node.serverEndpoint).mapError
    (.check ∘ .valueError)
  return ⟨settings.enabled, secret, settings.port, publicHost, settings.tlsDomain⟩

/-- `get_telegram_proxy_node_snapshot`. -/
def telegramProxyNodeSnapshot (s : ProxyPanel) (nodeId : NodeId) :
    Except HttpError TelegramProxySnapshot :=
  match s.db.node? nodeId with
  | none => .error nodeNotFound
  | some node =>
      match desiredConfig cfg s.settings node with
      | .error _ => .error internalError
      | .ok desired => .ok ⟨node.id, node.url, node.token, desired⟩

structure TelegramProxyResultIn where
  status : ProxyStatus
  error : Option String := none
  publicHost : Option Text := none
  publicPort : Option Int := none
  deriving DecidableEq, Repr

/-- `_normalize_ready_host`; a `ValueError` is not caught. -/
def normalizeReadyHost (data : TelegramProxyResultIn) : Except HttpError Text :=
  match data.publicHost with
  | none => .error ⟨422, "public_host is required for ready status"⟩
  | some host => (normalizePublicHost cfg.lowering.lower host).mapError fun _ => internalError

/-- `_normalize_ready_port`. -/
def normalizeReadyPort (data : TelegramProxyResultIn) : Except HttpError Int :=
  match data.publicPort with
  | none => .error ⟨422, "public_port is required for ready status"⟩
  | some port => (normalizePublicPort (.integer port)).mapError fun _ => internalError

/-- `_apply_result`. -/
def applyProxyResult (state : TelegramProxyNodeState) (data : TelegramProxyResultIn) (now : Time) :
    Except HttpError TelegramProxyNodeState :=
  let state := { state with status := data.status, lastCheckedAt := some now }
  let cleared := { state with publicHost := none, publicPort := none }
  match data.status with
  | .active | .ready => do
      let publicHost ← normalizeReadyHost cfg data
      let publicPort ← normalizeReadyPort data
      return { state with
        publicHost := some publicHost
        publicPort := some publicPort
        lastError := none
        lastAppliedAt := some now }
  | .failed => .ok { cleared with
      lastError := if truthy data.error then data.error else some "Worker reported failure" }
  | .disabled | .unknown => .ok { cleared with lastError := data.error }

/-- The row is written back, or inserted. -/
def saveState (state : TelegramProxyNodeState) (states : List TelegramProxyNodeState) :
    List TelegramProxyNodeState :=
  if states.any (·.nodeId = state.nodeId) then Rows.save TelegramProxyNodeState.nodeId state states
  else states ++ [state]

/-- `report_telegram_proxy_node_result`. -/
def reportTelegramProxyNodeResult (s : ProxyPanel) (nodeId : NodeId) (data : TelegramProxyResultIn)
    (now : Time) : ProxyOutcome :=
  match s.db.node? nodeId with
  | none => .error nodeNotFound
  | some node => do
      let state ← applyProxyResult cfg ((s.state? nodeId).getD { nodeId := node.id }) data now
      return { panel := { s with states := saveState state s.states } }

/-! ## Requests -/

inductive ProxyRequest
  | updateSettings (data : TelegramProxySettingsIn) (iv : Nat)
  | apply
  | disable
  | rotate (drawn : Drawn) (iv : Nat)
  | result (nodeId : NodeId) (data : TelegramProxyResultIn)

def handleProxy (s : ProxyPanel) (now : Time) : ProxyRequest → ProxyOutcome
  | .updateSettings data iv => updateTelegramProxySettings cfg s data iv
  | .apply => applyTelegramProxy s
  | .disable => disableTelegramProxy s
  | .rotate drawn iv => rotateTelegramProxySecret cfg s drawn iv now
  | .result nodeId data => reportTelegramProxyNodeResult cfg s nodeId data now

/-- What the references to `nodes` do after a request: `ON DELETE SET NULL` of
the primary node, `ON DELETE CASCADE` of the node states. -/
def followNodes (s : ProxyPanel) (panel : Panel) : ProxyPanel where
  panel := panel
  settings := { s.settings with
    primaryNodeId := s.settings.primaryNodeId.filter fun id => (panel.db.node? id).isSome }
  states := s.states.filter fun state => (panel.db.node? state.nodeId).isSome

inductive ProxyCall
  | panel (call : Call)
  | proxy (now : Time) (request : ProxyRequest)

def ProxyPanel.step (s : ProxyPanel) : ProxyCall → Option ProxyPanel
  | .panel call => ((Backend.panel cfg.backend).step s.panel call).map (followNodes s)
  | .proxy now request =>
      match handleProxy cfg s now request with
      | .error _ => some s
      | .ok effect => some effect.panel

/-- The panel with its proxy routes as a system of atomic requests. -/
def proxyPanel : TSys ProxyPanel ProxyCall where
  init := {}
  step := ProxyPanel.step cfg

end

end VpnPanel.Backend
