import VpnPanel.Backend.ProxySettings

/-!
# Well-formed proxy tables

What every request leaves in the two tables: a port in range, a domain, a secret
in one of its forms under the panel's key, references to nodes that are there,
and a public host and port exactly in the rows of a node that is ready.
-/

namespace VpnPanel.Backend

open VpnPanel.Lib VpnPanel.Lib.Text

variable {cfg : ProxyConfig} {s s' : ProxyPanel}

/-- An accepted check, with an error of its own kind. -/
theorem mapError_ok {ε δ α : Type} {result : Except ε α} {f : ε → δ} {a : α} :
    result.mapError f = .ok a ↔ result = .ok a := by
  cases result with
  | error e => exact ⟨nofun, nofun⟩
  | ok b => exact ⟨fun h => by cases h; rfl, fun h => by cases h; rfl⟩

/-- A port a proxy can be reached on. -/
def PublicPort (port : Int) : Prop := 1 ≤ port ∧ port ≤ 65535

/-- A secret under the panel's key. -/
def StoredSecret (cfg : ProxyConfig) (secretEncrypted : Text) : Prop :=
  ∃ iv secret, secretEncrypted = cfg.fernet.encrypt iv secret ∧ ValidSecret secret

structure SettingsOk (cfg : ProxyConfig) (row : TelegramProxySettings) : Prop where
  port : PublicPort row.port
  domain : row.tlsDomain ≠ []
  secret : ∀ text ∈ row.secretEncrypted, StoredSecret cfg text

/-- A node state as `_apply_result` leaves it. -/
structure StateOk (cfg : ProxyConfig) (row : TelegramProxyNodeState) : Prop where
  ready : row.status.isReady = true → ∃ host port, row.publicHost = some (cfg.lowering.lower host) ∧
    PublicHost host ∧ row.publicPort = some port ∧ PublicPort port ∧ row.lastError = none
  other : row.status.isReady = false → row.publicHost = none ∧ row.publicPort = none

structure ProxyPanel.Ok (cfg : ProxyConfig) (s : ProxyPanel) : Prop where
  settings : SettingsOk cfg s.settings
  states : ∀ row ∈ s.states, StateOk cfg row
  stateNodes : ∀ row ∈ s.states, (s.db.node? row.nodeId).isSome
  primaryNode : ∀ id ∈ s.settings.primaryNodeId, (s.db.node? id).isSome

/-! ## The routes -/

theorem validateSettings_ok {data : TelegramProxySettingsIn} {valid : ValidSettings}
    (h : validateSettings cfg data = .ok valid) : valid.enabled = data.enabled ∧
      valid.port = data.port ∧ valid.primaryNodeId = data.primaryNodeId ∧ valid.tlsDomain ≠ [] ∧
      ∀ secret ∈ valid.secret, ValidSecret secret := by
  unfold validateSettings at h
  split at h
  · next publicHost tlsDomain secret hhost hdomain hsecret =>
      cases h
      refine ⟨rfl, rfl, rfl, ?_, ?_⟩
      · unfold normalizeTlsDomain at hdomain
        dsimp only at hdomain
        split at hdomain
        · cases hdomain
        · next hne =>
            cases hdomain
            exact hne
      · rintro text ⟨⟩
        unfold normalizeSecret at hsecret
        split at hsecret
        · cases hsecret
        · next value _ =>
            split at hsecret
            · cases hsecret
            · cases hvalid : validateProxySecret cfg.lowering.lower value with
              | error e =>
                  rw [hvalid] at hsecret
                  cases hsecret
              | ok valid =>
                  rw [hvalid] at hsecret
                  cases hsecret
                  exact (validateProxySecret_eq.mp hvalid).2
  · cases h

/-- What an accepted `PUT /settings` stores. -/
theorem updateTelegramProxySettings_ok {data : TelegramProxySettingsIn} {iv : Nat}
    {e : ProxyEffect} (h : updateTelegramProxySettings cfg s data iv = .ok e) :
    ∃ row, e.panel = { s with settings := row } ∧ row.enabled = data.enabled ∧
      (SettingsOk cfg s.settings → SettingsOk cfg row) ∧
      ∀ id ∈ row.primaryNodeId, (s.db.node? id).isSome := by
  unfold updateTelegramProxySettings at h
  split at h
  · cases h
  · next valid hvalid =>
      split at h
      · cases h
      · next hnode =>
          cases h
          obtain ⟨henabled, hport, -, hdomain, hsecret⟩ := validateSettings_ok hvalid
          refine ⟨_, rfl, henabled, fun hold => ⟨?_, hdomain, ?_⟩, ?_⟩
          · show PublicPort valid.port
            rw [hport]
            exact data.port_ok
          · intro text htext
            cases hnew : valid.secret with
            | none =>
                rw [hnew] at htext
                exact hold.secret text htext
            | some secret =>
                rw [hnew] at htext
                cases htext
                exact ⟨iv, secret, rfl, hsecret secret hnew⟩
          · intro id hid
            change id ∈ valid.primaryNodeId at hid
            rw [Option.mem_def.mp hid] at hnode
            simpa [Option.isSome_iff_ne_none] using hnode

theorem primaryNode_ok {node : Node} (h : primaryNode s = .ok node) :
    s.settings.primaryNodeId = some node.id ∧ s.db.node? node.id = some node := by
  unfold primaryNode at h
  split at h
  · cases h
  · next id hid =>
      split at h
      · cases h
      · next row hrow =>
          cases h
          have hkey : node.id = id := Rows.key_of_get? hrow
          rw [hkey]
          exact ⟨hid, hrow⟩

theorem applyTelegramProxy_ok {e : ProxyEffect} (h : applyTelegramProxy s = .ok e) :
    e.panel = s ∧ s.settings.enabled = true ∧ ∃ id, s.settings.primaryNodeId = some id ∧
      e.queued = some (telegramApplyJob id) := by
  unfold applyTelegramProxy at h
  split at h
  · cases h
  · next henabled =>
      split at h
      · cases h
      · obtain ⟨node, hnode, h⟩ := bind_ok h
        cases h
        exact ⟨rfl, by simpa using henabled, node.id, (primaryNode_ok hnode).1, rfl⟩

theorem disableTelegramProxy_ok {e : ProxyEffect} (h : disableTelegramProxy s = .ok e) :
    e.panel = { s with settings := { s.settings with enabled := false } } ∧
      ∃ id, s.settings.primaryNodeId = some id ∧ e.queued = some (telegramDisableJob id) := by
  obtain ⟨node, hnode, h⟩ := bind_ok h
  cases h
  exact ⟨rfl, node.id, (primaryNode_ok hnode).1, rfl⟩

theorem rotateTelegramProxySecret_ok {drawn : Drawn} {iv : Nat} {now : Time} {e : ProxyEffect}
    (h : rotateTelegramProxySecret cfg s drawn iv now = .ok e) :
    ∃ row, e.panel = { s with settings := row } ∧ row.enabled = s.settings.enabled ∧
      row.primaryNodeId = s.settings.primaryNodeId ∧
      (SettingsOk cfg s.settings → SettingsOk cfg row) := by
  obtain ⟨node, hnode, h⟩ := bind_ok h
  cases h
  refine ⟨_, rfl, rfl, rfl, fun hold => ⟨hold.port, hold.domain, ?_⟩⟩
  rintro text ⟨⟩
  exact ⟨iv, _, rfl, validSecret_generate drawn.2 false⟩

/-- What a row takes from a result. -/
structure Applied (cfg : ProxyConfig) (data : TelegramProxyResultIn)
    (row : TelegramProxyNodeState) : Prop where
  status : row.status = data.status
  ready : data.status.isReady = true → ∃ host port, data.publicHost = some host ∧
    PublicHost host ∧ row.publicHost = some (cfg.lowering.lower host) ∧
    data.publicPort = some port ∧ PublicPort port ∧ row.publicPort = some port ∧
    row.lastError = none
  other : data.status.isReady = false → row.publicHost = none ∧ row.publicPort = none ∧
    (row.lastError = data.error ∨ row.lastError = some "Worker reported failure")

theorem applyProxyResult_ready {state row : TelegramProxyNodeState} {data : TelegramProxyResultIn}
    {now : Time} (hready : data.status.isReady = true)
    (h : applyProxyResult cfg state data now = .ok row) :
    row.nodeId = state.nodeId ∧ Applied cfg data row := by
  have hparts : (normalizeReadyHost cfg data >>= fun publicHost =>
      normalizeReadyPort data >>= fun publicPort => .ok { state with
        status := data.status
        publicHost := some publicHost
        publicPort := some publicPort
        lastAppliedAt := some now
        lastCheckedAt := some now
        lastError := none }) = .ok row := by
    unfold applyProxyResult at h
    cases hstatus : data.status with
    | active =>
        rw [hstatus] at h
        exact h
    | ready =>
        rw [hstatus] at h
        exact h
    | _ =>
        rw [hstatus] at hready
        cases hready
  obtain ⟨publicHost, hhost, hparts⟩ := bind_ok hparts
  obtain ⟨publicPort, hport, hparts⟩ := bind_ok hparts
  cases hparts
  unfold normalizeReadyHost at hhost
  unfold normalizeReadyPort at hport
  split at hhost
  · cases hhost
  · next host hhostsent =>
      split at hport
      · cases hport
      · next hportsent =>
          obtain ⟨rfl, hpublic⟩ := normalizePublicHost_eq.mp (mapError_ok.mp hhost)
          obtain ⟨heq, hrange⟩ := normalizePublicPort_eq.mp (mapError_ok.mp hport)
          cases heq
          exact ⟨rfl, rfl, fun _ => ⟨host, _, hhostsent, hpublic, rfl, hportsent, hrange, rfl,
            rfl⟩, fun hother => Bool.noConfusion (hready.symm.trans hother)⟩

theorem applyProxyResult_ok {state row : TelegramProxyNodeState} {data : TelegramProxyResultIn}
    {now : Time} (h : applyProxyResult cfg state data now = .ok row) :
    row.nodeId = state.nodeId ∧ Applied cfg data row := by
  cases hready : data.status.isReady with
  | true => exact applyProxyResult_ready hready h
  | false =>
      have hnever : ¬data.status.isReady = true := by
        rw [hready]
        exact Bool.false_ne_true
      unfold applyProxyResult at h
      dsimp only at h
      split at h
      · next hstatus => exact absurd (by rw [hstatus]; rfl) hnever
      · next hstatus => exact absurd (by rw [hstatus]; rfl) hnever
      · cases h
        refine ⟨rfl, rfl, fun hyes => absurd hyes hnever, fun _ => ⟨rfl, rfl, ?_⟩⟩
        dsimp only
        split
        · exact .inl rfl
        · exact .inr rfl
      · cases h
        exact ⟨rfl, rfl, fun hyes => absurd hyes hnever, fun _ => ⟨rfl, rfl, .inl rfl⟩⟩
      · cases h
        exact ⟨rfl, rfl, fun hyes => absurd hyes hnever, fun _ => ⟨rfl, rfl, .inl rfl⟩⟩

/-- A ready result with a host and a port is taken. -/
theorem applyProxyResult_takes (cfg : ProxyConfig) (state : TelegramProxyNodeState) (now : Time)
    {data : TelegramProxyResultIn}
    (h : data.status.isReady = true → ∃ host port, data.publicHost = some host ∧
      PublicHost host ∧ data.publicPort = some port ∧ PublicPort port) :
    ∃ row, applyProxyResult cfg state data now = .ok row := by
  have hready : data.status.isReady = true →
      (∃ host, normalizeReadyHost cfg data = .ok host) ∧
        ∃ port, normalizeReadyPort data = .ok port := by
    intro hstatus
    obtain ⟨host, port, hhost, hpublic, hport, hrange⟩ := h hstatus
    unfold normalizeReadyHost normalizeReadyPort
    rw [hhost, hport]
    exact ⟨⟨_, mapError_ok.mpr (normalizePublicHost_eq.mpr ⟨rfl, hpublic⟩)⟩,
      port, mapError_ok.mpr (normalizePublicPort_eq.mpr ⟨rfl, hrange⟩)⟩
  unfold applyProxyResult
  cases hstatus : data.status with
  | unknown => exact ⟨_, rfl⟩
  | disabled => exact ⟨_, rfl⟩
  | failed => exact ⟨_, rfl⟩
  | active =>
      obtain ⟨⟨host, hhost⟩, port, hport⟩ := hready (by rw [hstatus]; rfl)
      rw [hhost, hport]
      exact ⟨_, rfl⟩
  | ready =>
      obtain ⟨⟨host, hhost⟩, port, hport⟩ := hready (by rw [hstatus]; rfl)
      rw [hhost, hport]
      exact ⟨_, rfl⟩

theorem Applied.stateOk {data : TelegramProxyResultIn} {row : TelegramProxyNodeState}
    (h : Applied cfg data row) : StateOk cfg row where
  ready hready := by
    rw [h.status] at hready
    obtain ⟨host, port, -, hpublic, hhost, -, hrange, hport, herror⟩ := h.ready hready
    exact ⟨host, port, hhost, hpublic, hport, hrange, herror⟩
  other hother := by
    rw [h.status] at hother
    obtain ⟨hhost, hport, -⟩ := h.other hother
    exact ⟨hhost, hport⟩

theorem mem_saveState {row state : TelegramProxyNodeState} {states : List TelegramProxyNodeState}
    (h : row ∈ saveState state states) : row = state ∨ row ∈ states := by
  unfold saveState at h
  split at h
  · rcases Rows.mem_save.mp h with ⟨rfl, -⟩ | ⟨hmem, -⟩
    · exact .inl rfl
    · exact .inr hmem
  · rcases List.mem_append.mp h with hmem | hmem
    · exact .inr hmem
    · exact .inl (List.mem_singleton.mp hmem)

/-- The row of a saved node is the saved one. -/
theorem saveState_key {row state : TelegramProxyNodeState} {states : List TelegramProxyNodeState}
    (h : row ∈ saveState state states) (hkey : row.nodeId = state.nodeId) : row = state := by
  unfold saveState at h
  split at h
  · rcases Rows.mem_save.mp h with ⟨rfl, -⟩ | ⟨-, hne⟩
    · rfl
    · exact absurd hkey hne
  · next hnone =>
      rcases List.mem_append.mp h with hmem | hmem
      · exact absurd (List.any_eq_true.mpr ⟨row, hmem, decide_eq_true hkey⟩) hnone
      · exact List.mem_singleton.mp hmem

/-- The row a result is written to. -/
theorem state_nodeId {nodeId : NodeId} {node : Node} (hnode : s.db.node? nodeId = some node) :
    ((s.state? nodeId).getD { nodeId := node.id }).nodeId = nodeId := by
  cases hstate : s.state? nodeId with
  | none =>
      have hkey : node.id = nodeId := Rows.key_of_get? hnode
      exact hkey
  | some old => exact Rows.key_of_get? hstate

/-- What an accepted result stores. -/
theorem reportResult_ok {nodeId : NodeId} {data : TelegramProxyResultIn} {now : Time}
    {e : ProxyEffect} (h : reportTelegramProxyNodeResult cfg s nodeId data now = .ok e) :
    ∃ row, e.panel = { s with states := saveState row s.states } ∧ row.nodeId = nodeId ∧
      Applied cfg data row ∧ (s.db.node? nodeId).isSome := by
  unfold reportTelegramProxyNodeResult at h
  split at h
  · cases h
  · next node hnode =>
      obtain ⟨row, hrow, h⟩ := bind_ok h
      cases h
      obtain ⟨hid, hok⟩ := applyProxyResult_ok hrow
      exact ⟨row, rfl, hid.trans (state_nodeId hnode), hok, by rw [hnode]; rfl⟩

/-! ## Steps -/

/-- What one call does: nothing, a request of the rest of the panel, or an
accepted request of the proxy. -/
theorem proxyPanel_step {call : ProxyCall} (h : (proxyPanel cfg).step s call = some s') :
    s' = s ∨ (∃ other panel, call = .panel other ∧
        (Backend.panel cfg.backend).step s.panel other = some panel ∧ s' = followNodes s panel) ∨
      ∃ now request e, call = .proxy now request ∧ handleProxy cfg s now request = .ok e ∧
        s' = e.panel := by
  change ProxyPanel.step cfg s call = some s' at h
  cases call with
  | panel other =>
      obtain ⟨panel, hpanel, rfl⟩ := Option.map_eq_some_iff.mp h
      exact .inr (.inl ⟨other, panel, rfl, hpanel, rfl⟩)
  | proxy now request =>
      simp only [ProxyPanel.step] at h
      split at h
      · cases h
        exact .inl rfl
      · next e he =>
          cases h
          exact .inr (.inr ⟨now, request, e, rfl, he, rfl⟩)

/-- A request that is refused changes nothing; one that is accepted, what it says. -/
theorem proxyPanel_step_proxy {now : Time} {request : ProxyRequest} {e : ProxyEffect}
    (he : handleProxy cfg s now request = .ok e) :
    (proxyPanel cfg).step s (.proxy now request) = some e.panel := by
  show ProxyPanel.step cfg s (.proxy now request) = _
  simp only [ProxyPanel.step, he]

theorem state?_followNodes {panel : Panel} {nodeId : NodeId} {row : TelegramProxyNodeState}
    (h : (followNodes s panel).state? nodeId = some row) : s.state? nodeId = some row := by
  have hkey : row.nodeId = nodeId := Rows.key_of_get? h
  have hnode : (panel.db.node? row.nodeId).isSome = true :=
    (List.mem_filter.mp (Rows.mem_of_get? h)).2
  rw [hkey] at hnode
  have hsame : (followNodes s panel).state? nodeId = s.state? nodeId := by
    refine Rows.get?_filter fun x _ hx => ?_
    rw [hx]
    exact hnode
  rwa [hsame] at h

theorem state?_saveState_of_ne {row : TelegramProxyNodeState} {nodeId : NodeId}
    (h : row.nodeId ≠ nodeId) :
    ({ s with states := saveState row s.states } : ProxyPanel).state? nodeId =
      s.state? nodeId := by
  unfold ProxyPanel.state? saveState
  dsimp only
  split
  · exact Rows.get?_save_of_ne h
  · exact Rows.get?_append_of_ne h

/-- Only a result writes the state of a node. -/
theorem handleProxy_states {now : Time} {request : ProxyRequest} {e : ProxyEffect}
    (he : handleProxy cfg s now request = .ok e) : e.panel.states = s.states ∨
      ∃ nodeId data row, request = .result nodeId data ∧ row.nodeId = nodeId ∧
        e.panel = { s with states := saveState row s.states } := by
  cases request with
  | updateSettings data iv =>
      obtain ⟨row, hpanel, -⟩ := updateTelegramProxySettings_ok he
      rw [hpanel]
      exact .inl rfl
  | apply =>
      rw [(applyTelegramProxy_ok he).1]
      exact .inl rfl
  | disable =>
      rw [(disableTelegramProxy_ok he).1]
      exact .inl rfl
  | rotate drawn iv =>
      obtain ⟨row, hpanel, -⟩ := rotateTelegramProxySecret_ok he
      rw [hpanel]
      exact .inl rfl
  | result nodeId data =>
      obtain ⟨row, hpanel, hid, -⟩ := reportResult_ok he
      exact .inr ⟨nodeId, data, row, rfl, hid, hpanel⟩

/-- A call that enables the proxy. -/
def Enables : ProxyCall → Prop
  | .proxy _ (.updateSettings data _) => data.enabled = true
  | _ => False

/-- A disabled proxy is enabled by no other call. -/
theorem disabled_step {call : ProxyCall} (h : (proxyPanel cfg).step s call = some s')
    (hno : ¬Enables call) (hoff : s.settings.enabled = false) : s'.settings.enabled = false := by
  rcases proxyPanel_step h with rfl | ⟨other, panel, -, -, rfl⟩ | ⟨now, request, e, rfl, he, rfl⟩
  · exact hoff
  · exact hoff
  · cases request with
    | updateSettings data iv =>
        obtain ⟨row, hpanel, henabled, -⟩ := updateTelegramProxySettings_ok he
        rw [hpanel]
        show row.enabled = false
        rw [henabled]
        exact Bool.eq_false_iff.mpr hno
    | apply =>
        rw [(applyTelegramProxy_ok he).1]
        exact hoff
    | disable =>
        rw [(disableTelegramProxy_ok he).1]
    | rotate drawn iv =>
        obtain ⟨row, hpanel, henabled, -⟩ := rotateTelegramProxySecret_ok he
        rw [hpanel]
        exact henabled.trans hoff
    | result nodeId data =>
        obtain ⟨row, hpanel, -⟩ := reportResult_ok he
        rw [hpanel]
        exact hoff

/-! ## Reachable tables -/

theorem ProxyPanel.Ok.init : ProxyPanel.Ok cfg {} where
  settings := ⟨⟨by decide, by decide⟩, by decide, nofun⟩
  states := nofun
  stateNodes := nofun
  primaryNode := nofun

/-- A request of the rest of the panel. -/
theorem ProxyPanel.Ok.followNodes (h : s.Ok cfg) (panel : Panel) :
    (Backend.followNodes s panel).Ok cfg where
  settings := ⟨h.settings.port, h.settings.domain, h.settings.secret⟩
  states row hrow := h.states row (List.mem_filter.mp hrow).1
  stateNodes _ hrow := (List.mem_filter.mp hrow).2
  primaryNode id hid := by
    obtain ⟨-, hsome⟩ := Option.filter_eq_some_iff.mp hid
    exact hsome

theorem ProxyPanel.Ok.proxy (h : s.Ok cfg) {now : Time} {request : ProxyRequest} {e : ProxyEffect}
    (hok : handleProxy cfg s now request = .ok e) : e.panel.Ok cfg := by
  cases request with
  | updateSettings data iv =>
      obtain ⟨row, hpanel, -, hrow, hnode⟩ := updateTelegramProxySettings_ok hok
      rw [hpanel]
      exact ⟨hrow h.settings, h.states, h.stateNodes, hnode⟩
  | apply =>
      rw [(applyTelegramProxy_ok hok).1]
      exact h
  | disable =>
      rw [(disableTelegramProxy_ok hok).1]
      exact ⟨⟨h.settings.port, h.settings.domain, h.settings.secret⟩, h.states, h.stateNodes,
        h.primaryNode⟩
  | rotate drawn iv =>
      obtain ⟨row, hpanel, -, hprimary, hrow⟩ := rotateTelegramProxySecret_ok hok
      rw [hpanel]
      refine ⟨hrow h.settings, h.states, h.stateNodes, fun id hid => ?_⟩
      change id ∈ row.primaryNodeId at hid
      rw [hprimary] at hid
      exact h.primaryNode id hid
  | result nodeId data =>
      obtain ⟨row, hpanel, hid, hrow, hnode⟩ := reportResult_ok hok
      rw [hpanel]
      refine ⟨h.settings, fun x hx => ?_, fun x hx => ?_, h.primaryNode⟩
      · rcases mem_saveState hx with rfl | hx
        · exact hrow.stateOk
        · exact h.states x hx
      · rcases mem_saveState hx with rfl | hx
        · rw [hid]
          exact hnode
        · exact h.stateNodes x hx

theorem ProxyPanel.Ok.step (h : s.Ok cfg) {call : ProxyCall}
    (hstep : (proxyPanel cfg).step s call = some s') : s'.Ok cfg := by
  rcases proxyPanel_step hstep with rfl | ⟨other, panel, -, -, rfl⟩ | ⟨now, request, e, -, he, rfl⟩
  · exact h
  · exact h.followNodes panel
  · exact h.proxy he

/-- **Proxy tables.** Every reachable state has well-formed proxy tables. -/
theorem ProxyPanel.ok_of_reachable (h : (proxyPanel cfg).Reachable s) : s.Ok cfg :=
  h.invariant .init fun _ _ _ hs _ hstep => hs.step hstep

/-! ## Links -/

/-- The state of the primary node, where it is ready. -/
def ProxyPanel.readyState (s : ProxyPanel) : Option TelegramProxyNodeState :=
  (s.settings.primaryNodeId.bind s.state?).filter (·.status.isReady)

/-- What the links are made of. -/
structure Shown (cfg : ProxyConfig) (s : ProxyPanel) (row : TelegramProxyNodeState)
    (host : Text) (port : Int) (secret : Text) : Prop where
  enabled : s.settings.enabled = true
  stored : ∃ iv, s.settings.secretEncrypted = some (cfg.fernet.encrypt iv secret)
  secret : ValidSecret secret
  primary : s.settings.primaryNodeId = some row.nodeId
  found : s.state? row.nodeId = some row
  ready : row.status.isReady = true
  host : row.publicHost = some host ∧ PublicHost host ∧ cfg.lowering.lower host = host
  port : row.publicPort = some port ∧ PublicPort port

/-- The links made of them. -/
def shownLinks (s : ProxyPanel) (host : Text) (port : Int) (secret : Text) : TelegramProxyLinks :=
  linksOf (linkQuery host port secret s.settings.tlsDomain)

variable {row : TelegramProxyNodeState} {host secret : Text} {port : Int}

theorem mem_readyState : row ∈ s.readyState ↔ s.settings.primaryNodeId = some row.nodeId ∧
    s.state? row.nodeId = some row ∧ row.status.isReady = true := by
  unfold ProxyPanel.readyState
  rw [Option.mem_def, Option.filter_eq_some_iff, Option.bind_eq_some_iff]
  constructor
  · rintro ⟨⟨id, hid, hrow⟩, hready⟩
    have hkey : row.nodeId = id := Rows.key_of_get? hrow
    rw [hkey]
    exact ⟨hid, hrow, hready⟩
  · rintro ⟨hid, hrow, hready⟩
    exact ⟨⟨row.nodeId, hid, hrow⟩, hready⟩

/-- Enabled, with a secret and a ready primary node, a panel has what the links
need. -/
theorem ProxyPanel.Ok.shown (h : s.Ok cfg) (henabled : s.settings.enabled = true)
    {secretEncrypted : Text} (hsecret : s.settings.secretEncrypted = some secretEncrypted)
    (hrow : row ∈ s.readyState) : ∃ host port secret, Shown cfg s row host port secret := by
  obtain ⟨hprimary, hget, hready⟩ := mem_readyState.mp hrow
  obtain ⟨host, port, hhost, hpublic, hport, hrange, -⟩ :=
    (h.states row (Rows.mem_of_get? hget)).ready hready
  obtain ⟨iv, secret, rfl, hvalid⟩ := h.settings.secret _ hsecret
  exact ⟨cfg.lowering.lower host, port, secret, henabled, ⟨iv, hsecret⟩, hvalid, hprimary, hget,
    hready, ⟨hhost, hpublic.lower, Lowering.lower_lower host⟩, hport, hrange⟩

theorem ProxyPanel.Ok.select (h : s.Ok cfg) :
    selectPrimaryNodeState cfg s = .ok s.readyState := by
  unfold selectPrimaryNodeState ProxyPanel.readyState
  cases hrow : s.settings.primaryNodeId.bind s.state? with
  | none => rfl
  | some row =>
      obtain ⟨id, -, hget⟩ := Option.bind_eq_some_iff.mp hrow
      cases hready : row.status.isReady with
      | false => simp [hready, Option.filter]
      | true =>
          obtain ⟨host, port, hhost, hpublic, hport, hrange, -⟩ :=
            (h.states row (Rows.mem_of_get? hget)).ready hready
          simp only [hready, hhost, hport, normalizePublicHost_eq.mpr ⟨rfl, hpublic.lower⟩,
            normalizePublicPort_eq.mpr ⟨rfl, hrange⟩, Option.filter]
          rfl

theorem Shown.links (h : Shown cfg s row host port secret) :
    buildProxyLinks cfg.lowering.lower host (.integer port) secret s.settings.tlsDomain =
      .ok (shownLinks s host port secret) := by
  obtain ⟨heq, -⟩ := validateProxySecret_eq.mp (h.secret.validate (L := cfg.lowering))
  refine buildProxyLinks_eq.mpr ⟨port, rfl, h.port.2, h.host.2.1, ?_, ?_⟩
  · rw [← heq]
    exact h.secret
  · rw [← heq, h.host.2.2]
    rfl

theorem Shown.responseLinks (h : Shown cfg s row host port secret) (hok : s.Ok cfg) :
    responseLinks cfg s = .ok (some (shownLinks s host port secret)) := by
  obtain ⟨iv, hstored⟩ := h.stored
  have hrow : s.readyState = some row := mem_readyState.mpr ⟨h.primary, h.found, h.ready⟩
  unfold Backend.responseLinks
  simp only [hstored, h.enabled, cfg.fernet.encrypt_ne_nil, hok.select, hrow, h.host.1, h.port.1,
    cfg.fernet.decrypt_encrypt, h.links, Bool.not_true, decide_false, Bool.or_self, bind,
    Except.bind]
  rfl

theorem Shown.publicTelegramProxy (h : Shown cfg s row host port secret) (hok : s.Ok cfg)
    {node : Node} (hnode : s.db.node? row.nodeId = some node) :
    publicTelegramProxy cfg s = .ok (some ⟨true, node.name, (shownLinks s host port secret).tgUrl,
      (shownLinks s host port secret).tMeUrl, row.status⟩) := by
  obtain ⟨iv, hstored⟩ := h.stored
  have hrow : s.readyState = some row := mem_readyState.mpr ⟨h.primary, h.found, h.ready⟩
  unfold Backend.publicTelegramProxy
  simp only [hstored, h.enabled, hok.select, hrow, h.primary, h.host.1, h.port.1,
    cfg.fernet.decrypt_encrypt, h.links, hnode, Bool.not_true]
  rfl

/-- Where one of them is missing, neither page shows links. -/
theorem ProxyPanel.Ok.hidden (h : s.Ok cfg) (hno : s.settings.enabled = false ∨
    s.settings.secretEncrypted = none ∨ s.readyState = none) :
    Backend.responseLinks cfg s = .ok none ∧ Backend.publicTelegramProxy cfg s = .ok none := by
  unfold Backend.responseLinks Backend.publicTelegramProxy
  rw [h.select]
  cases hsecret : s.settings.secretEncrypted with
  | none => exact ⟨rfl, rfl⟩
  | some secretEncrypted =>
      rw [hsecret] at hno
      cases henabled : s.settings.enabled with
      | false => simp
      | true =>
          rw [henabled] at hno
          rcases hno with hno | hno | hno
          · cases hno
          · cases hno
          · rw [hno]
            refine ⟨?_, rfl⟩
            dsimp only
            split <;> rfl

/-- Links are shown only of what they need. -/
theorem ProxyPanel.Ok.shown_of_links (h : s.Ok cfg) {links : TelegramProxyLinks}
    (hlinks : Backend.responseLinks cfg s = .ok (some links)) :
    ∃ row host port secret, Shown cfg s row host port secret ∧
      links = shownLinks s host port secret := by
  have hnone : ∀ {P : Prop}, (s.settings.enabled = false ∨ s.settings.secretEncrypted = none ∨
      s.readyState = none) → P := by
    intro P hno
    rw [(h.hidden hno).1] at hlinks
    cases hlinks
  cases henabled : s.settings.enabled with
  | false => exact hnone (.inl henabled)
  | true =>
      cases hsecret : s.settings.secretEncrypted with
      | none => exact hnone (.inr (.inl hsecret))
      | some text =>
          cases hrow : s.readyState with
          | none => exact hnone (.inr (.inr hrow))
          | some row =>
              obtain ⟨host, port, secret, hshown⟩ := h.shown henabled hsecret hrow
              rw [hshown.responseLinks h] at hlinks
              cases hlinks
              exact ⟨row, host, port, secret, hshown, rfl⟩

end VpnPanel.Backend
