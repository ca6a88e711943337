import VpnPanel.Worker.ProxyJobs

/-!
# Panel, worker and proxies

The panel with its proxy tables, the worker with one proxy job at a time, and the
config file on every node. Requests may fall between any two steps of a job; a
call may fail before or after the agent did its part, and the worker may drop a
job at any time. Which job comes when is left open, so repeated deliveries are
covered. The worker waits for an agent longer than all its calls of
`supervisorctl` may take, so an agent is done with a request before the next.
-/

namespace VpnPanel.Worker

open VpnPanel.Lib VpnPanel.Lib.Text VpnPanel.Backend VpnPanel.Node

/-- Where the worker is with its job. -/
inductive ProxyPhase
  | idle
  | fetched (kind : ProxyJobKind) (snapshot : TelegramProxySnapshot)
  | called (nodeId : NodeId) (result : TelegramProxyResultIn)
  deriving DecidableEq, Repr

structure ProxyWorld where
  panel : ProxyPanel := {}
  /-- The config file on each node. -/
  files : NodeId → Option MTProxyConfig := fun _ => none
  job : ProxyPhase := .idle

inductive ProxyEvent
  | request (call : ProxyCall)
  | fetch (kind : ProxyJobKind) (nodeId : NodeId)
  | perform (reach : ProxyReach)
  | report (now : Time)
  | abandon

/-- The request only the worker makes. -/
def isProxyResult : ProxyCall → Bool
  | .proxy _ (.result _ _) => true
  | _ => false

/-- The next state; `none` when the event is not enabled. -/
def ProxyWorld.step (cfg : ProxyConfig) (w : ProxyWorld) : ProxyEvent → Option ProxyWorld
  | .request call =>
      if isProxyResult call then none
      else ((proxyPanel cfg).step w.panel call).map fun panel => { w with panel }
  | .fetch kind nodeId =>
      match w.job, telegramProxyNodeSnapshot cfg w.panel nodeId with
      | .idle, .ok snapshot => some { w with job := .fetched kind snapshot }
      | _, _ => none
  | .perform reach =>
      match w.job with
      | .fetched kind snapshot =>
          let (file, result) :=
            runProxyJob (w.files snapshot.nodeId) kind snapshot.desired reach
          some { w with
            files := Function.update w.files snapshot.nodeId file
            job := .called snapshot.nodeId result }
      | _ => none
  | .report now =>
      match w.job with
      | .called nodeId result =>
          ((proxyPanel cfg).step w.panel (.proxy now (.result nodeId result))).map fun panel =>
            { w with panel, job := .idle }
      | _ => none
  | .abandon => some { w with job := .idle }

def proxyWorld (cfg : ProxyConfig) : TSys ProxyWorld ProxyEvent where
  init := {}
  step := ProxyWorld.step cfg

/-! ## What a step does -/

/-- What each event needs, and the state it leaves. -/
def ProxyEvent.Does (cfg : ProxyConfig) (w w' : ProxyWorld) : ProxyEvent → Prop
  | .request call => isProxyResult call = false ∧
      ∃ next, (proxyPanel cfg).step w.panel call = some next ∧ w' = { w with panel := next }
  | .fetch kind nodeId => w.job = .idle ∧ ∃ snapshot,
      telegramProxyNodeSnapshot cfg w.panel nodeId = .ok snapshot ∧
        w' = { w with job := .fetched kind snapshot }
  | .perform reach => ∃ kind snapshot, w.job = .fetched kind snapshot ∧ w' = { w with
      files := Function.update w.files snapshot.nodeId
        (runProxyJob (w.files snapshot.nodeId) kind snapshot.desired reach).1
      job := .called snapshot.nodeId
        (runProxyJob (w.files snapshot.nodeId) kind snapshot.desired reach).2 }
  | .report now => ∃ nodeId result, w.job = .called nodeId result ∧
      ∃ next, (proxyPanel cfg).step w.panel (.proxy now (.result nodeId result)) = some next ∧
        w' = { w with panel := next, job := .idle }
  | .abandon => w' = { w with job := .idle }

variable {cfg : ProxyConfig} {w w' : ProxyWorld} {e : ProxyEvent}

theorem proxyWorld_step (h : (proxyWorld cfg).step w e = some w') : e.Does cfg w w' := by
  change ProxyWorld.step cfg w e = some w' at h
  cases e with
  | request call =>
      simp only [ProxyWorld.step] at h
      split at h
      · cases h
      · next hresult =>
          obtain ⟨next, hnext, rfl⟩ := Option.map_eq_some_iff.mp h
          exact ⟨by simpa using hresult, next, hnext, rfl⟩
  | fetch kind nodeId =>
      simp only [ProxyWorld.step] at h
      split at h
      · next snapshot hjob hsnapshot =>
          cases h
          exact ⟨hjob, snapshot, hsnapshot, rfl⟩
      · cases h
  | perform reach =>
      simp only [ProxyWorld.step] at h
      split at h
      · next kind snapshot hjob =>
          cases h
          exact ⟨kind, snapshot, hjob, rfl⟩
      · cases h
  | report now =>
      simp only [ProxyWorld.step] at h
      split at h
      · next nodeId result hjob =>
          obtain ⟨next, hnext, rfl⟩ := Option.map_eq_some_iff.mp h
          exact ⟨nodeId, result, hjob, next, hnext, rfl⟩
      · cases h
  | abandon =>
      cases h
      rfl

/-- A step leaves the panel alone or handles one request. -/
theorem proxyWorld_panel (h : (proxyWorld cfg).step w e = some w') :
    w'.panel = w.panel ∨ ∃ call, (proxyPanel cfg).step w.panel call = some w'.panel := by
  have hdoes := proxyWorld_step h
  cases e with
  | request call =>
      obtain ⟨-, next, hnext, rfl⟩ := hdoes
      exact .inr ⟨call, hnext⟩
  | fetch kind nodeId =>
      obtain ⟨-, snapshot, -, rfl⟩ := hdoes
      exact .inl rfl
  | perform reach =>
      obtain ⟨kind, snapshot, -, rfl⟩ := hdoes
      exact .inl rfl
  | report now =>
      obtain ⟨nodeId, result, -, next, hnext, rfl⟩ := hdoes
      exact .inr ⟨_, hnext⟩
  | abandon =>
      have hsame := congrArg ProxyWorld.panel hdoes
      exact .inl hsame

theorem proxyWorld_panel_reachable (h : (proxyWorld cfg).Reachable w) :
    (proxyPanel cfg).Reachable w.panel := by
  have hinit : (proxyPanel cfg).Reachable (proxyPanel cfg).init := .init
  refine TSys.Reaches.invariant (P := fun w : ProxyWorld => (proxyPanel cfg).Reachable w.panel)
    hinit ?_ h
  intro w e w' hw _ hstep
  rcases proxyWorld_panel hstep with heq | ⟨call, hcall⟩
  · rw [heq]
    exact hw
  · exact .step hw trivial hcall

/-- Every reachable world has well-formed proxy tables. -/
theorem proxyWorld_ok (h : (proxyWorld cfg).Reachable w) : w.panel.Ok cfg :=
  ProxyPanel.ok_of_reachable (proxyWorld_panel_reachable h)

/-! ## Snapshots -/

/-- A config the panel can have sent. -/
structure DesiredOk (cfg : ProxyConfig) (desired : TelegramProxyDesiredConfig) : Prop where
  port : PublicPort desired.port
  domain : desired.tlsDomain ≠ []
  secret : ∀ secret ∈ desired.secret, ValidSecret secret
  host : ∀ host ∈ desired.publicHost, PublicHost host ∧ cfg.lowering.lower host = host

theorem hostFromEndpoint_ok {endpoint : Option Text} {found : Option Text}
    (h : hostFromEndpoint cfg.lowering.lower endpoint = .ok found) :
    ∀ host ∈ found, PublicHost host ∧ cfg.lowering.lower host = host := by
  have hnormal : ∀ {text : Text}, (normalizePublicHost cfg.lowering.lower text).map some =
      .ok found → ∀ host ∈ found, PublicHost host ∧ cfg.lowering.lower host = host := by
    intro text htext
    cases hnorm : normalizePublicHost cfg.lowering.lower text with
    | error e =>
        rw [hnorm] at htext
        cases htext
    | ok server =>
        rw [hnorm] at htext
        cases htext
        rintro host ⟨⟩
        obtain ⟨rfl, hpublic⟩ := normalizePublicHost_eq.mp hnorm
        exact ⟨hpublic.lower, Lowering.lower_lower text⟩
  unfold hostFromEndpoint at h
  split at h
  · cases h
    exact nofun
  · split at h
    · cases h
      exact nofun
    · split at h
      · split at h
        · exact hnormal h
        · cases h
          exact nofun
      · exact hnormal h

/-- The secret in a stored one. -/
def storedSecret (cfg : ProxyConfig) (settings : Backend.TelegramProxySettings) : Option Text :=
  settings.secretEncrypted.bind cfg.fernet.decrypt

theorem storedSecret_valid {settings : Backend.TelegramProxySettings}
    (h : SettingsOk cfg settings) :
    ∀ secret ∈ storedSecret cfg settings, ValidSecret secret := by
  intro secret hsecret
  obtain ⟨text, htext, hdecrypt⟩ := Option.bind_eq_some_iff.mp hsecret
  obtain ⟨iv, stored, rfl, hvalid⟩ := h.secret text htext
  rw [cfg.fernet.decrypt_encrypt] at hdecrypt
  cases hdecrypt
  exact hvalid

/-- What a desired config is made of. -/
theorem desiredConfig_ok {settings : Backend.TelegramProxySettings} {node : Backend.Node}
    {desired : TelegramProxyDesiredConfig} (hok : SettingsOk cfg settings)
    (h : desiredConfig cfg settings node = .ok desired) : DesiredOk cfg desired ∧
      desired.enabled = settings.enabled ∧ desired.secret = storedSecret cfg settings ∧
      desired.port = settings.port ∧ desired.tlsDomain = settings.tlsDomain := by
  have hsecret : desired.secret = storedSecret cfg settings ∧
      desired.enabled = settings.enabled ∧ desired.port = settings.port ∧
      desired.tlsDomain = settings.tlsDomain ∧
      ∀ host ∈ desired.publicHost, PublicHost host ∧ cfg.lowering.lower host = host := by
    unfold desiredConfig at h
    unfold storedSecret
    cases hstored : settings.secretEncrypted with
    | none =>
        rw [hstored] at h
        obtain ⟨_, ⟨⟩, h⟩ := bind_ok h
        obtain ⟨found, hfound, h⟩ := bind_ok h
        cases h
        exact ⟨rfl, rfl, rfl, rfl, hostFromEndpoint_ok (mapError_ok.mp hfound)⟩
    | some text =>
        obtain ⟨iv, stored, rfl, -⟩ := hok.secret text hstored
        rw [hstored] at h
        simp only [cfg.fernet.encrypt_ne_nil, if_false, cfg.fernet.decrypt_encrypt] at h
        obtain ⟨_, ⟨⟩, h⟩ := bind_ok h
        obtain ⟨found, hfound, h⟩ := bind_ok h
        cases h
        refine ⟨?_, rfl, rfl, rfl, hostFromEndpoint_ok (mapError_ok.mp hfound)⟩
        exact (cfg.fernet.decrypt_encrypt iv stored).symm
  obtain ⟨hsecret, henabled, hport, hdomain, hhost⟩ := hsecret
  refine ⟨⟨?_, ?_, ?_, hhost⟩, henabled, hsecret, hport, hdomain⟩
  · rw [hport]
    exact hok.port
  · rw [hdomain]
    exact hok.domain
  · rw [hsecret]
    exact storedSecret_valid hok

theorem snapshot_ok {s : ProxyPanel} {nodeId : NodeId} {snapshot : TelegramProxySnapshot}
    (h : telegramProxyNodeSnapshot cfg s nodeId = .ok snapshot) : snapshot.nodeId = nodeId ∧
      ∃ node, s.db.node? nodeId = some node ∧
        desiredConfig cfg s.settings node = .ok snapshot.desired := by
  unfold telegramProxyNodeSnapshot at h
  split at h
  · cases h
  · next node hnode =>
      split at h
      · cases h
      · next desired hdesired =>
          cases h
          have hkey : node.id = nodeId := Rows.key_of_get? hnode
          exact ⟨hkey, node, hnode, hdesired⟩

/-! ## Well-formed worlds -/

/-- A file as the panel can have sent it. -/
structure FileOk (cfg : ProxyConfig) (config : MTProxyConfig) : Prop where
  host : PublicHost config.publicHost
  lowered : cfg.lowering.lower config.publicHost = config.publicHost
  secret : ValidSecret config.secret

structure ProxyWorld.Ok (cfg : ProxyConfig) (w : ProxyWorld) : Prop where
  files : ∀ nodeId, ∀ config ∈ w.files nodeId, FileOk cfg config
  fetched : ∀ kind snapshot, w.job = .fetched kind snapshot → DesiredOk cfg snapshot.desired
  called : ∀ nodeId result, w.job = .called nodeId result → result.status.isReady = true →
    ∃ host port, result.publicHost = some host ∧ PublicHost host ∧
      result.publicPort = some port ∧ PublicPort port

/-- A body of a well-formed snapshot passes the agent's validation. -/
theorem config_of_desired {desired : TelegramProxyDesiredConfig} {body : MTProxyBody}
    (hok : DesiredOk cfg desired) (h : telegramProxyConfig desired = .ok body) :
    ∃ config, body.config? = some config ∧ FileOk cfg config := by
  obtain ⟨-, hsecret, hhost, hport, hdomain, hsecretne, hhostne, hdomainne⟩ :=
    telegramProxyConfig_ok h
  have hrange : PublicPort body.port := by
    rw [← hport]
    exact hok.port
  exact ⟨_, dif_pos ⟨hrange, hhostne, hsecretne, hdomainne⟩,
    (hok.host _ hhost).1, (hok.host _ hhost).2, hok.secret _ hsecret⟩

theorem ProxyWorld.Ok.step (hpanel : w.panel.Ok cfg) (h : w.Ok cfg)
    (hstep : (proxyWorld cfg).step w e = some w') : w'.Ok cfg := by
  have hdoes := proxyWorld_step hstep
  cases e with
  | request call =>
      obtain ⟨-, next, -, rfl⟩ := hdoes
      exact ⟨h.files, h.fetched, h.called⟩
  | fetch kind nodeId =>
      obtain ⟨-, snapshot, hsnapshot, rfl⟩ := hdoes
      obtain ⟨-, node, -, hdesired⟩ := snapshot_ok hsnapshot
      refine ⟨h.files, fun _ _ hjob => ?_, nofun⟩
      cases hjob
      exact (desiredConfig_ok hpanel.settings hdesired).1
  | perform reach =>
      obtain ⟨kind, snapshot, hjob, rfl⟩ := hdoes
      have hdesired := h.fetched kind snapshot hjob
      have hfile : ∀ config ∈
          (runProxyJob (w.files snapshot.nodeId) kind snapshot.desired reach).1,
          FileOk cfg config := by
        rcases runProxyJob_file (w.files snapshot.nodeId) kind snapshot.desired reach with
          hsame | ⟨-, hgone⟩ | ⟨body, config, -, hbody, hconfig, hnew⟩
        · rw [hsame]
          exact h.files snapshot.nodeId
        · rw [hgone]
          exact nofun
        · rw [hnew]
          rintro _ ⟨⟩
          obtain ⟨found, hfound, hok⟩ := config_of_desired hdesired hbody
          rw [hconfig] at hfound
          cases hfound
          exact hok
      refine ⟨fun nodeId => ?_, nofun, fun nodeId result hcalled hready => ?_⟩
      · dsimp only
        by_cases heq : nodeId = snapshot.nodeId
        · rw [heq, Function.update_self]
          exact hfile
        · rw [Function.update_of_ne heq]
          exact h.files nodeId
      · cases hcalled
        obtain ⟨config, hconfig, hhost, hport⟩ := runProxyJob_tells hready
        exact ⟨_, _, hhost, (hfile config hconfig).host, hport, config.port_ok⟩
  | report now =>
      obtain ⟨nodeId, result, -, next, -, rfl⟩ := hdoes
      exact ⟨h.files, nofun, nofun⟩
  | abandon =>
      cases hdoes
      exact ⟨h.files, nofun, nofun⟩

theorem proxyWorld_files_ok (h : (proxyWorld cfg).Reachable w) : w.Ok cfg :=
  TSys.Reaches.invariant_with (fun _ hw => proxyWorld_ok hw) ⟨nofun, nofun, nofun⟩
    (fun _ _ _ hpanel hw _ hstep => hw.step hpanel hstep) h

/-- The result in hand is taken as long as its node is there. -/
theorem report_takes {nodeId : NodeId} {result : TelegramProxyResultIn}
    (h : w.Ok cfg) (hjob : w.job = .called nodeId result)
    (hnode : (w.panel.db.node? nodeId).isSome) (now : Time) :
    ∃ row, reportTelegramProxyNodeResult cfg w.panel nodeId result now =
        .ok { panel := { w.panel with states := saveState row w.panel.states } } ∧
      row.nodeId = nodeId ∧ Applied cfg result row := by
  obtain ⟨node, hnode⟩ := Option.isSome_iff_exists.mp hnode
  obtain ⟨row, hrow⟩ := applyProxyResult_takes cfg
    ((w.panel.state? nodeId).getD { nodeId := node.id }) now (h.called nodeId result hjob)
  have hreport : reportTelegramProxyNodeResult cfg w.panel nodeId result now =
      .ok { panel := { w.panel with states := saveState row w.panel.states } } := by
    unfold reportTelegramProxyNodeResult
    simp only [hnode, hrow]
    rfl
  obtain ⟨hid, happlied⟩ := applyProxyResult_ok hrow
  exact ⟨row, hreport, hid.trans (state_nodeId hnode), happlied⟩

end VpnPanel.Worker
