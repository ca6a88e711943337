import VpnPanel.Backend.ProxyTables
import VpnPanel.Lib.Replace
import VpnPanel.Node.MtProxy

/-!
# Proxy jobs of the worker

The three handlers of `handlers.py` from the snapshot they fetched to the result
they report, with the call to the agent in between.
-/

namespace VpnPanel.Worker

open VpnPanel.Lib VpnPanel.Lib.Text VpnPanel.Backend VpnPanel.Node

def MTPROXY_UNSUPPORTED_NODE_AGENT_ERROR : Text :=
  "Node agent does not support Telegram MTProxy; update the node image".toList

inductive ProxyJobKind
  | apply | check | disable
  deriving DecidableEq, Repr

/-- An exception of a handler's `try`, with the status of an `HTTPStatusError`. -/
structure CallError where
  message : Text
  statusCode : Option Nat := none
  deriving DecidableEq, Repr

/-- `_telegram_proxy_config`. -/
def telegramProxyConfig (desired : TelegramProxyDesiredConfig) : Except CallError MTProxyBody :=
  if !desired.enabled then .error { message := "Telegram proxy is not enabled".toList }
  else match desired.secret, desired.publicHost with
    | none, _ => .error { message := "Telegram proxy secret is missing".toList }
    | some secret, publicHost =>
        if secret = [] then .error { message := "Telegram proxy secret is missing".toList }
        else match publicHost with
          | none => .error { message := "Telegram proxy public_host is missing".toList }
          | some publicHost =>
              if publicHost = [] then
                .error { message := "Telegram proxy public_host is missing".toList }
              else if desired.tlsDomain = [] then
                .error { message := "Telegram proxy tls_domain is missing".toList }
              else .ok ⟨desired.port, publicHost, secret, desired.tlsDomain⟩

/-- `_telegram_proxy_result`. -/
def telegramProxyResult (status : MTProxyStatus) : TelegramProxyResultIn :=
  match status.state with
  | .running =>
      match status.publicHost, status.port with
      | some publicHost, some port =>
          { status := .ready, publicHost := some publicHost, publicPort := some port }
      | _, _ => { status := .active }
  | .disabled => { status := .disabled }
  | .stopped => { status := .failed, error := some "MTProxy is stopped" }
  | .failed => { status := .failed, error := some "MTProxy is failed" }

/-- `_telegram_proxy_error`. A 404 of the agent is one of `/mtproxy`. -/
def telegramProxyError (desired : TelegramProxyDesiredConfig) (e : CallError) : Text :=
  if e.statusCode = some 404 then MTPROXY_UNSUPPORTED_NODE_AGENT_ERROR
  else match desired.secret with
    | none => e.message
    | some secret =>
        if secret = [] then e.message else replace secret "<redacted>".toList e.message

/-- The agent's route for a job. -/
def performJob (file : Option MTProxyConfig) (run : AgentRun) :
    ProxyJobKind → MTProxyBody → AgentAnswer
  | .apply, body => applyMtproxy file body run
  | .check, _ => mtproxyStatus file run
  | .disable, _ => disableMtproxy file run

/-- How far a call gets: not to the agent, to the agent but not back, or back,
with the message of `raise_for_status` if the answer is an error. -/
inductive ProxyReach
  | unreached (error : CallError)
  | lost (run : AgentRun) (error : CallError)
  | answered (run : AgentRun) (message : Text)

/-- The call: the file after it, and what the worker gets. -/
def callAgent (file : Option MTProxyConfig) (kind : ProxyJobKind) (body : MTProxyBody) :
    ProxyReach → Option MTProxyConfig × Except CallError MTProxyStatus
  | .unreached e => (file, .error e)
  | .lost run e => ((performJob file run kind body).1, .error e)
  | .answered run message =>
      let (file, answer) := performJob file run kind body
      (file, answer.mapError fun e => ⟨message, some e.statusCode⟩)

/-- The body of a job's request; only an apply job sends one. -/
def jobBody (kind : ProxyJobKind) (desired : TelegramProxyDesiredConfig) :
    Except CallError MTProxyBody :=
  match kind with
  | .apply => telegramProxyConfig desired
  | _ => .ok ⟨0, [], [], []⟩

/-- The reported result. -/
def jobResult (desired : TelegramProxyDesiredConfig) :
    Except CallError MTProxyStatus → TelegramProxyResultIn
  | .ok status => telegramProxyResult status
  | .error e =>
      { status := .failed, error := some (String.ofList (telegramProxyError desired e)) }

/-- `_apply_telegram_proxy_snapshot`, `_check_telegram_proxy_snapshot` and
`_disable_telegram_proxy_snapshot` up to their report. -/
def runProxyJob (file : Option MTProxyConfig) (kind : ProxyJobKind)
    (desired : TelegramProxyDesiredConfig) (reach : ProxyReach) :
    Option MTProxyConfig × TelegramProxyResultIn :=
  match jobBody kind desired with
  | .error e => (file, jobResult desired (.error e))
  | .ok body =>
      let (file, answer) := callAgent file kind body reach
      (file, jobResult desired answer)

/-! ## Results -/

variable {file : Option MTProxyConfig} {kind : ProxyJobKind} {body : MTProxyBody}
  {desired : TelegramProxyDesiredConfig} {reach : ProxyReach}

theorem telegramProxyConfig_ok (h : telegramProxyConfig desired = .ok body) :
    desired.enabled = true ∧ desired.secret = some body.secret ∧
      desired.publicHost = some body.publicHost ∧ desired.port = body.port ∧
      desired.tlsDomain = body.tlsDomain ∧ body.secret ≠ [] ∧ body.publicHost ≠ [] ∧
      body.tlsDomain ≠ [] := by
  unfold telegramProxyConfig at h
  split at h
  · cases h
  · next henabled =>
      split at h
      · cases h
      · next secret hsecret =>
          split at h
          · cases h
          · next hne =>
              split at h
              · cases h
              · next publicHost hhost =>
                  split at h
                  · cases h
                  · next hhostne =>
                      split at h
                      · cases h
                      · next hdomain =>
                          cases h
                          exact ⟨by simpa using henabled, hsecret, hhost, rfl, rfl, hne, hhostne,
                            hdomain⟩

/-- A result that is ready tells of the file. -/
def TellsReady (file : Option MTProxyConfig) (data : TelegramProxyResultIn) : Prop :=
  data.status.isReady = true → ∃ config, file = some config ∧
    data.publicHost = some config.publicHost ∧ data.publicPort = some config.port

theorem telegramProxyResult_tells {status : MTProxyStatus} (h : Tells file status) :
    TellsReady file (telegramProxyResult status) := by
  intro hready
  unfold telegramProxyResult at hready ⊢
  cases hstate : status.state with
  | running =>
      obtain ⟨config, hfile, hport, hhost⟩ := h hstate
      refine ⟨config, hfile, ?_⟩
      rw [hport, hhost]
      exact ⟨rfl, rfl⟩
  | disabled =>
      rw [hstate] at hready
      cases hready
  | stopped =>
      rw [hstate] at hready
      cases hready
  | failed =>
      rw [hstate] at hready
      cases hready

/-- What a job may leave as the node's file. -/
theorem runProxyJob_file (file : Option MTProxyConfig) (kind : ProxyJobKind)
    (desired : TelegramProxyDesiredConfig) (reach : ProxyReach) :
    (runProxyJob file kind desired reach).1 = file ∨
    (kind = .disable ∧ (runProxyJob file kind desired reach).1 = none) ∨
    ∃ body config, kind = .apply ∧ telegramProxyConfig desired = .ok body ∧
      body.config? = some config ∧ (runProxyJob file kind desired reach).1 = some config := by
  unfold runProxyJob
  cases hbody : jobBody kind desired with
  | error e => exact .inl rfl
  | ok body =>
      have hperform : ∀ run, (performJob file run kind body).1 = file ∨
          (kind = .disable ∧ (performJob file run kind body).1 = none) ∨
          ∃ body' config, kind = .apply ∧ telegramProxyConfig desired = .ok body' ∧
            body'.config? = some config ∧ (performJob file run kind body).1 = some config := by
        intro run
        cases kind with
        | apply =>
            rcases applyMtproxy_file file body run with
              hsame | ⟨config, hconfig, hnew⟩
            · exact .inl hsame
            · exact .inr (.inr ⟨body, config, rfl, hbody, hconfig, hnew⟩)
        | check => exact .inl rfl
        | disable =>
            rcases disableMtproxy_file file run with hsame | hgone
            · exact .inl hsame
            · exact .inr (.inl ⟨rfl, hgone⟩)
      cases reach with
      | unreached e => exact .inl rfl
      | lost run e => exact hperform run
      | answered run message => exact hperform run

/-- A ready result tells of the file the job left. -/
theorem runProxyJob_tells : TellsReady (runProxyJob file kind desired reach).1
    (runProxyJob file kind desired reach).2 := by
  unfold runProxyJob
  cases hbody : jobBody kind desired with
  | error e => exact nofun
  | ok body =>
      cases reach with
      | unreached e => exact nofun
      | lost run e => exact nofun
      | answered run message =>
          have hperform : ∀ status, (performJob file run kind body).2 = .ok status →
              Tells (performJob file run kind body).1 status := by
            intro status hstatus
            cases kind with
            | apply =>
                obtain ⟨config, -, hfile, htells⟩ := applyMtproxy_ok hstatus
                show Tells (applyMtproxy file body run).1 status
                rw [hfile]
                exact htells
            | check => exact mtproxyStatus_ok hstatus
            | disable =>
                intro hrunning
                rw [(disableMtproxy_ok hstatus).2] at hrunning
                cases hrunning
          show TellsReady (performJob file run kind body).1
            (jobResult desired ((performJob file run kind body).2.mapError _))
          cases hanswer : (performJob file run kind body).2 with
          | error e => exact nofun
          | ok status => exact telegramProxyResult_tells (hperform status hanswer)

end VpnPanel.Worker
