import VpnPanel.Backend.Schema
import VpnPanel.Lib.Text

/-!
# The proxy on a node

`mtproxy.py` of the agent with its three routes, and the checks of `mtproxy.sh`
on the file it starts from. The file is kept as the config in it. What
`supervisorctl` answers is input: an exit code with a text, or no answer in time.
-/

namespace VpnPanel.Node

open VpnPanel.Lib VpnPanel.Lib.Text
open VpnPanel.Backend (HttpError)

/-- `MTProxyConfig` with the constraints of its fields. -/
structure MTProxyConfig where
  port : Int
  publicHost : Text
  secret : Text
  tlsDomain : Text
  port_ok : 1 ≤ port ∧ port ≤ 65535
  host_ok : publicHost ≠ []
  secret_ok : secret ≠ []
  domain_ok : tlsDomain ≠ []
  deriving DecidableEq, Repr

/-- The body of `PUT /mtproxy`. -/
structure MTProxyBody where
  port : Int
  publicHost : Text
  secret : Text
  tlsDomain : Text
  deriving DecidableEq, Repr

/-- The validation of the body. -/
def MTProxyBody.config? (body : MTProxyBody) : Option MTProxyConfig :=
  if h : (1 ≤ body.port ∧ body.port ≤ 65535) ∧ body.publicHost ≠ [] ∧ body.secret ≠ [] ∧
      body.tlsDomain ≠ [] then
    some ⟨body.port, body.publicHost, body.secret, body.tlsDomain, h.1, h.2.1, h.2.2.1, h.2.2.2⟩
  else none

def MTProxyConfig.body (config : MTProxyConfig) : MTProxyBody :=
  ⟨config.port, config.publicHost, config.secret, config.tlsDomain⟩

inductive MTProxyState
  | disabled | running | stopped | failed
  deriving DecidableEq, Repr

structure MTProxyStatus where
  state : MTProxyState
  port : Option Int
  publicHost : Option Text
  secretSet : Bool
  deriving DecidableEq, Repr

inductive SupervisorProcessState
  | running | starting | stopped | exited | fatal | backoff | unknown
  deriving DecidableEq, Repr

inductive SupervisorAction
  | start | stop | restart | status
  deriving DecidableEq, Repr

def SupervisorAction.text : SupervisorAction → String
  | .start => "start"
  | .stop => "stop"
  | .restart => "restart"
  | .status => "status"

inductive SupervisorError
  | command (action : SupervisorAction) (returncode : Int)
  | timeout (action : SupervisorAction)
  deriving DecidableEq, Repr

def SupervisorError.text : SupervisorError → String
  | .command action returncode =>
      let action := action.text
      s!"supervisorctl {action} mtproxy failed with exit code {returncode}"
  | .timeout action =>
      let action := action.text
      s!"supervisorctl {action} mtproxy timed out"

/-- `_mtproxy_http_error`. -/
def SupervisorError.http (e : SupervisorError) : HttpError := ⟨500, e.text⟩

/-- How one call of `supervisorctl` ends. -/
inductive SupervisorReply
  | completed (returncode : Int) (stdout : Text)
  | timedOut
  deriving DecidableEq, Repr

def supervisorMtproxy (action : SupervisorAction) : SupervisorReply → Except SupervisorError Text
  | .timedOut => .error (.timeout action)
  | .completed returncode stdout =>
      if returncode ≠ 0 then .error (.command action returncode) else .ok (strip stdout)

/-! ## Status -/

/-- `str.split` at blanks. -/
def words (t : Text) : List Text := (t.splitOnP isSpace).filter (· ≠ [])

/-- The values of `SupervisorProcessState`. -/
def supervisorProcessState? (candidate : Text) : Option SupervisorProcessState :=
  if candidate = "RUNNING".toList then some .running
  else if candidate = "STARTING".toList then some .starting
  else if candidate = "STOPPED".toList then some .stopped
  else if candidate = "EXITED".toList then some .exited
  else if candidate = "FATAL".toList then some .fatal
  else if candidate = "BACKOFF".toList then some .backoff
  else if candidate = "UNKNOWN".toList then some .unknown
  else none

/-- `_extract_supervisor_state`. -/
def extractSupervisorState (supervisorOutput : Text) : SupervisorProcessState :=
  match words supervisorOutput with
  | _ :: candidate :: _ => (supervisorProcessState? candidate).getD .unknown
  | _ => .unknown

example : extractSupervisorState "mtproxy   RUNNING   pid 7".toList = .running := by decide

/-- `_parse_supervisor_state`. -/
def parseSupervisorState (supervisorOutput : Text) : MTProxyState :=
  match extractSupervisorState supervisorOutput with
  | .running | .starting => .running
  | .stopped | .exited => .stopped
  | .fatal | .backoff | .unknown => .failed

/-- The status of a file: of none, `disabled`. -/
def mtproxyStatusOf (state : MTProxyState) : Option MTProxyConfig → MTProxyStatus
  | none => ⟨.disabled, none, none, false⟩
  | some config => ⟨state, some config.port, some config.publicHost, true⟩

/-- `parse_mtproxy_status`. -/
def parseMtproxyStatus (file : Option MTProxyConfig) (supervisorOutput : Text) : MTProxyStatus :=
  mtproxyStatusOf (parseSupervisorState supervisorOutput) file

/-- `read_mtproxy_status` with the runner of the agent, which makes one call of
`supervisorctl status`. -/
def readMtproxyStatus (file : Option MTProxyConfig) (reply : SupervisorReply) :
    Except SupervisorError MTProxyStatus :=
  match supervisorMtproxy .status reply with
  | .error (.command _ _) => .ok (mtproxyStatusOf .disabled file)
  | .error (.timeout action) => .error (.timeout action)
  | .ok supervisorOutput => .ok (parseMtproxyStatus file (strip supervisorOutput))

/-! ## Routes -/

/-- How the work on the file ends: an `OSError` before it is replaced or
removed, or after. -/
inductive FileOutcome
  | done | failedBefore | failedAfter
  deriving DecidableEq, Repr

/-- What the agent meets while it handles a request. -/
structure AgentRun where
  file : FileOutcome := .done
  first : SupervisorReply
  second : SupervisorReply := .completed 0 []
  third : SupervisorReply := .completed 0 []
  deriving DecidableEq, Repr

/-- The answer of `unhandled_exception_handler`. -/
def agentError : HttpError :=
  ⟨500, "Internal server error. Details were written to the server log."⟩

abbrev AgentAnswer := Option MTProxyConfig × Except HttpError MTProxyStatus

/-- The supervisor calls of `apply_mtproxy`. -/
def startMtproxy (config : MTProxyConfig) (run : AgentRun) :
    Except SupervisorError MTProxyStatus := do
  let status ← readMtproxyStatus (some config) run.first
  let _ ← supervisorMtproxy (if status.state = .running then .restart else .start) run.second
  readMtproxyStatus (some config) run.third

/-- `apply_mtproxy`: the file is there before the first call. -/
def applyMtproxy (file : Option MTProxyConfig) (body : MTProxyBody) (run : AgentRun) :
    AgentAnswer :=
  match body.config? with
  | none => (file, .error ⟨422, "Invalid request"⟩)
  | some config =>
      match run.file with
      | .failedBefore => (file, .error agentError)
      | .failedAfter => (some config, .error agentError)
      | .done => (some config, (startMtproxy config run).mapError SupervisorError.http)

/-- `mtproxy_status`. -/
def mtproxyStatus (file : Option MTProxyConfig) (run : AgentRun) : AgentAnswer :=
  (file, (readMtproxyStatus file run.first).mapError SupervisorError.http)

/-- `disable_mtproxy`: the file is removed once the proxy is stopped. -/
def disableMtproxy (file : Option MTProxyConfig) (run : AgentRun) : AgentAnswer :=
  match supervisorMtproxy .stop run.first with
  | .error e => (file, .error e.http)
  | .ok _ =>
      match run.file with
      | .failedBefore => (file, .error agentError)
      | .failedAfter => (none, .error agentError)
      | .done => (none, .ok (mtproxyStatusOf .disabled none))

/-! ## `mtproxy.sh` -/

/-- `is_valid_port` of the text of a port. -/
def isValidPort (value : Text) : Bool :=
  value ≠ [] && value.all Char.isDigit && 1 ≤ Nat.ofDigitChars 10 value 0 &&
    Nat.ofDigitChars 10 value 0 ≤ 65535

def isHexDigit (c : Char) : Bool :=
  c.isDigit || (('a' ≤ c && c ≤ 'f') || ('A' ≤ c && c ≤ 'F'))

/-- `validate_config` on a file of the agent, in an environment that leaves the
control port and the number of workers as they are. -/
def validateConfig (config : MTProxyConfig) : Bool :=
  isValidPort (decimal config.port) && (32 ≤ config.secret.length && config.secret.all isHexDigit)

/-! ## What a status says -/

variable {file : Option MTProxyConfig} {body : MTProxyBody} {run : AgentRun}

/-- A running proxy is told with the host and the port of the file. -/
def Tells (file : Option MTProxyConfig) (status : MTProxyStatus) : Prop :=
  status.state = .running → ∃ config, file = some config ∧ status.port = some config.port ∧
    status.publicHost = some config.publicHost

theorem tells_statusOf (state : MTProxyState) : Tells file (mtproxyStatusOf state file) := by
  intro hstate
  cases file with
  | none => cases hstate
  | some config => exact ⟨config, rfl, rfl, rfl⟩

theorem readMtproxyStatus_tells {reply : SupervisorReply} {status : MTProxyStatus}
    (h : readMtproxyStatus file reply = .ok status) : Tells file status := by
  unfold readMtproxyStatus at h
  split at h
  · cases h
    exact tells_statusOf _
  · cases h
  · cases h
    exact tells_statusOf _

theorem body_config? {config : MTProxyConfig} (h : body.config? = some config) :
    config.body = body := by
  unfold MTProxyBody.config? at h
  split at h
  · cases h
    rfl
  · cases h

theorem config?_body (config : MTProxyConfig) : config.body.config? = some config :=
  dif_pos ⟨config.port_ok, config.host_ok, config.secret_ok, config.domain_ok⟩

/-- What a `PUT` leaves: the old file, or its own config. -/
theorem applyMtproxy_file (file : Option MTProxyConfig) (body : MTProxyBody) (run : AgentRun) :
    (applyMtproxy file body run).1 = file ∨
    ∃ config, body.config? = some config ∧ (applyMtproxy file body run).1 = some config := by
  unfold applyMtproxy
  cases hbody : body.config? with
  | none => exact .inl rfl
  | some config =>
      cases hfile : run.file with
      | failedBefore => exact .inl rfl
      | failedAfter => exact .inr ⟨config, rfl, rfl⟩
      | done => exact .inr ⟨config, rfl, rfl⟩

/-- A `PUT` that is answered with a status has written its config. -/
theorem applyMtproxy_ok {status : MTProxyStatus} (h : (applyMtproxy file body run).2 = .ok status) :
    ∃ config, body.config? = some config ∧ (applyMtproxy file body run).1 = some config ∧
      Tells (some config) status := by
  unfold applyMtproxy at h ⊢
  cases hbody : body.config? with
  | none =>
      rw [hbody] at h
      cases h
  | some config =>
      rw [hbody] at h
      cases hfile : run.file with
      | failedBefore =>
          rw [hfile] at h
          cases h
      | failedAfter =>
          rw [hfile] at h
          cases h
      | done =>
          rw [hfile] at h
          refine ⟨config, rfl, rfl, ?_⟩
          change (startMtproxy config run).mapError _ = _ at h
          cases hstart : startMtproxy config run with
          | error e =>
              rw [hstart] at h
              cases h
          | ok answered =>
              rw [hstart] at h
              cases h
              unfold startMtproxy at hstart
              cases hfirst : readMtproxyStatus (some config) run.first with
              | error e =>
                  rw [hfirst] at hstart
                  cases hstart
              | ok before =>
                  rw [hfirst] at hstart
                  simp only [bind, Except.bind] at hstart
                  split at hstart
                  · cases hstart
                  · exact readMtproxyStatus_tells hstart

theorem mtproxyStatus_ok {status : MTProxyStatus} (h : (mtproxyStatus file run).2 = .ok status) :
    Tells file status := by
  unfold mtproxyStatus at h
  cases hread : readMtproxyStatus file run.first with
  | error e =>
      rw [hread] at h
      cases h
  | ok answered =>
      rw [hread] at h
      cases h
      exact readMtproxyStatus_tells hread

/-- What a `DELETE` leaves: the old file, or none. -/
theorem disableMtproxy_file (file : Option MTProxyConfig) (run : AgentRun) :
    (disableMtproxy file run).1 = file ∨
    (disableMtproxy file run).1 = none := by
  unfold disableMtproxy
  split
  · exact .inl rfl
  · cases run.file with
    | failedBefore => exact .inl rfl
    | failedAfter => exact .inr rfl
    | done => exact .inr rfl

/-- A `DELETE` that is answered with a status has removed the file. -/
theorem disableMtproxy_ok {status : MTProxyStatus} (h : (disableMtproxy file run).2 = .ok status) :
    (disableMtproxy file run).1 = none ∧ status.state = .disabled := by
  unfold disableMtproxy at h ⊢
  split at h
  · cases h
  · cases hfile : run.file with
    | failedBefore =>
        rw [hfile] at h
        cases h
    | failedAfter =>
        rw [hfile] at h
        cases h
    | done =>
        rw [hfile] at h
        cases h
        exact ⟨rfl, rfl⟩

end VpnPanel.Node
