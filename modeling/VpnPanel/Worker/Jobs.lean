import VpnPanel.Backend.Webhook

/-!
# Jobs

The backend's routes, the broker and the worker's status requests and recovery
pass as one system over `async_operations`. A route in flight is the list of
what it has still to do, so any other route, request or pass may come between
the commit of an operation row, the publish of its message and the write that
follows a failed publish; a status request may be overtaken between its read
and its commit.
-/

namespace VpnPanel.Worker

open VpnPanel.Lib VpnPanel.Backend

/-! ## Messages rebuilt from a row -/

/-- `TELEGRAM_PROXY_COMMANDS`. -/
def telegramProxyCommand : CommandName → Bool
  | .telegramProxyApplyNode | .telegramProxyCheckNode | .telegramProxyDisableNode => true
  | _ => false

/-- `WorkerCommand.validate_target_type`; `none` is a validation error. -/
def validateTargetType (command : WorkerCommand) : Option WorkerCommand :=
  if telegramProxyCommand command.command ∧ command.targetType ≠ .telegramProxyNode then none
  else some command

/-- `command_from_operation`. -/
def commandFromOperation (operation : AsyncOperation) : Option WorkerCommand :=
  validateTargetType {
    command := operation.kind
    idempotencyKey := operation.id
    operationId := operation.id
    trackOperation := true
    targetType := operation.targetType.getD .all
    targetId := operation.targetId
    createdAt := operation.updatedAt }

/-- `_new_command`: the worker's own schedule is not tracked. -/
def newCommand (name : CommandName) (targetType : TargetType) (id : Nat) (now : Time) :
    WorkerCommand where
  command := name
  idempotencyKey := id
  operationId := id
  trackOperation := false
  targetType
  targetId := none
  createdAt := now

/-! ## The state -/

/-- What a route, or the worker's provision recovery, has still to do. -/
inductive Task
  /-- Commit the row of a job. -/
  | create (job : Job)
  /-- Publish the message of a committed row. -/
  | publish (operation : AsyncOperation)
  /-- Its publish raised: write `enqueue_failed`. -/
  | markFailed (operation : AsyncOperation) (error : String)
  /-- Publish a webhook's job, which has no row. -/
  | send (name : CommandName) (target : Option String)
  /-- Publish the command rebuilt from a committed row. -/
  | republish (operation : AsyncOperation)

/-- How a publish ends. -/
inductive Publish
  | accepted
  /-- It raised, and the broker has no message. -/
  | refused (error : String)
  /-- It raised, and the broker has the message. -/
  | unconfirmed (error : String)

/-- Whether the broker has the message. -/
def Publish.delivers : Publish → Bool
  | .accepted | .unconfirmed _ => true
  | .refused _ => false

/-- A status request between its read and its commit; it passed its check. -/
structure StatusRequest where
  call : StatusCall
  read : AsyncOperation
  admitted : read.status ∈ call.allowed

/-- A committed write of a status. -/
structure Move where
  id : Nat
  before : OperationStatus
  after : OperationStatus
  deriving DecidableEq, Repr

/-- What a pass of `recover_stale_operations` has found and done. -/
structure Pass where
  /-- The stale queued rows it listed. -/
  queued : List AsyncOperation
  republished : List WorkerCommand := []
  /-- The stale running rows it listed. -/
  running : List AsyncOperation := []
  timedOut : List Move := []

inductive Recovery
  | sleeping
  | republishing (pass : Pass) (rest : List AsyncOperation)
  | timingOut (pass : Pass) (rest : List AsyncOperation)
  /-- An exception left the loop, and with it the worker. -/
  | stopped

structure TelegramProxySettings where
  enabled : Bool := false
  secretEncrypted : Option String := none
  primaryNodeId : Option NodeId := none

structure Jobs where
  db : Db := {}
  clock : Time := 0
  remnawaveEnabled : Bool := false
  telegram : TelegramProxySettings := {}
  webhookEvents : List RemnawaveWebhookEvent := []
  operations : List AsyncOperation := []
  routes : List (List Task) := []
  requests : List StatusRequest := []
  recovery : Recovery := .sleeping
  /-- Every message the broker accepted. -/
  published : List WorkerCommand := []
  /-- The operations of the start requests that were accepted. `_dispatch` runs
  the job's handler once for each. -/
  accepted : List Nat := []
  moves : List Move := []
  passes : List Pass := []
  nextId : Nat := 0

/-! ## Elementary changes -/

namespace Jobs

/-- A route enters with its tasks. -/
def accept (s : Jobs) (tasks : List Task) : Jobs := { s with routes := s.routes ++ [tasks] }

/-- A route goes on with these tasks. -/
def continue_ (s : Jobs) (route : Nat) (tasks : List Task) : Jobs :=
  { s with routes := s.routes.set route tasks }

/-- Commit the rows of new operations. -/
def insertRows (s : Jobs) (rows : List AsyncOperation) (nextId : Nat) : Jobs :=
  { s with operations := s.operations ++ rows, nextId }

/-- Commit a status write over the row `current`. -/
def writeRow (s : Jobs) (current row : AsyncOperation) : Jobs :=
  { s with
    operations := Rows.save AsyncOperation.id row s.operations
    moves := s.moves ++ [⟨current.id, current.status, row.status⟩] }

def deliver (s : Jobs) (command : WorkerCommand) : Jobs :=
  { s with published := s.published ++ [command] }

def operation? (s : Jobs) (id : Nat) : Option AsyncOperation :=
  Rows.get? AsyncOperation.id s.operations id

end Jobs

/-- The rows of a list of jobs, each with two ids from the supply. -/
def newOperations : List Job → Nat → Time → List AsyncOperation
  | [], _, _ => []
  | job :: rest, id, now => newOperation job id (id + 1) now :: newOperations rest (id + 2) now

/-! ## Routes -/

/-- Commit the rows of the jobs at once and publish them one by one
(`_persist_and_publish_sync`). -/
def persistAndPublish (s : Jobs) (jobs : List Job) (now : Time) : Jobs :=
  let rows := newOperations jobs s.nextId now
  (s.insertRows rows (s.nextId + 2 * jobs.length)).accept (rows.map .publish)

/-- Whether a route persists its operations together with its other rows. -/
def persistsFirst : Request → Bool
  | .addDevice _ _ | .deleteDevice _ _ => true
  | _ => false

/-- A route of the panel, and the operations it queues. -/
def panelRoute (cfg : Config) (s : Jobs) (now : Time) (request : Request) : Jobs :=
  match handle cfg s.db now request with
  | .error _ => s
  | .ok effect =>
      let s := { s with db := effect.db }
      let jobs := effect.queued.map Command.job
      if persistsFirst request then persistAndPublish s jobs now
      else s.accept (jobs.map .create)

/-- The primary node of the proxy (`_primary_node`). -/
def Jobs.primaryNode (s : Jobs) : Option Node := s.telegram.primaryNodeId.bind s.db.node?

def applyTelegramProxy (s : Jobs) : Jobs :=
  if s.telegram.enabled ∧ truthy s.telegram.secretEncrypted then
    match s.primaryNode with
    | none => s
    | some node => s.accept [.create (telegramApplyJob node.id)]
  else s

def disableTelegramProxy (s : Jobs) : Jobs :=
  match s.primaryNode with
  | none => s
  | some node =>
      let s := { s with telegram := { s.telegram with enabled := false } }
      s.accept [.create (telegramDisableJob node.id)]

/-- `update_telegram_proxy_settings`. -/
def updateTelegramProxySettings (s : Jobs) (enabled : Bool) (primaryNodeId : Option NodeId)
    (secret : Option String) : Jobs :=
  if primaryNodeId.isSome ∧ (primaryNodeId.bind s.db.node?).isNone then s
  else { s with telegram := {
    enabled, primaryNodeId, secretEncrypted := secret.or s.telegram.secretEncrypted } }

/-- `api_provision_node`. -/
def apiProvisionNode (s : Jobs) (nodeId : NodeId) : Jobs :=
  match s.db.node? nodeId with
  | none => s
  | some node =>
      let db := s.db.saveNode { node with provisionStatus := .pending, lastError := none }
      { s with db }.accept [.create (provisionJob node.id)]

def webhookRoute (s : Jobs) (payload : WebhookPayload) : Jobs :=
  match remnawaveWebhook s.webhookEvents payload with
  | .error _ | .ok .alreadyProcessed => s
  | .ok (.recorded row name target) =>
      { s with webhookEvents := s.webhookEvents ++ [row] }.accept [.send name target]

def retryRoute (s : Jobs) (id : Nat) : Jobs :=
  match apiRetryOperation s.operations id with
  | .error _ => s
  | .ok job => s.accept [.create job]

/-- `node_provision_recovery` for the nodes it finds due; the worker publishes
the rows it answers with. -/
def provisionRecovery (s : Jobs) (nodeIds : List NodeId) (now : Time) : Jobs :=
  let rows := newOperations (nodeIds.map provisionJob) s.nextId now
  (s.insertRows rows (s.nextId + 2 * nodeIds.length)).accept (rows.map .republish)

/-! ## Routes in flight -/

/-- The row is committed before its message is published. -/
def createTask (s : Jobs) (route : Nat) (job : Job) (rest : List Task) (now : Time) : Jobs :=
  let operation := newOperation job s.nextId (s.nextId + 1) now
  (s.insertRows [operation] (s.nextId + 2)).continue_ route (.publish operation :: rest)

/-- The publish of `enqueue_operation`; what it raises is caught. -/
def publishTask (s : Jobs) (route : Nat) (operation : AsyncOperation) (rest : List Task)
    (outcome : Publish) (now : Time) : Jobs :=
  match outcome with
  | .accepted => (s.deliver (operationCommand operation now)).continue_ route rest
  | .refused error => s.continue_ route (.markFailed operation error :: rest)
  | .unconfirmed error =>
      (s.deliver (operationCommand operation now)).continue_ route
        (.markFailed operation error :: rest)

def markFailedTask (s : Jobs) (route : Nat) (operation : AsyncOperation) (error : String)
    (rest : List Task) (now : Time) : Jobs :=
  match s.operation? operation.id with
  | none => s.continue_ route []
  | some current =>
      (s.writeRow current (markEnqueueFailed error current now)).continue_ route rest

/-- The publish of a webhook's job, under random ids; what it raises ends the
request. -/
def sendTask (s : Jobs) (route : Nat) (name : CommandName) (target : Option String)
    (outcome : Publish) (now : Time) : Jobs :=
  let command := jobCommand name target {} ⟨s.nextId, s.nextId + 1, now⟩
  let s := { s with nextId := s.nextId + 2 }
  match outcome with
  | .accepted | .unconfirmed _ => (s.deliver command).continue_ route []
  | .refused _ => s.continue_ route []

/-- `recover_pending_provisions` logs what it raises and gives the rest up. -/
def republishTask (s : Jobs) (route : Nat) (operation : AsyncOperation) (rest : List Task)
    (outcome : Publish) : Jobs :=
  match commandFromOperation operation with
  | none => s.continue_ route []
  | some command =>
      match outcome with
      | .accepted => (s.deliver command).continue_ route rest
      | .refused _ => s.continue_ route []
      | .unconfirmed _ => (s.deliver command).continue_ route []

/-- The next task of a route. -/
def runTask (s : Jobs) (route : Nat) (task : Task) (rest : List Task) (outcome : Publish)
    (now : Time) : Jobs :=
  match task with
  | .create job => createTask s route job rest now
  | .publish operation => publishTask s route operation rest outcome now
  | .markFailed operation error => markFailedTask s route operation error rest now
  | .send name target => sendTask s route name target outcome now
  | .republish operation => republishTask s route operation rest outcome

/-! ## Status requests -/

/-- The read of a status request; a 404 or 409 ends it. -/
def readStatus (s : Jobs) (id : Nat) (call : StatusCall) : Jobs :=
  match h : ensureStatus s.operations id call with
  | .error _ => s
  | .ok operation =>
      { s with requests := s.requests ++ [⟨call, operation, (ensureStatus_ok h).2⟩] }

/-- The accepted starts after a status write. -/
def acceptedAfter (accepted : List Nat) (id : Nat) : StatusCall → List Nat
  | .start => accepted ++ [id]
  | _ => accepted

/-- The commit of a status request over the row as it stands. -/
def commitStatus (s : Jobs) (index : Nat) (request : StatusRequest) (now : Time) : Jobs :=
  let s := { s with requests := s.requests.eraseIdx index }
  match s.operation? request.read.id with
  | none => s
  | some current =>
      { s.writeRow current (request.call.write request.read current now) with
        accepted := acceptedAfter s.accepted current.id request.call }

/-! ## The recovery pass -/

/-- `Settings.stale_after_sec` and `Settings.running_timeout_sec`. -/
structure RecoverySettings where
  staleAfterSec : Nat := 30
  runningTimeoutSec : Nat := 300

/-- One step of `recover_stale_operations`: a listing, a publish or a timeout
request. The broker takes the messages, and only the answers of the status
route end the loop. -/
def recover (settings : RecoverySettings) (s : Jobs) (now : Time) : Option Jobs :=
  match s.recovery with
  | .sleeping =>
      let queued := staleOperations s.operations .queued settings.staleAfterSec now
      some { s with recovery := .republishing { queued } queued }
  | .republishing pass (operation :: rest) =>
      match commandFromOperation operation with
      | none => some { s with recovery := .stopped }
      | some command =>
          let pass := { pass with republished := pass.republished ++ [command] }
          some { s.deliver command with recovery := .republishing pass rest }
  | .republishing pass [] =>
      let running := staleOperations s.operations .running settings.runningTimeoutSec now
      some { s with recovery := .timingOut { pass with running } running }
  | .timingOut pass (operation :: rest) =>
      match s.operation? operation.id with
      | none => some { s with recovery := .stopped }
      | some current =>
          if current.status ∈ StatusCall.timeout.allowed then
            let row := StatusCall.timeout.write current current now
            let pass := { pass with
              timedOut := pass.timedOut ++ [⟨current.id, current.status, row.status⟩] }
            some { s.writeRow current row with recovery := .timingOut pass rest }
          else some { s with recovery := .stopped }
  | .timingOut pass [] => some { s with recovery := .sleeping, passes := s.passes ++ [pass] }
  | .stopped => none

/-! ## The system -/

inductive Action
  | request (request : Request)
  | triggerSync
  | triggerRemnawaveSync
  | triggerRemnawaveUserSync (uuid : String)
  | updateRemnawaveSettings (enabled : Bool)
  | updateTelegramProxySettings (enabled : Bool) (primaryNodeId : Option NodeId)
      (secret : Option String)
  | applyTelegramProxy
  | disableTelegramProxy
  | provisionNode (nodeId : NodeId)
  | provisionRecovery (nodeIds : List NodeId)
  | retryOperation (id : Nat)
  | webhook (payload : WebhookPayload)
  | advance (route : Nat) (outcome : Publish)
  | readStatus (id : Nat) (call : StatusCall)
  | commitStatus (index : Nat)
  | schedule (name : CommandName) (targetType : TargetType)
  | recover

structure JobEvent where
  now : Time
  action : Action

def act (cfg : Config) (settings : RecoverySettings) (s : Jobs) (now : Time) :
    Action → Option Jobs
  | .request request => some (panelRoute cfg s now request)
  | .triggerSync => some (s.accept (triggerSyncJobs.map .create))
  | .triggerRemnawaveSync => some (s.accept [.create triggerRemnawaveSyncJob])
  | .triggerRemnawaveUserSync uuid =>
      some (if s.remnawaveEnabled then s.accept [.create (triggerRemnawaveUserSyncJob uuid)] else s)
  | .updateRemnawaveSettings enabled => some { s with remnawaveEnabled := enabled }
  | .updateTelegramProxySettings enabled primaryNodeId secret =>
      some (updateTelegramProxySettings s enabled primaryNodeId secret)
  | .applyTelegramProxy => some (applyTelegramProxy s)
  | .disableTelegramProxy => some (disableTelegramProxy s)
  | .provisionNode nodeId => some (apiProvisionNode s nodeId)
  | .provisionRecovery nodeIds => some (provisionRecovery s nodeIds now)
  | .retryOperation id => some (retryRoute s id)
  | .webhook payload => some (webhookRoute s payload)
  | .advance route outcome =>
      match s.routes[route]? with
      | some (task :: rest) => some (runTask s route task rest outcome now)
      | _ => none
  | .readStatus id call => some (readStatus s id call)
  | .commitStatus index => (s.requests[index]?).map (commitStatus s index · now)
  | .schedule name targetType =>
      some ({ s with nextId := s.nextId + 1 }.deliver (newCommand name targetType s.nextId now))
  | .recover => recover settings s now

/-- The system, from an empty database, under a clock that never goes back. -/
def jobs (cfg : Config) (settings : RecoverySettings) : TSys Jobs JobEvent where
  init := {}
  step s event :=
    if event.now < s.clock then none
    else act cfg settings { s with clock := event.now } event.now event.action

end VpnPanel.Worker
