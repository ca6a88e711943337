import VpnPanel.Backend.Requests

/-!
# Operations

The rows of `async_operations`, the messages of `job_commands.py`, and the
status routes of `internal_worker_parts/operations.py`. A status route is split
where it can be overtaken: what it reads, and what its commit writes over the
row as it stands by then.
-/

namespace VpnPanel.Backend

open VpnPanel.Lib

/-- `CommandName`, also the values of the `kind` column. -/
inductive CommandName
  | syncAll | syncNode | provisionNode | healthCheckAll | healthCheckNode
  | cleanupRawTrafficSamples | remnawaveFullReconcile | remnawaveSyncUser | remnawaveDisableUser
  | telegramProxyApplyNode | telegramProxyCheckNode | telegramProxyDisableNode
  deriving DecidableEq, Repr

inductive TargetType
  | all | node | traffic | remnawave | remnawaveUser | telegramProxyNode
  deriving DecidableEq, Repr

inductive OperationStatus
  | queued | pending | running | succeeded | failed | failedByTimeout | enqueueFailed
  deriving DecidableEq, Repr

/-- The column text of a status. -/
def OperationStatus.text : OperationStatus → String
  | .queued => "queued"
  | .pending => "pending"
  | .running => "running"
  | .succeeded => "succeeded"
  | .failed => "failed"
  | .failedByTimeout => "failed_by_timeout"
  | .enqueueFailed => "enqueue_failed"

structure AsyncOperation where
  id : Nat
  kind : CommandName
  targetType : Option TargetType
  targetId : Option String
  status : OperationStatus := .queued
  error : Option String := none
  result : Option String := none
  attempts : Nat := 0
  idempotencyKey : Nat
  updatedAt : Time
  finishedAt : Option Time := none
  deriving DecidableEq, Repr

/-! ## Messages -/

/-- The JSON object on the queue, `WorkerCommand` on the worker's side. -/
structure WorkerCommand where
  command : CommandName
  idempotencyKey : Nat
  operationId : Nat
  trackOperation : Bool
  targetType : TargetType
  targetId : Option String
  createdAt : Time
  deriving DecidableEq, Repr

/-- The keyword arguments `_payload` looks up. -/
structure Overrides where
  idempotencyKey : Option Nat := none
  operationId : Option Nat := none
  trackOperation : Option Bool := none
  createdAt : Option Time := none

/-- The two random ids and the clock reading `_payload` falls back on. -/
structure Defaults where
  idempotencyKey : Nat
  operationId : Nat
  now : Time

def payload (command : CommandName) (targetType : TargetType) (targetId : Option String)
    (overrides : Overrides) (defaults : Defaults) : WorkerCommand where
  command
  idempotencyKey := overrides.idempotencyKey.getD defaults.idempotencyKey
  operationId := overrides.operationId.getD defaults.operationId
  trackOperation := overrides.trackOperation.getD true
  targetType
  targetId
  createdAt := overrides.createdAt.getD defaults.now

def syncAll := payload .syncAll .all none
def syncNode (nodeId : Option String) := payload .syncNode .node nodeId
def provisionNode (nodeId : Option String) := payload .provisionNode .node nodeId
def healthCheckAll := payload .healthCheckAll .all none
def healthCheckNode (nodeId : Option String) := payload .healthCheckNode .node nodeId
def remnawaveFullReconcile := payload .remnawaveFullReconcile .remnawave none
def remnawaveSyncUser (uuid : Option String) := payload .remnawaveSyncUser .remnawaveUser uuid
def remnawaveDisableUser (uuid : Option String) :=
  payload .remnawaveDisableUser .remnawaveUser uuid
def telegramProxyApplyNode (nodeId : Option String) :=
  payload .telegramProxyApplyNode .telegramProxyNode nodeId
def telegramProxyCheckNode (nodeId : Option String) :=
  payload .telegramProxyCheckNode .telegramProxyNode nodeId
def telegramProxyDisableNode (nodeId : Option String) :=
  payload .telegramProxyDisableNode .telegramProxyNode nodeId
def cleanupRawTrafficSamples := payload .cleanupRawTrafficSamples .traffic none

/-- The message the enqueue function of a command builds for its argument; the
functions without an argument ignore it. -/
def jobCommand : CommandName → Option String → Overrides → Defaults → WorkerCommand
  | .syncAll, _ => syncAll
  | .syncNode, id => syncNode id
  | .provisionNode, id => provisionNode id
  | .healthCheckAll, _ => healthCheckAll
  | .healthCheckNode, id => healthCheckNode id
  | .cleanupRawTrafficSamples, _ => cleanupRawTrafficSamples
  | .remnawaveFullReconcile, _ => remnawaveFullReconcile
  | .remnawaveSyncUser, uuid => remnawaveSyncUser uuid
  | .remnawaveDisableUser, uuid => remnawaveDisableUser uuid
  | .telegramProxyApplyNode, id => telegramProxyApplyNode id
  | .telegramProxyCheckNode, id => telegramProxyCheckNode id
  | .telegramProxyDisableNode, id => telegramProxyDisableNode id

/-- The target type of a command's message. -/
def CommandName.targetType : CommandName → TargetType
  | .syncAll | .healthCheckAll => .all
  | .syncNode | .provisionNode | .healthCheckNode => .node
  | .cleanupRawTrafficSamples => .traffic
  | .remnawaveFullReconcile => .remnawave
  | .remnawaveSyncUser | .remnawaveDisableUser => .remnawaveUser
  | .telegramProxyApplyNode | .telegramProxyCheckNode | .telegramProxyDisableNode =>
      .telegramProxyNode

/-- The commands whose enqueue function takes a target. -/
def CommandName.targeted : CommandName → Bool
  | .syncAll | .healthCheckAll | .cleanupRawTrafficSamples | .remnawaveFullReconcile => false
  | _ => true

theorem jobCommand_command (name : CommandName) (target : Option String) (o : Overrides)
    (d : Defaults) : (jobCommand name target o d).command = name := by cases name <;> rfl

theorem jobCommand_operationId (name : CommandName) (target : Option String) (o : Overrides)
    (d : Defaults) :
    (jobCommand name target o d).operationId = o.operationId.getD d.operationId := by
  cases name <;> rfl

theorem jobCommand_trackOperation (name : CommandName) (target : Option String) (o : Overrides)
    (d : Defaults) : (jobCommand name target o d).trackOperation = o.trackOperation.getD true := by
  cases name <;> rfl

theorem jobCommand_targetType (name : CommandName) (target : Option String) (o : Overrides)
    (d : Defaults) : (jobCommand name target o d).targetType = name.targetType := by
  cases name <;> rfl

theorem jobCommand_targetId (name : CommandName) (target : Option String) (o : Overrides)
    (d : Defaults) :
    (jobCommand name target o d).targetId = if name.targeted then target else none := by
  cases name <;> rfl

/-! ## Jobs -/

/-- One `enqueue_operation` call: the arguments of `new_operation`, whose kind
also names the enqueue function and whose target is its argument. -/
structure Job where
  kind : CommandName
  targetType : Option TargetType
  targetId : Option String
  deriving DecidableEq, Repr

def newOperation (job : Job) (id idempotencyKey : Nat) (now : Time) : AsyncOperation where
  id
  kind := job.kind
  targetType := job.targetType
  targetId := job.targetId
  idempotencyKey
  updatedAt := now

/-- The message `enqueue_operation` publishes for a row. -/
def operationCommand (operation : AsyncOperation) (now : Time) : WorkerCommand :=
  jobCommand operation.kind operation.targetId
    { idempotencyKey := some operation.idempotencyKey, operationId := some operation.id }
    ⟨operation.idempotencyKey, operation.id, now⟩

theorem operationCommand_operationId (operation : AsyncOperation) (now : Time) :
    (operationCommand operation now).operationId = operation.id := jobCommand_operationId _ _ _ _

/-- The text of a node id in a target column. -/
def nodeText (id : NodeId) : String := toString id

/-- The jobs of the account, device and node routes. -/
def Command.job : Command → Job
  | .syncNode id => ⟨.syncNode, some .node, some (nodeText id)⟩
  | .provisionNode id => ⟨.provisionNode, some .node, some (nodeText id)⟩
  | .remnawaveDisableUser uuid => ⟨.remnawaveDisableUser, some .remnawaveUser, some uuid⟩

/-- `api_trigger_sync`. -/
def triggerSyncJobs : List Job :=
  [⟨.syncAll, some .all, none⟩, ⟨.cleanupRawTrafficSamples, some .traffic, none⟩]

/-- `trigger_remnawave_sync`. -/
def triggerRemnawaveSyncJob : Job := ⟨.remnawaveFullReconcile, some .remnawave, none⟩

/-- `trigger_remnawave_user_sync`. -/
def triggerRemnawaveUserSyncJob (uuid : String) : Job :=
  ⟨.remnawaveSyncUser, some .remnawaveUser, some uuid⟩

/-- `_enqueue_apply_operation`: the row says `node`, the command says
`telegram_proxy_node`. -/
def telegramApplyJob (nodeId : NodeId) : Job :=
  ⟨.telegramProxyApplyNode, some .node, some (nodeText nodeId)⟩

/-- `disable_telegram_proxy`, with the same row target type. -/
def telegramDisableJob (nodeId : NodeId) : Job :=
  ⟨.telegramProxyDisableNode, some .node, some (nodeText nodeId)⟩

/-- `_enqueue_provision_operation`. -/
def provisionJob (nodeId : NodeId) : Job := Command.job (.provisionNode nodeId)

/-- `RETRYABLE_OPERATION_KINDS`. -/
def CommandName.retryable : CommandName → Bool
  | .syncAll | .syncNode | .provisionNode | .cleanupRawTrafficSamples
  | .remnawaveFullReconcile | .remnawaveSyncUser | .remnawaveDisableUser => true
  | _ => false

/-- `_can_retry`. -/
def canRetry (operation : AsyncOperation) : Bool :=
  operation.kind.retryable &&
    operation.status ∈ [.failed, .failedByTimeout, .enqueueFailed]

/-- `_enqueue_retry`: a new row with the old one's kind and target. -/
def retryJob (operation : AsyncOperation) : Job :=
  ⟨operation.kind, operation.targetType, operation.targetId⟩

def operationNotFound : HttpError := ⟨404, "Operation not found"⟩

/-- `api_retry_operation`. -/
def apiRetryOperation (operations : List AsyncOperation) (id : Nat) :
    Except HttpError Job :=
  match Rows.get? AsyncOperation.id operations id with
  | none => .error operationNotFound
  | some operation =>
      if canRetry operation then .ok (retryJob operation)
      else .error ⟨409, "Operation cannot be retried"⟩

/-! ## Status routes -/

inductive StatusCall
  | start
  | succeed (result : Option String)
  | fail (error result : Option String)
  | timeout
  deriving DecidableEq, Repr

/-- The statuses `_ensure_status` lets the route pass. -/
def StatusCall.allowed : StatusCall → List OperationStatus
  | .start => [.queued, .pending]
  | .succeed _ | .fail _ _ | .timeout => [.running]

/-- The status the route writes. -/
def StatusCall.target : StatusCall → OperationStatus
  | .start => .running
  | .succeed _ => .succeeded
  | .fail _ _ => .failed
  | .timeout => .failedByTimeout

/-- What the check of a status route lets through: the row it read. -/
def ensureStatus (operations : List AsyncOperation) (id : Nat) (call : StatusCall) :
    Except HttpError AsyncOperation :=
  match Rows.get? AsyncOperation.id operations id with
  | none => .error operationNotFound
  | some operation =>
      if operation.status ∈ call.allowed then .ok operation
      else
        let status := operation.status.text
        .error ⟨409, s!"Operation status '{status}' cannot transition here"⟩

/-- An `UPDATE` names the columns that differ from the row the session read;
the others keep what stands in the table. -/
def changed {α : Type} [DecidableEq α] (read value current : α) : α :=
  if value = read then current else value

/-- The commit of a status route that read `read`, over the row as it is. -/
def StatusCall.write (call : StatusCall) (read current : AsyncOperation) (now : Time) :
    AsyncOperation :=
  match call with
  | .start => { current with
      status := .running
      attempts := read.attempts + 1
      error := changed read.error none current.error
      updatedAt := now }
  | .succeed result => { current with
      status := .succeeded
      error := changed read.error none current.error
      result := changed read.result result current.result
      finishedAt := some now
      updatedAt := now }
  | .fail error result => { current with
      status := .failed
      error := changed read.error
        (if truthy error then error else some "Worker reported failure") current.error
      result := changed read.result result current.result
      finishedAt := some now
      updatedAt := now }
  | .timeout => { current with
      status := .failedByTimeout
      error := changed read.error
        (some "Operation exceeded running timeout and needs manual action") current.error
      finishedAt := some now
      updatedAt := now }

/-- The last write of `enqueue_operation` once its publish raised. No status is
read before it. -/
def markEnqueueFailed (error : String) (current : AsyncOperation) (now : Time) : AsyncOperation :=
  { current with
    status := .enqueueFailed
    error := some (error.take 500).toString
    updatedAt := now }

/-- A status route that nothing overtakes. -/
def statusRoute (operations : List AsyncOperation) (id : Nat) (call : StatusCall)
    (now : Time) : Except HttpError (List AsyncOperation) := do
  let operation ← ensureStatus operations id call
  return Rows.save AsyncOperation.id (call.write operation operation now) operations

/-- `stale_operations`. -/
def staleOperations (operations : List AsyncOperation) (status : OperationStatus)
    (olderThanSeconds : Nat) (now : Time) : List AsyncOperation :=
  (operations.filter fun row =>
    row.status = status ∧ row.updatedAt ≤ now - 1000000 * olderThanSeconds).insertionSort
      (·.updatedAt ≤ ·.updatedAt)

/-! ### What the routes do to a row -/

variable {operations : List AsyncOperation} {id : Nat} {call : StatusCall}

theorem ensureStatus_ok {operation : AsyncOperation}
    (h : ensureStatus operations id call = .ok operation) :
    Rows.get? AsyncOperation.id operations id = some operation ∧
      operation.status ∈ call.allowed := by
  unfold ensureStatus at h
  split at h
  · cases h
  · next row hrow =>
      split at h
      · next hallowed =>
          cases h
          exact ⟨hrow, hallowed⟩
      · cases h

/-- A row that is there is answered by its transition or by a 409. -/
theorem ensureStatus_error {operation : AsyncOperation} {e : HttpError}
    (hget : Rows.get? AsyncOperation.id operations id = some operation)
    (h : ensureStatus operations id call = .error e) :
    e.statusCode = 409 ∧ operation.status ∉ call.allowed := by
  unfold ensureStatus at h
  rw [hget] at h
  dsimp only at h
  split at h
  · cases h
  · next hnot =>
      cases h
      exact ⟨rfl, hnot⟩

theorem write_id (call : StatusCall) (read current : AsyncOperation) (now : Time) :
    (call.write read current now).id = current.id := by cases call <;> rfl

theorem write_status (call : StatusCall) (read current : AsyncOperation) (now : Time) :
    (call.write read current now).status = call.target := by cases call <;> rfl

/-- The job of a row never changes. -/
theorem write_job (call : StatusCall) (read current : AsyncOperation) (now : Time) :
    retryJob (call.write read current now) = retryJob current := by cases call <;> rfl

end VpnPanel.Backend
