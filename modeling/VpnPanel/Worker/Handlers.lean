import VpnPanel.Worker.Jobs

/-!
# Commands through the queue

`CommandHandler.handle` and `_dispatch`, the wrapper of `run`, and the retry
code of `RabbitQueue._handle_message`: what becomes of one message, from its
first delivery to its last. The job itself is a parameter: what its handler
does on its first, second, … execution.
-/

namespace VpnPanel.Worker

open VpnPanel.Lib VpnPanel.Backend

/-- What one execution of a job's handler ends with. -/
inductive JobOutcome
  | returned (result : Option String)
  | raised (error : String)
  deriving DecidableEq, Repr

/-- The exceptions `handle` sees. -/
inductive Failure
  | http (error : HttpError)
  | job (error : String)
  deriving DecidableEq, Repr

/-- `str(exc)`; of an HTTP error the detail. -/
def Failure.text : Failure → String
  | .http error => error.detail
  | .job error => error

/-- The rows the backend's status routes work on, and how often the job was
executed. -/
structure Execution where
  operations : List AsyncOperation
  runs : Nat := 0

variable (job : Nat → JobOutcome)

/-- The part of `_dispatch` after the start of a tracked operation. -/
def runJob (w : Execution) (command : WorkerCommand) (now : Time) :
    Except Failure (Option String) × Execution :=
  let outcome := job w.runs
  let w := { w with runs := w.runs + 1 }
  match outcome with
  | .raised error => (.error (.job error), w)
  | .returned result =>
      if command.trackOperation then
        match statusRoute w.operations command.operationId (.succeed result) now with
        | .error error => (.error (.http error), w)
        | .ok operations => (.ok result, { w with operations })
      else (.ok result, w)

/-- `_dispatch`; `none` when the operation is already handled. -/
def dispatch (w : Execution) (command : WorkerCommand) (now : Time) :
    Except Failure (Option (Option String)) × Execution :=
  if command.trackOperation then
    match statusRoute w.operations command.operationId .start now with
    | .error error =>
        if error.statusCode = 409 then (.ok none, w) else (.error (.http error), w)
    | .ok operations =>
        let (result, w) := runJob job { w with operations } command now
        (result.map some, w)
  else
    let (result, w) := runJob job w command now
    (result.map some, w)

/-- `CommandResult`. -/
structure CommandResult where
  ok : Bool
  detail : Option String := none
  result : Option String := none
  deriving DecidableEq, Repr

/-- `CommandHandler.handle`: a failure becomes a result, unless its report to
the backend fails in turn. -/
def handleCommand (w : Execution) (command : WorkerCommand) (now : Time) :
    Except Failure CommandResult × Execution :=
  match dispatch job w command now with
  | (.ok none, w) => (.ok { ok := true, result := some "operation already handled" }, w)
  | (.ok (some result), w) => (.ok { ok := true, result }, w)
  | (.error failure, w) =>
      let failed : CommandResult := { ok := false, detail := some failure.text }
      if command.trackOperation then
        match statusRoute w.operations command.operationId (.fail (some failure.text) none) now with
        | .error error => (.error (.http error), w)
        | .ok operations => (.ok failed, { w with operations })
      else (.ok failed, w)

/-- `handle_queue_command` of `run`: the result is dropped. -/
def handleQueueCommand (w : Execution) (command : WorkerCommand) (now : Time) :
    Except Failure Unit × Execution :=
  let (result, w) := handleCommand job w command now
  (result.map fun _ => (), w)

/-! ## The queue -/

/-- A message with its `x-retry-count` header. -/
structure Message where
  command : WorkerCommand
  retryCount : Nat := 0
  deriving DecidableEq, Repr

/-- `RetryPolicy`. -/
structure RetryPolicy where
  maxAttempts : Nat := 3

/-- Where a handled message goes. -/
inductive Acked
  | done
  | retry (message : Message) (delay : String)
  | poison (message : Message)
  deriving DecidableEq, Repr

/-- `RETRY_DELAYS`, by the number of attempts so far. -/
def retryDelay (attempts : Nat) : String :=
  match min (attempts - 1) 2 with
  | 0 => "10s"
  | 1 => "1m"
  | _ => "10m"

/-- `_retry_or_dead_letter`. -/
def retryOrDeadLetter (policy : RetryPolicy) (message : Message) : Acked :=
  let attempts := message.retryCount + 1
  let message := { message with retryCount := attempts }
  if attempts ≥ policy.maxAttempts then .poison message else .retry message (retryDelay attempts)

/-- `_handle_message`. -/
def handleMessage (policy : RetryPolicy) (w : Execution) (message : Message) (now : Time) :
    Acked × Execution :=
  match handleQueueCommand job w message.command now with
  | (.ok _, w) => (.done, w)
  | (.error _, w) => (retryOrDeadLetter policy message, w)

theorem retryOrDeadLetter_retry {policy : RetryPolicy} {message next : Message} {delay : String}
    (h : retryOrDeadLetter policy message = .retry next delay) :
    next.retryCount = message.retryCount + 1 ∧ next.retryCount < policy.maxAttempts := by
  unfold retryOrDeadLetter at h
  dsimp only at h
  split at h
  · cases h
  · next hlt =>
      cases h
      exact ⟨rfl, Nat.lt_of_not_le hlt⟩

theorem handleMessage_retry {policy : RetryPolicy} {w w' : Execution} {message next : Message}
    {delay : String} {now : Time}
    (h : handleMessage job policy w message now = (.retry next delay, w')) :
    next.retryCount = message.retryCount + 1 ∧ next.retryCount < policy.maxAttempts := by
  unfold handleMessage at h
  split at h
  · cases h
  · exact retryOrDeadLetter_retry (Prod.mk.inj h).1

/-- A message through all its deliveries, the `n`-th at `clock n`: what reaches
the poison queue, and the executions. -/
def consume (policy : RetryPolicy) (clock : Nat → Time) (w : Execution) (message : Message) :
    List Message × Execution :=
  match h : handleMessage job policy w message (clock message.retryCount) with
  | (.done, w) => ([], w)
  | (.poison message, w) => ([message], w)
  | (.retry next _, w) =>
      have := handleMessage_retry job h
      consume policy clock w next
termination_by policy.maxAttempts - message.retryCount

/-! ## Handled commands -/

variable {job}
variable {w : Execution} {command : WorkerCommand} {now : Time}

theorem statusRoute_ok {operations : List AsyncOperation} {id : Nat} {call : StatusCall}
    {row : AsyncOperation} (hget : Rows.get? AsyncOperation.id operations id = some row)
    (hallowed : row.status ∈ call.allowed) :
    statusRoute operations id call now =
      .ok (Rows.save AsyncOperation.id (call.write row row now) operations) := by
  have hensure : ensureStatus operations id call = .ok row := by
    unfold ensureStatus
    rw [hget]
    exact if_pos hallowed
  unfold statusRoute
  rw [hensure]
  rfl

/-- The row after a status route. -/
theorem get?_write {operations : List AsyncOperation} {id : Nat} {call : StatusCall}
    {row : AsyncOperation} (hget : Rows.get? AsyncOperation.id operations id = some row) :
    Rows.get? AsyncOperation.id
      (Rows.save AsyncOperation.id (call.write row row now) operations) id =
        some (call.write row row now) := by
  have hid : (call.write row row now).id = id :=
    (write_id call row row now).trans (Rows.key_of_get? hget)
  have hsaved : Rows.get? AsyncOperation.id operations (call.write row row now).id = some row := by
    rw [hid]
    exact hget
  rw [← hid]
  exact Rows.get?_save_self hsaved

/-- A started operation's job is executed once. -/
theorem runJob_runs (job : Nat → JobOutcome) (w : Execution) (command : WorkerCommand)
    (now : Time) : (runJob job w command now).2.runs = w.runs + 1 := by
  unfold runJob
  dsimp only
  split
  · rfl
  · split
    · split <;> rfl
    · rfl

/-- The start of a row that may start. -/
theorem dispatch_started (htracked : command.trackOperation = true) {row : AsyncOperation}
    (hrow : ensureStatus w.operations command.operationId .start = .ok row) :
    (dispatch job w command now).2.runs = w.runs + 1 := by
  obtain ⟨hget, hallowed⟩ := ensureStatus_ok hrow
  unfold dispatch
  rw [if_pos htracked, statusRoute_ok hget hallowed]
  exact runJob_runs job _ command now

/-- A 409 is taken for a delivery that came too late. -/
theorem dispatch_conflict (htracked : command.trackOperation = true) {error : HttpError}
    (hrow : ensureStatus w.operations command.operationId .start = .error error)
    (hcode : error.statusCode = 409) : dispatch job w command now = (.ok none, w) := by
  have hroute : statusRoute w.operations command.operationId .start now = .error error := by
    unfold statusRoute
    rw [hrow]
    rfl
  unfold dispatch
  rw [if_pos htracked, hroute]
  exact if_pos hcode

/-- The backend has the operation of a tracked command, ready to start. -/
def Ready (w : Execution) (command : WorkerCommand) : Prop :=
  command.trackOperation = true → ∃ row,
    Rows.get? AsyncOperation.id w.operations command.operationId = some row ∧
      row.status ∈ StatusCall.start.allowed

/-- The operation of a tracked command is running. -/
def Running (w : Execution) (command : WorkerCommand) : Prop :=
  command.trackOperation = true → ∃ row,
    Rows.get? AsyncOperation.id w.operations command.operationId = some row ∧
      row.status = .running

/-- A running operation may be reported as succeeded or failed. -/
theorem Running.report (h : Running w command) (htracked : command.trackOperation = true)
    (call : StatusCall) (hcall : call ≠ .start) (now : Time) :
    ∃ operations, statusRoute w.operations command.operationId call now = .ok operations := by
  obtain ⟨row, hget, hrunning⟩ := h htracked
  refine ⟨_, statusRoute_ok hget ?_⟩
  rw [hrunning]
  cases call with
  | start => exact absurd rfl hcall
  | _ => exact List.mem_cons_self

/-- Past the start, only the job decides. -/
theorem dispatch_ready (job : Nat → JobOutcome) (h : Ready w command) (now : Time) :
    ∃ operations, Running ⟨operations, w.runs⟩ command ∧
      dispatch job w command now =
        ((runJob job ⟨operations, w.runs⟩ command now).1.map some,
          (runJob job ⟨operations, w.runs⟩ command now).2) := by
  by_cases htracked : command.trackOperation = true
  · obtain ⟨row, hget, hallowed⟩ := h htracked
    refine ⟨Rows.save AsyncOperation.id (StatusCall.start.write row row now) w.operations,
      fun _ => ⟨_, get?_write hget, rfl⟩, ?_⟩
    unfold dispatch
    rw [if_pos htracked, statusRoute_ok hget hallowed]
  · refine ⟨w.operations, fun htrue => absurd htrue htracked, ?_⟩
    unfold dispatch
    rw [if_neg htracked]

/-- A job that returns is reported, and one that raises is passed on. -/
theorem runJob_cases (job : Nat → JobOutcome) (h : Running w command) (now : Time) :
    (∃ result operations, runJob job w command now = (.ok result, ⟨operations, w.runs + 1⟩)) ∨
      ∃ error, runJob job w command now = (.error (.job error), ⟨w.operations, w.runs + 1⟩) := by
  unfold runJob
  cases job w.runs with
  | raised error => exact .inr ⟨error, rfl⟩
  | returned result =>
      refine .inl ⟨result, ?_⟩
      dsimp only
      by_cases htracked : command.trackOperation = true
      · obtain ⟨operations, hroute⟩ := h.report htracked (.succeed result) nofun now
        rw [if_pos htracked, hroute]
        exact ⟨operations, rfl⟩
      · rw [if_neg htracked]
        exact ⟨w.operations, rfl⟩

/-- Where only the job may fail, `handle` never raises, and executes the job
once. -/
theorem handleCommand_returns (job : Nat → JobOutcome) (h : Ready w command) (now : Time) :
    ∃ result operations, handleCommand job w command now =
      (.ok result, ⟨operations, w.runs + 1⟩) := by
  obtain ⟨operations, hrunning, hdispatch⟩ := dispatch_ready job h now
  unfold handleCommand
  rw [hdispatch]
  rcases runJob_cases job hrunning now with ⟨result, after, hrun⟩ | ⟨error, hrun⟩
  · rw [hrun]
    exact ⟨_, after, rfl⟩
  · rw [hrun]
    dsimp only [Except.map]
    by_cases htracked : command.trackOperation = true
    · obtain ⟨after, hroute⟩ := hrunning.report htracked
        (.fail (some (Failure.job error).text) none) nofun now
      have hroute' : statusRoute operations command.operationId
          (.fail (some (Failure.job error).text) none) now = .ok after := hroute
      rw [if_pos htracked, hroute']
      exact ⟨_, after, rfl⟩
    · rw [if_neg htracked]
      exact ⟨_, operations, rfl⟩

/-- So a message is delivered once, whatever its job does. -/
theorem consume_once (job : Nat → JobOutcome) (h : Ready w command) (policy : RetryPolicy)
    (clock : Nat → Time) :
    ∃ w', consume job policy clock w { command } = ([], w') ∧ w'.runs = w.runs + 1 := by
  obtain ⟨result, operations, hresult⟩ := handleCommand_returns job h (clock 0)
  have hmessage : handleMessage job policy w { command } (clock 0) =
      (.done, ⟨operations, w.runs + 1⟩) := by
    unfold handleMessage handleQueueCommand
    dsimp only
    rw [hresult]
    rfl
  refine ⟨⟨operations, w.runs + 1⟩, ?_, rfl⟩
  unfold consume
  split
  · next w' hdone =>
      have heq := hmessage.symm.trans hdone
      rw [(Prod.mk.inj heq).2]
  · next hpoison => cases hmessage.symm.trans hpoison
  · next hretry => cases hmessage.symm.trans hretry

end VpnPanel.Worker
