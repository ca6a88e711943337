import VpnPanel.Worker.Handlers

/-!
# Messages of any bytes

`RabbitQueue` of `worker/app/queue.py`: the queues it declares, `_handle_message`
on a delivery of any bytes, and where the broker takes what is published. JSON
and the fields of pydantic are a parameter, and a header is what `int` makes of
it. The broker takes every publication, and a queue with a time to live hands
its messages over unchanged when that time is up.
-/

namespace VpnPanel.Worker.RabbitQueue

open VpnPanel.Lib VpnPanel.Backend

/-! ## Names -/

def EXCHANGE : String := "amnezia.jobs"
def DEAD_LETTER_EXCHANGE : String := "amnezia.jobs.dlx"
def LEGACY_SYNC_QUEUE : String := "amnezia.sync"
def LEGACY_PROVISION_QUEUE : String := "amnezia.provision"
def NODE_OPERATIONS_QUEUE : String := "amnezia.node_operations"
def NODE_HEARTBEAT_QUEUE : String := "amnezia.node_heartbeat"
def CLEANUP_RAW_TRAFFIC_SAMPLES_QUEUE : String := "amnezia.cleanup_raw_traffic_samples"
def REMNAWAVE_FULL_RECONCILE_QUEUE : String := "amnezia.remnawave_full_reconcile"
def REMNAWAVE_SYNC_USER_QUEUE : String := "amnezia.remnawave_sync_user"
def REMNAWAVE_DISABLE_USER_QUEUE : String := "amnezia.remnawave_disable_user"
def TELEGRAM_PROXY_OPERATIONS_QUEUE : String := "amnezia.telegram_proxy_operations"
def POISON_QUEUE : String := "amnezia.poison"

/-- Queues kept from an older version, with their milliseconds. -/
def RETRY_QUEUES : List (String × Nat) :=
  [("amnezia.retry.10s", 10000), ("amnezia.retry.1m", 60000), ("amnezia.retry.10m", 600000)]

def RETRY_DELAYS : List (String × Nat) := [("10s", 10000), ("1m", 60000), ("10m", 600000)]

structure QueueSpec where
  command : CommandName
  queueName : String
  sequential : Bool

def QUEUE_SPECS : List QueueSpec :=
  [⟨.syncAll, NODE_OPERATIONS_QUEUE, true⟩,
   ⟨.syncNode, NODE_OPERATIONS_QUEUE, true⟩,
   ⟨.provisionNode, NODE_OPERATIONS_QUEUE, true⟩,
   ⟨.healthCheckAll, NODE_HEARTBEAT_QUEUE, false⟩,
   ⟨.healthCheckNode, NODE_HEARTBEAT_QUEUE, false⟩,
   ⟨.cleanupRawTrafficSamples, CLEANUP_RAW_TRAFFIC_SAMPLES_QUEUE, false⟩,
   ⟨.remnawaveFullReconcile, REMNAWAVE_FULL_RECONCILE_QUEUE, false⟩,
   ⟨.remnawaveSyncUser, REMNAWAVE_SYNC_USER_QUEUE, false⟩,
   ⟨.remnawaveDisableUser, REMNAWAVE_DISABLE_USER_QUEUE, false⟩,
   ⟨.telegramProxyApplyNode, TELEGRAM_PROXY_OPERATIONS_QUEUE, true⟩,
   ⟨.telegramProxyCheckNode, TELEGRAM_PROXY_OPERATIONS_QUEUE, true⟩,
   ⟨.telegramProxyDisableNode, TELEGRAM_PROXY_OPERATIONS_QUEUE, true⟩]

/-- `ROUTING_KEYS`; `none` is a `KeyError`. -/
def ROUTING_KEYS (command : CommandName) : Option String :=
  (QUEUE_SPECS.find? (·.command = command)).map (·.queueName)

/-- `_retry_queue_name`. -/
def retryQueueName (command : CommandName) (delayName : String) : Option String :=
  (ROUTING_KEYS command).map fun queue => s!"{queue}.retry.{delayName}"

/-- The queue of a command. -/
def commandQueue (command : CommandName) : String := (ROUTING_KEYS command).getD ""

/-- Every command has one. -/
theorem routingKeys_eq (command : CommandName) :
    ROUTING_KEYS command = some (commandQueue command) := by
  cases command <;> rfl

theorem retryQueueName_eq (command : CommandName) (delayName : String) :
    retryQueueName command delayName = some s!"{commandQueue command}.retry.{delayName}" := by
  unfold retryQueueName
  rw [routingKeys_eq]
  rfl

/-! ## Topology -/

/-- A queue as it is declared and bound. -/
structure QueueDecl where
  name : String
  /-- The exchange and the routing key of each binding. -/
  bindings : List (String × String)
  singleActiveConsumer : Bool := false
  messageTtl : Option Nat := none
  /-- Where its messages go when their time is up, `none` under the key they
  came with. -/
  deadLetter : Option (String × Option String) := none

/-- The retry queues of a command. -/
def retryQueues (spec : QueueSpec) : List QueueDecl :=
  RETRY_DELAYS.filterMap fun delay =>
    (retryQueueName spec.command delay.1).map fun name => {
      name
      bindings := [(DEAD_LETTER_EXCHANGE, name)]
      messageTtl := some delay.2
      deadLetter := some (EXCHANGE, some spec.queueName) }

/-- A name is declared once. -/
def declareQueue (declared : List QueueDecl) (queue : QueueDecl) : List QueueDecl :=
  if declared.any (·.name = queue.name) then declared else declared ++ [queue]

def poisonQueue : QueueDecl where
  name := POISON_QUEUE
  bindings := [(DEAD_LETTER_EXCHANGE, POISON_QUEUE)]

/-- The queue of a command. -/
def operationQueue (spec : QueueSpec) : QueueDecl where
  name := spec.queueName
  bindings := [(EXCHANGE, spec.queueName)]
  singleActiveConsumer := spec.sequential

def legacyQueues : List QueueDecl :=
  [{ name := LEGACY_SYNC_QUEUE, bindings := [(EXCHANGE, "sync")] },
   { name := LEGACY_PROVISION_QUEUE, bindings := [(EXCHANGE, "provision")] }]

def legacyRetryQueue (queue : String × Nat) : QueueDecl where
  name := queue.1
  bindings := [(DEAD_LETTER_EXCHANGE, queue.1)]
  messageTtl := some queue.2
  deadLetter := some (EXCHANGE, none)

/-- `_declare_topology`. -/
def topology : List QueueDecl :=
  (poisonQueue :: QUEUE_SPECS.map operationQueue ++ legacyQueues ++
    RETRY_QUEUES.map legacyRetryQueue ++ QUEUE_SPECS.flatMap retryQueues).foldl declareQueue []

/-- The queues a direct exchange takes a message to. -/
def routed (exchange key : String) : List QueueDecl :=
  topology.filter fun queue => (exchange, key) ∈ queue.bindings

/-- The queues without a time to live where a message published so ends up. -/
def destination (exchange key : String) : List String :=
  (routed exchange key).flatMap fun queue =>
    match queue.deadLetter with
    | none => [queue.name]
    | some (exchange, deadKey) => (routed exchange (deadKey.getD key)).map (·.name)

/-! ## One delivery -/

/-- A message as it is delivered. `retryCount` is what `int` reads in its header
`x-retry-count`, `none` inside where `int` raises. -/
structure Delivery where
  body : ByteArray
  retryCount : Option (Option Int) := none

structure Publication where
  exchange : String
  routingKey : String
  message : Delivery

/-- `json.loads`, the fields of `WorkerCommand` and `model_dump_json`; `none` is
an error raised. -/
structure Wire where
  Json : Type
  loads : String → Option Json
  modelFields : Json → Option WorkerCommand
  modelDumpJson : WorkerCommand → String

namespace Wire

variable (wire : Wire)

/-- The command of a body. -/
def decode (body : ByteArray) : Option WorkerCommand := do
  let text ← String.fromUTF8? body
  let body ← wire.loads text
  let command ← wire.modelFields body
  validateTargetType command

/-- The body of a command. -/
def encode (command : WorkerCommand) : ByteArray := (wire.modelDumpJson command).toUTF8

end Wire

/-- `xs[i]` of Python: a negative index counts from the end. -/
def index {α : Type} (xs : List α) (i : Int) : Option α :=
  if 0 ≤ i then xs[i.toNat]?
  else if -xs.length ≤ i then xs[(xs.length + i).toNat]?
  else none

variable (wire : Wire) (policy : RetryPolicy)

/-- `_publish` to the dead letter exchange, with a count of attempts. -/
def publishAgain (command : WorkerCommand) (routingKey : String) (attempts : Int) :
    Publication where
  exchange := DEAD_LETTER_EXCHANGE
  routingKey := routingKey
  message := { body := wire.encode command, retryCount := some (some attempts) }

/-- `_retry_or_dead_letter`; `none` is an error raised. -/
def retryOrDeadLetter (command : WorkerCommand) (message : Delivery) : Option Publication := do
  let count ← message.retryCount.getD (some 0)
  let attempts := count + 1
  if attempts ≥ policy.maxAttempts then
    return publishAgain wire command POISON_QUEUE attempts
  else
    let delay ← index RETRY_DELAYS (min (attempts - 1) (RETRY_DELAYS.length - 1))
    let retryQueue ← retryQueueName command.command delay.1
    return publishAgain wire command retryQueue attempts

/-- What one delivery comes to. -/
structure Handled where
  ran : List WorkerCommand := []
  published : List Publication := []
  acked : Bool

/-- `_handle_message`: an error raised on the way leaves the message
unacknowledged. -/
def handleMessage (handler : WorkerCommand → Except String Unit) (message : Delivery) : Handled :=
  match wire.decode message.body with
  | none => { acked := false }
  | some command =>
      match handler command with
      | .ok _ => { ran := [command], acked := true }
      | .error _ =>
          match retryOrDeadLetter wire policy command message with
          | none => { ran := [command], acked := false }
          | some publication => { ran := [command], published := [publication], acked := true }

/-! ## A message and what follows it -/

/-- The deliveries still to come, each with its queue, and what became of the
others. -/
structure Journey where
  waiting : List (String × Delivery)
  poison : List Delivery := []
  ran : List WorkerCommand := []
  published : List Publication := []
  unacked : List Delivery := []

/-- A published message arrives where it ends up; from the poison queue nothing
is consumed. -/
def arrive (journey : Journey) (publication : Publication) : Journey :=
  let queues := destination publication.exchange publication.routingKey
  { journey with
    waiting := journey.waiting ++
      (queues.filter (· ≠ POISON_QUEUE)).map fun queue => (queue, publication.message)
    poison := journey.poison ++
      (queues.filter (· = POISON_QUEUE)).map fun _ => publication.message
    published := journey.published ++ [publication] }

/-- The next delivery; `handler n` is the handler on its `n`-th run. -/
def nextDelivery (handler : Nat → WorkerCommand → Except String Unit) (journey : Journey) :
    Journey :=
  match journey.waiting with
  | [] => journey
  | (_, message) :: waiting =>
      let handled := handleMessage wire policy (handler journey.ran.length) message
      let journey := { journey with
        waiting
        ran := journey.ran ++ handled.ran
        unacked := if handled.acked then journey.unacked else journey.unacked ++ [message] }
      handled.published.foldl arrive journey

/-- A message in a queue and its first deliveries. -/
def deliveries (handler : Nat → WorkerCommand → Except String Unit) (queue : String)
    (message : Delivery) : Nat → Journey
  | 0 => { waiting := [(queue, message)] }
  | n + 1 => nextDelivery wire policy handler (deliveries handler queue message n)

/-! ## The queue of parsed messages -/

variable {wire policy}

/-- What is published of a message that was read. -/
def publications (wire : Wire) : Acked → List Publication
  | .done => []
  | .retry next delay => [publishAgain wire next.command
      s!"{commandQueue next.command.command}.retry.{delay}" next.retryCount]
  | .poison copy => [publishAgain wire copy.command POISON_QUEUE copy.retryCount]

theorem index_retryDelay (n : Nat) : ∃ delayMs,
    index RETRY_DELAYS (min ((n : Int) + 1 - 1) (RETRY_DELAYS.length - 1)) =
      some (retryDelay (n + 1), delayMs) := by
  match n with
  | 0 => exact ⟨_, rfl⟩
  | 1 => exact ⟨_, rfl⟩
  | n + 2 =>
      have hmin : min (((n + 2 : Nat) : Int) + 1 - 1) (RETRY_DELAYS.length - 1) = 2 := by
        have hlength : (RETRY_DELAYS.length : Int) = 3 := rfl
        omega
      have hdelay : retryDelay (n + 2 + 1) = "10m" := by
        unfold retryDelay
        rw [show min (n + 2 + 1 - 1) 2 = 2 by omega]
        rfl
      rw [hmin, hdelay]
      exact ⟨_, rfl⟩

theorem retryOrDeadLetter_parsed {command : WorkerCommand} {message : Delivery} {n : Nat}
    (hcount : message.retryCount.getD (some 0) = some (n : Int)) :
    (retryOrDeadLetter wire policy command message).toList =
      publications wire (Worker.retryOrDeadLetter policy ⟨command, n⟩) := by
  unfold retryOrDeadLetter Worker.retryOrDeadLetter
  rw [hcount]
  by_cases hlast : policy.maxAttempts ≤ n + 1
  · have hlast' : (policy.maxAttempts : Int) ≤ n + 1 := by omega
    dsimp only
    rw [if_pos hlast]
    refine (congrArg Option.toList (if_pos hlast')).trans ?_
    rfl
  · have hlast' : ¬(policy.maxAttempts : Int) ≤ n + 1 := by omega
    obtain ⟨delayMs, hindex⟩ := index_retryDelay n
    dsimp only
    rw [if_neg hlast]
    refine (congrArg Option.toList (if_neg hlast')).trans ?_
    rw [hindex]
    show ((retryQueueName command.command _).bind _).toList = _
    rw [retryQueueName_eq]
    rfl

/-- On a body that is a command, `_handle_message` is the step of parsed
messages. -/
theorem handleMessage_parsed {command : WorkerCommand} {message : Delivery} {n : Nat}
    (hdecode : wire.decode message.body = some command)
    (hcount : message.retryCount.getD (some 0) = some (n : Int))
    (job : Nat → JobOutcome) (w : Execution) (now : Time) :
    (handleMessage wire policy
      (fun command => (handleQueueCommand job w command now).1.mapError (·.text))
      message).published =
        publications wire (Worker.handleMessage job policy w ⟨command, n⟩ now).1 := by
  unfold handleMessage Worker.handleMessage
  rw [hdecode]
  dsimp only
  cases hresult : handleQueueCommand job w command now with
  | mk result after =>
      cases result with
      | ok value => rfl
      | error failure =>
          refine Eq.trans ?_ (retryOrDeadLetter_parsed hcount)
          cases retryOrDeadLetter wire policy command message <;> rfl

end VpnPanel.Worker.RabbitQueue
