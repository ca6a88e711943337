import VpnPanel.Worker.Bookkeeping

/-!
# What a step of the job system does

Most steps leave the operation rows alone or append new ones. The rest publish
a message, write `enqueue_failed`, commit a status request, or are a step of
the recovery pass. Every invariant of the job system is derived from this case
distinction.
-/

namespace VpnPanel.Worker

open VpnPanel.Lib VpnPanel.Backend

/-- No row is written and no start is accepted; rows of new jobs may be added. -/
structure Enters (now : Time) (s s' : Jobs) : Prop where
  operations : ∃ jobs, s'.operations = s.operations ++ newOperations jobs s.nextId now
  moves : s'.moves = s.moves
  accepted : s'.accepted = s.accepted
  recovery : s'.recovery = s.recovery
  passes : s'.passes = s.passes

/-- Where a published message comes from: the worker's schedule, an operation
with a row, or the webhook. -/
inductive Sent (s : Jobs) (event : JobEvent) (command : WorkerCommand) : Prop
  | scheduled (h : command.trackOperation = false)
  | enqueued {route : Nat} {outcome : Publish} {operation : AsyncOperation} {rest : List Task}
      (haction : event.action = .advance route outcome)
      (hroute : s.routes[route]? = some (.publish operation :: rest))
      (houtcome : outcome.delivers = true) (h : command = operationCommand operation event.now)
  | rebuilt {route : Nat} {outcome : Publish} {operation : AsyncOperation} {rest : List Task}
      (haction : event.action = .advance route outcome)
      (hroute : s.routes[route]? = some (.republish operation :: rest))
      (houtcome : outcome.delivers = true) (h : commandFromOperation operation = some command)
  | webhook {route : Nat} {outcome : Publish} {name : CommandName} {target : Option String}
      {rest : List Task} (haction : event.action = .advance route outcome)
      (hroute : s.routes[route]? = some (.send name target :: rest))
      (houtcome : outcome.delivers = true)
      (h : command = jobCommand name target {} ⟨s.nextId, s.nextId + 1, event.now⟩)

/-- What a step does. -/
inductive Does (settings : RecoverySettings) (s : Jobs) (event : JobEvent) (s' : Jobs) : Prop
  | entered (h : Enters event.now s s') (hpublished : s'.published = s.published)
  | published {command : WorkerCommand} (h : Enters event.now s s')
      (hpublished : s'.published = s.published ++ [command]) (hsent : Sent s event command)
  | failed {route : Nat} {outcome : Publish} {operation current : AsyncOperation}
      {error : String} {rest : List Task} (haction : event.action = .advance route outcome)
      (hroute : s.routes[route]? = some (.markFailed operation error :: rest))
      (hcurrent : s.operation? operation.id = some current)
      (h : s' = ((({ s with clock := event.now } : Jobs).writeRow current
        (markEnqueueFailed error current event.now)).continue_ route rest))
  | committed {index : Nat} {request : StatusRequest} {current : AsyncOperation}
      (haction : event.action = .commitStatus index) (hrequest : s.requests[index]? = some request)
      (hcurrent : s.operation? request.read.id = some current)
      (h : s' = { ({ s with clock := event.now, requests := s.requests.eraseIdx index } :
        Jobs).writeRow current (request.call.write request.read current event.now) with
          accepted := acceptedAfter s.accepted current.id request.call })
  | recovered (haction : event.action = .recover)
      (h : recover settings { s with clock := event.now } event.now = some s')

variable {s : Jobs} {now : Time}

/-- The tables stay as they are. -/
theorem Enters.of_eq {s' : Jobs} (hoperations : s'.operations = s.operations)
    (hmoves : s'.moves = s.moves) (haccepted : s'.accepted = s.accepted)
    (hrecovery : s'.recovery = s.recovery) (hpasses : s'.passes = s.passes) :
    Enters now s s' :=
  ⟨⟨[], by rw [hoperations]; exact (List.append_nil _).symm⟩, hmoves, haccepted, hrecovery,
    hpasses⟩

theorem panelRoute_enters (cfg : Config) (s : Jobs) (now : Time) (request : Request) :
    Enters now s (panelRoute cfg s now request) ∧
      (panelRoute cfg s now request).published = s.published := by
  unfold panelRoute
  split
  · exact ⟨.of_eq rfl rfl rfl rfl rfl, rfl⟩
  · dsimp only
    split
    · exact ⟨⟨⟨_, rfl⟩, rfl, rfl, rfl, rfl⟩, rfl⟩
    · exact ⟨.of_eq rfl rfl rfl rfl rfl, rfl⟩

theorem retryRoute_enters (s : Jobs) (now : Time) (id : Nat) :
    Enters now s (retryRoute s id) ∧ (retryRoute s id).published = s.published := by
  unfold retryRoute
  split <;> exact ⟨.of_eq rfl rfl rfl rfl rfl, rfl⟩

theorem webhookRoute_enters (s : Jobs) (now : Time) (payload : WebhookPayload) :
    Enters now s (webhookRoute s payload) ∧ (webhookRoute s payload).published = s.published := by
  unfold webhookRoute
  split <;> exact ⟨.of_eq rfl rfl rfl rfl rfl, rfl⟩

theorem applyTelegramProxy_enters (s : Jobs) (now : Time) :
    Enters now s (applyTelegramProxy s) ∧ (applyTelegramProxy s).published = s.published := by
  unfold applyTelegramProxy
  split
  · split <;> exact ⟨.of_eq rfl rfl rfl rfl rfl, rfl⟩
  · exact ⟨.of_eq rfl rfl rfl rfl rfl, rfl⟩

theorem disableTelegramProxy_enters (s : Jobs) (now : Time) :
    Enters now s (disableTelegramProxy s) ∧
      (disableTelegramProxy s).published = s.published := by
  unfold disableTelegramProxy
  split <;> exact ⟨.of_eq rfl rfl rfl rfl rfl, rfl⟩

theorem updateTelegramProxySettings_enters (s : Jobs) (now : Time) (enabled : Bool)
    (primaryNodeId : Option NodeId) (secret : Option String) :
    Enters now s (updateTelegramProxySettings s enabled primaryNodeId secret) ∧
      (updateTelegramProxySettings s enabled primaryNodeId secret).published = s.published := by
  unfold updateTelegramProxySettings
  split <;> exact ⟨.of_eq rfl rfl rfl rfl rfl, rfl⟩

theorem apiProvisionNode_enters (s : Jobs) (now : Time) (nodeId : NodeId) :
    Enters now s (apiProvisionNode s nodeId) ∧
      (apiProvisionNode s nodeId).published = s.published := by
  unfold apiProvisionNode
  split <;> exact ⟨.of_eq rfl rfl rfl rfl rfl, rfl⟩

theorem readStatus_enters (s : Jobs) (now : Time) (id : Nat) (call : StatusCall) :
    Enters now s (readStatus s id call) ∧ (readStatus s id call).published = s.published := by
  unfold readStatus
  split <;> exact ⟨.of_eq rfl rfl rfl rfl rfl, rfl⟩

variable {cfg : Config} {settings : RecoverySettings} {s' : Jobs} {event : JobEvent}

/-- What a task of a route does. -/
theorem runTask_does {route : Nat} {outcome : Publish} {task : Task} {rest : List Task}
    (haction : event.action = .advance route outcome)
    (hroute : s.routes[route]? = some (task :: rest)) :
    Does settings s event
      (runTask { s with clock := event.now } route task rest outcome event.now) := by
  cases task with
  | create job => exact .entered ⟨⟨[job], rfl⟩, rfl, rfl, rfl, rfl⟩ rfl
  | publish operation =>
      cases outcome with
      | accepted =>
          exact .published (.of_eq rfl rfl rfl rfl rfl) rfl (.enqueued haction hroute rfl rfl)
      | refused error => exact .entered (.of_eq rfl rfl rfl rfl rfl) rfl
      | unconfirmed error =>
          exact .published (.of_eq rfl rfl rfl rfl rfl) rfl (.enqueued haction hroute rfl rfl)
  | markFailed operation error =>
      show Does settings s event (markFailedTask _ route operation error rest event.now)
      unfold markFailedTask
      split
      · exact .entered (.of_eq rfl rfl rfl rfl rfl) rfl
      · next current hcurrent => exact .failed haction hroute hcurrent rfl
  | send name target =>
      cases outcome with
      | accepted =>
          exact .published (.of_eq rfl rfl rfl rfl rfl) rfl (.webhook haction hroute rfl rfl)
      | refused error => exact .entered (.of_eq rfl rfl rfl rfl rfl) rfl
      | unconfirmed error =>
          exact .published (.of_eq rfl rfl rfl rfl rfl) rfl (.webhook haction hroute rfl rfl)
  | republish operation =>
      show Does settings s event (republishTask _ route operation rest outcome)
      unfold republishTask
      split
      · exact .entered (.of_eq rfl rfl rfl rfl rfl) rfl
      · next command hcommand =>
          cases outcome with
          | accepted =>
              exact .published (.of_eq rfl rfl rfl rfl rfl) rfl
                (.rebuilt haction hroute rfl hcommand)
          | refused error => exact .entered (.of_eq rfl rfl rfl rfl rfl) rfl
          | unconfirmed error =>
              exact .published (.of_eq rfl rfl rfl rfl rfl) rfl
                (.rebuilt haction hroute rfl hcommand)

/-- **Inversion.** -/
theorem jobs_does (hstep : (jobs cfg settings).step s event = some s') :
    Does settings s event s' := by
  obtain ⟨now, action⟩ := event
  unfold jobs at hstep
  dsimp only at hstep
  split at hstep
  · cases hstep
  -- the clock is no part of what the routes frame
  have hframe : ∀ {t : Jobs}, Enters now { s with clock := now } t ∧ t.published = s.published →
      Does settings s ⟨now, action⟩ t := fun h =>
    .entered ⟨h.1.operations, h.1.moves, h.1.accepted, h.1.recovery, h.1.passes⟩ h.2
  cases action with
  | request request => exact Option.some.inj hstep ▸ hframe (panelRoute_enters cfg _ now request)
  | triggerSync => exact Option.some.inj hstep ▸ .entered (.of_eq rfl rfl rfl rfl rfl) rfl
  | triggerRemnawaveSync =>
      exact Option.some.inj hstep ▸ .entered (.of_eq rfl rfl rfl rfl rfl) rfl
  | triggerRemnawaveUserSync uuid =>
      rw [← Option.some.inj hstep]
      split <;> exact .entered (.of_eq rfl rfl rfl rfl rfl) rfl
  | updateRemnawaveSettings enabled =>
      exact Option.some.inj hstep ▸ .entered (.of_eq rfl rfl rfl rfl rfl) rfl
  | updateTelegramProxySettings enabled primaryNodeId secret =>
      exact Option.some.inj hstep ▸
        hframe (updateTelegramProxySettings_enters _ now enabled primaryNodeId secret)
  | applyTelegramProxy => exact Option.some.inj hstep ▸ hframe (applyTelegramProxy_enters _ now)
  | disableTelegramProxy =>
      exact Option.some.inj hstep ▸ hframe (disableTelegramProxy_enters _ now)
  | provisionNode nodeId =>
      exact Option.some.inj hstep ▸ hframe (apiProvisionNode_enters _ now nodeId)
  | provisionRecovery nodeIds =>
      exact Option.some.inj hstep ▸ .entered ⟨⟨_, rfl⟩, rfl, rfl, rfl, rfl⟩ rfl
  | retryOperation id => exact Option.some.inj hstep ▸ hframe (retryRoute_enters _ now id)
  | webhook payload => exact Option.some.inj hstep ▸ hframe (webhookRoute_enters _ now payload)
  | advance route outcome =>
      unfold act at hstep
      dsimp only at hstep
      split at hstep
      · next task rest hroute =>
          rw [← Option.some.inj hstep]
          exact runTask_does rfl hroute
      · cases hstep
  | readStatus id call => exact Option.some.inj hstep ▸ hframe (readStatus_enters _ now id call)
  | commitStatus index =>
      obtain ⟨request, hrequest, rfl⟩ := Option.map_eq_some_iff.mp hstep
      unfold commitStatus
      dsimp only
      split
      · exact .entered (.of_eq rfl rfl rfl rfl rfl) rfl
      · next current hcurrent => exact .committed rfl hrequest hcurrent rfl
  | schedule name targetType =>
      exact Option.some.inj hstep ▸ .published (.of_eq rfl rfl rfl rfl rfl) rfl (.scheduled rfl)
  | recover => exact .recovered rfl hstep

/-! ## The steps that write -/

/-- An enabled step, its action apart. -/
theorem jobs_step (hstep : (jobs cfg settings).step s event = some s') :
    act cfg settings { s with clock := event.now } event.now event.action = some s' := by
  unfold jobs at hstep
  dsimp only at hstep
  split at hstep
  · cases hstep
  · exact hstep

/-- The step of a status request's commit. -/
theorem jobs_step_commit {index : Nat} {request : StatusRequest} {current : AsyncOperation}
    (hstep : (jobs cfg settings).step s event = some s')
    (haction : event.action = .commitStatus index) (hrequest : s.requests[index]? = some request)
    (hcurrent : s.operation? request.read.id = some current) :
    s'.operations = Rows.save AsyncOperation.id
        (request.call.write request.read current event.now) s.operations ∧
      s'.moves = s.moves ++ [⟨current.id, current.status, request.call.target⟩] ∧
      s'.accepted = acceptedAfter s.accepted current.id request.call ∧
      s'.published = s.published := by
  have hact := jobs_step hstep
  rw [haction] at hact
  obtain ⟨request', hrequest', rfl⟩ := Option.map_eq_some_iff.mp hact
  have hsame : request = request' := Option.some.inj (hrequest.symm.trans hrequest')
  subst hsame
  unfold commitStatus
  have hop : ({ s with clock := event.now, requests := s.requests.eraseIdx index } :
      Jobs).operation? request.read.id = some current := hcurrent
  dsimp only
  rw [hop]
  refine ⟨rfl, ?_, rfl, rfl⟩
  rw [← write_status request.call request.read current event.now]
  rfl

/-- The step of a task. -/
theorem jobs_step_advance {route : Nat} {outcome : Publish} {task : Task} {rest : List Task}
    (hstep : (jobs cfg settings).step s event = some s')
    (haction : event.action = .advance route outcome)
    (hroute : s.routes[route]? = some (task :: rest)) :
    s' = runTask { s with clock := event.now } route task rest outcome event.now := by
  have hact := jobs_step hstep
  rw [haction] at hact
  unfold act at hact
  dsimp only at hact
  rw [hroute] at hact
  exact (Option.some.inj hact).symm

/-- The step of the write after a failed publish. -/
theorem jobs_step_markFailed {route : Nat} {outcome : Publish} {operation current : AsyncOperation}
    {error : String} {rest : List Task} (hstep : (jobs cfg settings).step s event = some s')
    (haction : event.action = .advance route outcome)
    (hroute : s.routes[route]? = some (.markFailed operation error :: rest))
    (hcurrent : s.operation? operation.id = some current) :
    s'.operations = Rows.save AsyncOperation.id (markEnqueueFailed error current event.now)
        s.operations ∧
      s'.moves = s.moves ++ [⟨current.id, current.status, .enqueueFailed⟩] ∧
      s'.accepted = s.accepted ∧ s'.published = s.published := by
  rw [jobs_step_advance hstep haction hroute]
  show _ = _ ∧ _
  have hop : ({ s with clock := event.now } : Jobs).operation? operation.id = some current :=
    hcurrent
  unfold runTask markFailedTask
  dsimp only
  rw [hop]
  exact ⟨rfl, rfl, rfl, rfl⟩

end VpnPanel.Worker
