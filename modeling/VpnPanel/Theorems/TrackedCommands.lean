import VpnPanel.Worker.JobSteps
import VpnPanel.Worker.Handlers

/-!
# Tracked commands

A command that asks for its operation to be tracked needs the row of that
operation: which runs of the backend's routes keep every published tracked
command startable.
-/

namespace VpnPanel.Theorems

open VpnPanel.Lib VpnPanel.Backend VpnPanel.Worker

/-- What a worker that consumes the command now finds: the row of its
operation, with the command's kind and target; and `_dispatch` executes the job
unless the start of another delivery was accepted before. A 404 would raise. -/
structure Startable (s : Jobs) (command : WorkerCommand) : Prop where
  row : ∃ row ∈ s.operations, row.id = command.operationId ∧ row.kind = command.command ∧
    row.targetId = command.targetId
  dispatched : ∀ job now, (dispatch job ⟨s.operations, 0⟩ command now).2.runs = 1 ∨
    ((dispatch job ⟨s.operations, 0⟩ command now).1 = .ok none ∧
      command.operationId ∈ s.accepted)

def TrackedStartable (s : Jobs) : Prop :=
  ∀ command ∈ s.published, command.trackOperation = true → Startable s command

/-- The row is given up, and no start of it was accepted. -/
def abandoned (s : Jobs) (id : Nat) : Bool :=
  (s.operation? id).any fun row => row.status = .enqueueFailed ∧ id ∉ s.accepted

/-- A webhook's job reaches the broker; or `enqueue_failed` is written for an
operation whose message the broker has and which no worker has started; or the
message of an operation so given up is published. -/
def strandsTask (s : Jobs) (outcome : Publish) : Task → Bool
  | .create _ => false
  | .send _ _ => outcome.delivers
  | .publish operation => outcome.delivers && abandoned s operation.id
  | .republish operation => outcome.delivers &&
      (commandFromOperation operation).isSome && abandoned s operation.id
  | .markFailed operation _ =>
      (s.operation? operation.id).isSome && operation.id ∉ s.accepted &&
        s.published.any fun command => command.trackOperation ∧ command.operationId = operation.id

/-- The same of a step. -/
def strands (s : Jobs) (event : JobEvent) : Bool :=
  match event.action with
  | .advance route outcome =>
      match s.routes[route]? with
      | some (task :: _) => strandsTask s outcome task
      | _ => false
  | .recover =>
      match s.recovery with
      | .republishing _ (operation :: _) =>
          (commandFromOperation operation).isSome && abandoned s operation.id
      | _ => false
  | _ => false

variable {cfg : Config} {settings : RecoverySettings} {s s' : Jobs} {event : JobEvent}
variable {command : WorkerCommand}

/-! ## Startable commands -/

/-- The invariant: every tracked command has its row, and that row was not
given up without a start. -/
structure Backed (s : Jobs) (command : WorkerCommand) : Prop where
  row : ∃ row ∈ s.operations, row.id = command.operationId ∧ row.kind = command.command ∧
    row.targetId = command.targetId ∧
      (row.status = .enqueueFailed → command.operationId ∈ s.accepted)

def TrackedBacked (s : Jobs) : Prop :=
  ∀ command ∈ s.published, command.trackOperation = true → Backed s command

theorem startable_of_backed (hs : s.Sound) (htracked : command.trackOperation = true)
    (h : Backed s command) : Startable s command := by
  obtain ⟨row, hrow, hid, hkind, htarget, hfailed⟩ := h.row
  refine ⟨⟨row, hrow, hid, hkind, htarget⟩, fun job now => ?_⟩
  have hget : Rows.get? AsyncOperation.id s.operations command.operationId = some row := by
    rw [← hid]
    exact hs.table.distinct.get?_eq_some hrow
  cases hensure : ensureStatus s.operations command.operationId .start with
  | ok operation => exact .inl (dispatch_started htracked hensure)
  | error error =>
      obtain ⟨hcode, hnot⟩ := ensureStatus_error hget hensure
      rw [dispatch_conflict htracked hensure hcode]
      refine .inr ⟨rfl, ?_⟩
      -- the row is neither queued nor given up: it was started
      by_cases hstatus : row.status = .enqueueFailed
      · exact hfailed hstatus
      · rw [← hid]
        refine hs.table.started row hrow fun hmem => ?_
        rcases List.mem_cons.mp hmem with hqueued | hmem
        · exact hnot (hqueued ▸ List.mem_cons_self)
        · exact hstatus (List.mem_singleton.mp hmem)

/-- New rows change nothing for the commands that are out. -/
theorem backed_append (h : Backed s command) {rows : List AsyncOperation}
    (hoperations : s'.operations = s.operations ++ rows) (haccepted : s'.accepted = s.accepted) :
    Backed s' command := by
  obtain ⟨row, hrow, hid, hkind, htarget, hfailed⟩ := h.row
  refine ⟨row, ?_, hid, hkind, htarget, haccepted ▸ hfailed⟩
  rw [hoperations]
  exact List.mem_append_left _ hrow

/-- A status write, unless it gives the command's operation up. -/
theorem backed_save (hs : s.Sound) (h : Backed s command) {current row : AsyncOperation}
    (hoperations : s'.operations = Rows.save AsyncOperation.id row s.operations)
    (haccepted : s.accepted ⊆ s'.accepted) (hcurrent : current ∈ s.operations)
    (hid : row.id = current.id) (hjob : retryJob row = retryJob current)
    (hfailed : row.status = .enqueueFailed → current.id = command.operationId →
      command.operationId ∈ s'.accepted) : Backed s' command := by
  obtain ⟨old, hold, hoid, hkind, htarget, holdfailed⟩ := h.row
  by_cases hsame : old.id = row.id
  · have heq : old = current := hs.table.distinct.eq_of_key hold hcurrent (hsame.trans hid)
    subst heq
    have hcolumns : row.kind = old.kind ∧ row.targetId = old.targetId := by
      simp only [retryJob, Job.mk.injEq] at hjob
      exact ⟨hjob.1, hjob.2.2⟩
    refine ⟨row, ?_, hid.trans hoid, hcolumns.1.trans hkind, hcolumns.2.trans htarget,
      fun hstatus => hfailed hstatus hoid⟩
    rw [hoperations]
    exact Rows.mem_save.mpr (.inl ⟨rfl, old, hold, hsame⟩)
  · refine ⟨old, ?_, hoid, hkind, htarget, fun hstatus => haccepted (holdfailed hstatus)⟩
    rw [hoperations]
    exact Rows.mem_save.mpr (.inr ⟨hold, hsame⟩)

/-- A message built from a row, or rebuilt from it, names that row's job. -/
theorem command_of_row (hs : s.Sound) {operation : AsyncOperation}
    (hrow : HasRow s.operations operation) {now : Time}
    (h : command = operationCommand operation now ∨ commandFromOperation operation = some command) :
    command.operationId = operation.id ∧ command.command = operation.kind ∧
      command.targetId = operation.targetId := by
  rcases h with rfl | h
  · refine ⟨operationCommand_operationId _ _, jobCommand_command _ _ _ _, ?_⟩
    refine (jobCommand_targetId _ _ _ _).trans ?_
    split
    · rfl
    · next hkind =>
        obtain ⟨row, hmem, -, hjob⟩ := hrow
        have htargeted := hs.table.targeted row hmem
        rw [hjob] at htargeted
        exact (htargeted.target (Bool.eq_false_iff.mpr hkind)).symm
  · unfold commandFromOperation validateTargetType at h
    split at h
    · cases h
    · cases h
      exact ⟨rfl, rfl, rfl⟩

theorem command_tracked {operation : AsyncOperation} {now : Time}
    (h : command = operationCommand operation now ∨ commandFromOperation operation = some command) :
    command.trackOperation = true := by
  rcases h with rfl | h
  · exact jobCommand_trackOperation _ _ _ _
  · unfold commandFromOperation validateTargetType at h
    split at h
    · cases h
    · cases h
      rfl

/-- The command of an operation that was not given up. -/
theorem backed_of_row (hs : s.Sound) {operation : AsyncOperation}
    (hrow : HasRow s.operations operation) (now : Time)
    (h : command = operationCommand operation now ∨ commandFromOperation operation = some command)
    (hnot : ¬abandoned s operation.id = true) : Backed s command := by
  obtain ⟨hid, hkind, htarget⟩ := command_of_row hs hrow h
  obtain ⟨row, hmem, hrid, hjob⟩ := hrow
  simp only [retryJob, Job.mk.injEq] at hjob
  refine ⟨row, hmem, hrid.trans hid.symm, hjob.1.trans hkind.symm, hjob.2.2.trans htarget.symm,
    fun hfailed => ?_⟩
  by_contra hacc
  refine hnot ((Option.any_eq_true _ _).mpr ⟨row, ?_, decide_eq_true ⟨hfailed, hid ▸ hacc⟩⟩)
  rw [← hrid]
  exact hs.table.distinct.get?_eq_some hmem

/-! ## One step -/

theorem strands_advance {route : Nat} {outcome : Publish} {task : Task} {rest : List Task}
    (haction : event.action = .advance route outcome)
    (hroute : s.routes[route]? = some (task :: rest)) :
    strands s event = strandsTask s outcome task := by
  unfold strands
  rw [haction]
  dsimp only
  rw [hroute]

theorem task_sound (hs : s.Sound) {route : Nat} {task : Task} {rest : List Task}
    (hroute : s.routes[route]? = some (task :: rest)) : task.Sound s.operations :=
  hs.tasks _ (List.mem_of_getElem? hroute) task List.mem_cons_self

/-- A published message is backed, unless its step strands it. -/
theorem backed_of_sent (hs : s.Sound) (hsent : Sent s event command)
    (hnot : ¬strands s event = true) (htracked : command.trackOperation = true) :
    Backed s command := by
  cases hsent with
  | scheduled h => exact absurd htracked (by rw [h]; exact Bool.false_ne_true)
  | @enqueued route outcome operation rest haction hroute houtcome h =>
      have hrow : HasRow s.operations operation := task_sound hs hroute
      refine backed_of_row hs hrow event.now (.inl h) fun habandoned => hnot ?_
      rw [strands_advance haction hroute]
      exact Bool.and_eq_true_iff.mpr ⟨houtcome, habandoned⟩
  | @rebuilt route outcome operation rest haction hroute houtcome h =>
      have hrow : HasRow s.operations operation := task_sound hs hroute
      refine backed_of_row hs hrow event.now (.inr h) fun habandoned => hnot ?_
      rw [strands_advance haction hroute]
      show (outcome.delivers && (commandFromOperation operation).isSome &&
        abandoned s operation.id) = true
      rw [houtcome, h, habandoned]
      rfl
  | @webhook route outcome name target rest haction hroute houtcome h =>
      refine absurd ?_ hnot
      rw [strands_advance haction hroute]
      exact houtcome

/-- What a step of the recovery pass does for the commands that are out. -/
theorem recover_backed (hs : s.Sound) (h : TrackedBacked s) {now : Time}
    (hnot : ∀ pass operation rest, s.recovery = .republishing pass (operation :: rest) →
      ¬((commandFromOperation operation).isSome && abandoned s operation.id) = true)
    (hstep : recover settings s now = some s') : TrackedBacked s' := by
  unfold recover at hstep
  split at hstep
  · exact Option.some.inj hstep ▸ fun c hc ht => ⟨(h c hc ht).row⟩
  · next pass operation rest hrec =>
      split at hstep
      · exact Option.some.inj hstep ▸ fun c hc ht => ⟨(h c hc ht).row⟩
      · next command hcommand =>
          have hrow : HasRow s.operations operation :=
            hs.recovery operation (by rw [hrec]; exact List.mem_cons_self)
          have hnew : Backed s command := by
            refine backed_of_row hs hrow now (.inr hcommand) fun habandoned => ?_
            refine hnot pass operation rest hrec ?_
            rw [hcommand, habandoned]
            rfl
          rw [← Option.some.inj hstep]
          intro c hc ht
          rcases List.mem_append.mp hc with hc | hc
          · exact ⟨(h c hc ht).row⟩
          · rw [List.mem_singleton.mp hc]
            exact ⟨hnew.row⟩
  · exact Option.some.inj hstep ▸ fun c hc ht => ⟨(h c hc ht).row⟩
  · split at hstep
    · exact Option.some.inj hstep ▸ fun c hc ht => ⟨(h c hc ht).row⟩
    · next current hop =>
        split at hstep
        · rw [← Option.some.inj hstep]
          intro c hc ht
          exact backed_save hs (h c hc ht) rfl (fun _ hid => hid) (operation?_mem hop).1 rfl rfl
            nofun
        · exact Option.some.inj hstep ▸ fun c hc ht => ⟨(h c hc ht).row⟩
  · exact Option.some.inj hstep ▸ fun c hc ht => ⟨(h c hc ht).row⟩
  · cases hstep

theorem accepted_subset (accepted : List Nat) (id : Nat) (call : StatusCall) :
    accepted ⊆ acceptedAfter accepted id call := by
  cases call with
  | start => exact List.subset_append_left _ _
  | _ => exact fun _ h => h

/-- **Step.** A step that strands no command keeps the tracked ones backed. -/
theorem backed_step (hs : s.Sound) (h : TrackedBacked s) (hnot : ¬strands s event = true)
    (hstep : (jobs cfg settings).step s event = some s') : TrackedBacked s' := by
  cases jobs_does hstep with
  | entered henters hpublished =>
      obtain ⟨jobs, hjobs⟩ := henters.operations
      intro c hc ht
      exact backed_append (h c (hpublished ▸ hc) ht) hjobs henters.accepted
  | published henters hpublished hsent =>
      obtain ⟨jobs, hjobs⟩ := henters.operations
      intro c hc ht
      rw [hpublished] at hc
      rcases List.mem_append.mp hc with hc | hc
      · exact backed_append (h c hc ht) hjobs henters.accepted
      · have heq := List.mem_singleton.mp hc
        subst heq
        exact backed_append (backed_of_sent hs hsent hnot ht) hjobs henters.accepted
  | @failed route outcome operation current error rest haction hroute hcurrent _ =>
      obtain ⟨hoperations, -, haccepted, hpublished⟩ :=
        jobs_step_markFailed hstep haction hroute hcurrent
      obtain ⟨hmem, hid⟩ := operation?_mem hcurrent
      intro c hc ht
      rw [hpublished] at hc
      refine backed_save hs (h c hc ht) hoperations (haccepted ▸ fun _ hid => hid) hmem rfl rfl ?_
      -- the operation has a message out, so it was started before
      intro _ hcommand
      rw [haccepted]
      by_contra hnew
      refine hnot ?_
      rw [strands_advance haction hroute]
      have hop : operation.id = c.operationId := hid.symm.trans hcommand
      refine Bool.and_eq_true_iff.mpr ⟨Bool.and_eq_true_iff.mpr ⟨?_, ?_⟩, ?_⟩
      · rw [hcurrent]
        rfl
      · exact decide_eq_true (hop ▸ hnew)
      · exact List.any_eq_true.mpr ⟨c, hc, decide_eq_true ⟨ht, hop.symm⟩⟩
  | @committed index request current haction hrequest hcurrent _ =>
      obtain ⟨hoperations, -, haccepted, hpublished⟩ :=
        jobs_step_commit hstep haction hrequest hcurrent
      intro c hc ht
      rw [hpublished] at hc
      refine backed_save hs (h c hc ht) hoperations (haccepted ▸ accepted_subset _ _ _)
        (operation?_mem hcurrent).1 (write_id _ _ _ _) (write_job _ _ _ _) fun hstatus => ?_
      rw [write_status] at hstatus
      cases hcall : request.call <;> rw [hcall] at hstatus <;> cases hstatus
  | recovered haction hrecover =>
      refine recover_backed (s := { s with clock := event.now })
        ⟨hs.table, hs.tasks, hs.requests, hs.recovery⟩ (fun c hc ht => ⟨(h c hc ht).row⟩) ?_
        hrecover
      intro pass operation rest hrec hbad
      refine hnot ?_
      unfold strands
      rw [haction]
      have hrec' : s.recovery = .republishing pass (operation :: rest) := hrec
      dsimp only
      rw [hrec']
      exact hbad

/-- The start of an abandoned operation is refused, and nobody executes its
job. -/
theorem not_startable_of_abandoned (htracked : command.trackOperation = true)
    (h : abandoned s command.operationId = true) : ¬Startable s command := by
  intro hstart
  obtain ⟨row, hget, hfacts⟩ := (Option.any_eq_true _ _).mp h
  obtain ⟨hfailed, hnot⟩ := of_decide_eq_true hfacts
  cases hensure : ensureStatus s.operations command.operationId .start with
  | ok operation =>
      obtain ⟨hget', hallowed⟩ := ensureStatus_ok hensure
      have heq : row = operation := Option.some.inj (hget.symm.trans hget')
      rw [← heq, hfailed] at hallowed
      simp [StatusCall.allowed] at hallowed
  | error error =>
      have hcode := (ensureStatus_error hget hensure).1
      have hdispatched := hstart.dispatched (fun _ => .returned none) 0
      rw [dispatch_conflict htracked hensure hcode] at hdispatched
      rcases hdispatched with hruns | ⟨-, hacc⟩
      · cases hruns
      · exact hnot hacc

/-- A webhook's message names an operation that is not there. -/
theorem not_startable_of_fresh (hs : s.Sound) {id : Nat} (hid : s.nextId ≤ id)
    (hoperations : s'.operations = s.operations) (hcommand : command.operationId = id) :
    ¬Startable s' command := by
  intro hstart
  obtain ⟨row, hrow, hrid, -⟩ := hstart.row
  rw [hoperations] at hrow
  have hbelow := hs.table.below row hrow
  omega

/-- A message of an abandoned operation goes out. -/
theorem not_startable_of_published {operation : AsyncOperation}
    (hs : s.Sound) (hrow : HasRow s.operations operation) (now : Time)
    (h : command = operationCommand operation now ∨ commandFromOperation operation = some command)
    (habandoned : abandoned s operation.id = true) (hoperations : s'.operations = s.operations)
    (haccepted : s'.accepted = s.accepted) (hpublished : s'.published = s.published ++ [command]) :
    ¬TrackedStartable s' := by
  intro hall
  have hmem : command ∈ s'.published := by
    rw [hpublished]
    exact List.mem_append_right _ List.mem_cons_self
  refine not_startable_of_abandoned (command_tracked h) ?_ (hall command hmem (command_tracked h))
  unfold abandoned Jobs.operation? at *
  rw [hoperations, haccepted, (command_of_row hs hrow h).1]
  exact habandoned

/-- A step that strands a command leaves it out of reach. -/
theorem stranded_of_strands (hs : s.Sound) (hstrands : strands s event = true)
    (hstep : (jobs cfg settings).step s event = some s') : ¬TrackedStartable s' := by
  unfold strands at hstrands
  split at hstrands
  · next route outcome haction =>
      split at hstrands
      · next task rest hroute =>
          have hs' := jobs_step_advance hstep haction hroute
          cases task with
          | create job => cases hstrands
          | send name target =>
              -- a fresh operation id, and no row for it
              have hpublished : s'.published = s.published ++
                  [jobCommand name target {} ⟨s.nextId, s.nextId + 1, event.now⟩] := by
                rw [hs']
                cases outcome with
                | refused error => cases hstrands
                | accepted => rfl
                | unconfirmed error => rfl
              have hoperations : s'.operations = s.operations := by
                rw [hs']
                cases outcome <;> rfl
              intro hall
              refine not_startable_of_fresh hs (Nat.le_succ s.nextId) hoperations
                (jobCommand_operationId name target {} ⟨s.nextId, s.nextId + 1, event.now⟩)
                (hall _ ?_ (jobCommand_trackOperation _ _ _ _))
              rw [hpublished]
              exact List.mem_append_right _ List.mem_cons_self
          | publish operation =>
              obtain ⟨hdelivers, habandoned⟩ := Bool.and_eq_true_iff.mp hstrands
              have hfields : s'.operations = s.operations ∧ s'.accepted = s.accepted ∧
                  s'.published = s.published ++ [operationCommand operation event.now] := by
                rw [hs']
                cases outcome with
                | refused error => cases hdelivers
                | accepted => exact ⟨rfl, rfl, rfl⟩
                | unconfirmed error => exact ⟨rfl, rfl, rfl⟩
              exact not_startable_of_published hs (task_sound hs hroute) event.now (.inl rfl)
                habandoned hfields.1 hfields.2.1 hfields.2.2
          | republish operation =>
              obtain ⟨hleft, habandoned⟩ := Bool.and_eq_true_iff.mp hstrands
              obtain ⟨hdelivers, hsome⟩ := Bool.and_eq_true_iff.mp hleft
              obtain ⟨command, hcommand⟩ := Option.isSome_iff_exists.mp hsome
              have hfields : s'.operations = s.operations ∧ s'.accepted = s.accepted ∧
                  s'.published = s.published ++ [command] := by
                rw [hs']
                unfold runTask republishTask
                dsimp only
                rw [hcommand]
                cases outcome with
                | refused error => cases hdelivers
                | accepted => exact ⟨rfl, rfl, rfl⟩
                | unconfirmed error => exact ⟨rfl, rfl, rfl⟩
              exact not_startable_of_published hs (task_sound hs hroute) event.now (.inr hcommand)
                habandoned hfields.1 hfields.2.1 hfields.2.2
          | markFailed operation error =>
              obtain ⟨hleft, hout⟩ := Bool.and_eq_true_iff.mp hstrands
              obtain ⟨hsome, hnot⟩ := Bool.and_eq_true_iff.mp hleft
              obtain ⟨current, hcurrent⟩ := Option.isSome_iff_exists.mp hsome
              obtain ⟨command, hmem, hfacts⟩ := List.any_eq_true.mp hout
              obtain ⟨htracked, hid⟩ := of_decide_eq_true hfacts
              obtain ⟨hoperations, -, haccepted, hpublished⟩ :=
                jobs_step_markFailed hstep haction hroute hcurrent
              intro hall
              refine not_startable_of_abandoned htracked ?_
                (hall command (hpublished ▸ hmem) htracked)
              have hkey : current.id = operation.id := (operation?_mem hcurrent).2
              refine (Option.any_eq_true _ _).mpr
                ⟨markEnqueueFailed error current event.now, ?_, decide_eq_true ⟨rfl, ?_⟩⟩
              · show Rows.get? AsyncOperation.id s'.operations command.operationId = _
                rw [hoperations, hid, ← hkey]
                refine Rows.get?_save_self (r := current) ?_
                show Rows.get? AsyncOperation.id s.operations current.id = _
                rw [hkey]
                exact hcurrent
              · rw [haccepted, hid]
                exact of_decide_eq_true hnot
      · cases hstrands
  · next haction =>
      split at hstrands
      · next pass operation rest hrec =>
          obtain ⟨hsome, habandoned⟩ := Bool.and_eq_true_iff.mp hstrands
          obtain ⟨command, hcommand⟩ := Option.isSome_iff_exists.mp hsome
          have hact := jobs_step hstep
          rw [haction] at hact
          have hact : recover settings { s with clock := event.now } event.now = some s' := hact
          unfold recover at hact
          dsimp only at hact
          rw [hrec] at hact
          dsimp only at hact
          rw [hcommand] at hact
          have hs' := Option.some.inj hact
          have hrow : HasRow s.operations operation :=
            hs.recovery operation (by rw [hrec]; exact List.mem_cons_self)
          exact not_startable_of_published hs hrow event.now (.inr hcommand) habandoned
            (hs' ▸ rfl) (hs' ▸ rfl) (hs' ▸ rfl)
      · cases hstrands
  · cases hstrands

/-- **Tracked commands.** In a run of the backend's routes and of the worker,
every published tracked command is startable in every state exactly when no
step strands one. -/
theorem tracked_startable_iff (cfg : Config) (settings : RecoverySettings) (t : Jobs)
    (steps : List (Jobs × JobEvent))
    (h : (jobs cfg settings).Trace (jobs cfg settings).init steps t) :
    (∀ s ∈ TSys.statesOf steps t, TrackedStartable s) ↔ ∀ x ∈ steps, ¬strands x.1 x.2 = true := by
  refine TSys.Trace.forall_states_iff (I := fun s => s.Sound ∧ TrackedBacked s)
    (A := fun _ _ => True) (B := fun s event => strands s event = true) ?_ ?_ ?_ h
    (fun _ _ => trivial) ⟨sound_init, fun _ hc => absurd hc List.not_mem_nil⟩
  · intro s hs c hc ht
    exact startable_of_backed hs.1 ht (hs.2 c hc ht)
  · intro s event s' hs _ hnot hstep
    exact ⟨sound_step hs.1 hstep, backed_step hs.1 hs.2 hnot hstep⟩
  · intro s event s' hs _ hstrands hstep
    exact stranded_of_strands hs.1 hstrands hstep

/-- A node is added; its provision job is committed, published and started. -/
def provisionStarted : List JobEvent := [
  ⟨0, .request (.addNode { name := "a", url := "http://a", token := "t" })⟩,
  ⟨1, .advance 0 .accepted⟩, ⟨2, .advance 0 .accepted⟩,
  ⟨3, .readStatus 0 .start⟩, ⟨4, .commitStatus 0⟩]

theorem tracked_startable_provisionStarted :
    ∃ steps t, (jobs exampleConfig {}).Trace (jobs exampleConfig {}).init steps t ∧
      t.published.map (·.command) = [.provisionNode] ∧ t.accepted = [0] ∧
      ∀ s ∈ TSys.statesOf steps t, TrackedStartable s := by
  have hrun : ((jobs exampleConfig {}).replay provisionStarted).any (fun t =>
      t.published.map (·.command) = [.provisionNode] ∧ t.accepted = [0]) = true := by
    decide +kernel
  obtain ⟨t, ht, hfacts⟩ := TSys.replay_any hrun
  obtain ⟨hpublished, haccepted⟩ := of_decide_eq_true hfacts
  have hok : (jobs exampleConfig {}).ReplayOk (fun s event => ¬strands s event = true)
      (jobs exampleConfig {}).init provisionStarted := by decide +kernel
  obtain ⟨steps, htrace, hsteps⟩ := TSys.Trace.of_replayOk provisionStarted hok ht
  exact ⟨steps, t, htrace, hpublished, haccepted,
    (tracked_startable_iff exampleConfig {} t steps htrace).mpr hsteps⟩

/-- A delivered webhook whose job is published. -/
def webhookDelivered : List JobEvent := [
  ⟨0, .webhook { event := .text "user.updated", timestamp := .text "t", uuid := some (.text "u") }⟩,
  ⟨1, .advance 0 .accepted⟩]

/-- Its command asks to be tracked under an id that no row has: the start is
answered by a 404, and the job is not executed. -/
theorem webhook_command_not_startable :
    ∃ s command, (jobs exampleConfig {}).Reachable s ∧ s.published = [command] ∧
      command.trackOperation = true ∧
      ensureStatus s.operations command.operationId .start = .error operationNotFound ∧
      ¬TrackedStartable s := by
  have hrun : ((jobs exampleConfig {}).replay webhookDelivered).any (fun s =>
      s.published = [jobCommand .remnawaveSyncUser (some "u") {} ⟨0, 1, 1⟩] ∧
        s.operations = []) = true := by decide +kernel
  obtain ⟨s, hs, hfacts⟩ := TSys.replay_any hrun
  obtain ⟨hpublished, hoperations⟩ := of_decide_eq_true hfacts
  refine ⟨s, _, TSys.replay_reachable hs, hpublished, rfl, ?_, fun hall => ?_⟩
  · rw [hoperations]
    rfl
  · have hstart := hall _ (by rw [hpublished]; exact List.mem_cons_self) rfl
    obtain ⟨row, hrow, -⟩ := hstart.row
    rw [hoperations] at hrow
    cases hrow

end VpnPanel.Theorems
