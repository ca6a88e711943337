import VpnPanel.Worker.Jobs

/-!
# Bookkeeping of operations

What every run keeps of the operation rows and of everything in flight that
refers to one: an operation named by a route, a request or a pass has its row,
with the job it was created for; a status beyond `queued` and `enqueue_failed`
has an accepted start behind it.
-/

namespace VpnPanel.Worker

open VpnPanel.Lib VpnPanel.Backend

/-! ## Rows -/

/-- The table has the row of an operation, with the same job. -/
def HasRow (operations : List AsyncOperation) (operation : AsyncOperation) : Prop :=
  ∃ row ∈ operations, row.id = operation.id ∧ retryJob row = retryJob operation

variable {operations : List AsyncOperation} {operation row current : AsyncOperation}

theorem HasRow.self (h : operation ∈ operations) : HasRow operations operation :=
  ⟨operation, h, rfl, rfl⟩

theorem HasRow.append (h : HasRow operations operation) (rows : List AsyncOperation) :
    HasRow (operations ++ rows) operation := by
  obtain ⟨row, hrow, hid, hjob⟩ := h
  exact ⟨row, List.mem_append_left _ hrow, hid, hjob⟩

/-- A write that keeps the job of its row keeps every row known. -/
theorem HasRow.save (h : HasRow operations operation) (row : AsyncOperation)
    (hdistinct : Rows.Distinct AsyncOperation.id operations) (hcurrent : current ∈ operations)
    (hid : row.id = current.id)
    (hjob : retryJob row = retryJob current) :
    HasRow (Rows.save AsyncOperation.id row operations) operation := by
  obtain ⟨old, hold, hoid, hojob⟩ := h
  by_cases hsame : old.id = row.id
  · -- the row written is the one the operation refers to
    have heq : old = current := hdistinct.eq_of_key hold hcurrent (hsame.trans hid)
    subst heq
    exact ⟨row, Rows.mem_save.mpr (.inl ⟨rfl, old, hold, hid.symm⟩), hid.trans hoid,
      hjob.trans hojob⟩
  · exact ⟨old, Rows.mem_save.mpr (.inr ⟨hold, hsame⟩), hoid, hojob⟩

/-- How the routes fill the target columns: a job without a target argument has
no target, and the row has the target type of its command, except that the
Telegram proxy rows say `node`. -/
structure Job.Targeted (job : Job) : Prop where
  target : job.kind.targeted = false → job.targetId = none
  typed : job.targetType =
    some (if telegramProxyCommand job.kind then .node else job.kind.targetType)

/-- The operation rows, the accepted starts and the id supply. -/
structure TableSound (operations : List AsyncOperation) (accepted : List Nat)
    (nextId : Nat) : Prop where
  distinct : Rows.Distinct AsyncOperation.id operations
  below : Rows.Below AsyncOperation.id operations nextId
  targeted : ∀ row ∈ operations, Job.Targeted (retryJob row)
  notPending : ∀ row ∈ operations, row.status ≠ .pending
  started : ∀ row ∈ operations, row.status ∉ [.queued, .enqueueFailed] → row.id ∈ accepted
  unstarted : ∀ row ∈ operations, row.status = .queued → row.id ∉ accepted ∧ row.attempts = 0
  known : ∀ id ∈ accepted, ∃ row ∈ operations, row.id = id

namespace TableSound

variable {accepted : List Nat} {nextId : Nat}

/-- The rows of new jobs: queued, with ids from the supply. -/
theorem mem_newOperations {jobs : List Job} {id : Nat} {now : Time}
    (h : row ∈ newOperations jobs id now) :
    retryJob row ∈ jobs ∧ row.status = .queued ∧ row.attempts = 0 ∧ id ≤ row.id ∧
      row.id < id + 2 * jobs.length := by
  induction jobs generalizing id with
  | nil => cases h
  | cons job rest ih =>
      rw [List.length_cons]
      rcases List.mem_cons.mp h with rfl | h
      · refine ⟨List.mem_cons_self, rfl, rfl, Nat.le_refl _, ?_⟩
        show id < _
        omega
      · obtain ⟨hjob, hstatus, hattempts, hlow, hhigh⟩ := ih h
        refine ⟨List.mem_cons_of_mem _ hjob, hstatus, hattempts, ?_, ?_⟩ <;> omega

theorem newOperations_distinct (jobs : List Job) (id : Nat) (now : Time) :
    Rows.Distinct AsyncOperation.id (newOperations jobs id now) := by
  induction jobs generalizing id with
  | nil => exact List.nodup_nil
  | cons job rest ih =>
      refine List.nodup_cons.mpr ⟨fun hmem => ?_, ih (id + 2)⟩
      obtain ⟨row, hrow, hid⟩ := List.mem_map.mp hmem
      have hlow := (mem_newOperations hrow).2.2.2.1
      have hsame : row.id = id := hid
      omega

/-- New rows are appended under fresh ids. -/
theorem insert (h : TableSound operations accepted nextId) {jobs : List Job} {now : Time}
    (hjobs : ∀ job ∈ jobs, Job.Targeted job) :
    TableSound (operations ++ newOperations jobs nextId now) accepted
      (nextId + 2 * jobs.length) := by
  have hnew : ∀ row ∈ newOperations jobs nextId now, row.id ∉ accepted := by
    intro row hrow hacc
    obtain ⟨old, hold, hid⟩ := h.known _ hacc
    have hlow := (mem_newOperations hrow).2.2.2.1
    have hbelow := h.below old hold
    omega
  refine ⟨?_, ?_, ?_, ?_, ?_, ?_, ?_⟩
  · unfold Rows.Distinct
    rw [List.map_append, List.nodup_append]
    refine ⟨h.distinct, newOperations_distinct jobs nextId now, ?_⟩
    intro a ha b hb hab
    obtain ⟨old, hold, rfl⟩ := List.mem_map.mp ha
    obtain ⟨row, hrow, rfl⟩ := List.mem_map.mp hb
    have hlow := (mem_newOperations hrow).2.2.2.1
    have hbelow := h.below old hold
    omega
  · intro row hrow
    rcases List.mem_append.mp hrow with hrow | hrow
    · have hbelow := h.below row hrow
      omega
    · exact (mem_newOperations hrow).2.2.2.2
  · intro row hrow
    rcases List.mem_append.mp hrow with hrow | hrow
    · exact h.targeted row hrow
    · exact hjobs _ (mem_newOperations hrow).1
  · intro row hrow
    rcases List.mem_append.mp hrow with hrow | hrow
    · exact h.notPending row hrow
    · rw [(mem_newOperations hrow).2.1]
      decide
  · intro row hrow hstatus
    rcases List.mem_append.mp hrow with hrow | hrow
    · exact h.started row hrow hstatus
    · rw [(mem_newOperations hrow).2.1] at hstatus
      exact absurd List.mem_cons_self hstatus
  · intro row hrow hstatus
    rcases List.mem_append.mp hrow with hrow | hrow
    · exact h.unstarted row hrow hstatus
    · exact ⟨hnew row hrow, (mem_newOperations hrow).2.2.1⟩
  · intro id hid
    obtain ⟨row, hrow, hkey⟩ := h.known id hid
    exact ⟨row, List.mem_append_left _ hrow, hkey⟩

/-- A status write that keeps the job and leaves `queued`. -/
theorem save (h : TableSound operations accepted nextId) (hcurrent : current ∈ operations)
    (hid : row.id = current.id) (hjob : retryJob row = retryJob current)
    (hpending : row.status ≠ .pending) (hqueued : row.status ≠ .queued)
    (hstarted : row.status ≠ .enqueueFailed → current.id ∈ accepted) :
    TableSound (Rows.save AsyncOperation.id row operations) accepted nextId := by
  have hcase : ∀ r ∈ Rows.save AsyncOperation.id row operations, r = row ∨ r ∈ operations := by
    intro r hr
    rcases Rows.mem_save.mp hr with ⟨rfl, _⟩ | ⟨hr, _⟩
    · exact .inl rfl
    · exact .inr hr
  refine ⟨h.distinct.save, ?_, ?_, ?_, ?_, ?_, ?_⟩
  · intro r hr
    rcases hcase r hr with rfl | hr
    · rw [hid]
      exact h.below current hcurrent
    · exact h.below r hr
  · intro r hr
    rcases hcase r hr with rfl | hr
    · rw [hjob]
      exact h.targeted current hcurrent
    · exact h.targeted r hr
  · intro r hr
    rcases hcase r hr with rfl | hr
    · exact hpending
    · exact h.notPending r hr
  · intro r hr hstatus
    rcases hcase r hr with rfl | hr
    · rw [hid]
      refine hstarted fun hfailed => hstatus ?_
      rw [hfailed]
      exact List.mem_cons_of_mem _ List.mem_cons_self
    · exact h.started r hr hstatus
  · intro r hr hstatus
    rcases hcase r hr with rfl | hr
    · exact absurd hstatus hqueued
    · exact h.unstarted r hr hstatus
  · intro id hacc
    obtain ⟨r, hr, hkey⟩ := h.known id hacc
    by_cases hsame : r.id = row.id
    · exact ⟨row, Rows.mem_save.mpr (.inl ⟨rfl, r, hr, hsame⟩), hsame.symm.trans hkey⟩
    · exact ⟨r, Rows.mem_save.mpr (.inr ⟨hr, hsame⟩), hkey⟩

/-- A start is accepted: the row runs from here on. -/
theorem start (h : TableSound operations accepted nextId) (hcurrent : current ∈ operations)
    (hid : row.id = current.id) (hjob : retryJob row = retryJob current)
    (hrunning : row.status = .running) :
    TableSound (Rows.save AsyncOperation.id row operations) (accepted ++ [current.id]) nextId := by
  -- the other rows are read with the old list, the written one is in the new
  have hother : ∀ r ∈ Rows.save AsyncOperation.id row operations, r ≠ row →
      r ∈ operations ∧ r.id ≠ current.id := by
    intro r hr hne
    rcases Rows.mem_save.mp hr with ⟨rfl, _⟩ | ⟨hr, hkey⟩
    · exact absurd rfl hne
    · exact ⟨hr, hid ▸ hkey⟩
  refine ⟨h.distinct.save, ?_, ?_, ?_, ?_, ?_, ?_⟩
  · intro r hr
    by_cases hrow : r = row
    · rw [hrow, hid]
      exact h.below current hcurrent
    · exact h.below r (hother r hr hrow).1
  · intro r hr
    by_cases hrow : r = row
    · rw [hrow, hjob]
      exact h.targeted current hcurrent
    · exact h.targeted r (hother r hr hrow).1
  · intro r hr
    by_cases hrow : r = row
    · rw [hrow, hrunning]
      decide
    · exact h.notPending r (hother r hr hrow).1
  · intro r hr hstatus
    by_cases hrow : r = row
    · rw [hrow, hid]
      exact List.mem_append_right _ List.mem_cons_self
    · exact List.mem_append_left _ (h.started r (hother r hr hrow).1 hstatus)
  · intro r hr hstatus
    by_cases hrow : r = row
    · rw [hrow, hrunning] at hstatus
      cases hstatus
    · obtain ⟨hmem, hne⟩ := hother r hr hrow
      obtain ⟨hold, hattempts⟩ := h.unstarted r hmem hstatus
      refine ⟨fun hacc => ?_, hattempts⟩
      rcases List.mem_append.mp hacc with hacc | hacc
      · exact hold hacc
      · exact hne (List.mem_singleton.mp hacc)
  · intro id hacc
    rcases List.mem_append.mp hacc with hacc | hacc
    · obtain ⟨r, hr, hkey⟩ := h.known id hacc
      by_cases hsame : r.id = row.id
      · exact ⟨row, Rows.mem_save.mpr (.inl ⟨rfl, r, hr, hsame⟩), hsame.symm.trans hkey⟩
      · exact ⟨r, Rows.mem_save.mpr (.inr ⟨hr, hsame⟩), hkey⟩
    · refine ⟨row, Rows.mem_save.mpr (.inl ⟨rfl, current, hcurrent, hid.symm⟩), ?_⟩
      rw [hid, List.mem_singleton.mp hacc]

end TableSound

/-! ## Everything in flight -/

/-- The operations a task refers to have rows, and a row still to be created is
for a proper job. -/
def Task.Sound (operations : List AsyncOperation) : Task → Prop
  | .create job => Job.Targeted job
  | .publish operation | .markFailed operation _ | .republish operation =>
      HasRow operations operation
  | .send _ _ => True

structure StatusRequest.Sound (operations : List AsyncOperation) (accepted : List Nat)
    (request : StatusRequest) : Prop where
  row : HasRow operations request.read
  notPending : request.read.status ≠ .pending
  started : request.call ≠ .start → request.read.id ∈ accepted
  unstarted : request.call = .start → request.read.attempts = 0

/-- The rows a pass has still to go through. -/
def Recovery.rest : Recovery → List AsyncOperation
  | .republishing _ rest | .timingOut _ rest => rest
  | .sleeping | .stopped => []

structure Jobs.Sound (s : Jobs) : Prop where
  table : TableSound s.operations s.accepted s.nextId
  tasks : ∀ route ∈ s.routes, ∀ task ∈ route, task.Sound s.operations
  requests : ∀ request ∈ s.requests, request.Sound s.operations s.accepted
  recovery : ∀ operation ∈ s.recovery.rest, HasRow s.operations operation

theorem Task.Sound.later {operations' : List AsyncOperation}
    (hrows : ∀ operation, HasRow operations operation → HasRow operations' operation)
    {task : Task} (h : task.Sound operations) : task.Sound operations' := by
  cases task with
  | create job => exact h
  | send name target => trivial
  | publish operation => exact hrows _ h
  | markFailed operation error => exact hrows _ h
  | republish operation => exact hrows _ h

namespace Jobs.Sound

variable {s : Jobs}

/-- A change of the table that loses no row and no accepted start keeps what is
in flight. -/
theorem of_table (h : s.Sound) {operations' : List AsyncOperation} {accepted' : List Nat}
    {nextId' : Nat} (htable : TableSound operations' accepted' nextId')
    (hrows : ∀ operation, HasRow s.operations operation → HasRow operations' operation)
    (haccepted : s.accepted ⊆ accepted') (moves : List Move) :
    ({ s with operations := operations', accepted := accepted', nextId := nextId', moves } :
      Jobs).Sound where
  table := htable
  tasks route hroute task htask := (h.tasks route hroute task htask).later hrows
  requests request hrequest := by
    have hr := h.requests request hrequest
    exact ⟨hrows _ hr.row, hr.notPending, fun hcall => haccepted (hr.started hcall), hr.unstarted⟩
  recovery operation hop := hrows _ (h.recovery operation hop)

theorem accept (h : s.Sound) {tasks : List Task}
    (htasks : ∀ task ∈ tasks, task.Sound s.operations) : (s.accept tasks).Sound where
  table := h.table
  tasks route hroute task htask := by
    rcases List.mem_append.mp hroute with hroute | hroute
    · exact h.tasks route hroute task htask
    · rw [List.mem_singleton.mp hroute] at htask
      exact htasks task htask
  requests := h.requests
  recovery := h.recovery

theorem continue_ (h : s.Sound) (route : Nat) {tasks : List Task}
    (htasks : ∀ task ∈ tasks, task.Sound s.operations) : (s.continue_ route tasks).Sound where
  table := h.table
  tasks other hother task htask := by
    rcases List.mem_or_eq_of_mem_set hother with hother | rfl
    · exact h.tasks other hother task htask
    · exact htasks task htask
  requests := h.requests
  recovery := h.recovery

/-- A route ends. -/
theorem stop (h : s.Sound) (route : Nat) : (s.continue_ route []).Sound :=
  h.continue_ route fun _ htask => absurd htask List.not_mem_nil

theorem deliver (h : s.Sound) (command : WorkerCommand) : (s.deliver command).Sound :=
  ⟨h.table, h.tasks, h.requests, h.recovery⟩

/-- Ids may be drawn without being used. -/
theorem skipIds (h : s.Sound) (n : Nat) : ({ s with nextId := s.nextId + n } : Jobs).Sound := by
  refine h.of_table ?_ (fun _ hrow => hrow) (fun _ hid => hid) s.moves
  exact { h.table with below := fun row hrow => Nat.lt_add_right n (h.table.below row hrow) }

theorem insertRows (h : s.Sound) (jobs : List Job) (now : Time)
    (hjobs : ∀ job ∈ jobs, Job.Targeted job) :
    (s.insertRows (newOperations jobs s.nextId now) (s.nextId + 2 * jobs.length)).Sound :=
  h.of_table (h.table.insert hjobs) (fun _ hrow => hrow.append _) (fun _ hid => hid) s.moves

/-- A status write over a stored row that keeps its job. -/
theorem writeRow (h : s.Sound) {current row : AsyncOperation} (hcurrent : current ∈ s.operations)
    (hid : row.id = current.id) (hjob : retryJob row = retryJob current)
    (hpending : row.status ≠ .pending) (hqueued : row.status ≠ .queued)
    (hstarted : row.status ≠ .enqueueFailed → current.id ∈ s.accepted) :
    (s.writeRow current row).Sound :=
  h.of_table (h.table.save hcurrent hid hjob hpending hqueued hstarted)
    (fun _ hrow => hrow.save row h.table.distinct hcurrent hid hjob) (fun _ hid => hid) _

end Jobs.Sound

/-! ## Routes -/

variable {s : Jobs}

theorem targeted_job (command : Command) : Job.Targeted command.job := by
  cases command <;> exact ⟨nofun, rfl⟩

/-- Rows that were just inserted are there for the tasks that publish them. -/
theorem hasRow_new {jobs : List Job} {now : Time}
    (h : operation ∈ newOperations jobs s.nextId now) :
    HasRow (s.operations ++ newOperations jobs s.nextId now) operation :=
  .self (List.mem_append_right _ h)

theorem persistAndPublish_sound (h : s.Sound) {jobs : List Job} (now : Time)
    (hjobs : ∀ job ∈ jobs, Job.Targeted job) : (persistAndPublish s jobs now).Sound := by
  refine (h.insertRows jobs now hjobs).accept fun task htask => ?_
  obtain ⟨operation, hop, rfl⟩ := List.mem_map.mp htask
  exact hasRow_new hop

theorem provisionRecovery_sound (h : s.Sound) (nodeIds : List NodeId) (now : Time) :
    (provisionRecovery s nodeIds now).Sound := by
  have hjobs : ∀ job ∈ nodeIds.map provisionJob, Job.Targeted job := by
    intro job hjob
    obtain ⟨id, _, rfl⟩ := List.mem_map.mp hjob
    exact targeted_job _
  have hrows := h.insertRows _ now hjobs
  rw [List.length_map] at hrows
  refine hrows.accept fun task htask => ?_
  obtain ⟨operation, hop, rfl⟩ := List.mem_map.mp htask
  exact hasRow_new hop

/-- A route that goes on to create rows for proper jobs. -/
theorem Jobs.Sound.create (h : s.Sound) {jobs : List Job}
    (hjobs : ∀ job ∈ jobs, Job.Targeted job) : (s.accept (jobs.map .create)).Sound := by
  refine h.accept fun task htask => ?_
  obtain ⟨job, hjob, rfl⟩ := List.mem_map.mp htask
  exact hjobs job hjob

theorem panelRoute_sound (h : s.Sound) (cfg : Config) (now : Time) (request : Request) :
    (panelRoute cfg s now request).Sound := by
  unfold panelRoute
  split
  · exact h
  · next effect _ =>
      have hdb : ({ s with db := effect.db } : Jobs).Sound :=
        ⟨h.table, h.tasks, h.requests, h.recovery⟩
      have hjobs : ∀ job ∈ effect.queued.map Command.job, Job.Targeted job := by
        intro job hjob
        obtain ⟨command, _, rfl⟩ := List.mem_map.mp hjob
        exact targeted_job command
      dsimp only
      split
      · exact persistAndPublish_sound hdb now hjobs
      · exact hdb.create hjobs

theorem retryRoute_sound (h : s.Sound) (id : Nat) : (retryRoute s id).Sound := by
  unfold retryRoute apiRetryOperation
  cases hget : Rows.get? AsyncOperation.id s.operations id with
  | none => exact h
  | some row =>
      dsimp only
      split
      · exact h
      · next job hjob =>
          split at hjob
          · cases hjob
            refine h.accept fun task htask => ?_
            rw [List.mem_singleton.mp htask]
            exact h.table.targeted row (Rows.mem_of_get? hget)
          · cases hjob

theorem webhookRoute_sound (h : s.Sound) (payload : WebhookPayload) :
    (webhookRoute s payload).Sound := by
  unfold webhookRoute
  split
  · exact h
  · exact h
  · next row name target _ =>
      have hrow : ({ s with webhookEvents := s.webhookEvents ++ [row] } : Jobs).Sound :=
        ⟨h.table, h.tasks, h.requests, h.recovery⟩
      refine hrow.accept fun task htask => ?_
      rw [List.mem_singleton.mp htask]
      trivial

/-- A route with a single job for a node. -/
theorem Jobs.Sound.createOne (h : s.Sound) {job : Job} (hjob : Job.Targeted job) :
    (s.accept [.create job]).Sound := by
  refine h.accept fun task htask => ?_
  rw [List.mem_singleton.mp htask]
  exact hjob

theorem applyTelegramProxy_sound (h : s.Sound) : (applyTelegramProxy s).Sound := by
  unfold applyTelegramProxy
  split
  · split
    · exact h
    · exact h.createOne ⟨nofun, rfl⟩
  · exact h

theorem disableTelegramProxy_sound (h : s.Sound) : (disableTelegramProxy s).Sound := by
  unfold disableTelegramProxy
  split
  · exact h
  · next node _ =>
      have hset : ({ s with telegram := { s.telegram with enabled := false } } : Jobs).Sound :=
        ⟨h.table, h.tasks, h.requests, h.recovery⟩
      exact hset.createOne ⟨nofun, rfl⟩

theorem updateTelegramProxySettings_sound (h : s.Sound) (enabled : Bool)
    (primaryNodeId : Option NodeId) (secret : Option String) :
    (updateTelegramProxySettings s enabled primaryNodeId secret).Sound := by
  unfold updateTelegramProxySettings
  split
  · exact h
  · exact ⟨h.table, h.tasks, h.requests, h.recovery⟩

theorem apiProvisionNode_sound (h : s.Sound) (nodeId : NodeId) :
    (apiProvisionNode s nodeId).Sound := by
  unfold apiProvisionNode
  split
  · exact h
  · next node _ =>
      refine Jobs.Sound.createOne ?_ (targeted_job _)
      exact ⟨h.table, h.tasks, h.requests, h.recovery⟩

/-! ## Tasks, requests and passes -/

theorem operation?_mem {id : Nat} (h : s.operation? id = some current) :
    current ∈ s.operations ∧ current.id = id := ⟨Rows.mem_of_get? h, Rows.key_of_get? h⟩

/-- `enqueue_failed` over any row. -/
theorem markFailed_sound (h : s.Sound) (hcurrent : current ∈ s.operations) (error : String)
    (now : Time) : (s.writeRow current (markEnqueueFailed error current now)).Sound :=
  h.writeRow hcurrent rfl rfl nofun nofun fun hstatus => absurd rfl hstatus

theorem runTask_sound (h : s.Sound) {route : Nat} {task : Task} {rest : List Task}
    (hroute : s.routes[route]? = some (task :: rest)) (outcome : Publish) (now : Time) :
    (runTask s route task rest outcome now).Sound := by
  have hmem : (task :: rest) ∈ s.routes := List.mem_of_getElem? hroute
  have htask : task.Sound s.operations := h.tasks _ hmem task List.mem_cons_self
  have hrest : ∀ t ∈ rest, t.Sound s.operations := fun t ht =>
    h.tasks _ hmem t (List.mem_cons_of_mem _ ht)
  -- a publish that raised leaves the write of `enqueue_failed` for later
  have hfailed : ∀ (operation : AsyncOperation) (error : String), HasRow s.operations operation →
      ∀ t ∈ Task.markFailed operation error :: rest, t.Sound s.operations := by
    intro operation error hop t ht
    rcases List.mem_cons.mp ht with rfl | ht
    · exact hop
    · exact hrest t ht
  cases task with
  | create job =>
      have hrows := h.insertRows [job] now fun j hj => by
        rw [List.mem_singleton.mp hj]
        exact htask
      refine hrows.continue_ route fun t ht => ?_
      rcases List.mem_cons.mp ht with rfl | ht
      · exact .self (List.mem_append_right _ List.mem_cons_self)
      · exact (hrest t ht).later fun _ hrow => hrow.append _
  | publish operation =>
      show (publishTask s route operation rest outcome now).Sound
      cases outcome with
      | accepted => exact (h.deliver _).continue_ route hrest
      | refused error => exact h.continue_ route (hfailed operation error htask)
      | unconfirmed error =>
          exact (h.deliver _).continue_ route (hfailed operation error htask)
  | markFailed operation error =>
      show (markFailedTask s route operation error rest now).Sound
      unfold markFailedTask
      split
      · exact h.stop route
      · next current hop =>
          have hcurrent := (operation?_mem hop).1
          refine (markFailed_sound h hcurrent error now).continue_ route fun t ht => ?_
          show t.Sound (Rows.save _ (markEnqueueFailed error current now) s.operations)
          exact (hrest t ht).later fun _ hrow =>
            hrow.save (markEnqueueFailed error current now) h.table.distinct hcurrent rfl rfl
  | send name target =>
      show (sendTask s route name target outcome now).Sound
      cases outcome with
      | refused error => exact (h.skipIds 2).stop route
      | accepted => exact ((h.skipIds 2).deliver _).stop route
      | unconfirmed error => exact ((h.skipIds 2).deliver _).stop route
  | republish operation =>
      show (republishTask s route operation rest outcome).Sound
      unfold republishTask
      split
      · exact h.stop route
      · next command _ =>
          cases outcome with
          | accepted => exact (h.deliver command).continue_ route hrest
          | refused error => exact h.stop route
          | unconfirmed error => exact (h.deliver command).stop route

theorem readStatus_sound (h : s.Sound) (id : Nat) (call : StatusCall) :
    (readStatus s id call).Sound := by
  unfold readStatus
  split
  · exact h
  · next row hrow =>
      obtain ⟨hget, hallowed⟩ := ensureStatus_ok hrow
      have hmem := Rows.mem_of_get? hget
      refine ⟨h.table, h.tasks, fun request hrequest => ?_, h.recovery⟩
      rcases List.mem_append.mp hrequest with hrequest | hrequest
      · exact h.requests request hrequest
      · rw [List.mem_singleton.mp hrequest]
        refine ⟨.self hmem, h.table.notPending row hmem, fun hcall => ?_, fun hcall => ?_⟩
        · -- every call but a start has read `running`
          refine h.table.started row hmem fun hstatus => ?_
          cases call with
          | start => exact hcall rfl
          | _ =>
              rw [List.mem_singleton.mp hallowed] at hstatus
              simp at hstatus
        · have hcall : call = .start := hcall
          subst hcall
          rcases List.mem_cons.mp hallowed with hqueued | hpending
          · exact (h.table.unstarted row hmem hqueued).2
          · exact absurd (List.mem_singleton.mp hpending) (h.table.notPending row hmem)

/-- Only a start writes over an operation without an accepted start. -/
theorem StatusRequest.Sound.target_ne {accepted : List Nat} {request : StatusRequest}
    (h : request.Sound operations accepted) :
    request.call.target ≠ .pending ∧ request.call.target ≠ .queued ∧
      (request.call ≠ .start → request.read.id ∈ accepted) := by
  refine ⟨?_, ?_, h.started⟩ <;> cases request.call <;> exact nofun

theorem commitStatus_sound (h : s.Sound) {index : Nat} {request : StatusRequest}
    (hrequest : s.requests[index]? = some request) (now : Time) :
    (commitStatus s index request now).Sound := by
  have hr : request.Sound s.operations s.accepted :=
    h.requests request (List.mem_of_getElem? hrequest)
  obtain ⟨hpending, hqueued, hstarted⟩ := hr.target_ne
  have hdrop : ({ s with requests := s.requests.eraseIdx index } : Jobs).Sound :=
    ⟨h.table, h.tasks, fun r hmem => h.requests r (List.mem_of_mem_eraseIdx hmem), h.recovery⟩
  unfold commitStatus
  dsimp only
  split
  · exact hdrop
  · next current hop =>
      obtain ⟨hcurrent, hid⟩ := operation?_mem hop
      have hrow := write_id request.call request.read current now
      have hjob := write_job request.call request.read current now
      have hstatus := write_status request.call request.read current now
      have hrows : ∀ operation, HasRow s.operations operation →
          HasRow (Rows.save _ (request.call.write request.read current now) s.operations)
            operation := fun _ hr => hr.save _ h.table.distinct hcurrent hrow hjob
      by_cases hcall : request.call = .start
      · rw [hcall] at hrow hjob hstatus hrows ⊢
        exact hdrop.of_table (h.table.start hcurrent hrow hjob hstatus) hrows
          (List.subset_append_left _ _) _
      · have hsame : acceptedAfter s.accepted current.id request.call = s.accepted := by
          cases hother : request.call with
          | start => exact absurd hother hcall
          | _ => rfl
        rw [hsame]
        rw [← hstatus] at hpending hqueued
        refine hdrop.of_table (h.table.save hcurrent hrow hjob hpending hqueued fun _ => ?_) hrows
          (fun _ hid => hid) _
        rw [hid]
        exact hstarted hcall

/-- A listed row is stored. -/
theorem mem_staleOperations {status : OperationStatus} {seconds : Nat} {now : Time}
    (h : operation ∈ staleOperations operations status seconds now) :
    operation ∈ operations ∧ operation.status = status := by
  have hmem := (List.perm_insertionSort _ _).mem_iff.mp h
  have hfilter := List.mem_filter.mp hmem
  exact ⟨hfilter.1, (of_decide_eq_true hfilter.2).1⟩

theorem Jobs.Sound.setRecovery (h : s.Sound) (recovery : Recovery) (passes : List Pass)
    (hrest : ∀ operation ∈ recovery.rest, HasRow s.operations operation) :
    ({ s with recovery, passes } : Jobs).Sound := ⟨h.table, h.tasks, h.requests, hrest⟩

/-- A pass that has nothing left to go through. -/
theorem Jobs.Sound.endRecovery (h : s.Sound) (recovery : Recovery) (passes : List Pass)
    (hrest : recovery.rest = []) : ({ s with recovery, passes } : Jobs).Sound :=
  h.setRecovery recovery passes fun _ hop => by
    rw [hrest] at hop
    exact absurd hop List.not_mem_nil

theorem recover_sound (h : s.Sound) {settings : RecoverySettings} {now : Time} {s' : Jobs}
    (hstep : recover settings s now = some s') : s'.Sound := by
  have hlisted : ∀ status seconds, ∀ operation ∈ staleOperations s.operations status seconds now,
      HasRow s.operations operation := fun _ _ _ hop => .self (mem_staleOperations hop).1
  unfold recover at hstep
  split at hstep
  · exact Option.some.inj hstep ▸ h.setRecovery (.republishing _ _) s.passes (hlisted _ _)
  · next pass operation rest hrec =>
      have hrest : ∀ op ∈ rest, HasRow s.operations op := fun op hop =>
        h.recovery op (by rw [hrec]; exact List.mem_cons_of_mem _ hop)
      split at hstep
      · exact Option.some.inj hstep ▸ h.endRecovery .stopped s.passes rfl
      · next command _ =>
          exact Option.some.inj hstep ▸
            (h.deliver command).setRecovery (.republishing _ rest) s.passes hrest
  · exact Option.some.inj hstep ▸ h.setRecovery (.timingOut _ _) s.passes (hlisted _ _)
  · next pass operation rest hrec =>
      have hrest : ∀ op ∈ rest, HasRow s.operations op := fun op hop =>
        h.recovery op (by rw [hrec]; exact List.mem_cons_of_mem _ hop)
      split at hstep
      · exact Option.some.inj hstep ▸ h.endRecovery .stopped s.passes rfl
      · next current hop =>
          have hcurrent := (operation?_mem hop).1
          split at hstep
          · next hrunning =>
              have hstarted : current.id ∈ s.accepted := by
                refine h.table.started current hcurrent ?_
                rw [List.mem_singleton.mp hrunning]
                decide
              have hwritten : (s.writeRow current
                  (StatusCall.timeout.write current current now)).Sound :=
                h.writeRow hcurrent rfl rfl nofun nofun fun _ => hstarted
              exact Option.some.inj hstep ▸ hwritten.setRecovery (.timingOut _ rest) s.passes
                fun op hop => (hrest op hop).save _ h.table.distinct hcurrent rfl rfl
          · exact Option.some.inj hstep ▸ h.endRecovery .stopped s.passes rfl
  · exact Option.some.inj hstep ▸ h.endRecovery .sleeping _ rfl
  · cases hstep

/-! ## Every run -/

variable {cfg : Config} {settings : RecoverySettings}

/-- **Step.** -/
theorem sound_step {s' : Jobs} {event : JobEvent} (h : s.Sound)
    (hstep : (jobs cfg settings).step s event = some s') : s'.Sound := by
  obtain ⟨now, action⟩ := event
  have hclock : ({ s with clock := now } : Jobs).Sound :=
    ⟨h.table, h.tasks, h.requests, h.recovery⟩
  unfold jobs at hstep
  dsimp only at hstep
  split at hstep
  · cases hstep
  cases action with
  | request request => exact Option.some.inj hstep ▸ panelRoute_sound hclock cfg now request
  | triggerSync =>
      refine Option.some.inj hstep ▸ hclock.create fun job hjob => ?_
      rcases List.mem_cons.mp hjob with rfl | hjob
      · exact ⟨fun _ => rfl, rfl⟩
      · rw [List.mem_singleton.mp hjob]
        exact ⟨fun _ => rfl, rfl⟩
  | triggerRemnawaveSync => exact Option.some.inj hstep ▸ hclock.createOne ⟨fun _ => rfl, rfl⟩
  | triggerRemnawaveUserSync uuid =>
      rw [← Option.some.inj hstep]
      split
      · exact hclock.createOne ⟨nofun, rfl⟩
      · exact hclock
  | updateRemnawaveSettings enabled =>
      exact Option.some.inj hstep ▸ ⟨h.table, h.tasks, h.requests, h.recovery⟩
  | updateTelegramProxySettings enabled primaryNodeId secret =>
      exact Option.some.inj hstep ▸
        updateTelegramProxySettings_sound hclock enabled primaryNodeId secret
  | applyTelegramProxy => exact Option.some.inj hstep ▸ applyTelegramProxy_sound hclock
  | disableTelegramProxy => exact Option.some.inj hstep ▸ disableTelegramProxy_sound hclock
  | provisionNode nodeId => exact Option.some.inj hstep ▸ apiProvisionNode_sound hclock nodeId
  | provisionRecovery nodeIds =>
      exact Option.some.inj hstep ▸ provisionRecovery_sound hclock nodeIds now
  | retryOperation id => exact Option.some.inj hstep ▸ retryRoute_sound hclock id
  | webhook payload => exact Option.some.inj hstep ▸ webhookRoute_sound hclock payload
  | advance route outcome =>
      unfold act at hstep
      dsimp only at hstep
      split at hstep
      · next task rest hroute =>
          exact Option.some.inj hstep ▸ runTask_sound hclock hroute outcome now
      · cases hstep
  | readStatus id call => exact Option.some.inj hstep ▸ readStatus_sound hclock id call
  | commitStatus index =>
      obtain ⟨request, hrequest, rfl⟩ := Option.map_eq_some_iff.mp hstep
      exact commitStatus_sound hclock hrequest now
  | schedule name targetType =>
      exact Option.some.inj hstep ▸ (hclock.skipIds 1).deliver _
  | recover => exact recover_sound hclock hstep

theorem sound_init : ({} : Jobs).Sound := by
  have hempty : ∀ {α : Type} {P : α → Prop}, ∀ x ∈ ([] : List α), P x :=
    fun x hx => absurd hx List.not_mem_nil
  exact ⟨⟨List.nodup_nil, hempty, hempty, hempty, hempty, hempty, hempty⟩, hempty, hempty, hempty⟩

end VpnPanel.Worker
