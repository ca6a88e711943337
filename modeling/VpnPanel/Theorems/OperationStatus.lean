import VpnPanel.Worker.JobSteps

/-!
# Operation status

The committed status of an operation under every interleaving of the routes
that enqueue it with the worker's status requests: which runs keep the status
machine, and which runs accept an operation's start at most once.
-/

namespace VpnPanel.Theorems

open VpnPanel.Lib VpnPanel.Backend VpnPanel.Worker

/-! ## The status machine -/

/-- A move of the status machine. Writing the status a row already has moves
nothing. -/
def Legal (move : Move) : Prop :=
  move.before = move.after ∨
    (move.before = .queued ∧ move.after ∈ [.running, .enqueueFailed]) ∨
    (move.before = .running ∧ move.after ∈ [.succeeded, .failed, .failedByTimeout])

def LegalMoves (s : Jobs) : Prop := ∀ move ∈ s.moves, Legal move

/-- A write that was overtaken. A status request commits over a status that is
neither the one it read nor the one it writes; or the publisher, whose publish
raised, finds its row no longer queued. -/
def overtaken (s : Jobs) (event : JobEvent) : Bool :=
  match event.action with
  | .commitStatus index => (s.requests[index]?).any fun request =>
      (s.operation? request.read.id).any fun current =>
        current.status ≠ request.read.status ∧ current.status ≠ request.call.target
  | .advance route _ =>
      match s.routes[route]? with
      | some (.markFailed operation _ :: _) => (s.operation? operation.id).any fun current =>
          current.status ≠ .queued ∧ current.status ≠ .enqueueFailed
      | _ => false
  | _ => false

variable {cfg : Config} {settings : RecoverySettings} {s s' t : Jobs} {event : JobEvent}

theorem legalMoves_append {move : Move} (h : LegalMoves s) (hmoves : s'.moves = s.moves ++ [move])
    (hmove : Legal move) : LegalMoves s' := by
  intro m hm
  rw [hmoves] at hm
  rcases List.mem_append.mp hm with hm | hm
  · exact h m hm
  · rw [List.mem_singleton.mp hm]
    exact hmove

/-- The commit of a status request is a move of the machine exactly when the
request was not overtaken. -/
theorem legal_commit_iff {request : StatusRequest} {current : AsyncOperation}
    (hpending : request.read.status ≠ .pending) :
    Legal ⟨current.id, current.status, request.call.target⟩ ↔
      ¬(current.status ≠ request.read.status ∧ current.status ≠ request.call.target) := by
  have hread := request.admitted
  unfold Legal
  cases hcall : request.call with
  | start =>
      rw [hcall] at hread
      have hqueued : request.read.status = .queued := by
        rcases List.mem_cons.mp hread with h | h
        · exact h
        · exact absurd (List.mem_singleton.mp h) hpending
      rw [hqueued]
      cases current.status <;> simp [StatusCall.target]
  | succeed result =>
      rw [hcall] at hread
      rw [List.mem_singleton.mp hread]
      cases current.status <;> simp [StatusCall.target]
  | fail error result =>
      rw [hcall] at hread
      rw [List.mem_singleton.mp hread]
      cases current.status <;> simp [StatusCall.target]
  | timeout =>
      rw [hcall] at hread
      rw [List.mem_singleton.mp hread]
      cases current.status <;> simp [StatusCall.target]

theorem legal_markFailed_iff {current : AsyncOperation} :
    Legal ⟨current.id, current.status, .enqueueFailed⟩ ↔
      ¬(current.status ≠ .queued ∧ current.status ≠ .enqueueFailed) := by
  unfold Legal
  cases current.status <;> simp

/-- A step of the recovery pass times out what is running, or writes nothing. -/
theorem recover_legal {now : Time} (h : LegalMoves s) (hstep : recover settings s now = some s') :
    LegalMoves s' := by
  unfold recover at hstep
  split at hstep
  · exact Option.some.inj hstep ▸ h
  · split at hstep <;> exact Option.some.inj hstep ▸ h
  · exact Option.some.inj hstep ▸ h
  · split at hstep
    · exact Option.some.inj hstep ▸ h
    · next current _ =>
        split at hstep
        · next hrunning =>
            have hmove : Legal ⟨current.id, current.status, .failedByTimeout⟩ :=
              .inr (.inr ⟨List.mem_singleton.mp hrunning, by simp⟩)
            exact Option.some.inj hstep ▸ legalMoves_append h rfl hmove
        · exact Option.some.inj hstep ▸ h
  · exact Option.some.inj hstep ▸ h
  · cases hstep

/-- The two ways a write is overtaken. -/
theorem overtaken_cases (h : overtaken s event = true) :
    (∃ index request current, event.action = .commitStatus index ∧
      s.requests[index]? = some request ∧ s.operation? request.read.id = some current ∧
      current.status ≠ request.read.status ∧ current.status ≠ request.call.target) ∨
    (∃ route outcome operation error rest current, event.action = .advance route outcome ∧
      s.routes[route]? = some (.markFailed operation error :: rest) ∧
      s.operation? operation.id = some current ∧
      current.status ≠ .queued ∧ current.status ≠ .enqueueFailed) := by
  unfold overtaken at h
  split at h
  · next index haction =>
      obtain ⟨request, hrequest, h⟩ := (Option.any_eq_true _ _).mp h
      obtain ⟨current, hcurrent, h⟩ := (Option.any_eq_true _ _).mp h
      exact .inl ⟨index, request, current, haction, hrequest, hcurrent, of_decide_eq_true h⟩
  · next route outcome haction =>
      split at h
      · next operation error rest hroute =>
          obtain ⟨current, hcurrent, h⟩ := (Option.any_eq_true _ _).mp h
          exact .inr ⟨route, outcome, operation, error, rest, current, haction, hroute, hcurrent,
            of_decide_eq_true h⟩
      · cases h
  · cases h

/-- **Step.** A step that is not overtaken keeps the moves legal. -/
theorem legalMoves_step (hs : s.Sound) (h : LegalMoves s) (hnot : ¬overtaken s event = true)
    (hstep : (jobs cfg settings).step s event = some s') : LegalMoves s' := by
  cases jobs_does hstep with
  | entered henters _ => exact fun m hm => h m (henters.moves ▸ hm)
  | published henters _ _ => exact fun m hm => h m (henters.moves ▸ hm)
  | @failed route outcome operation current error rest haction hroute hcurrent _ =>
      have hmoves := (jobs_step_markFailed hstep haction hroute hcurrent).2.1
      refine legalMoves_append h hmoves (legal_markFailed_iff.mpr fun hbad => hnot ?_)
      unfold overtaken
      rw [haction]
      dsimp only
      rw [hroute]
      exact (Option.any_eq_true _ _).mpr ⟨current, hcurrent, decide_eq_true hbad⟩
  | @committed index request current haction hrequest hcurrent _ =>
      have hmoves := (jobs_step_commit hstep haction hrequest hcurrent).2.1
      have hr := hs.requests request (List.mem_of_getElem? hrequest)
      refine legalMoves_append h hmoves ((legal_commit_iff hr.notPending).mpr fun hbad => hnot ?_)
      unfold overtaken
      rw [haction]
      exact (Option.any_eq_true _ _).mpr ⟨request, hrequest,
        (Option.any_eq_true _ _).mpr ⟨current, hcurrent, decide_eq_true hbad⟩⟩
  | recovered _ hrecover => exact recover_legal (s := { s with clock := event.now }) h hrecover

/-- An overtaken write leaves the machine. -/
theorem illegal_of_overtaken (hs : s.Sound) (hover : overtaken s event = true)
    (hstep : (jobs cfg settings).step s event = some s') : ¬LegalMoves s' := by
  intro hlegal
  rcases overtaken_cases hover with ⟨index, request, current, haction, hrequest, hcurrent, hbad⟩ |
    ⟨route, outcome, operation, error, rest, current, haction, hroute, hcurrent, hbad⟩
  · have hmoves := (jobs_step_commit hstep haction hrequest hcurrent).2.1
    have hr := hs.requests request (List.mem_of_getElem? hrequest)
    refine (legal_commit_iff hr.notPending).mp (hlegal _ ?_) hbad
    rw [hmoves]
    exact List.mem_append_right _ List.mem_cons_self
  · have hmoves := (jobs_step_markFailed hstep haction hroute hcurrent).2.1
    refine legal_markFailed_iff.mp (hlegal _ ?_) hbad
    rw [hmoves]
    exact List.mem_append_right _ List.mem_cons_self

/-- **Status machine.** A run of the job system keeps every operation's
committed status within the status machine exactly when none of its writes is
overtaken. -/
theorem status_machine_iff (cfg : Config) (settings : RecoverySettings) (t : Jobs)
    (steps : List (Jobs × JobEvent))
    (h : (jobs cfg settings).Trace (jobs cfg settings).init steps t) :
    (∀ s ∈ TSys.statesOf steps t, LegalMoves s) ↔ ∀ x ∈ steps, ¬overtaken x.1 x.2 = true := by
  refine TSys.Trace.forall_states_iff (I := fun s => s.Sound ∧ LegalMoves s)
    (A := fun _ _ => True) (B := fun s event => overtaken s event = true) (fun s hs => hs.2) ?_ ?_ h
    (fun _ _ => trivial) ⟨sound_init, fun m hm => absurd hm List.not_mem_nil⟩
  · intro s event s' hs _ hnot hstep
    exact ⟨sound_step hs.1 hstep, legalMoves_step hs.1 hs.2 hnot hstep⟩
  · intro s event s' hs _ hover hstep
    exact illegal_of_overtaken hs.1 hover hstep

/-- A sync is triggered; its first row and message are out, the worker starts
the operation and reports its result. -/
def syncAndReport : List JobEvent := [
  ⟨0, .triggerSync⟩, ⟨1, .advance 0 .accepted⟩, ⟨2, .advance 0 .accepted⟩,
  ⟨3, .readStatus 0 .start⟩, ⟨4, .commitStatus 0⟩,
  ⟨5, .readStatus 0 (.succeed none)⟩, ⟨6, .commitStatus 0⟩]

theorem status_machine_syncAndReport :
    ∃ steps t, (jobs exampleConfig {}).Trace (jobs exampleConfig {}).init steps t ∧
      t.moves = [⟨0, .queued, .running⟩, ⟨0, .running, .succeeded⟩] ∧
      ∀ s ∈ TSys.statesOf steps t, LegalMoves s := by
  have hrun : ((jobs exampleConfig {}).replay syncAndReport).any (fun t =>
      t.moves = [⟨0, .queued, .running⟩, ⟨0, .running, .succeeded⟩]) = true := by decide +kernel
  obtain ⟨t, ht, hmoves⟩ := TSys.replay_any hrun
  have hok : (jobs exampleConfig {}).ReplayOk (fun s event => ¬overtaken s event = true)
      (jobs exampleConfig {}).init syncAndReport := by decide +kernel
  obtain ⟨steps, htrace, hsteps⟩ := TSys.Trace.of_replayOk syncAndReport hok ht
  exact ⟨steps, t, htrace, of_decide_eq_true hmoves,
    (status_machine_iff exampleConfig {} t steps htrace).mpr hsteps⟩

/-- The publish raises although the broker has the message; the worker starts
the operation before the publisher writes `enqueue_failed`. -/
def startedThenFailed : List JobEvent := [
  ⟨0, .triggerSync⟩, ⟨1, .advance 0 .accepted⟩, ⟨2, .advance 0 (.unconfirmed "connection lost")⟩,
  ⟨3, .readStatus 0 .start⟩, ⟨4, .commitStatus 0⟩, ⟨5, .advance 0 .accepted⟩]

theorem running_overwritten :
    ∃ s, (jobs exampleConfig {}).Reachable s ∧ ⟨0, .running, .enqueueFailed⟩ ∈ s.moves ∧
      ¬LegalMoves s := by
  have hrun : ((jobs exampleConfig {}).replay startedThenFailed).any (fun s =>
      ⟨0, .running, .enqueueFailed⟩ ∈ s.moves) = true := by decide +kernel
  obtain ⟨s, hs, hmem⟩ := TSys.replay_any hrun
  have hmem := of_decide_eq_true hmem
  refine ⟨s, TSys.replay_reachable hs, hmem, fun hlegal => ?_⟩
  have hmove := hlegal _ hmem
  simp [Legal] at hmove

/-! ## At most one start -/

/-- No operation was started twice, and `attempts` counts its starts. -/
structure StartedOnce (s : Jobs) : Prop where
  once : ∀ id, s.accepted.count id ≤ 1
  attempts : ∀ row ∈ s.operations, row.attempts = s.accepted.count row.id

/-- A start request commits although another start of its operation has been
committed since it read the row. -/
def secondStart (s : Jobs) (event : JobEvent) : Bool :=
  match event.action with
  | .commitStatus index => (s.requests[index]?).any fun request =>
      request.call = .start && (s.operation? request.read.id).any fun current =>
        current.attempts ≠ request.read.attempts
  | _ => false

theorem secondStart_cases (h : secondStart s event = true) :
    ∃ index request current, event.action = .commitStatus index ∧
      s.requests[index]? = some request ∧ request.call = .start ∧
      s.operation? request.read.id = some current ∧
      current.attempts ≠ request.read.attempts := by
  unfold secondStart at h
  split at h
  · next index haction =>
      obtain ⟨request, hrequest, h⟩ := (Option.any_eq_true _ _).mp h
      obtain ⟨hcall, h⟩ := Bool.and_eq_true_iff.mp h
      obtain ⟨current, hcurrent, h⟩ := (Option.any_eq_true _ _).mp h
      exact ⟨index, request, current, haction, hrequest, of_decide_eq_true hcall, hcurrent,
        of_decide_eq_true h⟩
  · cases h

/-- New rows have no attempts and no start. -/
theorem startedOnce_insert (hs : s.Sound) (h : StartedOnce s) {jobs : List Job} {now : Time}
    (hoperations : s'.operations = s.operations ++ newOperations jobs s.nextId now)
    (haccepted : s'.accepted = s.accepted) : StartedOnce s' := by
  refine ⟨fun id => haccepted ▸ h.once id, fun row hrow => ?_⟩
  rw [haccepted]
  rw [hoperations] at hrow
  rcases List.mem_append.mp hrow with hrow | hrow
  · exact h.attempts row hrow
  · obtain ⟨-, -, hattempts, hlow, -⟩ := TableSound.mem_newOperations hrow
    rw [hattempts, eq_comm, List.count_eq_zero]
    intro hacc
    obtain ⟨old, hold, hid⟩ := hs.table.known row.id hacc
    have hbelow := hs.table.below old hold
    omega

/-- A write that leaves `attempts` and the starts alone. -/
theorem startedOnce_save (h : StartedOnce s) {current row : AsyncOperation}
    (hoperations : s'.operations = Rows.save AsyncOperation.id row s.operations)
    (haccepted : s'.accepted = s.accepted) (hcurrent : current ∈ s.operations)
    (hid : row.id = current.id) (hattempts : row.attempts = current.attempts) :
    StartedOnce s' := by
  refine ⟨fun id => haccepted ▸ h.once id, fun r hr => ?_⟩
  rw [haccepted]
  rw [hoperations] at hr
  rcases Rows.mem_save.mp hr with ⟨rfl, -⟩ | ⟨hr, -⟩
  · rw [hattempts, hid]
    exact h.attempts current hcurrent
  · exact h.attempts r hr

/-- The first start of an operation. -/
theorem startedOnce_start (h : StartedOnce s) {current row : AsyncOperation}
    (hcurrent : current ∈ s.operations) (hid : row.id = current.id)
    (hfirst : current.attempts = 0) (hattempts : row.attempts = 1)
    (hoperations : s'.operations = Rows.save AsyncOperation.id row s.operations)
    (haccepted : s'.accepted = s.accepted ++ [current.id]) : StartedOnce s' := by
  have hzero : s.accepted.count current.id = 0 := by
    rw [← h.attempts current hcurrent]
    exact hfirst
  have hcount : ∀ id, s'.accepted.count id =
      s.accepted.count id + if current.id = id then 1 else 0 := by
    intro id
    rw [haccepted, List.count_append, List.count_singleton]
    simp
  refine ⟨fun id => ?_, fun r hr => ?_⟩
  · rw [hcount]
    split
    · next hsame =>
        rw [← hsame, hzero]
    · exact h.once id
  · rw [hcount]
    rw [hoperations] at hr
    rcases Rows.mem_save.mp hr with ⟨rfl, -⟩ | ⟨hr, hother⟩
    · rw [hid, hzero, hattempts]
      simp
    · rw [if_neg (fun hsame => hother (hsame.symm.trans hid.symm))]
      exact h.attempts r hr

theorem recover_startedOnce {now : Time} (h : StartedOnce s)
    (hstep : recover settings s now = some s') : StartedOnce s' := by
  unfold recover at hstep
  split at hstep
  · exact Option.some.inj hstep ▸ ⟨h.once, h.attempts⟩
  · split at hstep <;> exact Option.some.inj hstep ▸ ⟨h.once, h.attempts⟩
  · exact Option.some.inj hstep ▸ ⟨h.once, h.attempts⟩
  · split at hstep
    · exact Option.some.inj hstep ▸ ⟨h.once, h.attempts⟩
    · next current hop =>
        split at hstep
        · exact Option.some.inj hstep ▸
            startedOnce_save h rfl rfl (operation?_mem hop).1 rfl rfl
        · exact Option.some.inj hstep ▸ ⟨h.once, h.attempts⟩
  · exact Option.some.inj hstep ▸ ⟨h.once, h.attempts⟩
  · cases hstep

/-- **Step.** A step that is no second start keeps the starts single. -/
theorem startedOnce_step (hs : s.Sound) (h : StartedOnce s) (hnot : ¬secondStart s event = true)
    (hstep : (jobs cfg settings).step s event = some s') : StartedOnce s' := by
  cases jobs_does hstep with
  | entered henters _ =>
      obtain ⟨jobs, hjobs⟩ := henters.operations
      exact startedOnce_insert hs h hjobs henters.accepted
  | published henters _ _ =>
      obtain ⟨jobs, hjobs⟩ := henters.operations
      exact startedOnce_insert hs h hjobs henters.accepted
  | @failed route outcome operation current error rest haction hroute hcurrent _ =>
      obtain ⟨hoperations, -, haccepted, -⟩ := jobs_step_markFailed hstep haction hroute hcurrent
      exact startedOnce_save h hoperations haccepted (operation?_mem hcurrent).1 rfl rfl
  | @committed index request current haction hrequest hcurrent _ =>
      obtain ⟨hoperations, -, haccepted, -⟩ := jobs_step_commit hstep haction hrequest hcurrent
      have hmem := (operation?_mem hcurrent).1
      have hid := write_id request.call request.read current event.now
      have hr := hs.requests request (List.mem_of_getElem? hrequest)
      cases hcall : request.call with
      | start =>
          rw [hcall] at hid hoperations haccepted
          have hread := hr.unstarted hcall
          -- the row still has the attempts the request read: none
          have hfirst : current.attempts = 0 := by
            by_contra hne
            refine hnot ?_
            unfold secondStart
            rw [haction]
            refine (Option.any_eq_true _ _).mpr ⟨request, hrequest, ?_⟩
            rw [hcall]
            refine (Option.any_eq_true _ _).mpr ⟨current, hcurrent, decide_eq_true ?_⟩
            rw [hread]
            exact hne
          refine startedOnce_start h hmem hid hfirst ?_ hoperations haccepted
          show request.read.attempts + 1 = 1
          rw [hread]
      | _ =>
          rw [hcall] at hid hoperations haccepted
          exact startedOnce_save h hoperations haccepted hmem hid rfl
  | recovered _ hrecover =>
      exact recover_startedOnce (s := { s with clock := event.now }) ⟨h.once, h.attempts⟩ hrecover

/-- A second start is accepted as the first one was. -/
theorem startedTwice_of_secondStart (hs : s.Sound) (h : StartedOnce s)
    (hsecond : secondStart s event = true)
    (hstep : (jobs cfg settings).step s event = some s') : ¬StartedOnce s' := by
  intro h'
  obtain ⟨index, request, current, haction, hrequest, hcall, hcurrent, hne⟩ :=
    secondStart_cases hsecond
  obtain ⟨-, -, haccepted, -⟩ := jobs_step_commit hstep haction hrequest hcurrent
  have hr := hs.requests request (List.mem_of_getElem? hrequest)
  rw [hcall] at haccepted
  have hbefore : s.accepted.count current.id ≠ 0 := by
    rw [← h.attempts current (operation?_mem hcurrent).1, ← hr.unstarted hcall]
    exact hne
  have hafter := h'.once current.id
  rw [haccepted] at hafter
  show False
  have hcount : (acceptedAfter s.accepted current.id .start).count current.id =
      s.accepted.count current.id + 1 := by
    show (s.accepted ++ [current.id]).count current.id = _
    rw [List.count_append, List.count_singleton_self]
  omega

/-- **At most one start.** A run accepts at most one start of every operation,
and counts it in `attempts`, exactly when no start request is committed after
another one of its operation that it did not see. -/
theorem started_once_iff (cfg : Config) (settings : RecoverySettings) (t : Jobs)
    (steps : List (Jobs × JobEvent))
    (h : (jobs cfg settings).Trace (jobs cfg settings).init steps t) :
    (∀ s ∈ TSys.statesOf steps t, StartedOnce s) ↔ ∀ x ∈ steps, ¬secondStart x.1 x.2 = true := by
  refine TSys.Trace.forall_states_iff (I := fun s => s.Sound ∧ StartedOnce s)
    (A := fun _ _ => True) (B := fun s event => secondStart s event = true) (fun s hs => hs.2)
    ?_ ?_ h (fun _ _ => trivial)
    ⟨sound_init, ⟨fun _ => Nat.zero_le _, fun _ hrow => absurd hrow List.not_mem_nil⟩⟩
  · intro s event s' hs _ hnot hstep
    exact ⟨sound_step hs.1 hstep, startedOnce_step hs.1 hs.2 hnot hstep⟩
  · intro s event s' hs _ hsecond hstep
    exact startedTwice_of_secondStart hs.1 hs.2 hsecond hstep

/-- A stale queued operation is republished while its first message is still
waiting; the two deliveries are handled one after the other. -/
def republishedAndStarted : List JobEvent := [
  ⟨0, .triggerSync⟩, ⟨1, .advance 0 .accepted⟩, ⟨2, .advance 0 .accepted⟩,
  ⟨40000000, .recover⟩, ⟨40000001, .recover⟩,
  ⟨40000002, .readStatus 0 .start⟩, ⟨40000003, .commitStatus 0⟩,
  ⟨40000004, .readStatus 0 .start⟩]

theorem started_once_republished :
    ∃ steps t, (jobs exampleConfig {}).Trace (jobs exampleConfig {}).init steps t ∧
      t.published.length = 2 ∧ t.accepted = [0] ∧ ∀ s ∈ TSys.statesOf steps t, StartedOnce s := by
  have hrun : ((jobs exampleConfig {}).replay republishedAndStarted).any (fun t =>
      t.published.length = 2 ∧ t.accepted = [0]) = true := by decide +kernel
  obtain ⟨t, ht, hfacts⟩ := TSys.replay_any hrun
  obtain ⟨hpublished, haccepted⟩ := of_decide_eq_true hfacts
  have hok : (jobs exampleConfig {}).ReplayOk (fun s event => ¬secondStart s event = true)
      (jobs exampleConfig {}).init republishedAndStarted := by decide +kernel
  obtain ⟨steps, htrace, hsteps⟩ := TSys.Trace.of_replayOk republishedAndStarted hok ht
  exact ⟨steps, t, htrace, hpublished, haccepted,
    (started_once_iff exampleConfig {} t steps htrace).mpr hsteps⟩

/-- Both deliveries of a republished operation read the row before either
commits. -/
def startedByBoth : List JobEvent := [
  ⟨0, .triggerSync⟩, ⟨1, .advance 0 .accepted⟩, ⟨2, .advance 0 .accepted⟩,
  ⟨40000000, .recover⟩, ⟨40000001, .recover⟩,
  ⟨40000002, .readStatus 0 .start⟩, ⟨40000003, .readStatus 0 .start⟩,
  ⟨40000004, .commitStatus 0⟩, ⟨40000005, .commitStatus 0⟩]

theorem started_twice :
    ∃ s, (jobs exampleConfig {}).Reachable s ∧ s.accepted = [0, 0] ∧ ¬StartedOnce s := by
  have hrun : ((jobs exampleConfig {}).replay startedByBoth).any (fun s =>
      s.accepted = [0, 0]) = true := by decide +kernel
  obtain ⟨s, hs, hacc⟩ := TSys.replay_any hrun
  have hacc := of_decide_eq_true hacc
  refine ⟨s, TSys.replay_reachable hs, hacc, fun honce => ?_⟩
  have h := honce.once 0
  rw [hacc] at h
  exact absurd h (by decide)

end VpnPanel.Theorems
