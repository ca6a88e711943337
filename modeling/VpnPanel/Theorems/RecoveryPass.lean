import VpnPanel.Worker.JobSteps

/-!
# The recovery pass

`recover_stale_operations` republishes the stale queued operations and times
out the stale running ones. An exception in it stops the worker: which runs
keep it going, and what a finished pass has done.
-/

namespace VpnPanel.Theorems

open VpnPanel.Lib VpnPanel.Backend VpnPanel.Worker

/-! ## Passes -/

/-- The rebuilt message says what the one `enqueue_operation` published for the
operation says. -/
structure Republished (operation : AsyncOperation) (message : WorkerCommand) : Prop where
  command : message.command = (operationCommand operation 0).command
  operationId : message.operationId = (operationCommand operation 0).operationId
  targetType : message.targetType = (operationCommand operation 0).targetType
  targetId : message.targetId = (operationCommand operation 0).targetId

/-- A pass republished every stale queued operation, and made a timeout request
for every stale running one, which moved it from `running` to
`failed_by_timeout`. -/
structure Faithful (pass : Pass) : Prop where
  republished : List.Forall₂ Republished pass.queued pass.republished
  requested : pass.timedOut.map (·.id) = pass.running.map (·.id)
  timedOut : ∀ move ∈ pass.timedOut, move.before = .running ∧ move.after = .failedByTimeout

/-- The worker is up, and the passes it has finished were faithful. -/
structure Recovering (s : Jobs) : Prop where
  up : s.recovery ≠ .stopped
  faithful : ∀ pass ∈ s.passes, Faithful pass

/-- The next step of the pass meets a Telegram proxy operation among the stale
queued ones, or a stale running operation that is not running any more. -/
def derails (s : Jobs) (event : JobEvent) : Bool :=
  match event.action with
  | .recover =>
      match s.recovery with
      | .republishing _ (operation :: _) => telegramProxyCommand operation.kind
      | .timingOut _ (operation :: _) =>
          (s.operation? operation.id).any fun row => row.status ≠ .running
      | _ => false
  | _ => false

/-- How far a pass is from its end: the phase, and what is left of its list. -/
def Recovery.rank : Recovery → Nat × Nat
  | .republishing _ rest => (1, rest.length)
  | .timingOut _ rest => (0, rest.length)
  | .sleeping | .stopped => (0, 0)

variable {cfg : Config} {settings : RecoverySettings} {s s' : Jobs} {event : JobEvent}

/-! ## One step -/

/-- What a pass under way has done so far. -/
def Recovery.OnTrack : Recovery → Prop
  | .sleeping => True
  | .stopped => False
  | .republishing pass rest => ∃ done, pass.queued = done ++ rest ∧
      List.Forall₂ Republished done pass.republished ∧ pass.timedOut = []
  | .timingOut pass rest => List.Forall₂ Republished pass.queued pass.republished ∧
      pass.timedOut.map (·.id) ++ rest.map (·.id) = pass.running.map (·.id) ∧
      ∀ move ∈ pass.timedOut, move.before = .running ∧ move.after = .failedByTimeout

/-- The target columns of an operation with a row. -/
theorem targeted_of_hasRow (hs : s.Sound) {operation : AsyncOperation}
    (h : HasRow s.operations operation) : Job.Targeted (retryJob operation) := by
  obtain ⟨row, hrow, -, hjob⟩ := h
  rw [← hjob]
  exact hs.table.targeted row hrow

/-- Rebuilding the command of a row fails for the Telegram proxy rows only. -/
theorem commandFromOperation_eq_none_iff (hs : s.Sound) {operation : AsyncOperation}
    (h : HasRow s.operations operation) :
    commandFromOperation operation = none ↔ telegramProxyCommand operation.kind = true := by
  have htyped : operation.targetType =
      some (if telegramProxyCommand operation.kind then .node else operation.kind.targetType) :=
    (targeted_of_hasRow hs h).typed
  unfold commandFromOperation validateTargetType
  dsimp only
  rw [htyped]
  by_cases htelegram : telegramProxyCommand operation.kind = true
  · simp [htelegram]
  · simp [htelegram]

theorem republished_of_command (hs : s.Sound) {operation : AsyncOperation} {command : WorkerCommand}
    (h : HasRow s.operations operation) (hcommand : commandFromOperation operation = some command) :
    Republished operation command := by
  have htargeted := targeted_of_hasRow hs h
  have htelegram : ¬telegramProxyCommand operation.kind = true := by
    intro htelegram
    rw [(commandFromOperation_eq_none_iff hs h).mpr htelegram] at hcommand
    cases hcommand
  have htyped : operation.targetType =
      some (if telegramProxyCommand operation.kind then .node else operation.kind.targetType) :=
    htargeted.typed
  rw [if_neg htelegram] at htyped
  unfold commandFromOperation validateTargetType at hcommand
  split at hcommand
  · cases hcommand
  · cases hcommand
    refine ⟨(jobCommand_command _ _ _ _).symm, (operationCommand_operationId _ _).symm, ?_, ?_⟩
    · refine Eq.trans ?_ (jobCommand_targetType _ _ _ _).symm
      dsimp only
      rw [htyped]
      rfl
    · refine Eq.trans ?_ (jobCommand_targetId _ _ _ _).symm
      dsimp only
      split
      · rfl
      · next hkind => exact htargeted.target (Bool.eq_false_iff.mpr hkind)

/-- A listed operation's row, by its id. -/
theorem operation?_of_hasRow {operation : AsyncOperation} (h : HasRow s.operations operation) :
    ∃ current, s.operation? operation.id = some current := by
  obtain ⟨row, hrow, hid, -⟩ := h
  cases hget : s.operation? operation.id with
  | none => exact absurd hid (Rows.get?_eq_none.mp hget row hrow)
  | some current => exact ⟨current, rfl⟩

/-- **Step of the pass.** -/
theorem recover_onTrack (hs : s.Sound) (htrack : Recovery.OnTrack s.recovery)
    (hpasses : ∀ pass ∈ s.passes, Faithful pass) {now : Time}
    (hnot : ¬derails s ⟨now, .recover⟩ = true) (hstep : recover settings s now = some s') :
    Recovery.OnTrack s'.recovery ∧ ∀ pass ∈ s'.passes, Faithful pass := by
  unfold recover at hstep
  unfold derails at hnot
  split at hstep
  · rw [← Option.some.inj hstep]
    exact ⟨⟨[], rfl, .nil, rfl⟩, hpasses⟩
  · next pass operation rest hrec =>
      rw [hrec] at htrack hnot
      have hrow : HasRow s.operations operation :=
        hs.recovery operation (by rw [hrec]; exact List.mem_cons_self)
      obtain ⟨done, hqueued, hdone, htimed⟩ := htrack
      cases hcommand : commandFromOperation operation with
      | none => exact absurd ((commandFromOperation_eq_none_iff hs hrow).mp hcommand) hnot
      | some command =>
          rw [hcommand] at hstep
          rw [← Option.some.inj hstep]
          refine ⟨⟨done ++ [operation], ?_, ?_, htimed⟩, hpasses⟩
          · rw [List.append_assoc]
            exact hqueued
          · exact List.rel_append hdone (.cons (republished_of_command hs hrow hcommand) .nil)
  · next pass hrec =>
      rw [hrec] at htrack
      obtain ⟨done, hqueued, hdone, htimed⟩ := htrack
      rw [List.append_nil] at hqueued
      rw [← Option.some.inj hstep]
      refine ⟨⟨?_, ?_, ?_⟩, hpasses⟩
      · show List.Forall₂ Republished pass.queued pass.republished
        rw [hqueued]
        exact hdone
      · show pass.timedOut.map _ ++ _ = _
        rw [htimed]
        rfl
      · intro move hmove
        have hmove : move ∈ pass.timedOut := hmove
        rw [htimed] at hmove
        cases hmove
  · next pass operation rest hrec =>
      rw [hrec] at htrack hnot
      have hrow : HasRow s.operations operation :=
        hs.recovery operation (by rw [hrec]; exact List.mem_cons_self)
      obtain ⟨hrepublished, hrequested, htimed⟩ := htrack
      obtain ⟨current, hcurrent⟩ := operation?_of_hasRow hrow
      have hrunning : current.status = .running := by
        by_contra hne
        exact hnot ((Option.any_eq_true _ _).mpr ⟨current, hcurrent, decide_eq_true hne⟩)
      have hid : current.id = operation.id := (operation?_mem hcurrent).2
      rw [hcurrent] at hstep
      dsimp only at hstep
      rw [if_pos (hrunning ▸ List.mem_cons_self)] at hstep
      rw [← Option.some.inj hstep]
      refine ⟨⟨hrepublished, ?_, ?_⟩, hpasses⟩
      · rw [List.map_append, List.append_assoc]
        show pass.timedOut.map _ ++ (current.id :: rest.map _) = _
        rw [hid]
        exact hrequested
      · intro move hmove
        rcases List.mem_append.mp hmove with hmove | hmove
        · exact htimed move hmove
        · rw [List.mem_singleton.mp hmove]
          exact ⟨hrunning, rfl⟩
  · next pass hrec =>
      rw [hrec] at htrack
      obtain ⟨hrepublished, hrequested, htimed⟩ := htrack
      rw [← Option.some.inj hstep]
      refine ⟨trivial, fun other hother => ?_⟩
      rcases List.mem_append.mp hother with hother | hother
      · exact hpasses other hother
      · rw [List.mem_singleton.mp hother]
        rw [List.map_nil, List.append_nil] at hrequested
        exact ⟨hrepublished, hrequested, htimed⟩
  · cases hstep

/-- **Step.** -/
theorem onTrack_step (hs : s.Sound) (htrack : Recovery.OnTrack s.recovery)
    (hpasses : ∀ pass ∈ s.passes, Faithful pass) (hnot : ¬derails s event = true)
    (hstep : (jobs cfg settings).step s event = some s') :
    Recovery.OnTrack s'.recovery ∧ ∀ pass ∈ s'.passes, Faithful pass := by
  cases jobs_does hstep with
  | entered henters _ => exact ⟨henters.recovery ▸ htrack, henters.passes ▸ hpasses⟩
  | published henters _ _ => exact ⟨henters.recovery ▸ htrack, henters.passes ▸ hpasses⟩
  | failed _ _ _ h => exact h ▸ ⟨htrack, hpasses⟩
  | committed _ _ _ h => exact h ▸ ⟨htrack, hpasses⟩
  | recovered haction hrecover =>
      refine recover_onTrack (s := { s with clock := event.now })
        ⟨hs.table, hs.tasks, hs.requests, hs.recovery⟩ htrack hpasses (fun hbad => hnot ?_) hrecover
      unfold derails
      rw [haction]
      exact hbad

/-- A derailed pass stops the worker. -/
theorem stopped_of_derails (hs : s.Sound) (hderails : derails s event = true)
    (hstep : (jobs cfg settings).step s event = some s') : s'.recovery = .stopped := by
  have hact := jobs_step hstep
  unfold derails at hderails
  split at hderails
  · next haction =>
      rw [haction] at hact
      have hact : recover settings { s with clock := event.now } event.now = some s' := hact
      unfold recover at hact
      dsimp only at hact
      split at hderails
      · next pass operation rest hrec =>
          have hrow : HasRow s.operations operation :=
            hs.recovery operation (by rw [hrec]; exact List.mem_cons_self)
          rw [hrec] at hact
          dsimp only at hact
          rw [(commandFromOperation_eq_none_iff hs hrow).mpr hderails] at hact
          exact Option.some.inj hact ▸ rfl
      · next pass operation rest hrec =>
          obtain ⟨current, hcurrent, hne⟩ := (Option.any_eq_true _ _).mp hderails
          have hop : ∀ recovery, ({ s with clock := event.now, recovery } : Jobs).operation?
              operation.id = some current := fun _ => hcurrent
          rw [hrec] at hact
          dsimp only at hact
          rw [hop] at hact
          dsimp only at hact
          have hnot : current.status ∉ StatusCall.timeout.allowed := fun hmem =>
            of_decide_eq_true hne (List.mem_singleton.mp hmem)
          rw [if_neg hnot] at hact
          exact Option.some.inj hact ▸ rfl
      · cases hderails
  · cases hderails

/-- A pass under way can always take its next step, which stops the worker, ends
the pass or brings it closer to its end. -/
def Proceeds (settings : RecoverySettings) (s : Jobs) : Prop :=
  s.recovery ≠ .sleeping → s.recovery ≠ .stopped → ∀ now, ∃ s', recover settings s now = some s' ∧
    (s'.recovery = .stopped ∨
      (∃ pass, s'.recovery = .sleeping ∧ s'.passes = s.passes ++ [pass]) ∨
      Prod.Lex (· < ·) (· < ·) (Recovery.rank s'.recovery) (Recovery.rank s.recovery))

theorem recover_proceeds (settings : RecoverySettings) (s : Jobs) : Proceeds settings s := by
  intro hawake hup now
  unfold recover
  cases hrec : s.recovery with
  | sleeping => exact absurd hrec hawake
  | stopped => exact absurd hrec hup
  | republishing pass rest =>
      cases rest with
      | nil => exact ⟨_, rfl, .inr (.inr (.left _ _ Nat.zero_lt_one))⟩
      | cons operation rest =>
          dsimp only
          split
          · exact ⟨_, rfl, .inl rfl⟩
          · exact ⟨_, rfl, .inr (.inr (.right _ (Nat.lt_succ_self _)))⟩
  | timingOut pass rest =>
      cases rest with
      | nil => exact ⟨_, rfl, .inr (.inl ⟨pass, rfl, rfl⟩)⟩
      | cons operation rest =>
          dsimp only
          split
          · exact ⟨_, rfl, .inl rfl⟩
          · split
            · exact ⟨_, rfl, .inr (.inr (.right _ (Nat.lt_succ_self _)))⟩
            · exact ⟨_, rfl, .inl rfl⟩

/-- **Recovery.** In every run a pass under way proceeds to its end. The run
keeps the worker up, and every pass it finishes is faithful, exactly when no
step of a pass meets a Telegram proxy operation among the stale queued ones or
a stale running operation that has since finished. -/
theorem recovery_faithful_iff (cfg : Config) (settings : RecoverySettings) (t : Jobs)
    (steps : List (Jobs × JobEvent))
    (h : (jobs cfg settings).Trace (jobs cfg settings).init steps t) :
    (∀ s ∈ TSys.statesOf steps t, Proceeds settings s) ∧
      ((∀ s ∈ TSys.statesOf steps t, Recovering s) ↔
        ∀ x ∈ steps, ¬derails x.1 x.2 = true) := by
  refine ⟨fun s _ => recover_proceeds settings s, ?_⟩
  refine TSys.Trace.forall_states_iff
    (I := fun s : Jobs => s.Sound ∧ Recovery.OnTrack s.recovery ∧ ∀ pass ∈ s.passes, Faithful pass)
    (A := fun _ _ => True) (B := fun s event => derails s event = true) ?_ ?_ ?_ h
    (fun _ _ => trivial) ⟨sound_init, trivial, fun _ hpass => absurd hpass List.not_mem_nil⟩
  · rintro s ⟨-, htrack, hpasses⟩
    refine ⟨fun hstopped => ?_, hpasses⟩
    rw [hstopped] at htrack
    exact htrack
  · rintro s event s' ⟨hs, htrack, hpasses⟩ - hnot hstep
    exact ⟨sound_step hs hstep, onTrack_step hs htrack hpasses hnot hstep⟩
  · rintro s event s' ⟨hs, -, -⟩ - hderails hstep hrecovering
    exact hrecovering.up (stopped_of_derails hs hderails hstep)

/-- A stale queued sync is republished, and a started one times out. -/
def stalePass : List JobEvent := [
  ⟨0, .triggerSync⟩, ⟨1, .advance 0 .accepted⟩, ⟨2, .advance 0 .accepted⟩,
  ⟨3, .advance 0 .accepted⟩, ⟨4, .advance 0 .accepted⟩,
  ⟨5, .readStatus 0 .start⟩, ⟨6, .commitStatus 0⟩,
  ⟨400000000, .recover⟩, ⟨400000001, .recover⟩, ⟨400000002, .recover⟩,
  ⟨400000003, .recover⟩, ⟨400000004, .recover⟩]

theorem recovery_faithful_stalePass :
    ∃ steps t, (jobs exampleConfig {}).Trace (jobs exampleConfig {}).init steps t ∧
      t.passes.map (fun pass => (pass.republished.map (·.operationId), pass.timedOut)) =
        [([2], [⟨0, .running, .failedByTimeout⟩])] ∧
      ∀ s ∈ TSys.statesOf steps t, Recovering s := by
  have hrun : ((jobs exampleConfig {}).replay stalePass).any (fun t =>
      t.passes.map (fun pass => (pass.republished.map (·.operationId), pass.timedOut)) =
        [([2], [⟨0, .running, .failedByTimeout⟩])]) = true := by decide +kernel
  obtain ⟨t, ht, hpasses⟩ := TSys.replay_any hrun
  have hok : (jobs exampleConfig {}).ReplayOk (fun s event => ¬derails s event = true)
      (jobs exampleConfig {}).init stalePass := by decide +kernel
  obtain ⟨steps, htrace, hsteps⟩ := TSys.Trace.of_replayOk stalePass hok ht
  exact ⟨steps, t, htrace, of_decide_eq_true hpasses,
    (recovery_faithful_iff exampleConfig {} t steps htrace).2.mpr hsteps⟩

/-- The Telegram proxy is applied to its node, and the message waits in the queue
until the operation is stale. -/
def staleTelegramApply : List JobEvent := [
  ⟨0, .request (.addNode { name := "a", url := "http://a", token := "t" })⟩,
  ⟨1, .updateTelegramProxySettings true (some 0) (some "secret")⟩,
  ⟨2, .applyTelegramProxy⟩, ⟨3, .advance 1 .accepted⟩, ⟨4, .advance 1 .accepted⟩,
  ⟨40000000, .recover⟩, ⟨40000001, .recover⟩]

/-- The pass that finds it raises, and the worker stops. -/
theorem recovery_stopped :
    ∃ s, (jobs exampleConfig {}).Reachable s ∧ ¬Recovering s := by
  have hrun : ((jobs exampleConfig {}).replay staleTelegramApply).any (fun s =>
      match s.recovery with | .stopped => true | _ => false) = true := by decide +kernel
  obtain ⟨s, hs, hstopped⟩ := TSys.replay_any hrun
  refine ⟨s, TSys.replay_reachable hs, fun hrecovering => ?_⟩
  split at hstopped
  · next hrec => exact hrecovering.up hrec
  · cases hstopped

end VpnPanel.Theorems
