import VpnPanel.Worker.SyncAll

/-!
# Does one node's failure stop the others

`_handle_health_check_all` goes on past a node that fails. `_sync_all` does not:
the error that `_sync_snapshot` raises after its report ends the loop.
-/

namespace VpnPanel.Theorems

open VpnPanel.Backend VpnPanel.Worker

variable {σ α : Type} {op : NodeSnapshot → AgentM σ α}

/-! ## One operation after another -/

/-- What the operation ends with on each of the snapshots, and the agents
afterwards: no outcome keeps the next one from being attempted. -/
def outcomes (op : NodeSnapshot → AgentM σ α) :
    List NodeSnapshot → σ → List (Except Fault α) × σ
  | [], agents => ([], agents)
  | snapshot :: rest, agents =>
      let (outcome, agents) := attempt (op snapshot) agents
      let (others, agents) := outcomes op rest agents
      (outcome :: others, agents)

theorem outcomes_length (snapshots : List NodeSnapshot) (agents : σ) :
    (outcomes op snapshots agents).1.length = snapshots.length := by
  induction snapshots generalizing agents with
  | nil => rfl
  | cons snapshot rest ih => exact congrArg (· + 1) (ih _)

theorem mem_outcomes {snapshots : List NodeSnapshot} {agents : σ} {outcome : Except Fault α}
    (h : outcome ∈ (outcomes op snapshots agents).1) :
    ∃ snapshot agents, (attempt (op snapshot) agents).1 = outcome := by
  induction snapshots generalizing agents with
  | nil => cases h
  | cons snapshot rest ih =>
      rcases List.mem_cons.mp h with rfl | h
      · exact ⟨snapshot, agents, rfl⟩
      · exact ih h

/-- The results that are good are those of the attempts that returned. -/
theorem countP_good {β : Type} (result : Except Fault α → β) (good : β → Bool)
    (herror : ∀ fault, good (result (.error fault)) = false)
    (hok : ∀ snapshot agents value, (attempt (op snapshot) agents).1 = .ok value →
      good (result (.ok value)) = true) (snapshots : List NodeSnapshot) (agents : σ) :
    ((outcomes op snapshots agents).1.map result).countP good =
      (outcomes op snapshots agents).1.countP (·.isOk) := by
  rw [List.countP_map]
  refine List.countP_congr fun outcome hmem => ?_
  obtain ⟨snapshot, agents, houtcome⟩ := mem_outcomes hmem
  cases outcome with
  | error fault => simp [herror, Except.isOk, Except.toBool]
  | ok value => exact iff_of_true (hok snapshot agents value houtcome) rfl

/-- One report for each snapshot. -/
def reports {β : Type} (result : Except Fault α → β) (snapshots : List NodeSnapshot)
    (outcomes : List (Except Fault α)) : List (NodeId × β) :=
  List.zipWith (fun snapshot outcome => (snapshot.id, result outcome)) snapshots outcomes

/-- Every attempt on the snapshots returns. -/
def AllReturn (op : NodeSnapshot → AgentM σ α) (snapshots : List NodeSnapshot)
    (agents : σ) : Prop :=
  ∀ outcome ∈ (outcomes op snapshots agents).1, outcome.isOk = true

theorem allReturn_cons {snapshot : NodeSnapshot} {rest : List NodeSnapshot} {agents : σ} :
    AllReturn op (snapshot :: rest) agents ↔
      (attempt (op snapshot) agents).1.isOk = true ∧
        AllReturn op rest (attempt (op snapshot) agents).2 :=
  List.forall_mem_cons

theorem allReturn_nil (agents : σ) : AllReturn op [] agents :=
  fun _ hmem => absurd hmem List.not_mem_nil

/-- Where some attempt fails, one is the first. -/
theorem first_failure {snapshots : List NodeSnapshot} {agents : σ}
    (h : ¬AllReturn op snapshots agents) :
    ∃ before failing rest fault, snapshots = before ++ failing :: rest ∧
      AllReturn op before agents ∧
      (attempt (op failing) (outcomes op before agents).2).1 = .error fault := by
  induction snapshots generalizing agents with
  | nil => exact absurd (allReturn_nil agents) h
  | cons snapshot rest ih =>
      rw [allReturn_cons] at h
      cases hfirst : (attempt (op snapshot) agents).1 with
      | error fault => exact ⟨[], snapshot, rest, fault, rfl, allReturn_nil agents, hfirst⟩
      | ok value =>
          have hok : (attempt (op snapshot) agents).1.isOk = true := by
            rw [hfirst]
            rfl
          obtain ⟨before, failing, after, fault, rfl, hbefore, hfailing⟩ :=
            ih fun hrest => h ⟨hok, hrest⟩
          exact ⟨snapshot :: before, failing, after, fault, rfl,
            allReturn_cons.mpr ⟨hok, hbefore⟩, hfailing⟩

/-! ## The loop of the sync -/

variable {client : NodeClient σ} {snapshot : NodeSnapshot} {snapshots : List NodeSnapshot}

/-- The value of a call that is a function of another's. -/
theorem map_ok {β : Type} {f : β → α} {call : AgentM σ β} {agents : σ} {value : α}
    (h : (attempt (f <$> call) agents).1 = .ok value) : ∃ answer, value = f answer := by
  rw [attempt_map] at h
  cases hcall : (attempt call agents).1 with
  | error fault =>
      rw [hcall] at h
      cases h
  | ok answer =>
      rw [hcall] at h
      cases h
      exact ⟨answer, rfl⟩

/-- An application that raises nothing is a success. -/
theorem applySnapshot_ok {agents : σ} {result : SyncResult}
    (h : (attempt (client.applySnapshot snapshot) agents).1 = .ok result) : result.ok = true := by
  obtain ⟨answer, rfl⟩ := map_ok h
  rfl

/-- The run after the attempts on the snapshots, each with its report. -/
def reportedAll (client : NodeClient σ) (snapshots : List NodeSnapshot) (run : SyncRun σ) :
    SyncRun σ :=
  { run with
    agents := (outcomes client.applySnapshot snapshots run.agents).2
    syncResults := run.syncResults ++
      reports syncOutcome snapshots (outcomes client.applySnapshot snapshots run.agents).1 }

theorem reportedAll_nil (client : NodeClient σ) (run : SyncRun σ) :
    reportedAll client [] run = run :=
  SyncRun.ext rfl (List.append_nil _) rfl

theorem reportedAll_cons (client : NodeClient σ) (snapshot : NodeSnapshot)
    (rest : List NodeSnapshot) (run : SyncRun σ) :
    reportedAll client (snapshot :: rest) run =
      reportedAll client rest (reportedAll client [snapshot] run) :=
  SyncRun.ext rfl (List.append_cons _ _ _) rfl

theorem reportedAll_append (client : NodeClient σ) (snapshots rest : List NodeSnapshot)
    (run : SyncRun σ) :
    reportedAll client (snapshots ++ rest) run =
      reportedAll client rest (reportedAll client snapshots run) := by
  induction snapshots generalizing run with
  | nil => rw [reportedAll_nil, List.nil_append]
  | cons snapshot others ih => rw [List.cons_append, reportedAll_cons, ih, ← reportedAll_cons]

theorem syncSnapshot_eq (client : NodeClient σ) (snapshot : NodeSnapshot) (run : SyncRun σ) :
    client.syncSnapshot snapshot run =
      ((attempt (client.applySnapshot snapshot) run.agents).1.mapError (·.text),
        reportedAll client [snapshot] run) := by
  unfold NodeClient.syncSnapshot
  cases h : attempt (client.applySnapshot snapshot) run.agents with
  | mk outcome agents =>
      have hrun : reportedAll client [snapshot] run =
          { run with agents }.reportSync snapshot.id (syncOutcome outcome) := by
        unfold reportedAll reports outcomes
        rw [h]
        rfl
      rw [hrun]
      cases outcome with
      | error fault => rfl
      | ok result =>
          have hfirst : (attempt (client.applySnapshot snapshot) run.agents).1 = .ok result := by
            rw [h]
          have hok : result.ok = true := applySnapshot_ok hfirst
          show (if (!result.ok) = true then _ else _) = _
          rw [hok]
          rfl

theorem syncEach_cons_ok {run next : SyncRun σ} {result : SyncResult}
    (h : client.syncSnapshot snapshot run = (.ok result, next)) (results : List SyncResult)
    (rest : List NodeSnapshot) :
    client.syncEach results (snapshot :: rest) run =
      client.syncEach (results ++ [result]) rest next := by
  rw [NodeClient.syncEach, h]

theorem syncEach_cons_error {run next : SyncRun σ} {error : String}
    (h : client.syncSnapshot snapshot run = (.error error, next)) (results : List SyncResult)
    (rest : List NodeSnapshot) :
    client.syncEach results (snapshot :: rest) run = (.error error, next) := by
  rw [NodeClient.syncEach, h]

/-- As long as every application succeeds, the loop goes on. -/
theorem syncEach_append {run : SyncRun σ} {results : List SyncResult}
    (h : AllReturn client.applySnapshot snapshots run.agents) (rest : List NodeSnapshot) :
    client.syncEach results (snapshots ++ rest) run =
      client.syncEach
        (results ++ (outcomes client.applySnapshot snapshots run.agents).1.map syncOutcome) rest
        (reportedAll client snapshots run) := by
  induction snapshots generalizing run results with
  | nil =>
      rw [reportedAll_nil]
      exact congrArg (client.syncEach · rest run) (List.append_nil results).symm
  | cons snapshot others ih =>
      obtain ⟨hok, hothers⟩ := allReturn_cons.mp h
      have hsnapshot := syncSnapshot_eq client snapshot run
      cases hfirst : (attempt (client.applySnapshot snapshot) run.agents).1 with
      | error fault =>
          rw [hfirst] at hok
          cases hok
      | ok result =>
          have hresults : (outcomes client.applySnapshot (snapshot :: others) run.agents).1.map
              syncOutcome = result :: (outcomes client.applySnapshot others
                (reportedAll client [snapshot] run).agents).1.map syncOutcome := by
            show syncOutcome (attempt (client.applySnapshot snapshot) run.agents).1 :: _ = _
            rw [hfirst]
            rfl
          rw [hfirst] at hsnapshot
          rw [List.cons_append, syncEach_cons_ok hsnapshot, hresults,
            reportedAll_cons client snapshot others run]
          have hothers : AllReturn client.applySnapshot others
              (reportedAll client [snapshot] run).agents := hothers
          rw [ih hothers, List.append_assoc]
          rfl

theorem syncAll_ok {run : SyncRun σ} (h : AllReturn client.applySnapshot snapshots run.agents) :
    client.syncAll snapshots run =
      (.ok { nodes := snapshots.length, succeeded := snapshots.length, failed := 0 },
        reportedAll client snapshots run) := by
  have hlist : client.syncEach [] snapshots run =
      (.ok ((outcomes client.applySnapshot snapshots run.agents).1.map syncOutcome),
        reportedAll client snapshots run) := by
    refine (congrArg (client.syncEach [] · run) (List.append_nil snapshots).symm).trans ?_
    exact syncEach_append h []
  have hsucceeded : ((outcomes client.applySnapshot snapshots run.agents).1.map syncOutcome).countP
      (·.ok) = snapshots.length := by
    rw [countP_good syncOutcome _ (fun _ => rfl) fun _ _ _ => applySnapshot_ok,
      List.countP_eq_length.mpr h, outcomes_length]
  unfold NodeClient.syncAll
  rw [hlist]
  show (Except.ok (SyncCounts.mk _ _ _), _) = _
  rw [hsucceeded, List.length_map, outcomes_length, Nat.sub_self]

/-- The first failure ends the loop, after its report. -/
theorem syncAll_stops {run : SyncRun σ} {failing : NodeSnapshot} {fault : Fault}
    (h : AllReturn client.applySnapshot snapshots run.agents)
    (hfailing : (attempt (client.applySnapshot failing)
      (outcomes client.applySnapshot snapshots run.agents).2).1 = .error fault)
    (rest : List NodeSnapshot) :
    client.syncAll (snapshots ++ failing :: rest) run =
      (.error fault.text, reportedAll client (snapshots ++ [failing]) run) := by
  have hsnapshot := syncSnapshot_eq client failing (reportedAll client snapshots run)
  rw [show (reportedAll client snapshots run).agents =
    (outcomes client.applySnapshot snapshots run.agents).2 from rfl, hfailing] at hsnapshot
  unfold NodeClient.syncAll
  rw [syncEach_append h, syncEach_cons_error hsnapshot, reportedAll_append]
  rfl

/-! ## Isolation -/

/-- What a sync of all nodes is to do, whatever their agents do. -/
structure SyncIsolates (client : NodeClient σ) (snapshots : List NodeSnapshot)
    (run : SyncRun σ) : Prop where
  attempted : (client.syncAll snapshots run).2.agents =
    (outcomes client.applySnapshot snapshots run.agents).2
  reported : (client.syncAll snapshots run).2.syncResults = run.syncResults ++
    reports syncOutcome snapshots (outcomes client.applySnapshot snapshots run.agents).1
  counted : ∃ counts, (client.syncAll snapshots run).1 = .ok counts ∧
    counts.nodes = snapshots.length ∧
    counts.succeeded = (outcomes client.applySnapshot snapshots run.agents).1.countP (·.isOk) ∧
    counts.failed = (outcomes client.applySnapshot snapshots run.agents).1.countP (!·.isOk)

/-- A sync of all nodes is isolated exactly where no node's application raises. -/
theorem sync_isolates_iff (client : NodeClient σ) (snapshots : List NodeSnapshot)
    (run : SyncRun σ) :
    SyncIsolates client snapshots run ↔ AllReturn client.applySnapshot snapshots run.agents := by
  constructor
  · intro h
    by_contra hfails
    obtain ⟨before, failing, rest, fault, rfl, hbefore, hfailing⟩ := first_failure hfails
    obtain ⟨counts, hcounts, -⟩ := h.counted
    rw [syncAll_stops hbefore hfailing] at hcounts
    cases hcounts
  · intro h
    have hsucceeded : (outcomes client.applySnapshot snapshots run.agents).1.countP (·.isOk) =
        snapshots.length := by
      rw [List.countP_eq_length.mpr h, outcomes_length]
    have hfailed : (outcomes client.applySnapshot snapshots run.agents).1.countP (!·.isOk) = 0 :=
      List.countP_eq_zero.mpr fun outcome hmem => by simp [h outcome hmem]
    refine ⟨?_, ?_, ⟨snapshots.length, snapshots.length, 0⟩, ?_, rfl, hsucceeded.symm,
      hfailed.symm⟩ <;> rw [syncAll_ok h] <;> rfl

/-- The agents of `client`, but for the one behind a url: no connection to it
succeeds. -/
def unreachable (url : String) (client : NodeClient σ) : NodeClient σ :=
  let fault : Fault := { text := "All connection attempts failed" }
  { health := fun u => if u = url then throw fault else client.health u
    putInterface := fun e interface =>
      if e.url = url then throw fault else client.putInterface e interface
    status := fun e => if e.url = url then throw fault else client.status e
    putPeer := fun e peer => if e.url = url then throw fault else client.putPeer e peer
    deletePeer := fun e key => if e.url = url then throw fault else client.deletePeer e key
    dump := fun e => if e.url = url then throw fault else client.dump e }

def idleNode (id : NodeId) (url : String) : NodeSnapshot where
  id := id
  name := url
  url := url
  token := "token"
  provisionStatus := .succeeded
  interface := fun _ => none
  peers := []

/-- The first of two nodes is down: the second is neither attempted nor
reported, and nothing is counted. -/
theorem sync_isolates_not_unreachable :
    ¬SyncIsolates (unreachable "http://a" (answering fun _ => {}))
      [idleNode 1 "http://a", idleNode 2 "http://b"] { agents := fun _ => [] } := by
  intro h
  obtain ⟨counts, hcounts, -⟩ := h.counted
  cases hcounts

/-! ## The heartbeats -/

theorem probe_ok {agents : σ} {result : HeartbeatResult}
    (h : (attempt (client.probe snapshot) agents).1 = .ok result) : result.ok = true := by
  obtain ⟨answer, rfl⟩ := map_ok h
  rfl

/-- The run after the probes of the snapshots, each with its report. -/
def probedAll (client : NodeClient σ) (snapshots : List NodeSnapshot) (run : SyncRun σ) :
    SyncRun σ :=
  { run with
    agents := (outcomes client.probe snapshots run.agents).2
    heartbeatResults := run.heartbeatResults ++
      reports heartbeatOutcome snapshots (outcomes client.probe snapshots run.agents).1 }

theorem probedAll_nil (client : NodeClient σ) (run : SyncRun σ) :
    probedAll client [] run = run :=
  SyncRun.ext rfl rfl (List.append_nil _)

theorem probedAll_cons (client : NodeClient σ) (snapshot : NodeSnapshot)
    (rest : List NodeSnapshot) (run : SyncRun σ) :
    probedAll client (snapshot :: rest) run =
      probedAll client rest (probedAll client [snapshot] run) :=
  SyncRun.ext rfl rfl (List.append_cons _ _ _)

theorem heartbeatEach_eq (client : NodeClient σ) (snapshots : List NodeSnapshot)
    (run : SyncRun σ) (results : List HeartbeatResult) :
    client.heartbeatEach results snapshots run =
      (results ++ (outcomes client.probe snapshots run.agents).1.map heartbeatOutcome,
        probedAll client snapshots run) := by
  induction snapshots generalizing run results with
  | nil =>
      rw [probedAll_nil]
      exact congrArg (·, run) (List.append_nil results).symm
  | cons snapshot rest ih =>
      rw [probedAll_cons client snapshot rest run]
      refine (ih (probedAll client [snapshot] run) _).trans ?_
      rw [List.append_assoc]
      rfl

/-- A health check of all nodes attempts and reports each, whatever their
agents do. -/
theorem healthCheck_isolates (client : NodeClient σ) (snapshots : List NodeSnapshot)
    (run : SyncRun σ) :
    client.healthCheckAll snapshots run = ({
      nodes := snapshots.length
      reachable := (outcomes client.probe snapshots run.agents).1.countP (·.isOk)
      unreachable := snapshots.length -
        (outcomes client.probe snapshots run.agents).1.countP (·.isOk) },
      probedAll client snapshots run) := by
  unfold NodeClient.healthCheckAll
  rw [heartbeatEach_eq]
  dsimp only
  rw [List.nil_append, countP_good heartbeatOutcome _ (fun _ => rfl) fun _ _ _ => probe_ok,
    List.length_map, outcomes_length]

end VpnPanel.Theorems
