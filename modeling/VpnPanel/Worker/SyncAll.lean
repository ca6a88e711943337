import VpnPanel.Worker.World

/-!
# All nodes, one after another

`_sync_all` and `_handle_health_check_all` of `worker/app/handlers.py`, over any
agents: a call may change the agents in any way, answer anything and raise at
any time. The backend takes every report.
-/

namespace VpnPanel.Worker

open VpnPanel.Lib VpnPanel.Backend

/-! ## The agents -/

/-- What a call raises; an HTTP error carries its status. -/
structure Fault where
  text : String
  statusCode : Option Nat := none
  deriving DecidableEq, Repr

/-- Where and with which token an agent is called. -/
structure Endpoint where
  url : String
  token : String
  deriving DecidableEq, Repr

/-- The answer of `GET /status`; an empty `interface` is none. -/
structure StatusAnswer where
  interface : Option InterfaceResult := none
  endpoint : Option String := none
  peers : List CurrentPeer := []

/-- The answer of `GET /dump`; an empty `interface` is none. -/
structure DumpAnswer where
  interface : Option InterfaceResult := none
  peers : List PeerSyncResult := []

/-- A call of agents in a state of `σ`. -/
abbrev AgentM (σ : Type) := ExceptT Fault (StateM σ)

/-- What a call ends with, and the agents after it. -/
def attempt {σ α : Type} (call : AgentM σ α) (agents : σ) : Except Fault α × σ :=
  call.run.run agents

/-- The requests of `NodeClient`. -/
structure NodeClient (σ : Type) where
  health : String → AgentM σ Unit
  putInterface : Endpoint → InterfaceResult → AgentM σ InterfaceResult
  status : Endpoint → AgentM σ StatusAnswer
  putPeer : Endpoint → DesiredPeer → AgentM σ Unit
  deletePeer : Endpoint → String → AgentM σ Unit
  dump : Endpoint → AgentM σ DumpAnswer

/-- `str.rstrip('/')`. -/
def rstripSlash (url : String) : String :=
  String.ofList (url.toList.reverse.dropWhile (· = '/')).reverse

def snapshotEndpoint (snapshot : NodeSnapshot) : Endpoint where
  url := rstripSlash snapshot.url
  token := snapshot.token

/-- `_interface_result`. -/
def interfaceResult (interface : InterfaceResult) (status : StatusAnswer) (dump : DumpAnswer) :
    InterfaceResult :=
  let result := (dump.interface.or status.interface).getD interface
  match status.endpoint with
  | none => result
  | some endpoint =>
      if endpoint = "" then result
      else fun field =>
        if field = .endpoint then (result field).or (some (.text endpoint)) else result field

/-- `_peer_results` of an answer. -/
def dumpResults (dump : DumpAnswer) : List PeerSyncResult :=
  (dump.peers.filter (·.publicKey ≠ "")).map fun peer =>
    { peer with
      status := if truthy peer.status then peer.status else some "active"
      endpoint := some (peer.endpoint.getD none) }

namespace NodeClient

variable {σ : Type} (client : NodeClient σ)

/-- `_delete_peer_if_present`. -/
def deletePeerIfPresent (endpoint : Endpoint) (publicKey : String) : AgentM σ Unit :=
  tryCatch (client.deletePeer endpoint publicKey) fun fault =>
    if fault.statusCode ≠ some 404 then throw fault else pure ()

/-- The calls of `_apply_snapshot`. -/
def exchange (snapshot : NodeSnapshot) :
    AgentM σ (InterfaceResult × StatusAnswer × DumpAnswer) := do
  let endpoint := snapshotEndpoint snapshot
  let interface ← client.putInterface endpoint snapshot.interface
  let currentStatus ← client.status endpoint
  let peers := plan snapshot.peers currentStatus.peers
  peers.1.forM (client.putPeer endpoint)
  peers.2.forM (client.deletePeerIfPresent endpoint)
  let status ← client.status endpoint
  let dump ← client.dump endpoint
  return (interface, status, dump)

/-- `_apply_snapshot`. -/
def applySnapshot (snapshot : NodeSnapshot) : AgentM σ SyncResult :=
  (fun (interface, status, dump) =>
    { ok := true
      interface := some (interfaceResult interface status dump)
      peers := dumpResults dump }) <$> client.exchange snapshot

/-- The calls of `_heartbeat_snapshot`. -/
def probe (snapshot : NodeSnapshot) : AgentM σ HeartbeatResult :=
  (fun dump => { ok := true, peers := dumpResults dump }) <$> do
    client.health (snapshotEndpoint snapshot).url
    client.dump (snapshotEndpoint snapshot)

end NodeClient

/-! ## The loops -/

/-- The agents, and what the backend was told. -/
@[ext] structure SyncRun (σ : Type) where
  agents : σ
  syncResults : List (NodeId × SyncResult) := []
  heartbeatResults : List (NodeId × HeartbeatResult) := []

/-- `report_sync_result`. -/
def SyncRun.reportSync {σ : Type} (run : SyncRun σ) (nodeId : NodeId) (result : SyncResult) :
    SyncRun σ :=
  { run with syncResults := run.syncResults ++ [(nodeId, result)] }

/-- `report_heartbeat_result`. -/
def SyncRun.reportHeartbeat {σ : Type} (run : SyncRun σ) (nodeId : NodeId)
    (result : HeartbeatResult) : SyncRun σ :=
  { run with heartbeatResults := run.heartbeatResults ++ [(nodeId, result)] }

/-- The `result` of `_sync_snapshot`. -/
def syncOutcome : Except Fault SyncResult → SyncResult
  | .ok result => result
  | .error fault => { ok := false, error := some fault.text }

/-- The `result` of `_heartbeat_snapshot`. -/
def heartbeatOutcome : Except Fault HeartbeatResult → HeartbeatResult
  | .ok result => result
  | .error fault => { ok := false, error := some fault.text }

/-- What `_sync_all` returns. -/
structure SyncCounts where
  nodes : Nat
  succeeded : Nat
  failed : Nat
  deriving DecidableEq, Repr

/-- What `_handle_health_check_all` returns. -/
structure HealthCounts where
  nodes : Nat
  reachable : Nat
  unreachable : Nat
  deriving DecidableEq, Repr

namespace NodeClient

variable {σ : Type} (client : NodeClient σ)

/-- `_sync_snapshot`: the result, or the text of the error it raises. -/
def syncSnapshot (snapshot : NodeSnapshot) (run : SyncRun σ) :
    Except String SyncResult × SyncRun σ :=
  let (outcome, agents) := attempt (client.applySnapshot snapshot) run.agents
  let result := syncOutcome outcome
  let run := { run with agents }.reportSync snapshot.id result
  if !result.ok then (.error (result.error.getD "None"), run) else (.ok result, run)

/-- The loop of `_sync_all`. -/
def syncEach (results : List SyncResult) :
    List NodeSnapshot → SyncRun σ → Except String (List SyncResult) × SyncRun σ
  | [], run => (.ok results, run)
  | snapshot :: rest, run =>
      match client.syncSnapshot snapshot run with
      | (.error error, run) => (.error error, run)
      | (.ok result, run) => syncEach (results ++ [result]) rest run

/-- `_sync_all` on the snapshots the backend sent. -/
def syncAll (snapshots : List NodeSnapshot) (run : SyncRun σ) :
    Except String SyncCounts × SyncRun σ :=
  let (results, run) := client.syncEach [] snapshots run
  (results.map fun results =>
    let succeeded := results.countP (·.ok)
    { nodes := results.length, succeeded, failed := results.length - succeeded }, run)

/-- `_heartbeat_snapshot`. -/
def heartbeatSnapshot (snapshot : NodeSnapshot) (run : SyncRun σ) :
    HeartbeatResult × SyncRun σ :=
  let (outcome, agents) := attempt (client.probe snapshot) run.agents
  let result := heartbeatOutcome outcome
  (result, { run with agents }.reportHeartbeat snapshot.id result)

/-- The loop of `_handle_health_check_all`. -/
def heartbeatEach (results : List HeartbeatResult) :
    List NodeSnapshot → SyncRun σ → List HeartbeatResult × SyncRun σ
  | [], run => (results, run)
  | snapshot :: rest, run =>
      let (result, run) := client.heartbeatSnapshot snapshot run
      heartbeatEach (results ++ [result]) rest run

/-- `_handle_health_check_all` on the snapshots the backend sent. -/
def healthCheckAll (snapshots : List NodeSnapshot) (run : SyncRun σ) :
    HealthCounts × SyncRun σ :=
  let (results, run) := client.heartbeatEach [] snapshots run
  let reachable := results.countP (·.ok)
  ({ nodes := results.length, reachable, unreachable := results.length - reachable }, run)

end NodeClient

/-! ## Calls in sequence -/

section

variable {σ α β : Type} {agents : σ}

theorem attempt_map (f : α → β) (call : AgentM σ α) (agents : σ) :
    attempt (f <$> call) agents = ((attempt call agents).1.map f, (attempt call agents).2) := by
  unfold attempt
  rw [ExceptT.run_map]
  rfl

theorem attempt_bind_ok {call : AgentM σ α} {next : α → AgentM σ β} {value : α} {after : σ}
    (h : attempt call agents = (.ok value, after)) :
    attempt (call >>= next) agents = attempt (next value) after := by
  unfold attempt at h ⊢
  rw [ExceptT.run_bind, StateT.run_bind, h]
  rfl

/-- Calls that all return, in the order of a list. -/
theorem attempt_forM {call : β → AgentM σ PUnit} {change : σ → β → σ}
    (h : ∀ agents x, attempt (call x) agents = (.ok ⟨⟩, change agents x)) (xs : List β)
    (agents : σ) : attempt (xs.forM call) agents = (.ok ⟨⟩, xs.foldl change agents) := by
  induction xs generalizing agents with
  | nil => rfl
  | cons x rest ih =>
      show attempt (call x >>= fun _ => rest.forM call) agents = _
      rw [attempt_bind_ok (h agents x)]
      exact ih _

end

/-! ## Clients whose every request returns -/

/-- Every request to the endpoint returns, and changes the agents as the functions
say. -/
structure NodeClient.Serves {σ : Type} (client : NodeClient σ) (endpoint : Endpoint)
    (configure : InterfaceResult → σ → σ) (status : σ → StatusAnswer)
    (put : σ → DesiredPeer → σ) (delete : σ → String → σ) (dump : σ → DumpAnswer) : Prop where
  putInterface : ∀ interface agents, ∃ answer,
    attempt (client.putInterface endpoint interface) agents =
      (.ok answer, configure interface agents)
  status : ∀ agents, attempt (client.status endpoint) agents = (.ok (status agents), agents)
  putPeer : ∀ agents peer,
    attempt (client.putPeer endpoint peer) agents = (.ok ⟨⟩, put agents peer)
  deletePeer : ∀ agents key,
    attempt (client.deletePeer endpoint key) agents = (.ok ⟨⟩, delete agents key)
  dump : ∀ agents, attempt (client.dump endpoint) agents = (.ok (dump agents), agents)

section

variable {σ : Type} {client : NodeClient σ} {endpoint : Endpoint}
  {configure : InterfaceResult → σ → σ} {status : σ → StatusAnswer}
  {put : σ → DesiredPeer → σ} {delete : σ → String → σ} {dump : σ → DumpAnswer}

theorem NodeClient.Serves.deletePeerIfPresent
    (h : client.Serves endpoint configure status put delete dump) (agents : σ) (key : String) :
    attempt (client.deletePeerIfPresent endpoint key) agents = (.ok ⟨⟩, delete agents key) := by
  have hdelete := h.deletePeer agents key
  unfold attempt at hdelete ⊢
  unfold NodeClient.deletePeerIfPresent
  show (ExceptT.tryCatch (client.deletePeer endpoint key) _).run.run agents = _
  unfold ExceptT.tryCatch
  rw [ExceptT.run_mk, StateT.run_bind]
  show (do let r ← (client.deletePeer endpoint key).run.run agents; _) = _
  rw [hdelete]
  rfl

/-- `_apply_snapshot` is the interface, and then the plan for what the agent
reports. -/
theorem NodeClient.Serves.applySnapshot {snapshot : NodeSnapshot}
    (h : client.Serves (snapshotEndpoint snapshot) configure status put delete dump)
    (agents : σ) :
    let configured := configure snapshot.interface agents
    let peers := plan snapshot.peers (status configured).peers
    ∃ result, attempt (client.applySnapshot snapshot) agents =
      (.ok result, peers.2.foldl delete (peers.1.foldl put configured)) := by
  intro configured peers
  obtain ⟨answer, hinterface⟩ := h.putInterface snapshot.interface agents
  let after := peers.2.foldl delete (peers.1.foldl put configured)
  have hexchange : attempt (client.exchange snapshot) agents =
      (.ok (answer, status after, dump after), after) := by
    refine (attempt_bind_ok hinterface).trans ?_
    refine (attempt_bind_ok (h.status _)).trans ?_
    refine (attempt_bind_ok (attempt_forM h.putPeer _ _)).trans ?_
    refine (attempt_bind_ok (attempt_forM h.deletePeerIfPresent _ _)).trans ?_
    refine (attempt_bind_ok (h.status _)).trans ?_
    exact attempt_bind_ok (h.dump _)
  unfold NodeClient.applySnapshot
  rw [attempt_map, hexchange]
  exact ⟨_, rfl⟩

end

/-! ## Agents that answer every request -/

/-- The peer table behind every url. -/
abbrev AgentTables := String → List CurrentPeer

def AgentTables.change (tables : AgentTables) (endpoint : Endpoint)
    (f : List CurrentPeer → List CurrentPeer) : AgentTables :=
  Function.update tables endpoint.url (f (tables endpoint.url))

/-- The agents of `tables`; `readings` is what a dump says of a key. -/
def answering (readings : String → PeerReading) : NodeClient AgentTables where
  health _ := pure ()
  putInterface _ interface := pure interface
  status endpoint := do
    let tables ← get
    return { peers := tables endpoint.url }
  putPeer endpoint peer := modify fun tables => tables.change endpoint (putPeer · peer)
  deletePeer endpoint key := modify fun tables => tables.change endpoint (deletePeer · key)
  dump endpoint := do
    let tables ← get
    return { peers := peerResults (tables endpoint.url) readings }

variable {readings : String → PeerReading} {endpoint : Endpoint} {tables : AgentTables}

theorem change_foldl {α : Type} (f : List CurrentPeer → α → List CurrentPeer) (xs : List α)
    (tables : AgentTables) :
    xs.foldl (fun tables x => tables.change endpoint (f · x)) tables =
      tables.change endpoint (xs.foldl f ·) := by
  induction xs generalizing tables with
  | nil => exact (Function.update_eq_self _ _).symm
  | cons x rest ih =>
      rw [List.foldl_cons, ih]
      unfold AgentTables.change
      rw [Function.update_self, Function.update_idem]
      rfl

/-- On such agents `_apply_snapshot` is the application of the plan. -/
theorem applySnapshot_answering (snapshot : NodeSnapshot) (tables : AgentTables) :
    ∃ result, attempt ((answering readings).applySnapshot snapshot) tables =
      (.ok result, tables.change (snapshotEndpoint snapshot) (applySnapshot · snapshot.peers)) := by
  have hserves : (answering readings).Serves (snapshotEndpoint snapshot)
      (fun _ tables => tables)
      (fun tables => { peers := tables (snapshotEndpoint snapshot).url })
      (fun tables peer => tables.change (snapshotEndpoint snapshot) (putPeer · peer))
      (fun tables key => tables.change (snapshotEndpoint snapshot) (deletePeer · key))
      (fun tables => { peers := peerResults (tables (snapshotEndpoint snapshot).url) readings }) :=
    ⟨fun interface _ => ⟨interface, rfl⟩, fun _ => rfl, fun _ _ => rfl, fun _ _ => rfl,
      fun _ => rfl⟩
  obtain ⟨result, hresult⟩ := hserves.applySnapshot tables
  refine ⟨result, hresult.trans ?_⟩
  rw [change_foldl, change_foldl]
  unfold AgentTables.change
  rw [Function.update_self, Function.update_idem]
  rfl

end VpnPanel.Worker
