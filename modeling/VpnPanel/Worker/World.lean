import VpnPanel.Backend.Refine
import VpnPanel.Worker.Reconcile

/-!
# Panel, worker and nodes

The backend, one worker that runs its sync jobs one after another, and the peer
table of every node. A job fetches the snapshots of one node or of all nodes,
applies them in order and reports each before it turns to the next; admin
requests and heartbeats may fall between any two of these steps. An agent may
fail after some of the requests of an application, and the worker may drop its
job at any time.
-/

namespace VpnPanel.Worker

open VpnPanel.Lib VpnPanel.Backend

/-- What the agent's `/dump` says about one peer, its key apart. -/
structure PeerReading where
  endpoint : Option String := none
  rxBytes : Nat := 0
  txBytes : Nat := 0
  lastHandshake : Time := 0
  deriving DecidableEq, Repr

/-- `_peer_results`. The agent sends no status, so every entry is `active`. -/
def peerResults (table : List CurrentPeer) (readings : String → PeerReading) :
    List PeerSyncResult :=
  (table.filter (·.publicKey ≠ "")).map fun p =>
    let reading := readings p.publicKey
    { publicKey := p.publicKey
      status := some "active"
      endpoint := some reading.endpoint
      rxBytes := some reading.rxBytes
      txBytes := some reading.txBytes
      lastHandshake := some reading.lastHandshake }

theorem peerResults_active {table : List CurrentPeer} {readings : String → PeerReading} :
    ∀ entry ∈ peerResults table readings, entry.status = some "active" := by
  intro entry hentry
  obtain ⟨p, -, rfl⟩ := List.mem_map.mp hentry
  rfl

theorem mem_peerResults {table : List CurrentPeer} {readings : String → PeerReading} {key : String}
    (hne : key ≠ "") (h : Installed table key) :
    key ∈ (peerResults table readings).map (·.publicKey) := by
  obtain ⟨x, hx, rfl⟩ := h
  unfold peerResults
  rw [List.map_map, List.mem_map]
  exact ⟨x, List.mem_filter.mpr ⟨hx, by simpa using hne⟩, rfl⟩

/-! ## The system -/

structure World where
  panel : Panel := {}
  /-- The peers installed on each node. -/
  tables : NodeId → List CurrentPeer := fun _ => []
  /-- The snapshots of the running job that are still to be applied. -/
  fetched : List NodeSnapshot := []
  /-- The result of the running job that is still to be reported. -/
  result : Option (NodeId × SyncResult) := none
  /-- The heartbeat results on their way. -/
  heartbeats : List (NodeId × HeartbeatResult) := []

/-- The worker runs no job. -/
def World.idle (w : World) : Bool := w.fetched.isEmpty && w.result.isNone

inductive Event
  | request (call : Call)
  | fetchNode (nodeId : NodeId)
  | fetchAll
  | apply (interface : Option InterfaceResult) (readings : String → PeerReading)
  | applyFails (requests : Nat) (error : String)
  | report (now : Time)
  | abandon
  | heartbeat (nodeId : NodeId) (readings : String → PeerReading)
  | heartbeatFails (nodeId : NodeId) (error : String)
  | reportHeartbeat (index : Nat) (now : Time)

/-- The requests only the worker makes, with what it read on a node. -/
def isNodeResult : Request → Bool
  | .syncResult _ _ => true
  | .heartbeatResult _ _ => true
  | _ => false

/-- The next state; `none` when the event is not enabled. -/
def World.step (cfg : Config) (w : World) : Event → Option World
  | .request call =>
      if isNodeResult call.request then none
      else ((Backend.panel cfg).step w.panel call).map fun panel => { w with panel }
  | .fetchNode nodeId =>
      if w.idle then
        (w.panel.db.node? nodeId).map fun node =>
          { w with fetched := [nodeSnapshot w.panel.db node] }
      else none
  | .fetchAll => if w.idle then some { w with fetched := syncSnapshot w.panel.db } else none
  | .apply interface readings =>
      match w.fetched, w.result with
      | snapshot :: rest, none =>
          let table := applySnapshot (w.tables snapshot.id) snapshot.peers
          some { w with
            tables := Function.update w.tables snapshot.id table
            fetched := rest
            result := some (snapshot.id, { interface, peers := peerResults table readings }) }
      | _, _ => none
  | .applyFails requests error =>
      match w.fetched, w.result with
      | snapshot :: _, none =>
          let table := applyPartly (w.tables snapshot.id) snapshot.peers requests
          -- the failed report ends the job
          some { w with
            tables := Function.update w.tables snapshot.id table
            fetched := []
            result := some (snapshot.id, { ok := false, error := some error }) }
      | _, _ => none
  | .report now =>
      match w.result with
      | none => none
      | some (nodeId, data) =>
          ((Backend.panel cfg).step w.panel ⟨now, .syncResult nodeId data⟩).map fun panel =>
            { w with
              panel
              result := none
              -- a refused report ends the job
              fetched := if (w.panel.db.node? nodeId).isSome then w.fetched else [] }
  | .abandon => some { w with fetched := [], result := none }
  | .heartbeat nodeId readings =>
      some { w with heartbeats :=
        w.heartbeats ++ [(nodeId, { peers := peerResults (w.tables nodeId) readings })] }
  | .heartbeatFails nodeId error =>
      some { w with heartbeats := w.heartbeats ++ [(nodeId, { ok := false, error := some error })] }
  | .reportHeartbeat index now =>
      match w.heartbeats[index]? with
      | none => none
      | some (nodeId, data) =>
          ((Backend.panel cfg).step w.panel ⟨now, .heartbeatResult nodeId data⟩).map fun panel =>
            { w with panel, heartbeats := w.heartbeats.eraseIdx index }

def world (cfg : Config) : TSys World Event where
  init := {}
  step := World.step cfg

/-! ## What a step does -/

/-- What each event needs, and the state it leaves. -/
def Event.Does (cfg : Config) (w w' : World) : Event → Prop
  | .request call => isNodeResult call.request = false ∧
      ∃ next, (panel cfg).step w.panel call = some next ∧ w' = { w with panel := next }
  | .fetchNode nodeId => w.idle ∧ ∃ node ∈ w.panel.db.nodes, node.id = nodeId ∧
      w' = { w with fetched := [nodeSnapshot w.panel.db node] }
  | .fetchAll => w.idle ∧ w' = { w with fetched := syncSnapshot w.panel.db }
  | .apply interface readings => ∃ snapshot rest, w.fetched = snapshot :: rest ∧ w.result = none ∧
      w' = { w with
        tables := Function.update w.tables snapshot.id
          (applySnapshot (w.tables snapshot.id) snapshot.peers)
        fetched := rest
        result := some (snapshot.id, {
          interface
          peers := peerResults (applySnapshot (w.tables snapshot.id) snapshot.peers) readings }) }
  | .applyFails requests error => ∃ snapshot rest, w.fetched = snapshot :: rest ∧
      w.result = none ∧ w' = { w with
        tables := Function.update w.tables snapshot.id
          (applyPartly (w.tables snapshot.id) snapshot.peers requests)
        fetched := []
        result := some (snapshot.id, { ok := false, error := some error }) }
  | .report now => ∃ nodeId data, w.result = some (nodeId, data) ∧
      ∃ next, (panel cfg).step w.panel ⟨now, .syncResult nodeId data⟩ = some next ∧
        w' = { w with
          panel := next
          result := none
          fetched := if (w.panel.db.node? nodeId).isSome then w.fetched else [] }
  | .abandon => w' = { w with fetched := [], result := none }
  | .heartbeat nodeId readings => w' = { w with heartbeats :=
      w.heartbeats ++ [(nodeId, { peers := peerResults (w.tables nodeId) readings })] }
  | .heartbeatFails nodeId error => w' = { w with heartbeats :=
      w.heartbeats ++ [(nodeId, { ok := false, error := some error })] }
  | .reportHeartbeat index now => ∃ nodeId data, (nodeId, data) ∈ w.heartbeats ∧
      ∃ next, (panel cfg).step w.panel ⟨now, .heartbeatResult nodeId data⟩ = some next ∧
        w' = { w with panel := next, heartbeats := w.heartbeats.eraseIdx index }

variable {cfg : Config} {w w' : World} {e : Event}

theorem world_step (h : (world cfg).step w e = some w') : e.Does cfg w w' := by
  change World.step cfg w e = some w' at h
  cases e with
  | request call =>
      simp only [World.step] at h
      split at h
      · cases h
      · next hres =>
          obtain ⟨next, hnext, rfl⟩ := Option.map_eq_some_iff.mp h
          exact ⟨by simpa using hres, next, hnext, rfl⟩
  | fetchNode nodeId =>
      simp only [World.step] at h
      split at h
      · next hidle =>
          obtain ⟨node, hnode, rfl⟩ := Option.map_eq_some_iff.mp h
          exact ⟨hidle, node, Rows.mem_of_get? hnode, Rows.key_of_get? hnode, rfl⟩
      · cases h
  | fetchAll =>
      simp only [World.step] at h
      split at h
      · next hidle =>
          cases h
          exact ⟨hidle, rfl⟩
      · cases h
  | apply interface readings =>
      simp only [World.step] at h
      split at h
      · next snapshot rest hfetched hresult =>
          cases h
          exact ⟨snapshot, rest, hfetched, hresult, rfl⟩
      · cases h
  | applyFails requests error =>
      simp only [World.step] at h
      split at h
      · next snapshot rest hfetched hresult =>
          cases h
          exact ⟨snapshot, rest, hfetched, hresult, rfl⟩
      · cases h
  | report now =>
      simp only [World.step] at h
      split at h
      · cases h
      · next nodeId data hresult =>
          obtain ⟨next, hnext, rfl⟩ := Option.map_eq_some_iff.mp h
          exact ⟨nodeId, data, hresult, next, hnext, rfl⟩
  | abandon =>
      cases h
      rfl
  | heartbeat nodeId readings =>
      cases h
      rfl
  | heartbeatFails nodeId error =>
      cases h
      rfl
  | reportHeartbeat index now =>
      simp only [World.step] at h
      split at h
      · cases h
      · next nodeId data hget =>
          obtain ⟨next, hnext, rfl⟩ := Option.map_eq_some_iff.mp h
          exact ⟨nodeId, data, List.mem_of_getElem? hget, next, hnext, rfl⟩

/-- A step of the world leaves the panel alone or handles one request. -/
theorem world_panel (h : (world cfg).step w e = some w') :
    w'.panel = w.panel ∨ ∃ call, (panel cfg).step w.panel call = some w'.panel := by
  have hdoes := world_step h
  cases e with
  | request call =>
      obtain ⟨-, next, hnext, rfl⟩ := hdoes
      exact .inr ⟨call, hnext⟩
  | fetchNode nodeId =>
      obtain ⟨-, node, -, -, rfl⟩ := hdoes
      exact .inl rfl
  | fetchAll =>
      obtain ⟨-, rfl⟩ := hdoes
      exact .inl rfl
  | apply interface readings =>
      obtain ⟨snapshot, rest, -, -, rfl⟩ := hdoes
      exact .inl rfl
  | applyFails requests error =>
      obtain ⟨snapshot, rest, -, -, rfl⟩ := hdoes
      exact .inl rfl
  | report now =>
      obtain ⟨nodeId, data, -, next, hnext, rfl⟩ := hdoes
      exact .inr ⟨_, hnext⟩
  | reportHeartbeat index now =>
      obtain ⟨nodeId, data, -, next, hnext, rfl⟩ := hdoes
      exact .inr ⟨_, hnext⟩
  | _ =>
      have hsame := congrArg World.panel hdoes
      exact .inl hsame

theorem world_panel_reachable (h : (world cfg).Reachable w) : (panel cfg).Reachable w.panel := by
  have hinit : (panel cfg).Reachable (panel cfg).init := .init
  refine TSys.Reaches.invariant (P := fun w : World => (panel cfg).Reachable w.panel) hinit ?_ h
  intro w e w' hw _ hstep
  rcases world_panel hstep with heq | ⟨call, hcall⟩
  · rw [heq]
    exact hw
  · exact .step hw trivial hcall

/-- Every reachable world has well-formed tables. -/
theorem world_wf (h : (world cfg).Reachable w) : w.panel.db.WF :=
  panel_wf (world_panel_reachable h)

/-! ## One job at a time -/

/-- The nodes of the running job are distinct, and the one to be reported is
not to be applied again. -/
structure OneJob (w : World) : Prop where
  ids : (w.fetched.map (·.id)).Nodup
  reported : ∀ nodeId data, w.result = some (nodeId, data) → nodeId ∉ w.fetched.map (·.id)

theorem idle_iff : w.idle ↔ w.fetched = [] ∧ w.result = none := by
  unfold World.idle
  rw [Bool.and_eq_true, List.isEmpty_iff, Option.isNone_iff_eq_none]

theorem syncSnapshot_ids (db : Db) : (syncSnapshot db).map (·.id) = db.nodes.map (·.id) := by
  unfold syncSnapshot
  rw [List.map_map]
  rfl

theorem world_oneJob (h : (world cfg).Reachable w) : OneJob w := by
  refine TSys.Reaches.invariant_with (Q := fun w => w.panel.db.WF) (fun _ => world_wf)
    ⟨List.nodup_nil, fun _ _ h => by cases h⟩ ?_ h
  intro w e w' hwf hjob _ hstep
  have hdoes := world_step hstep
  cases e with
  | request call =>
      obtain ⟨-, next, -, rfl⟩ := hdoes
      exact ⟨hjob.ids, hjob.reported⟩
  | fetchNode nodeId =>
      obtain ⟨hidle, node, -, -, rfl⟩ := hdoes
      refine ⟨List.nodup_singleton _, fun n data hres => ?_⟩
      rw [(idle_iff.mp hidle).2] at hres
      cases hres
  | fetchAll =>
      obtain ⟨hidle, rfl⟩ := hdoes
      refine ⟨?_, fun n data hres => ?_⟩
      · rw [syncSnapshot_ids]
        exact hwf.nodeIds
      · rw [(idle_iff.mp hidle).2] at hres
        cases hres
  | apply interface readings =>
      obtain ⟨snapshot, rest, hfetched, -, rfl⟩ := hdoes
      have hids := hjob.ids
      rw [hfetched, List.map_cons, List.nodup_cons] at hids
      refine ⟨hids.2, fun n data hres => ?_⟩
      cases hres
      exact hids.1
  | applyFails requests error =>
      obtain ⟨snapshot, rest, -, -, rfl⟩ := hdoes
      exact ⟨List.nodup_nil, fun _ _ _ => List.not_mem_nil⟩
  | report now =>
      obtain ⟨nodeId, data, -, next, -, rfl⟩ := hdoes
      refine ⟨?_, fun _ _ hres => by cases hres⟩
      dsimp only
      split
      · exact hjob.ids
      · exact List.nodup_nil
  | abandon =>
      cases hdoes
      exact ⟨List.nodup_nil, fun _ _ _ => List.not_mem_nil⟩
  | heartbeat nodeId readings =>
      cases hdoes
      exact ⟨hjob.ids, hjob.reported⟩
  | heartbeatFails nodeId error =>
      cases hdoes
      exact ⟨hjob.ids, hjob.reported⟩
  | reportHeartbeat index now =>
      obtain ⟨nodeId, data, -, next, -, rfl⟩ := hdoes
      exact ⟨hjob.ids, hjob.reported⟩

end VpnPanel.Worker
