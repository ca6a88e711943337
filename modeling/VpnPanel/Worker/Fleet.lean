import VpnPanel.Backend.Affected
import VpnPanel.Worker.World

/-!
# Observations in flight

The panel and the peer tables of its nodes when any number of jobs and
heartbeats run at once. A snapshot is applied any time after it was fetched, a
dump delivered any time after it was taken, as the answer of a sync or of a
heartbeat. `acknowledged` is not part of the system: it records which peers
their node had installed at some moment since they last turned pending.
-/

namespace VpnPanel.Worker

open VpnPanel.Lib VpnPanel.Backend

structure Fleet where
  panel : Panel := {}
  /-- The peers installed on each node. -/
  tables : NodeId → List CurrentPeer := fun _ => []
  /-- The snapshots that are still to be applied. -/
  snapshots : List NodeSnapshot := []
  /-- The dumps on their way, each with its node. -/
  dumps : List (NodeId × List PeerSyncResult) := []
  acknowledged : List PeerId := []

inductive FleetEvent
  | request (call : Call)
  | fetch (nodeId : NodeId)
  | apply (index : Nat)
  | applyFails (index requests : Nat)
  | dump (nodeId : NodeId) (readings : String → PeerReading)
  | syncResult (index : Nat) (interface : Option InterfaceResult) (now : Time)
  | heartbeatResult (index : Nat) (now : Time)

/-- A good answer of a node: it carries a dump. -/
def carriesDump : Request → Bool
  | .syncResult _ data => data.ok
  | .heartbeatResult _ data => data.ok
  | _ => false

/-- The request of an event. -/
def Fleet.call? (w : Fleet) : FleetEvent → Option Call
  | .request call => if carriesDump call.request then none else some call
  | .syncResult index interface now => (w.dumps[index]?).map fun dump =>
      ⟨now, .syncResult dump.1 { interface, peers := dump.2 }⟩
  | .heartbeatResult index now => (w.dumps[index]?).map fun dump =>
      ⟨now, .heartbeatResult dump.1 { peers := dump.2 }⟩
  | _ => none

/-- The state after the event's request; a delivered dump is gone. -/
def Fleet.handled (w : Fleet) (panel : Panel) : FleetEvent → Fleet
  | .syncResult index _ _ | .heartbeatResult index _ =>
      { w with panel, dumps := w.dumps.eraseIdx index }
  | _ => { w with panel }

/-- The next state, its record apart; `none` when the event is not enabled. -/
def Fleet.act (cfg : Config) (w : Fleet) (e : FleetEvent) : Option Fleet :=
  match e with
  | .fetch nodeId => (w.panel.db.node? nodeId).map fun node =>
      { w with snapshots := w.snapshots ++ [nodeSnapshot w.panel.db node] }
  | .apply index => (w.snapshots[index]?).map fun snapshot =>
      { w with
        tables := Function.update w.tables snapshot.id
          (applySnapshot (w.tables snapshot.id) snapshot.peers)
        snapshots := w.snapshots.eraseIdx index }
  | .applyFails index requests => (w.snapshots[index]?).map fun snapshot =>
      { w with
        tables := Function.update w.tables snapshot.id
          (applyPartly (w.tables snapshot.id) snapshot.peers requests)
        snapshots := w.snapshots.eraseIdx index }
  | .dump nodeId readings =>
      some { w with dumps := w.dumps ++ [(nodeId, peerResults (w.tables nodeId) readings)] }
  | e => (w.call? e).bind fun call =>
      ((Backend.panel cfg).step w.panel call).map fun panel => w.handled panel e

/-! ## The record -/

/-- The peer's node has its key. -/
def installedPeer (tables : NodeId → List CurrentPeer) (db : Db) (q : Peer) : Bool :=
  (devicePublicKey db q).any fun key => decide (Installed (tables q.nodeId) key)

/-- The row is new, turned `pending`, or came back to a live status. -/
def turnsPending (db : Db) (q : Peer) : Bool :=
  match db.peer? q.id with
  | none => true
  | some p => q.status = .pending && p.status ≠ .pending || q.status.live && !p.status.live

/-- The record after a step from `w` to `next`. -/
def Fleet.observe (w next : Fleet) : Fleet :=
  { next with
    acknowledged := (next.panel.db.peers.filter fun q =>
      installedPeer next.tables next.panel.db q ||
        !turnsPending w.panel.db q && q.id ∈ w.acknowledged).map (·.id) }

/-- The peer is live, and its node had it installed since it last turned
pending. -/
def Fleet.acked (w : Fleet) (id : PeerId) : Bool :=
  (w.panel.db.peer? id).any (·.status.live) && id ∈ w.acknowledged

def fleet (cfg : Config) : TSys Fleet FleetEvent where
  init := {}
  step w e := (w.act cfg e).map w.observe

/-! ## What a step does -/

variable {cfg : Config} {w w' : Fleet} {e : FleetEvent}

/-- A step leaves the tables of the panel alone or handles one request. -/
theorem fleet_panel (h : (fleet cfg).step w e = some w') :
    (w.call? e = none ∧ w'.panel = w.panel) ∨
      ∃ call, w.call? e = some call ∧ (panel cfg).step w.panel call = some w'.panel := by
  obtain ⟨next, hact, rfl⟩ := Option.map_eq_some_iff.mp h
  show (_ ∧ next.panel = _) ∨ ∃ call, _ ∧ _ = some next.panel
  have hcalled : ((w.call? e).bind fun call =>
      ((Backend.panel cfg).step w.panel call).map fun panel => w.handled panel e) = some next →
      ∃ call, w.call? e = some call ∧ (panel cfg).step w.panel call = some next.panel := by
    intro hbind
    obtain ⟨call, hcall, hstep⟩ := Option.bind_eq_some_iff.mp hbind
    obtain ⟨panel, hpanel, rfl⟩ := Option.map_eq_some_iff.mp hstep
    refine ⟨call, hcall, hpanel.trans ?_⟩
    cases e <;> rfl
  cases e with
  | fetch nodeId =>
      obtain ⟨node, -, rfl⟩ := Option.map_eq_some_iff.mp hact
      exact .inl ⟨rfl, rfl⟩
  | apply index =>
      obtain ⟨snapshot, -, rfl⟩ := Option.map_eq_some_iff.mp hact
      exact .inl ⟨rfl, rfl⟩
  | applyFails index requests =>
      obtain ⟨snapshot, -, rfl⟩ := Option.map_eq_some_iff.mp hact
      exact .inl ⟨rfl, rfl⟩
  | dump nodeId readings =>
      cases hact
      exact .inl ⟨rfl, rfl⟩
  | request call => exact .inr (hcalled hact)
  | syncResult index interface now => exact .inr (hcalled hact)
  | heartbeatResult index now => exact .inr (hcalled hact)

theorem fleet_panel_reachable (h : (fleet cfg).Reachable w) : (panel cfg).Reachable w.panel := by
  have hinit : (panel cfg).Reachable (panel cfg).init := .init
  refine TSys.Reaches.invariant (P := fun w : Fleet => (panel cfg).Reachable w.panel) hinit ?_ h
  intro w e w' hw _ hstep
  rcases fleet_panel hstep with ⟨-, heq⟩ | ⟨call, -, hcall⟩
  · rwa [heq]
  · exact .step hw trivial hcall

theorem fleet_wf (h : (fleet cfg).Reachable w) : w.panel.db.WF :=
  panel_wf (fleet_panel_reachable h)

/-- A live row that was live, and not just turned `pending`, stays
acknowledged. -/
theorem acknowledged_of_active (hstep : (fleet cfg).step w e = some w') {p q : Peer}
    (hp : w.panel.db.peer? q.id = some p) (hq : q ∈ w'.panel.db.peers)
    (hlive : p.status.live = true) (hactive : q.status = .active)
    (hack : q.id ∈ w.acknowledged) : q.id ∈ w'.acknowledged := by
  obtain ⟨next, -, rfl⟩ := Option.map_eq_some_iff.mp hstep
  have hkept : turnsPending w.panel.db q = false := by
    unfold turnsPending
    rw [hp]
    simp [hactive, hlive]
  refine List.mem_map.mpr ⟨q, List.mem_filter.mpr ⟨hq, ?_⟩, rfl⟩
  simp [hkept, hack]

end VpnPanel.Worker
