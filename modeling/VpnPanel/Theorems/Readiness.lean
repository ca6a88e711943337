import VpnPanel.Backend.Settled
import VpnPanel.Worker.Fleet

/-!
# Readiness is acknowledged

A peer turns `active` only when a dump that lists it is delivered. As long as
no delivered dump meets a pending peer that its node has not had installed
since it turned pending, every active peer was installed since then. A dump
that waited while its peer was removed and restored breaks this.
-/

namespace VpnPanel.Theorems

open VpnPanel.Lib VpnPanel.Backend VpnPanel.Worker

/-! ## Fresh deliveries -/

/-- No entry meets a pending peer that is not acknowledged, on the tables as the
entries before it left them. -/
def entriesAcked (cfg : Config) (acked : PeerId → Bool) (loaded : String → Option PeerId)
    (now : Time) : List PeerSyncResult → Db → Bool
  | [], _ => true
  | data :: rest, db =>
      (((loaded data.publicKey).bind db.peer?).all fun peer =>
        peer.status ≠ .pending || acked peer.id) &&
        entriesAcked cfg acked loaded now rest (applyPeerEntry cfg loaded { db } data now).db

/-- The entries of the request, on the tables they are applied to. -/
def answerAcked (cfg : Config) (acked : PeerId → Bool) (db : Db) (now : Time) : Request → Bool
  | .syncResult nodeId data => (db.node? nodeId).all fun node =>
      let db := db.saveNode (syncedNode node data now)
      entriesAcked cfg acked (loadedPeers db node.id) now data.peers db
  | .heartbeatResult nodeId data => (db.node? nodeId).all fun node =>
      let db := db.saveNode (applyNodeHeartbeatResult node data now)
      entriesAcked cfg acked (loadedPeers db node.id) now data.peers db
  | _ => true

/-- The event delivers no dump that meets a pending peer which its node has not
had installed since the peer turned pending. -/
def FreshDelivery (cfg : Config) (w : Fleet) (e : FleetEvent) : Prop :=
  ∀ call ∈ w.call? e, answerAcked cfg w.acked w.panel.db call.now call.request = true

instance (cfg : Config) (w : Fleet) (e : FleetEvent) : Decidable (FreshDelivery cfg w e) :=
  inferInstanceAs (Decidable (∀ call ∈ w.call? e,
    answerAcked cfg w.acked w.panel.db call.now call.request = true))

/-! ## Active rows through a request -/

section Requests

variable {cfg : Config} {db db' : Db} {acked : PeerId → Bool} {nodes : List NodeId}

/-- Every active row is acknowledged. -/
def ActiveAcked (acked : PeerId → Bool) (db : Db) : Prop :=
  ∀ q ∈ db.peers, q.status = .active → acked q.id = true

/-- Steps that report nothing make no row active. -/
theorem active_of_announces (h : Announces (fun _ => False) db db' nodes) {q : Peer}
    (hq : q ∈ db'.peers) (hactive : q.status = .active) :
    ∃ p ∈ db.peers, p.Same q ∧ p.status = .active := by
  cases h q hq with
  | kept hp hsame hst => exact ⟨_, hp, hsame, hst.trans hactive⟩
  | announced hout _ =>
      rw [Outstanding, hactive] at hout
      rcases hout with hout | hout <;> cases hout
  | confirmed hst =>
      rw [hactive] at hst
      cases hst
  | reported hrep => exact hrep.elim

theorem ActiveAcked.announces (hact : ActiveAcked acked db)
    (h : Announces (fun _ => False) db db' nodes) : ActiveAcked acked db' := by
  intro q hq hactive
  obtain ⟨p, hp, hsame, hst⟩ := active_of_announces h hq hactive
  rw [hsame.id]
  exact hact p hp hst

/-- One entry: an active row it leaves was active, or was pending and
acknowledged. -/
theorem ActiveAcked.reading (hact : ActiveAcked acked db) {peer : Peer} (hpeer : peer ∈ db.peers)
    (data : PeerSyncResult) (now : Time) (hok : peer.status = .pending → acked peer.id = true) :
    ActiveAcked acked (applyPeerResult db peer data now).2 := by
  rw [applyPeerResult_db]
  intro q hq hactive
  rcases Rows.mem_save.mp hq with ⟨rfl, -⟩ | ⟨hq, -⟩
  · rw [peerAfterResult_id]
    rw [peerAfterResult_status] at hactive
    have hreported : (peerResultStatus peer.status _ data.status).live = true :=
      congrArg PeerStatus.live hactive
    have hlive := (peerResultStatus_live hreported).1
    cases hst : peer.status with
    | active => exact hact peer hpeer hst
    | pending => exact hok hst
    | pendingDelete =>
        rw [hst] at hlive
        cases hlive
    | deleted =>
        rw [hst] at hlive
        cases hlive
  · exact hact q hq hactive

theorem ActiveAcked.entry {loaded : String → Option PeerId} {st : PeerResults}
    (hact : ActiveAcked acked st.db) (data : PeerSyncResult) (now : Time)
    (hok : ((loaded data.publicKey).bind st.db.peer?).all (fun peer =>
      peer.status ≠ .pending || acked peer.id) = true) :
    ActiveAcked acked (applyPeerEntry cfg loaded st data now).db := by
  unfold applyPeerEntry
  cases hp : (loaded data.publicKey).bind st.db.peer? with
  | none => exact hact
  | some peer =>
      have hread : ActiveAcked acked (applyPeerResult st.db peer data now).2 := by
        refine hact.reading (loaded_peer hp).1 data now fun hst => ?_
        simpa [hp, hst] using hok
      dsimp only
      split
      · let st' : PeerResults := { st with
          db := (applyPeerResult st.db peer data now).2
          acknowledgedOwnerIds := st.acknowledgedOwnerIds ++ [peer.userId] }
        have hlocal : ActiveAcked acked
            (enforceLocalLifecycleForUser cfg st'.db peer.userId now).2 :=
          hread.announces (announces_enforceLocal stable_none peer.userId now)
        exact hlocal.announces (announces_combinedFor peer.userId)
      · exact hread

theorem ActiveAcked.entries {loaded : String → Option PeerId} {now : Time}
    (entries : List PeerSyncResult) : ∀ {st : PeerResults}, ActiveAcked acked st.db →
      entriesAcked cfg acked loaded now entries st.db = true →
      ActiveAcked acked (applyPeerEntries cfg loaded now entries st).db := by
  induction entries with
  | nil => exact fun hact _ => hact
  | cons data rest ih =>
      intro st hact hok
      obtain ⟨hone, hrest⟩ := Bool.and_eq_true_iff.mp hok
      rw [← applyPeerEntry_db] at hrest
      exact ih (hact.entry data now hone) hrest

theorem ActiveAcked.results (hact : ActiveAcked acked db) (nodeId : NodeId)
    {entries : List PeerSyncResult} {now : Time}
    (hok : entriesAcked cfg acked (loadedPeers db nodeId) now entries db = true) :
    ActiveAcked acked (applyPeerResults cfg db nodeId entries now).db := by
  have hstart : ActiveAcked acked (PeerResults.db { db }) := hact
  exact hstart.entries entries hok

theorem ActiveAcked.sync (hwf : db.WF) (hact : ActiveAcked acked db) {node : Node}
    (hn : node ∈ db.nodes) (data : SyncResult) (now : Time)
    (hok : entriesAcked cfg acked (loadedPeers (db.saveNode (syncedNode node data now)) node.id) now
      data.peers (db.saveNode (syncedNode node data now)) = true) :
    ActiveAcked acked (applySyncResult cfg db node data now).db := by
  let saved := db.saveNode (syncedNode node data now)
  let confirmed := (confirmRemovals cfg saved node.id data now).db
  have hsaved : ActiveAcked acked saved := hact
  have hconfirmed : ActiveAcked acked confirmed :=
    (hsaved.results node.id hok).announces (announces_confirm node.id _)
  have hwfc : confirmed.WF := (syncConfirmed_writes hwf hn data now).wf hwf
  have hpeers := releaseDeviceIps_peers hwfc (releasedCandidates confirmed node.id) now
  intro q hq hactive
  have hkept := (List.mem_filter.mp ((purge_spec _).peers ▸ hq)).1
  rw [hpeers] at hkept
  exact hconfirmed q hkept hactive

/-- **One request.** An accepted request whose entries are acknowledged leaves
every active row acknowledged. -/
theorem ActiveAcked.handle {now : Time} {request : Request} {e : Effect} (hwf : db.WF)
    (hact : ActiveAcked acked db) (hacked : answerAcked cfg acked db now request = true)
    (hok : handle cfg db now request = .ok e) : ActiveAcked acked e.db := by
  by_cases hdump : carriesDump request = true
  · cases request with
    | syncResult nodeId data =>
        obtain ⟨node, hn, ⟨-, he⟩ | ⟨-, he⟩⟩ := nodeSyncResult_ok hok
        · rw [he]
          exact hact
        · rw [he]
          simp only [answerAcked, hn, Option.all_some] at hacked
          exact hact.sync hwf (Rows.mem_of_get? hn) data now hacked
    | heartbeatResult nodeId data =>
        obtain ⟨node, hn, he⟩ := nodeHeartbeatResult_ok hok
        rw [he]
        simp only [answerAcked, hn, Option.all_some] at hacked
        have hsaved : ActiveAcked acked (db.saveNode (applyNodeHeartbeatResult node data now)) :=
          hact
        unfold applyHeartbeatResult
        dsimp only
        split
        · exact hsaved.results node.id hacked
        · exact hsaved
    | _ => cases hdump
  · obtain ⟨nodes, hall, -⟩ := handle_covers hwf hok
    have hnone : ∀ q, Reports db q request → False := by
      -- an answer without a dump reports nothing
      intro q hrep
      cases request with
      | syncResult nodeId data => exact hdump hrep.1
      | heartbeatResult nodeId data => exact hdump hrep.1
      | _ => exact hrep
    have hquiet : Announces (fun _ => False) db e.db nodes := hall.imp hnone
    exact hact.announces hquiet

end Requests

/-! ## Every run -/

section Runs

variable {cfg : Config} {w w' : Fleet} {e : FleetEvent}

/-- Every active peer was installed since it last turned pending. -/
def Truthful (w : Fleet) : Prop :=
  ∀ q ∈ w.panel.db.peers, q.status = .active → q.id ∈ w.acknowledged

theorem Truthful.acked (hwf : w.panel.db.WF) (h : Truthful w) :
    ActiveAcked w.acked w.panel.db := by
  intro q hq hactive
  have hget : w.panel.db.peer? q.id = some q := hwf.peerIds.get?_eq_some hq
  unfold Fleet.acked
  simp [hget, hactive, PeerStatus.live, h q hq hactive]

/-- **One step.** -/
theorem Truthful.step (hwf : w.panel.db.WF) (h : Truthful w) (hfresh : FreshDelivery cfg w e)
    (hstep : (fleet cfg).step w e = some w') : Truthful w' := by
  have hacked : ActiveAcked w.acked w'.panel.db := by
    rcases fleet_panel hstep with ⟨-, heq⟩ | ⟨call, hcall, hpanel⟩
    · rw [heq]
      exact h.acked hwf
    · obtain ⟨-, hafter⟩ := panel_step hpanel
      rw [hafter]
      show ActiveAcked w.acked (afterRequest cfg w.panel.db call.now call.request)
      unfold afterRequest
      cases hans : handle cfg w.panel.db call.now call.request with
      | error err => exact h.acked hwf
      | ok effect => exact (h.acked hwf).handle hwf (hfresh call hcall) hans
  intro q hq hactive
  obtain ⟨hlive, hack⟩ := Bool.and_eq_true_iff.mp (hacked q hq hactive)
  obtain ⟨p, hp, hplive⟩ := (Option.any_eq_true _ _).mp hlive
  exact acknowledged_of_active hstep hp hq hplive hactive (by simpa using hack)

/-- **Readiness is truthful.** In every state of a run whose deliveries are
fresh, the node of an active peer had it installed at some moment after the
peer last turned pending; so had the node of an available config. -/
theorem active_acknowledged (cfg : Config) (w : Fleet)
    (hw : (fleet cfg).Reaches (FreshDelivery cfg) w) :
    (∀ q ∈ w.panel.db.peers, q.status = .active → q.id ∈ w.acknowledged) ∧
      ∀ (node : Node) (device : Device), ∀ q ∈ w.panel.db.peers,
        peerAvailable node device (some q) = true → q.id ∈ w.acknowledged := by
  have htruth : Truthful w := by
    refine TSys.Reaches.invariant_with (Q := fun w => w.panel.db.WF) (fun _ => fleet_wf)
      (fun _ hq => absurd hq List.not_mem_nil) ?_ hw
    exact fun _ _ _ hwf h hfresh hstep => h.step hwf hfresh hstep
  refine ⟨htruth, fun node device q hq havailable => htruth q hq ?_⟩
  unfold peerAvailable at havailable
  simp only [Bool.and_eq_true, Option.any_some, decide_eq_true_eq] at havailable
  exact havailable.1.1.2

end Runs

/-- The agent's own endpoint, which the panel caches. -/
def reportedEndpoint : InterfaceResult := fun field =>
  if field = .endpoint then some (.text "vpn.example:51820") else none

/-- The peer of the one device is put on its node, and the sync reports it. -/
def provisionedPeer : List FleetEvent := oneDevice.map .request ++ [
  .fetch 0, .apply 0, .dump 0 fun _ => {}, .syncResult 0 (some reportedEndpoint) 3]

/-- A heartbeat's dump waits while the account is blocked, its peer removed, and
the account unblocked again. -/
def lateHeartbeat : List FleetEvent := provisionedPeer ++ [
  .dump 0 fun _ => {}, .request ⟨4, .blockUser 1⟩,
  .fetch 0, .apply 0, .dump 0 fun _ => {}, .syncResult 1 none 5,
  .request ⟨6, .unblockUser 1⟩, .heartbeatResult 0 7]

/-- The active peer of a first sync is acknowledged. -/
theorem active_acknowledged_first_sync :
    ∃ w, (fleet exampleConfig).replay provisionedPeer = some w ∧
      ∃ q ∈ w.panel.db.peers, q.status = .active ∧ q.id ∈ w.acknowledged := by
  have hrun : ((fleet exampleConfig).replay provisionedPeer).any (fun w =>
      w.panel.db.peers.any fun q => q.status = .active) = true := by decide +kernel
  have hfresh : (fleet exampleConfig).ReplayOk (FreshDelivery exampleConfig) {}
      provisionedPeer := by decide +kernel
  obtain ⟨w, hw, hpeer⟩ := TSys.replay_any hrun
  obtain ⟨q, hq, hactive⟩ := List.any_eq_true.mp hpeer
  have hst : q.status = .active := by simpa using hactive
  refine ⟨w, hw, q, hq, hst, ?_⟩
  exact (active_acknowledged exampleConfig w (TSys.replay_reaches hfresh hw)).1 q hq hst

/-- The late heartbeat makes the restored peer active, and its config
available, though the node lost it before it was restored. -/
theorem late_heartbeat_activates :
    ∃ w, (fleet exampleConfig).replay lateHeartbeat = some w ∧
      ∃ node ∈ w.panel.db.nodes, ∃ device ∈ w.panel.db.devices, ∃ q ∈ w.panel.db.peers,
        q.status = .active ∧ q.id ∉ w.acknowledged ∧ w.tables q.nodeId = [] ∧
        peerAvailable node device (some q) = true := by
  have hrun : ((fleet exampleConfig).replay lateHeartbeat).any (fun w =>
      w.panel.db.nodes.any fun node => w.panel.db.devices.any fun device =>
        w.panel.db.peers.any fun q => q.status = .active && (decide (q.id ∉ w.acknowledged) &&
          (decide (w.tables q.nodeId = []) && peerAvailable node device (some q)))) = true := by
    decide +kernel
  obtain ⟨w, hw, hrest⟩ := TSys.replay_any hrun
  obtain ⟨node, hnode, hrest⟩ := List.any_eq_true.mp hrest
  obtain ⟨device, hdevice, hrest⟩ := List.any_eq_true.mp hrest
  obtain ⟨q, hq, hpeer⟩ := List.any_eq_true.mp hrest
  simp only [Bool.and_eq_true, decide_eq_true_eq] at hpeer
  exact ⟨w, hw, node, hnode, device, hdevice, q, hq, hpeer⟩

end VpnPanel.Theorems
