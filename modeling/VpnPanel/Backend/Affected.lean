import VpnPanel.Backend.Departures

/-!
# The nodes a request affects

Each step of a request returns the nodes it affected, and the route queues a
sync for them. `Announces` follows the peers through the steps: one that moves
becomes `pending` or `pending_delete` on one of these nodes, or is confirmed
`deleted`, or has the status its node reports.
-/

namespace VpnPanel.Backend

open VpnPanel.Lib

variable {cfg : Config} {db db' db'' : Db} {nodes nodes' : List NodeId} {reported : Peer → Prop}

/-- A node has work to do for the peer. -/
def Outstanding (p : Peer) : Prop := p.status = .pending ∨ p.status = .pendingDelete

/-- How a peer row after some steps came by its status. -/
inductive Accounted (reported : Peer → Prop) (before : List Peer) (nodes : List NodeId)
    (q : Peer) : Prop
  | kept {p : Peer} (hp : p ∈ before) (hsame : p.Same q) (hst : p.status = q.status)
  | announced (hout : Outstanding q) (hmem : q.nodeId ∈ nodes)
  | confirmed (hst : q.status = .deleted)
  | reported (hrep : reported q)

/-- Every row is accounted for, the moved ones by the nodes. -/
def Announces (reported : Peer → Prop) (db db' : Db) (nodes : List NodeId) : Prop :=
  ∀ q ∈ db'.peers, Accounted reported db.peers nodes q

namespace Announces

theorem of_subset (h : ∀ q ∈ db'.peers, q ∈ db.peers) : Announces reported db db' nodes :=
  fun q hq => .kept (h q hq) (.refl q) rfl

theorem refl (db : Db) : Announces reported db db nodes := of_subset fun _ hq => hq

theorem mono (h : Announces reported db db' nodes) (hsub : ∀ n ∈ nodes, n ∈ nodes') :
    Announces reported db db' nodes' := by
  intro q hq
  cases h q hq with
  | kept hp hsame hst => exact .kept hp hsame hst
  | announced hout hmem => exact .announced hout (hsub _ hmem)
  | confirmed hst => exact .confirmed hst
  | reported hrep => exact .reported hrep

theorem imp {reported' : Peer → Prop} (h : Announces reported db db' nodes)
    (himp : ∀ q, reported q → reported' q) : Announces reported' db db' nodes := by
  intro q hq
  cases h q hq with
  | kept hp hsame hst => exact .kept hp hsame hst
  | announced hout hmem => exact .announced hout hmem
  | confirmed hst => exact .confirmed hst
  | reported hrep => exact .reported (himp q hrep)

/-- A report is about a peer and a status. -/
def Stable (reported : Peer → Prop) : Prop :=
  ∀ {p q : Peer}, p.Same q → p.status = q.status → reported p → reported q

/-- Two steps after each other; a row the second keeps is accounted for by the
first. -/
theorem trans (hstable : Stable reported) (h : Announces reported db db' nodes)
    (h' : Announces reported db' db'' nodes') :
    Announces reported db db'' (nodes ++ nodes') := by
  intro r hr
  cases h' r hr with
  | @kept q hq hsame hst =>
      cases h q hq with
      | kept hp hsame' hst' => exact .kept hp (hsame'.trans hsame) (hst'.trans hst)
      | announced hout hmem =>
          refine .announced ?_ (List.mem_append_left _ (hsame.nodeId ▸ hmem))
          unfold Outstanding at hout ⊢
          rwa [← hst]
      | confirmed hst' => exact .confirmed (hst.symm.trans hst')
      | reported hrep => exact .reported (hstable hsame hst hrep)
  | announced hout hmem => exact .announced hout (List.mem_append_right _ hmem)
  | confirmed hst => exact .confirmed hst
  | reported hrep => exact .reported hrep

/-- Peers rewritten in place, the moved ones outstanding on the nodes. -/
theorem map_peers {f : Peer → Peer} (hsame : ∀ p ∈ db.peers, p.Same (f p))
    (hmoved : ∀ p ∈ db.peers, (f p).status ≠ p.status → Outstanding (f p) ∧ p.nodeId ∈ nodes) :
    Announces reported db (db.mapPeers f) nodes := by
  intro q hq
  obtain ⟨p, hp, rfl⟩ := List.mem_map.mp hq
  by_cases hst : (f p).status = p.status
  · exact .kept hp (hsame p hp) hst.symm
  · obtain ⟨hout, hmem⟩ := hmoved p hp hst
    exact .announced hout ((hsame p hp).nodeId ▸ hmem)

end Announces

/-- No report is stable. -/
theorem stable_none : Announces.Stable fun _ => False := fun _ _ h => h

/-! ## The steps -/

section Steps

variable (hstable : Announces.Stable reported)

theorem announces_transition (db : Db) (loaded : List PeerId) (b : Bool) :
    Announces reported db (transitionPeers db loaded b).2 (transitionPeers db loaded b).1 := by
  refine Announces.map_peers (f := transitionOf db loaded b)
    (peersOk_transitionOf db loaded b).same fun p hp hne => ?_
  have hloaded : p.id ∈ loaded := by
    by_contra hnot
    exact hne (by rw [transitionOf_of_not_mem hnot])
  refine ⟨?_, List.mem_map.mpr ⟨p, List.mem_filter.mpr ⟨?_, decide_eq_true hne⟩, rfl⟩⟩
  · cases b with
    | true => exact .inr (transitionOf_block hloaded)
    | false =>
        rcases transitionOf_unblock hp hloaded with ⟨-, -, hst⟩ | ⟨-, hst⟩
        · exact .inl hst
        · exact absurd hst hne
  · exact List.mem_filter.mpr ⟨hp, by simpa using hloaded⟩

theorem announces_createPendingPeer (nodeId : NodeId) (device : Device) :
    Announces reported db (createPendingPeer cfg db nodeId device).2
      (if (createPendingPeer cfg db nodeId device).1 then [nodeId] else []) := by
  rcases createPendingPeer_cases cfg db nodeId device with h | ⟨h, -⟩
  · rw [h]
    exact Announces.refl db
  · rw [h]
    intro q hq
    rcases List.mem_append.mp hq with hq | hq
    · exact .kept hq (.refl q) rfl
    · rw [List.mem_singleton.mp hq]
      exact .announced (.inl rfl) List.mem_cons_self

include hstable

theorem announces_createOn (device : Device) (ids : List NodeId) : ∀ db : Db,
    Announces reported db (createPendingPeersOn cfg device ids db).2
      (createPendingPeersOn cfg device ids db).1 := by
  induction ids with
  | nil => exact fun db => Announces.refl db
  | cons id ids ih =>
      intro db
      refine ((announces_createPendingPeer id device).trans hstable (ih _)).mono fun n hn => ?_
      show n ∈ if (createPendingPeer cfg db id device).1 then _ else _
      split at hn
      · next hcreated =>
        rw [if_pos hcreated]
        exact hn
      · next hcreated =>
        rw [if_neg hcreated]
        exact hn

theorem announces_restoreOf (devices : List Device) : ∀ db : Db,
    Announces reported db (restoreMissingPeersOf cfg devices db).2
      (restoreMissingPeersOf cfg devices db).1 := by
  induction devices with
  | nil => exact fun db => Announces.refl db
  | cons device devices ih =>
      exact fun db => (announces_createOn hstable device _ db).trans hstable (ih _)

/-- The new peers of a node are on it. -/
theorem announces_createOf (nodeId : NodeId) (devices : List Device) : ∀ db : Db,
    Announces reported db (createPendingPeersOf cfg nodeId devices db) [nodeId] := by
  induction devices with
  | nil => exact fun db => Announces.refl db
  | cons device devices ih =>
      intro db
      refine ((announces_createPendingPeer nodeId device).trans hstable (ih _)).mono fun n hn => ?_
      rcases List.mem_append.mp hn with hn | hn
      · split at hn
        · exact hn
        · cases hn
      · exact hn

theorem announces_lifecycle (user : User) (total : Option Nat) (now : Time) :
    Announces reported db (applyLocalLifecycleState cfg db user total now).2
      (applyLocalLifecycleState cfg db user total now).1 := by
  have hmoved : ∀ (row : User) (b : Bool), Announces reported db
      (transitionPeers (db.saveUser row) (loadPeers (db.saveUser row) user.id) b).2
      (transitionPeers (db.saveUser row) (loadPeers (db.saveUser row) user.id) b).1 :=
    fun row b => announces_transition (db.saveUser row) _ b
  unfold applyLocalLifecycleState
  dsimp only
  split
  · exact (hmoved _ _).trans hstable (announces_restoreOf hstable _ _)
  · exact hmoved _ _

theorem announces_enforceLocal (u : UserId) (now : Time) :
    Announces reported db (enforceLocalLifecycleForUser cfg db u now).2
      (enforceLocalLifecycleForUser cfg db u now).1 := by
  unfold enforceLocalLifecycleForUser
  split
  · exact Announces.refl db
  · split
    · exact Announces.refl db
    · exact announces_lifecycle hstable _ none now

omit hstable in
theorem announces_combined (db : Db) (row : RemnawaveUser) :
    Announces reported db (enforceRemnawaveCombinedLimit db row).2
      (enforceRemnawaveCombinedLimit db row).1.1 := by
  unfold enforceRemnawaveCombinedLimit
  split
  · exact Announces.refl db
  · dsimp only
    split
    · exact Announces.refl db
    · next user _ =>
      exact announces_transition (db.saveUser { user with isBlocked := true }) _ true

omit hstable in
theorem announces_combinedFor (u : UserId) :
    Announces reported db (enforceRemnawaveCombinedLimitForUser db u).2
      (enforceRemnawaveCombinedLimitForUser db u).1.1 := by
  unfold enforceRemnawaveCombinedLimitForUser
  split
  · exact Announces.refl db
  · exact announces_combined db _

theorem announces_imported (user : User) (loaded : List PeerId) (data : RemnawaveUserIn)
    (now : Time) : Announces reported db (applyRemnawaveLifecycle cfg db user loaded data now).2
      (applyRemnawaveLifecycle cfg db user loaded data now).1 := by
  have hmoved : ∀ (row : User) (b : Bool), Announces reported db
      (transitionPeers (db.saveUser row) loaded b).2
      (transitionPeers (db.saveUser row) loaded b).1 :=
    fun row b => announces_transition (db.saveUser row) _ b
  unfold applyRemnawaveLifecycle
  dsimp only
  split
  · exact Announces.refl db
  · split
    · exact (hmoved _ _).trans hstable (announces_restoreOf hstable _ _)
    · exact hmoved _ _

omit hstable in
theorem announces_stale (row : RemnawaveUser) :
    Announces reported db (markRemnawaveUserStale db row).2 (markRemnawaveUserStale db row).1 := by
  unfold markRemnawaveUserStale
  split
  · exact Announces.refl db
  · next user _ =>
    exact announces_transition ((db.saveProfile { row with
      syncStatus := .stale, syncReason := some "remote user missing", syncError := none }).saveUser
      { user with isBlocked := true }) _ true

theorem announces_staleRows (rows : List RemnawaveUser) : ∀ db : Db,
    Announces reported db (markRowsStale rows db).2 (markRowsStale rows db).1 := by
  induction rows with
  | nil => exact fun db => Announces.refl db
  | cons row rows ih => exact fun db => (announces_stale row).trans hstable (ih _)

omit hstable in
theorem announces_requestDelete (row : RemnawaveUser) (user : User) (now : Time) :
    Announces reported db (requestRemnawaveDelete db row user now).2
      (requestRemnawaveDelete db row user now).1 := by
  refine Announces.map_peers (f := deleteRequestedPeer user.id) (fun p _ => ?_) fun p hp hne => ?_
  · unfold deleteRequestedPeer
    split
    · exact ⟨rfl, rfl, rfl, rfl, rfl⟩
    · exact .refl p
  · unfold deleteRequestedPeer at hne ⊢
    split at hne
    · next h =>
      rw [if_pos h]
      refine ⟨.inr rfl, List.mem_map.mpr ⟨p, List.mem_filter.mpr ⟨?_, by simpa using h.2⟩, rfl⟩⟩
      exact List.mem_filter.mpr ⟨hp, by simpa using h.1⟩
    · exact absurd rfl hne

theorem announces_deleteDevice (deviceId : DeviceId) (at_ : Time) :
    Announces reported db (deleteDevice db deviceId at_).2 (deleteDevice db deviceId at_).1 := by
  unfold deleteDevice
  split
  · exact Announces.refl db
  · next device _ =>
    dsimp only
    have hmarked : Announces reported db
        ((db.saveDevice { device with deletedAt := device.deletedAt.or (some at_) }).mapPeers
          (deletedDevicePeer deviceId))
        ((db.peers.filter fun p => p.deviceId = deviceId ∧ p.status.live).map (·.nodeId)) := by
      show Announces reported (db.saveDevice { device with
        deletedAt := device.deletedAt.or (some at_) }) _ _
      refine Announces.map_peers (fun p _ => ?_) fun p hp hne => ?_
      · unfold deletedDevicePeer
        split
        · exact ⟨rfl, rfl, rfl, rfl, rfl⟩
        · exact .refl p
      · unfold deletedDevicePeer at hne ⊢
        split at hne
        · next h =>
          rw [if_pos h]
          exact ⟨.inr rfl, List.mem_map.mpr ⟨p, List.mem_filter.mpr ⟨hp, by simpa using h⟩, rfl⟩⟩
        · exact absurd rfl hne
    have hreleased : ∀ (marked : Db) (row : Device),
        Announces reported marked (releaseDeviceIp marked row at_).2 [] := by
      intro marked row
      refine Announces.of_subset fun q hq => ?_
      unfold releaseDeviceIp at hq
      split at hq
      · exact hq
      · dsimp only at hq
        split at hq
        · exact hq
        · exact hq
    exact (hmarked.trans hstable (hreleased _ _)).mono fun n hn => by simpa using hn

/-! ## The batch -/

theorem announces_item {base : Db} {st st' : UpsertState} {item : RemnawaveUserIn} {now : Time}
    (h : Announces reported base st.db st.affectedNodeIds)
    (hitem : upsertItem cfg st item now = some st') :
    Announces reported base st'.db st'.affectedNodeIds := by
  have hfinish : ∀ (db : Db) (row : RemnawaveUser) (loaded : List PeerId) (created : List NodeId),
      Announces reported st.db db created →
      Announces reported base (finishUpsert st db row loaded created item now).db
        (finishUpsert st db row loaded created item now).affectedNodeIds := by
    intro db row loaded created hcreated
    exact (h.trans hstable hcreated).trans hstable
      (announces_combined (db.saveProfile (applyRemnawaveProfile row item now)) _)
  unfold upsertItem at hitem
  split at hitem
  · obtain ⟨⟨row, db⟩, hrow, rfl⟩ := Option.map_eq_some_iff.mp hitem
    refine hfinish db row _ [] (Announces.of_subset fun q hq => ?_)
    obtain ⟨added, huser, hprofile⟩ := Option.bind_eq_some_iff.mp hrow
    obtain ⟨inserted, hinsert, hpair⟩ := Option.map_eq_some_iff.mp hprofile
    cases hpair
    unfold Db.insertUser at huser
    unfold Db.insertProfile at hinsert
    split at huser
    · cases huser
    · split at hinsert
      · cases hinsert
      · cases huser
        cases hinsert
        exact hq
  · obtain ⟨user, -, rfl⟩ := Option.map_eq_some_iff.mp hitem
    exact hfinish _ _ _ _ (announces_imported hstable user _ item now)

theorem announces_items {base : Db} {now : Time} (items : List RemnawaveUserIn) :
    ∀ {st st' : UpsertState}, Announces reported base st.db st.affectedNodeIds →
      upsertItems cfg now items st = some st' →
      Announces reported base st'.db st'.affectedNodeIds := by
  induction items with
  | nil =>
      intro st st' h hitems
      exact Option.some.inj hitems ▸ h
  | cons item items ih =>
      intro st st' h hitems
      obtain ⟨mid, hitem, hrest⟩ := Option.bind_eq_some_iff.mp hitems
      exact ih (announces_item hstable h hitem) hrest

/-! ## Node results -/

/-- The nodes the limits queued for. -/
def PeerResults.affected (st : PeerResults) : List NodeId :=
  st.localLifecycleNodeIds ++ st.limitedNodeIds

theorem announces_limits {base : Db} {st : PeerResults}
    (h : Announces reported base st.db (PeerResults.affected st)) (u : UserId) (now : Time) :
    Announces reported base (enforceLimits cfg st u now).db
      (PeerResults.affected (enforceLimits cfg st u now)) := by
  refine ((h.trans hstable (announces_enforceLocal hstable u now)).trans hstable
    (announces_combinedFor u)).mono fun n hn => ?_
  simp only [PeerResults.affected, List.mem_append] at hn
  show n ∈ (st.localLifecycleNodeIds ++ _) ++ (st.limitedNodeIds ++ _)
  simp only [List.mem_append]
  tauto

omit hstable in
theorem announces_reading (hwf : db.WF) {peer : Peer} (hpeer : peer ∈ db.peers)
    (data : PeerSyncResult) (now : Time)
    (hrep : ∀ q : Peer, peer.Same q → data.status.bind PeerStatus.ofText? = some q.status →
      reported q) :
    Announces reported db (applyPeerResult db peer data now).2 [] := by
  rw [applyPeerResult_db]
  intro q hq
  rcases Rows.mem_save.mp hq with ⟨rfl, -⟩ | ⟨hq, -⟩
  · have hsame := peerAfterResult_same db peer data
    have hlive : (db.device? peer.deviceId).any (·.deletedAt.isSome) = true →
        peer.status.live = false := by
      intro htomb
      obtain ⟨device, hdevice, hdeleted⟩ := (Option.any_eq_true _ _).mp htomb
      exact hwf.tombstones peer hpeer
        ⟨device, Rows.mem_of_get? hdevice, Rows.key_of_get? hdevice, hdeleted⟩
    have hstatus := peerAfterResult_status db peer data
    rcases peerResultStatus_cases hlive data.status with hkept | htaken
    · exact .kept hpeer hsame (hstatus.trans hkept).symm
    · exact .reported (hrep _ hsame (htaken.trans (congrArg some hstatus.symm)))
  · exact .kept hq (.refl q) rfl

theorem announces_entry {base : Db} {loaded : String → Option PeerId} {st : PeerResults}
    (hwf : st.db.WF) (h : Announces reported base st.db (PeerResults.affected st))
    {data : PeerSyncResult} (now : Time)
    (hrep : ∀ q : Peer, loaded data.publicKey = some q.id →
      data.status.bind PeerStatus.ofText? = some q.status → reported q) :
    Announces reported base (applyPeerEntry cfg loaded st data now).db
      (PeerResults.affected (applyPeerEntry cfg loaded st data now)) := by
  refine applyPeerEntry_keeps
    (I := fun st => Announces reported base st.db (PeerResults.affected st)) hwf h ?_ ?_
  · intro peer hmem hloaded
    have hread : Announces reported base (applyPeerResult st.db peer data now).2
        (PeerResults.affected st) := by
      refine (h.trans hstable (announces_reading hwf hmem data now
        fun q hsame hst => hrep q ?_ hst)).mono fun n hn => by simpa using hn
      rw [hloaded, hsame.id]
    exact hread
  · intro st' v _ hread
    exact announces_limits hstable hread v now

/-- Through the entries of an answer, one after the other. -/
theorem announces_entries {base : Db} {loaded : String → Option PeerId} (now : Time)
    (entries : List PeerSyncResult) : ∀ {st : PeerResults}, st.db.WF →
      Announces reported base st.db (PeerResults.affected st) →
      (∀ data ∈ entries, ∀ q : Peer, loaded data.publicKey = some q.id →
        data.status.bind PeerStatus.ofText? = some q.status → reported q) →
      Announces reported base (applyPeerEntries cfg loaded now entries st).db
        (PeerResults.affected (applyPeerEntries cfg loaded now entries st)) := by
  intro st hwf h hrep
  refine applyPeerEntries_keeps
    (I := fun st => Announces reported base st.db (PeerResults.affected st)) entries ?_ hwf h
  intro data hdata st hwf h
  exact announces_entry hstable hwf h now (hrep data hdata)

end Steps

/-- An entry of the answer of a node gives the status of its peer. -/
def ReportedIn (db : Db) (nodeId : NodeId) (entries : List PeerSyncResult) (q : Peer) : Prop :=
  ∃ data ∈ entries, ∃ p ∈ db.peersOfNode nodeId, p.id = q.id ∧
    devicePublicKey db p = some data.publicKey ∧
      data.status.bind PeerStatus.ofText? = some q.status

theorem stable_reportedIn (db : Db) (nodeId : NodeId) (entries : List PeerSyncResult) :
    Announces.Stable (ReportedIn db nodeId entries) := by
  rintro p q hsame hst ⟨data, hdata, r, hr, hid, hkey, hreport⟩
  exact ⟨data, hdata, r, hr, hid.trans hsame.id.symm, hkey, hst ▸ hreport⟩

theorem announces_results (cfg : Config) (hwf : db.WF) (nodeId : NodeId)
    (entries : List PeerSyncResult) (now : Time) :
    Announces (ReportedIn db nodeId entries) db (applyPeerResults cfg db nodeId entries now).db
      (PeerResults.affected (applyPeerResults cfg db nodeId entries now)) := by
  have hstart : Announces (ReportedIn db nodeId entries) db (PeerResults.db { db })
      (PeerResults.affected { db }) := Announces.refl db
  refine announces_entries (stable_reportedIn db nodeId entries) now entries hwf hstart
    fun data hdata q hloaded hst => ?_
  obtain ⟨p, hp, hid⟩ := Option.map_eq_some_iff.mp hloaded
  unfold peerByPublicKey at hp
  have hfound := List.find?_some hp
  simp only [Bool.and_eq_true, decide_eq_true_eq] at hfound
  exact ⟨data, hdata, p, by simpa using List.mem_of_find?_eq_some hp, hid, hfound.2, hst⟩

/-- A confirmed removal leaves nothing to do. -/
theorem announces_confirm (nodeId : NodeId) (seen : List String) :
    Announces reported db (db.mapPeers (confirmPeer db nodeId seen)) [] := by
  intro q hq
  obtain ⟨p, hp, rfl⟩ := List.mem_map.mp hq
  unfold confirmPeer
  split
  · exact .confirmed rfl
  · exact .kept hp (.refl p) rfl

theorem announces_sync (hwf : db.WF) {node : Node} (hn : node ∈ db.nodes) (data : SyncResult)
    (now : Time) :
    Announces (ReportedIn db node.id data.peers) db (applySyncResult cfg db node data now).db
      (PeerResults.affected (applySyncResult cfg db node data now)) := by
  let saved := db.saveNode (syncedNode node data now)
  let confirmed := (confirmRemovals cfg saved node.id data now).db
  have hsaved : saved.WF := hwf.save_node _
  have hresults := announces_results cfg hsaved node.id data.peers now
  have hconfirmed := hresults.trans (stable_reportedIn _ _ _)
    (announces_confirm node.id (data.peers.map (·.publicKey)))
  have hwfc : confirmed.WF := (syncConfirmed_writes hwf hn data now).wf hwf
  have hrelease : Writes Releases confirmed
      (releaseDeviceIps confirmed (releasedCandidates confirmed node.id) now) :=
    releaseDeviceIps_writes hwfc _ now
  obtain ⟨-, -, hpeers⟩ := releases_frame hrelease
  intro q hq
  -- what the purge leaves was there after the confirmations
  have hkept : q ∈ confirmed.peers := by
    have hq' := (List.mem_filter.mp ((purge_spec _).peers ▸ hq)).1
    rwa [hpeers] at hq'
  rw [List.append_nil] at hconfirmed
  exact hconfirmed q hkept

theorem announces_heartbeat (hwf : db.WF) (node : Node) (data : HeartbeatResult) (now : Time) :
    Announces (fun q => data.ok = true ∧ ReportedIn db node.id data.peers q) db
      (applyHeartbeatResult cfg db node data now).db
      (PeerResults.affected (applyHeartbeatResult cfg db node data now)) := by
  unfold applyHeartbeatResult
  dsimp only
  split
  · next hgood =>
    have hsaved : (db.saveNode (applyNodeHeartbeatResult node data now)).WF := hwf.save_node _
    exact (announces_results cfg hsaved node.id data.peers now).imp fun _ hrep => ⟨hgood.1, hrep⟩
  · exact Announces.refl db

/-! ## The routes -/

/-- The operation a route queues for an affected node. -/
def Synced (e : Effect) (nodeId : NodeId) : Request → Prop
  | .addNode _ => .provisionNode nodeId ∈ e.queued
  | _ => .syncNode nodeId ∈ e.queued

/-- The request is a good answer of the peer's node, and gives its status. -/
def Reports (db : Db) (q : Peer) : Request → Prop
  | .syncResult nodeId data => data.ok = true ∧ ReportedIn db nodeId data.peers q
  | .heartbeatResult nodeId data => data.ok = true ∧ ReportedIn db nodeId data.peers q
  | _ => False

/-- Every row a request leaves is accounted for, by the operations it queued
and by what it reports. -/
def Covers (db : Db) (request : Request) (e : Effect) : Prop :=
  ∃ nodes, Announces (Reports db · request) db e.db nodes ∧ ∀ n ∈ nodes, Synced e n request

theorem Announces.covers {request : Request} {e : Effect}
    (h : Announces (Reports db · request) db e.db nodes)
    (hqueued : ∀ n ∈ nodes, Synced e n request) : Covers db request e := ⟨nodes, h, hqueued⟩

theorem stable_reports (db : Db) : ∀ request : Request, Announces.Stable (Reports db · request)
  | .syncResult nodeId data | .heartbeatResult nodeId data =>
      fun hsame hst h => ⟨h.1, stable_reportedIn db nodeId data.peers hsame hst h.2⟩
  | .addUser .. | .updateDeviceLimit .. | .blockUser .. | .unblockUser ..
  | .updateLocalLifecycle .. | .resetLocalTraffic .. | .deleteUser .. | .addNode ..
  | .updateNode .. | .deleteNode .. | .addDevice .. | .deleteDevice .. | .upsert ..
  | .markDeleted .. | .reconcileComplete .. => fun _ _ h => h

theorem mem_enqueueSyncNodes {nodeId : NodeId} {ids : List NodeId} :
    .syncNode nodeId ∈ enqueueSyncNodes ids ↔ nodeId ∈ ids := by
  simp [enqueueSyncNodes, sortedSet]

theorem mem_queued {results : PeerResults} {nodeId : NodeId}
    (h : nodeId ∈ PeerResults.affected results) : .syncNode nodeId ∈ results.queued := by
  simpa [PeerResults.affected, PeerResults.queued, mem_enqueueSyncNodes,
    enqueueRemnawaveDisableUsers] using h

/-- The lifecycle routes queue every node of the account, and move no peer of
another. -/
theorem announces_commitLifecycle (hstable : Announces.Stable reported) (hwf : db.WF)
    {user : User} (row : User) (hu : user ∈ db.users) (hid : user.id = row.id)
    (hstamp : user.trafficResetAt = row.trafficResetAt)
    (total : Option Nat) (now : Time) :
    Announces reported db (commitLifecycle cfg db row total now).db
      (((commitLifecycle cfg db row total now).db.peersOf row.id).map (·.nodeId)) := by
  have hpass : Announces reported db (applyLocalLifecycleState cfg db row total now).2
      (applyLocalLifecycleState cfg db row total now).1 := announces_lifecycle hstable row total now
  intro q hq
  cases hpass q hq with
  | kept hp hsame hst => exact .kept hp hsame hst
  | announced hout _ =>
      by_cases howner : q.userId = row.id
      · refine .announced hout (List.mem_map.mpr ⟨q, List.mem_filter.mpr ⟨hq, ?_⟩, rfl⟩)
        simpa using howner
      · have hframe : OwnerFrame row.id db (commitLifecycle cfg db row total now).db :=
          (commitLifecycle_writes hwf row hu hid hstamp total now).ownerFrame
        exact .kept ((hframe.peers q howner).mp hq) (.refl q) rfl
  | confirmed hst => exact .confirmed hst
  | reported hrep => exact .reported hrep

theorem covers_commitLifecycle (request : Request) (hwf : db.WF) {user : User} (row : User)
    (hu : user ∈ db.users) (hid : user.id = row.id)
    (hstamp : user.trafficResetAt = row.trafficResetAt) (total : Option Nat) (now : Time)
    (hsync : ∀ e n, .syncNode n ∈ e.queued → Synced e n request) :
    Covers db request (commitLifecycle cfg db row total now) :=
  (announces_commitLifecycle (stable_reports db request) hwf row hu hid hstamp total now).covers
    fun _ hn =>
    hsync _ _ (mem_enqueueSyncNodes.mpr hn)

theorem covers_of_subset {request : Request} {e : Effect} (h : ∀ q ∈ e.db.peers, q ∈ db.peers) :
    Covers db request e :=
  ⟨[], .of_subset h, fun _ hn => absurd hn List.not_mem_nil⟩

theorem releaseDeviceIps_peers (hwf : db.WF) (ids : List DeviceId) (now : Time) :
    (releaseDeviceIps db ids now).peers = db.peers :=
  (releases_frame (releaseDeviceIps_writes hwf ids now)).2.2

theorem ok_of_toOption {outcome : Outcome} {e : Effect} (h : outcome.toOption = some e) :
    outcome = .ok e := by
  cases outcome with
  | error err => cases h
  | ok ans => exact congrArg _ (Option.some.inj h)

/-- **Affected nodes.** What an accepted request leaves to do on a node, it
queued for that node. -/
theorem handle_covers {now : Time} {request : Request} {e : Effect} (hwf : db.WF)
    (hok : handle cfg db now request = .ok e) : Covers db request e := by
  cases request with
  | addUser name limit =>
      refine covers_of_subset fun q hq => ?_
      rwa [apiAddUser_ok hok] at hq
  | updateDeviceLimit v limit =>
      obtain ⟨user, -, he⟩ := apiUpdateDeviceLimit_ok hok
      refine covers_of_subset fun q hq => ?_
      rwa [he] at hq
  | blockUser v =>
      obtain ⟨user, hu, rfl⟩ := apiBlockUser_ok hok
      exact covers_commitLifecycle (.blockUser v) hwf { user with lifecycleStatus := .blocked }
        (Rows.mem_of_get? (localUser_ok hu).1) rfl rfl _ now fun _ _ h => h
  | unblockUser v =>
      obtain ⟨user, hu, -, rfl⟩ := apiUnblockUser_ok hok
      exact covers_commitLifecycle (.unblockUser v) hwf { user with lifecycleStatus := .active }
        (Rows.mem_of_get? (localUser_ok hu).1) rfl rfl _ now fun _ _ h => h
  | updateLocalLifecycle v data =>
      obtain ⟨user, hu, rfl⟩ := apiUpdateLocalLifecycle_ok hok
      exact covers_commitLifecycle (.updateLocalLifecycle v data) hwf (data.apply user)
        (Rows.mem_of_get? (localUser_ok hu).1) rfl rfl _ now fun _ _ h => h
  | resetLocalTraffic v =>
      obtain ⟨user, hu, -, rfl⟩ := apiResetLocalTraffic_ok hok
      have hrow : (resetLocalTrafficUsage db user now).1 ∈
          (resetLocalTrafficUsage db user now).2.users :=
        Rows.mem_save.mpr (.inl ⟨rfl, user, Rows.mem_of_get? (localUser_ok hu).1, rfl⟩)
      -- the reset itself moves no peer
      exact covers_commitLifecycle (.resetLocalTraffic v) (hwf.reset_traffic user now) _ hrow
        rfl rfl _ now fun _ _ h => h
  | deleteUser v =>
      obtain ⟨user, -, he, -⟩ := apiDeleteUser_ok hok
      refine covers_of_subset fun q hq => ?_
      rw [he] at hq
      exact (List.mem_filter.mp hq).1
  | addNode data =>
      cases hok
      have hmade : ∀ (node : Node) (devices : List Device),
          Announces (Reports db · (.addNode data)) (db.insertNode node)
            (createPendingPeersOf cfg node.id devices (db.insertNode node)) [node.id] :=
        fun node devices => announces_createOf (stable_reports db (.addNode data)) node.id devices _
      refine Announces.covers (hmade _ _) fun n hn => ?_
      rw [List.mem_singleton.mp hn]
      exact List.mem_cons_self
  | updateNode nodeId data =>
      obtain ⟨node, -, he⟩ := apiUpdateNode_ok hok
      refine covers_of_subset fun q hq => ?_
      rwa [he] at hq
  | deleteNode nodeId =>
      obtain ⟨node, -, he⟩ := apiDeleteNode_ok hok
      refine covers_of_subset fun q hq => ?_
      rw [he, releaseDeviceIps_peers (hwf.delete_node nodeId)] at hq
      exact (List.mem_filter.mp hq).1
  | addDevice v name =>
      obtain ⟨user, device, ids, -, hc, hqueued⟩ := pubAddDevice_ok hok
      obtain ⟨-, -, -, -, hpeers⟩ := createDevice_parts hc
      have hmade : Announces (Reports db · (.addDevice v name)) db e.db ids := by
        have hnew : Announces (Reports db · (.addDevice v name))
            (Write.apply db (.newDevice device))
            (createPendingPeersForDevice cfg (Write.apply db (.newDevice device)) device).2
            (createPendingPeersForDevice cfg (Write.apply db (.newDevice device)) device).1 :=
          announces_createOn (stable_reports db (.addDevice v name)) device _ _
        rwa [← hpeers] at hnew
      refine hmade.covers fun n hn => ?_
      show .syncNode n ∈ e.queued
      rw [hqueued]
      exact mem_enqueueSyncNodes.mpr hn
  | deleteDevice v deviceId =>
      replace hok : pubDeleteDevice db v deviceId now = .ok e := hok
      unfold pubDeleteDevice at hok
      split at hok
      · next user device _ _ =>
        split at hok
        · cases hok
        · cases hok
          exact (announces_deleteDevice (stable_reports db _) device.id now).covers fun _ hn =>
            mem_enqueueSyncNodes.mpr hn
      · cases hok
  | upsert data =>
      replace hok : upsertRemnawaveUsers cfg db data now = .ok e := hok
      unfold upsertRemnawaveUsers at hok
      split at hok
      · cases hok
      · next st hst =>
        cases hok
        have hstart : Announces (Reports db · (.upsert data)) db (UpsertState.db { db })
            (UpsertState.affectedNodeIds { db }) := Announces.refl db
        exact (announces_items (stable_reports db _) data hstart hst).covers fun _ hn =>
          List.mem_append_left _ (mem_enqueueSyncNodes.mpr hn)
  | markDeleted uuid =>
      replace hok : markRemnawaveUserDeleted db uuid now = .ok e := hok
      unfold markRemnawaveUserDeleted at hok
      split at hok
      · cases hok
        exact covers_of_subset fun _ hq => hq
      · next row _ =>
        split at hok
        · cases hok
          exact covers_of_subset fun _ hq => hq
        · next user _ =>
          cases hok
          exact (announces_requestDelete row user now).covers fun _ hn =>
            mem_enqueueSyncNodes.mpr hn
  | reconcileComplete seen =>
      cases hok
      have hstale := announces_staleRows (stable_reports db (.reconcileComplete seen))
        (db.profiles.filter (·.remnawaveUuid ∉ seen)) db
      refine ⟨(reconcileMissingRemnawaveUsers db seen).1, fun q hq => ?_,
        fun _ hn => mem_enqueueSyncNodes.mpr hn⟩
      exact hstale q (List.mem_filter.mp ((purge_spec _).peers ▸ hq)).1
  | syncResult nodeId data =>
      replace hok : nodeSyncResult cfg db nodeId data now = .ok e := hok
      unfold nodeSyncResult at hok
      split at hok
      · cases hok
      · next node hnode =>
        have hid : node.id = nodeId := Rows.key_of_get? hnode
        split at hok
        · cases hok
          exact covers_of_subset fun _ hq => hq
        · next hgood =>
          cases hok
          rw [← hid]
          have hsync : Announces (Reports db · (.syncResult node.id data)) db
              (applySyncResult cfg db node data now).db _ :=
            (announces_sync hwf (Rows.mem_of_get? hnode) data now).imp
              fun _ hrep => ⟨by simpa using hgood, hrep⟩
          exact hsync.covers fun _ => mem_queued
  | heartbeatResult nodeId data =>
      replace hok : nodeHeartbeatResult cfg db nodeId data now = .ok e := hok
      unfold nodeHeartbeatResult at hok
      split at hok
      · cases hok
      · next node hnode =>
        have hid : node.id = nodeId := Rows.key_of_get? hnode
        cases hok
        rw [← hid]
        have hbeat : Announces (Reports db · (.heartbeatResult node.id data)) db
            (applyHeartbeatResult cfg db node data now).db _ :=
          announces_heartbeat hwf node data now
        exact hbeat.covers fun _ => mem_queued

end VpnPanel.Backend
