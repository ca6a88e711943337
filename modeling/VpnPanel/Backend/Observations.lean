import VpnPanel.Backend.History

/-!
# The results of one peer

What the panel was told about a peer, request after request, and a rule for
what follows it: it is enough to say what one result of the peer does, and
that every other write leaves the peer's account of its results alone.
-/

namespace VpnPanel.Backend

open VpnPanel.Lib

/-- A peer result, with the time at which it was applied. -/
structure Observation where
  data : PeerSyncResult
  observedAt : Time
  deriving DecidableEq, Repr

/-- The peer of a node that an entry is applied to. -/
def entryPeer (db : Db) (nodeId : NodeId) (key : String) : Option PeerId :=
  (peerByPublicKey db (db.peersOfNode nodeId) key).map (·.id)

/-- The entries for the peer `p` among those of one answer. -/
def entriesOf (loaded : String → Option PeerId) (p : PeerId) (results : List PeerSyncResult) :
    List PeerSyncResult :=
  results.filter fun data => loaded data.publicKey = some p

/-- The entries for the peer `p` that a request brings. -/
def entriesFor (p : PeerId) (db : Db) : Request → List PeerSyncResult
  | .syncResult nodeId data =>
      if (db.node? nodeId).isSome ∧ data.ok then entriesOf (entryPeer db nodeId) p data.peers
      else []
  | .heartbeatResult nodeId data =>
      if (db.node? nodeId).isSome ∧ data.ok then entriesOf (entryPeer db nodeId) p data.peers
      else []
  | _ => []

def observationsFor (p : PeerId) (db : Db) (call : Call) : List Observation :=
  (entriesFor p db call.request).map fun data => ⟨data, call.now⟩

/-! ## Writes beside a peer -/

/-- What a write that is no result of the peer `p` may do to the traffic tables
with rows of peers. -/
inductive TrafficAside (p : PeerId) (db db' : Db) : Prop
  | kept (deltas : db'.traffic.deltas = db.traffic.deltas)
      (sessions : db'.traffic.sessions = db.traffic.sessions)
      (nextSessionId : db'.traffic.nextSessionId = db.traffic.nextSessionId)
  | result (row : Peer) (data : PeerSyncResult) (now : Time) (other : row.id ≠ p)
      (traffic : db'.traffic = trafficAfterResult db row data now)
  | dropped (peer : PeerId → Bool) (user : UserId → Bool) (node : NodeId → Bool)
      (traffic : db'.traffic = Db.dropTraffic db.traffic peer user node)
      (stays : ∀ q ∈ db'.peers, q.id = p →
        peer q.id = false ∧ user q.userId = false ∧ node q.nodeId = false)

/-- What it may do to the row of the peer: rewrite it with its counters kept,
or create it. -/
inductive RowAside (p : PeerId) (db : Db) (row : Peer) : Prop
  | kept (old : Peer) (mem : old ∈ db.peers) (same : old.Same row)
      (rawRx : row.rawRx = old.rawRx) (rawTx : row.rawTx = old.rawTx)
  | created (fresh : db.nextId = p) (rawRx : row.rawRx = none) (rawTx : row.rawTx = none)

structure Aside (p : PeerId) (db db' : Db) : Prop where
  nextId : db.nextId ≤ db'.nextId
  traffic : TrafficAside p db db'
  row : ∀ row ∈ db'.peers, row.id = p → RowAside p db row

section Aside

variable {p : PeerId} {db : Db}

/-- A write to other tables. -/
theorem Aside.frame {db' : Db} (hnext : db.nextId ≤ db'.nextId) (hpeers : db'.peers = db.peers)
    (hdeltas : db'.traffic.deltas = db.traffic.deltas)
    (hsessions : db'.traffic.sessions = db.traffic.sessions)
    (hids : db'.traffic.nextSessionId = db.traffic.nextSessionId) : Aside p db db' where
  nextId := hnext
  traffic := .kept hdeltas hsessions hids
  row row hrow _ := .kept row (hpeers ▸ hrow) (.refl row) rfl rfl

/-- A rewrite of peer rows that keeps their counters. -/
theorem Aside.map_peers {f : Peer → Peer} (hsame : ∀ q ∈ db.peers, q.Same (f q))
    (hrx : ∀ q ∈ db.peers, (f q).rawRx = q.rawRx) (htx : ∀ q ∈ db.peers, (f q).rawTx = q.rawTx) :
    Aside p db (db.mapPeers f) where
  nextId := le_rfl
  traffic := .kept rfl rfl rfl
  row row hrow _ := by
    obtain ⟨q, hq, rfl⟩ := List.mem_map.mp hrow
    exact .kept q hq (hsame q hq) (hrx q hq) (htx q hq)

/-- Peers are removed with the traffic of theirs. -/
theorem Aside.remove {db' : Db} (hwf : db.WF) (keep : Peer → Bool) (user : UserId → Bool)
    (node : NodeId → Bool) (hnext : db'.nextId = db.nextId)
    (hpeers : db'.peers = db.peers.filter keep)
    (htraffic : db'.traffic = Db.dropTraffic db.traffic
      (fun id => (db.peers.filter (! keep ·)).any (·.id = id)) user node)
    (hkeep : ∀ q, keep q = true → user q.userId = false ∧ node q.nodeId = false) :
    Aside p db db' where
  nextId := hnext.ge
  traffic := by
    refine .dropped _ user node htraffic fun q hq _ => ⟨?_, hkeep q ?_⟩
    · rw [hpeers] at hq
      obtain ⟨hmem, hkept⟩ := List.mem_filter.mp hq
      rw [List.any_eq_false]
      intro r hr hid
      obtain ⟨hrmem, hgone⟩ := List.mem_filter.mp hr
      rw [hwf.peer_eq hrmem hmem (by simpa using hid), hkept] at hgone
      cases hgone
    · rw [hpeers] at hq
      exact (List.mem_filter.mp hq).2
  row row hrow _ := by
    rw [hpeers] at hrow
    exact .kept row (List.mem_filter.mp hrow).1 (.refl row) rfl rfl

/-- Every write but a result of the peer is beside it. -/
theorem Write.aside (hwf : db.WF) {w : Write} (hok : w.Ok db)
    (hother : ∀ row data now, w = .reading row data now → row.id ≠ p) :
    Aside p db (w.apply db) := by
  cases w with
  | user row => exact .frame le_rfl rfl rfl rfl rfl
  | profile row => exact .frame le_rfl rfl rfl rfl rfl
  | node row => exact .frame le_rfl rfl rfl rfl rfl
  | release row at_ => exact .frame le_rfl rfl rfl rfl rfl
  | resetTraffic row at_ => exact .frame le_rfl rfl rfl rfl rfl
  | newUser row => exact .frame (Nat.le_succ _) rfl rfl rfl rfl
  | newImport row imported => exact .frame (Nat.le_succ _) rfl rfl rfl rfl
  | newNode row => exact .frame (Nat.le_succ _) rfl rfl rfl rfl
  | newDevice row => exact .frame (Nat.le_succ _) rfl rfl rfl rfl
  | peers f => exact .map_peers hok.same hok.rx hok.tx
  | tombstone row =>
      -- the device row first, then its peers
      have hmap : Aside p (db.saveDevice row)
          ((db.saveDevice row).mapPeers (deletedDevicePeer row.id)) := by
        refine .map_peers (fun q _ => ?_) (fun q _ => ?_) fun q _ => ?_
        · unfold deletedDevicePeer
          split
          · exact ⟨rfl, rfl, rfl, rfl, rfl⟩
          · exact .refl q
        · unfold deletedDevicePeer
          split <;> rfl
        · unfold deletedDevicePeer
          split <;> rfl
      refine ⟨hmap.nextId, .kept rfl rfl rfl, fun r hr hid => ?_⟩
      cases hmap.row r hr hid with
      | kept old hold hsame hrx htx => exact .kept old hold hsame hrx htx
      | created hfresh hrx htx => exact .created hfresh hrx htx
  | newPeer row =>
      refine ⟨Nat.le_succ _, .kept rfl rfl rfl, fun r hr hid => ?_⟩
      rcases List.mem_append.mp hr with hold | hnew
      · exact .kept r hold (.refl r) rfl rfl
      · rw [List.mem_singleton.mp hnew] at hid ⊢
        exact .created (hok.id.symm.trans hid) hok.rx hok.tx
  | reading row data now =>
      have hne : row.id ≠ p := hother row data now rfl
      show Aside p db (applyPeerResult db row data now).2
      rw [applyPeerResult_db]
      refine ⟨le_rfl, .result row data now hne rfl, fun r hr hid => ?_⟩
      rcases Rows.mem_save.mp hr with ⟨rfl, -⟩ | ⟨hr, -⟩
      · exact absurd ((peerAfterResult_id db row data).symm.trans hid) hne
      · exact .kept r hr (.refl r) rfl rfl
  | deleteUser id =>
      refine .remove hwf (·.userId ≠ id) (· = id) (fun _ => false) rfl rfl ?_
        fun q hq => ⟨by simpa using hq, rfl⟩
      simp only [Write.apply, Db.deleteUser, Db.peersOf, decide_not, Bool.not_not]
  | deleteNode id =>
      refine .remove hwf (·.nodeId ≠ id) (fun _ => false) (· = id) rfl rfl ?_
        fun q hq => ⟨rfl, by simpa using hq⟩
      simp only [Write.apply, Db.deleteNode, Db.peersOfNode, decide_not, Bool.not_not]

/-- The rows of a peer that stays, when those of others are dropped. -/
theorem filter_dropped {ρ : Type} {rows : List ρ} {peerId : ρ → PeerId} {userId : ρ → UserId}
    {nodeId : ρ → NodeId} {q : Peer} {peer : PeerId → Bool} {user : UserId → Bool}
    {node : NodeId → Bool}
    (hrows : ∀ r ∈ rows, peerId r = q.id → nodeId r = q.nodeId ∧ userId r = q.userId)
    (hstays : peer q.id = false ∧ user q.userId = false ∧ node q.nodeId = false) :
    (rows.filter fun r => !(peer (peerId r) || user (userId r) || node (nodeId r))).filter
      (peerId · = q.id) = rows.filter (peerId · = q.id) := by
  rw [List.filter_filter]
  refine List.filter_congr fun r hr => ?_
  by_cases hid : peerId r = q.id
  · obtain ⟨hnode, huser⟩ := hrows r hr hid
    simp [hid, hnode, huser, hstays]
  · simp [hid]

end Aside

/-! ## What follows the results -/

/-- `I` gives an account of the results of the peer `p`. -/
structure Follows (p : PeerId) (I : List Observation → Db → Prop) : Prop where
  /-- A peer that is gone has no account to keep. -/
  absent : ∀ {seen : List Observation} {db : Db} (next : Observation), I seen db →
    p < db.nextId → db.peer? p = none → I (seen ++ [next]) db
  other : ∀ {seen : List Observation} {db db' : Db}, I seen db → Aside p db db' → I seen db'
  own : ∀ {seen : List Observation} {db : Db} {row : Peer} (data : PeerSyncResult) (now : Time),
    db.WF → I seen db → row ∈ db.peers → row.id = p →
    I (seen ++ [⟨data, now⟩]) (applyPeerResult db row data now).2

namespace Follows

variable {cfg : Config} {p : PeerId} {I : List Observation → Db → Prop} {db : Db}
  {seen : List Observation}

/-- A sequence of writes without a result. -/
theorem writes (hI : Follows p I) {P : Db → Write → Prop} {db' : Db} (hwf : db.WF)
    (h : I seen db) (hnone : ∀ db row data now, ¬P db (.reading row data now))
    (hw : Writes P db db') : I seen db' := by
  have hboth : db'.WF ∧ I seen db' := by
    refine hw.keeps (I := fun db => db.WF ∧ I seen db) ?_ ⟨hwf, h⟩
    rintro b w hP hok ⟨hb, hseen⟩
    refine ⟨Write.apply_wf hb w hok, hI.other hseen (Write.aside hb hok ?_)⟩
    rintro row data now rfl
    exact absurd hP (hnone b row data now)
  exact hboth.2

theorem not_ofOwner_reading {u : UserId} {row : Peer} {data : PeerSyncResult} {now : Time} :
    ¬OfOwner u db (.reading row data now) := id

/-- One entry: the limits of the owner are enforced after the result. -/
theorem entry (hI : Follows p I) {loaded : String → Option PeerId} {st : PeerResults}
    (hwf : st.db.WF) (h : I seen st.db) (data : PeerSyncResult) (now : Time)
    (hloaded : ∀ key, loaded key = some p → p < st.db.nextId) :
    I (seen ++ (entriesOf loaded p [data]).map (⟨·, now⟩))
      (applyPeerEntry cfg loaded st data now).db := by
  have hyes : loaded data.publicKey = some p → entriesOf loaded p [data] = [data] :=
    fun hkey => List.filter_cons_of_pos (by simpa using hkey)
  have hno : loaded data.publicKey ≠ some p → entriesOf loaded p [data] = [] :=
    fun hkey => List.filter_cons_of_neg (by simpa using hkey)
  unfold applyPeerEntry
  cases hbind : (loaded data.publicKey).bind st.db.peer? with
  | none =>
      by_cases hkey : loaded data.publicKey = some p
      · -- the row was deleted after the peers of the node were loaded
        rw [hyes hkey]
        rw [hkey] at hbind
        exact hI.absent _ h (hloaded _ hkey) hbind
      · rw [hno hkey, List.map_nil, List.append_nil]
        exact h
  | some peer =>
      obtain ⟨hmem, hpeer⟩ := loaded_peer hbind
      have hread : I (seen ++ (entriesOf loaded p [data]).map (⟨·, now⟩))
          (applyPeerResult st.db peer data now).2 := by
        by_cases hkey : loaded data.publicKey = some p
        · rw [hyes hkey]
          have hself : peer.id = p := Option.some.inj (hpeer.symm.trans hkey)
          exact hI.own data now hwf h hmem hself
        · rw [hno hkey, List.map_nil, List.append_nil]
          refine hI.other h (Write.aside (w := .reading peer data now) hwf hmem ?_)
          rintro row data' now' ⟨⟩ rfl
          exact hkey hpeer
      dsimp only
      split
      · let st' : PeerResults := { st with
          db := (applyPeerResult st.db peer data now).2
          acknowledgedOwnerIds := st.acknowledgedOwnerIds ++ [peer.userId] }
        have hwf' : st'.db.WF := hwf.reading hmem data now
        have hlimits : Writes (OfOwner peer.userId) st'.db
            (enforceLimits cfg st' peer.userId now).db := enforceLimits_writes hwf' peer.userId now
        exact hI.writes hwf' hread (fun _ _ _ _ => not_ofOwner_reading) hlimits
      · exact hread

theorem entries (hI : Follows p I) {loaded : String → Option PeerId} (now : Time)
    (results : List PeerSyncResult) :
    ∀ {seen : List Observation} {st : PeerResults}, st.db.WF → I seen st.db →
      (∀ key, loaded key = some p → p < st.db.nextId) →
      I (seen ++ (entriesOf loaded p results).map (⟨·, now⟩))
        (applyPeerEntries cfg loaded now results st).db := by
  induction results with
  | nil =>
      intro seen st _ h _
      rw [entriesOf, List.filter_nil, List.map_nil, List.append_nil]
      exact h
  | cons data rest ih =>
      intro seen st hwf h hloaded
      have hone : Writes (OfEntries [data] now) st.db (applyPeerEntry cfg loaded st data now).db :=
        applyPeerEntry_writes hwf List.mem_cons_self now
      -- the peers were loaded once, so the bound is carried along the loop
      have hlater : ∀ key, loaded key = some p →
          p < (applyPeerEntry cfg loaded st data now).db.nextId :=
        fun key hkey => Nat.lt_of_lt_of_le (hloaded key hkey) (hone.history hwf).nextId
      have hrest := ih (hone.wf hwf) (hI.entry hwf h data now hloaded) hlater
      have hcons : entriesOf loaded p (data :: rest) =
          entriesOf loaded p [data] ++ entriesOf loaded p rest := List.filter_append [data] rest
      rw [hcons, List.map_append, ← List.append_assoc]
      exact hrest

theorem entryPeer_lt (hwf : db.WF) {nodeId : NodeId} {key : String}
    (h : entryPeer db nodeId key = some p) : p < db.nextId := by
  obtain ⟨peer, hpeer, rfl⟩ := Option.map_eq_some_iff.mp h
  have hmem := List.mem_of_find?_eq_some hpeer
  exact hwf.peerFresh peer (List.mem_filter.mp (List.mem_reverse.mp hmem)).1

theorem results (hI : Follows p I) (cfg : Config) (hwf : db.WF) (h : I seen db) (nodeId : NodeId)
    (results : List PeerSyncResult) (now : Time) :
    I (seen ++ (entriesOf (entryPeer db nodeId) p results).map (⟨·, now⟩))
      (applyPeerResults cfg db nodeId results now).db := by
  have hst : I seen (PeerResults.db { db }) := h
  exact hI.entries now results hwf hst fun _ hkey => entryPeer_lt hwf hkey

theorem saveNode (hI : Follows p I) (h : I seen db) (row : Node) : I seen (db.saveNode row) :=
  hI.other h (.frame le_rfl rfl rfl rfl rfl)

theorem syncResult (hI : Follows p I) (hwf : db.WF) (h : I seen db) {node : Node}
    (hn : node ∈ db.nodes) (data : SyncResult) (now : Time) :
    I (seen ++ (entriesOf (entryPeer db node.id) p data.peers).map (⟨·, now⟩))
      (applySyncResult cfg db node data now).db := by
  let saved := db.saveNode (syncedNode node data now)
  let confirmed := (confirmRemovals cfg saved node.id data now).db
  have hsave : Writes (OfSync node.id data now) db saved :=
    saveNode_writes (fun _ => trivial) hn (syncedNode_id node data now)
  have hsaved : I seen saved := hI.saveNode h _
  have hentries := hI.results cfg (hsave.wf hwf) hsaved node.id data.peers now
  have hok := peersOk_confirmPeer (applyPeerResults cfg saved node.id data.peers now).db node.id
    (data.peers.map (·.publicKey))
  have hconf : I (seen ++ (entriesOf (entryPeer db node.id) p data.peers).map (⟨·, now⟩))
      confirmed := hI.other hentries (.map_peers hok.same hok.rx hok.tx)
  -- addresses and imported accounts go last, and bring no result
  have hwfc : confirmed.WF := Writes.wf (syncConfirmed_writes hwf hn data now) hwf
  have hrelease : Writes Releases confirmed
      (releaseDeviceIps confirmed (releasedCandidates confirmed node.id) now) :=
    releaseDeviceIps_writes hwfc _ now
  exact hI.writes (hrelease.wf hwfc)
    (hI.writes hwfc hconf (fun _ _ _ _ hread => hread) hrelease)
    (fun _ _ _ _ hread => hread) (purgeConfirmedRemnawaveDeletes_writes _)

theorem heartbeatResult (hI : Follows p I) (hwf : db.WF) (h : I seen db) {node : Node}
    (hn : node ∈ db.nodes) (data : HeartbeatResult) (hgood : data.ok = true) (now : Time) :
    I (seen ++ (entriesOf (entryPeer db node.id) p data.peers).map (⟨·, now⟩))
      (applyHeartbeatResult cfg db node data now).db := by
  let saved := db.saveNode (applyNodeHeartbeatResult node data now)
  have hsave : Writes (OfHeartbeat data.peers now) db saved :=
    saveNode_writes (fun _ => trivial) hn rfl
  have hsaved : I seen saved := hI.saveNode h _
  unfold applyHeartbeatResult
  dsimp only
  split
  · exact hI.results cfg (hsave.wf hwf) hsaved node.id data.peers now
  · next hnot =>
      have hnil : data.peers = [] := by
        by_contra hne
        exact hnot ⟨hgood, hne⟩
      rw [hnil, entriesOf, List.filter_nil, List.map_nil, List.append_nil]
      exact hsaved

/-- A request without entries. -/
theorem silent (hI : Follows p I) {call : Call} {e : Effect} (hwf : db.WF) (h : I seen db)
    (hok : Backend.handle cfg db call.now call.request = .ok e) (hnil : call.request.entries = []) :
    I seen e.db := by
  obtain ⟨db₁, db₂, h₁, h₂, h₃⟩ := handle_phases hwf hok
  have hnone : ∀ db row data at_, ¬Ordinary cfg call db (.reading row data at_) := by
    intro db row data at_ hread
    exact absurd (hnil ▸ hread.1 : data ∈ []) List.not_mem_nil
  have hseen₁ := hI.writes hwf h hnone h₁
  have hseen₂ := hI.writes (h₁.wf hwf) hseen₁ (fun _ _ _ _ hread => hread) h₂
  exact hI.writes (h₂.wf (h₁.wf hwf)) hseen₂ (fun _ _ _ _ hread => hread) h₃

/-- **Observations.** An accepted request brings the results that its entries
are for the peer. -/
theorem handle (hI : Follows p I) {call : Call} {e : Effect} (hwf : db.WF) (h : I seen db)
    (hok : Backend.handle cfg db call.now call.request = .ok e) :
    I (seen ++ observationsFor p db call) e.db := by
  obtain ⟨now, request⟩ := call
  unfold observationsFor
  cases request with
  | syncResult nodeId data =>
      obtain ⟨node, hn, ⟨hbad, he⟩ | ⟨hgood, he⟩⟩ := nodeSyncResult_ok hok
      · rw [he]
        have hnone : entriesFor p db (.syncResult nodeId data) = [] :=
          if_neg fun hand => by simp [hbad] at hand
        rw [hnone, List.map_nil, List.append_nil]
        exact hI.saveNode h _
      · rw [he]
        have hsome : entriesFor p db (.syncResult nodeId data) =
            entriesOf (entryPeer db nodeId) p data.peers :=
          if_pos ⟨by rw [hn]; rfl, hgood⟩
        have hid : node.id = nodeId := Rows.key_of_get? hn
        rw [hsome, ← hid]
        exact hI.syncResult hwf h (Rows.mem_of_get? hn) data now
  | heartbeatResult nodeId data =>
      obtain ⟨node, hn, he⟩ := nodeHeartbeatResult_ok hok
      have hid : node.id = nodeId := Rows.key_of_get? hn
      rw [he]
      cases hgood : data.ok with
      | false =>
          have hnone : entriesFor p db (.heartbeatResult nodeId data) = [] :=
            if_neg fun hand => by simp [hgood] at hand
          rw [hnone, List.map_nil, List.append_nil]
          unfold applyHeartbeatResult
          rw [if_neg fun hand => by simp [hgood] at hand]
          exact hI.saveNode h _
      | true =>
          have hsome : entriesFor p db (.heartbeatResult nodeId data) =
              entriesOf (entryPeer db nodeId) p data.peers :=
            if_pos ⟨by rw [hn]; rfl, hgood⟩
          rw [hsome, ← hid]
          exact hI.heartbeatResult hwf h (Rows.mem_of_get? hn) data hgood now
  | _ =>
      show I (seen ++ []) e.db
      rw [List.append_nil]
      exact hI.silent hwf h hok rfl

theorem entriesFor_rejected {now : Time} {request : Request} {err : HttpError}
    (h : Backend.handle cfg db now request = .error err) : entriesFor p db request = [] := by
  cases request with
  | syncResult nodeId data =>
      refine if_neg fun hand => ?_
      obtain ⟨node, hn⟩ := Option.isSome_iff_exists.mp hand.1
      unfold Backend.handle nodeSyncResult at h
      simp [hn, hand.2] at h
  | heartbeatResult nodeId data =>
      refine if_neg fun hand => ?_
      obtain ⟨node, hn⟩ := Option.isSome_iff_exists.mp hand.1
      unfold Backend.handle nodeHeartbeatResult at h
      simp [hn] at h
  | _ => rfl

/-- A step of the panel brings the results of its request. -/
theorem step (hI : Follows p I) {s s' : Panel} {call : Call} (hwf : s.db.WF) (h : I seen s.db)
    (hstep : (panel cfg).step s call = some s') :
    I (seen ++ observationsFor p s.db call) s'.db := by
  obtain ⟨-, rfl⟩ := panel_step hstep
  unfold afterRequest
  cases hans : Backend.handle cfg s.db call.now call.request with
  | error err =>
      rw [observationsFor, entriesFor_rejected hans, List.map_nil, List.append_nil]
      exact h
  | ok e => exact hI.handle hwf h hans

end Follows

end VpnPanel.Backend
