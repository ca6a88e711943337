import Mathlib.Algebra.GroupWithZero.Nat
import VpnPanel.Lib.Counter
import VpnPanel.Backend.Accounts
import VpnPanel.Backend.Observations

/-!
# The ledger of one peer

`Ledger p readings db`: the readings are those the backend was given for the
peer `p`, in the order of their delivery, and the tables account for them as a
meter does. Only an entry for the peer writes its counters or its ledger rows.
-/

namespace VpnPanel.Backend

open VpnPanel.Lib

/-- The two counters of a peer as a node reports them. -/
structure Reading where
  rx : Nat
  tx : Nat
  deriving DecidableEq, Repr

/-- The reading an entry carries; both counters have to be there. -/
def PeerSyncResult.reading? (data : PeerSyncResult) : Option Reading :=
  match data.rxBytes, data.txBytes with
  | some rx, some tx => some ⟨rx, tx⟩
  | _, _ => none

/-- The reading an entry carries for the peer `p`. -/
def PeerSyncResult.readingFor (loaded : String → Option PeerId) (p : PeerId)
    (data : PeerSyncResult) : Option Reading :=
  if loaded data.publicKey = some p then data.reading? else none

/-- The readings a request delivers for the peer `p`. -/
def readingsFor (p : PeerId) (db : Db) : Request → List Reading
  | .syncResult nodeId data =>
      if (db.node? nodeId).isSome ∧ data.ok then
        data.peers.filterMap (·.readingFor (entryPeer db nodeId) p)
      else []
  | .heartbeatResult nodeId data =>
      if (db.node? nodeId).isSome ∧ data.ok then
        data.peers.filterMap (·.readingFor (entryPeer db nodeId) p)
      else []
  | _ => []

/-- The sum of one column over the ledger rows of the peer `p`. -/
def accountedFor (column : TrafficDelta → Nat) (p : PeerId) (db : Db) : Nat :=
  ((db.traffic.deltas.filter (·.peerId = p)).map column).sum

/-- The received bytes the backend accounts for a peer. -/
def rxAccounted (p : PeerId) (db : Db) : Nat := accountedFor (·.rxDeltaBytes) p db

/-- The sent bytes the backend accounts for a peer. -/
def txAccounted (p : PeerId) (db : Db) : Nat := accountedFor (·.txDeltaBytes) p db

/-- What the row of a metered peer and its ledger rows say. -/
structure Metered (readings : List Reading) (db : Db) (peer : Peer) : Prop where
  rawRx : peer.rawRx = Counter.mark none (readings.map (·.rx))
  rawTx : peer.rawTx = Counter.mark none (readings.map (·.tx))
  rx : rxAccounted peer.id db = Counter.metered none (readings.map (·.rx))
  tx : txAccounted peer.id db = Counter.metered none (readings.map (·.tx))
  rows : ∀ d ∈ db.traffic.deltas, d.peerId = peer.id →
    d.nodeId = peer.nodeId ∧ d.userId = peer.userId

structure Ledger (p : PeerId) (readings : List Reading) (db : Db) : Prop where
  fresh : db.nextId ≤ p → readings = [] ∧ ∀ d ∈ db.traffic.deltas, d.peerId ≠ p
  row : ∀ peer ∈ db.peers, peer.id = p → Metered readings db peer

/-! ## Writes that carry no reading of the peer -/

section Frame

variable {p : PeerId} {readings : List Reading} {db : Db}

theorem Metered.congr {peer peer' : Peer} {db' : Db} (h : Metered readings db peer)
    (hsame : peer.Same peer') (hrx : peer'.rawRx = peer.rawRx) (htx : peer'.rawTx = peer.rawTx)
    (hdeltas : db'.traffic.deltas.filter (·.peerId = peer.id) =
      db.traffic.deltas.filter (·.peerId = peer.id)) : Metered readings db' peer' := by
  refine ⟨hrx.trans h.rawRx, htx.trans h.rawTx, ?_, ?_, ?_⟩
  · rw [hsame.id, ← h.rx]
    unfold rxAccounted accountedFor
    rw [hdeltas]
  · rw [hsame.id, ← h.tx]
    unfold txAccounted accountedFor
    rw [hdeltas]
  · intro d hd hid
    rw [hsame.id] at hid
    have hmem : d ∈ db'.traffic.deltas.filter (·.peerId = peer.id) :=
      List.mem_filter.mpr ⟨hd, by simpa using hid⟩
    rw [hdeltas] at hmem
    rw [hsame.nodeId, hsame.userId]
    exact h.rows d (List.mem_filter.mp hmem).1 hid

/-- The ledger row a reading writes. -/
def ledgerRows (row : Peer) (data : PeerSyncResult) (now : Time) : List TrafficDelta :=
  match data.reading? with
  | none => []
  | some r =>
      if counterDelta row.rawRx r.rx = 0 ∧ counterDelta row.rawTx r.tx = 0 then []
      else [trafficDelta row r.rx r.tx now]

theorem trafficAfterResult_deltas (db : Db) (row : Peer) (data : PeerSyncResult) (now : Time) :
    (trafficAfterResult db row data now).deltas =
      db.traffic.deltas ++ ledgerRows row data now := by
  have hsession := applyPeerEndpointSession_deltas db.traffic row data now
  unfold trafficAfterResult ledgerRows PeerSyncResult.reading?
  cases data.rxBytes with
  | none => simpa using hsession
  | some rx =>
      cases data.txBytes with
      | none => simpa using hsession
      | some tx =>
          dsimp only
          unfold recordReading
          dsimp only
          have hrx : (trafficDelta row rx tx now).rxDeltaBytes = counterDelta row.rawRx rx := rfl
          have htx : (trafficDelta row rx tx now).txDeltaBytes = counterDelta row.rawTx tx := rfl
          rw [hrx, htx]
          split
          · simpa using hsession
          · show (applyPeerEndpointSession db.traffic row data now).deltas ++ _ = _
            rw [hsession]

theorem ledgerRows_peerId {row : Peer} {data : PeerSyncResult} {now : Time} {d : TrafficDelta}
    (h : d ∈ ledgerRows row data now) :
    d.peerId = row.id ∧ d.nodeId = row.nodeId ∧ d.userId = row.userId := by
  unfold ledgerRows at h
  split at h
  · cases h
  · split at h
    · cases h
    · rw [List.mem_singleton.mp h]
      exact ⟨rfl, rfl, rfl⟩

theorem peerAfterResult_counters (db : Db) (row : Peer) (data : PeerSyncResult) :
    (peerAfterResult db row data).rawRx = (data.reading?.map (·.rx)).or row.rawRx ∧
      (peerAfterResult db row data).rawTx = (data.reading?.map (·.tx)).or row.rawTx := by
  unfold peerAfterResult PeerSyncResult.reading?
  cases data.rxBytes with
  | none => exact ⟨rfl, rfl⟩
  | some rx => cases data.txBytes <;> exact ⟨rfl, rfl⟩

theorem filter_ledgerRows {row : Peer} (hne : row.id ≠ p) (data : PeerSyncResult) (now : Time) :
    (ledgerRows row data now).filter (·.peerId = p) = [] := by
  rw [List.filter_eq_nil_iff]
  intro d hd
  simpa [(ledgerRows_peerId hd).1] using hne

/-- The ledger rows of a peer, after a write beside it. -/
theorem Aside.deltas {db' : Db} (h : Aside p db db') {q : Peer} (hq : q ∈ db'.peers)
    (hid : q.id = p) (hrows : ∀ d ∈ db.traffic.deltas, d.peerId = p →
      d.nodeId = q.nodeId ∧ d.userId = q.userId) :
    db'.traffic.deltas.filter (·.peerId = p) = db.traffic.deltas.filter (·.peerId = p) := by
  subst hid
  cases h.traffic with
  | kept hdeltas _ _ => rw [hdeltas]
  | result row data now hne htraffic =>
      rw [htraffic, trafficAfterResult_deltas, List.filter_append, filter_ledgerRows hne,
        List.append_nil]
  | dropped peer user node htraffic hstays =>
      rw [htraffic]
      exact filter_dropped hrows (hstays q hq rfl)

/-- Rows of the peer are not written beside it. -/
theorem Aside.deltas_subset {db' : Db} (h : Aside p db db') {d : TrafficDelta}
    (hd : d ∈ db'.traffic.deltas) (hid : d.peerId = p) : d ∈ db.traffic.deltas := by
  cases h.traffic with
  | kept hdeltas _ _ => exact hdeltas ▸ hd
  | result row data now hne htraffic =>
      rw [htraffic, trafficAfterResult_deltas] at hd
      rcases List.mem_append.mp hd with hd | hnew
      · exact hd
      · exact absurd ((ledgerRows_peerId hnew).1.symm.trans hid) hne
  | dropped peer user node htraffic _ =>
      rw [htraffic] at hd
      exact (List.mem_filter.mp hd).1

/-- A write beside the peer keeps its ledger. -/
theorem Ledger.aside (h : Ledger p readings db) {db' : Db} (hw : Aside p db db') :
    Ledger p readings db' := by
  refine ⟨fun hfresh => ?_, fun peer hpeer hid => ?_⟩
  · obtain ⟨hnil, hnone⟩ := h.fresh (hw.nextId.trans hfresh)
    exact ⟨hnil, fun d hd hdp => hnone d (hw.deltas_subset hd hdp) hdp⟩
  · cases hw.row peer hpeer hid with
    | kept old hold hsame hrx htx =>
        have hm := h.row old hold (hsame.id.symm.trans hid)
        refine hm.congr hsame hrx htx ?_
        rw [← hsame.id, hid]
        refine hw.deltas hpeer hid fun d hd hdp => ?_
        rw [hsame.nodeId, hsame.userId]
        exact hm.rows d hd (hdp.trans (hid.symm.trans hsame.id))
    | created hnew hrx htx =>
        -- the peer is created: nothing was ever read for it
        obtain ⟨rfl, hnone⟩ := h.fresh hnew.le
        have hempty : db'.traffic.deltas.filter (·.peerId = peer.id) = [] := by
          rw [List.filter_eq_nil_iff]
          intro d hd
          simpa [hid] using fun hdp => hnone d (hw.deltas_subset hd hdp) hdp
        refine ⟨hrx, htx, ?_, ?_, ?_⟩
        · show ((db'.traffic.deltas.filter (·.peerId = peer.id)).map _).sum = 0
          rw [hempty]
          rfl
        · show ((db'.traffic.deltas.filter (·.peerId = peer.id)).map _).sum = 0
          rw [hempty]
          rfl
        · intro d hd hdp
          exact absurd (hdp.trans hid) (hnone d (hw.deltas_subset hd (hdp.trans hid)))

/-- An entry of the peer without a reading. -/
theorem Ledger.unread (hwf : db.WF) (h : Ledger p readings db) {row : Peer} (hrow : row ∈ db.peers)
    (hid : row.id = p) {data : PeerSyncResult} (now : Time) (hnone : data.reading? = none) :
    Ledger p readings (applyPeerResult db row data now).2 := by
  subst hid
  have hsame := peerAfterResult_same db row data
  obtain ⟨hrx, htx⟩ := peerAfterResult_counters db row data
  rw [hnone] at hrx htx
  have hdeltas : (trafficAfterResult db row data now).deltas = db.traffic.deltas := by
    rw [trafficAfterResult_deltas, ledgerRows, hnone, List.append_nil]
  rw [applyPeerResult_db]
  refine ⟨fun hfresh => ?_, fun peer hpeer hpid => ?_⟩
  · exact absurd (hwf.peerFresh row hrow) (Nat.not_lt.mpr hfresh)
  · rcases Rows.mem_save.mp hpeer with ⟨rfl, -⟩ | ⟨-, hne⟩
    · exact (h.row row hrow rfl).congr hsame hrx htx (by rw [hdeltas])
    · exact absurd (hpid.trans (peerAfterResult_id db row data).symm) hne

/-- A reading of the peer is metered. -/
theorem Ledger.reading_self (hwf : db.WF) (h : Ledger p readings db) {row : Peer}
    (hrow : row ∈ db.peers) (hid : row.id = p) {data : PeerSyncResult} {r : Reading} (now : Time)
    (hr : data.reading? = some r) :
    Ledger p (readings ++ [r]) (applyPeerResult db row data now).2 := by
  subst hid
  have hm := h.row row hrow rfl
  have hsame := peerAfterResult_same db row data
  obtain ⟨hrx, htx⟩ := peerAfterResult_counters db row data
  rw [applyPeerResult_db]
  -- a ledger row is only left out where both of its columns are zero
  have hsum : ∀ column : TrafficDelta → Nat,
      (counterDelta row.rawRx r.rx = 0 → counterDelta row.rawTx r.tx = 0 →
        column (trafficDelta row r.rx r.tx now) = 0) →
      (((db.traffic.deltas ++ ledgerRows row data now).filter (·.peerId = row.id)).map column).sum =
        accountedFor column row.id db + column (trafficDelta row r.rx r.tx now) := by
    intro column hzero
    rw [List.filter_append, List.map_append, List.sum_append]
    unfold accountedFor ledgerRows
    rw [hr]
    dsimp only
    split
    · next hboth => simp [hzero hboth.1 hboth.2]
    · have hpid : (trafficDelta row r.rx r.tx now).peerId = row.id := rfl
      simp [hpid]
  refine ⟨?_, ?_⟩
  · intro hfresh
    have hlt : row.id < db.nextId := hwf.peerFresh row hrow
    exact absurd hlt (Nat.not_lt.mpr hfresh)
  · intro peer hpeer hpid
    rcases Rows.mem_save.mp hpeer with ⟨rfl, -⟩ | ⟨-, hne⟩
    swap
    · exact absurd (hpid.trans (peerAfterResult_id db row data).symm) hne
    refine ⟨?_, ?_, ?_, ?_, ?_⟩
    · rw [hrx, hr, List.map_append]
      simp [Counter.mark]
    · rw [htx, hr, List.map_append]
      simp [Counter.mark]
    · rw [List.map_append, Counter.metered_append, ← hm.rx, ← hm.rawRx]
      unfold rxAccounted accountedFor
      rw [trafficAfterResult_deltas, peerAfterResult_id, hsum _ fun hx _ => hx]
      rfl
    · rw [List.map_append, Counter.metered_append, ← hm.tx, ← hm.rawTx]
      unfold txAccounted accountedFor
      rw [trafficAfterResult_deltas, peerAfterResult_id, hsum _ fun _ hx => hx]
      rfl
    · intro d hd hdp
      rw [hsame.nodeId, hsame.userId]
      rw [trafficAfterResult_deltas] at hd
      rw [peerAfterResult_id] at hdp
      rcases List.mem_append.mp hd with hd | hd
      · exact hm.rows d hd hdp
      · exact (ledgerRows_peerId hd).2

end Frame

/-! ## Requests -/

section Requests

variable {cfg : Config} {p : PeerId} {readings : List Reading} {db : Db}

/-- Nothing is said about a peer that is gone. -/
theorem Ledger.of_absent (hlt : p < db.nextId) (hnone : db.peer? p = none) :
    Ledger p readings db := by
  refine ⟨fun hfresh => absurd hlt (Nat.not_lt.mpr hfresh), fun peer hpeer hid => ?_⟩
  exact absurd hid (Rows.get?_eq_none.mp hnone peer hpeer)

/-- **Ledger.** The ledger of a peer follows the readings among its results. -/
theorem Ledger.follows (p : PeerId) (readings : List Reading) :
    Follows p fun seen db => Ledger p (readings ++ seen.filterMap (·.data.reading?)) db where
  absent _ _ hlt hnone := .of_absent hlt hnone
  other h hw := h.aside hw
  own {seen db row} data now hwf h hrow hid := by
    rw [List.filterMap_append, ← List.append_assoc]
    cases hr : data.reading? with
    | none =>
        rw [List.filterMap_cons_none (by exact hr), List.filterMap_nil, List.append_nil]
        exact h.unread hwf hrow hid now hr
    | some r =>
        rw [List.filterMap_cons_some (by exact hr), List.filterMap_nil]
        exact h.reading_self hwf hrow hid now hr

theorem readings_of_entries (loaded : String → Option PeerId) (p : PeerId)
    (results : List PeerSyncResult) :
    (entriesOf loaded p results).filterMap (·.reading?) =
      results.filterMap (·.readingFor loaded p) := by
  unfold entriesOf
  rw [List.filterMap_filter]
  refine List.filterMap_congr fun data _ => ?_
  unfold PeerSyncResult.readingFor
  by_cases hkey : loaded data.publicKey = some p <;> simp [hkey]

/-- The readings a request delivers are those of its results. -/
theorem readings_observed (p : PeerId) (db : Db) (call : Call) :
    (observationsFor p db call).filterMap (·.data.reading?) = readingsFor p db call.request := by
  unfold observationsFor
  rw [List.filterMap_map]
  show (entriesFor p db call.request).filterMap (·.reading?) = _
  unfold entriesFor readingsFor
  cases call.request with
  | syncResult nodeId data =>
      dsimp only
      split
      · exact readings_of_entries _ p data.peers
      · rfl
  | heartbeatResult nodeId data =>
      dsimp only
      split
      · exact readings_of_entries _ p data.peers
      · rfl
  | _ => rfl

/-- A step of the panel meters the readings of its request. -/
theorem Ledger.step {s s' : Panel} {call : Call} (hwf : s.db.WF) (h : Ledger p readings s.db)
    (hstep : (panel cfg).step s call = some s') :
    Ledger p (readings ++ readingsFor p s.db call.request) s'.db := by
  let unseen : List Observation := []
  have hstart : Ledger p (readings ++ unseen.filterMap (·.data.reading?)) s.db := by
    rw [List.filterMap_nil, List.append_nil]
    exact h
  rw [← readings_observed p s.db call]
  exact (Ledger.follows p readings).step hwf hstart hstep

theorem Ledger.empty (p : PeerId) : Ledger p [] {} :=
  ⟨fun _ => ⟨rfl, fun _ hd => absurd hd List.not_mem_nil⟩, fun _ h => absurd h List.not_mem_nil⟩

end Requests

end VpnPanel.Backend
