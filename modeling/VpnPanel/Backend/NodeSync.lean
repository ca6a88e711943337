import VpnPanel.Backend.Lifecycle

/-!
# Peer results

`services/node_sync.py`: what one entry of a node's answer does to its peer
row, to the accounting tables and to the endpoint sessions.
-/

namespace VpnPanel.Backend

open VpnPanel.Lib

/-- `PeerSyncResult`. `endpoint` is `none` when the field was not sent. -/
structure PeerSyncResult where
  publicKey : String
  status : Option String := none
  endpoint : Option (Option String) := none
  rxBytes : Option Nat := none
  txBytes : Option Nat := none
  lastHandshake : Option Time := none
  deriving DecidableEq, Repr

/-- The reported interface fields replace the cached ones; the others stay. -/
def applyInterfaceResult (node : Node) (data : InterfaceResult) : Node :=
  { node with interface := fun field => (data field).or (node.interface field) }

/-! ## Counters -/

/-- `_counter_delta`: a smaller reading is taken for a restarted counter. -/
def counterDelta (previous : Option Nat) (current : Nat) : Nat :=
  match previous with
  | none => 0
  | some previous => if current < previous then current else current - previous

/-- `_increase_aggregate`, for the four tables. -/
def increaseAggregate {κ : Type} [DecidableEq κ] (rows : List (TrafficAggregate κ)) (identity : κ)
    (rxDelta txDelta totalDelta : Nat) (observedAt : Time) : List (TrafficAggregate κ) :=
  match Rows.get? TrafficAggregate.identity rows identity with
  | none => rows ++ [⟨identity, rxDelta, txDelta, totalDelta, observedAt⟩]
  | some row => Rows.save TrafficAggregate.identity
      ⟨identity, row.rxBytes + rxDelta, row.txBytes + txDelta, row.totalBytes + totalDelta,
        observedAt⟩ rows

def applyLocalTrafficAggregates (traffic : Traffic) (peer : Peer) (observedAt : Time)
    (rxDelta txDelta : Nat) : Traffic :=
  let totalDelta := rxDelta + txDelta
  let usageDay := dayOf observedAt
  { traffic with
    userDaily := increaseAggregate traffic.userDaily (peer.userId, usageDay)
      rxDelta txDelta totalDelta observedAt
    userNodeDaily := increaseAggregate traffic.userNodeDaily (peer.userId, peer.nodeId, usageDay)
      rxDelta txDelta totalDelta observedAt
    userLifetime := increaseAggregate traffic.userLifetime peer.userId
      rxDelta txDelta totalDelta observedAt
    userNodeLifetime := increaseAggregate traffic.userNodeLifetime (peer.userId, peer.nodeId)
      rxDelta txDelta totalDelta observedAt }

/-! ## Endpoint sessions -/

/-- The session of a peer seen last (`ORDER BY last_seen_at DESC`). -/
def latestSession (sessions : List PeerEndpointSession) (peerId : PeerId) :
    Option PeerEndpointSession :=
  (sessions.filter (·.peerId = peerId)).foldl (fun best row =>
    match best with
    | none => some row
    | some b => if b.lastSeenAt < row.lastSeenAt then some row else some b) none

def applyPeerEndpointSession (traffic : Traffic) (peer : Peer) (data : PeerSyncResult)
    (observedAt : Time) : Traffic :=
  match data.endpoint.join with
  | none => traffic
  | some endpoint =>
      if endpoint = "" then traffic
      else
        let opened : Traffic := { traffic with
          sessions := traffic.sessions ++ [{
            id := traffic.nextSessionId, peerId := peer.id, nodeId := peer.nodeId,
            userId := peer.userId, endpoint, firstSeenAt := observedAt,
            lastSeenAt := observedAt, lastHandshake := data.lastHandshake }]
          nextSessionId := traffic.nextSessionId + 1 }
        match latestSession traffic.sessions peer.id with
        | none => opened
        | some session =>
            if session.endpoint ≠ endpoint then opened
            else if data.lastHandshake.isSome ∧ session.lastHandshake ≠ data.lastHandshake then
              let seen := { session with
                lastSeenAt := observedAt, lastHandshake := data.lastHandshake }
              { traffic with sessions := Rows.save PeerEndpointSession.id seen traffic.sessions }
            else traffic

/-! ## One peer result -/

/-- The status an answer leaves a peer in. A going or gone peer, and any peer
of a tombstoned device, is never moved to a live status by a reply. -/
def peerResultStatus (stored : PeerStatus) (deviceTombstone : Bool) (reported : Option String) :
    PeerStatus :=
  let current := if deviceTombstone && stored.live then .pendingDelete else stored
  match reported.bind PeerStatus.ofText? with
  | none => current
  | some status =>
      if status.live && (stored.tombstoned || deviceTombstone) then current else status

/-- The ledger row of one reading. -/
def trafficDelta (peer : Peer) (rxBytes txBytes : Nat) (now : Time) : TrafficDelta where
  peerId := peer.id
  nodeId := peer.nodeId
  userId := peer.userId
  observedAt := now
  previousRxBytes := peer.rawRx.getD 0
  previousTxBytes := peer.rawTx.getD 0
  currentRxBytes := rxBytes
  currentTxBytes := txBytes
  rxDeltaBytes := counterDelta peer.rawRx rxBytes
  txDeltaBytes := counterDelta peer.rawTx txBytes
  totalDeltaBytes := counterDelta peer.rawRx rxBytes + counterDelta peer.rawTx txBytes
  rxResetDetected := peer.rawRx.any (rxBytes < ·)
  txResetDetected := peer.rawTx.any (txBytes < ·)

/-- The peer row after a result, its counters apart. -/
def peerWithResult (peer : Peer) (deviceTombstone : Bool) (data : PeerSyncResult) : Peer :=
  { peer with
    status := peerResultStatus peer.status deviceTombstone data.status
    endpoint := data.endpoint.getD peer.endpoint
    lastHandshake := data.lastHandshake.or peer.lastHandshake }

/-- Write the traffic of one reading: the sample, the ledger row and the
aggregates. A reading that moves neither counter writes none. -/
def recordReading (traffic : Traffic) (peer : Peer) (rxBytes txBytes : Nat) (now : Time) :
    Option PeerTrafficSample × Traffic :=
  let delta := trafficDelta peer rxBytes txBytes now
  if delta.rxDeltaBytes = 0 ∧ delta.txDeltaBytes = 0 then (none, traffic)
  else
    let sample : PeerTrafficSample := ⟨peer.id, now, delta.rxDeltaBytes, delta.txDeltaBytes⟩
    let traffic := { traffic with
      samples := traffic.samples ++ [sample], deltas := traffic.deltas ++ [delta] }
    (some sample,
      applyLocalTrafficAggregates traffic peer now delta.rxDeltaBytes delta.txDeltaBytes)

/-- Write a peer row back. -/
def Db.savePeer (db : Db) (peer : Peer) : Db :=
  { db with peers := Rows.save Peer.id peer db.peers }

/-- Apply one peer result; the sample is returned when traffic was recorded. -/
def applyPeerResult (db : Db) (peer : Peer) (data : PeerSyncResult) (now : Time) :
    Option PeerTrafficSample × Db :=
  let deviceTombstone := (db.device? peer.deviceId).any (·.deletedAt.isSome)
  let updated := peerWithResult peer deviceTombstone data
  let traffic := applyPeerEndpointSession db.traffic peer data now
  match data.rxBytes, data.txBytes with
  | some rxBytes, some txBytes =>
      let (sample, traffic) := recordReading traffic peer rxBytes txBytes now
      (sample, { db with traffic }.savePeer
        { updated with rawRx := some rxBytes, rawTx := some txBytes })
  | _, _ => (none, { db with traffic }.savePeer updated)

/-! ## What a result changes -/

theorem peerResultStatus_live {stored : PeerStatus} {deviceTombstone : Bool}
    {reported : Option String} (h : (peerResultStatus stored deviceTombstone reported).live) :
    stored.live ∧ deviceTombstone = false := by
  unfold peerResultStatus at h
  cases deviceTombstone with
  | true =>
      exfalso
      cases hs : reported.bind PeerStatus.ofText? with
      | none => cases stored <;> simp [hs, PeerStatus.live] at h
      | some s => cases stored <;> cases s <;> simp [hs, PeerStatus.live] at h
  | false =>
      refine ⟨?_, rfl⟩
      cases hs : reported.bind PeerStatus.ofText? with
      | none => cases stored <;> simp [hs, PeerStatus.live] at h ⊢
      | some s =>
          cases stored <;> cases s <;> simp [hs, PeerStatus.live, PeerStatus.tombstoned] at h ⊢

/-- Without a tombstone in its way, a report is taken over or ignored. -/
theorem peerResultStatus_cases {stored : PeerStatus} {deviceTombstone : Bool}
    (hlive : deviceTombstone = true → stored.live = false) (status : Option String) :
    peerResultStatus stored deviceTombstone status = stored ∨
      status.bind PeerStatus.ofText? =
        some (peerResultStatus stored deviceTombstone status) := by
  have hcurrent : (if deviceTombstone && stored.live then PeerStatus.pendingDelete else stored) =
      stored := by
    cases deviceTombstone with
    | false => rfl
    | true => simp [hlive rfl]
  unfold peerResultStatus
  rw [hcurrent]
  cases status.bind PeerStatus.ofText? with
  | none => exact .inl rfl
  | some report =>
      dsimp only
      split
      · exact .inl rfl
      · exact .inr rfl

/-- The peer row a result leaves. -/
def peerAfterResult (db : Db) (peer : Peer) (data : PeerSyncResult) : Peer :=
  let updated := peerWithResult peer ((db.device? peer.deviceId).any (·.deletedAt.isSome)) data
  match data.rxBytes, data.txBytes with
  | some rxBytes, some txBytes => { updated with rawRx := some rxBytes, rawTx := some txBytes }
  | _, _ => updated

/-- The traffic tables a result leaves. -/
def trafficAfterResult (db : Db) (peer : Peer) (data : PeerSyncResult) (now : Time) : Traffic :=
  let traffic := applyPeerEndpointSession db.traffic peer data now
  match data.rxBytes, data.txBytes with
  | some rxBytes, some txBytes => (recordReading traffic peer rxBytes txBytes now).2
  | _, _ => traffic

/-- A result writes its peer row and the traffic tables, and nothing else. -/
theorem applyPeerResult_db (db : Db) (peer : Peer) (data : PeerSyncResult) (now : Time) :
    (applyPeerResult db peer data now).2 =
      { db with
        traffic := trafficAfterResult db peer data now
        peers := Rows.save Peer.id (peerAfterResult db peer data) db.peers } := by
  unfold applyPeerResult trafficAfterResult peerAfterResult Db.savePeer
  cases data.rxBytes with
  | none => rfl
  | some rx => cases data.txBytes <;> rfl

theorem peerAfterResult_id (db : Db) (peer : Peer) (data : PeerSyncResult) :
    (peerAfterResult db peer data).id = peer.id := by
  unfold peerAfterResult
  cases data.rxBytes with
  | none => rfl
  | some rx => cases data.txBytes <;> rfl

theorem peerAfterResult_status (db : Db) (peer : Peer) (data : PeerSyncResult) :
    (peerAfterResult db peer data).status =
      peerResultStatus peer.status ((db.device? peer.deviceId).any (·.deletedAt.isSome))
        data.status := by
  unfold peerAfterResult
  cases data.rxBytes with
  | none => rfl
  | some rx => cases data.txBytes <;> rfl

end VpnPanel.Backend
