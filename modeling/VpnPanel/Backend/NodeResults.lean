import VpnPanel.Backend.NodeSync
import VpnPanel.Backend.Remnawave

/-!
# Node results

The result routes of `internal_worker_parts/nodes.py`: a sync result, a
heartbeat result, and the snapshot the worker fetches before it answers.
-/

namespace VpnPanel.Backend

open VpnPanel.Lib

structure SyncResult where
  ok : Bool := true
  error : Option String := none
  interface : Option InterfaceResult := none
  peers : List PeerSyncResult := []

structure HeartbeatResult where
  ok : Bool := true
  error : Option String := none
  peers : List PeerSyncResult := []

/-! ## The peer entries -/

/-- The public key of a peer's device. -/
def devicePublicKey (db : Db) (peer : Peer) : Option String :=
  (db.device? peer.deviceId).bind (·.publicKey)

/-- `peers_by_public_key.get(key)`; the last peer of a key wins. -/
def peerByPublicKey (db : Db) (peers : List Peer) (key : String) : Option Peer :=
  peers.reverse.find? fun p =>
    truthy (devicePublicKey db p) && devicePublicKey db p = some key

/-- What the loop of `_apply_peer_results` carries. -/
structure PeerResults where
  db : Db
  localLifecycleNodeIds : List NodeId := []
  limitedNodeIds : List NodeId := []
  remoteDisableUuids : List String := []
  acknowledgedOwnerIds : List UserId := []

/-- The limits are enforced after an entry that recorded traffic. -/
def enforceLimits (cfg : Config) (st : PeerResults) (userId : UserId) (now : Time) : PeerResults :=
  let (lifecycleIds, db) := enforceLocalLifecycleForUser cfg st.db userId now
  let ((limitedIds, uuids), db) := enforceRemnawaveCombinedLimitForUser db userId
  { st with
    db
    localLifecycleNodeIds := st.localLifecycleNodeIds ++ lifecycleIds
    limitedNodeIds := st.limitedNodeIds ++ limitedIds
    remoteDisableUuids := st.remoteDisableUuids ++ uuids }

/-- One entry. The peers of the node were loaded before the loop; the row
itself is the session's current one. -/
def applyPeerEntry (cfg : Config) (loaded : String → Option PeerId) (st : PeerResults)
    (data : PeerSyncResult) (now : Time) : PeerResults :=
  match (loaded data.publicKey).bind st.db.peer? with
  | none => st
  | some peer =>
      let (sample, db) := applyPeerResult st.db peer data now
      let st := { st with db, acknowledgedOwnerIds := st.acknowledgedOwnerIds ++ [peer.userId] }
      if sample.isSome then enforceLimits cfg st peer.userId now else st

def applyPeerEntries (cfg : Config) (loaded : String → Option PeerId) (now : Time) :
    List PeerSyncResult → PeerResults → PeerResults
  | [], st => st
  | data :: rest, st =>
      applyPeerEntries cfg loaded now rest (applyPeerEntry cfg loaded st data now)

/-- `_apply_peer_results` for the peers of a node. -/
def applyPeerResults (cfg : Config) (db : Db) (nodeId : NodeId) (results : List PeerSyncResult)
    (now : Time) : PeerResults :=
  applyPeerEntries cfg (fun key => (peerByPublicKey db (db.peersOfNode nodeId) key).map (·.id)) now
    results { db }

/-! ## Sync result -/

/-- The node no longer lists the key of a peer that was to be removed. -/
def removalConfirmed (db : Db) (nodeId : NodeId) (seenPublicKeys : List String) (peer : Peer) :
    Bool :=
  peer.nodeId = nodeId && peer.status = .pendingDelete &&
    !(devicePublicKey db peer).any (· ∈ seenPublicKeys)

def confirmPeer (db : Db) (nodeId : NodeId) (seenPublicKeys : List String) (peer : Peer) : Peer :=
  if removalConfirmed db nodeId seenPublicKeys peer then { peer with status := .deleted } else peer

/-- The devices of the node's deleted peers, the candidates of a release. -/
def releasedCandidates (db : Db) (nodeId : NodeId) : List DeviceId :=
  ((db.peersOfNode nodeId).filter (·.status = .deleted)).map (·.deviceId)

/-- The node row after a failed sync. -/
def failedNode (node : Node) (data : SyncResult) : Node :=
  let error := if truthy data.error then data.error else some "Worker sync failed"
  { node with syncStatus := .failed, syncError := error, lastError := error }

/-- The node row after a successful sync. -/
def syncedNode (node : Node) (data : SyncResult) (now : Time) : Node :=
  let node := { node with
    syncStatus := .succeeded, syncError := none, lastError := none, lastSyncedAt := some now }
  match data.interface with
  | none => node
  | some interface => applyInterfaceResult node interface

/-- The tables after the entries and confirmations of a successful result, with
the loop's findings. -/
def confirmRemovals (cfg : Config) (db : Db) (nodeId : NodeId) (data : SyncResult) (now : Time) :
    PeerResults :=
  let results := applyPeerResults cfg db nodeId data.peers now
  let seen := data.peers.map (·.publicKey)
  let confirmed := results.db.peers.filter (removalConfirmed results.db nodeId seen)
  { results with
    db := results.db.mapPeers (confirmPeer results.db nodeId seen)
    acknowledgedOwnerIds := results.acknowledgedOwnerIds ++ confirmed.map (·.userId) }

/-- A successful sync result on a known node: entries, confirmations, releases,
then the purge of confirmed account deletions. -/
def applySyncResult (cfg : Config) (db : Db) (node : Node) (data : SyncResult) (now : Time) :
    PeerResults :=
  let results := confirmRemovals cfg (db.saveNode (syncedNode node data now)) node.id data now
  let db := releaseDeviceIps results.db (releasedCandidates results.db node.id) now
  { results with db := (purgeConfirmedRemnawaveDeletes db).2 }

/-! ## Heartbeat result -/

/-- `HEARTBEAT_TIMESTAMP_WRITE_INTERVAL`. -/
def heartbeatTimestampWriteInterval : Time := 60000000

def heartbeatTimestampDue (node : Node) (observedAt : Time) : Bool :=
  match node.lastHeartbeatAt with
  | none => true
  | some last => observedAt - last ≥ heartbeatTimestampWriteInterval

def applyNodeHeartbeatResult (node : Node) (data : HeartbeatResult) (observedAt : Time) : Node :=
  let reachability := if data.ok then .reachable else .unreachable
  let health := if data.ok then .online else .offline
  let error := if data.ok then none
    else if truthy data.error then data.error else some "Worker heartbeat failed"
  let changed := node.reachabilityStatus ≠ reachability ∨ node.healthStatus ≠ health ∨
    node.lastHeartbeatError ≠ error
  let due := changed ∨ heartbeatTimestampDue node observedAt
  { node with
    lastHeartbeatAt := if due then some observedAt else node.lastHeartbeatAt
    lastSeenAt := if due ∧ data.ok then some observedAt else node.lastSeenAt
    reachabilityStatus := reachability
    healthStatus := health
    lastHeartbeatError := error }

/-- A heartbeat result on a known node. -/
def applyHeartbeatResult (cfg : Config) (db : Db) (node : Node) (data : HeartbeatResult)
    (now : Time) : PeerResults :=
  let db := db.saveNode (applyNodeHeartbeatResult node data now)
  if data.ok ∧ data.peers ≠ [] then applyPeerResults cfg db node.id data.peers now else { db }

/-! ## Snapshots -/

/-- `peer_payload`. -/
structure PeerPayload where
  peerId : PeerId
  userId : UserId
  userName : String
  deviceId : DeviceId
  deviceName : String
  publicKey : String
  allowedIp : String
  pskKey : String
  status : PeerStatus
  isBlocked : Bool
  deriving DecidableEq, Repr

/-- The desired node-side peer; `none` without a usable identity. -/
def peerPayload (db : Db) (peer : Peer) : Option PeerPayload :=
  (db.user? peer.userId).bind fun user =>
    (db.device? peer.deviceId).bind fun device =>
      if truthy device.publicKey && truthy device.vpnIp then
        some {
          peerId := peer.id
          userId := user.id
          userName := user.name
          deviceId := device.id
          deviceName := device.name
          publicKey := device.publicKey.getD ""
          allowedIp := device.vpnIp.getD ""
          pskKey := peer.pskKey.getD ""
          status := peer.status
          isBlocked := user.isBlocked }
      else none

/-- `node_snapshot`. -/
structure NodeSnapshot where
  id : NodeId
  name : String
  url : String
  token : String
  provisionStatus : JobStatus
  interface : InterfaceResult
  peers : List PeerPayload

def nodeSnapshot (db : Db) (node : Node) : NodeSnapshot where
  id := node.id
  name := node.name
  url := node.url
  token := node.token
  provisionStatus := node.provisionStatus
  interface := node.interface
  peers := (db.peersOfNode node.id).filterMap (peerPayload db)

/-- `sync_snapshot`: one snapshot for every node. -/
def syncSnapshot (db : Db) : List NodeSnapshot := db.nodes.map (nodeSnapshot db)

end VpnPanel.Backend
