import VpnPanel.Backend.Devices

/-!
# Lifecycle transitions

`services/local_lifecycle.py`, and the peer loop that the local and the
imported lifecycle share. `user.peers` is the collection a session loaded; it
is passed as the list of the loaded peer ids, so that a caller working on an
older collection can be told from one that read it in the same step.
-/

namespace VpnPanel.Backend

/-! ## The peer loop -/

/-- The status a transition gives a peer. Unblocking never restores a peer of
a tombstoned device. -/
def transitionStatus (shouldBlock deviceTombstoned : Bool) (status : PeerStatus) : PeerStatus :=
  if shouldBlock then .pendingDelete
  else if status.tombstoned && !deviceTombstoned then .pending
  else status

/-- One turn of the loop, over a row of the table. -/
def transitionPeer (shouldBlock : Bool) (tombstonedDevices : List DeviceId) (loaded : List PeerId)
    (peer : Peer) : Peer :=
  if peer.id ∈ loaded then
    { peer with
      status := transitionStatus shouldBlock (peer.deviceId ∈ tombstonedDevices) peer.status }
  else peer

/-- The loop over the loaded peers: the nodes of the peers it changed, and the
tables after it. -/
def transitionPeers (db : Db) (loaded : List PeerId) (shouldBlock : Bool) : List NodeId × Db :=
  let peers := db.peers.filter (·.id ∈ loaded)
  let tombstoned := tombstonedDeviceIds db (peers.map (·.deviceId))
  let changed := peers.filter fun p =>
    (transitionPeer shouldBlock tombstoned loaded p).status ≠ p.status
  (changed.map (·.nodeId), db.mapPeers (transitionPeer shouldBlock tombstoned loaded))

/-- The ids of `User.peers` as a fresh load sees them. -/
def loadPeers (db : Db) (userId : UserId) : List PeerId := (db.peersOf userId).map (·.id)

/-! ## The local account -/

/-- Re-derive the owner's state and return the node ids that need a sync.
`user` is the row as the request changed it before this call. -/
def applyLocalLifecycleState (cfg : Config) (db : Db) (user : User)
    (localTotalBytes : Option Nat) (now : Time) : List NodeId × Db :=
  let wasBlocked := user.isBlocked || user.lifecycleStatus ≠ .active
  let total := localTotalBytes.getD (loadLocalTotalBytes db user.id)
  let desired := desiredStatus user total now
  let shouldBlock : Bool := desired ≠ .active
  let db := db.saveUser { user with lifecycleStatus := desired, isBlocked := shouldBlock }
  let (affected, db) := transitionPeers db (loadPeers db user.id) shouldBlock
  if wasBlocked && !shouldBlock then
    let (created, db) := restoreMissingPeersForUser cfg db user.id
    (affected ++ created, db)
  else (affected, db)

/-- A Remnawave-managed account is not judged locally. -/
def enforceLocalLifecycleForUser (cfg : Config) (db : Db) (userId : UserId) (now : Time) :
    List NodeId × Db :=
  match db.user? userId with
  | none => ([], db)
  | some user =>
      if (db.profileOf? userId).isSome then ([], db)
      else applyLocalLifecycleState cfg db user none now

/-- Drop the lifetime rows of an account and its daily rows from the reset day
on, and stamp the reset. Returns the stamped row too. -/
def resetLocalTrafficUsage (db : Db) (user : User) (resetAt : Time) : User × Db :=
  let user' := { user with trafficResetAt := some resetAt }
  let traffic := { db.traffic with
    userLifetime := db.traffic.userLifetime.filter (·.identity ≠ user.id)
    userNodeLifetime := db.traffic.userNodeLifetime.filter (·.identity.1 ≠ user.id)
    userDaily := db.traffic.userDaily.filter fun row =>
      ¬(row.identity.1 = user.id ∧ row.identity.2 ≥ dayOf resetAt)
    userNodeDaily := db.traffic.userNodeDaily.filter fun row =>
      ¬(row.identity.1 = user.id ∧ row.identity.2.2 ≥ dayOf resetAt) }
  (user', { db with traffic }.saveUser user')

end VpnPanel.Backend
