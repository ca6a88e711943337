import VpnPanel.Lib.Rows

/-!
# Tables of the panel backend

The rows of `app/models.py` that the device, lifecycle and node-result code
reads and writes. A table is the list of its rows in insertion order; a
nullable column is an `Option`; ids are the values of one supply (`nextId`),
which stands for `uuid4`: an id handed out once is never handed out again.

Columns that no modelled function reads (display data of a Remnawave profile,
legacy per-user key columns, creation stamps) are left out.
-/

namespace VpnPanel.Backend

open VpnPanel.Lib

abbrev NodeId := Nat
abbrev UserId := Nat
abbrev DeviceId := Nat
abbrev PeerId := Nat

/-- Microseconds since the epoch, UTC. -/
abbrev Time := Int

/-- The date of a `Time`, as a day number. -/
abbrev Day := Int

/-- `observed_at.date()`. -/
def dayOf (at_ : Time) : Day := at_ / 86400000000

/-- Python truthiness of a nullable text column. -/
def truthy (text : Option String) : Bool := text.any (· ≠ "")

theorem truthy_iff {text : Option String} : truthy text = true ↔ ∃ t, text = some t ∧ t ≠ "" := by
  cases text <;> simp [truthy]

/-! ## Enumerated columns -/

inductive PeerStatus
  | pending | active | pendingDelete | deleted
  deriving DecidableEq, Repr

/-- The members of `LIVE_PEER_STATUSES`. -/
def PeerStatus.live : PeerStatus → Bool
  | .pending | .active => true
  | .pendingDelete | .deleted => false

/-- The members of `TOMBSTONED_PEER_STATUSES`. -/
def PeerStatus.tombstoned (s : PeerStatus) : Bool := !s.live

/-- The column text of a peer status; any other text names none. -/
def PeerStatus.ofText? : String → Option PeerStatus
  | "pending" => some .pending
  | "active" => some .active
  | "pending_delete" => some .pendingDelete
  | "deleted" => some .deleted
  | _ => none

inductive LifecycleStatus
  | active | blocked | expired | limited
  deriving DecidableEq, Repr

inductive ResetPolicy
  | manual | noReset
  deriving DecidableEq, Repr

/-- `RemnawaveSyncStatus`. -/
inductive RemnawaveSyncStatus
  | synced | missing | stale | error
  deriving DecidableEq, Repr

/-- Interface metadata columns a node result may refresh (`field_map` of
`apply_interface_result`). -/
inductive InterfaceField
  | publicKey | endpoint | listenPort | jc | jmin | jmax | s1 | s2 | s3 | s4
  | h1 | h2 | h3 | h4 | i1 | i2 | i3 | i4 | i5 | mtu
  deriving DecidableEq, Repr

inductive InterfaceValue
  | int (value : Int)
  | text (value : String)
  deriving DecidableEq, Repr

/-- `InterfaceResult`: the fields the agent reported. -/
abbrev InterfaceResult := InterfaceField → Option InterfaceValue

inductive JobStatus
  | pending | succeeded | failed
  deriving DecidableEq, Repr

inductive Reachability
  | unknown | reachable | unreachable
  deriving DecidableEq, Repr

inductive Health
  | unknown | online | offline
  deriving DecidableEq, Repr

/-! ## Rows -/

structure Node where
  id : NodeId
  name : String
  url : String
  token : String
  syncStatus : JobStatus := .pending
  syncError : Option String := none
  lastSyncedAt : Option Time := none
  provisionStatus : JobStatus := .pending
  lastError : Option String := none
  reachabilityStatus : Reachability := .unknown
  healthStatus : Health := .unknown
  lastHeartbeatAt : Option Time := none
  lastHeartbeatError : Option String := none
  lastSeenAt : Option Time := none
  interface : InterfaceResult := fun _ => none

structure User where
  id : UserId
  name : String
  isBlocked : Bool := false
  lifecycleStatus : LifecycleStatus := .active
  expireAt : Option Time := none
  trafficLimitBytes : Nat := 0
  trafficResetPolicy : ResetPolicy := .manual
  trafficResetAt : Option Time := none
  deviceLimit : Nat := 0
  deriving DecidableEq, Repr

structure RemnawaveUser where
  userId : UserId
  remnawaveUuid : String
  username : String
  shortUuid : Option String := none
  status : String
  expireAt : Option Time := none
  trafficLimitBytes : Int := 0
  trafficUsedBytes : Int := 0
  hwidDeviceLimit : Option Int := none
  lastSyncedAt : Option Time := none
  syncStatus : RemnawaveSyncStatus := .synced
  syncReason : Option String := none
  syncError : Option String := none
  deleteRequestedAt : Option Time := none
  deriving DecidableEq, Repr

structure Device where
  id : DeviceId
  userId : UserId
  name : String
  publicKey : Option String
  privateKey : Option String
  vpnIp : Option String
  releasedVpnIp : Option String := none
  ipReleasedAt : Option Time := none
  isLegacyDefault : Bool := false
  deletedAt : Option Time := none
  createdAt : Time
  deriving DecidableEq, Repr

structure Peer where
  id : PeerId
  nodeId : NodeId
  userId : UserId
  deviceId : DeviceId
  status : PeerStatus := .pending
  pskKey : Option String
  rawRx : Option Nat := none
  rawTx : Option Nat := none
  lastHandshake : Option Time := none
  endpoint : Option String := none
  deriving DecidableEq, Repr

/-! ## Traffic tables -/

structure PeerTrafficSample where
  peerId : PeerId
  sampledAt : Time
  rxBytes : Nat
  txBytes : Nat
  deriving DecidableEq, Repr

/-- A row of the accounting ledger. -/
structure TrafficDelta where
  peerId : PeerId
  nodeId : NodeId
  userId : UserId
  observedAt : Time
  previousRxBytes : Nat
  previousTxBytes : Nat
  currentRxBytes : Nat
  currentTxBytes : Nat
  rxDeltaBytes : Nat
  txDeltaBytes : Nat
  totalDeltaBytes : Nat
  rxResetDetected : Bool
  txResetDetected : Bool
  deriving DecidableEq, Repr

/-- A row of one of the four aggregate tables, which differ in their identity
columns `κ` only. -/
structure TrafficAggregate (κ : Type) where
  identity : κ
  rxBytes : Nat
  txBytes : Nat
  totalBytes : Nat
  updatedAt : Time
  deriving DecidableEq, Repr

structure PeerEndpointSession where
  id : Nat
  peerId : PeerId
  nodeId : NodeId
  userId : UserId
  endpoint : String
  firstSeenAt : Time
  lastSeenAt : Time
  lastHandshake : Option Time
  deriving DecidableEq, Repr

/-- The traffic tables. -/
structure Traffic where
  samples : List PeerTrafficSample := []
  deltas : List TrafficDelta := []
  userDaily : List (TrafficAggregate (UserId × Day)) := []
  userNodeDaily : List (TrafficAggregate (UserId × NodeId × Day)) := []
  userLifetime : List (TrafficAggregate UserId) := []
  userNodeLifetime : List (TrafficAggregate (UserId × NodeId)) := []
  sessions : List PeerEndpointSession := []
  nextSessionId : Nat := 0
  deriving DecidableEq, Repr

/-! ## The database -/

/-- The committed rows, and the id supply. -/
structure Db where
  nodes : List Node := []
  users : List User := []
  profiles : List RemnawaveUser := []
  devices : List Device := []
  peers : List Peer := []
  traffic : Traffic := {}
  nextId : Nat := 0

/-- An IPv4 network. -/
structure Subnet where
  address : Nat
  prefixlen : Nat
  deriving DecidableEq, Repr

/-- What the deployment and the random generators decide: the VPN subnet, the
keypair `(private, public)` drawn for a device and the PSK drawn for a peer. -/
structure Config where
  vpnSubnet : Subnet
  generateKeypair : DeviceId → String × String
  generatePsk : PeerId → String

/-- An HTTP error answer. -/
structure HttpError where
  statusCode : Nat
  detail : String
  deriving DecidableEq, Repr

namespace Db

def user? (db : Db) (id : UserId) : Option User := Rows.get? User.id db.users id
def node? (db : Db) (id : NodeId) : Option Node := Rows.get? Node.id db.nodes id
def device? (db : Db) (id : DeviceId) : Option Device := Rows.get? Device.id db.devices id
def peer? (db : Db) (id : PeerId) : Option Peer := Rows.get? Peer.id db.peers id

/-- The profile linked to an account (`User.remnawave_user`). -/
def profileOf? (db : Db) (id : UserId) : Option RemnawaveUser :=
  Rows.get? RemnawaveUser.userId db.profiles id

/-- The peers of an account (`User.peers`). -/
def peersOf (db : Db) (id : UserId) : List Peer := db.peers.filter (·.userId = id)

/-- The peers of a node (`_peers_of_node`). -/
def peersOfNode (db : Db) (id : NodeId) : List Peer := db.peers.filter (·.nodeId = id)

/-! ### Rows written back -/

def saveUser (db : Db) (user : User) : Db := { db with users := Rows.save User.id user db.users }

def saveProfile (db : Db) (profile : RemnawaveUser) : Db :=
  { db with profiles := Rows.save RemnawaveUser.userId profile db.profiles }

def saveNode (db : Db) (node : Node) : Db := { db with nodes := Rows.save Node.id node db.nodes }

def saveDevice (db : Db) (device : Device) : Db :=
  { db with devices := Rows.save Device.id device db.devices }

/-- Rewrite peer rows in place. -/
def mapPeers (db : Db) (f : Peer → Peer) : Db := { db with peers := db.peers.map f }

/-! ### Inserts, with the constraints of `app/models.py`

A `UNIQUE` column refuses a second equal value and never compares `NULL`; a
foreign key refuses a row whose target is missing. -/

/-- `users`: unique `name`. -/
def insertUser (db : Db) (user : User) : Option Db :=
  if db.users.any (·.name = user.name) then none
  else some { db with users := db.users ++ [user], nextId := db.nextId + 1 }

/-- `remnawave_users`: unique `user_id` and `remnawave_uuid`. -/
def insertProfile (db : Db) (profile : RemnawaveUser) : Option Db :=
  if db.profiles.any (fun row => row.userId = profile.userId ∨
      row.remnawaveUuid = profile.remnawaveUuid) ∨ (db.user? profile.userId).isNone then none
  else some { db with profiles := db.profiles ++ [profile] }

def insertNode (db : Db) (node : Node) : Db :=
  { db with nodes := db.nodes ++ [node], nextId := db.nextId + 1 }

/-- The constraint an insert into `devices` breaks. -/
inductive DeviceConflict
  | vpnIp | publicKey | owner
  deriving DecidableEq, Repr

/-- `devices`: `uq_devices_vpn_ip`, `uq_devices_public_key` and the owner key. -/
def deviceConflict? (db : Db) (device : Device) : Option DeviceConflict :=
  if device.vpnIp.isSome ∧ db.devices.any (·.vpnIp = device.vpnIp) then some .vpnIp
  else if device.publicKey.isSome ∧ db.devices.any (·.publicKey = device.publicKey) then
    some .publicKey
  else if (db.user? device.userId).isNone then some .owner
  else none

def insertDevice (db : Db) (device : Device) : Except DeviceConflict Db :=
  match db.deviceConflict? device with
  | some conflict => .error conflict
  | none => .ok { db with devices := db.devices ++ [device], nextId := db.nextId + 1 }

/-- `peers`: `uq_peers_node_device`, the node key and `fk_peers_device_owner`. -/
def peerConflict (db : Db) (peer : Peer) : Bool :=
  db.peers.any (fun row => row.nodeId = peer.nodeId ∧ row.deviceId = peer.deviceId) ||
    (db.node? peer.nodeId).isNone ||
    !db.devices.any (fun row => row.id = peer.deviceId ∧ row.userId = peer.userId)

def insertPeer (db : Db) (peer : Peer) : Option Db :=
  if db.peerConflict peer then none
  else some { db with peers := db.peers ++ [peer], nextId := db.nextId + 1 }

/-! ### Cascading deletes -/

/-- Drop the traffic rows of removed peers, accounts or nodes. -/
def dropTraffic (traffic : Traffic) (peer : PeerId → Bool) (user : UserId → Bool)
    (node : NodeId → Bool) : Traffic where
  samples := traffic.samples.filter fun row => !peer row.peerId
  deltas := traffic.deltas.filter fun row =>
    !(peer row.peerId || user row.userId || node row.nodeId)
  userDaily := traffic.userDaily.filter fun row => !user row.identity.1
  userNodeDaily := traffic.userNodeDaily.filter fun row =>
    !(user row.identity.1 || node row.identity.2.1)
  userLifetime := traffic.userLifetime.filter fun row => !user row.identity
  userNodeLifetime := traffic.userNodeLifetime.filter fun row =>
    !(user row.identity.1 || node row.identity.2)
  sessions := traffic.sessions.filter fun row =>
    !(peer row.peerId || user row.userId || node row.nodeId)
  nextSessionId := traffic.nextSessionId

/-- `db.delete(user)`: the account with its profile, devices and peers. -/
def deleteUser (db : Db) (id : UserId) : Db :=
  { db with
    users := db.users.filter (·.id ≠ id)
    profiles := db.profiles.filter (·.userId ≠ id)
    devices := db.devices.filter (·.userId ≠ id)
    peers := db.peers.filter (·.userId ≠ id)
    traffic := dropTraffic db.traffic (fun p => (db.peersOf id).any (·.id = p)) (· = id)
      fun _ => false }

/-- `db.delete(node)`: the node with its peers. -/
def deleteNode (db : Db) (id : NodeId) : Db :=
  { db with
    nodes := db.nodes.filter (·.id ≠ id)
    peers := db.peers.filter (·.nodeId ≠ id)
    traffic := dropTraffic db.traffic (fun p => (db.peersOfNode id).any (·.id = p))
      (fun _ => false) (· = id) }

end Db

end VpnPanel.Backend
