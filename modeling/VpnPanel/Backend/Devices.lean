import Mathlib.Algebra.Group.Nat.Defs
import Mathlib.Data.List.Sort
import VpnPanel.Backend.Policy

/-!
# Devices

`services/devices.py` and `allocate_ip` of `crypto.py`: the device budget, the
address pool, creation, the tombstone and the peers of a device. A function
that writes takes the tables and returns them changed, with the node ids that
need a sync where the source returns them.
-/

namespace VpnPanel.Backend

/-! ## The address pool -/

/-- The host addresses of the network (`ip_network(..., strict=False).hosts()`). -/
def Subnet.hosts (subnet : Subnet) : List Nat :=
  let size := 2 ^ (32 - subnet.prefixlen)
  let network := subnet.address / size * size
  if subnet.prefixlen = 32 then [network]
  else if subnet.prefixlen = 31 then [network, network + 1]
  else (List.range (size - 2)).map (network + 1 + ·)

/-- The dotted text of an address. -/
def hostText (host : Nat) : String :=
  s!"{host / 16777216 % 256}.{host / 65536 % 256}.{host / 256 % 256}.{host % 256}"

/-- The first host after the gateway that is not used; `none` is the exhausted
subnet. -/
def allocateIp (subnet : Subnet) (usedIps : List String) : Option String :=
  ((subnet.hosts.drop 1).map hostText).find? (· ∉ usedIps)

/-- The reserved addresses: every `vpn_ip`, live and tombstoned alike. -/
def reservedIps (db : Db) : List String :=
  (db.devices.filterMap (·.vpnIp)).filter (· ≠ "")

def allocateDeviceIp (cfg : Config) (db : Db) : Option String :=
  allocateIp cfg.vpnSubnet (reservedIps db)

theorem allocateDeviceIp_free {cfg : Config} {db : Db} {ip : String}
    (h : allocateDeviceIp cfg db = some ip) (hne : ip ≠ "") :
    ∀ d ∈ db.devices, d.vpnIp ≠ some ip := by
  intro d hd hip
  have hfree : ip ∉ reservedIps db := by
    have := List.find?_some h
    simpa using this
  apply hfree
  unfold reservedIps
  rw [List.mem_filter, List.mem_filterMap]
  exact ⟨⟨d, hd, hip⟩, by simpa using hne⟩

/-- Hand a device's address back to the pool, if it is tombstoned and every
peer of it is confirmed `deleted`. Returns whether it did. -/
def releaseDeviceIp (db : Db) (device : Device) (at_ : Time) : Bool × Db :=
  if device.deletedAt.isNone || !truthy device.vpnIp then (false, db)
  else
    let statuses := (db.peers.filter (·.deviceId = device.id)).map (·.status)
    if statuses.any (· ≠ .deleted) then (false, db)
    else (true, db.saveDevice { device with
      releasedVpnIp := device.vpnIp, ipReleasedAt := some at_, vpnIp := none })

/-- Release the addresses of the named devices that are safe to release. -/
def releaseDeviceIps (db : Db) (deviceIds : List DeviceId) (at_ : Time) : Db :=
  (db.devices.filter (·.id ∈ deviceIds)).foldl
    (fun db device => (releaseDeviceIp db device at_).2) db

/-! ## The device budget -/

def resolveEffectiveDeviceLimit (localDeviceLimit : Nat) (importedHwidDeviceLimit : Option Int)
    (isRemnawaveManaged : Bool) : Option Nat :=
  if isRemnawaveManaged then
    let imported := importedHwidDeviceLimit.getD 0
    if imported > 0 then some imported.toNat else none
  else if localDeviceLimit > 0 then some localDeviceLimit else none

def effectiveDeviceLimit (db : Db) (userId : UserId) : Option Nat :=
  (db.user? userId).bind fun user =>
    let profile := db.profileOf? userId
    resolveEffectiveDeviceLimit user.deviceLimit (profile.bind (·.hwidDeviceLimit)) profile.isSome

def countLiveDevices (db : Db) (userId : UserId) : Nat :=
  (db.devices.filter fun d => d.userId = userId && d.deletedAt.isNone).length

/-! ## Peers of a device -/

/-- The row `create_pending_peer` inserts. -/
def pendingPeer (cfg : Config) (db : Db) (nodeId : NodeId) (device : Device) : Peer where
  id := db.nextId
  nodeId := nodeId
  userId := device.userId
  deviceId := device.id
  status := .pending
  pskKey := some (cfg.generatePsk db.nextId)

/-- Create the pending peer of `device` on `nodeId`; `false` if it does not
apply. -/
def createPendingPeer (cfg : Config) (db : Db) (nodeId : NodeId) (device : Device) : Bool × Db :=
  if device.deletedAt.isSome then (false, db)
  else if db.peers.any fun p => p.nodeId = nodeId ∧ p.deviceId = device.id then (false, db)
  else if !truthy device.publicKey || !truthy device.vpnIp then (false, db)
  else match db.insertPeer (pendingPeer cfg db nodeId device) with
    | none => (false, db)
    | some db' => (true, db')

/-- `create_pending_peers_for_device`, over the node ids it was given. -/
def createPendingPeersOn (cfg : Config) (device : Device) : List NodeId → Db → List NodeId × Db
  | [], db => ([], db)
  | nodeId :: rest, db =>
      let (created, db) := createPendingPeer cfg db nodeId device
      let (ids, db) := createPendingPeersOn cfg device rest db
      (if created then nodeId :: ids else ids, db)

def createPendingPeersForDevice (cfg : Config) (db : Db) (device : Device) : List NodeId × Db :=
  createPendingPeersOn cfg device (db.nodes.map (·.id)) db

/-- The devices `create_pending_peers_for_node` selects: `_live_device_filters`
joined with the owner. -/
def liveDeviceFilters (db : Db) (device : Device) : Bool :=
  device.deletedAt.isNone && device.publicKey.isSome && device.vpnIp.isSome &&
    (db.user? device.userId).any (!·.isBlocked)

/-- The loop of `create_pending_peers_for_node` over the selected devices. -/
def createPendingPeersOf (cfg : Config) (nodeId : NodeId) : List Device → Db → Db
  | [], db => db
  | device :: rest, db =>
      createPendingPeersOf cfg nodeId rest (createPendingPeer cfg db nodeId device).2

def createPendingPeersForNode (cfg : Config) (db : Db) (node : Node) : Db :=
  createPendingPeersOf cfg node.id (db.devices.filter (liveDeviceFilters db)) db

/-- The live devices of an account, ordered by creation and id. -/
def listLiveDevices (db : Db) (userId : UserId) : List Device :=
  (db.devices.filter fun d => d.userId = userId && d.deletedAt.isNone).insertionSort
    fun d e => d.createdAt < e.createdAt ∨ d.createdAt = e.createdAt ∧ d.id ≤ e.id

/-- The loop of `restore_missing_peers_for_user`. -/
def restoreMissingPeersOf (cfg : Config) : List Device → Db → List NodeId × Db
  | [], db => ([], db)
  | device :: rest, db =>
      let (created, db) := createPendingPeersForDevice cfg db device
      let (ids, db) := restoreMissingPeersOf cfg rest db
      (created ++ ids, db)

/-- Give an account's live devices the pending peers they miss. -/
def restoreMissingPeersForUser (cfg : Config) (db : Db) (userId : UserId) : List NodeId × Db :=
  restoreMissingPeersOf cfg (listLiveDevices db userId) db

/-- The subset of `deviceIds` whose device is tombstoned. -/
def tombstonedDeviceIds (db : Db) (deviceIds : List DeviceId) : List DeviceId :=
  (db.devices.filter fun d => d.id ∈ deviceIds && d.deletedAt.isSome).map (·.id)

/-! ## Creation and deletion -/

/-- What `create_device` may raise. -/
inductive DeviceError
  | ownerNotFound
  | accountInactive (status : AccountStatus)
  | limitExceeded (limit current : Nat)
  | ipPoolExhausted
  | ipAllocation (attempts : Nat)
  | integrity
  deriving DecidableEq, Repr

def maxIpAllocationAttempts : Nat := 5

/-- The bounded retry of `_insert_device_with_unique_ip`: an address conflict
costs an attempt, any other conflict is raised. -/
def insertDeviceWithUniqueIp (cfg : Config) (db : Db) (userId : UserId) (name : String)
    (keypair : String × String) (now : Time) : Nat → Except DeviceError (Device × Db)
  | 0 => .error (.ipAllocation maxIpAllocationAttempts)
  | attempts + 1 =>
      match allocateDeviceIp cfg db with
      | none => .error .ipPoolExhausted
      | some vpnIp =>
          let device : Device := {
            id := db.nextId, userId, name, publicKey := some keypair.2,
            privateKey := some keypair.1, vpnIp := some vpnIp, createdAt := now }
          match db.insertDevice device with
          | .ok db => .ok (device, db)
          | .error .vpnIp => insertDeviceWithUniqueIp cfg db userId name keypair now attempts
          | .error _ => .error .integrity

/-- `assert_device_capacity`. -/
def assertDeviceCapacity (db : Db) (userId : UserId) : Except DeviceError Unit :=
  match effectiveDeviceLimit db userId with
  | none => .ok ()
  | some limit =>
      let current := countLiveDevices db userId
      if current ≥ limit then .error (.limitExceeded limit current) else .ok ()

/-- `require_active_owner`. -/
def requireActiveOwner (db : Db) (userId : UserId) (now : Time) : Except DeviceError Unit :=
  match db.user? userId with
  | none => .error .ownerNotFound
  | some user =>
      let status := freshAccountStatus db user now
      if status.code ≠ .active then .error (.accountInactive status) else .ok ()

def createDevice (cfg : Config) (db : Db) (userId : UserId) (name : String) (now : Time) :
    Except DeviceError (Device × List NodeId × Db) := do
  requireActiveOwner db userId now
  assertDeviceCapacity db userId
  let (device, db) ← insertDeviceWithUniqueIp cfg db userId name (cfg.generateKeypair db.nextId)
    now maxIpAllocationAttempts
  let (nodeIds, db) := createPendingPeersForDevice cfg db device
  return (device, nodeIds, db)

/-- The status a device deletion gives a peer. -/
def deletedDevicePeer (deviceId : DeviceId) (peer : Peer) : Peer :=
  if peer.deviceId = deviceId ∧ peer.status.live then { peer with status := .pendingDelete }
  else peer

/-- Tombstone a device and mark its peers for removal. -/
def deleteDevice (db : Db) (deviceId : DeviceId) (at_ : Time) : List NodeId × Db :=
  match db.device? deviceId with
  | none => ([], db)
  | some device =>
      let device := { device with deletedAt := device.deletedAt.or (some at_) }
      let affected :=
        (db.peers.filter fun p => p.deviceId = deviceId ∧ p.status.live).map (·.nodeId)
      let db := (db.saveDevice device).mapPeers (deletedDevicePeer deviceId)
      (affected, (releaseDeviceIp db device at_).2)

/-! ## Availability -/

/-- The truth value of an interface column. -/
def InterfaceValue.truthy : InterfaceValue → Bool
  | .int value => value ≠ 0
  | .text value => value ≠ ""

def nodeMetadataCached (node : Node) : Bool :=
  (node.interface .publicKey).any (·.truthy) && (node.interface .endpoint).any (·.truthy)

def deviceCredentialsReady (device : Device) : Bool :=
  truthy device.privateKey && truthy device.publicKey && truthy device.vpnIp

/-- Whether the device's config can be served from the node. -/
def peerAvailable (node : Node) (device : Device) (peer : Option Peer) : Bool :=
  device.deletedAt.isNone && peer.any (·.status = .active) && nodeMetadataCached node &&
    deviceCredentialsReady device

end VpnPanel.Backend
