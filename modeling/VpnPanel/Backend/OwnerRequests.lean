import VpnPanel.Lib.TSys
import VpnPanel.Backend.Requests

/-!
# Device requests under the owner row lock

Device creations, device deletions and limit updates as concurrent
transactions, any number at a time and statement by statement. A statement sees
the committed rows and its own transaction's; a commit publishes the rows, any
other end leaves none. The owner row is the only lock that decides here: whoever
holds a device row or a peer row of an owner holds the owner row too.
-/

namespace VpnPanel.Backend

open VpnPanel.Lib

/-! ## Transactions -/

inductive OwnerRequest
  | createDevice (userId : UserId) (name : String)
  | deleteDevice (userId : UserId) (deviceId : DeviceId)
  | updateDeviceLimit (userId : UserId) (deviceLimit : Nat)
  deriving DecidableEq, Repr

/-- Where `create_device` stands, with the owner row locked. -/
inductive Creation
  | requireActive
  | readLimit
  | countDevices (limit : Nat)
  /-- A round of `_insert_device_with_unique_ip`, with the attempts left. -/
  | allocate (keypair : String × String) (attempts : Nat)
  | insert (keypair : String × String) (attempts : Nat) (vpnIp : String)
  /-- The device is in its savepoint; `create_pending_peers_for_device` follows. -/
  | listNodes (device : Device)
  | pendingPeers (device : Device) (peers : List Peer) (created todo : List NodeId)
  deriving DecidableEq, Repr

/-- The next statement of a transaction. -/
inductive Stage
  | guard (request : OwnerRequest)
  | lockToCreate (userId : UserId) (name : String)
  | lockToDelete (loaded : Device)
  | lockToLimit (userId : UserId) (deviceLimit : Nat)
  | creating (userId : UserId) (name : String) (at_ : Creation)
  | lockDevice (loaded : Device)
  | tombstone (loaded : Device)
  | limiting (userId : UserId) (deviceLimit : Nat)
  deriving DecidableEq, Repr

namespace Stage

/-- The owner row the transaction holds. -/
def owner? : Stage → Option UserId
  | creating userId _ _ | limiting userId _ => some userId
  | lockDevice loaded | tombstone loaded => some loaded.userId
  | _ => none

/-- The device row inserted and not committed. -/
def devices : Stage → List Device
  | creating _ _ (.listNodes device) | creating _ _ (.pendingPeers device _ _ _) => [device]
  | _ => []

/-- The peer rows inserted and not committed. -/
def peers : Stage → List Peer
  | creating _ _ (.pendingPeers _ peers _ _) => peers
  | _ => []

/-- The rows a statement of the transaction sees; `draw` is the id it draws. -/
def view (stage : Stage) (db : Db) (draw : Nat) : Db :=
  { db with
    devices := db.devices ++ stage.devices
    peers := db.peers ++ stage.peers
    nextId := draw }

end Stage

structure OwnerTx where
  id : Nat
  stage : Stage
  deriving DecidableEq, Repr

inductive Ending
  | created (device : Device)
  | deleted (deviceId : DeviceId)
  | limited (userId : UserId)
  | refused (error : HttpError)
  /-- The connection was lost, or the process died. -/
  | aborted
  deriving DecidableEq, Repr

def Ending.committed : Ending → Bool
  | .created _ | .deleted _ | .limited _ => true
  | _ => false

/-- The committed rows, the transactions under way and those that ended. -/
structure OwnerRows where
  db : Db
  operations : List Command
  txs : List OwnerTx := []
  ended : List (Nat × Ending) := []

/-! ## Statements -/

inductive Progress
  | goes (stage : Stage)
  | refuses (error : HttpError)
  | commits (db : Db) (operations : List Command) (ending : Ending)

/-- What the routes check before they ask for the lock. -/
def guardRequest (db : Db) (now : Time) : OwnerRequest → Progress
  | .createDevice userId name =>
      match db.user? userId with
      | none => .refuses pageNotFound
      | some user =>
          match guardActiveAccount db user now with
          | .error e => .refuses e
          | .ok _ => .goes (.lockToCreate user.id name)
  | .deleteDevice userId deviceId =>
      match db.user? userId, db.device? deviceId with
      | some user, some device =>
          if device.userId ≠ user.id then .refuses pageNotFound else .goes (.lockToDelete device)
      | _, _ => .refuses pageNotFound
  | .updateDeviceLimit userId deviceLimit => .goes (.lockToLimit userId deviceLimit)

/-- The statements of `create_device` behind the lock, and the commit of
`pub_add_device`. `db` is the view of the transaction. -/
def createStep (cfg : Config) (committed db : Db) (userId : UserId) (name : String) (now : Time) :
    Creation → Progress
  | .requireActive =>
      match requireActiveOwner db userId now with
      | .error e => .refuses (e.http cfg)
      | .ok _ => .goes (.creating userId name .readLimit)
  | .readLimit =>
      match effectiveDeviceLimit db userId with
      | none => .goes (.creating userId name
          (.allocate (cfg.generateKeypair db.nextId) maxIpAllocationAttempts))
      | some limit => .goes (.creating userId name (.countDevices limit))
  | .countDevices limit =>
      let current := countLiveDevices db userId
      if current ≥ limit then .refuses ((DeviceError.limitExceeded limit current).http cfg)
      else .goes (.creating userId name
        (.allocate (cfg.generateKeypair db.nextId) maxIpAllocationAttempts))
  | .allocate _ 0 => .refuses ((DeviceError.ipAllocation maxIpAllocationAttempts).http cfg)
  | .allocate keypair (attempts + 1) =>
      match allocateDeviceIp cfg db with
      | none => .refuses (DeviceError.ipPoolExhausted.http cfg)
      | some vpnIp => .goes (.creating userId name (.insert keypair attempts vpnIp))
  | .insert keypair attempts vpnIp =>
      let device : Device := {
        id := db.nextId, userId, name, publicKey := some keypair.2,
        privateKey := some keypair.1, vpnIp := some vpnIp, createdAt := now }
      match db.insertDevice device with
      | .ok _ => .goes (.creating userId name (.listNodes device))
      | .error .vpnIp => .goes (.creating userId name (.allocate keypair attempts))
      | .error _ => .refuses (DeviceError.integrity.http cfg)
  | .listNodes device =>
      .goes (.creating userId name (.pendingPeers device [] [] (db.nodes.map (·.id))))
  | .pendingPeers device peers created (nodeId :: todo) =>
      if (createPendingPeer cfg db nodeId device).1 then
        .goes (.creating userId name (.pendingPeers device
          (peers ++ [pendingPeer cfg db nodeId device]) (created ++ [nodeId]) todo))
      else .goes (.creating userId name (.pendingPeers device peers created todo))
  | .pendingPeers device peers created [] =>
      .commits
        { committed with
          devices := committed.devices ++ [device], peers := committed.peers ++ peers }
        (enqueueSyncNodes created) (.created device)

/-- The columns `delete_device` and `release_device_ip` write. The session
loaded the device before it had the lock, and the locked row does not refresh
that copy, so the copy decides. -/
def tombstoneLoaded (db : Db) (loaded : Device) (now : Time) : List NodeId × Db :=
  let ofDevice := db.peers.filter (·.deviceId = loaded.id)
  let released := truthy loaded.vpnIp &&
    (ofDevice.map (deletedDevicePeer loaded.id)).all (·.status = .deleted)
  let write := fun device : Device =>
    { device with
      deletedAt := if loaded.deletedAt.isNone then some now else device.deletedAt
      releasedVpnIp := if released then loaded.vpnIp else device.releasedVpnIp
      ipReleasedAt := if released then some now else device.ipReleasedAt
      vpnIp := if released then none else device.vpnIp }
  ((ofDevice.filter (·.status.live)).map (·.nodeId),
    { db with
      devices := db.devices.map fun device => if device.id = loaded.id then write device else device
      peers := db.peers.map (deletedDevicePeer loaded.id) })

/-- The statement of a stage, for a transaction that need not wait. -/
def Stage.step (cfg : Config) (committed : Db) (now : Time) (draw : Nat) (stage : Stage) :
    Progress :=
  match stage with
  | guard request => guardRequest committed now request
  | lockToCreate userId name =>
      if (committed.user? userId).isNone then .refuses (DeviceError.ownerNotFound.http cfg)
      else .goes (.creating userId name .requireActive)
  | lockToDelete loaded => .goes (.lockDevice loaded)
  | lockToLimit userId deviceLimit =>
      match localUser committed userId with
      | .error e => .refuses e
      | .ok _ => .goes (.limiting userId deviceLimit)
  | creating userId name at_ =>
      createStep cfg committed (stage.view committed draw) userId name now at_
  | lockDevice loaded =>
      if (committed.device? loaded.id).isNone then .commits committed [] (.deleted loaded.id)
      else .goes (.tombstone loaded)
  | tombstone loaded =>
      let result := tombstoneLoaded committed loaded now
      .commits result.2 (enqueueSyncNodes result.1) (.deleted loaded.id)
  | limiting userId deviceLimit =>
      .commits
        { committed with
          users := committed.users.map fun user =>
            if user.id = userId then { user with deviceLimit } else user }
        [] (.limited userId)

/-! ## Waiting -/

/-- The owner row a statement locks. -/
def Stage.wants? : Stage → Option UserId
  | lockToCreate userId _ | lockToLimit userId _ => some userId
  | lockToDelete loaded => some loaded.userId
  | _ => none

namespace OwnerRows

def tx? (s : OwnerRows) (id : Nat) : Option OwnerTx := Rows.get? OwnerTx.id s.txs id

def others (s : OwnerRows) (id : Nat) : List OwnerTx := s.txs.filter (·.id ≠ id)

/-- The statement waits: another transaction holds the owner row, or has
inserted a device of this address or key and not committed it. -/
def waits (s : OwnerRows) (tx : OwnerTx) : Bool :=
  (s.others tx.id).any fun other =>
    (tx.stage.wants?.isSome && other.stage.owner? = tx.stage.wants?) ||
      match tx.stage with
      | .creating _ _ (.insert keypair _ vpnIp) => other.stage.devices.any fun device =>
          device.vpnIp = some vpnIp || device.publicKey = some keypair.2
      | _ => false

/-- No row has the id yet. -/
def fresh (s : OwnerRows) (draw : Nat) : Bool :=
  (s.db.devices ++ s.txs.flatMap (·.stage.devices)).all (·.id ≠ draw) &&
    (s.db.peers ++ s.txs.flatMap (·.stage.peers)).all (·.id ≠ draw)

/-- The transaction ends. -/
def finish (s : OwnerRows) (id : Nat) (ending : Ending) : OwnerRows :=
  { s with txs := s.others id, ended := (id, ending) :: s.ended }

def progress (s : OwnerRows) (tx : OwnerTx) : Progress → OwnerRows
  | .goes stage => { s with txs := Rows.save OwnerTx.id { tx with stage } s.txs }
  | .refuses error => s.finish tx.id (.refused error)
  | .commits db operations ending =>
      { s.finish tx.id ending with db, operations := s.operations ++ operations }

end OwnerRows

/-! ## The system -/

/-- What the limits and their counts depend on. -/
def Db.budget (db : Db) :
    List (UserId × Nat) × List (UserId × Option Int) × List (DeviceId × UserId × Option Time) :=
  (db.users.map fun user => (user.id, user.deviceLimit),
    db.profiles.map fun row => (row.userId, row.hwidDeviceLimit),
    db.devices.map fun device => (device.id, device.userId, device.deletedAt))

inductive OwnerEvent
  | begin (id : Nat) (request : OwnerRequest)
  | next (id : Nat) (now : Time) (draw : Nat)
  | abort (id : Nat)
  /-- A commit of any transaction that writes no limit and no device budget: a
  block, an import's status, a node result. -/
  | other (db : Db) (operations : List Command)

/-- The transaction of an event. -/
def OwnerEvent.tx? : OwnerEvent → Option Nat
  | begin id _ | next id _ _ | abort id => some id
  | other _ _ => none

namespace OwnerRows

def act (cfg : Config) (s : OwnerRows) : OwnerEvent → Option OwnerRows
  | .begin id request =>
      if (s.tx? id).isSome || s.ended.any (·.1 = id) then none
      else some { s with txs := s.txs ++ [{ id, stage := .guard request }] }
  | .next id now draw => (s.tx? id).bind fun tx =>
      if s.waits tx || !s.fresh draw then none
      else some (s.progress tx (tx.stage.step cfg s.db now draw))
  | .abort id => (s.tx? id).map fun _ => s.finish id .aborted
  | .other db operations =>
      if db.budget = s.db.budget then
        some { s with db, operations := s.operations ++ operations }
      else none

end OwnerRows

/-- Device requests over given committed rows. -/
def ownerRequests (cfg : Config) (db : Db) (operations : List Command) :
    TSys OwnerRows OwnerEvent where
  init := { db, operations }
  step := OwnerRows.act cfg

end VpnPanel.Backend
