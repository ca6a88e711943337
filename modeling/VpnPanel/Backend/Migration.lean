import VpnPanel.Lib.Columns
import VpnPanel.Backend.Schema

/-!
# Migration 0019: device ownership

`migrations/versions/0019_device_ownership.py` over the tables it reads and
writes. `users` and `peers` are rows in the order the database returns them; the
columns that no statement of the migration names are `rest`. A database refuses
a statement that breaks a constraint, and the migration runs in one transaction,
so a failure leaves the tables as they were.
-/

namespace VpnPanel.Backend.Migration

open VpnPanel.Lib

variable {ρ σ : Type}

/-! ## Tables -/

/-- `users` at 0018. -/
structure LegacyUser (ρ : Type) where
  id : String
  createdAt : Time
  publicKey : Option String
  privateKey : Option String
  vpnIp : Option String
  rest : ρ
  deriving DecidableEq, Repr

/-- `peers` at 0018. -/
structure LegacyPeer (σ : Type) where
  id : String
  nodeId : String
  userId : String
  pskKey : Option String
  rest : σ
  deriving DecidableEq, Repr

/-- The tables at 0018. -/
structure Legacy (ρ σ : Type) where
  users : List (LegacyUser ρ)
  peers : List (LegacyPeer σ)
  deriving DecidableEq, Repr

structure User (ρ : Type) extends LegacyUser ρ where
  deviceLimit : Int := 0
  deriving DecidableEq, Repr

structure Peer (σ : Type) extends LegacyPeer σ where
  deviceId : Option String := none
  deriving DecidableEq, Repr

structure Device where
  id : String
  userId : String
  name : String
  publicKey : Option String
  privateKey : Option String
  vpnIp : Option String
  isLegacyDefault : Bool
  deletedAt : Option Time
  createdAt : Time
  deriving DecidableEq, Repr

/-- The tables at 0019. -/
structure Owned (ρ σ : Type) where
  users : List (User ρ)
  peers : List (Peer σ)
  devices : List Device := []
  deriving DecidableEq, Repr

/-- What stops a migration: a refusal of its own, or an error of the database. -/
inductive Failure
  | sharedKeys (keys : Nat) (key : String) (owners : Nat)
  | sharedAddresses (addresses : Nat) (ip : String) (owners : Nat)
  | orphanedPeers (peers : Nat)
  | tombstonedDevices (devices : Nat)
  | nonLegacyDevices (devices peers : Nat)
  | integrity (name : String)
  | cardinality
  deriving DecidableEq, Repr

/-- Raised by the migration itself, with a message that says what to resolve. -/
def Failure.refused : Failure → Bool
  | .integrity _ => false
  | .cardinality => false
  | _ => true

/-! ## Upgrade -/

def DEFAULT_DEVICE_NAME : String := "Default"

def refuseUnmappableLegacyData (db : Legacy ρ σ) : Except Failure Unit :=
  match Columns.shared (·.publicKey) db.users with
  | (key, owners) :: more => .error (.sharedKeys (more.length + 1) key owners)
  | [] =>
      match Columns.shared (·.vpnIp) db.users with
      | (ip, owners) :: more => .error (.sharedAddresses (more.length + 1) ip owners)
      | [] =>
          let orphaned := db.peers.filter fun p => !db.users.any (·.id = p.userId)
          if orphaned.length ≠ 0 then .error (.orphanedPeers orphaned.length) else .ok ()

/-- `INSERT INTO devices`. The pair of `uq_devices_id_user_id` is unique where
the primary key is. -/
def insertDevice (device : Device) (db : Owned ρ σ) : Except Failure (Owned ρ σ) :=
  if db.devices.any (·.id = device.id) then .error (.integrity "devices_pkey")
  else if db.devices.any fun d => d.publicKey ≠ none ∧ d.publicKey = device.publicKey then
    .error (.integrity "uq_devices_public_key")
  else if db.devices.any fun d => d.vpnIp ≠ none ∧ d.vpnIp = device.vpnIp then
    .error (.integrity "uq_devices_vpn_ip")
  else if !db.users.any (·.id = device.userId) then
    .error (.integrity "devices_user_id_fkey")
  else .ok { db with devices := db.devices ++ [device] }

/-- `UPDATE peers SET device_id = :device_id WHERE user_id = :user_id`. -/
def setDevice (deviceId userId : String) (peers : List (Peer σ)) : List (Peer σ) :=
  peers.map fun p => if p.userId = userId then { p with deviceId := some deviceId } else p

/-- The device that takes over a user's credentials. -/
def defaultDevice (id : String) (u : User ρ) : Device where
  id
  userId := u.id
  name := DEFAULT_DEVICE_NAME
  publicKey := u.publicKey
  privateKey := u.privateKey
  vpnIp := u.vpnIp
  isLegacyDefault := true
  deletedAt := none
  createdAt := u.createdAt

/-- The loop over the users that were selected; `uuid4 n` is the id drawn for
the `n`-th. -/
def backfillDefaultDevices (uuid4 : Nat → String) :
    Nat → List (User ρ) → Owned ρ σ → Except Failure (Owned ρ σ)
  | _, [], db => .ok db
  | n, u :: users, db =>
      (insertDevice (defaultDevice (uuid4 n) u) db).bind fun db =>
        backfillDefaultDevices uuid4 (n + 1) users
          { db with peers := setDevice (uuid4 n) u.id db.peers }

/-- The batch that makes `device_id` part of the ownership of a peer. -/
def ownPeers (db : Owned ρ σ) : Except Failure (Owned ρ σ) :=
  if db.peers.any (·.deviceId = none) then .error (.integrity "peers.device_id")
  else if ¬(db.peers.map fun p => (p.nodeId, p.deviceId)).Nodup then
    .error (.integrity "uq_peers_node_device")
  else if !db.peers.all fun p =>
      db.devices.any fun d => p.deviceId = some d.id ∧ p.userId = d.userId then
    .error (.integrity "fk_peers_device_owner")
  else .ok db

/-- `create_table('devices')` and the two columns that are added. -/
def addColumns (db : Legacy ρ σ) : Owned ρ σ where
  users := db.users.map fun u => { u with }
  peers := db.peers.map fun p => { p with }

def upgrade (uuid4 : Nat → String) (legacy : Legacy ρ σ) : Except Failure (Owned ρ σ) :=
  (refuseUnmappableLegacyData legacy).bind fun _ =>
    let db := addColumns legacy
    (backfillDefaultDevices uuid4 0 db.users db).bind ownPeers

/-! ## Downgrade -/

def refuseLossyDowngrade (db : Owned ρ σ) : Except Failure Unit :=
  let tombstoned := db.devices.filter fun d => d.deletedAt ≠ none
  if tombstoned.length ≠ 0 then .error (.tombstonedDevices tombstoned.length)
  else
    let devices := db.devices.filter fun d => !d.isLegacyDefault
    let peers := db.peers.flatMap fun p =>
      db.devices.filter fun d => some d.id = p.deviceId ∧ !d.isLegacyDefault
    if devices.length ≠ 0 ∨ peers.length ≠ 0 then
      .error (.nonLegacyDevices devices.length peers.length)
    else .ok ()

/-- The row of the `UPDATE users`; a subquery that returns two rows is an error. -/
def restoreUser (devices : List Device) (u : User ρ) : Except Failure (User ρ) :=
  match devices.filter fun d => d.userId = u.id ∧ d.isLegacyDefault ∧ d.deletedAt = none with
  | [] => .ok u
  | [d] => .ok { u with
      publicKey := d.publicKey.or u.publicKey
      privateKey := d.privateKey.or u.privateKey
      vpnIp := d.vpnIp.or u.vpnIp }
  | _ => .error .cardinality

def restoreUsers (devices : List Device) : List (User ρ) → Except Failure (List (User ρ))
  | [] => .ok []
  | u :: users =>
      (restoreUser devices u).bind fun u => (restoreUsers devices users).map (u :: ·)

def restoreLegacyUserCredentials (db : Owned ρ σ) : Except Failure (Owned ρ σ) :=
  (restoreUsers db.devices db.users).map fun users => { db with users }

/-- The batch that takes `device_id` away again, and the drops. -/
def dropOwnership (db : Owned ρ σ) : Except Failure (Legacy ρ σ) :=
  if ¬(db.peers.map fun p => (p.nodeId, p.userId)).Nodup then
    .error (.integrity "uq_peers_node_user")
  else .ok ⟨db.users.map User.toLegacyUser, db.peers.map Peer.toLegacyPeer⟩

def downgrade (db : Owned ρ σ) : Except Failure (Legacy ρ σ) :=
  (refuseLossyDowngrade db).bind fun _ =>
    (restoreLegacyUserCredentials db).bind dropOwnership

/-! ## The constraints of both schemas -/

/-- What 0018 enforces of these tables; a peer's user may be missing. -/
structure Legacy.Valid (db : Legacy ρ σ) : Prop where
  users : Rows.Distinct (·.id) db.users
  peers : Rows.Distinct (·.id) db.peers
  nodeUser : Rows.Distinct (fun p => (p.nodeId, p.userId)) db.peers

/-- What 0019 enforces of these tables. -/
structure Owned.Valid (db : Owned ρ σ) : Prop where
  users : Rows.Distinct (·.id) db.users
  peers : Rows.Distinct (·.id) db.peers
  devices : Rows.Distinct (·.id) db.devices
  devicesIdUserId : Rows.Distinct (fun d => (d.id, d.userId)) db.devices
  devicesPublicKey : Columns.Unique Device.publicKey db.devices
  devicesVpnIp : Columns.Unique Device.vpnIp db.devices
  devicesUserId : ∀ d ∈ db.devices, ∃ u ∈ db.users, u.id = d.userId
  peersDeviceId : ∀ p ∈ db.peers, p.deviceId ≠ none
  peersNodeDevice : Rows.Distinct (fun p => (p.nodeId, p.deviceId)) db.peers
  peersDeviceOwner : ∀ p ∈ db.peers, ∃ d ∈ db.devices,
    p.deviceId = some d.id ∧ p.userId = d.userId

end VpnPanel.Backend.Migration
