import Mathlib.Logic.Relation
import VpnPanel.Backend.NodeResults

/-!
# Requests as guarded writes

Every request is a sequence of elementary writes, each with the guard under
which the code makes it. The routes are proved to be such sequences once, and
what holds over whole runs (the keys and references of the tables, tombstones
that stay, the history of an address) is then one case for each write.

`Writes P` are the sequences whose every write meets `P`; the narrower `P` is,
the more is known to be untouched.
-/

namespace VpnPanel.Backend

open VpnPanel.Lib

/-! ## Elementary writes -/

inductive Write
  | user (row : User)
  | newUser (row : User)
  | profile (row : RemnawaveUser)
  | newImport (row : User) (imported : RemnawaveUser)
  | node (row : Node)
  | newNode (row : Node)
  | newDevice (row : Device)
  | tombstone (row : Device)
  | release (row : Device) (at_ : Time)
  | peers (f : Peer → Peer)
  | newPeer (row : Peer)
  | reading (row : Peer) (data : PeerSyncResult) (now : Time)
  | resetTraffic (row : User) (at_ : Time)
  | deleteUser (id : UserId)
  | deleteNode (id : NodeId)

/-- The row of a device that handed its address back. -/
def Device.released (device : Device) (at_ : Time) : Device :=
  { device with releasedVpnIp := device.vpnIp, ipReleasedAt := some at_, vpnIp := none }

def Write.apply (db : Db) : Write → Db
  | .user row => db.saveUser row
  | .newUser row => { db with users := db.users ++ [row], nextId := db.nextId + 1 }
  | .profile row => db.saveProfile row
  | .newImport row imported => { db with
      users := db.users ++ [row], profiles := db.profiles ++ [imported], nextId := db.nextId + 1 }
  | .node row => db.saveNode row
  | .newNode row => db.insertNode row
  | .newDevice row => { db with devices := db.devices ++ [row], nextId := db.nextId + 1 }
  | .tombstone row => (db.saveDevice row).mapPeers (deletedDevicePeer row.id)
  | .release row at_ => db.saveDevice (row.released at_)
  | .peers f => db.mapPeers f
  | .newPeer row => { db with peers := db.peers ++ [row], nextId := db.nextId + 1 }
  | .reading row data now => (applyPeerResult db row data now).2
  | .resetTraffic row at_ => (resetLocalTrafficUsage db row at_).2
  | .deleteUser id => db.deleteUser id
  | .deleteNode id => db.deleteNode id

/-! ## Guards -/

/-- The columns no request changes once a peer row exists. -/
structure Peer.Same (p q : Peer) : Prop where
  id : q.id = p.id
  nodeId : q.nodeId = p.nodeId
  userId : q.userId = p.userId
  deviceId : q.deviceId = p.deviceId
  pskKey : q.pskKey = p.pskKey

theorem Peer.Same.refl (p : Peer) : p.Same p := ⟨rfl, rfl, rfl, rfl, rfl⟩

theorem Peer.Same.trans {p q r : Peer} (h : p.Same q) (h' : q.Same r) : p.Same r :=
  ⟨h'.id.trans h.id, h'.nodeId.trans h.nodeId, h'.userId.trans h.userId,
    h'.deviceId.trans h.deviceId, h'.pskKey.trans h.pskKey⟩

theorem peerAfterResult_same (db : Db) (peer : Peer) (data : PeerSyncResult) :
    peer.Same (peerAfterResult db peer data) := by
  unfold peerAfterResult
  cases data.rxBytes with
  | none => exact ⟨rfl, rfl, rfl, rfl, rfl⟩
  | some rx => cases data.txBytes <;> exact ⟨rfl, rfl, rfl, rfl, rfl⟩

/-- A device row with this id is tombstoned. -/
def Db.Tombstoned (db : Db) (id : DeviceId) : Prop :=
  ∃ d ∈ db.devices, d.id = id ∧ d.deletedAt.isSome

/-- An in-place rewrite of peer rows: only the status moves, and never to a
live one under a tombstoned device. -/
structure PeersOk (db : Db) (f : Peer → Peer) : Prop where
  same : ∀ p ∈ db.peers, p.Same (f p)
  rx : ∀ p ∈ db.peers, (f p).rawRx = p.rawRx
  tx : ∀ p ∈ db.peers, (f p).rawTx = p.rawTx
  live : ∀ p ∈ db.peers, (f p).status.live → p.status.live ∨ ¬db.Tombstoned p.deviceId

/-- A fresh device row: new id, new address, new key, live. -/
structure NewDeviceOk (db : Db) (row : Device) : Prop where
  id : row.id = db.nextId
  owner : ∃ u ∈ db.users, u.id = row.userId
  ip : ∀ d ∈ db.devices, row.vpnIp.isSome → d.vpnIp ≠ row.vpnIp
  key : ∀ d ∈ db.devices, row.publicKey.isSome → d.publicKey ≠ row.publicKey
  live : row.deletedAt = none
  unreleased : row.releasedVpnIp = none

/-- A device row written back at its deletion. -/
structure TombstoneOk (db : Db) (row : Device) : Prop where
  intro ::
  exists_old : ∃ old ∈ db.devices, ∃ at_,
    row = { old with deletedAt := old.deletedAt.or (some at_) }

/-- The guard of a release. -/
structure ReleaseOk (db : Db) (row : Device) : Prop where
  mem : row ∈ db.devices
  tombstoned : row.deletedAt.isSome
  holds : row.vpnIp.isSome
  confirmed : ∀ p ∈ db.peers, p.deviceId = row.id → p.status = .deleted

/-- A fresh peer row: pending, for a live device, the only one of its pair. -/
structure NewPeerOk (db : Db) (row : Peer) : Prop where
  id : row.id = db.nextId
  node : ∃ n ∈ db.nodes, n.id = row.nodeId
  device : ∃ d ∈ db.devices, d.id = row.deviceId ∧ d.userId = row.userId ∧ d.deletedAt = none
  pair : ∀ p ∈ db.peers, p.nodeId = row.nodeId → p.deviceId ≠ row.deviceId
  pending : row.status = .pending
  rx : row.rawRx = none
  tx : row.rawTx = none

/-- A fresh account row, whose traffic was never reset. -/
structure NewUserOk (db : Db) (row : User) : Prop where
  id : row.id = db.nextId
  unreset : row.trafficResetAt = none

/-- The row writes a stored account back; its reset stamp stays. -/
structure Updates (db : Db) (row : User) : Prop where
  intro ::
  exists_old : ∃ old ∈ db.users, old.id = row.id ∧ old.trafficResetAt = row.trafficResetAt

def Write.Ok (db : Db) : Write → Prop
  | .user row => Updates db row
  | .newUser row => NewUserOk db row
  | .profile row => ∃ old ∈ db.profiles, old.userId = row.userId ∧
      old.remnawaveUuid = row.remnawaveUuid
  | .newImport row imported => NewUserOk db row ∧ imported.userId = row.id ∧
      ∀ r ∈ db.profiles, r.remnawaveUuid ≠ imported.remnawaveUuid
  | .node row => ∃ old ∈ db.nodes, old.id = row.id
  | .newNode row => row.id = db.nextId
  | .newDevice row => NewDeviceOk db row
  | .tombstone row => TombstoneOk db row
  | .release row _ => ReleaseOk db row
  | .peers f => PeersOk db f
  | .newPeer row => NewPeerOk db row
  | .reading row _ _ => row ∈ db.peers
  | .resetTraffic row _ => ∃ old ∈ db.users, old.id = row.id
  | .deleteUser _ => True
  | .deleteNode _ => True

/-! ## Sequences -/

/-- `db'` is reached from `db` by guarded writes that all meet `P`, a condition
on the tables before the write. -/
def Writes (P : Db → Write → Prop) : Db → Db → Prop :=
  Relation.ReflTransGen fun db db' => ∃ w : Write, P db w ∧ w.Ok db ∧ db' = w.apply db

namespace Writes

variable {P Q : Db → Write → Prop} {db db' db'' : Db}

theorem refl (db : Db) : Writes P db db := Relation.ReflTransGen.refl

theorem trans (h : Writes P db db') (h' : Writes P db' db'') : Writes P db db'' :=
  Relation.ReflTransGen.trans h h'

theorem single (w : Write) (hP : P db w) (hok : w.Ok db) : Writes P db (w.apply db) :=
  Relation.ReflTransGen.single ⟨w, hP, hok, rfl⟩

theorem mono (himp : ∀ db w, P db w → Q db w) (h : Writes P db db') : Writes Q db db' := by
  induction h with
  | refl => exact Writes.refl db
  | tail _ hw ih =>
      obtain ⟨w, hP, hok, rfl⟩ := hw
      exact ih.tail ⟨w, himp _ w hP, hok, rfl⟩

/-- **Write rule.** What every guarded write meeting `P` keeps, a sequence of
them keeps. -/
theorem keeps {I : Db → Prop} (hstep : ∀ db w, P db w → w.Ok db → I db → I (w.apply db))
    (h : Writes P db db') (hI : I db) : I db' := by
  induction h with
  | refl => exact hI
  | tail _ hw ih =>
      obtain ⟨w, hP, hok, rfl⟩ := hw
      exact hstep _ w hP hok ih

/-- A reflexive and transitive relation that holds across every write meeting
`P` holds across a sequence of them. -/
theorem relates {R : Db → Db → Prop} (hrefl : ∀ db, R db db)
    (htrans : ∀ a b c, R a b → R b c → R a c)
    (hstep : ∀ db w, P db w → w.Ok db → R db (w.apply db)) (h : Writes P db db') : R db db' := by
  induction h with
  | refl => exact hrefl db
  | tail _ hw ih =>
      obtain ⟨w, hP, hok, rfl⟩ := hw
      exact htrans _ _ _ ih (hstep _ w hP hok)

end Writes

/-! ## Scopes -/

/-- A lifecycle write of the account `u`: its row, the statuses of its peers
(never a confirmation) and new peers of it. -/
def OfOwner (u : UserId) (db : Db) : Write → Prop
  | .user row => row.id = u
  | .peers f => (∀ p ∈ db.peers, p.userId ≠ u → f p = p) ∧
      ∀ p ∈ db.peers, (f p).status = .deleted → p.status = .deleted
  | .newPeer row => row.userId = u
  | _ => False

/-- A write of the import routes: of an account with a profile, of a profile,
or a new imported account. -/
def Imports (db : Db) : Write → Prop
  | .profile _ => True
  | .newImport _ _ => True
  | w => ∃ r ∈ db.profiles, OfOwner r.userId db w

/-- A write of the entries of a node result read at `now`: one entry of
`results`, or the lifecycle of an account. -/
def OfEntries (results : List PeerSyncResult) (now : Time) (db : Db) : Write → Prop
  | .reading _ data at_ => data ∈ results ∧ at_ = now
  | w => ∃ u, OfOwner u db w

/-- A write of a device release. -/
def Releases (_ : Db) : Write → Prop
  | .release _ _ => True
  | _ => False

/-- The account deletions of a purge: every peer of the account is confirmed
`deleted`. -/
def Purges (db : Db) : Write → Prop
  | .deleteUser id => ∀ p ∈ db.peers, p.userId = id → p.status = .deleted
  | _ => False

end VpnPanel.Backend
