import VpnPanel.Backend.Writes

/-!
# Well-formed tables

The keys and references of the tables, as the schema declares them, and the
rule that a tombstoned device has no live peer. Every guarded write keeps
both, so every request does.
-/

namespace VpnPanel.Backend

open VpnPanel.Lib

structure Db.WF (db : Db) : Prop where
  userIds : Rows.Distinct User.id db.users
  userFresh : Rows.Below User.id db.users db.nextId
  nodeIds : Rows.Distinct Node.id db.nodes
  nodeFresh : Rows.Below Node.id db.nodes db.nextId
  profileUsers : Rows.Distinct RemnawaveUser.userId db.profiles
  profileUuids : Rows.Distinct RemnawaveUser.remnawaveUuid db.profiles
  profileOwner : ∀ r ∈ db.profiles, ∃ u ∈ db.users, u.id = r.userId
  deviceIds : Rows.Distinct Device.id db.devices
  deviceFresh : Rows.Below Device.id db.devices db.nextId
  deviceOwner : ∀ d ∈ db.devices, ∃ u ∈ db.users, u.id = d.userId
  deviceIp : ∀ d ∈ db.devices, ∀ e ∈ db.devices, d.vpnIp.isSome → d.vpnIp = e.vpnIp → d.id = e.id
  deviceKey : ∀ d ∈ db.devices, ∀ e ∈ db.devices,
    d.publicKey.isSome → d.publicKey = e.publicKey → d.id = e.id
  peerIds : Rows.Distinct Peer.id db.peers
  peerFresh : Rows.Below Peer.id db.peers db.nextId
  peerNode : ∀ p ∈ db.peers, ∃ n ∈ db.nodes, n.id = p.nodeId
  peerDevice : ∀ p ∈ db.peers, ∃ d ∈ db.devices, d.id = p.deviceId ∧ d.userId = p.userId
  peerPair : ∀ p ∈ db.peers, ∀ q ∈ db.peers,
    p.nodeId = q.nodeId → p.deviceId = q.deviceId → p.id = q.id
  tombstones : ∀ p ∈ db.peers, db.Tombstoned p.deviceId → p.status.live = false

theorem Db.WF.empty : Db.WF {} := by
  constructor <;> simp [Rows.Distinct, Rows.Below]

namespace Db.WF

variable {db : Db}

theorem device_eq (hwf : db.WF) {d e : Device} (hd : d ∈ db.devices) (he : e ∈ db.devices)
    (h : d.id = e.id) : d = e := hwf.deviceIds.eq_of_key hd he h

theorem peer_eq (hwf : db.WF) {p q : Peer} (hp : p ∈ db.peers) (hq : q ∈ db.peers)
    (h : p.id = q.id) : p = q := hwf.peerIds.eq_of_key hp hq h

theorem tombstoned_iff (hwf : db.WF) {d : Device} (hd : d ∈ db.devices) :
    db.Tombstoned d.id ↔ d.deletedAt.isSome := by
  constructor
  · rintro ⟨e, he, hid, hdel⟩
    rwa [hwf.device_eq he hd hid] at hdel
  · intro h
    exact ⟨d, hd, rfl, h⟩

/-! ## Rows written back -/

/-- A rewrite of device rows that keeps ids, owners and keys, frees addresses
at most and never revives a device keeps the tables well formed, provided no
newly tombstoned device has a live peer. -/
theorem map_devices (hwf : db.WF) {f : Device → Device}
    (hid : ∀ d ∈ db.devices, (f d).id = d.id)
    (huser : ∀ d ∈ db.devices, (f d).userId = d.userId)
    (hkey : ∀ d ∈ db.devices, (f d).publicKey = d.publicKey)
    (hip : ∀ d ∈ db.devices, (f d).vpnIp = d.vpnIp ∨ (f d).vpnIp = none)
    (htomb : ∀ d ∈ db.devices, (f d).deletedAt.isSome → ∀ p ∈ db.peers, p.deviceId = d.id →
      p.status.live = false) :
    Db.WF { db with devices := db.devices.map f } := by
  refine { hwf with
    deviceIds := hwf.deviceIds.map hid, deviceFresh := hwf.deviceFresh.map hid
    deviceOwner := ?_, deviceIp := ?_, deviceKey := ?_, peerDevice := ?_, tombstones := ?_ }
  · intro d' hd'
    obtain ⟨d, hd, rfl⟩ := List.mem_map.mp hd'
    rw [huser d hd]
    exact hwf.deviceOwner d hd
  · intro d' hd' e' he' hsome heq
    obtain ⟨d, hd, rfl⟩ := List.mem_map.mp hd'
    obtain ⟨e, he, rfl⟩ := List.mem_map.mp he'
    rcases hip d hd with h | h
    · rcases hip e he with h' | h'
      · rw [hid d hd, hid e he]
        rw [h] at hsome heq
        exact hwf.deviceIp d hd e he hsome (heq.trans h')
      · rw [heq, h'] at hsome
        cases hsome
    · rw [h] at hsome
      cases hsome
  · intro d' hd' e' he' hsome heq
    obtain ⟨d, hd, rfl⟩ := List.mem_map.mp hd'
    obtain ⟨e, he, rfl⟩ := List.mem_map.mp he'
    rw [hkey d hd] at hsome heq
    rw [hkey e he] at heq
    rw [hid d hd, hid e he]
    exact hwf.deviceKey d hd e he hsome heq
  · intro p hp
    obtain ⟨d, hd, hdid, hduser⟩ := hwf.peerDevice p hp
    exact ⟨f d, List.mem_map_of_mem hd, (hid d hd).trans hdid, (huser d hd).trans hduser⟩
  · rintro p hp ⟨d', hd', hdid, hdel⟩
    obtain ⟨d, hd, rfl⟩ := List.mem_map.mp hd'
    rw [hid d hd] at hdid
    exact htomb d hd hdel p hp hdid.symm

/-- An in-place rewrite of peers that keeps their identity. -/
theorem map_peers (hwf : db.WF) {f : Peer → Peer} (hsame : ∀ p ∈ db.peers, p.Same (f p))
    (hlive : ∀ p ∈ db.peers, (f p).status.live → p.status.live ∨ ¬db.Tombstoned p.deviceId) :
    (db.mapPeers f).WF := by
  refine { hwf with
    peerIds := hwf.peerIds.map fun p hp => (hsame p hp).id
    peerFresh := hwf.peerFresh.map fun p hp => (hsame p hp).id
    peerNode := ?_, peerDevice := ?_, peerPair := ?_, tombstones := ?_ }
  · intro p' hp'
    obtain ⟨p, hp, rfl⟩ := List.mem_map.mp hp'
    rw [(hsame p hp).nodeId]
    exact hwf.peerNode p hp
  · intro p' hp'
    obtain ⟨p, hp, rfl⟩ := List.mem_map.mp hp'
    rw [(hsame p hp).deviceId, (hsame p hp).userId]
    exact hwf.peerDevice p hp
  · intro p' hp' q' hq' hn hd
    obtain ⟨p, hp, rfl⟩ := List.mem_map.mp hp'
    obtain ⟨q, hq, rfl⟩ := List.mem_map.mp hq'
    rw [(hsame p hp).nodeId, (hsame q hq).nodeId] at hn
    rw [(hsame p hp).deviceId, (hsame q hq).deviceId] at hd
    rw [(hsame p hp).id, (hsame q hq).id]
    exact hwf.peerPair p hp q hq hn hd
  · intro p' hp' ht
    obtain ⟨p, hp, rfl⟩ := List.mem_map.mp hp'
    rw [(hsame p hp).deviceId] at ht
    by_contra hl
    rw [Bool.not_eq_false] at hl
    rcases hlive p hp hl with h | h
    · rw [hwf.tombstones p hp ht] at h
      cases h
    · exact h ht

theorem save_user (hwf : db.WF) (row : User) : (db.saveUser row).WF := by
  have hids : ∀ {i : UserId}, (∃ u ∈ db.users, u.id = i) →
      ∃ u ∈ Rows.save User.id row db.users, u.id = i := by
    rintro i ⟨u, hu, rfl⟩
    refine ⟨if u.id = row.id then row else u, List.mem_map_of_mem hu, Rows.key_saved u⟩
  exact { hwf with
    userIds := hwf.userIds.save, userFresh := hwf.userFresh.map fun u _ => Rows.key_saved u
    profileOwner := fun r hr => hids (hwf.profileOwner r hr)
    deviceOwner := fun d hd => hids (hwf.deviceOwner d hd) }

theorem save_profile (hwf : db.WF) {row : RemnawaveUser}
    (hold : ∃ old ∈ db.profiles, old.userId = row.userId ∧ old.remnawaveUuid = row.remnawaveUuid) :
    (db.saveProfile row).WF := by
  obtain ⟨old, hold, huser, huuid⟩ := hold
  -- only the saved row has this user id, so the uuid column is unchanged
  have hkept : ∀ r ∈ db.profiles, (if r.userId = row.userId then row else r).remnawaveUuid =
      r.remnawaveUuid := by
    intro r hr
    split
    · next h =>
        rw [hwf.profileUsers.eq_of_key hr hold (h.trans huser.symm)]
        exact huuid.symm
    · rfl
  refine { hwf with
    profileUsers := hwf.profileUsers.save, profileUuids := hwf.profileUuids.map hkept
    profileOwner := ?_ }
  intro r hr
  rcases Rows.mem_save.mp hr with ⟨rfl, _⟩ | ⟨hr, _⟩
  · rw [← huser]
    exact hwf.profileOwner old hold
  · exact hwf.profileOwner r hr

theorem save_node (hwf : db.WF) (row : Node) : (db.saveNode row).WF := by
  refine { hwf with
    nodeIds := hwf.nodeIds.save, nodeFresh := hwf.nodeFresh.map fun n _ => Rows.key_saved n
    peerNode := ?_ }
  intro p hp
  obtain ⟨n, hn, hid⟩ := hwf.peerNode p hp
  exact ⟨_, List.mem_map_of_mem hn, (Rows.key_saved n).trans hid⟩

/-! ## New rows -/

theorem new_user (hwf : db.WF) {row : User} (hid : row.id = db.nextId) :
    (Write.apply db (.newUser row)).WF := by
  have hmem : ∀ {i : UserId}, (∃ u ∈ db.users, u.id = i) → ∃ u ∈ db.users ++ [row], u.id = i := by
    rintro i ⟨u, hu, hi⟩
    exact ⟨u, List.mem_append_left _ hu, hi⟩
  exact { hwf with
    userIds := hwf.userIds.append (hwf.userFresh.ne hid)
    userFresh := hwf.userFresh.append hid
    nodeFresh := hwf.nodeFresh.succ
    profileOwner := fun r hr => hmem (hwf.profileOwner r hr)
    deviceFresh := hwf.deviceFresh.succ
    deviceOwner := fun d hd => hmem (hwf.deviceOwner d hd)
    peerFresh := hwf.peerFresh.succ }

theorem new_import (hwf : db.WF) {row : User} {profile : RemnawaveUser} (hid : row.id = db.nextId)
    (huser : profile.userId = row.id)
    (hfresh : ∀ r ∈ db.profiles, r.remnawaveUuid ≠ profile.remnawaveUuid) :
    (Write.apply db (.newImport row profile)).WF := by
  have hnew : ∀ r ∈ db.profiles, r.userId ≠ profile.userId := by
    intro r hr
    obtain ⟨u, hu, huid⟩ := hwf.profileOwner r hr
    rw [huser, ← huid]
    exact hwf.userFresh.ne hid u hu
  refine { hwf.new_user hid with
    profileUsers := hwf.profileUsers.append hnew
    profileUuids := hwf.profileUuids.append hfresh
    profileOwner := ?_ }
  intro r hr
  rcases List.mem_append.mp hr with hr | hr
  · obtain ⟨u, hu, huid⟩ := hwf.profileOwner r hr
    exact ⟨u, List.mem_append_left _ hu, huid⟩
  · rw [List.mem_singleton.mp hr]
    exact ⟨row, List.mem_append_right _ List.mem_cons_self, huser.symm⟩

theorem new_node (hwf : db.WF) {row : Node} (hid : row.id = db.nextId) :
    (db.insertNode row).WF := by
  refine { hwf with
    userFresh := hwf.userFresh.succ
    nodeIds := hwf.nodeIds.append (hwf.nodeFresh.ne hid)
    nodeFresh := hwf.nodeFresh.append hid
    deviceFresh := hwf.deviceFresh.succ
    peerFresh := hwf.peerFresh.succ
    peerNode := ?_ }
  intro p hp
  obtain ⟨n, hn, hnid⟩ := hwf.peerNode p hp
  exact ⟨n, List.mem_append_left _ hn, hnid⟩

theorem new_device (hwf : db.WF) {row : Device} (hok : NewDeviceOk db row) :
    (Write.apply db (.newDevice row)).WF := by
  refine { hwf with
    userFresh := hwf.userFresh.succ
    nodeFresh := hwf.nodeFresh.succ
    deviceIds := hwf.deviceIds.append (hwf.deviceFresh.ne hok.id)
    deviceFresh := hwf.deviceFresh.append hok.id
    deviceOwner := ?_, deviceIp := ?_, deviceKey := ?_
    peerFresh := hwf.peerFresh.succ
    peerDevice := ?_, tombstones := ?_ }
  · intro d hd
    rcases List.mem_append.mp hd with hd | hd
    · exact hwf.deviceOwner d hd
    · rw [List.mem_singleton.mp hd]
      exact hok.owner
  · intro d hd e he hsome heq
    rcases List.mem_append.mp hd with hd | hd <;> rcases List.mem_append.mp he with he | he
    · exact hwf.deviceIp d hd e he hsome heq
    · rw [List.mem_singleton.mp he] at heq
      exact absurd heq (hok.ip d hd (heq ▸ hsome))
    · rw [List.mem_singleton.mp hd] at hsome heq
      exact absurd heq.symm (hok.ip e he hsome)
    · rw [List.mem_singleton.mp hd, List.mem_singleton.mp he]
  · intro d hd e he hsome heq
    rcases List.mem_append.mp hd with hd | hd <;> rcases List.mem_append.mp he with he | he
    · exact hwf.deviceKey d hd e he hsome heq
    · rw [List.mem_singleton.mp he] at heq
      exact absurd heq (hok.key d hd (heq ▸ hsome))
    · rw [List.mem_singleton.mp hd] at hsome heq
      exact absurd heq.symm (hok.key e he hsome)
    · rw [List.mem_singleton.mp hd, List.mem_singleton.mp he]
  · intro p hp
    obtain ⟨d, hd, h⟩ := hwf.peerDevice p hp
    exact ⟨d, List.mem_append_left _ hd, h⟩
  · rintro p hp ⟨d, hd, hid, hdel⟩
    rcases List.mem_append.mp hd with hd | hd
    · exact hwf.tombstones p hp ⟨d, hd, hid, hdel⟩
    · rw [List.mem_singleton.mp hd, hok.live] at hdel
      cases hdel

theorem new_peer (hwf : db.WF) {row : Peer} (hok : NewPeerOk db row) :
    (Write.apply db (.newPeer row)).WF := by
  refine { hwf with
    userFresh := hwf.userFresh.succ
    nodeFresh := hwf.nodeFresh.succ
    deviceFresh := hwf.deviceFresh.succ
    peerIds := hwf.peerIds.append (hwf.peerFresh.ne hok.id)
    peerFresh := hwf.peerFresh.append hok.id
    peerNode := ?_, peerDevice := ?_, peerPair := ?_, tombstones := ?_ }
  · intro p hp
    rcases List.mem_append.mp hp with hp | hp
    · exact hwf.peerNode p hp
    · rw [List.mem_singleton.mp hp]
      exact hok.node
  · intro p hp
    rcases List.mem_append.mp hp with hp | hp
    · exact hwf.peerDevice p hp
    · rw [List.mem_singleton.mp hp]
      obtain ⟨d, hd, hid, huser, -⟩ := hok.device
      exact ⟨d, hd, hid, huser⟩
  · intro p hp q hq hn hd
    rcases List.mem_append.mp hp with hp | hp <;> rcases List.mem_append.mp hq with hq | hq
    · exact hwf.peerPair p hp q hq hn hd
    · rw [List.mem_singleton.mp hq] at hn hd
      exact absurd hd (hok.pair p hp hn)
    · rw [List.mem_singleton.mp hp] at hn hd
      exact absurd hd.symm (hok.pair q hq hn.symm)
    · rw [List.mem_singleton.mp hp, List.mem_singleton.mp hq]
  · intro p hp ht
    rcases List.mem_append.mp hp with hp | hp
    · exact hwf.tombstones p hp ht
    · rw [List.mem_singleton.mp hp] at ht
      obtain ⟨d, hd, hid, -, hlive⟩ := hok.device
      obtain ⟨e, he, heid, hdel⟩ := ht
      rw [hwf.device_eq he hd (heid.trans hid.symm), hlive] at hdel
      cases hdel

/-! ## Deletions -/

theorem delete_user (hwf : db.WF) (id : UserId) : (db.deleteUser id).WF := by
  have howner : ∀ {i : UserId}, i ≠ id → (∃ u ∈ db.users, u.id = i) →
      ∃ u ∈ db.users.filter (·.id ≠ id), u.id = i := by
    rintro i hi ⟨u, hu, rfl⟩
    exact ⟨u, List.mem_filter.mpr ⟨hu, by simpa using hi⟩, rfl⟩
  have hdev : ∀ d ∈ (db.deleteUser id).devices, d ∈ db.devices ∧ d.userId ≠ id := by
    intro d hd
    simpa using List.mem_filter.mp hd
  have hpeer : ∀ p ∈ (db.deleteUser id).peers, p ∈ db.peers ∧ p.userId ≠ id := by
    intro p hp
    simpa using List.mem_filter.mp hp
  refine {
    userIds := hwf.userIds.filter _, userFresh := hwf.userFresh.filter _
    nodeIds := hwf.nodeIds, nodeFresh := hwf.nodeFresh
    profileUsers := hwf.profileUsers.filter _, profileUuids := hwf.profileUuids.filter _
    profileOwner := ?_
    deviceIds := hwf.deviceIds.filter _, deviceFresh := hwf.deviceFresh.filter _
    deviceOwner := fun d hd => howner (hdev d hd).2 (hwf.deviceOwner d (hdev d hd).1)
    deviceIp := fun d hd e he => hwf.deviceIp d (hdev d hd).1 e (hdev e he).1
    deviceKey := fun d hd e he => hwf.deviceKey d (hdev d hd).1 e (hdev e he).1
    peerIds := hwf.peerIds.filter _, peerFresh := hwf.peerFresh.filter _
    peerNode := fun p hp => hwf.peerNode p (hpeer p hp).1
    peerDevice := ?_
    peerPair := fun p hp q hq => hwf.peerPair p (hpeer p hp).1 q (hpeer q hq).1
    tombstones := ?_ }
  · intro r hr
    obtain ⟨hr, hne⟩ := List.mem_filter.mp hr
    exact howner (by simpa using hne) (hwf.profileOwner r hr)
  · intro p hp
    obtain ⟨hp, hne⟩ := hpeer p hp
    obtain ⟨d, hd, hid, huser⟩ := hwf.peerDevice p hp
    refine ⟨d, List.mem_filter.mpr ⟨hd, ?_⟩, hid, huser⟩
    simpa [huser] using hne
  · rintro p hp ⟨d, hd, h⟩
    exact hwf.tombstones p (hpeer p hp).1 ⟨d, (hdev d hd).1, h⟩

theorem delete_node (hwf : db.WF) (id : NodeId) : (db.deleteNode id).WF := by
  have hpeer : ∀ p ∈ (db.deleteNode id).peers, p ∈ db.peers ∧ p.nodeId ≠ id := by
    intro p hp
    simpa using List.mem_filter.mp hp
  refine { hwf with
    nodeIds := hwf.nodeIds.filter _, nodeFresh := hwf.nodeFresh.filter _
    peerIds := hwf.peerIds.filter _, peerFresh := hwf.peerFresh.filter _
    peerNode := ?_
    peerDevice := fun p hp => hwf.peerDevice p (hpeer p hp).1
    peerPair := fun p hp q hq => hwf.peerPair p (hpeer p hp).1 q (hpeer q hq).1
    tombstones := fun p hp => hwf.tombstones p (hpeer p hp).1 }
  intro p hp
  obtain ⟨hp, hne⟩ := hpeer p hp
  obtain ⟨n, hn, hid⟩ := hwf.peerNode p hp
  exact ⟨n, List.mem_filter.mpr ⟨hn, by simpa [hid] using hne⟩, hid⟩

/-! ## Device rows and peer results -/

theorem device?_of_mem (hwf : db.WF) {d : Device} (hd : d ∈ db.devices) :
    db.device? d.id = some d := hwf.deviceIds.get?_eq_some hd

theorem tombstone (hwf : db.WF) {row : Device} (hok : TombstoneOk db row) :
    (Write.apply db (.tombstone row)).WF := by
  obtain ⟨old, hold, at_, rfl⟩ := hok
  -- the peers are marked first: the rows then change under peers that are all going away
  have hpeers : (db.mapPeers (deletedDevicePeer old.id)).WF := by
    apply hwf.map_peers
    · intro p _
      unfold deletedDevicePeer
      split
      · exact ⟨rfl, rfl, rfl, rfl, rfl⟩
      · exact .refl p
    · intro p _ hl
      unfold deletedDevicePeer at hl
      split at hl
      · cases hl
      · exact .inl hl
  have hrow : ∀ d ∈ db.devices, d.id = old.id → d = old := fun d hd => hwf.device_eq hd hold
  refine hpeers.map_devices (f := fun d =>
    if d.id = old.id then { old with deletedAt := old.deletedAt.or (some at_) } else d)
    ?_ ?_ ?_ ?_ ?_
  · intro d hd
    split
    · next h => exact h.symm
    · rfl
  · intro d hd
    split
    · next h => rw [hrow d hd h]
    · rfl
  · intro d hd
    split
    · next h => rw [hrow d hd h]
    · rfl
  · intro d hd
    split
    · next h =>
        rw [hrow d hd h]
        exact .inl rfl
    · exact .inl rfl
  · intro d hd hdel p' hp' hpd
    obtain ⟨p, hp, rfl⟩ := List.mem_map.mp hp'
    by_cases hid : d.id = old.id
    · unfold deletedDevicePeer at hpd ⊢
      split
      · rfl
      · next h =>
          rw [if_neg h] at hpd
          rw [not_and] at h
          simpa using h (hpd.trans hid)
    · rw [if_neg hid] at hdel
      exact hpeers.tombstones _ (List.mem_map_of_mem hp) ⟨d, hd, hpd.symm, hdel⟩

theorem release (hwf : db.WF) {row : Device} {at_ : Time} (hok : ReleaseOk db row) :
    (Write.apply db (.release row at_)).WF := by
  have hrow : ∀ d ∈ db.devices, d.id = row.id → d = row := fun d hd => hwf.device_eq hd hok.mem
  refine hwf.map_devices
    (f := fun d => if d.id = (row.released at_).id then row.released at_ else d)
    ?_ ?_ ?_ ?_ ?_
  · intro d hd
    split
    · next h => exact h.symm
    · rfl
  · intro d hd
    split
    · next h =>
        rw [hrow d hd h]
        rfl
    · rfl
  · intro d hd
    split
    · next h =>
        rw [hrow d hd h]
        rfl
    · rfl
  · intro d hd
    split
    · exact .inr rfl
    · exact .inl rfl
  · intro d hd hdel p hp hpd
    refine hwf.tombstones p hp ⟨d, hd, hpd.symm, ?_⟩
    split at hdel
    · next h =>
        rw [hrow d hd h]
        exact hok.tombstoned
    · exact hdel

theorem reading (hwf : db.WF) {row : Peer} (hrow : row ∈ db.peers) (data : PeerSyncResult)
    (now : Time) : (applyPeerResult db row data now).2.WF := by
  rw [applyPeerResult_db]
  have hsaved : (db.mapPeers fun p =>
      if p.id = (peerAfterResult db row data).id then peerAfterResult db row data else p).WF := by
    apply hwf.map_peers
    · intro p hp
      split
      · next h =>
          rw [hwf.peer_eq hp hrow (h.trans (peerAfterResult_id db row data))]
          exact peerAfterResult_same db row data
      · exact .refl p
    · intro p hp hl
      split at hl
      · next h =>
          rw [hwf.peer_eq hp hrow (h.trans (peerAfterResult_id db row data))]
          rw [peerAfterResult_status] at hl
          exact .inl (peerResultStatus_live hl).1
      · exact .inl hl
  exact { hsaved with }

theorem reset_traffic (hwf : db.WF) (row : User) (at_ : Time) :
    (resetLocalTrafficUsage db row at_).2.WF :=
  { hwf.save_user { row with trafficResetAt := some at_ } with }

end Db.WF

/-- Every guarded write keeps the tables well formed. -/
theorem Write.apply_wf {db : Db} (hwf : db.WF) (w : Write) (hok : w.Ok db) : (w.apply db).WF := by
  cases w with
  | user row => exact hwf.save_user row
  | newUser row => exact hwf.new_user hok.id
  | profile row => exact hwf.save_profile hok
  | newImport row profile => exact hwf.new_import hok.1.id hok.2.1 hok.2.2
  | node row => exact hwf.save_node row
  | newNode row => exact hwf.new_node hok
  | newDevice row => exact hwf.new_device hok
  | tombstone row => exact hwf.tombstone hok
  | release row at_ => exact hwf.release hok
  | peers f => exact hwf.map_peers hok.same hok.live
  | newPeer row => exact hwf.new_peer hok
  | reading row data now => exact hwf.reading hok data now
  | resetTraffic row at_ => exact hwf.reset_traffic row at_
  | deleteUser id => exact hwf.delete_user id
  | deleteNode id => exact hwf.delete_node id

theorem Writes.wf {P : Db → Write → Prop} {db db' : Db} (h : Writes P db db') (hwf : db.WF) :
    db'.WF :=
  h.keeps (fun _ w _ hok hI => Write.apply_wf hI w hok) hwf

end VpnPanel.Backend
