import VpnPanel.Backend.Accounts

/-!
# Owner, device and peer states

`AgreesFor u`: the peers of the account `u` follow its block flag. Most writes
keep that on their own (`Keeps`); a lifecycle pass, a new device and a new node
restore it together.
-/

namespace VpnPanel.Backend

open VpnPanel.Lib

/-- A live device with a key and an address. -/
structure Device.Usable (d : Device) : Prop where
  live : d.deletedAt = none
  key : truthy d.publicKey = true
  ip : truthy d.vpnIp = true

/-- The block flag of an account. -/
def Db.flag? (db : Db) (u : UserId) : Option Bool := (db.user? u).map (·.isBlocked)

/-- Every usable device of the account has a peer on every node. -/
def Db.Provisioned (db : Db) (u : UserId) : Prop :=
  ∀ d ∈ db.devices, d.userId = u → d.Usable → ∀ n ∈ db.nodes,
    ∃ p ∈ db.peers, p.nodeId = n.id ∧ p.deviceId = d.id

structure AgreesFor (u : UserId) (db : Db) : Prop where
  blocked : db.flag? u = some true → ∀ p ∈ db.peers, p.userId = u → p.status.live = false
  provisioned : db.flag? u = some false → db.Provisioned u
  live : db.flag? u = some false →
    ∀ p ∈ db.peers, p.userId = u → ¬db.Tombstoned p.deviceId → p.status.live = true

/-- The states of every account agree. -/
def Db.Agrees (db : Db) : Prop := ∀ u, AgreesFor u db

/-- A peer belongs to the account of its device. -/
theorem Db.WF.peer_owner {db : Db} (hwf : db.WF) {p : Peer} (hp : p ∈ db.peers) {d : Device}
    (hd : d ∈ db.devices) (h : p.deviceId = d.id) : p.userId = d.userId := by
  obtain ⟨e, he, hid, hu⟩ := hwf.peerDevice p hp
  rw [← hu, hwf.device_eq he hd (hid.trans h)]

section Writes

variable {cfg : Config} {u : UserId} {db db' : Db}

/-! ## Writes that keep the agreement -/

theorem AgreesFor.of_none (h : db.flag? u = none) : AgreesFor u db := by
  refine ⟨fun hf => ?_, fun hf => ?_, fun hf => ?_⟩ <;> rw [h] at hf <;> cases hf

/-- An account with neither devices nor peers. -/
theorem AgreesFor.of_empty (hd : ∀ d ∈ db.devices, d.userId ≠ u)
    (hp : ∀ p ∈ db.peers, p.userId ≠ u) : AgreesFor u db :=
  ⟨fun _ p hmem hu => absurd hu (hp p hmem), fun _ d hmem hu => absurd hu (hd d hmem),
    fun _ p hmem hu => absurd hu (hp p hmem)⟩

/-- The account is unchanged, its peers come from the old ones with their
liveness, and devices and nodes only go. -/
theorem AgreesFor.frame (hwf : db.WF) (h : AgreesFor u db) (hflag : db'.flag? u = db.flag? u)
    (hback : ∀ q ∈ db'.peers, q.userId = u → ∃ p ∈ db.peers, p.Same q ∧
      p.status.live = q.status.live)
    (hforth : ∀ p ∈ db.peers, p.userId = u → (∃ n ∈ db'.nodes, n.id = p.nodeId) →
      ∃ q ∈ db'.peers, p.Same q)
    (hdevices : ∀ d ∈ db'.devices, d.userId = u → d.Usable → ∃ e ∈ db.devices,
      e.id = d.id ∧ e.userId = u ∧ e.Usable)
    (hnodes : ∀ n ∈ db'.nodes, ∃ m ∈ db.nodes, m.id = n.id)
    (htombs : ∀ q ∈ db'.peers, q.userId = u → db.Tombstoned q.deviceId →
      db'.Tombstoned q.deviceId) : AgreesFor u db' := by
  refine ⟨fun hf q hq hu => ?_, fun hf d hd hu huse n hn => ?_, fun hf q hq hu ht => ?_⟩
  · obtain ⟨p, hp, hsame, hlive⟩ := hback q hq hu
    rw [← hlive]
    exact h.blocked (hflag ▸ hf) p hp (hsame.userId.symm.trans hu)
  · obtain ⟨e, he, hid, heu, heuse⟩ := hdevices d hd hu huse
    obtain ⟨m, hm, hmn⟩ := hnodes n hn
    obtain ⟨p, hp, hpn, hpd⟩ := h.provisioned (hflag ▸ hf) e he heu heuse m hm
    have hpu : p.userId = u := (hwf.peer_owner hp he hpd).trans heu
    obtain ⟨q, hq, hsame⟩ := hforth p hp hpu ⟨n, hn, by rw [hpn, hmn]⟩
    exact ⟨q, hq, by rw [hsame.nodeId, hpn, hmn], by rw [hsame.deviceId, hpd, hid]⟩
  · obtain ⟨p, hp, hsame, hlive⟩ := hback q hq hu
    rw [← hlive]
    refine h.live (hflag ▸ hf) p hp (hsame.userId.symm.trans hu) ?_
    rw [← hsame.deviceId]
    exact fun htomb => ht (htombs q hq hu htomb)

/-- The peers are rewritten with their liveness, everything else stays. -/
theorem AgreesFor.map_peers (hwf : db.WF) (h : AgreesFor u db) {f : Peer → Peer}
    (hsame : ∀ p ∈ db.peers, p.Same (f p))
    (hlive : ∀ p ∈ db.peers, p.userId = u → (f p).status.live = p.status.live) :
    AgreesFor u (db.mapPeers f) := by
  refine h.frame hwf rfl ?_ ?_ (fun d hd hu huse => ⟨d, hd, rfl, hu, huse⟩)
    (fun n hn => ⟨n, hn, rfl⟩) (fun _ _ _ ht => ht)
  · intro q hq hu
    obtain ⟨p, hp, rfl⟩ := List.mem_map.mp hq
    exact ⟨p, hp, hsame p hp, (hlive p hp ((hsame p hp).userId.symm.trans hu)).symm⟩
  · intro p hp _ _
    exact ⟨f p, List.mem_map_of_mem hp, hsame p hp⟩

/-- Only tables the agreement does not read are written. -/
theorem AgreesFor.same (hwf : db.WF) (h : AgreesFor u db) (hflag : db'.flag? u = db.flag? u)
    (hpeers : db'.peers = db.peers) (hdevices : db'.devices = db.devices)
    (hnodes : db'.nodes.map (·.id) = db.nodes.map (·.id)) : AgreesFor u db' := by
  refine h.frame hwf hflag ?_ ?_ ?_ ?_ ?_
  · intro q hq _
    rw [hpeers] at hq
    exact ⟨q, hq, .refl q, rfl⟩
  · intro p hp _ _
    rw [hpeers]
    exact ⟨p, hp, .refl p⟩
  · intro d hd hu huse
    rw [hdevices] at hd
    exact ⟨d, hd, rfl, hu, huse⟩
  · intro n hn
    have hmem : n.id ∈ db.nodes.map (·.id) := by
      rw [← hnodes]
      exact List.mem_map_of_mem hn
    obtain ⟨m, hm, hid⟩ := List.mem_map.mp hmem
    exact ⟨m, hm, hid⟩
  · intro q _ _ ht
    unfold Db.Tombstoned at ht ⊢
    rwa [hdevices]

/-- A reading that reports `active` moves no peer in or out of the live
states. -/
theorem peerResultStatus_active {stored : PeerStatus} {deviceTombstone : Bool}
    (h : deviceTombstone = true → stored.live = false) :
    (peerResultStatus stored deviceTombstone (some "active")).live = stored.live := by
  cases deviceTombstone with
  | true => cases stored <;> simp_all [peerResultStatus, PeerStatus.ofText?, PeerStatus.live]
  | false =>
      cases stored <;>
        simp [peerResultStatus, PeerStatus.ofText?, PeerStatus.live, PeerStatus.tombstoned]

theorem AgreesFor.reading (hwf : db.WF) (h : AgreesFor u db) {row : Peer} (hrow : row ∈ db.peers)
    {data : PeerSyncResult} (hactive : data.status = some "active") (now : Time) :
    AgreesFor u (applyPeerResult db row data now).2 := by
  rw [applyPeerResult_db]
  have hstatus : (peerAfterResult db row data).status.live = row.status.live := by
    rw [peerAfterResult_status, hactive]
    apply peerResultStatus_active
    intro htomb
    obtain ⟨d, hd, hdel⟩ := (Option.any_eq_true _ _).mp htomb
    exact hwf.tombstones row hrow ⟨d, Rows.mem_of_get? hd, Rows.key_of_get? hd, hdel⟩
  have hsame := peerAfterResult_same db row data
  refine h.frame hwf rfl ?_ ?_ (fun d hd hu huse => ⟨d, hd, rfl, hu, huse⟩)
    (fun n hn => ⟨n, hn, rfl⟩) (fun _ _ _ ht => ht)
  · intro q hq _
    rcases Rows.mem_save.mp hq with ⟨rfl, -⟩ | ⟨hq, -⟩
    · exact ⟨row, hrow, hsame, hstatus.symm⟩
    · exact ⟨q, hq, .refl q, rfl⟩
  · intro p hp _ _
    by_cases hid : p.id = row.id
    · rw [hwf.peer_eq hp hrow hid]
      exact ⟨_, Rows.mem_save.mpr (.inl ⟨rfl, row, hrow, hsame.id.symm⟩), hsame⟩
    · exact ⟨p, Rows.mem_save.mpr (.inr ⟨hp, fun heq => hid (heq.trans hsame.id)⟩), .refl p⟩

/-- An owner that may add a device is not blocked. -/
theorem flag?_of_active {now : Time} (h : requireActiveOwner db u now = .ok ()) :
    db.flag? u = some false := by
  unfold requireActiveOwner at h
  cases hu : db.user? u with
  | none =>
      rw [hu] at h
      cases h
  | some user =>
      rw [hu] at h
      dsimp only at h
      split at h
      · cases h
      · next hcode =>
          unfold Db.flag?
          rw [hu, Option.map_some, accountStatus_active (not_not.mp hcode)]

theorem flag?_save (row : User) {old : User} (h : db.user? row.id = some old) :
    (db.saveUser row).flag? row.id = some row.isBlocked := by
  have hsaved : (db.saveUser row).user? row.id = some row := Rows.get?_save_self h
  unfold Db.flag?
  rw [hsaved]
  rfl

theorem flag?_save_of_ne {row : User} (h : row.id ≠ u) :
    (db.saveUser row).flag? u = db.flag? u := by
  have hsaved : (db.saveUser row).user? u = db.user? u := Rows.get?_save_of_ne h
  unfold Db.flag?
  rw [hsaved]

/-- Writes that do not disturb the account `u`. -/
def Keeps (u : UserId) (db : Db) : Write → Prop
  | .user row => row.id = u → db.flag? u = some row.isBlocked
  | .resetTraffic row _ => row.id = u → db.flag? u = some row.isBlocked
  | .newNode _ => False
  | .newDevice row => row.userId ≠ u
  | .peers f => ∀ p ∈ db.peers, p.userId = u → (f p).status.live = p.status.live
  | .newPeer row => row.userId = u → db.flag? u = some false
  | .reading _ data _ => data.status = some "active"
  | _ => True

theorem keeps_user (hwf : db.WF) (h : AgreesFor u db) (row : User)
    (hok : ∃ old ∈ db.users, old.id = row.id)
    (hk : row.id = u → db.flag? u = some row.isBlocked)
    (husers : db'.users = (db.saveUser row).users)
    (hpeers : db'.peers = db.peers) (hdevices : db'.devices = db.devices)
    (hnodes : db'.nodes = db.nodes) : AgreesFor u db' := by
  have hsave : db'.flag? u = (db.saveUser row).flag? u := by
    unfold Db.flag? Db.user?
    rw [husers]
  refine h.same hwf ?_ hpeers hdevices (by rw [hnodes])
  by_cases hid : row.id = u
  · obtain ⟨old, hold, holdid⟩ := hok
    have hstored : db.user? row.id = some old := hwf.userIds.get?_iff.mpr ⟨hold, holdid⟩
    rw [hsave, hk hid, ← hid]
    exact flag?_save row hstored
  · rw [hsave]
    exact flag?_save_of_ne hid

/-- A new account has neither devices nor peers. -/
theorem keeps_newUser (hwf : db.WF) (h : AgreesFor u db) {row : User} (hid : row.id = db.nextId)
    (husers : db'.users = db.users ++ [row]) (hpeers : db'.peers = db.peers)
    (hdevices : db'.devices = db.devices) (hnodes : db'.nodes = db.nodes) : AgreesFor u db' := by
  by_cases hu : row.id = u
  · have hdev : ∀ d ∈ db.devices, d.userId ≠ u := by
      intro d hd hdu
      obtain ⟨v, hv, hvid⟩ := hwf.deviceOwner d hd
      exact hwf.userFresh.ne hid v hv (hvid.trans (hdu.trans hu.symm))
    refine AgreesFor.of_empty (by rwa [hdevices]) ?_
    rw [hpeers]
    intro p hp hpu
    obtain ⟨d, hd, -, hdu⟩ := hwf.peerDevice p hp
    exact hdev d hd (hdu.trans hpu)
  · refine h.same hwf ?_ hpeers hdevices (by rw [hnodes])
    have hother : db'.user? u = db.user? u := by
      unfold Db.user?
      rw [husers]
      exact Rows.get?_append_of_ne hu
    unfold Db.flag?
    rw [hother]

theorem keeps_tombstone (h : AgreesFor u db) {row : Device}
    (hok : TombstoneOk db row) : AgreesFor u (Write.apply db (.tombstone row)) := by
  obtain ⟨old, hold, at_, hrow⟩ := hok
  have hid : old.id = row.id := by rw [hrow]
  have hdel : row.deletedAt.isSome := by
    rw [hrow]
    cases old.deletedAt <;> rfl
  have hmem : row ∈ Rows.save Device.id row db.devices :=
    Rows.mem_save.mpr (.inl ⟨rfl, old, hold, hid⟩)
  have hsame : ∀ p : Peer, p.Same (deletedDevicePeer row.id p) := by
    intro p
    unfold deletedDevicePeer
    split
    · exact ⟨rfl, rfl, rfl, rfl, rfl⟩
    · exact .refl p
  have hdead : ∀ p : Peer, (deletedDevicePeer row.id p).status.live = true →
      p.status.live = true := by
    intro p hl
    unfold deletedDevicePeer at hl
    split at hl
    · cases hl
    · exact hl
  refine ⟨fun hf q hq hu => ?_, fun hf d hd hu huse n hn => ?_, fun hf q hq hu ht => ?_⟩
  · obtain ⟨p, hp, rfl⟩ := List.mem_map.mp hq
    have hpdead := h.blocked hf p hp ((hsame p).userId.symm.trans hu)
    by_contra hl
    rw [hdead p (by simpa using hl)] at hpdead
    cases hpdead
  · rcases Rows.mem_save.mp hd with ⟨rfl, -⟩ | ⟨hd, hne⟩
    · rw [huse.live] at hdel
      cases hdel
    · obtain ⟨p, hp, hpn, hpd⟩ := h.provisioned hf d hd hu huse n hn
      exact ⟨_, List.mem_map_of_mem hp, (hsame p).nodeId.trans hpn, (hsame p).deviceId.trans hpd⟩
  · obtain ⟨p, hp, rfl⟩ := List.mem_map.mp hq
    rw [(hsame p).deviceId] at ht
    have hne : p.deviceId ≠ row.id := fun heq => ht ⟨row, hmem, heq.symm, hdel⟩
    have hkept : deletedDevicePeer row.id p = p := if_neg fun hand => hne hand.1
    rw [hkept] at hu ⊢
    refine h.live hf p hp hu ?_
    rintro ⟨d, hd, hdid, hddel⟩
    refine ht ⟨d, Rows.mem_save.mpr (.inr ⟨hd, fun heq => hne ?_⟩), hdid, hddel⟩
    exact hdid.symm.trans heq

theorem keeps_release (hwf : db.WF) (h : AgreesFor u db) {row : Device} {at_ : Time}
    (hok : ReleaseOk db row) : AgreesFor u (Write.apply db (.release row at_)) := by
  refine h.frame hwf rfl (fun q hq _ => ⟨q, hq, .refl q, rfl⟩) (fun p hp _ _ => ⟨p, hp, .refl p⟩)
    ?_ (fun n hn => ⟨n, hn, rfl⟩) ?_
  · intro d hd hu huse
    rcases Rows.mem_save.mp hd with ⟨rfl, -⟩ | ⟨hd, -⟩
    · have hdel : (row.released at_).deletedAt.isSome := hok.tombstoned
      rw [huse.live] at hdel
      cases hdel
    · exact ⟨d, hd, rfl, hu, huse⟩
  · rintro q - - ⟨d, hd, hid, hdel⟩
    by_cases heq : d.id = row.id
    · exact ⟨row.released at_, Rows.mem_save.mpr (.inl ⟨rfl, row, hok.mem, rfl⟩), heq ▸ hid,
        hok.tombstoned⟩
    · exact ⟨d, Rows.mem_save.mpr (.inr ⟨hd, heq⟩), hid, hdel⟩

theorem keeps_deleteUser (hwf : db.WF) (h : AgreesFor u db) (id : UserId) :
    AgreesFor u (db.deleteUser id) := by
  by_cases hid : id = u
  · apply AgreesFor.of_none
    have hnone : (db.deleteUser id).user? u = none := by
      refine Rows.get?_eq_none.mpr fun r hr => ?_
      rw [← hid]
      simpa using (List.mem_filter.mp hr).2
    unfold Db.flag?
    rw [hnone]
    rfl
  · have hkeep : ∀ {v : UserId}, v = u → decide (v ≠ id) = true := by
      intro v hv
      simpa [hv] using Ne.symm hid
    have huser : (db.deleteUser id).user? u = db.user? u :=
      Rows.get?_filter fun r _ hr => hkeep hr
    refine h.frame hwf (by unfold Db.flag?; rw [huser])
      (fun q hq _ => ⟨q, (List.mem_filter.mp hq).1, .refl q, rfl⟩)
      (fun p hp hu _ => ⟨p, List.mem_filter.mpr ⟨hp, hkeep hu⟩, .refl p⟩)
      (fun d hd hu huse => ⟨d, (List.mem_filter.mp hd).1, rfl, hu, huse⟩)
      (fun n hn => ⟨n, hn, rfl⟩) ?_
    rintro q hq hu ⟨d, hd, hdid, hdel⟩
    refine ⟨d, List.mem_filter.mpr ⟨hd, hkeep ?_⟩, hdid, hdel⟩
    rw [← hwf.peer_owner (List.mem_filter.mp hq).1 hd hdid.symm]
    exact hu

theorem keeps_deleteNode (hwf : db.WF) (h : AgreesFor u db) (id : NodeId) :
    AgreesFor u (db.deleteNode id) := by
  refine h.frame hwf rfl (fun q hq _ => ⟨q, (List.mem_filter.mp hq).1, .refl q, rfl⟩) ?_
    (fun d hd hu huse => ⟨d, hd, rfl, hu, huse⟩)
    (fun n hn => ⟨n, (List.mem_filter.mp hn).1, rfl⟩) (fun _ _ _ ht => ht)
  rintro p hp - ⟨n, hn, hnp⟩
  refine ⟨p, List.mem_filter.mpr ⟨hp, ?_⟩, .refl p⟩
  rw [← hnp]
  exact (List.mem_filter.mp hn).2

theorem keeps_newPeer (h : AgreesFor u db) {row : Peer} (hok : NewPeerOk db row)
    (hk : row.userId = u → db.flag? u = some false) :
    AgreesFor u (Write.apply db (.newPeer row)) := by
  refine ⟨fun hf q hq hu => ?_, fun hf d hd hu huse n hn => ?_, fun hf q hq hu ht => ?_⟩
  · rcases List.mem_append.mp hq with hq | hq
    · exact h.blocked hf q hq hu
    · rw [List.mem_singleton.mp hq] at hu
      have hf' : db.flag? u = some true := hf
      rw [hk hu] at hf'
      cases hf'
  · obtain ⟨p, hp, hboth⟩ := h.provisioned hf d hd hu huse n hn
    exact ⟨p, List.mem_append_left _ hp, hboth⟩
  · rcases List.mem_append.mp hq with hq | hq
    · exact h.live hf q hq hu ht
    · rw [List.mem_singleton.mp hq, hok.pending]
      rfl

/-- A write that does not disturb the account keeps its agreement. -/
theorem Keeps.apply (hwf : db.WF) (h : AgreesFor u db) {w : Write} (hk : Keeps u db w)
    (hok : w.Ok db) : AgreesFor u (w.apply db) := by
  cases w with
  | user row =>
      obtain ⟨old, hold, hid, -⟩ := hok
      exact keeps_user hwf h row ⟨old, hold, hid⟩ hk rfl rfl rfl rfl
  | resetTraffic row at_ =>
      exact keeps_user hwf h { row with trafficResetAt := some at_ } hok hk rfl rfl rfl rfl
  | newUser row => exact keeps_newUser hwf h hok.id rfl rfl rfl rfl
  | newImport row imported => exact keeps_newUser hwf h hok.1.id rfl rfl rfl rfl
  | profile row => exact h.same hwf rfl rfl rfl rfl
  | node row => exact h.same hwf rfl rfl rfl Rows.map_key_save
  | newNode row => exact hk.elim
  | newDevice row =>
      refine h.frame hwf rfl (fun q hq _ => ⟨q, hq, .refl q, rfl⟩)
        (fun p hp _ _ => ⟨p, hp, .refl p⟩) ?_ (fun n hn => ⟨n, hn, rfl⟩) ?_
      · intro d hd hu huse
        rcases List.mem_append.mp hd with hd | hd
        · exact ⟨d, hd, rfl, hu, huse⟩
        · rw [List.mem_singleton.mp hd] at hu
          exact absurd hu hk
      · rintro q - - ⟨d, hd, hrest⟩
        exact ⟨d, List.mem_append_left _ hd, hrest⟩
  | tombstone row => exact keeps_tombstone h hok
  | release row at_ => exact keeps_release hwf h hok
  | peers f => exact h.map_peers hwf hok.same hk
  | newPeer row => exact keeps_newPeer h hok hk
  | reading row data now => exact h.reading hwf hok hk now
  | deleteUser id => exact keeps_deleteUser hwf h id
  | deleteNode id => exact keeps_deleteNode hwf h id

theorem AgreesFor.writes (hwf : db.WF) (h : AgreesFor u db) (hw : Writes (Keeps u) db db') :
    AgreesFor u db' := by
  have hboth : db'.WF ∧ AgreesFor u db' := by
    refine hw.keeps (I := fun db => db.WF ∧ AgreesFor u db) ?_ ⟨hwf, h⟩
    rintro b w hk hok ⟨hb, hag⟩
    exact ⟨Write.apply_wf hb w hok, hk.apply hb hag hok⟩
  exact hboth.2

end Writes

/-! ## Passes over one account -/

section Passes

variable {cfg : Config} {u : UserId} {db db' : Db}

/-- What a sequence of new peers leaves. -/
structure Adds (u : UserId) (db db' : Db) : Prop where
  peers : ∀ p ∈ db.peers, p ∈ db'.peers
  new : ∀ p ∈ db'.peers, p ∈ db.peers ∨ (p.userId = u ∧ p.status = .pending)
  devices : db'.devices = db.devices
  nodes : db'.nodes = db.nodes
  users : db'.users = db.users

theorem Adds.refl (db : Db) : Adds u db db :=
  ⟨fun _ h => h, fun _ h => .inl h, rfl, rfl, rfl⟩

theorem Adds.trans {db'' : Db} (h : Adds u db db') (h' : Adds u db' db'') : Adds u db db'' := by
  refine ⟨fun p hp => h'.peers p (h.peers p hp), fun p hp => ?_, h'.devices.trans h.devices,
    h'.nodes.trans h.nodes, h'.users.trans h.users⟩
  rcases h'.new p hp with hp | hp
  · exact h.new p hp
  · exact .inr hp

theorem Writes.adds (h : Writes (NewPeersOf u) db db') : Adds u db db' := by
  refine h.relates Adds.refl (fun _ _ _ => Adds.trans) ?_
  intro b w hw hok
  cases w with
  | newPeer row =>
      refine ⟨fun p hp => List.mem_append_left _ hp, fun p hp => ?_, rfl, rfl, rfl⟩
      rcases List.mem_append.mp hp with hp | hp
      · exact .inl hp
      · rw [List.mem_singleton.mp hp]
        exact .inr ⟨hw, hok.pending⟩
  | _ => exact hw.elim

theorem Adds.flag? (h : Adds u db db') (v : UserId) : db'.flag? v = db.flag? v := by
  unfold Db.flag? Db.user?
  rw [h.users]

/-- `create_pending_peer` leaves a peer for a usable device. -/
theorem createPendingPeer_has (cfg : Config) {nodeId : NodeId} {d : Device} (hd : d ∈ db.devices)
    (huse : d.Usable) (hn : ∃ n ∈ db.nodes, n.id = nodeId) :
    ∃ p ∈ (createPendingPeer cfg db nodeId d).2.peers, p.nodeId = nodeId ∧ p.deviceId = d.id := by
  unfold createPendingPeer
  have hlive : ¬d.deletedAt.isSome = true := by simp [huse.live]
  rw [if_neg hlive]
  split
  · next hany =>
      obtain ⟨p, hp, hboth⟩ := List.any_eq_true.mp hany
      exact ⟨p, hp, by simpa using hboth⟩
  next hnone =>
    rw [if_neg (by simp [huse.key, huse.ip])]
    have hnode : (db.node? nodeId).isNone = false := by
      cases hget : db.node? nodeId with
      | none =>
          obtain ⟨n, hn, hid⟩ := hn
          exact absurd hid (Rows.get?_eq_none.mp hget n hn)
      | some n => rfl
    have hdev : db.devices.any (fun row => row.id = d.id ∧ row.userId = d.userId) = true :=
      List.any_eq_true.mpr ⟨d, hd, by simp⟩
    have hconf : db.peerConflict (pendingPeer cfg db nodeId d) = false := by
      unfold Db.peerConflict pendingPeer
      simp only [Bool.not_eq_true] at hnone
      simp only [hnone, hnode, hdev, Bool.not_true, Bool.or_self]
    unfold Db.insertPeer
    rw [hconf]
    exact ⟨_, List.mem_append_right _ List.mem_cons_self, rfl, rfl⟩

theorem createPendingPeersOn_has (cfg : Config) {d : Device} (huse : d.Usable)
    (ids : List NodeId) :
    ∀ {db : Db}, d ∈ db.devices → (∀ id ∈ ids, ∃ n ∈ db.nodes, n.id = id) → ∀ id ∈ ids,
      ∃ p ∈ (createPendingPeersOn cfg d ids db).2.peers, p.nodeId = id ∧ p.deviceId = d.id := by
  induction ids with
  | nil =>
      intro db _ _ id hid
      cases hid
  | cons first rest ih =>
      intro db hd hnodes id hid
      have hone : Adds d.userId db (createPendingPeer cfg db first d).2 :=
        (createPendingPeer_writes first hd).adds
      have hd' : d ∈ (createPendingPeer cfg db first d).2.devices := by
        rw [hone.devices]
        exact hd
      rcases List.mem_cons.mp hid with rfl | hid
      · obtain ⟨p, hp, hboth⟩ := createPendingPeer_has cfg hd huse
          (hnodes id List.mem_cons_self)
        exact ⟨p, (createPendingPeersOn_writes rest hd').adds.peers p hp, hboth⟩
      · refine ih hd' ?_ id hid
        rw [hone.nodes]
        exact fun i hi => hnodes i (List.mem_cons_of_mem _ hi)

theorem restoreMissingPeersOf_has (cfg : Config) (devices : List Device) :
    ∀ {db : Db}, (∀ d ∈ devices, d ∈ db.devices ∧ d.userId = u) → ∀ d ∈ devices, d.Usable →
      ∀ n ∈ db.nodes, ∃ p ∈ (restoreMissingPeersOf cfg devices db).2.peers,
        p.nodeId = n.id ∧ p.deviceId = d.id := by
  induction devices with
  | nil =>
      intro db _ d hd
      cases hd
  | cons first rest ih =>
      intro db hmem d hd huse n hn
      obtain ⟨hfirst, hu⟩ := hmem first List.mem_cons_self
      have hone : Adds first.userId db (createPendingPeersForDevice cfg db first).2 :=
        (createPendingPeersOn_writes _ hfirst).adds
      have hrest : ∀ e ∈ rest, e ∈ (createPendingPeersForDevice cfg db first).2.devices ∧
          e.userId = u := by
        rw [hone.devices]
        exact fun e he => hmem e (List.mem_cons_of_mem _ he)
      rcases List.mem_cons.mp hd with rfl | hd
      · obtain ⟨p, hp, hboth⟩ := createPendingPeersOn_has cfg huse (db.nodes.map (·.id)) hfirst
          (fun id hid => List.mem_map.mp hid) n.id (List.mem_map_of_mem hn)
        exact ⟨p, (restoreMissingPeersOf_writes rest hrest).adds.peers p hp, hboth⟩
      · refine ih hrest d hd huse n ?_
        rw [hone.nodes]
        exact hn

/-- After a restore the account misses no peer. -/
theorem provisioned_restore (cfg : Config) (db : Db) (u : UserId) :
    (restoreMissingPeersForUser cfg db u).2.Provisioned u := by
  intro d hd hu huse n hn
  have hadds : Adds u db (restoreMissingPeersForUser cfg db u).2 :=
    (restoreMissingPeersForUser_writes db u).adds
  rw [hadds.devices] at hd
  rw [hadds.nodes] at hn
  have howned : ∀ e ∈ listLiveDevices db u, e ∈ db.devices ∧ e.userId = u := by
    intro e he
    obtain ⟨he, heu, -⟩ := mem_listLiveDevices.mp he
    exact ⟨he, heu⟩
  exact restoreMissingPeersOf_has cfg _ howned d (mem_listLiveDevices.mpr ⟨hd, hu, huse.live⟩)
    huse n hn

/-- The collection holds every peer of the account. -/
def Complete (u : UserId) (loaded : List PeerId) (db : Db) : Prop :=
  ∀ p ∈ db.peers, p.userId = u → p.id ∈ loaded

theorem complete_loadPeers (hwf : db.WF) (u : UserId) : Complete u (loadPeers db u) db :=
  fun _ hp hu => (mem_loadPeers hwf hp).mpr hu

theorem mem_transitionPeers {loaded : List PeerId} {b : Bool} {q : Peer}
    (hq : q ∈ (transitionPeers db loaded b).2.peers) :
    ∃ p ∈ db.peers, q = transitionOf db loaded b p ∧ p.Same q := by
  obtain ⟨p, hp, rfl⟩ := List.mem_map.mp hq
  exact ⟨p, hp, rfl, transitionPeer_same _ _ _ p⟩

theorem agrees_block {loaded : List PeerId} (hflag : db.flag? u = some true)
    (hc : Complete u loaded db) : AgreesFor u (transitionPeers db loaded true).2 := by
  have hflag' : (transitionPeers db loaded true).2.flag? u = some true := hflag
  refine ⟨fun _ q hq hu => ?_, fun hf => ?_, fun hf => ?_⟩
  · obtain ⟨p, hp, rfl, hsame⟩ := mem_transitionPeers hq
    rw [transitionOf_block (hc p hp (hsame.userId.symm.trans hu))]
    rfl
  · rw [hflag'] at hf
    cases hf
  · rw [hflag'] at hf
    cases hf

/-- An unblocking pass leaves every peer of a live device live. -/
theorem live_of_unblock {loaded : List PeerId} (hc : Complete u loaded db) :
    ∀ q ∈ (transitionPeers db loaded false).2.peers, q.userId = u →
      ¬db.Tombstoned q.deviceId → q.status.live = true := by
  intro q hq hu ht
  obtain ⟨p, hp, rfl, hsame⟩ := mem_transitionPeers hq
  rw [hsame.deviceId] at ht
  rcases transitionOf_unblock hp (hc p hp (hsame.userId.symm.trans hu)) with
    ⟨-, -, hst⟩ | ⟨hor, hst⟩
  · rw [hst]
    rfl
  · rw [hst]
    exact hor.resolve_right ht

theorem provisioned_transition {loaded : List PeerId} {b : Bool} (h : db.Provisioned u) :
    (transitionPeers db loaded b).2.Provisioned u := by
  intro d hd hu huse n hn
  obtain ⟨p, hp, hpn, hpd⟩ := h d hd hu huse n hn
  have hsame := transitionPeer_same b
    (tombstonedDeviceIds db ((db.peers.filter (·.id ∈ loaded)).map (·.deviceId))) loaded p
  exact ⟨_, List.mem_map_of_mem hp, hsame.nodeId.trans hpn, hsame.deviceId.trans hpd⟩

theorem agrees_unblock {loaded : List PeerId} (hflag : db.flag? u = some false)
    (hc : Complete u loaded db) (hprov : db.Provisioned u) :
    AgreesFor u (transitionPeers db loaded false).2 := by
  have hflag' : (transitionPeers db loaded false).2.flag? u = some false := hflag
  refine ⟨fun hf => ?_, fun _ => provisioned_transition hprov, fun _ => live_of_unblock hc⟩
  rw [hflag'] at hf
  cases hf

theorem agrees_restore {loaded : List PeerId} (hflag : db.flag? u = some false)
    (hc : Complete u loaded db) :
    AgreesFor u (restoreMissingPeersForUser cfg (transitionPeers db loaded false).2 u).2 := by
  have hadds : Adds u (transitionPeers db loaded false).2
      (restoreMissingPeersForUser cfg (transitionPeers db loaded false).2 u).2 :=
    (restoreMissingPeersForUser_writes _ u).adds
  have hflag' := (hadds.flag? u).trans hflag
  refine ⟨fun hf => ?_, fun _ => provisioned_restore cfg _ u, fun _ q hq hu ht => ?_⟩
  · rw [hflag'] at hf
    cases hf
  · rcases hadds.new q hq with hq | ⟨-, hpending⟩
    · refine live_of_unblock hc q hq hu ?_
      unfold Db.Tombstoned at ht ⊢
      rwa [hadds.devices] at ht
    · rw [hpending]
      rfl

/-- A lifecycle sequence of one account only answers for that account. -/
theorem Db.Agrees.of_owner (hwf : db.WF) (h : db.Agrees) (hw : Writes (OfOwner u) db db')
    (hown : AgreesFor u db') : db'.Agrees := by
  intro v
  by_cases hvu : u = v
  · exact hvu ▸ hown
  · refine (h v).writes hwf (hw.mono ?_)
    intro b w hof
    cases w with
    | user row => exact fun hid => absurd (hof.symm.trans hid) hvu
    | peers f => exact fun p hp hpv => by rw [hof.1 p hp fun hpu => hvu (hpu.symm.trans hpv)]
    | newPeer row => exact fun hid => absurd (hof.symm.trans hid) hvu
    | _ => exact hof.elim

theorem agreesFor_localLifecycle (hwf : db.WF) (h : AgreesFor u db) (row : User) {old : User}
    (hid : row.id = u) (hold : db.user? u = some old) (hflag : old.isBlocked = row.isBlocked)
    (total : Option Nat) (now : Time) :
    AgreesFor u (applyLocalLifecycleState cfg db row total now).2 := by
  subst hid
  let desired := desiredStatus row (total.getD (loadLocalTotalBytes db row.id)) now
  let blocked : Bool := desired ≠ .active
  let saved := db.saveUser { row with lifecycleStatus := desired, isBlocked := blocked }
  have hsaved : saved.WF := hwf.save_user _
  have hc : Complete row.id (loadPeers saved row.id) saved := complete_loadPeers hsaved row.id
  have hnew : saved.flag? row.id = some blocked :=
    flag?_save { row with lifecycleStatus := desired, isBlocked := blocked } hold
  unfold applyLocalLifecycleState
  show AgreesFor row.id (Prod.snd (if (row.isBlocked || _) && !blocked
    then (_, (restoreMissingPeersForUser cfg
      (transitionPeers saved (loadPeers saved row.id) blocked).2 row.id).2)
    else (_, (transitionPeers saved (loadPeers saved row.id) blocked).2)))
  cases hb : blocked with
  | true =>
      rw [hb] at hnew
      rw [if_neg (by simp)]
      exact agrees_block hnew hc
  | false =>
      rw [hb] at hnew
      split
      · exact agrees_restore hnew hc
      · next hwas =>
          -- the account was not blocked before, so nothing is missing
          have hrow : row.isBlocked = false := by
            cases hr : row.isBlocked with
            | false => rfl
            | true => simp [hr] at hwas
          have hstored : db.flag? row.id = some false := by
            unfold Db.flag?
            rw [hold, Option.map_some, hflag, hrow]
          exact agrees_unblock hnew hc (h.provisioned hstored)

theorem Db.Agrees.localLifecycle (hwf : db.WF) (h : db.Agrees) (row : User) {old : User}
    (hold : db.user? row.id = some old) (hflag : old.isBlocked = row.isBlocked)
    (hstamp : old.trafficResetAt = row.trafficResetAt) (total : Option Nat) (now : Time) :
    (applyLocalLifecycleState cfg db row total now).2.Agrees :=
  h.of_owner hwf (applyLocalLifecycleState_writes hwf
    ⟨old, Rows.mem_of_get? hold, Rows.key_of_get? hold, hstamp⟩ total now)
    (agreesFor_localLifecycle hwf (h row.id) row rfl hold hflag total now)

theorem Db.Agrees.enforceLocal (hwf : db.WF) (h : db.Agrees) (v : UserId) (now : Time) :
    (enforceLocalLifecycleForUser cfg db v now).2.Agrees := by
  unfold enforceLocalLifecycleForUser
  cases hv : db.user? v with
  | none => exact h
  | some user =>
      show Db.Agrees (Prod.snd (if _ then _ else _))
      split
      · exact h
      · rw [← (Rows.key_of_get? hv : user.id = v)] at hv
        exact h.localLifecycle hwf user hv rfl rfl none now

/-- Blocking an account outright. -/
theorem Db.Agrees.blockAll (hwf : db.WF) (h : db.Agrees) {user : User}
    (hu : db.user? user.id = some user) :
    (transitionPeers (db.saveUser { user with isBlocked := true })
      (loadPeers (db.saveUser { user with isBlocked := true }) user.id) true).2.Agrees := by
  refine h.of_owner hwf (blockAll_writes hwf (updates_of_user? hu)) (agrees_block ?_ ?_)
  · exact flag?_save { user with isBlocked := true } hu
  · exact complete_loadPeers (hwf.save_user _) user.id

theorem Db.Agrees.combinedLimit (hwf : db.WF) (h : db.Agrees) (row : RemnawaveUser) :
    (enforceRemnawaveCombinedLimit db row).2.Agrees := by
  unfold enforceRemnawaveCombinedLimit
  split
  · exact h
  cases hu : db.user? row.userId with
  | none => exact h
  | some user =>
      rw [← (Rows.key_of_get? hu : user.id = row.userId)] at hu
      exact h.blockAll hwf hu

theorem Db.Agrees.combinedLimitForUser (hwf : db.WF) (h : db.Agrees) (v : UserId) :
    (enforceRemnawaveCombinedLimitForUser db v).2.Agrees := by
  unfold enforceRemnawaveCombinedLimitForUser
  cases db.profileOf? v with
  | none => exact h
  | some row => exact h.combinedLimit hwf row

/-! ## Node results -/

theorem Db.Agrees.entry {loaded : String → Option PeerId} {st : PeerResults} (hwf : st.db.WF)
    (h : st.db.Agrees) {data : PeerSyncResult} (hactive : data.status = some "active")
    (now : Time) : (applyPeerEntry cfg loaded st data now).db.Agrees := by
  refine applyPeerEntry_keeps (I := fun st => st.db.Agrees) hwf h ?_ ?_
  · intro peer hmem _ v
    exact (h v).reading hwf hmem hactive now
  · intro st' v hwf' hread
    have hlocal : Writes (OfOwner v) st'.db (enforceLocalLifecycleForUser cfg st'.db v now).2 :=
      enforceLocalLifecycleForUser_writes hwf' v now
    exact (hread.enforceLocal hwf' v now).combinedLimitForUser (hlocal.wf hwf') v

theorem Db.Agrees.entries {loaded : String → Option PeerId} (now : Time)
    (results : List PeerSyncResult) :
    ∀ {st : PeerResults}, st.db.WF → st.db.Agrees →
      (∀ data ∈ results, data.status = some "active") →
      (applyPeerEntries cfg loaded now results st).db.Agrees := by
  intro st hwf h hactive
  refine applyPeerEntries_keeps (I := fun st => st.db.Agrees) results ?_ hwf h
  intro data hdata st hwf h
  exact h.entry hwf (hactive data hdata) now

theorem Db.Agrees.results (hwf : db.WF) (h : db.Agrees) (nodeId : NodeId)
    {results : List PeerSyncResult} (hactive : ∀ data ∈ results, data.status = some "active")
    (now : Time) : (applyPeerResults cfg db nodeId results now).db.Agrees := by
  have hst : (PeerResults.db { db }).Agrees := h
  exact Db.Agrees.entries now results hwf hst hactive

/-- Confirming a removal moves no peer in or out of the live states. -/
theorem confirmPeer_live (db : Db) (nodeId : NodeId) (seen : List String) (p : Peer) :
    (confirmPeer db nodeId seen p).status.live = p.status.live := by
  unfold confirmPeer
  split
  · next hconf =>
      have hst : p.status = .pendingDelete := by
        unfold removalConfirmed at hconf
        simp only [Bool.and_eq_true, decide_eq_true_eq] at hconf
        exact hconf.1.2
      rw [hst]
      rfl
  · rfl

theorem Db.Agrees.keeps {P : Db → Write → Prop} (hwf : db.WF) (h : db.Agrees)
    (hP : ∀ v db w, P db w → Keeps v db w) (hw : Writes P db db') : db'.Agrees :=
  fun v => (h v).writes hwf (hw.mono fun db w => hP v db w)

theorem Db.Agrees.releases (hwf : db.WF) (h : db.Agrees) (hw : Writes Releases db db') :
    db'.Agrees :=
  h.keeps hwf (fun _ _ w hw => by cases w <;> first | exact hw.elim | trivial) hw

theorem Db.Agrees.purges (hwf : db.WF) (h : db.Agrees) (hw : Writes Purges db db') :
    db'.Agrees :=
  h.keeps hwf (fun _ _ w hw => by cases w <;> first | exact hw.elim | trivial) hw

theorem Db.Agrees.saveNode (hwf : db.WF) (h : db.Agrees) (row : Node) :
    (db.saveNode row).Agrees := fun v => (h v).same hwf rfl rfl rfl Rows.map_key_save

theorem Db.Agrees.saveProfile (hwf : db.WF) (h : db.Agrees) (row : RemnawaveUser) :
    (db.saveProfile row).Agrees := fun v => (h v).same hwf rfl rfl rfl rfl

theorem Db.Agrees.syncResult (hwf : db.WF) (h : db.Agrees) {node : Node} (hn : node ∈ db.nodes)
    {data : SyncResult} (hactive : ∀ entry ∈ data.peers, entry.status = some "active")
    (now : Time) : (applySyncResult cfg db node data now).db.Agrees := by
  let saved := db.saveNode (syncedNode node data now)
  let results := (applyPeerResults cfg saved node.id data.peers now).db
  let confirmed := (confirmRemovals cfg saved node.id data now).db
  have hsaved : saved.WF := hwf.save_node _
  have hresults : results.Agrees := (h.saveNode hwf _).results hsaved node.id hactive now
  have hentries : Writes (OfEntries data.peers now) saved results :=
    applyPeerResults_writes hsaved node.id data.peers now
  have hconf : confirmed.Agrees := by
    intro v
    exact (hresults v).map_peers (hentries.wf hsaved)
      (peersOk_confirmPeer results node.id (data.peers.map (·.publicKey))).same
      fun p _ _ => confirmPeer_live results node.id _ p
  have hwfc : confirmed.WF := Writes.wf (syncConfirmed_writes hwf hn data now) hwf
  have hrelease : Writes Releases confirmed
      (releaseDeviceIps confirmed (releasedCandidates confirmed node.id) now) :=
    releaseDeviceIps_writes hwfc _ now
  exact (hconf.releases hwfc hrelease).purges (hrelease.wf hwfc)
    (purgeConfirmedRemnawaveDeletes_writes _)

theorem Db.Agrees.heartbeatResult (hwf : db.WF) (h : db.Agrees) (node : Node)
    {data : HeartbeatResult} (hactive : ∀ entry ∈ data.peers, entry.status = some "active")
    (now : Time) : (applyHeartbeatResult cfg db node data now).db.Agrees := by
  have hsaved := h.saveNode hwf (applyNodeHeartbeatResult node data now)
  unfold applyHeartbeatResult
  dsimp only
  split
  · exact hsaved.results (hwf.save_node _) node.id hactive now
  · exact hsaved

end Passes

end VpnPanel.Backend
