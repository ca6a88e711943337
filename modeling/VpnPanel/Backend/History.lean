import VpnPanel.Backend.Refine

/-!
# What rows keep

A device row keeps its keys and, once set, its tombstone; its address moves at
most once, into `released_vpn_ip`. A peer row keeps its identity and is never
created for a tombstoned device. Both hold across any sequence of writes.
-/

namespace VpnPanel.Backend

open VpnPanel.Lib

/-- `d'` is a later row of the device `d`. -/
structure DeviceHistory (d d' : Device) : Prop where
  id : d'.id = d.id
  userId : d'.userId = d.userId
  publicKey : d'.publicKey = d.publicKey
  privateKey : d'.privateKey = d.privateKey
  tombstone : d.deletedAt.isSome → d'.deletedAt = d.deletedAt
  address : (d'.vpnIp = d.vpnIp ∧ d'.releasedVpnIp = d.releasedVpnIp) ∨
    (d.vpnIp.isSome ∧ d'.vpnIp = none ∧ d'.releasedVpnIp = d.vpnIp ∧ d'.deletedAt.isSome)

namespace DeviceHistory

variable {d d' d'' : Device}

theorem refl (d : Device) : DeviceHistory d d :=
  ⟨rfl, rfl, rfl, rfl, fun _ => rfl, .inl ⟨rfl, rfl⟩⟩

theorem tombstoned (h : DeviceHistory d d') (hd : d.deletedAt.isSome) : d'.deletedAt.isSome := by
  rw [h.tombstone hd]
  exact hd

theorem trans (h : DeviceHistory d d') (h' : DeviceHistory d' d'') : DeviceHistory d d'' := by
  refine ⟨h'.id.trans h.id, h'.userId.trans h.userId, h'.publicKey.trans h.publicKey,
    h'.privateKey.trans h.privateKey, ?_, ?_⟩
  · intro hd
    exact (h'.tombstone (h.tombstoned hd)).trans (h.tombstone hd)
  · rcases h.address with ⟨hip, hrel⟩ | ⟨hsome, hnone, hrel, hdel⟩
    · rcases h'.address with ⟨hip', hrel'⟩ | ⟨hsome', hnone', hrel', hdel'⟩
      · exact .inl ⟨hip'.trans hip, hrel'.trans hrel⟩
      · rw [hip] at hsome' hrel'
        exact .inr ⟨hsome', hnone', hrel', hdel'⟩
    · -- an address that is gone cannot be released again
      rcases h'.address with ⟨hip', hrel'⟩ | ⟨hsome', -⟩
      · exact .inr ⟨hsome, hip'.trans hnone, hrel'.trans hrel, h'.tombstoned hdel⟩
      · rw [hnone] at hsome'
        cases hsome'

theorem tombstonedAt (d : Device) (at_ : Time) : DeviceHistory d (d.tombstonedAt at_) := by
  refine ⟨rfl, rfl, rfl, rfl, ?_, .inl ⟨rfl, rfl⟩⟩
  intro hd
  obtain ⟨t, ht⟩ := Option.isSome_iff_exists.mp hd
  show d.deletedAt.or (some at_) = d.deletedAt
  rw [ht]
  rfl

theorem released {at_ : Time} (hdel : d.deletedAt.isSome) (hip : d.vpnIp.isSome) :
    DeviceHistory d (d.released at_) :=
  ⟨rfl, rfl, rfl, rfl, fun _ => rfl, .inr ⟨hip, rfl, rfl, hdel⟩⟩

end DeviceHistory

/-- The rows of `db` are later rows of `base`, or new. -/
structure History (base db : Db) : Prop where
  nextId : base.nextId ≤ db.nextId
  devices : ∀ d' ∈ db.devices, (∃ d ∈ base.devices, DeviceHistory d d') ∨ base.nextId ≤ d'.id
  peers : ∀ p' ∈ db.peers, (∃ p ∈ base.peers, p.Same p') ∨
    ∀ d ∈ base.devices, d.id = p'.deviceId → d.deletedAt = none

namespace History

variable {base db : Db}

theorem refl (db : Db) : History db db :=
  ⟨Nat.le_refl _, fun d hd => .inl ⟨d, hd, .refl d⟩, fun p hp => .inl ⟨p, hp, .refl p⟩⟩

/-- The row of `base` behind a row that is still there. -/
theorem device_of_id (h : History base db) (hwf : base.WF) {d d' : Device} (hd : d ∈ base.devices)
    (hd' : d' ∈ db.devices) (hid : d'.id = d.id) : DeviceHistory d d' := by
  rcases h.devices d' hd' with ⟨e, he, hhist⟩ | hnew
  · rwa [hwf.device_eq he hd (hhist.id.symm.trans hid)] at hhist
  · have hlt : d.id < base.nextId := hwf.deviceFresh d hd
    rw [hid] at hnew
    exact absurd hlt (Nat.not_lt.mpr hnew)

/-- A rewrite of device rows along their history. -/
theorem map_devices (h : History base db) {f : Device → Device}
    (hf : ∀ d ∈ db.devices, DeviceHistory d (f d)) :
    History base { db with devices := db.devices.map f } := by
  refine ⟨h.nextId, ?_, h.peers⟩
  intro d'' hd''
  obtain ⟨d', hd', rfl⟩ := List.mem_map.mp hd''
  rcases h.devices d' hd' with ⟨d, hd, hhist⟩ | hnew
  · exact .inl ⟨d, hd, hhist.trans (hf d' hd')⟩
  · rw [← (hf d' hd').id] at hnew
    exact .inr hnew

theorem map_peers (h : History base db) {f : Peer → Peer} (hf : ∀ p ∈ db.peers, p.Same (f p)) :
    History base (db.mapPeers f) := by
  refine ⟨h.nextId, h.devices, ?_⟩
  intro p'' hp''
  obtain ⟨p', hp', rfl⟩ := List.mem_map.mp hp''
  rcases h.peers p' hp' with ⟨p, hp, hsame⟩ | hnew
  · exact .inl ⟨p, hp, hsame.trans (hf p' hp')⟩
  · refine .inr fun d hd hid => hnew d hd ?_
    rw [hid, (hf p' hp').deviceId]

theorem save_device (h : History base db) (hdb : db.WF) {d row : Device} (hd : d ∈ db.devices)
    (hrow : DeviceHistory d row) : History base (db.saveDevice row) := by
  apply h.map_devices
  intro e he
  by_cases hid : e.id = row.id
  · rw [if_pos hid, hdb.device_eq he hd (hid.trans hrow.id)]
    exact hrow
  · rw [if_neg hid]
    exact .refl e

theorem new_peer (h : History base db) (hwf : base.WF) {row : Peer}
    (hok : NewPeerOk db row) : History base (Write.apply db (.newPeer row)) := by
  refine ⟨h.nextId.trans (Nat.le_succ _), h.devices, ?_⟩
  intro p hp
  rcases List.mem_append.mp hp with hp | hp
  · exact h.peers p hp
  · rw [List.mem_singleton.mp hp]
    obtain ⟨d', hd', hid', -, hlive⟩ := hok.device
    refine .inr fun d hd hid => ?_
    -- a tombstone of `base` would still be on the row the guard saw
    have hhist := h.device_of_id hwf hd hd' (hid'.trans hid.symm)
    cases hdel : d.deletedAt with
    | none => rfl
    | some t =>
        have := hhist.tombstone (by rw [hdel]; rfl)
        rw [hlive, hdel] at this
        cases this

theorem apply (h : History base db) (hwf : base.WF) (hdb : db.WF) {w : Write} (hok : w.Ok db) :
    History base (w.apply db) := by
  have hsucc : base.nextId ≤ db.nextId + 1 := h.nextId.trans (Nat.le_succ _)
  cases w with
  | user row => exact ⟨h.nextId, h.devices, h.peers⟩
  | newUser row => exact ⟨hsucc, h.devices, h.peers⟩
  | profile row => exact ⟨h.nextId, h.devices, h.peers⟩
  | newImport row imported => exact ⟨hsucc, h.devices, h.peers⟩
  | node row => exact ⟨h.nextId, h.devices, h.peers⟩
  | newNode row => exact ⟨hsucc, h.devices, h.peers⟩
  | newDevice row =>
      refine ⟨hsucc, ?_, h.peers⟩
      intro d hd
      rcases List.mem_append.mp hd with hd | hd
      · exact h.devices d hd
      · rw [List.mem_singleton.mp hd, hok.id]
        exact .inr h.nextId
  | tombstone row =>
      obtain ⟨old, hold, at_, rfl⟩ := hok
      refine (h.save_device hdb hold (.tombstonedAt old at_)).map_peers ?_
      intro p _
      unfold deletedDevicePeer
      split
      · exact ⟨rfl, rfl, rfl, rfl, rfl⟩
      · exact .refl p
  | release row at_ => exact h.save_device hdb hok.mem (.released hok.tombstoned hok.holds)
  | peers f => exact h.map_peers hok.same
  | newPeer row => exact h.new_peer hwf hok
  | reading row data now =>
      show History base (applyPeerResult db row data now).2
      rw [applyPeerResult_db]
      refine ⟨h.nextId, h.devices, ?_⟩
      intro p hp
      rcases Rows.mem_save.mp hp with ⟨rfl, _⟩ | ⟨hp, _⟩
      · have hsame := peerAfterResult_same db row data
        rcases h.peers row hok with ⟨q, hq, hq'⟩ | hnew
        · exact .inl ⟨q, hq, hq'.trans hsame⟩
        · refine .inr fun d hd hid => hnew d hd ?_
          rw [hid, hsame.deviceId]
      · exact h.peers p hp
  | resetTraffic row at_ => exact ⟨h.nextId, h.devices, h.peers⟩
  | deleteUser id =>
      exact ⟨h.nextId, fun d hd => h.devices d (List.mem_filter.mp hd).1,
        fun p hp => h.peers p (List.mem_filter.mp hp).1⟩
  | deleteNode id =>
      exact ⟨h.nextId, h.devices, fun p hp => h.peers p (List.mem_filter.mp hp).1⟩

end History

/-- Any sequence of guarded writes extends the history of the tables. -/
theorem Writes.history {P : Db → Write → Prop} {base db : Db} (hwf : base.WF)
    (h : Writes P base db) : History base db := by
  have hboth : db.WF ∧ History base db :=
    h.keeps (I := fun db => db.WF ∧ History base db)
      (fun _ w _ hok hI => ⟨Write.apply_wf hI.1 w hok, hI.2.apply hwf hI.1 hok⟩)
      ⟨hwf, .refl base⟩
  exact hboth.2

/-! ## The moment of a release -/

/-- Ordinary writes leave every address where it is. -/
theorem vpnIp_of_ordinary {base db : Db} (hwf : base.WF) {cfg : Config} {call : Call}
    (h : Writes (Ordinary cfg call) base db)
    {d d' : Device} (hd : d ∈ base.devices) (hd' : d' ∈ db.devices) (hid : d'.id = d.id) :
    d'.vpnIp = d.vpnIp := by
  let I : Db → Prop := fun db => (db.WF ∧ History base db) ∧
    ∀ e ∈ db.devices, e.id = d.id → e.vpnIp = d.vpnIp
  have hstep : ∀ db w, Ordinary cfg call db w → w.Ok db → I db → I (w.apply db) := by
    rintro db w hw hok ⟨⟨hdb, hhist⟩, hip⟩
    refine ⟨⟨Write.apply_wf hdb w hok, hhist.apply hwf hdb hok⟩, ?_⟩
    cases w with
    | release row at_ => exact hw.elim
    | newDevice row =>
        intro e he heid
        rcases List.mem_append.mp he with he | he
        · exact hip e he heid
        · have hlt : d.id < base.nextId := hwf.deviceFresh d hd
          rw [List.mem_singleton.mp he, hok.id] at heid
          exact absurd hlt (Nat.not_lt.mpr (heid ▸ hhist.nextId))
    | tombstone row =>
        obtain ⟨old, hold, at_, rfl⟩ := hok
        intro e he heid
        rcases Rows.mem_save.mp he with ⟨rfl, _⟩ | ⟨he, _⟩
        · exact hip old hold heid
        · exact hip e he heid
    | reading row data now =>
        show ∀ e ∈ (applyPeerResult db row data now).2.devices, _
        rw [applyPeerResult_db]
        exact hip
    | deleteUser id => exact fun e he => hip e (List.mem_filter.mp he).1
    | _ => exact hip
  have hstart : I base := by
    refine ⟨⟨hwf, .refl base⟩, ?_⟩
    intro e he heid
    rw [hwf.device_eq he hd heid]
  exact (h.keeps hstep hstart).2 d' hd' hid

/-- A release happens with every peer of the device confirmed `deleted`, and
leaves the peers as they are. -/
theorem confirmed_of_releases {base db : Db} (hwf : base.WF) (h : Writes Releases base db)
    {d d' : Device} (hd : d ∈ base.devices) (hd' : d' ∈ db.devices) (hid : d'.id = d.id)
    (hip : d'.vpnIp ≠ d.vpnIp) :
    db.peers = base.peers ∧ ∀ p ∈ db.peers, p.deviceId = d.id → p.status = .deleted := by
  let I : Db → Prop := fun db => db.WF ∧ db.peers = base.peers ∧
    ∀ e ∈ db.devices, e.id = d.id → e.vpnIp = d.vpnIp ∨
      ∀ p ∈ base.peers, p.deviceId = d.id → p.status = .deleted
  have hstep : ∀ db w, Releases db w → w.Ok db → I db → I (w.apply db) := by
    rintro db w hw hok ⟨hdb, hpeers, hip⟩
    refine ⟨Write.apply_wf hdb w hok, ?_⟩
    cases w with
    | release row at_ =>
        refine ⟨hpeers, ?_⟩
        intro e he heid
        rcases Rows.mem_save.mp he with ⟨rfl, _⟩ | ⟨he, _⟩
        · refine .inr fun p hp hpd => ?_
          rw [← hpeers] at hp
          exact hok.confirmed p hp (hpd.trans heid.symm)
        · exact hip e he heid
    | _ => exact hw.elim
  have hstart : I base := by
    refine ⟨hwf, rfl, ?_⟩
    intro e he heid
    rw [hwf.device_eq he hd heid]
    exact .inl rfl
  obtain ⟨-, hpeers, hall⟩ := h.keeps hstep hstart
  refine ⟨hpeers, ?_⟩
  rcases hall d' hd' hid with h | h
  · exact absurd h hip
  · rw [hpeers]
    exact h

/-- The account deletions at the end of a request only remove rows. -/
theorem subset_of_purges {base db : Db} (h : Writes Purges base db) :
    (∀ d ∈ db.devices, d ∈ base.devices) ∧ ∀ p ∈ db.peers, p ∈ base.peers := by
  refine h.keeps (I := fun db => (∀ d ∈ db.devices, d ∈ base.devices) ∧
    ∀ p ∈ db.peers, p ∈ base.peers) ?_ ⟨fun _ hd => hd, fun _ hp => hp⟩
  rintro db w hw - ⟨hdev, hpeer⟩
  cases w with
  | deleteUser id =>
      exact ⟨fun d hd => hdev d (List.mem_filter.mp hd).1,
        fun p hp => hpeer p (List.mem_filter.mp hp).1⟩
  | _ => exact hw.elim

/-- **Moment of a release.** A request that moves a device's address ends with
every peer of the device confirmed `deleted`. -/
theorem Phases.release_confirmed {base db : Db} (hwf : base.WF) {cfg : Config} {call : Call}
    (h : Phases cfg call base db)
    {d d' : Device} (hd : d ∈ base.devices) (hd' : d' ∈ db.devices) (hid : d'.id = d.id)
    (hip : d'.vpnIp ≠ d.vpnIp) : ∀ p ∈ db.peers, p.deviceId = d.id → p.status = .deleted := by
  obtain ⟨db₁, db₂, h₁, h₂, h₃⟩ := h
  have hwf₁ := h₁.wf hwf
  obtain ⟨hdev, hpeer⟩ := subset_of_purges h₃
  have hd₂ := hdev d' hd'
  obtain ⟨d₁, hd₁, hhist⟩ : ∃ d₁ ∈ db₁.devices, DeviceHistory d₁ d' := by
    rcases (h₂.history hwf₁).devices d' hd₂ with hold | hnew
    · exact hold
    · have hlt : d.id < base.nextId := hwf.deviceFresh d hd
      have hle := (h₁.history hwf).nextId
      rw [hid] at hnew
      exact absurd (Nat.lt_of_lt_of_le hlt hle) (Nat.not_lt.mpr hnew)
  have hid₁ : d₁.id = d.id := hhist.id.symm.trans hid
  have hip₁ := vpnIp_of_ordinary hwf h₁ hd hd₁ hid₁
  intro p hp hpd
  rw [← hip₁] at hip
  exact (confirmed_of_releases hwf₁ h₂ hd₁ hd₂ hhist.id hip).2 p (hpeer p hp)
    (hpd.trans hid₁.symm)

end VpnPanel.Backend
