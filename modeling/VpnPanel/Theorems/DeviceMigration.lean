import VpnPanel.Backend.Migration

/-!
# Migration 0019 preserves ownership

The guard refuses exactly the databases the new constraints cannot hold; on the
others the backfill meets no constraint, and the downgrade of its result gives
the old tables back.
-/

namespace VpnPanel.Theorems

open VpnPanel.Lib VpnPanel.Backend.Migration

variable {ρ σ : Type}

/-! ## The guard -/

def SharedKey (db : Legacy ρ σ) : Prop :=
  ∃ u ∈ db.users, ∃ v ∈ db.users, u.id ≠ v.id ∧ u.publicKey = v.publicKey ∧ u.publicKey ≠ none

def SharedAddress (db : Legacy ρ σ) : Prop :=
  ∃ u ∈ db.users, ∃ v ∈ db.users, u.id ≠ v.id ∧ u.vpnIp = v.vpnIp ∧ u.vpnIp ≠ none

def OrphanedPeer (db : Legacy ρ σ) : Prop := ∃ p ∈ db.peers, ∀ u ∈ db.users, u.id ≠ p.userId

/-- What the guard lets through. -/
structure Mappable (db : Legacy ρ σ) : Prop where
  keys : Columns.Unique (·.publicKey) db.users
  addresses : Columns.Unique (·.vpnIp) db.users
  owners : ∀ p ∈ db.peers, ∃ u ∈ db.users, u.id = p.userId

theorem mappable_iff {db : Legacy ρ σ} (h : db.Valid) :
    Mappable db ↔ ¬(SharedKey db ∨ SharedAddress db ∨ OrphanedPeer db) := by
  have hkeys : ¬Columns.Unique (·.publicKey) db.users ↔ SharedKey db :=
    Columns.not_unique_iff h.users
  have hips : ¬Columns.Unique (·.vpnIp) db.users ↔ SharedAddress db :=
    Columns.not_unique_iff h.users
  have howners : (¬∀ p ∈ db.peers, ∃ u ∈ db.users, u.id = p.userId) ↔ OrphanedPeer db := by
    simp [OrphanedPeer]
  constructor
  · rintro ⟨hk, hi, ho⟩ (hshared | hshared | horphan)
    · exact hkeys.mpr hshared hk
    · exact hips.mpr hshared hi
    · exact howners.mpr horphan ho
  · intro hnone
    refine ⟨?_, ?_, ?_⟩
    · by_contra hk
      exact hnone (.inl (hkeys.mp hk))
    · by_contra hi
      exact hnone (.inr (.inl (hips.mp hi)))
    · by_contra ho
      exact hnone (.inr (.inr (howners.mp ho)))

/-- The three queries of the guard. -/
theorem refuseUnmappableLegacyData_cases (db : Legacy ρ σ) :
    (Mappable db ∧ refuseUnmappableLegacyData db = .ok ()) ∨
    (¬Mappable db ∧ ∃ failure, refuseUnmappableLegacyData db = .error failure ∧
      failure.refused = true) := by
  unfold refuseUnmappableLegacyData
  rcases hkeys : Columns.shared LegacyUser.publicKey db.users with _ | ⟨⟨key, owners⟩, more⟩
  · rcases hips : Columns.shared LegacyUser.vpnIp db.users with _ | ⟨⟨ip, owners⟩, more⟩
    · dsimp only
      split
      · next horphaned =>
        refine .inr ⟨fun hmap => horphaned ?_, _, rfl, rfl⟩
        rw [List.length_eq_zero_iff, List.filter_eq_nil_iff]
        intro p hp
        obtain ⟨u, hu, hid⟩ := hmap.owners p hp
        simpa using ⟨u, hu, hid⟩
      · next hnone =>
        refine .inl ⟨⟨Columns.shared_eq_nil.mp hkeys, Columns.shared_eq_nil.mp hips, ?_⟩, rfl⟩
        intro p hp
        rw [not_not, List.length_eq_zero_iff, List.filter_eq_nil_iff] at hnone
        simpa using hnone p hp
    · refine .inr ⟨fun hmap => ?_, _, rfl, rfl⟩
      rw [Columns.shared_eq_nil.mpr hmap.addresses] at hips
      cases hips
  · refine .inr ⟨fun hmap => ?_, _, rfl, rfl⟩
    rw [Columns.shared_eq_nil.mpr hmap.keys] at hkeys
    cases hkeys

/-! ## The backfill -/

/-- The devices of the loop, from the `n`-th on. -/
def defaultDevices (uuid4 : Nat → String) : Nat → List (User ρ) → List Device
  | _, [] => []
  | n, u :: users => defaultDevice (uuid4 n) u :: defaultDevices uuid4 (n + 1) users

/-- The peers once every device in the list took its owner's peers. -/
def assign (devices : List Device) (peers : List (Peer σ)) : List (Peer σ) :=
  peers.map fun p => match devices.find? (·.userId = p.userId) with
    | some d => { p with deviceId := some d.id }
    | none => p

theorem defaultDevices_map {α : Type} {uuid4 : Nat → String} {f : Device → α} {g : User ρ → α}
    (hfg : ∀ id u, f (defaultDevice id u) = g u) :
    ∀ (n : Nat) (users : List (User ρ)), (defaultDevices uuid4 n users).map f = users.map g := by
  intro n users
  induction users generalizing n with
  | nil => rfl
  | cons u users ih =>
      rw [defaultDevices, List.map_cons, List.map_cons, hfg, ih]

theorem mem_defaultDevices {uuid4 : Nat → String} {d : Device} {n : Nat} {users : List (User ρ)}
    (h : d ∈ defaultDevices uuid4 n users) :
    ∃ i, n ≤ i ∧ ∃ u ∈ users, d = defaultDevice (uuid4 i) u := by
  induction users generalizing n with
  | nil => cases h
  | cons u users ih =>
      rcases List.mem_cons.mp h with rfl | h
      · exact ⟨n, Nat.le_refl n, u, List.mem_cons_self, rfl⟩
      · obtain ⟨i, hi, v, hv, hd⟩ := ih h
        exact ⟨i, by omega, v, List.mem_cons_of_mem u hv, hd⟩

theorem defaultDevice_mem (uuid4 : Nat → String) {u : User ρ} {users : List (User ρ)}
    (h : u ∈ users) (n : Nat) :
    ∃ i, defaultDevice (uuid4 i) u ∈ defaultDevices uuid4 n users := by
  induction users generalizing n with
  | nil => cases h
  | cons v users ih =>
      rcases List.mem_cons.mp h with rfl | h
      · exact ⟨n, List.mem_cons_self⟩
      · obtain ⟨i, hi⟩ := ih h (n + 1)
        exact ⟨i, List.mem_cons_of_mem _ hi⟩

/-- Distinct ids are drawn for distinct devices. -/
theorem defaultDevices_distinct {uuid4 : Nat → String} (huuid : Function.Injective uuid4) :
    ∀ (n : Nat) (users : List (User ρ)),
      Rows.Distinct Device.id (defaultDevices uuid4 n users) := by
  intro n users
  induction users generalizing n with
  | nil => exact .nil
  | cons u users ih =>
      refine List.nodup_cons.mpr ⟨fun hmem => ?_, ih (n + 1)⟩
      obtain ⟨d, hd, hid⟩ := List.mem_map.mp hmem
      obtain ⟨i, hi, v, -, rfl⟩ := mem_defaultDevices hd
      have : i = n := huuid hid
      omega

/-- The constraints on `devices` while it is filled. -/
structure Insertable (users : List (User ρ)) (devices : List Device) : Prop where
  ids : Rows.Distinct Device.id devices
  keys : Columns.Unique Device.publicKey devices
  addresses : Columns.Unique Device.vpnIp devices
  owners : ∀ d ∈ devices, ∃ u ∈ users, u.id = d.userId

theorem Insertable.sublist {users : List (User ρ)} {devices some : List Device}
    (h : Insertable users devices) (hs : some.Sublist devices) : Insertable users some where
  ids := List.Nodup.sublist (hs.map _) h.ids
  keys := h.keys.sublist hs
  addresses := h.addresses.sublist hs
  owners := fun d hd => h.owners d (hs.subset hd)

/-- A device that breaks no constraint is inserted. -/
theorem insertDevice_ok {db : Owned ρ σ} {d : Device}
    (h : Insertable db.users (db.devices ++ [d])) :
    insertDevice d db = .ok { db with devices := db.devices ++ [d] } := by
  have hids : ¬(db.devices.any (·.id = d.id)) = true := by
    have hnew := h.ids
    unfold Rows.Distinct at hnew
    rw [List.map_append, List.nodup_append] at hnew
    rw [List.any_eq_true]
    rintro ⟨x, hx, hid⟩
    exact hnew.2.2 x.id (List.mem_map_of_mem hx) d.id (by simp) (of_decide_eq_true hid)
  have hkeys :
      ¬(db.devices.any fun x => x.publicKey ≠ none ∧ x.publicKey = d.publicKey) = true := by
    rw [List.any_eq_true]
    rintro ⟨x, hx, hshared⟩
    obtain ⟨hvalue, heq⟩ := of_decide_eq_true hshared
    exact (Columns.unique_concat.mp h.keys).2 x hx hvalue heq
  have hips : ¬(db.devices.any fun x => x.vpnIp ≠ none ∧ x.vpnIp = d.vpnIp) = true := by
    rw [List.any_eq_true]
    rintro ⟨x, hx, hshared⟩
    obtain ⟨hvalue, heq⟩ := of_decide_eq_true hshared
    exact (Columns.unique_concat.mp h.addresses).2 x hx hvalue heq
  have hfk : ¬(!db.users.any (·.id = d.userId)) = true := by
    obtain ⟨u, hu, hid⟩ := h.owners d (List.mem_append_right _ (List.mem_singleton_self d))
    simpa using ⟨u, hu, hid⟩
  unfold insertDevice
  rw [if_neg hids, if_neg hkeys, if_neg hips, if_neg hfk]

/-- The devices that come later belong to other users. -/
theorem assign_cons {d : Device} {devices : List Device}
    (h : ∀ x ∈ devices, x.userId ≠ d.userId) (peers : List (Peer σ)) :
    assign devices (setDevice d.id d.userId peers) = assign (d :: devices) peers := by
  unfold assign setDevice
  rw [List.map_map]
  refine List.map_congr_left fun p _ => ?_
  by_cases hp : p.userId = d.userId
  · have hnone : devices.find? (·.userId = p.userId) = none := by
      rw [List.find?_eq_none]
      intro x hx
      simpa [hp] using h x hx
    have hfirst : (d :: devices).find? (·.userId = p.userId) = some d :=
      List.find?_cons_of_pos (by simpa using hp.symm)
    simp only [Function.comp, if_pos hp, hnone, hfirst]
  · have hnext : (d :: devices).find? (·.userId = p.userId) =
        devices.find? (·.userId = p.userId) :=
      List.find?_cons_of_neg (by simpa using fun heq => hp heq.symm)
    simp only [Function.comp, if_neg hp, hnext]

/-- **Loop.** The backfill meets no constraint that its devices together keep. -/
theorem backfillDefaultDevices_eq (uuid4 : Nat → String) :
    ∀ (users : List (User ρ)) (n : Nat) (db : Owned ρ σ),
      Insertable db.users (db.devices ++ defaultDevices uuid4 n users) →
      Rows.Distinct (·.id) users →
      backfillDefaultDevices uuid4 n users db = .ok { db with
        devices := db.devices ++ defaultDevices uuid4 n users
        peers := assign (defaultDevices uuid4 n users) db.peers } := by
  intro users
  induction users with
  | nil =>
      intro n db _ _
      have hpeers : assign [] db.peers = db.peers := List.map_id'' (fun _ => rfl) _
      rw [backfillDefaultDevices, defaultDevices, List.append_nil, hpeers]
  | cons u users ih =>
      intro n db hinsert hdistinct
      let d := defaultDevice (uuid4 n) u
      have hsplit : db.devices ++ defaultDevices uuid4 n (u :: users) =
          (db.devices ++ [d]) ++ defaultDevices uuid4 (n + 1) users := by
        rw [List.append_assoc]
        rfl
      rw [hsplit] at hinsert ⊢
      have hfirst : insertDevice d db = .ok { db with devices := db.devices ++ [d] } :=
        insertDevice_ok (hinsert.sublist (List.sublist_append_left _ _))
      obtain ⟨hu, htail⟩ := List.nodup_cons.mp hdistinct
      have hothers : ∀ x ∈ defaultDevices uuid4 (n + 1) users, x.userId ≠ d.userId := by
        intro x hx heq
        obtain ⟨i, -, v, hv, rfl⟩ := mem_defaultDevices hx
        exact hu (List.mem_map.mpr ⟨v, hv, heq⟩)
      show (insertDevice d db).bind _ = _
      rw [hfirst]
      show backfillDefaultDevices uuid4 (n + 1) users _ = _
      rw [ih (n + 1) _ hinsert htail]
      show Except.ok ({ db with devices := _, peers := assign _ (setDevice d.id d.userId _) } :
        Owned ρ σ) = _
      rw [assign_cons hothers]
      rfl

/-! ## The tables after the upgrade -/

theorem assign_toLegacyPeer (devices : List Device) (peers : List (Peer σ)) :
    (assign devices peers).map Peer.toLegacyPeer = peers.map Peer.toLegacyPeer := by
  unfold assign
  rw [List.map_map]
  refine List.map_congr_left fun p _ => ?_
  rw [Function.comp_apply]
  split
  · rfl
  · rfl

theorem mem_assign {devices : List Device} {peers : List (Peer σ)}
    (howners : ∀ p ∈ peers, ∃ d ∈ devices, d.userId = p.userId) {q : Peer σ}
    (hq : q ∈ assign devices peers) :
    ∃ d ∈ devices, q.deviceId = some d.id ∧ q.userId = d.userId := by
  obtain ⟨p, hp, rfl⟩ := List.mem_map.mp hq
  rcases hfind : devices.find? (·.userId = p.userId) with _ | d
  · obtain ⟨d, hd, hid⟩ := howners p hp
    have := List.find?_eq_none.mp hfind d hd
    exact absurd (by simpa using hid) this
  · refine ⟨d, List.mem_of_find?_eq_some hfind, ?_⟩
    have hid : d.userId = p.userId := by simpa using List.find?_some hfind
    rw [hfind]
    exact ⟨rfl, hid.symm⟩

/-- The tables that the backfill leaves. -/
def backfilled (uuid4 : Nat → String) (legacy : Legacy ρ σ) : Owned ρ σ :=
  let db := addColumns legacy
  let devices := defaultDevices uuid4 0 db.users
  { db with devices, peers := assign devices db.peers }

section Backfilled

variable {legacy : Legacy ρ σ} {uuid4 : Nat → String}

theorem addColumns_users (legacy : Legacy ρ σ) :
    (addColumns legacy).users.map User.toLegacyUser = legacy.users := by
  show (List.map _ _).map _ = _
  rw [List.map_map]
  exact List.map_id'' (fun _ => rfl) _

theorem addColumns_peers (legacy : Legacy ρ σ) :
    (addColumns legacy).peers.map Peer.toLegacyPeer = legacy.peers := by
  show (List.map _ _).map _ = _
  rw [List.map_map]
  exact List.map_id'' (fun _ => rfl) _

theorem backfilled_peers (legacy : Legacy ρ σ) (uuid4 : Nat → String) :
    (backfilled uuid4 legacy).peers.map Peer.toLegacyPeer = legacy.peers :=
  (assign_toLegacyPeer _ _).trans (addColumns_peers legacy)

theorem addColumns_distinct (h : legacy.Valid) :
    Rows.Distinct (·.id) (addColumns legacy).users := by
  have hids := h.users
  unfold Rows.Distinct at hids ⊢
  rwa [← addColumns_users legacy, List.map_map] at hids

/-- A column that the devices take over holds what the users' column held. -/
theorem unique_defaultDevices {f : Device → Option String} {g : LegacyUser ρ → Option String}
    (hfg : ∀ id (u : User ρ), f (defaultDevice id u) = g u.toLegacyUser)
    (h : Columns.Unique g legacy.users) :
    Columns.Unique f (defaultDevices uuid4 0 (addColumns legacy).users) := by
  have hvalues : (defaultDevices uuid4 0 (addColumns legacy).users).map f =
      legacy.users.map g := by
    rw [defaultDevices_map hfg, ← addColumns_users legacy, List.map_map]
    rfl
  rw [← Columns.unique_values, hvalues, Columns.unique_values]
  exact h

theorem insertable (hmap : Mappable legacy) (huuid : Function.Injective uuid4) :
    Insertable (addColumns legacy).users (backfilled uuid4 legacy).devices where
  ids := defaultDevices_distinct huuid 0 _
  keys := unique_defaultDevices (fun _ _ => rfl) hmap.keys
  addresses := unique_defaultDevices (fun _ _ => rfl) hmap.addresses
  owners := fun d hd => by
    obtain ⟨i, -, u, hu, rfl⟩ := mem_defaultDevices hd
    exact ⟨u, hu, rfl⟩

/-- One device for each user, in the order of the users. -/
theorem backfilled_userIds (legacy : Legacy ρ σ) (uuid4 : Nat → String) :
    (backfilled uuid4 legacy).devices.map Device.userId = legacy.users.map (·.id) := by
  show (defaultDevices _ _ _).map _ = _
  rw [defaultDevices_map (g := fun u : User ρ => u.id) (fun _ _ => rfl),
    ← addColumns_users legacy, List.map_map]
  rfl

theorem backfilled_distinct_userId (uuid4 : Nat → String) (h : legacy.Valid) :
    Rows.Distinct Device.userId (backfilled uuid4 legacy).devices := by
  unfold Rows.Distinct
  rw [backfilled_userIds]
  exact h.users

/-- Every peer points at its user's device. -/
theorem backfilled_owner (uuid4 : Nat → String) (hmap : Mappable legacy) :
    ∀ p ∈ (backfilled uuid4 legacy).peers, ∃ d ∈ (backfilled uuid4 legacy).devices,
      p.deviceId = some d.id ∧ p.userId = d.userId := by
  intro p hp
  refine mem_assign (fun q hq => ?_) hp
  have hq' : q.toLegacyPeer ∈ legacy.peers := by
    rw [← addColumns_peers legacy]
    exact List.mem_map_of_mem hq
  obtain ⟨u, hu, hid⟩ := hmap.owners _ hq'
  have hdevice : u.id ∈ (backfilled uuid4 legacy).devices.map Device.userId := by
    rw [backfilled_userIds]
    exact List.mem_map_of_mem hu
  obtain ⟨d, hd, hdu⟩ := List.mem_map.mp hdevice
  exact ⟨d, hd, hdu.trans hid⟩

theorem backfilled_valid (h : legacy.Valid) (hmap : Mappable legacy)
    (huuid : Function.Injective uuid4) : (backfilled uuid4 legacy).Valid := by
  have hinsert := insertable hmap huuid
  have howner := backfilled_owner uuid4 hmap
  have hpeers := backfilled_peers legacy uuid4
  refine ⟨addColumns_distinct h, ?_, hinsert.ids, ?_, hinsert.keys, hinsert.addresses,
    hinsert.owners, ?_, ?_, howner⟩
  · have hids := h.peers
    unfold Rows.Distinct at hids ⊢
    rwa [← hpeers, List.map_map] at hids
  · refine List.Nodup.of_map Prod.fst ?_
    rw [List.map_map]
    exact hinsert.ids
  · intro p hp hnone
    obtain ⟨d, -, hid, -⟩ := howner p hp
    rw [hnone] at hid
    cases hid
  · -- two peers of one device are two peers of its owner
    have hnodes := h.nodeUser
    unfold Rows.Distinct List.Nodup at hnodes ⊢
    rw [← hpeers, List.map_map, List.pairwise_map] at hnodes
    rw [List.pairwise_map]
    refine hnodes.imp_of_mem fun {p q} hp hq hne heq => hne ?_
    obtain ⟨d, hd, hpd, hpu⟩ := howner p hp
    obtain ⟨x, hx, hqx, hqu⟩ := howner q hq
    obtain ⟨hnode, hdevice⟩ := Prod.mk.inj heq
    have hdx : d = x :=
      hinsert.ids.eq_of_key hd hx (Option.some.inj (hpd.symm.trans (hdevice.trans hqx)))
    exact Prod.ext hnode (hpu.trans (hdx ▸ hqu.symm))

/-- The batch on `peers` meets no constraint. -/
theorem ownPeers_ok {db : Owned ρ σ} (h : db.Valid) : ownPeers db = .ok db := by
  have hids : ¬(db.peers.any (·.deviceId = none)) = true := by
    rw [List.any_eq_true]
    rintro ⟨p, hp, hnone⟩
    exact h.peersDeviceId p hp (of_decide_eq_true hnone)
  have howner : ¬(!db.peers.all fun p =>
      db.devices.any fun d => p.deviceId = some d.id ∧ p.userId = d.userId) = true := by
    simpa using h.peersDeviceOwner
  have hnodes : (db.peers.map fun p => (p.nodeId, p.deviceId)).Nodup := h.peersNodeDevice
  unfold ownPeers
  rw [if_neg hids, if_neg (not_not.mpr hnodes), if_neg howner]

theorem upgrade_ok (h : legacy.Valid) (hmap : Mappable legacy)
    (huuid : Function.Injective uuid4) :
    upgrade uuid4 legacy = .ok (backfilled uuid4 legacy) := by
  have hguard : refuseUnmappableLegacyData legacy = .ok () := by
    rcases refuseUnmappableLegacyData_cases legacy with ⟨-, hok⟩ | ⟨hno, -⟩
    · exact hok
    · exact absurd hmap hno
  have hloop := backfillDefaultDevices_eq uuid4 _ 0 (addColumns legacy)
    (insertable hmap huuid) (addColumns_distinct h)
  unfold upgrade
  rw [hguard]
  show (backfillDefaultDevices uuid4 0 _ _).bind ownPeers = _
  rw [hloop]
  exact ownPeers_ok (backfilled_valid h hmap huuid)

/-! ## The downgrade -/

/-- The credentials that are copied back are the ones the row still has. -/
theorem restoreUser_backfilled (h : legacy.Valid) {u : User ρ}
    (hu : u ∈ (addColumns legacy).users) :
    restoreUser (backfilled uuid4 legacy).devices u = .ok u := by
  obtain ⟨i, hd⟩ := defaultDevice_mem uuid4 hu 0
  have hone : (backfilled uuid4 legacy).devices.filter
      (fun d => d.userId = u.id ∧ d.isLegacyDefault ∧ d.deletedAt = none) =
      [defaultDevice (uuid4 i) u] := by
    rw [← (backfilled_distinct_userId uuid4 h).filter_key hd]
    refine List.filter_congr fun d hd => ?_
    obtain ⟨j, -, v, -, rfl⟩ := mem_defaultDevices hd
    exact decide_eq_decide.mpr (by simp [defaultDevice])
  unfold restoreUser
  rw [hone]
  simp [defaultDevice]

theorem restoreUsers_ok {devices : List Device} {users : List (User ρ)}
    (h : ∀ u ∈ users, restoreUser devices u = .ok u) : restoreUsers devices users = .ok users := by
  induction users with
  | nil => rfl
  | cons u users ih =>
      rw [restoreUsers, h u List.mem_cons_self,
        ih fun v hv => h v (List.mem_cons_of_mem u hv)]
      rfl

theorem refuseLossyDowngrade_ok {db : Owned ρ σ}
    (h : ∀ d ∈ db.devices, d.isLegacyDefault = true ∧ d.deletedAt = none) :
    refuseLossyDowngrade db = .ok () := by
  have htombstoned : db.devices.filter (fun d => d.deletedAt ≠ none) = [] := by
    rw [List.filter_eq_nil_iff]
    intro d hd
    simpa using (h d hd).2
  have hdevices : db.devices.filter (fun d => !d.isLegacyDefault) = [] := by
    rw [List.filter_eq_nil_iff]
    intro d hd
    simpa using (h d hd).1
  have hpeers : db.peers.flatMap (fun p =>
      db.devices.filter fun d => some d.id = p.deviceId ∧ !d.isLegacyDefault) = [] := by
    rw [List.flatMap_eq_nil_iff]
    intro p _
    rw [List.filter_eq_nil_iff]
    intro d hd
    simp [(h d hd).1]
  unfold refuseLossyDowngrade
  simp only [htombstoned, hdevices, hpeers, List.length_nil, ne_eq, not_true_eq_false, or_self,
    if_false]

/-- The guard of the downgrade. -/
theorem refuseLossyDowngrade_refused {db : Owned ρ σ} {d : Device} (hd : d ∈ db.devices)
    (hlossy : d.deletedAt ≠ none ∨ d.isLegacyDefault = false) :
    ∃ failure, refuseLossyDowngrade db = .error failure ∧ failure.refused = true := by
  unfold refuseLossyDowngrade
  dsimp only
  split
  · exact ⟨_, rfl, rfl⟩
  · next hlive =>
    have hnonlegacy : db.devices.filter (fun d => !d.isLegacyDefault) ≠ [] := by
      refine List.ne_nil_of_mem (List.mem_filter.mpr ⟨hd, ?_⟩)
      rcases hlossy with hdeleted | hlegacy
      · rw [not_not, List.length_eq_zero_iff, List.filter_eq_nil_iff] at hlive
        exact absurd (by simpa using hdeleted) (hlive d hd)
      · simpa using hlegacy
    rw [if_pos (.inl fun hzero => hnonlegacy (List.length_eq_zero_iff.mp hzero))]
    exact ⟨_, rfl, rfl⟩

theorem downgrade_backfilled (h : legacy.Valid) :
    downgrade (backfilled uuid4 legacy) = .ok legacy := by
  have hguard : refuseLossyDowngrade (backfilled uuid4 legacy) = .ok () := by
    refine refuseLossyDowngrade_ok fun d hd => ?_
    obtain ⟨i, -, u, -, rfl⟩ := mem_defaultDevices hd
    exact ⟨rfl, rfl⟩
  have hrestore : restoreLegacyUserCredentials (backfilled uuid4 legacy) =
      .ok (backfilled uuid4 legacy) := by
    have hrows : restoreUsers (backfilled uuid4 legacy).devices (backfilled uuid4 legacy).users =
        .ok (backfilled uuid4 legacy).users :=
      restoreUsers_ok fun u hu => restoreUser_backfilled h hu
    unfold restoreLegacyUserCredentials
    rw [hrows]
    rfl
  have hnodup : ((backfilled uuid4 legacy).peers.map fun p => (p.nodeId, p.userId)).Nodup := by
    have hnodes := h.nodeUser
    unfold Rows.Distinct at hnodes
    rwa [← backfilled_peers legacy uuid4, List.map_map] at hnodes
  unfold downgrade
  rw [hguard]
  show (restoreLegacyUserCredentials _).bind dropOwnership = _
  rw [hrestore]
  show dropOwnership _ = _
  unfold dropOwnership
  rw [if_neg (not_not.mpr hnodup), backfilled_peers]
  show Except.ok (Legacy.mk ((addColumns legacy).users.map _) _) = _
  rw [addColumns_users]

end Backfilled

/-! ## The migration -/

/-- Ownership as it was: one live default device for each user, with the user's
credentials, and every peer row with its user's device. -/
structure Preserves (legacy : Legacy ρ σ) (db : Owned ρ σ) : Prop where
  users : db.users.map User.toLegacyUser = legacy.users
  peers : db.peers.map Peer.toLegacyPeer = legacy.peers
  device : ∀ u ∈ legacy.users, ∃ d, db.devices.filter (fun x => x.userId = u.id) = [d] ∧
    d.isLegacyDefault = true ∧ d.deletedAt = none ∧ d.publicKey = u.publicKey ∧
    d.privateKey = u.privateKey ∧ d.vpnIp = u.vpnIp ∧ d.createdAt = u.createdAt
  owner : ∀ p ∈ db.peers, ∃ d ∈ db.devices, p.deviceId = some d.id ∧ d.userId = p.userId

theorem preserves_backfilled {legacy : Legacy ρ σ} {uuid4 : Nat → String} (h : legacy.Valid)
    (hmap : Mappable legacy) : Preserves legacy (backfilled uuid4 legacy) where
  users := addColumns_users legacy
  peers := backfilled_peers legacy uuid4
  device := fun u hu => by
    rw [← addColumns_users legacy] at hu
    obtain ⟨v, hv, rfl⟩ := List.mem_map.mp hu
    obtain ⟨i, hd⟩ := defaultDevice_mem uuid4 hv 0
    have hone := (backfilled_distinct_userId uuid4 h).filter_key hd
    exact ⟨_, hone, rfl, rfl, rfl, rfl, rfl, rfl⟩
  owner := fun p hp => by
    obtain ⟨d, hd, hid, hu⟩ := backfilled_owner uuid4 hmap p hp
    exact ⟨d, hd, hid, hu.symm⟩

/-- **Migration 0019.** The upgrade of a 0018 database is refused exactly where
two users share a key or an address or a peer has no user. Otherwise it
preserves ownership under every constraint of 0019, and the downgrade restores
the tables. A database with a deleted or a later device is not downgraded. -/
theorem migration_preserves (legacy : Legacy ρ σ) (h : legacy.Valid) (uuid4 : Nat → String)
    (huuid : Function.Injective uuid4) :
    ((∃ failure, upgrade uuid4 legacy = .error failure ∧ failure.refused = true) ↔
      SharedKey legacy ∨ SharedAddress legacy ∨ OrphanedPeer legacy) ∧
    (¬(SharedKey legacy ∨ SharedAddress legacy ∨ OrphanedPeer legacy) →
      ∃ db, upgrade uuid4 legacy = .ok db ∧ Preserves legacy db ∧ db.Valid ∧
        downgrade db = .ok legacy) ∧
    ∀ db : Owned ρ σ, (∃ d ∈ db.devices, d.deletedAt ≠ none ∨ d.isLegacyDefault = false) →
      ∃ failure, downgrade db = .error failure ∧ failure.refused = true := by
  have hok : ¬(SharedKey legacy ∨ SharedAddress legacy ∨ OrphanedPeer legacy) →
      Mappable legacy := (mappable_iff h).mpr
  refine ⟨⟨?_, fun hbad => ?_⟩, fun hnone => ?_, ?_⟩
  · rintro ⟨failure, hfailure, -⟩
    by_contra hnone
    rw [upgrade_ok h (hok hnone) huuid] at hfailure
    cases hfailure
  · rcases refuseUnmappableLegacyData_cases legacy with ⟨hmap, -⟩ | ⟨-, failure, herror, hrefused⟩
    · exact absurd hbad ((mappable_iff h).mp hmap)
    · refine ⟨failure, ?_, hrefused⟩
      unfold upgrade
      rw [herror]
      rfl
  · have hmap := hok hnone
    exact ⟨_, upgrade_ok h hmap huuid, preserves_backfilled h hmap,
      backfilled_valid h hmap huuid, downgrade_backfilled h⟩
  · rintro db ⟨d, hd, hlossy⟩
    obtain ⟨failure, herror, hrefused⟩ := refuseLossyDowngrade_refused hd hlossy
    refine ⟨failure, ?_, hrefused⟩
    unfold downgrade
    rw [herror]
    rfl

/-- An account with a peer, and one without keys. -/
def keyedAndBare : Legacy Unit Unit where
  users := [⟨"alice", 1, some "k1", some "s1", some "10.66.0.2", ()⟩,
    ⟨"bob", 2, none, none, none, ()⟩]
  peers := [⟨"p1", "n1", "alice", some "psk", ()⟩, ⟨"p2", "n2", "alice", none, ()⟩]

/-- The `n`-th id of a supply that repeats none. -/
def deviceNumber (n : Nat) : String := String.ofList (List.replicate n 'd')

theorem deviceNumber_injective : Function.Injective deviceNumber := by
  intro m n h
  have hchars : List.replicate m 'd' = List.replicate n 'd' := String.ofList_injective h
  simpa using congrArg List.length hchars

theorem migration_preserves_keyedAndBare : keyedAndBare.Valid ∧
    ∃ db, upgrade deviceNumber keyedAndBare = .ok db ∧ Preserves keyedAndBare db ∧ db.Valid ∧
      downgrade db = .ok keyedAndBare := by
  have hvalid : keyedAndBare.Valid := ⟨by decide, by decide, by decide⟩
  have hmigration := migration_preserves keyedAndBare hvalid deviceNumber deviceNumber_injective
  refine ⟨hvalid, hmigration.2.1 ?_⟩
  rintro (⟨u, hu, v, hv, hshared⟩ | ⟨u, hu, v, hv, hshared⟩ | ⟨p, hp, horphan⟩)
  · simp only [keyedAndBare, List.mem_cons, List.not_mem_nil, or_false] at hu hv
    rcases hu with rfl | rfl <;> rcases hv with rfl | rfl <;> simp at hshared
  · simp only [keyedAndBare, List.mem_cons, List.not_mem_nil, or_false] at hu hv
    rcases hu with rfl | rfl <;> rcases hv with rfl | rfl <;> simp at hshared
  · simp only [keyedAndBare, List.mem_cons, List.not_mem_nil, or_false] at hp horphan
    rcases hp with rfl | rfl <;> simpa using horphan _ (.inl rfl)

end VpnPanel.Theorems
