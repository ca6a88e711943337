import VpnPanel.Backend.Tables
import VpnPanel.Backend.Requests

/-!
# The routes are guarded writes

One lemma for each function of the backend that writes: it is a sequence of
guarded writes of a known scope. `handle_writes` collects them for every route.
-/

namespace VpnPanel.Backend

open VpnPanel.Lib

variable {cfg : Config} {db : Db}

/-! ## Peers of a device -/

/-- The two outcomes of `create_pending_peer`. -/
theorem createPendingPeer_cases (cfg : Config) (db : Db) (nodeId : NodeId) (device : Device) :
    createPendingPeer cfg db nodeId device = (false, db) ∨
      (createPendingPeer cfg db nodeId device =
          (true, Write.apply db (.newPeer (pendingPeer cfg db nodeId device))) ∧
        device.deletedAt = none ∧ db.peerConflict (pendingPeer cfg db nodeId device) = false) := by
  unfold createPendingPeer
  by_cases hdel : device.deletedAt.isSome
  · exact .inl (if_pos hdel)
  rw [if_neg hdel]
  split
  · exact .inl rfl
  split
  · exact .inl rfl
  unfold Db.insertPeer
  by_cases hconf : db.peerConflict (pendingPeer cfg db nodeId device) = true
  · rw [if_pos hconf]
    exact .inl rfl
  · rw [if_neg hconf]
    refine .inr ⟨rfl, by simpa using hdel, by simpa using hconf⟩

theorem newPeerOk_of_peerConflict {nodeId : NodeId} {device : Device}
    (hd : device ∈ db.devices) (hlive : device.deletedAt = none)
    (hconf : db.peerConflict (pendingPeer cfg db nodeId device) = false) :
    NewPeerOk db (pendingPeer cfg db nodeId device) := by
  unfold Db.peerConflict at hconf
  simp only [Bool.or_eq_false_iff] at hconf
  obtain ⟨⟨hpair, hnode⟩, -⟩ := hconf
  refine ⟨rfl, ?_, ⟨device, hd, rfl, rfl, hlive⟩, ?_, rfl, rfl, rfl⟩
  · obtain ⟨n, hn⟩ := Option.isSome_iff_exists.mp (by simpa using hnode)
    exact ⟨n, Rows.mem_of_get? hn, Rows.key_of_get? hn⟩
  · intro p hp hn hdev
    have := List.any_eq_false.mp hpair p hp
    simp [hn, hdev] at this

/-- A new peer of the account `u`. -/
def NewPeersOf (u : UserId) (_ : Db) : Write → Prop
  | .newPeer row => row.userId = u
  | _ => False

theorem NewPeersOf.ofOwner {u : UserId} {w : Write} (h : NewPeersOf u db w) : OfOwner u db w := by
  cases w <;> first | exact h | exact h.elim

theorem createPendingPeer_writes (nodeId : NodeId) {device : Device}
    (hd : device ∈ db.devices) :
    Writes (NewPeersOf device.userId) db (createPendingPeer cfg db nodeId device).2 := by
  rcases createPendingPeer_cases cfg db nodeId device with h | ⟨h, hlive, hconf⟩
  · rw [h]
    exact .refl db
  · rw [h]
    exact Writes.single (.newPeer _) rfl (newPeerOk_of_peerConflict hd hlive hconf)

@[simp] theorem createPendingPeer_devices (cfg : Config) (db : Db) (nodeId : NodeId)
    (device : Device) : (createPendingPeer cfg db nodeId device).2.devices = db.devices := by
  rcases createPendingPeer_cases cfg db nodeId device with h | ⟨h, -⟩
  · rw [h]
  · rw [h]
    rfl

theorem createPendingPeersOn_devices (cfg : Config) (device : Device) :
    ∀ (ids : List NodeId) (db : Db), (createPendingPeersOn cfg device ids db).2.devices = db.devices
  | [], _ => rfl
  | id :: rest, db => by
      show (createPendingPeersOn cfg device rest
        (createPendingPeer cfg db id device).2).2.devices = _
      rw [createPendingPeersOn_devices cfg device rest, createPendingPeer_devices]

theorem createPendingPeersOn_writes {device : Device} (ids : List NodeId) :
    ∀ {db : Db}, device ∈ db.devices →
      Writes (NewPeersOf device.userId) db (createPendingPeersOn cfg device ids db).2 := by
  induction ids with
  | nil =>
      intro db _
      exact .refl db
  | cons id rest ih =>
      intro db hd
      have hd' : device ∈ (createPendingPeer cfg db id device).2.devices := by
        rw [createPendingPeer_devices]
        exact hd
      exact (createPendingPeer_writes id hd).trans (ih hd')

/-- The writes of a node creation. -/
def AddsNode (_ : Db) : Write → Prop
  | .newNode _ => True
  | .newPeer _ => True
  | _ => False

theorem createPendingPeersOf_writes (nodeId : NodeId) (devices : List Device) :
    ∀ {db : Db}, (∀ d ∈ devices, d ∈ db.devices) →
      Writes AddsNode db (createPendingPeersOf cfg nodeId devices db) := by
  induction devices with
  | nil =>
      intro db _
      exact .refl db
  | cons d rest ih =>
      intro db hmem
      have hone : Writes AddsNode db (createPendingPeer cfg db nodeId d).2 := by
        refine (createPendingPeer_writes nodeId (hmem d List.mem_cons_self)).mono ?_
        intro db w h
        cases w <;> trivial
      refine hone.trans (ih ?_)
      intro e he
      rw [createPendingPeer_devices]
      exact hmem e (List.mem_cons_of_mem _ he)

theorem mem_listLiveDevices {userId : UserId} {d : Device} :
    d ∈ listLiveDevices db userId ↔ d ∈ db.devices ∧ d.userId = userId ∧ d.deletedAt = none := by
  unfold listLiveDevices
  rw [List.mem_insertionSort, List.mem_filter]
  simp

theorem restoreMissingPeersOf_writes {u : UserId} (devices : List Device) :
    ∀ {db : Db}, (∀ d ∈ devices, d ∈ db.devices ∧ d.userId = u) →
      Writes (NewPeersOf u) db (restoreMissingPeersOf cfg devices db).2 := by
  induction devices with
  | nil =>
      intro db _
      exact .refl db
  | cons d rest ih =>
      intro db hmem
      have hone : Writes (NewPeersOf u) db (createPendingPeersForDevice cfg db d).2 := by
        obtain ⟨hd, rfl⟩ := hmem d List.mem_cons_self
        exact createPendingPeersOn_writes _ hd
      refine hone.trans (ih ?_)
      intro e he
      unfold createPendingPeersForDevice
      rw [createPendingPeersOn_devices]
      exact hmem e (List.mem_cons_of_mem _ he)

theorem restoreMissingPeersForUser_writes (db : Db) (u : UserId) :
    Writes (NewPeersOf u) db (restoreMissingPeersForUser cfg db u).2 := by
  apply restoreMissingPeersOf_writes
  intro d hd
  obtain ⟨hd, hu, -⟩ := mem_listLiveDevices.mp hd
  exact ⟨hd, hu⟩

theorem restoreMissingPeersForUser_ofOwner (db : Db) (u : UserId) :
    Writes (OfOwner u) db (restoreMissingPeersForUser cfg db u).2 :=
  (restoreMissingPeersForUser_writes db u).mono fun _ _ h => h.ofOwner

/-! ## Lifecycle -/

theorem mem_tombstonedDeviceIds {ids : List DeviceId} {id : DeviceId} (h : id ∈ ids) :
    id ∈ tombstonedDeviceIds db ids ↔ db.Tombstoned id := by
  unfold tombstonedDeviceIds Db.Tombstoned
  rw [List.mem_map]
  constructor
  · rintro ⟨d, hd, rfl⟩
    rw [List.mem_filter] at hd
    simp only [Bool.and_eq_true, decide_eq_true_eq] at hd
    exact ⟨d, hd.1, rfl, hd.2.2⟩
  · rintro ⟨d, hd, rfl, hdel⟩
    exact ⟨d, List.mem_filter.mpr ⟨hd, by simp [h, hdel]⟩, rfl⟩

theorem transitionPeer_same (b : Bool) (ts : List DeviceId) (loaded : List PeerId) (p : Peer) :
    p.Same (transitionPeer b ts loaded p) := by
  unfold transitionPeer
  split
  · exact ⟨rfl, rfl, rfl, rfl, rfl⟩
  · exact .refl p

/-- The rewrite of the peer loop, as `transitionPeers` builds it. -/
def transitionOf (db : Db) (loaded : List PeerId) (shouldBlock : Bool) : Peer → Peer :=
  transitionPeer shouldBlock
    (tombstonedDeviceIds db ((db.peers.filter (·.id ∈ loaded)).map (·.deviceId))) loaded

theorem transitionPeers_db (db : Db) (loaded : List PeerId) (shouldBlock : Bool) :
    (transitionPeers db loaded shouldBlock).2 = db.mapPeers (transitionOf db loaded shouldBlock) :=
  rfl

theorem transitionOf_of_not_mem {loaded : List PeerId} {b : Bool} {p : Peer}
    (h : p.id ∉ loaded) : transitionOf db loaded b p = p := if_neg h

theorem transitionOf_block {loaded : List PeerId} {p : Peer} (h : p.id ∈ loaded) :
    (transitionOf db loaded true p).status = .pendingDelete := by
  simp [transitionOf, transitionPeer, transitionStatus, h]

/-- Unblocking restores a going peer exactly when its device is not
tombstoned. -/
theorem transitionOf_unblock {loaded : List PeerId} {p : Peer} (hp : p ∈ db.peers)
    (h : p.id ∈ loaded) :
    (p.status.live = false ∧ ¬db.Tombstoned p.deviceId ∧
        (transitionOf db loaded false p).status = .pending) ∨
      ((p.status.live = true ∨ db.Tombstoned p.deviceId) ∧
        (transitionOf db loaded false p).status = p.status) := by
  have hmem : p.deviceId ∈ (db.peers.filter (·.id ∈ loaded)).map (·.deviceId) :=
    List.mem_map_of_mem (List.mem_filter.mpr ⟨hp, by simpa using h⟩)
  have ht := (mem_tombstonedDeviceIds hmem : _ ↔ db.Tombstoned p.deviceId)
  unfold transitionOf transitionPeer transitionStatus
  rw [if_pos h]
  simp only [Bool.false_eq_true, if_false]
  by_cases hl : p.status.live = true
  · exact .inr ⟨.inl hl, by simp [PeerStatus.tombstoned, hl]⟩
  · by_cases hd : db.Tombstoned p.deviceId
    · exact .inr ⟨.inr hd, by simp [ht.mpr hd]⟩
    · have hn := fun hc => hd (ht.mp hc)
      exact .inl ⟨by simpa using hl, hd, by
        simpa [PeerStatus.tombstoned, hl] using fun hc => (hn hc).elim⟩

theorem peersOk_transitionOf (db : Db) (loaded : List PeerId) (b : Bool) :
    PeersOk db (transitionOf db loaded b) := by
  refine ⟨fun p _ => transitionPeer_same _ _ _ p, ?_, ?_, ?_⟩
  · intro p _
    unfold transitionOf transitionPeer
    split <;> rfl
  · intro p _
    unfold transitionOf transitionPeer
    split <;> rfl
  · intro p hp hl
    by_cases h : p.id ∈ loaded
    · cases b with
      | true =>
          rw [transitionOf_block h] at hl
          cases hl
      | false =>
          rcases transitionOf_unblock hp h with ⟨-, hn, -⟩ | ⟨hor, hst⟩
          · exact .inr hn
          · rw [hst] at hl
            exact .inl hl
    · rw [transitionOf_of_not_mem h] at hl
      exact .inl hl

theorem transitionOf_deleted {loaded : List PeerId} {b : Bool} {p : Peer} (hp : p ∈ db.peers)
    (hdel : (transitionOf db loaded b p).status = .deleted) : p.status = .deleted := by
  by_cases h : p.id ∈ loaded
  · cases b with
    | true =>
        rw [transitionOf_block h] at hdel
        cases hdel
    | false =>
        rcases transitionOf_unblock hp h with ⟨-, -, hst⟩ | ⟨-, hst⟩
        · rw [hst] at hdel
          cases hdel
        · rwa [hst] at hdel
  · rwa [transitionOf_of_not_mem h] at hdel

/-- The loop over a collection of the account's own peers. -/
theorem transitionPeers_writes {u : UserId} {loaded : List PeerId}
    (howned : ∀ p ∈ db.peers, p.id ∈ loaded → p.userId = u) (b : Bool) :
    Writes (OfOwner u) db (transitionPeers db loaded b).2 := by
  refine Writes.single (.peers (transitionOf db loaded b)) ⟨?_, ?_⟩
    (peersOk_transitionOf db loaded b)
  · intro p hp hne
    exact transitionOf_of_not_mem fun h => hne (howned p hp h)
  · intro p hp hdel
    exact transitionOf_deleted hp hdel

theorem mem_loadPeers (hwf : db.WF) {u : UserId} {p : Peer} (hp : p ∈ db.peers) :
    p.id ∈ loadPeers db u ↔ p.userId = u := by
  unfold loadPeers Db.peersOf
  rw [List.mem_map]
  constructor
  · rintro ⟨q, hq, hid⟩
    rw [List.mem_filter] at hq
    rw [← hwf.peer_eq hq.1 hp hid]
    simpa using hq.2
  · intro h
    exact ⟨p, List.mem_filter.mpr ⟨hp, by simpa using h⟩, rfl⟩

theorem transitionPeers_loadPeers_writes (hwf : db.WF) (u : UserId) (b : Bool) :
    Writes (OfOwner u) db (transitionPeers db (loadPeers db u) b).2 :=
  transitionPeers_writes (fun _ hp h => (mem_loadPeers hwf hp).mp h) b

theorem updates_of_user? {u : UserId} {user : User} (h : db.user? u = some user) :
    Updates db user := ⟨user, Rows.mem_of_get? h, rfl, rfl⟩

theorem applyLocalLifecycleState_writes (hwf : db.WF) {user : User}
    (h : Updates db user) (total : Option Nat) (now : Time) :
    Writes (OfOwner user.id) db (applyLocalLifecycleState cfg db user total now).2 := by
  let desired := desiredStatus user (total.getD (loadLocalTotalBytes db user.id)) now
  let blocked : Bool := desired ≠ .active
  let saved := db.saveUser { user with lifecycleStatus := desired, isBlocked := blocked }
  let moved := (transitionPeers saved (loadPeers saved user.id) blocked).2
  have hsave : Writes (OfOwner user.id) db saved :=
    Writes.single (.user { user with lifecycleStatus := desired, isBlocked := blocked }) rfl
      ⟨h.exists_old⟩
  have hmove : Writes (OfOwner user.id) saved moved :=
    transitionPeers_loadPeers_writes (hsave.wf hwf) user.id blocked
  have hboth := hsave.trans hmove
  unfold applyLocalLifecycleState
  show Writes _ db (Prod.snd (if _ then (_, (restoreMissingPeersForUser cfg moved user.id).2)
    else (_, moved)))
  split
  · exact hboth.trans (restoreMissingPeersForUser_ofOwner _ user.id)
  · exact hboth

theorem enforceLocalLifecycleForUser_writes (hwf : db.WF) (u : UserId) (now : Time) :
    Writes (OfOwner u) db (enforceLocalLifecycleForUser cfg db u now).2 := by
  unfold enforceLocalLifecycleForUser
  cases hu : db.user? u with
  | none => exact .refl db
  | some user =>
      show Writes _ db (Prod.snd (if _ then _ else _))
      split
      · exact .refl db
      · rw [← (Rows.key_of_get? hu : user.id = u)]
        exact applyLocalLifecycleState_writes hwf (updates_of_user? hu) none now

/-! ## Imported accounts -/

theorem OfOwner.imports {r : RemnawaveUser} {w : Write} (hr : r ∈ db.profiles)
    (h : OfOwner r.userId db w) : Imports db w := by
  cases w <;> first | exact h.elim | exact ⟨r, hr, h⟩

/-- A lifecycle sequence of an account with a profile is one of the import
routes: no lifecycle write touches the profiles. -/
theorem Writes.imports {u : UserId} {db' : Db} (hr : ∃ r ∈ db.profiles, r.userId = u)
    (h : Writes (OfOwner u) db db') : Writes Imports db db' ∧ db'.profiles = db.profiles := by
  induction h with
  | refl => exact ⟨.refl db, rfl⟩
  | @tail b c _ hw ih =>
      obtain ⟨w, hP, hok, rfl⟩ := hw
      obtain ⟨r, hr, hru⟩ := hr
      have hmem : r ∈ b.profiles := by
        rw [ih.2]
        exact hr
      refine ⟨ih.1.trans (Writes.single w (OfOwner.imports hmem (hru ▸ hP)) hok), ?_⟩
      rw [← ih.2]
      cases w <;> first | exact hP.elim | rfl

theorem applyRemnawaveLifecycle_writes {user : User}
    (hu : Updates db user) {loaded : List PeerId}
    (howned : ∀ p ∈ db.peers, p.id ∈ loaded → p.userId = user.id) (data : RemnawaveUserIn)
    (now : Time) :
    Writes (OfOwner user.id) db (applyRemnawaveLifecycle cfg db user loaded data now).2 := by
  let blocked := remnawaveBlocked data.status data.expireAt now
  let saved := db.saveUser { user with isBlocked := blocked }
  let moved := (transitionPeers saved loaded blocked).2
  unfold applyRemnawaveLifecycle
  show Writes _ db (Prod.snd (if user.isBlocked = blocked then _ else
    if _ then (_, (restoreMissingPeersForUser cfg moved user.id).2) else (_, moved)))
  split
  · exact .refl db
  have hsave : Writes (OfOwner user.id) db saved :=
    Writes.single (.user { user with isBlocked := blocked }) rfl ⟨hu.exists_old⟩
  have hsaved : ∀ p ∈ saved.peers, p.id ∈ loaded → p.userId = user.id := howned
  have hmove : Writes (OfOwner user.id) saved moved := transitionPeers_writes hsaved blocked
  have hboth := hsave.trans hmove
  split
  · exact hboth.trans (restoreMissingPeersForUser_ofOwner _ user.id)
  · exact hboth

/-- Blocking an account outright: its row, then all of its peers. -/
theorem blockAll_writes (hwf : db.WF) {user : User} (hu : Updates db user) :
    Writes (OfOwner user.id) db
      (transitionPeers (db.saveUser { user with isBlocked := true })
        (loadPeers (db.saveUser { user with isBlocked := true }) user.id) true).2 := by
  have hsave : Writes (OfOwner user.id) db (db.saveUser { user with isBlocked := true }) :=
    Writes.single (.user { user with isBlocked := true }) rfl ⟨hu.exists_old⟩
  exact hsave.trans (transitionPeers_loadPeers_writes (hsave.wf hwf) user.id true)

theorem enforceRemnawaveCombinedLimit_writes (hwf : db.WF) (row : RemnawaveUser) :
    Writes (OfOwner row.userId) db (enforceRemnawaveCombinedLimit db row).2 := by
  unfold enforceRemnawaveCombinedLimit
  split
  · exact .refl db
  cases hu : db.user? row.userId with
  | none => exact .refl db
  | some user =>
      have hid : user.id = row.userId := Rows.key_of_get? hu
      rw [← hid]
      exact blockAll_writes hwf (updates_of_user? hu)

theorem enforceRemnawaveCombinedLimitForUser_writes (hwf : db.WF) (u : UserId) :
    Writes (OfOwner u) db (enforceRemnawaveCombinedLimitForUser db u).2 := by
  unfold enforceRemnawaveCombinedLimitForUser
  cases hp : db.profileOf? u with
  | none => exact .refl db
  | some row =>
      have hid : row.userId = u := Rows.key_of_get? hp
      rw [← hid]
      exact enforceRemnawaveCombinedLimit_writes hwf row

/-- A profile row written back, then the combined limit of its account. -/
theorem finishUpsert_writes (hwf : db.WF) {row : RemnawaveUser} (hr : row ∈ db.profiles)
    (st : UpsertState) (loaded : List PeerId) (created : List NodeId) (item : RemnawaveUserIn)
    (now : Time) :
    Writes Imports db (finishUpsert st db row loaded created item now).db := by
  let row' := applyRemnawaveProfile row item now
  have hsave : Writes Imports db (db.saveProfile row') :=
    Writes.single (.profile row') trivial ⟨row, hr, rfl, rfl⟩
  have hmem : ∃ r ∈ (db.saveProfile row').profiles, r.userId = row'.userId :=
    ⟨row', Rows.mem_save.mpr (.inl ⟨rfl, row, hr, rfl⟩), rfl⟩
  exact hsave.trans
    (Writes.imports hmem (enforceRemnawaveCombinedLimit_writes (hsave.wf hwf) row')).1

/-- What an accepted import of a new profile stored. -/
theorem createRemnawaveRow_ok {item : RemnawaveUserIn} {now : Time} {row : RemnawaveUser}
    {db' : Db} (h : createRemnawaveRow db item now = some (row, db')) :
    row.remnawaveUuid = item.uuid ∧ ∃ user : User,
      user.isBlocked = remnawaveBlocked item.status item.expireAt now ∧
      Write.Ok db (.newImport user row) ∧ db' = Write.apply db (.newImport user row) := by
  unfold createRemnawaveRow at h
  obtain ⟨db₁, h₁, h⟩ := Option.bind_eq_some_iff.mp h
  obtain ⟨db₂, h₂, h⟩ := Option.map_eq_some_iff.mp h
  obtain ⟨rfl, rfl⟩ := Prod.mk.inj h
  unfold Db.insertUser at h₁
  split at h₁
  · cases h₁
  cases h₁
  unfold Db.insertProfile at h₂
  split at h₂
  · cases h₂
  next hconf =>
    cases h₂
    rw [not_or] at hconf
    have hnone : ∀ r ∈ db.profiles, ¬r.userId = db.nextId ∧ ¬r.remnawaveUuid = item.uuid := by
      simpa using hconf.1
    exact ⟨rfl, _, rfl, ⟨⟨rfl, rfl⟩, rfl, fun r hr => (hnone r hr).2⟩, rfl⟩

/-- A loaded collection holds peers of the account `u` only. -/
def OwnPeers (u : UserId) (loaded : List PeerId) (db : Db) : Prop :=
  (∀ p ∈ db.peers, p.id ∈ loaded → p.userId = u) ∧ ∀ i ∈ loaded, i < db.nextId

theorem ownPeers_loadPeers (hwf : db.WF) (u : UserId) : OwnPeers u (loadPeers db u) db := by
  refine ⟨fun p hp h => (mem_loadPeers hwf hp).mp h, ?_⟩
  intro i hi
  obtain ⟨p, hp, rfl⟩ := List.mem_map.mp hi
  exact hwf.peerFresh p (List.mem_filter.mp hp).1

/-- Rows keep their owner, and a new row has an id no collection holds. -/
theorem OwnPeers.apply {u : UserId} {loaded : List PeerId} (h : OwnPeers u loaded db) {w : Write}
    (hok : w.Ok db) : OwnPeers u loaded (w.apply db) := by
  have hsucc : ∀ i ∈ loaded, i < db.nextId + 1 := fun i hi => Nat.lt_succ_of_lt (h.2 i hi)
  have hsame : ∀ {f : Peer → Peer}, (∀ p ∈ db.peers, p.Same (f p)) →
      ∀ p' ∈ db.peers.map f, p'.id ∈ loaded → p'.userId = u := by
    intro f hf p' hp' hid
    obtain ⟨p, hp, rfl⟩ := List.mem_map.mp hp'
    rw [(hf p hp).id] at hid
    rw [(hf p hp).userId]
    exact h.1 p hp hid
  cases w with
  | user row => exact h
  | newUser row => exact ⟨h.1, hsucc⟩
  | profile row => exact h
  | newImport row imported => exact ⟨h.1, hsucc⟩
  | node row => exact h
  | newNode row => exact ⟨h.1, hsucc⟩
  | newDevice row => exact ⟨h.1, hsucc⟩
  | tombstone row =>
      refine ⟨hsame ?_, h.2⟩
      intro p _
      unfold deletedDevicePeer
      split
      · exact ⟨rfl, rfl, rfl, rfl, rfl⟩
      · exact .refl p
  | release row at_ => exact h
  | peers f => exact ⟨hsame hok.same, h.2⟩
  | newPeer row =>
      refine ⟨?_, hsucc⟩
      intro p hp hid
      rcases List.mem_append.mp hp with hp | hp
      · exact h.1 p hp hid
      · rw [List.mem_singleton.mp hp, hok.id] at hid
        exact absurd (h.2 _ hid) (Nat.lt_irrefl _)
  | reading row data now =>
      show OwnPeers u loaded (applyPeerResult db row data now).2
      rw [applyPeerResult_db]
      refine ⟨?_, h.2⟩
      intro p hp hid
      rcases Rows.mem_save.mp hp with ⟨rfl, _⟩ | ⟨hp, _⟩
      · rw [(peerAfterResult_same db row data).id] at hid
        rw [(peerAfterResult_same db row data).userId]
        exact h.1 row hok hid
      · exact h.1 p hp hid
  | resetTraffic row at_ => exact h
  | deleteUser id => exact ⟨fun p hp => h.1 p (List.mem_filter.mp hp).1, h.2⟩
  | deleteNode id => exact ⟨fun p hp => h.1 p (List.mem_filter.mp hp).1, h.2⟩

theorem OwnPeers.writes {P : Db → Write → Prop} {u : UserId} {loaded : List PeerId} {db' : Db}
    (h : OwnPeers u loaded db) (hw : Writes P db db') : OwnPeers u loaded db' :=
  hw.keeps (fun _ _ _ hok h => h.apply hok) h

/-- The profile the batch loop still refers to is stored, and its collection is
of the profile's account. -/
def UpsertState.HeldOk (st : UpsertState) : Prop :=
  ∀ uuid loaded, st.held = some (uuid, loaded) →
    ∃ r ∈ st.db.profiles, r.remnawaveUuid = uuid ∧ OwnPeers r.userId loaded st.db

/-- A loop that has not begun holds no profile. -/
theorem UpsertState.heldOk_start (db : Db) : UpsertState.HeldOk { db } := fun _ _ hheld => by
  cases hheld

theorem UpsertState.HeldOk.loadedPeers {st : UpsertState} (h : st.HeldOk) (hwf : st.db.WF)
    {row : RemnawaveUser} (hr : row ∈ st.db.profiles) :
    OwnPeers row.userId (st.loadedPeers row.remnawaveUuid row.userId) st.db := by
  unfold UpsertState.loadedPeers
  cases hheld : st.held with
  | none => exact ownPeers_loadPeers hwf row.userId
  | some held =>
      obtain ⟨uuid, loaded⟩ := held
      obtain ⟨r, hr', huuid, hown⟩ := h uuid loaded hheld
      show OwnPeers row.userId (if uuid = row.remnawaveUuid then loaded else _) st.db
      split
      · next heq =>
          rwa [hwf.profileUuids.eq_of_key hr' hr (huuid.trans heq)] at hown
      · exact ownPeers_loadPeers hwf row.userId

/-- The profile columns of an entry stay through the combined limit. -/
theorem finishUpsert_mem (hwf : db.WF) {row : RemnawaveUser} (hr : row ∈ db.profiles)
    (st : UpsertState) (loaded : List PeerId) (created : List NodeId) (item : RemnawaveUserIn)
    (now : Time) :
    applyRemnawaveProfile row item now ∈
      (finishUpsert st db row loaded created item now).db.profiles := by
  let row' := applyRemnawaveProfile row item now
  have hsave : Writes Imports db (db.saveProfile row') :=
    Writes.single (.profile row') trivial ⟨row, hr, rfl, rfl⟩
  have hmem : row' ∈ (db.saveProfile row').profiles :=
    Rows.mem_save.mpr (.inl ⟨rfl, row, hr, rfl⟩)
  have hlimit := Writes.imports ⟨row', hmem, rfl⟩
    (enforceRemnawaveCombinedLimit_writes (hsave.wf hwf) row')
  show row' ∈ (enforceRemnawaveCombinedLimit (db.saveProfile row') row').2.profiles
  rw [hlimit.2]
  exact hmem

theorem finishUpsert_heldOk (hwf : db.WF) {row : RemnawaveUser} (hr : row ∈ db.profiles)
    {loaded : List PeerId} (hown : OwnPeers row.userId loaded db) (st : UpsertState)
    (created : List NodeId) {item : RemnawaveUserIn} (huuid : row.remnawaveUuid = item.uuid)
    (now : Time) : (finishUpsert st db row loaded created item now).HeldOk := by
  intro uuid loaded' hheld
  obtain ⟨rfl, rfl⟩ := Prod.mk.inj (Option.some.inj hheld)
  exact ⟨_, finishUpsert_mem hwf hr st loaded created item now, huuid,
    hown.writes (finishUpsert_writes hwf hr st loaded created item now)⟩

/-- What one item of the batch does: an account is created with its profile, or
the account of the stored profile follows the item. -/
inductive ItemStep (cfg : Config) (st : UpsertState) (item : RemnawaveUserIn) (now : Time) :
    UpsertState → Prop
  | created {user : User} {row : RemnawaveUser} :
      st.db.profiles.find? (·.remnawaveUuid = item.uuid) = none →
      row.remnawaveUuid = item.uuid → Write.Ok st.db (.newImport user row) →
      user.isBlocked = remnawaveBlocked item.status item.expireAt now →
      ItemStep cfg st item now (finishUpsert st (Write.apply st.db (.newImport user row)) row
        (loadPeers (Write.apply st.db (.newImport user row)) row.userId) [] item now)
  | updated {user : User} {row : RemnawaveUser} :
      row ∈ st.db.profiles → row.remnawaveUuid = item.uuid → st.db.user? row.userId = some user →
      OwnPeers row.userId (st.loadedPeers item.uuid row.userId) st.db →
      ItemStep cfg st item now (finishUpsert st
        (applyRemnawaveLifecycle cfg st.db user (st.loadedPeers item.uuid row.userId) item now).2
        row (st.loadedPeers item.uuid row.userId)
        (applyRemnawaveLifecycle cfg st.db user (st.loadedPeers item.uuid row.userId) item now).1
        item now)

theorem upsertItem_step {st st' : UpsertState} (hwf : st.db.WF) (hheld : st.HeldOk)
    {item : RemnawaveUserIn} {now : Time} (h : upsertItem cfg st item now = some st') :
    ItemStep cfg st item now st' := by
  unfold upsertItem at h
  cases hp : st.db.profiles.find? (·.remnawaveUuid = item.uuid) with
  | none =>
      rw [hp] at h
      obtain ⟨⟨row, db₁⟩, hrow, rfl⟩ := Option.map_eq_some_iff.mp h
      obtain ⟨huuid, user, hflag, hok, rfl⟩ := createRemnawaveRow_ok hrow
      exact .created hp huuid hok hflag
  | some row =>
      rw [hp] at h
      obtain ⟨user, hu, rfl⟩ := Option.map_eq_some_iff.mp h
      have hr : row ∈ st.db.profiles := List.mem_of_find?_eq_some hp
      have huuid : row.remnawaveUuid = item.uuid := by simpa using List.find?_some hp
      refine .updated hr huuid hu ?_
      rw [← huuid]
      exact hheld.loadedPeers hwf hr

/-- The lifecycle of an item touches the peers of its own account. -/
theorem OwnPeers.lifecycle_writes (cfg : Config) {user : User} {u : UserId}
    {loaded : List PeerId} (hown : OwnPeers u loaded db) (hu : db.user? u = some user)
    (item : RemnawaveUserIn)
    (now : Time) :
    Writes (OfOwner user.id) db (applyRemnawaveLifecycle cfg db user loaded item now).2 := by
  have hid : user.id = u := Rows.key_of_get? hu
  exact applyRemnawaveLifecycle_writes (updates_of_user? hu)
    (fun p hp hl => (hown.1 p hp hl).trans hid.symm) item now

theorem newImport_writes {user : User} {row : RemnawaveUser}
    (hok : Write.Ok db (.newImport user row)) :
    Writes Imports db (Write.apply db (.newImport user row)) ∧
      row ∈ (Write.apply db (.newImport user row)).profiles :=
  ⟨Writes.single (.newImport user row) trivial hok, List.mem_append_right _ List.mem_cons_self⟩

theorem upsertItem_writes {st st' : UpsertState} (hwf : st.db.WF) (hheld : st.HeldOk)
    {item : RemnawaveUserIn} {now : Time} (h : upsertItem cfg st item now = some st') :
    Writes Imports st.db st'.db ∧ st'.HeldOk := by
  cases upsertItem_step hwf hheld h with
  | @created user row _ huuid hok _ =>
      obtain ⟨hw, hmem⟩ := newImport_writes hok
      have hwf₁ := hw.wf hwf
      exact ⟨hw.trans (finishUpsert_writes hwf₁ hmem ..),
        finishUpsert_heldOk hwf₁ hmem (ownPeers_loadPeers hwf₁ row.userId) _ _ huuid _⟩
  | @updated user row hr huuid hu hown =>
      have hid : user.id = row.userId := Rows.key_of_get? hu
      have hlife := Writes.imports ⟨row, hr, hid.symm⟩ (hown.lifecycle_writes cfg hu item now)
      have hwf₁ := hlife.1.wf hwf
      have hr₁ := hr
      rw [← hlife.2] at hr₁
      exact ⟨hlife.1.trans (finishUpsert_writes hwf₁ hr₁ ..),
        finishUpsert_heldOk hwf₁ hr₁ (hown.writes hlife.1) _ _ huuid _⟩

/-- **Item loop.** What every item keeps, the loop keeps. -/
theorem upsertItems_keeps {I : UpsertState → Prop} {now : Time} (items : List RemnawaveUserIn)
    (hkeeps : ∀ item ∈ items, ∀ st st' : UpsertState, st.db.WF → st.HeldOk → I st →
      upsertItem cfg st item now = some st' → I st') :
    ∀ {st st' : UpsertState}, st.db.WF → st.HeldOk → I st →
      upsertItems cfg now items st = some st' → I st' := by
  induction items with
  | nil =>
      intro st st' _ _ hI h
      cases h
      exact hI
  | cons item rest ih =>
      intro st st' hwf hheld hI h
      obtain ⟨st₁, h₁, h⟩ := Option.bind_eq_some_iff.mp h
      obtain ⟨hw, hheld₁⟩ := upsertItem_writes hwf hheld h₁
      exact ih (fun x hx => hkeeps x (List.mem_cons_of_mem _ hx)) (hw.wf hwf) hheld₁
        (hkeeps item List.mem_cons_self st st₁ hwf hheld hI h₁) h

theorem upsertItems_writes {now : Time} (items : List RemnawaveUserIn) :
    ∀ {st st' : UpsertState}, st.db.WF → st.HeldOk → upsertItems cfg now items st = some st' →
      Writes Imports st.db st'.db := by
  intro st st' hwf hheld h
  refine upsertItems_keeps (I := fun st' => Writes Imports st.db st'.db) items ?_ hwf hheld
    (.refl st.db) h
  intro item _ st₁ st₂ hwf₁ hheld₁ hw hitem
  exact hw.trans (upsertItem_writes hwf₁ hheld₁ hitem).1

/-- A batch with the item in it: the tables the item found, and those it left. -/
theorem upsertItems_split {now : Time} {item : RemnawaveUserIn} {pre post : List RemnawaveUserIn} :
    ∀ {st st' : UpsertState}, upsertItems cfg now (pre ++ item :: post) st = some st' →
      ∃ st₁ st₂, upsertItems cfg now pre st = some st₁ ∧ upsertItem cfg st₁ item now = some st₂ ∧
        upsertItems cfg now post st₂ = some st' := by
  induction pre with
  | nil =>
      intro st st' h
      obtain ⟨st₂, hitem, hpost⟩ := Option.bind_eq_some_iff.mp h
      exact ⟨st, st₂, rfl, hitem, hpost⟩
  | cons first rest ih =>
      intro st st' h
      obtain ⟨st₀, hfirst, h⟩ := Option.bind_eq_some_iff.mp h
      obtain ⟨st₁, st₂, hpre, hitem, hpost⟩ := ih h
      refine ⟨st₁, st₂, ?_, hitem, hpost⟩
      show (upsertItem cfg st first now).bind _ = _
      rw [hfirst]
      exact hpre

theorem upsertItems_held {now : Time} (items : List RemnawaveUserIn) {st st' : UpsertState}
    (hwf : st.db.WF) (hheld : st.HeldOk) (h : upsertItems cfg now items st = some st') :
    st'.HeldOk := by
  refine upsertItems_keeps (I := UpsertState.HeldOk) items ?_ hwf hheld hheld h
  intro item _ st₁ st₂ hwf₁ hheld₁ _ hitem
  exact (upsertItem_writes hwf₁ hheld₁ hitem).2

theorem markRemnawaveUserStale_writes (hwf : db.WF) {row : RemnawaveUser}
    (hr : ∃ r ∈ db.profiles, r.userId = row.userId ∧ r.remnawaveUuid = row.remnawaveUuid) :
    Writes Imports db (markRemnawaveUserStale db row).2 := by
  unfold markRemnawaveUserStale
  cases hu : db.user? row.userId with
  | none => exact .refl db
  | some user =>
      let row' : RemnawaveUser := { row with
        syncStatus := .stale, syncReason := some "remote user missing", syncError := none }
      have hid : user.id = row.userId := Rows.key_of_get? hu
      have hsave : Writes Imports db (db.saveProfile row') :=
        Writes.single (.profile row') trivial hr
      have hmem : row' ∈ (db.saveProfile row').profiles := by
        obtain ⟨r, hr, hru, -⟩ := hr
        exact Rows.mem_save.mpr (.inl ⟨rfl, r, hr, hru⟩)
      have hblock := blockAll_writes (hsave.wf hwf) (updates_of_user? hu)
      exact hsave.trans (Writes.imports ⟨row', hmem, hid.symm⟩ hblock).1

/-- The identity of a stored profile outlives every import write. -/
theorem profile_kept {db' : Db} (hwf : db.WF) {row : RemnawaveUser}
    (hr : ∃ r ∈ db.profiles, r.userId = row.userId ∧ r.remnawaveUuid = row.remnawaveUuid)
    (hw : Writes Imports db db') :
    ∃ r ∈ db'.profiles, r.userId = row.userId ∧ r.remnawaveUuid = row.remnawaveUuid := by
  let I : Db → Prop := fun db => db.WF ∧
    ∃ r ∈ db.profiles, r.userId = row.userId ∧ r.remnawaveUuid = row.remnawaveUuid
  have hstep : ∀ db w, Imports db w → w.Ok db → I db → I (w.apply db) := by
    rintro db w hP hok ⟨hwf, r, hr, hru, hruuid⟩
    refine ⟨Write.apply_wf hwf w hok, ?_⟩
    cases w with
    | profile saved =>
        obtain ⟨old, hold, houser, houuid⟩ := hok
        by_cases h : r.userId = saved.userId
        · -- the saved row replaces `r` under the same two keys
          have : r = old := hwf.profileUsers.eq_of_key hr hold (h.trans houser.symm)
          subst this
          exact ⟨saved, Rows.mem_save.mpr (.inl ⟨rfl, r, hr, h⟩), houser.symm.trans hru,
            houuid.symm.trans hruuid⟩
        · exact ⟨r, Rows.mem_save.mpr (.inr ⟨hr, h⟩), hru, hruuid⟩
    | newImport _ _ => exact ⟨r, List.mem_append_left _ hr, hru, hruuid⟩
    | user _ => exact ⟨r, hr, hru, hruuid⟩
    | peers _ => exact ⟨r, hr, hru, hruuid⟩
    | newPeer _ => exact ⟨r, hr, hru, hruuid⟩
    | _ =>
        obtain ⟨_, _, h⟩ := hP
        exact h.elim
  exact (hw.keeps hstep ⟨hwf, hr⟩).2

theorem markRowsStale_writes (rows : List RemnawaveUser) :
    ∀ {db : Db}, db.WF →
      (∀ row ∈ rows, ∃ r ∈ db.profiles, r.userId = row.userId ∧
        r.remnawaveUuid = row.remnawaveUuid) →
      Writes Imports db (markRowsStale rows db).2 := by
  induction rows with
  | nil =>
      intro db _ _
      exact .refl db
  | cons row rest ih =>
      intro db hwf hmem
      have hone := markRemnawaveUserStale_writes hwf (hmem row List.mem_cons_self)
      refine hone.trans (ih (hone.wf hwf) ?_)
      intro r hr
      exact profile_kept hwf (hmem r (List.mem_cons_of_mem _ hr)) hone

theorem reconcileMissingRemnawaveUsers_writes (hwf : db.WF) (seen : List String) :
    Writes Imports db (reconcileMissingRemnawaveUsers db seen).2 := by
  apply markRowsStale_writes _ hwf
  intro row hrow
  exact ⟨row, (List.mem_filter.mp hrow).1, rfl, rfl⟩

/-- The profile row of a requested deletion. -/
def RemnawaveUser.deleteRequested (row : RemnawaveUser) (now : Time) : RemnawaveUser :=
  { row with
    deleteRequestedAt := row.deleteRequestedAt.or (some now)
    syncStatus := .missing
    syncReason := some "delete requested" }

theorem peersOk_deleteRequestedPeer (db : Db) (u : UserId) :
    PeersOk db (deleteRequestedPeer u) := by
  refine ⟨?_, ?_, ?_, ?_⟩
  · intro p _
    unfold deleteRequestedPeer
    split
    · exact ⟨rfl, rfl, rfl, rfl, rfl⟩
    · exact .refl p
  · intro p _
    unfold deleteRequestedPeer
    split <;> rfl
  · intro p _
    unfold deleteRequestedPeer
    split <;> rfl
  · intro p _ hl
    unfold deleteRequestedPeer at hl
    split at hl
    · cases hl
    · exact .inl hl

/-- After the profile, a requested deletion writes its account only. -/
theorem requestRemnawaveDelete_ofOwner {row : RemnawaveUser} {user : User}
    (hu : db.user? row.userId = some user) (now : Time) :
    Writes (OfOwner user.id) (db.saveProfile (row.deleteRequested now))
      (requestRemnawaveDelete db row user now).2 := by
  have hblock : Writes (OfOwner user.id) (db.saveProfile (row.deleteRequested now))
      ((db.saveProfile (row.deleteRequested now)).saveUser { user with isBlocked := true }) :=
    Writes.single (.user { user with isBlocked := true }) rfl ⟨user, Rows.mem_of_get? hu, rfl, rfl⟩
  refine hblock.trans (Writes.single (.peers (deleteRequestedPeer user.id)) ⟨?_, ?_⟩
    (peersOk_deleteRequestedPeer _ user.id))
  · intro p _ hne
    exact if_neg fun h => hne h.1
  · intro p _ hdel
    unfold deleteRequestedPeer at hdel
    split at hdel
    · cases hdel
    · exact hdel

theorem requestRemnawaveDelete_writes {row : RemnawaveUser} {user : User}
    (hr : row ∈ db.profiles) (hu : db.user? row.userId = some user) (now : Time) :
    Writes Imports db (requestRemnawaveDelete db row user now).2 := by
  have hid : user.id = row.userId := Rows.key_of_get? hu
  have hsave : Writes Imports db (db.saveProfile (row.deleteRequested now)) :=
    Writes.single (.profile (row.deleteRequested now)) trivial ⟨row, hr, rfl, rfl⟩
  have hmem : row.deleteRequested now ∈ (db.saveProfile (row.deleteRequested now)).profiles :=
    Rows.mem_save.mpr (.inl ⟨rfl, row, hr, rfl⟩)
  exact hsave.trans (Writes.imports ⟨_, hmem, hid.symm⟩ (requestRemnawaveDelete_ofOwner hu now)).1

theorem deleteUsers_writes (rows : List RemnawaveUser) :
    ∀ {db : Db}, (∀ row ∈ rows, ∀ p ∈ db.peers, p.userId = row.userId → p.status = .deleted) →
      Writes Purges db (rows.foldl (fun db row => db.deleteUser row.userId) db) := by
  induction rows with
  | nil =>
      intro db _
      exact .refl db
  | cons row rest ih =>
      intro db hgone
      have hone : Writes Purges db (db.deleteUser row.userId) :=
        Writes.single (.deleteUser row.userId) (hgone row List.mem_cons_self) trivial
      refine hone.trans (ih fun other hother p hp => ?_)
      exact hgone other (List.mem_cons_of_mem _ hother) p (List.mem_filter.mp hp).1

theorem purgeConfirmedRemnawaveDeletes_writes (db : Db) :
    Writes Purges db (purgeConfirmedRemnawaveDeletes db).2 := by
  refine deleteUsers_writes _ fun row hrow p hp hu => ?_
  have hpurge := (List.mem_filter.mp hrow).2
  unfold purgeable at hpurge
  simp only [Bool.and_eq_true, List.all_eq_true, decide_eq_true_eq] at hpurge
  exact hpurge.2 p (List.mem_filter.mpr ⟨hp, by simpa using hu⟩)

/-! ## Releases -/

/-- The two outcomes of `release_device_ip` on a stored row. -/
theorem releaseDeviceIp_cases {device : Device} (hd : device ∈ db.devices) (at_ : Time) :
    releaseDeviceIp db device at_ = (false, db) ∨
      (releaseDeviceIp db device at_ = (true, Write.apply db (.release device at_)) ∧
        ReleaseOk db device) := by
  unfold releaseDeviceIp
  split
  · exact .inl rfl
  next hguard =>
    simp only [Bool.or_eq_true, not_or, Option.isNone_iff_eq_none, Bool.not_eq_true'] at hguard
    obtain ⟨hdel, hip⟩ := hguard
    dsimp only
    split
    · exact .inl rfl
    next hst =>
      refine .inr ⟨rfl, hd, Option.isSome_iff_ne_none.mpr hdel, ?_, ?_⟩
      · obtain ⟨ip, hip, -⟩ := truthy_iff.mp (by simpa using hip)
        rw [hip]
        rfl
      · intro p hp hpd
        by_contra hne
        apply hst
        rw [List.any_eq_true]
        exact ⟨p.status, List.mem_map_of_mem (List.mem_filter.mpr ⟨hp, by simpa using hpd⟩),
          by simpa using hne⟩

theorem releaseDeviceIp_writes {device : Device} (hd : device ∈ db.devices) (at_ : Time) :
    Writes Releases db (releaseDeviceIp db device at_).2 := by
  rcases releaseDeviceIp_cases hd at_ with h | ⟨h, hok⟩
  · rw [h]
    exact .refl db
  · rw [h]
    exact Writes.single (.release device at_) trivial hok

/-- Releasing one row leaves the others of the list stored. -/
theorem mem_releaseDeviceIp {device other : Device} (hd : device ∈ db.devices) (at_ : Time)
    (ho : other ∈ db.devices) (hne : other.id ≠ device.id) :
    other ∈ (releaseDeviceIp db device at_).2.devices := by
  rcases releaseDeviceIp_cases hd at_ with h | ⟨h, -⟩
  · rw [h]
    exact ho
  · rw [h]
    exact Rows.mem_save.mpr (.inr ⟨ho, hne⟩)

theorem releaseRows_writes (at_ : Time) (devices : List Device) :
    ∀ {db : Db}, (devices.map Device.id).Nodup → (∀ d ∈ devices, d ∈ db.devices) →
      Writes Releases db
        (devices.foldl (fun db device => (releaseDeviceIp db device at_).2) db) := by
  induction devices with
  | nil =>
      intro db _ _
      exact .refl db
  | cons d rest ih =>
      intro db hnodup hmem
      rw [List.map_cons, List.nodup_cons] at hnodup
      have hd := hmem d List.mem_cons_self
      refine (releaseDeviceIp_writes hd at_).trans (ih hnodup.2 ?_)
      intro e he
      refine mem_releaseDeviceIp hd at_ (hmem e (List.mem_cons_of_mem _ he)) ?_
      intro heq
      exact hnodup.1 (heq ▸ List.mem_map_of_mem he)

theorem releaseDeviceIps_writes (hwf : db.WF) (ids : List DeviceId) (at_ : Time) :
    Writes Releases db (releaseDeviceIps db ids at_) :=
  releaseRows_writes at_ _ (hwf.deviceIds.filter _) fun _ hd => (List.mem_filter.mp hd).1

/-! ## Devices -/

theorem newDeviceOk_of_insertDevice {device : Device} {db' : Db}
    (h : db.insertDevice device = .ok db') (hid : device.id = db.nextId)
    (hlive : device.deletedAt = none) (hrel : device.releasedVpnIp = none) :
    db' = Write.apply db (.newDevice device) ∧ NewDeviceOk db device := by
  unfold Db.insertDevice at h
  cases hc : db.deviceConflict? device with
  | some c =>
      rw [hc] at h
      cases h
  | none =>
      rw [hc] at h
      cases h
      unfold Db.deviceConflict? at hc
      split at hc
      · cases hc
      next hip =>
        split at hc
        · cases hc
        next hkey =>
          split at hc
          · cases hc
          next howner =>
            refine ⟨rfl, hid, ?_, ?_, ?_, hlive, hrel⟩
            · obtain ⟨u, hu⟩ := Option.ne_none_iff_exists'.mp (by simpa using howner)
              exact ⟨u, Rows.mem_of_get? hu, Rows.key_of_get? hu⟩
            · intro d hd hsome heq
              exact hip ⟨hsome, List.any_eq_true.mpr ⟨d, hd, by simpa using heq⟩⟩
            · intro d hd hsome heq
              exact hkey ⟨hsome, List.any_eq_true.mpr ⟨d, hd, by simpa using heq⟩⟩

/-- What an accepted insert stored. -/
theorem insertDeviceWithUniqueIp_ok {u : UserId} {name : String} {keypair : String × String}
    {now : Time} {device : Device} {db' : Db} : ∀ {attempts : Nat},
    insertDeviceWithUniqueIp cfg db u name keypair now attempts = .ok (device, db') →
    db' = Write.apply db (.newDevice device) ∧ NewDeviceOk db device ∧ device.userId = u ∧
      device.publicKey = some keypair.2
  | 0, h => by cases h
  | attempts + 1, h => by
      unfold insertDeviceWithUniqueIp at h
      cases hip : allocateDeviceIp cfg db with
      | none =>
          rw [hip] at h
          cases h
      | some ip =>
          rw [hip] at h
          dsimp only at h
          split at h
          · next db₁ hins =>
              cases h
              obtain ⟨rfl, hok⟩ := newDeviceOk_of_insertDevice hins rfl rfl rfl
              exact ⟨rfl, hok, rfl, rfl⟩
          · exact insertDeviceWithUniqueIp_ok h
          · cases h

/-- The parts of a successful creation. -/
theorem createDevice_parts {u : UserId} {name : String} {now : Time} {device : Device}
    {ids : List NodeId} {db' : Db} (h : createDevice cfg db u name now = .ok (device, ids, db')) :
    requireActiveOwner db u now = .ok () ∧ NewDeviceOk db device ∧ device.userId = u ∧
      device.publicKey = some (cfg.generateKeypair db.nextId).2 ∧
      (ids, db') = createPendingPeersForDevice cfg (Write.apply db (.newDevice device)) device := by
  unfold createDevice at h
  simp only [bind, Except.bind, pure, Except.pure] at h
  cases howner : requireActiveOwner db u now with
  | error e =>
      rw [howner] at h
      cases h
  | ok _ =>
      rw [howner] at h
      cases hcap : assertDeviceCapacity db u with
      | error e =>
          rw [hcap] at h
          cases h
      | ok _ =>
          rw [hcap] at h
          dsimp only at h
          split at h
          · cases h
          · next res hins =>
              obtain ⟨d, db₁⟩ := res
              obtain ⟨rfl, hok, hu, hkey⟩ := insertDeviceWithUniqueIp_ok hins
              cases h
              exact ⟨rfl, hok, hu, hkey, rfl⟩

theorem createDevice_ok {u : UserId} {name : String} {now : Time} {device : Device}
    {ids : List NodeId} {db' : Db} (h : createDevice cfg db u name now = .ok (device, ids, db')) :
    requireActiveOwner db u now = .ok () ∧ NewDeviceOk db device ∧ device.userId = u ∧
      device.publicKey = some (cfg.generateKeypair db.nextId).2 ∧
      db' = (createPendingPeersForDevice cfg (Write.apply db (.newDevice device)) device).2 := by
  obtain ⟨howner, hok, hu, hkey, hpeers⟩ := createDevice_parts h
  exact ⟨howner, hok, hu, hkey, congrArg Prod.snd hpeers⟩

/-- The writes of a device creation for the account `u`. -/
def CreatesDevice (cfg : Config) (u : UserId) (_ : Db) : Write → Prop
  | .newDevice row => row.userId = u ∧ row.publicKey = some (cfg.generateKeypair row.id).2
  | .newPeer row => row.userId = u
  | _ => False

theorem createDevice_writes {u : UserId} {name : String} {now : Time} {device : Device}
    {ids : List NodeId} {db' : Db} (h : createDevice cfg db u name now = .ok (device, ids, db')) :
    Writes (CreatesDevice cfg u) db db' := by
  obtain ⟨-, hok, rfl, hkey, rfl⟩ := createDevice_ok h
  have hnew : Writes (CreatesDevice cfg device.userId) db (Write.apply db (.newDevice device)) :=
    Writes.single (.newDevice device) ⟨rfl, hok.id ▸ hkey⟩ hok
  refine hnew.trans ((createPendingPeersOn_writes _
    (List.mem_append_right _ List.mem_cons_self)).mono ?_)
  intro db w h
  cases w <;> first | exact h | exact h.elim

/-- The row a deletion leaves for `device`. -/
def Device.tombstonedAt (device : Device) (at_ : Time) : Device :=
  { device with deletedAt := device.deletedAt.or (some at_) }

theorem deleteDevice_db {deviceId : DeviceId} {device : Device}
    (h : db.device? deviceId = some device) (at_ : Time) :
    (deleteDevice db deviceId at_).2 =
      (releaseDeviceIp (Write.apply db (.tombstone (device.tombstonedAt at_)))
        (device.tombstonedAt at_) at_).2 := by
  have hid : device.id = deviceId := Rows.key_of_get? h
  unfold deleteDevice
  rw [h, ← hid]
  rfl

theorem tombstoneOk {device : Device} (hd : device ∈ db.devices) (at_ : Time) :
    TombstoneOk db (device.tombstonedAt at_) := ⟨device, hd, at_, rfl⟩

theorem mem_tombstone {device : Device} (hd : device ∈ db.devices) (at_ : Time) :
    device.tombstonedAt at_ ∈
      (Write.apply db (.tombstone (device.tombstonedAt at_))).devices :=
  Rows.mem_save.mpr (.inl ⟨rfl, device, hd, rfl⟩)

/-! ## Node results -/

theorem OfOwner.ofEntries {u : UserId} {results : List PeerSyncResult} {w : Write}
    (h : OfOwner u db w) : OfEntries results now db w := by
  cases w <;> first | exact h.elim | exact ⟨u, h⟩

theorem enforceLimits_writes {st : PeerResults} (hwf : st.db.WF) (u : UserId) (now : Time) :
    Writes (OfOwner u) st.db (enforceLimits cfg st u now).db := by
  have hlocal : Writes (OfOwner u) st.db (enforceLocalLifecycleForUser cfg st.db u now).2 :=
    enforceLocalLifecycleForUser_writes hwf u now
  exact hlocal.trans (enforceRemnawaveCombinedLimitForUser_writes (hlocal.wf hwf) u)

theorem loaded_peer {key : Option PeerId} {peer : Peer} (h : key.bind db.peer? = some peer) :
    peer ∈ db.peers ∧ key = some peer.id := by
  obtain ⟨id, hloaded, hget⟩ := Option.bind_eq_some_iff.mp h
  have hid : peer.id = id := Rows.key_of_get? hget
  exact ⟨Rows.mem_of_get? hget, hloaded.trans (congrArg some hid.symm)⟩

/-- **Entry.** What the reading of a loaded peer keeps, and the limits enforced
after it, an entry keeps. -/
theorem applyPeerEntry_keeps {I : PeerResults → Prop} {loaded : String → Option PeerId}
    {st : PeerResults} {data : PeerSyncResult} {now : Time} (hwf : st.db.WF) (hI : I st)
    (hread : ∀ peer ∈ st.db.peers, loaded data.publicKey = some peer.id → I { st with
      db := (applyPeerResult st.db peer data now).2
      acknowledgedOwnerIds := st.acknowledgedOwnerIds ++ [peer.userId] })
    (hlimits : ∀ (st' : PeerResults) (v : UserId), st'.db.WF → I st' →
      I (enforceLimits cfg st' v now)) : I (applyPeerEntry cfg loaded st data now) := by
  unfold applyPeerEntry
  cases hp : (loaded data.publicKey).bind st.db.peer? with
  | none => exact hI
  | some peer =>
      obtain ⟨hmem, hloaded⟩ := loaded_peer hp
      have hafter := hread peer hmem hloaded
      dsimp only
      split
      · exact hlimits _ peer.userId (hwf.reading hmem data now) hafter
      · exact hafter

theorem applyPeerEntry_writes {loaded : String → Option PeerId} {st : PeerResults}
    (hwf : st.db.WF) {results : List PeerSyncResult} {data : PeerSyncResult}
    (hdata : data ∈ results) (now : Time) :
    Writes (OfEntries results now) st.db (applyPeerEntry cfg loaded st data now).db := by
  refine applyPeerEntry_keeps (I := fun st' => Writes (OfEntries results now) st.db st'.db) hwf
    (.refl st.db) ?_ ?_
  · intro peer hmem _
    exact Writes.single (.reading peer data now) ⟨hdata, rfl⟩ hmem
  · intro st' v hwf' hread
    exact hread.trans ((enforceLimits_writes hwf' v now).mono fun _ _ hw => OfOwner.ofEntries hw)

/-- **Entry loop.** What every entry keeps, on well-formed tables, the loop
keeps. -/
theorem applyPeerEntries_keeps {I : PeerResults → Prop} {loaded : String → Option PeerId}
    {now : Time} (results : List PeerSyncResult)
    (hkeeps : ∀ data ∈ results, ∀ st : PeerResults, st.db.WF → I st →
      I (applyPeerEntry cfg loaded st data now)) :
    ∀ {st : PeerResults}, st.db.WF → I st → I (applyPeerEntries cfg loaded now results st) := by
  induction results with
  | nil =>
      intro st _ h
      exact h
  | cons data rest ih =>
      intro st hwf h
      have hone : Writes (OfEntries [data] now) st.db (applyPeerEntry cfg loaded st data now).db :=
        applyPeerEntry_writes hwf List.mem_cons_self now
      exact ih (fun e he => hkeeps e (List.mem_cons_of_mem _ he)) (hone.wf hwf)
        (hkeeps data List.mem_cons_self st hwf h)

theorem applyPeerEntries_writes {loaded : String → Option PeerId} {results : List PeerSyncResult}
    {now : Time} (entries : List PeerSyncResult) :
    ∀ {st : PeerResults}, st.db.WF → (∀ e ∈ entries, e ∈ results) →
      Writes (OfEntries results now) st.db (applyPeerEntries cfg loaded now entries st).db := by
  intro st hwf hmem
  refine applyPeerEntries_keeps (I := fun st' => Writes (OfEntries results now) st.db st'.db)
    entries ?_ hwf (.refl st.db)
  intro data hdata st' hwf' h
  exact h.trans (applyPeerEntry_writes hwf' (hmem data hdata) now)

theorem applyPeerResults_writes (hwf : db.WF) (nodeId : NodeId) (results : List PeerSyncResult)
    (now : Time) :
    Writes (OfEntries results now) db (applyPeerResults cfg db nodeId results now).db := by
  have hstart : PeerResults.db { db } = db := rfl
  have hw : Writes (OfEntries results now) (PeerResults.db { db })
      (applyPeerResults cfg db nodeId results now).db :=
    applyPeerEntries_writes results hwf fun _ h => h
  rwa [hstart] at hw

/-- The writes of a sync result up to its confirmations: only a peer of the node
whose key the answer does not list becomes `deleted`. -/
def OfSync (nodeId : NodeId) (data : SyncResult) (now : Time) (db : Db) : Write → Prop
  | .node _ => True
  | .reading _ entry at_ => entry ∈ data.peers ∧ at_ = now
  | .user _ => True
  | .newPeer _ => True
  | .peers f => ∀ p ∈ db.peers, (f p).status = .deleted → p.status = .deleted ∨
      removalConfirmed db nodeId (data.peers.map (·.publicKey)) p
  | _ => False

theorem OfEntries.ofSync {nodeId : NodeId} {data : SyncResult} {w : Write}
    (h : OfEntries data.peers now db w) : OfSync nodeId data now db w := by
  cases w with
  | reading row entry now => exact h
  | user row => trivial
  | newPeer row => trivial
  | peers f =>
      obtain ⟨u, -, hdel⟩ := h
      exact fun p hp hst => .inl (hdel p hp hst)
  | _ =>
      obtain ⟨u, h⟩ := h
      exact h.elim

theorem peersOk_confirmPeer (db : Db) (nodeId : NodeId) (seen : List String) :
    PeersOk db (confirmPeer db nodeId seen) := by
  refine ⟨?_, ?_, ?_, ?_⟩
  · intro p _
    unfold confirmPeer
    split
    · exact ⟨rfl, rfl, rfl, rfl, rfl⟩
    · exact .refl p
  · intro p _
    unfold confirmPeer
    split <;> rfl
  · intro p _
    unfold confirmPeer
    split <;> rfl
  · intro p _ hl
    unfold confirmPeer at hl
    split at hl
    · cases hl
    · exact .inl hl

theorem confirmPeer_writes (db : Db) (nodeId : NodeId) (data : SyncResult) :
    Writes (OfSync nodeId data now) db
      (db.mapPeers (confirmPeer db nodeId (data.peers.map (·.publicKey)))) := by
  refine Writes.single (.peers _) ?_ (peersOk_confirmPeer db nodeId _)
  intro p _ hdel
  unfold confirmPeer at hdel
  split at hdel
  · next h => exact .inr h
  · exact .inl hdel

theorem confirmRemovals_writes (hwf : db.WF) (nodeId : NodeId) (data : SyncResult) (now : Time) :
    Writes (OfSync nodeId data now) db (confirmRemovals cfg db nodeId data now).db := by
  have hentries : Writes (OfSync nodeId data now) db
      (applyPeerResults cfg db nodeId data.peers now).db :=
    (applyPeerResults_writes hwf nodeId data.peers now).mono fun _ _ h => OfEntries.ofSync h
  exact hentries.trans (confirmPeer_writes _ nodeId data)

theorem saveNode_writes {P : Db → Write → Prop} {node row : Node} (hnode : ∀ db, P db (.node row))
    (hn : node ∈ db.nodes) (hid : row.id = node.id) : Writes P db (db.saveNode row) :=
  Writes.single (.node row) (hnode db) ⟨node, hn, hid.symm⟩

theorem syncedNode_id (node : Node) (data : SyncResult) (now : Time) :
    (syncedNode node data now).id = node.id := by
  unfold syncedNode
  cases data.interface <;> rfl

/-- A successful result up to its confirmations, from the request's tables. -/
theorem syncConfirmed_writes (hwf : db.WF) {node : Node} (hn : node ∈ db.nodes)
    (data : SyncResult) (now : Time) :
    Writes (OfSync node.id data now) db
      (confirmRemovals cfg (db.saveNode (syncedNode node data now)) node.id data now).db := by
  have hsave : Writes (OfSync node.id data now) db (db.saveNode (syncedNode node data now)) :=
    saveNode_writes (fun _ => trivial) hn (syncedNode_id node data now)
  exact hsave.trans (confirmRemovals_writes (hsave.wf hwf) node.id data now)

/-! ## Every route -/

/-- Any guarded write. -/
def AnyWrite (_ : Db) (_ : Write) : Prop := True

/-- The peer entries a request carries. -/
def Request.entries : Request → List PeerSyncResult
  | .syncResult _ data => data.peers
  | .heartbeatResult _ data => data.peers
  | _ => []

/-- The removals a request confirms. -/
def Request.Confirms (db : Db) (peer : Peer) : Request → Prop
  | .syncResult nodeId data =>
      data.ok ∧ removalConfirmed db nodeId (data.peers.map (·.publicKey)) peer
  | _ => False

/-- Any write of a request that is neither a release nor part of a purge: its
readings are entries of the request, only the request's confirmations and
deletions remove anything, a new device gets the key drawn for it, and what is
stamped is stamped with the request's clock reading. -/
def Ordinary (cfg : Config) (call : Call) (db : Db) : Write → Prop
  | .release _ _ => False
  | .reading _ data at_ => data ∈ call.request.entries ∧ at_ = call.now
  | .resetTraffic row at_ => call.request = .resetLocalTraffic row.id ∧ at_ = call.now
  | .newDevice row => row.publicKey = some (cfg.generateKeypair row.id).2
  | .peers f => ∀ p ∈ db.peers, (f p).status = .deleted → p.status = .deleted ∨
      call.request.Confirms db p
  | .deleteUser id => call.request = .deleteUser id
  | .deleteNode id => call.request = .deleteNode id
  | _ => True

theorem Writes.any {P : Db → Write → Prop} {db' : Db} (h : Writes P db db') :
    Writes AnyWrite db db' := h.mono fun _ _ _ => trivial

variable {call : Call}

theorem OfOwner.ordinary {u : UserId} {w : Write} (h : OfOwner u db w) :
    Ordinary cfg call db w := by
  cases w with
  | peers f => exact fun p hp hdel => .inl (h.2 p hp hdel)
  | _ => first | exact h.elim | trivial

theorem Imports.ordinary {w : Write} (h : Imports db w) : Ordinary cfg call db w := by
  cases w with
  | profile row => trivial
  | newImport row imported => trivial
  | _ =>
      obtain ⟨r, hr, h⟩ := h
      exact OfOwner.ordinary h

theorem OfEntries.ordinary {w : Write} (h : OfEntries call.request.entries call.now db w) :
    Ordinary cfg call db w := by
  cases w with
  | reading row data now => exact h
  | _ =>
      obtain ⟨u, h⟩ := h
      exact OfOwner.ordinary h

theorem OfSync.ordinary {nodeId : NodeId} {data : SyncResult} (hgood : data.ok) {w : Write}
    (h : OfSync nodeId data now db w) : Ordinary cfg ⟨now, .syncResult nodeId data⟩ db w := by
  cases w with
  | peers f => exact fun p hp hdel => (h p hp hdel).imp_right fun hconf => ⟨hgood, hconf⟩
  | _ => first | exact h.elim | exact h

/-- The order of the writes of a request: first everything else, then the
releases, then the account deletions of a purge. -/
structure Phases (cfg : Config) (call : Call) (db db' : Db) : Prop where
  intro ::
  exists_phases : ∃ db₁ db₂, Writes (Ordinary cfg call) db db₁ ∧ Writes Releases db₁ db₂ ∧
    Writes Purges db₂ db'

theorem Writes.phases {db' : Db} (h : Writes (Ordinary cfg call) db db') : Phases cfg call db db' :=
  ⟨db', db', h, .refl db', .refl db'⟩

theorem Phases.writes {db' : Db} (h : Phases cfg call db db') : Writes AnyWrite db db' := by
  obtain ⟨db₁, db₂, h₁, h₂, h₃⟩ := h
  exact (h₁.any.trans h₂.any).trans h₃.any

theorem deleteDevice_phases (deviceId : DeviceId) (at_ : Time) :
    Phases cfg call db (deleteDevice db deviceId at_).2 := by
  cases h : db.device? deviceId with
  | none =>
      unfold deleteDevice
      rw [h]
      exact Writes.phases (.refl db)
  | some device =>
      rw [deleteDevice_db h]
      have hd : device ∈ db.devices := Rows.mem_of_get? h
      exact ⟨_, _,
        Writes.single (.tombstone (device.tombstonedAt at_)) trivial (tombstoneOk hd at_),
        releaseDeviceIp_writes (mem_tombstone hd at_) at_, .refl _⟩

theorem applySyncResult_phases (hwf : db.WF) {node : Node} (hn : node ∈ db.nodes)
    {data : SyncResult} (hgood : data.ok) (now : Time) :
    Phases cfg ⟨now, .syncResult node.id data⟩ db (applySyncResult cfg db node data now).db := by
  have hconf := (syncConfirmed_writes hwf hn data now :
    Writes _ db (confirmRemovals cfg (db.saveNode (syncedNode node data now)) node.id data now).db)
  exact ⟨_, _, hconf.mono fun _ _ h => OfSync.ordinary hgood h,
    releaseDeviceIps_writes (hconf.wf hwf) _ now, purgeConfirmedRemnawaveDeletes_writes _⟩

/-- The scope of a heartbeat: the node row and the entries. -/
def OfHeartbeat (results : List PeerSyncResult) (now : Time) (db : Db) : Write → Prop
  | .node _ => True
  | w => OfEntries results now db w

theorem OfEntries.ofHeartbeat {results : List PeerSyncResult} {w : Write}
    (h : OfEntries results now db w) : OfHeartbeat results now db w := by
  cases w <;> trivial

theorem OfHeartbeat.ordinary {w : Write} (h : OfHeartbeat call.request.entries call.now db w) :
    Ordinary cfg call db w := by
  cases w with
  | node row => trivial
  | _ => exact OfEntries.ordinary h

theorem applyHeartbeatResult_writes (hwf : db.WF) {node : Node} (hn : node ∈ db.nodes)
    (data : HeartbeatResult) (now : Time) :
    Writes (OfHeartbeat data.peers now) db (applyHeartbeatResult cfg db node data now).db := by
  let row := applyNodeHeartbeatResult node data now
  have hsave : Writes (OfHeartbeat data.peers now) db (db.saveNode row) :=
    saveNode_writes (fun _ => trivial) hn rfl
  unfold applyHeartbeatResult
  dsimp only
  split
  · exact hsave.trans ((applyPeerResults_writes (hsave.wf hwf) node.id data.peers now).mono
      fun _ _ h => OfEntries.ofHeartbeat h)
  · exact hsave

/-- The tail of the lifecycle routes on a stored account. -/
theorem commitLifecycle_writes (hwf : db.WF) {user : User} (row : User) (hu : user ∈ db.users)
    (hid : user.id = row.id) (hreset : user.trafficResetAt = row.trafficResetAt)
    (total : Option Nat) (now : Time) :
    Writes (OfOwner row.id) db (commitLifecycle cfg db row total now).db :=
  applyLocalLifecycleState_writes hwf ⟨user, hu, hid, hreset⟩ total now

theorem commitLifecycle_phases (hwf : db.WF) {u : UserId} {user : User} (row : User)
    (hu : localUser db u = .ok user) (hid : user.id = row.id)
    (hreset : user.trafficResetAt = row.trafficResetAt) (total : Option Nat) (now : Time) :
    Phases cfg call db (commitLifecycle cfg db row total now).db :=
  ((commitLifecycle_writes hwf row (Rows.mem_of_get? (localUser_ok hu).1) hid hreset total now).mono
    fun _ _ h => OfOwner.ordinary h).phases

theorem resetTraffic_writes (hwf : db.WF) {user : User} (hu : user ∈ db.users) (now : Time) :
    Writes (Ordinary cfg ⟨now, .resetLocalTraffic user.id⟩) db
      (commitLifecycle cfg (resetLocalTrafficUsage db user now).2
        (resetLocalTrafficUsage db user now).1 (some 0) now).db := by
  have hreset : Writes (Ordinary cfg ⟨now, .resetLocalTraffic user.id⟩) db
      (resetLocalTrafficUsage db user now).2 :=
    Writes.single (.resetTraffic user now) ⟨rfl, rfl⟩ ⟨user, hu, rfl⟩
  have hstamped : (resetLocalTrafficUsage db user now).1 ∈
      (resetLocalTrafficUsage db user now).2.users :=
    Rows.mem_save.mpr (.inl ⟨rfl, user, hu, rfl⟩)
  exact hreset.trans ((commitLifecycle_writes (hreset.wf hwf) _ hstamped rfl rfl _ _).mono
    fun _ _ h => OfOwner.ordinary h)

theorem addNode_writes {node : Node} (hid : node.id = db.nextId) :
    Writes AddsNode db (createPendingPeersForNode cfg (db.insertNode node) node) := by
  have hnew : Writes AddsNode db (db.insertNode node) := Writes.single (.newNode node) trivial hid
  exact hnew.trans (createPendingPeersOf_writes node.id _ fun d hd => (List.mem_filter.mp hd).1)

/-- **Refinement.** Every accepted request is a sequence of guarded writes, in
the order of `Phases`; only its entries are read into the accounts. -/
theorem handle_phases (hwf : db.WF) {now : Time} {request : Request} {e : Effect}
    (h : handle cfg db now request = .ok e) : Phases cfg ⟨now, request⟩ db e.db := by
  cases request with
  | addUser name limit =>
      rw [apiAddUser_ok h]
      exact (Writes.single (.newUser { id := db.nextId, name, deviceLimit := limit })
        trivial ⟨rfl, rfl⟩).phases
  | updateDeviceLimit u limit =>
      obtain ⟨user, hu, he⟩ := apiUpdateDeviceLimit_ok h
      rw [he]
      exact (Writes.single (.user { user with deviceLimit := limit }) trivial
        ⟨user, Rows.mem_of_get? (localUser_ok hu).1, rfl, rfl⟩).phases
  | blockUser u =>
      obtain ⟨user, hu, rfl⟩ := apiBlockUser_ok h
      exact commitLifecycle_phases hwf { user with lifecycleStatus := .blocked } hu rfl rfl _ _
  | unblockUser u =>
      obtain ⟨user, hu, -, rfl⟩ := apiUnblockUser_ok h
      exact commitLifecycle_phases hwf { user with lifecycleStatus := .active } hu rfl rfl _ _
  | updateLocalLifecycle u data =>
      obtain ⟨user, hu, rfl⟩ := apiUpdateLocalLifecycle_ok h
      exact commitLifecycle_phases hwf (data.apply user) hu rfl rfl _ _
  | resetLocalTraffic u =>
      obtain ⟨user, hu, -, rfl⟩ := apiResetLocalTraffic_ok h
      have hid : user.id = u := Rows.key_of_get? (localUser_ok hu).1
      rw [← hid]
      exact (resetTraffic_writes hwf (Rows.mem_of_get? (localUser_ok hu).1) now).phases
  | deleteUser u =>
      obtain ⟨user, hu, he, -⟩ := apiDeleteUser_ok h
      rw [he]
      have hid : user.id = u := Rows.key_of_get? (localUser_ok hu).1
      exact (Writes.single (.deleteUser user.id) (congrArg Request.deleteUser hid.symm)
        trivial).phases
  | addNode data =>
      cases h
      refine ((addNode_writes rfl).mono ?_).phases
      intro db w h
      cases w <;> first | exact h.elim | trivial
  | updateNode nodeId data =>
      obtain ⟨node, hn, he⟩ := apiUpdateNode_ok h
      rw [he]
      exact Writes.phases (saveNode_writes (fun _ => trivial) (Rows.mem_of_get? hn) rfl)
  | deleteNode nodeId =>
      obtain ⟨node, -, he⟩ := apiDeleteNode_ok h
      rw [he]
      exact ⟨_, _, Writes.single (.deleteNode nodeId) rfl trivial,
        releaseDeviceIps_writes (hwf.delete_node nodeId) _ now, .refl _⟩
  | addDevice u name =>
      obtain ⟨user, device, ids, -, hc, -⟩ := pubAddDevice_ok h
      refine ((createDevice_writes hc).mono ?_).phases
      intro db w h
      cases w <;> first | exact h.elim | exact h.2 | trivial
  | deleteDevice u deviceId =>
      obtain ⟨device, -, -, he⟩ := pubDeleteDevice_ok h
      rw [he]
      exact deleteDevice_phases deviceId now
  | upsert data =>
      obtain ⟨st, hst, he⟩ := upsertRemnawaveUsers_ok h
      rw [he]
      exact ((upsertItems_writes data hwf (UpsertState.heldOk_start _) hst).mono
        fun _ _ h => Imports.ordinary h).phases
  | markDeleted uuid =>
      rcases markRemnawaveUserDeleted_ok h with he | ⟨row, hr, -, user, hu, he⟩
      · rw [he]
        exact Writes.phases (.refl db)
      · rw [he]
        exact ((requestRemnawaveDelete_writes hr hu now).mono
          fun _ _ h => Imports.ordinary h).phases
  | reconcileComplete seen =>
      cases h
      exact ⟨_, _, (reconcileMissingRemnawaveUsers_writes hwf seen).mono
        fun _ _ h => Imports.ordinary h, .refl _, purgeConfirmedRemnawaveDeletes_writes _⟩
  | syncResult nodeId data =>
      obtain ⟨node, hn, ⟨-, he⟩ | ⟨hgood, he⟩⟩ := nodeSyncResult_ok h
      · rw [he]
        exact Writes.phases (saveNode_writes (fun _ => trivial) (Rows.mem_of_get? hn) rfl)
      · have hid : node.id = nodeId := Rows.key_of_get? hn
        rw [he, ← hid]
        exact applySyncResult_phases hwf (Rows.mem_of_get? hn) hgood now
  | heartbeatResult nodeId data =>
      obtain ⟨node, hn, he⟩ := nodeHeartbeatResult_ok h
      rw [he]
      refine ((applyHeartbeatResult_writes hwf (Rows.mem_of_get? hn) data now).mono ?_).phases
      exact fun db w (h : OfHeartbeat (Request.heartbeatResult nodeId data).entries now db w) =>
        OfHeartbeat.ordinary h

theorem afterRequest_phases (hwf : db.WF) (now : Time) (request : Request) :
    Phases cfg ⟨now, request⟩ db (afterRequest cfg db now request) := by
  unfold afterRequest
  cases h : handle cfg db now request with
  | error err => exact Writes.phases (.refl db)
  | ok e => exact handle_phases hwf h

/-! ## Runs -/

/-- A step of the panel handles one request. -/
theorem panel_step {s s' : Panel} {call : Call} (h : (panel cfg).step s call = some s') :
    s.clock ≤ call.now ∧ s' = ⟨afterRequest cfg s.db call.now call.request, call.now⟩ := by
  simp only [panel] at h
  split at h
  · cases h
  · next hclock => exact ⟨not_lt.mp hclock, (Option.some.inj h).symm⟩

theorem panel_step_phases {s s' : Panel} {call : Call} (hwf : s.db.WF)
    (h : (panel cfg).step s call = some s') : Phases cfg call s.db s'.db := by
  obtain ⟨-, rfl⟩ := panel_step h
  exact afterRequest_phases hwf call.now call.request

/-- Every reachable panel has well-formed tables. -/
theorem panel_wf {s : Panel} (h : (panel cfg).Reachable s) : s.db.WF := by
  refine TSys.Reaches.invariant (P := fun s => s.db.WF) Db.WF.empty ?_ h
  intro s call s' hwf _ hstep
  exact (panel_step_phases hwf hstep).writes.wf hwf

/-- **Run rule.** What every accepted request of a run keeps, the run keeps; a
refused one leaves the tables as they were. -/
theorem panel_trace_keeps {P : Db → Prop} {ok : Call → Prop} {s t : Panel}
    {steps : List (Panel × Call)}
    (hkeeps : ∀ {db : Db} {call : Call} {e : Effect}, db.WF → P db → ok call →
      handle cfg db call.now call.request = .ok e → P e.db)
    (htrace : (panel cfg).Trace s steps t) (hsteps : ∀ x ∈ steps, ok x.2) (hwf : s.db.WF)
    (h : P s.db) : t.db.WF ∧ P t.db := by
  induction htrace with
  | nil _ => exact ⟨hwf, h⟩
  | @cons s s' t call steps hstep _ ih =>
      have hlater : P s'.db := by
        obtain ⟨-, rfl⟩ := panel_step hstep
        show P (afterRequest cfg s.db call.now call.request)
        unfold afterRequest
        cases hok : handle cfg s.db call.now call.request with
        | error err => exact h
        | ok e => exact hkeeps hwf h (hsteps _ List.mem_cons_self) hok
      exact ih (fun x hx => hsteps x (List.mem_cons_of_mem _ hx))
        ((panel_step_phases hwf hstep).writes.wf hwf) hlater

/-- The steps of a run from well-formed tables are one sequence of writes. -/
theorem panel_trace_writes {s t : Panel} {steps : List (Panel × Call)}
    (h : (panel cfg).Trace s steps t) : s.db.WF → Writes AnyWrite s.db t.db := by
  induction h with
  | nil s =>
      intro _
      exact .refl s.db
  | cons hstep _ ih =>
      intro hwf
      have hw := (panel_step_phases hwf hstep).writes
      exact hw.trans (ih (hw.wf hwf))

end VpnPanel.Backend
