import VpnPanel.Backend.Agreement

/-!
# Accounts that leave

What a completed reconcile, a sync result and the purge do to the peers of an
imported account, status by status. A reconcile takes every peer of a missing
account back to `pending_delete`; a sync result confirms removals, and an entry
of it may reopen one: by its report, or by the combined limit it meets.
-/

namespace VpnPanel.Backend

open VpnPanel.Lib

variable {cfg : Config} {db db' : Db} {u v : UserId}

/-! ## A completed reconcile -/

/-- The row `mark_remnawave_user_stale` leaves. -/
def RemnawaveUser.staled (row : RemnawaveUser) : RemnawaveUser :=
  { row with syncStatus := .stale, syncReason := some "remote user missing", syncError := none }

/-- The tables with the accounts `ids` marked stale. -/
def Db.staled (db : Db) (ids : List UserId) : Db :=
  { db with
    profiles := db.profiles.map fun r => if r.userId ∈ ids then r.staled else r
    users := db.users.map fun x => if x.id ∈ ids then { x with isBlocked := true } else x
    peers := db.peers.map fun p =>
      if p.userId ∈ ids then { p with status := .pendingDelete } else p }

theorem Db.staled_nil (db : Db) : db.staled [] = db := by
  simp [Db.staled]

theorem Db.staled_cons (db : Db) (id : UserId) (ids : List UserId) :
    (db.staled [id]).staled ids = db.staled (id :: ids) := by
  unfold Db.staled
  simp only [List.map_map]
  congr 1
  · apply List.map_congr_left
    intro x _
    by_cases h : x.id = id <;> by_cases h' : x.id ∈ ids <;> simp [h, h']
  · apply List.map_congr_left
    intro r _
    by_cases h : r.userId = id <;> by_cases h' : r.userId ∈ ids <;>
      simp [h, h', RemnawaveUser.staled]
  · apply List.map_congr_left
    intro p _
    by_cases h : p.userId = id <;> by_cases h' : p.userId ∈ ids <;> simp [h, h']

theorem transitionOf_true (hwf : db.WF) {p : Peer} (hp : p ∈ db.peers) :
    transitionOf db (loadPeers db u) true p =
      if p.userId ∈ [u] then { p with status := .pendingDelete } else p := by
  by_cases h : p.userId = u
  · rw [if_pos (by simpa using h)]
    unfold transitionOf transitionPeer
    rw [if_pos ((mem_loadPeers hwf hp).mpr h)]
    rfl
  · rw [if_neg (by simpa using h)]
    exact transitionOf_of_not_mem fun hm => h ((mem_loadPeers hwf hp).mp hm)

/-- One stored profile. -/
theorem markRemnawaveUserStale_db (hwf : db.WF) {row : RemnawaveUser} (hr : row ∈ db.profiles) :
    (markRemnawaveUserStale db row).2 = db.staled [row.userId] := by
  obtain ⟨user, hu, huid⟩ := hwf.profileOwner row hr
  have hget : db.user? row.userId = some user := hwf.userIds.get?_iff.mpr ⟨hu, huid⟩
  unfold markRemnawaveUserStale
  rw [hget]
  have hsaved : (db.saveProfile row.staled).WF :=
    hwf.save_profile ⟨row, hr, rfl, rfl⟩
  have hwf' : ((db.saveProfile row.staled).saveUser { user with isBlocked := true }).WF :=
    hsaved.save_user _
  show Db.mapPeers _ _ = _
  unfold Db.mapPeers Db.staled
  congr 1
  · apply List.map_congr_left
    intro x hx
    by_cases h : x.id = user.id
    · rw [if_pos h, if_pos (by simpa using h.trans huid), hwf.userIds.eq_of_key hx hu h]
    · rw [if_neg h, if_neg (by simpa [← huid] using h)]
  · apply List.map_congr_left
    intro r hr'
    by_cases h : r.userId = row.userId
    · rw [if_pos h, if_pos (by simpa using h), hwf.profileUsers.eq_of_key hr' hr h]
      rfl
    · rw [if_neg h, if_neg (by simpa using h)]
  · apply List.map_congr_left
    intro p hp
    refine (transitionOf_true (u := user.id) hwf' hp).trans ?_
    rw [huid]

/-- A node is affected when it holds a peer of the account that was not going
away yet. -/
theorem mem_markRemnawaveUserStale (hwf : db.WF) {row : RemnawaveUser} (hr : row ∈ db.profiles)
    {nodeId : NodeId} : nodeId ∈ (markRemnawaveUserStale db row).1 ↔
      ∃ p ∈ db.peers, p.userId = row.userId ∧ p.status ≠ .pendingDelete ∧ p.nodeId = nodeId := by
  obtain ⟨user, hu, huid⟩ := hwf.profileOwner row hr
  have hget : db.user? row.userId = some user := hwf.userIds.get?_iff.mpr ⟨hu, huid⟩
  unfold markRemnawaveUserStale
  rw [hget]
  show nodeId ∈ ((db.peers.filter (·.id ∈ loadPeers db user.id)).filter fun p =>
    (transitionPeer true _ (loadPeers db user.id) p).status ≠ p.status).map (·.nodeId) ↔ _
  rw [List.mem_map]
  constructor
  · rintro ⟨p, hp, hnode⟩
    obtain ⟨hp, hmoved⟩ := List.mem_filter.mp hp
    obtain ⟨hp, hloaded⟩ := List.mem_filter.mp hp
    have hload : p.id ∈ loadPeers db user.id := by simpa using hloaded
    refine ⟨p, hp, ((mem_loadPeers hwf hp).mp hload).trans huid, ?_, hnode⟩
    intro hst
    simp [transitionPeer, transitionStatus, hload, hst] at hmoved
  · rintro ⟨p, hp, howner, hst, hnode⟩
    have hload : p.id ∈ loadPeers db user.id := (mem_loadPeers hwf hp).mpr (howner.trans huid.symm)
    refine ⟨p, List.mem_filter.mpr ⟨List.mem_filter.mpr ⟨hp, by simpa using hload⟩, ?_⟩, hnode⟩
    simpa [transitionPeer, transitionStatus, hload] using fun h => hst h.symm

/-- What the loop over the missing profiles leaves: the tables, and the nodes
it affected. -/
structure Stales (rows : List RemnawaveUser) (db : Db) (result : List NodeId × Db) : Prop where
  tables : result.2 = db.staled (rows.map (·.userId))
  affected : ∀ nodeId, nodeId ∈ result.1 ↔ ∃ p ∈ db.peers, p.userId ∈ rows.map (·.userId) ∧
    p.status ≠ .pendingDelete ∧ p.nodeId = nodeId

theorem markRowsStale_spec (rows : List RemnawaveUser) :
    ∀ {db : Db}, db.WF → (rows.map (·.userId)).Nodup → (∀ row ∈ rows, row ∈ db.profiles) →
      Stales rows db (markRowsStale rows db) := by
  induction rows with
  | nil =>
      intro db _ _ _
      exact ⟨db.staled_nil.symm, by simp [markRowsStale]⟩
  | cons row rest ih =>
      intro db hwf hnodup hmem
      rw [List.map_cons, List.nodup_cons] at hnodup
      have hr := hmem row List.mem_cons_self
      have hdb := markRemnawaveUserStale_db hwf hr
      have hwf' : (db.staled [row.userId]).WF := by
        rw [← hdb]
        exact (markRemnawaveUserStale_writes hwf ⟨row, hr, rfl, rfl⟩).wf hwf
      -- the other rows of the loop are still stored as they were read
      have hrest : ∀ r ∈ rest, r ∈ (db.staled [row.userId]).profiles := by
        intro r hr'
        have hne : r.userId ≠ row.userId := by
          intro heq
          exact hnodup.1 (heq ▸ List.mem_map_of_mem hr')
        refine List.mem_map.mpr ⟨r, hmem r (List.mem_cons_of_mem _ hr'), if_neg ?_⟩
        simpa using hne
      have hlater := ih hwf' hnodup.2 hrest
      rw [← hdb] at hlater
      refine ⟨?_, fun nodeId => ?_⟩
      · show (markRowsStale rest (markRemnawaveUserStale db row).2).2 = _
        rw [hlater.tables, hdb, Db.staled_cons]
        rfl
      · show nodeId ∈ (markRemnawaveUserStale db row).1 ++
          (markRowsStale rest (markRemnawaveUserStale db row).2).1 ↔ _
        rw [List.mem_append, mem_markRemnawaveUserStale hwf hr, hlater.affected, hdb]
        constructor
        · rintro (⟨p, hp, howner, h⟩ | ⟨q, hq, howner, hst, hnode⟩)
          · exact ⟨p, hp, by simp [howner], h⟩
          · obtain ⟨p, hp, rfl⟩ := List.mem_map.mp hq
            by_cases h : p.userId ∈ [row.userId]
            · rw [if_pos h] at hst
              exact absurd rfl hst
            · rw [if_neg h] at howner hst hnode
              exact ⟨p, hp, List.mem_cons_of_mem _ howner, hst, hnode⟩
        · rintro ⟨p, hp, howner, hst, hnode⟩
          by_cases h : p.userId = row.userId
          · exact .inl ⟨p, hp, h, hst, hnode⟩
          · refine .inr ⟨p, List.mem_map.mpr ⟨p, hp, if_neg (by simpa using h)⟩, ?_, hst, hnode⟩
            rw [List.map_cons, List.mem_cons] at howner
            exact howner.resolve_left h

/-- The accounts whose profile the list leaves out. -/
def missingOwners (db : Db) (seenUuids : List String) : List UserId :=
  (db.profiles.filter (·.remnawaveUuid ∉ seenUuids)).map (·.userId)

theorem mem_missingOwners {seen : List String} :
    u ∈ missingOwners db seen ↔ ∃ r ∈ db.profiles, r.remnawaveUuid ∉ seen ∧ r.userId = u := by
  simp [missingOwners, and_assoc]

/-- **Reconcile.** Every missing account is blocked and marked, and every peer
of it goes back to `pending_delete`, whatever its status was. -/
theorem reconcileMissing_spec (hwf : db.WF) (seen : List String) :
    Stales (db.profiles.filter (·.remnawaveUuid ∉ seen)) db
      (reconcileMissingRemnawaveUsers db seen) :=
  markRowsStale_spec _ hwf (hwf.profileUsers.filter _) fun _ hr => (List.mem_filter.mp hr).1

theorem reconcileMissing_peers (hwf : db.WF) (seen : List String) :
    (reconcileMissingRemnawaveUsers db seen).2.peers =
      db.peers.map fun p =>
        if p.userId ∈ missingOwners db seen then { p with status := .pendingDelete } else p := by
  rw [(reconcileMissing_spec hwf seen).tables]
  rfl

/-- The profiles of a completed reconcile, before the purge, are the stored
ones under the same account and uuid. -/
theorem reconcileMissing_profile (hwf : db.WF) {seen : List String} {r : RemnawaveUser}
    (hr : r ∈ (reconcileMissingRemnawaveUsers db seen).2.profiles) :
    ∃ old ∈ db.profiles, old.userId = r.userId ∧ old.remnawaveUuid = r.remnawaveUuid ∧
      old.deleteRequestedAt = r.deleteRequestedAt := by
  rw [(reconcileMissing_spec hwf seen).tables] at hr
  obtain ⟨old, hold, rfl⟩ := List.mem_map.mp hr
  refine ⟨old, hold, ?_⟩
  split
  · exact ⟨rfl, rfl, rfl⟩
  · exact ⟨rfl, rfl, rfl⟩

/-- Any account that is not marked stays as it is. -/
theorem sameAccount_staled {ids : List UserId} (h : u ∉ ids) :
    SameAccount u db (db.staled ids) where
  user := by
    refine Rows.get?_map_of_key (fun x => ?_) fun x hx => if_neg (hx ▸ h)
    split <;> rfl
  profile := by
    refine Rows.get?_map_of_key (fun r => ?_) fun r hr => if_neg (hr ▸ h)
    split <;> rfl
  total := rfl

/-- A listed account stays as it is. -/
theorem sameAccount_of_reconcileMissing (hwf : db.WF) {seen : List String} {row : RemnawaveUser}
    (hrow : db.profileOf? u = some row) (hseen : row.remnawaveUuid ∈ seen) :
    SameAccount u db (reconcileMissingRemnawaveUsers db seen).2 := by
  rw [(reconcileMissing_spec hwf seen).tables]
  refine sameAccount_staled fun hmissing => ?_
  obtain ⟨r, hr, hnot, hid⟩ := mem_missingOwners.mp hmissing
  have hsame : r = row := by
    refine hwf.profileUsers.eq_of_key hr (Rows.mem_of_get? hrow) ?_
    exact hid.trans (Rows.key_of_get? hrow).symm
  exact hnot (hsame ▸ hseen)

/-! ## The purge -/

/-- The rows of other accounts that deleting the accounts of `rows` leaves. -/
structure Deletes (ids : List UserId) (db db' : Db) : Prop where
  users : db'.users = db.users.filter (·.id ∉ ids)
  profiles : db'.profiles = db.profiles.filter (·.userId ∉ ids)
  peers : db'.peers = db.peers.filter (·.userId ∉ ids)

theorem deleteUsers_spec (rows : List RemnawaveUser) : ∀ db : Db,
    Deletes (rows.map (·.userId)) db
      (rows.foldl (fun db row => db.deleteUser row.userId) db) := by
  induction rows with
  | nil =>
      intro db
      exact ⟨by simp, by simp, by simp⟩
  | cons row rest ih =>
      intro db
      have hrest := ih (db.deleteUser row.userId)
      rw [List.foldl_cons]
      refine ⟨?_, ?_, ?_⟩
      · rw [hrest.users]
        exact Rows.filter_keys _ _ _ _
      · rw [hrest.profiles]
        exact Rows.filter_keys _ _ _ _
      · rw [hrest.peers]
        exact Rows.filter_keys _ _ _ _

/-- The accounts the purge deletes. -/
def purgedOwners (db : Db) : List UserId := (db.profiles.filter (purgeable db)).map (·.userId)

theorem purge_spec (db : Db) :
    Deletes (purgedOwners db) db (purgeConfirmedRemnawaveDeletes db).2 := deleteUsers_spec _ db

theorem purgeable_iff {row : RemnawaveUser} : purgeable db row = true ↔
    row.deleteRequestedAt.isSome ∧ (∃ p ∈ db.peers, p.userId = row.userId) ∧
      ∀ p ∈ db.peers, p.userId = row.userId → p.status = .deleted := by
  unfold purgeable Db.peersOf
  simp only [Bool.and_eq_true, Bool.not_eq_true', List.isEmpty_eq_false_iff, List.all_eq_true,
    decide_eq_true_eq, and_assoc]
  refine and_congr_right fun _ => and_congr ?_ ?_
  · simp [List.filter_eq_nil_iff]
  · simp [List.mem_filter]

theorem mem_purgedOwners (hwf : db.WF) {row : RemnawaveUser} (hr : row ∈ db.profiles) :
    row.userId ∈ purgedOwners db ↔ purgeable db row = true := by
  unfold purgedOwners
  rw [List.mem_map]
  constructor
  · rintro ⟨r, hmem, hid⟩
    obtain ⟨hmem, hpurge⟩ := List.mem_filter.mp hmem
    rwa [hwf.profileUsers.eq_of_key hmem hr hid] at hpurge
  · intro hpurge
    exact ⟨row, List.mem_filter.mpr ⟨hr, hpurge⟩, rfl⟩

/-- An account nobody asked to delete outlives the purge. -/
theorem sameAccount_of_purge_undeleted (hwf : db.WF) {row : RemnawaveUser}
    (hrow : db.profileOf? u = some row) (hreq : row.deleteRequestedAt = none) :
    SameAccount u db (purgeConfirmedRemnawaveDeletes db).2 := by
  refine sameAccount_of_purge fun r hr hpurge hid => ?_
  have hsame : r = row := by
    refine hwf.profileUsers.eq_of_key hr (Rows.mem_of_get? hrow) ?_
    exact hid.trans (Rows.key_of_get? hrow).symm
  have hasked := (purgeable_iff.mp hpurge).1
  rw [hsame, hreq] at hasked
  cases hasked

/-- A profile outlives the purge exactly when it was not to be purged. -/
theorem mem_purge_profiles (hwf : db.WF) {row : RemnawaveUser} :
    row ∈ (purgeConfirmedRemnawaveDeletes db).2.profiles ↔
      row ∈ db.profiles ∧ purgeable db row = false := by
  rw [(purge_spec db).profiles, List.mem_filter]
  refine and_congr_right fun hr => ?_
  rw [decide_eq_true_eq, mem_purgedOwners hwf hr, Bool.not_eq_true]

/-- No account waits for the purge. -/
def Db.Swept (db : Db) : Prop := ∀ r ∈ db.profiles, purgeable db r = false

theorem swept_purge (hwf : db.WF) : (purgeConfirmedRemnawaveDeletes db).2.Swept := by
  intro r hr
  obtain ⟨hr, hnot⟩ := (mem_purge_profiles hwf).mp hr
  rw [← Bool.not_eq_true]
  intro hpurge
  obtain ⟨hreq, ⟨p, hp, howner⟩, hall⟩ := purgeable_iff.mp hpurge
  rw [(purge_spec db).peers] at hp hall
  -- the account itself was not purged, so all its peers are still there
  have hspared : r.userId ∉ purgedOwners db := by
    rw [mem_purgedOwners hwf hr, hnot]
    simp
  have hstill : purgeable db r = true := by
    refine purgeable_iff.mpr ⟨hreq, ⟨p, (List.mem_filter.mp hp).1, howner⟩, fun q hq hq' => ?_⟩
    exact hall q (List.mem_filter.mpr ⟨hq, by simpa [hq'] using hspared⟩) hq'
  rw [hnot] at hstill
  cases hstill

/-- Where nothing waits, the purge changes nothing. -/
theorem Db.Swept.purge (h : db.Swept) : (purgeConfirmedRemnawaveDeletes db).2 = db := by
  have hnone : db.profiles.filter (purgeable db) = [] := by
    rw [List.filter_eq_nil_iff]
    intro r hr
    simp [h r hr]
  unfold purgeConfirmedRemnawaveDeletes
  rw [hnone]
  rfl

/-! ## Peers under a node result -/

/-- The lifecycle of an account leaves the rows of every other alone. -/
structure OwnerFrame (v : UserId) (db db' : Db) : Prop where
  profiles : db'.profiles = db.profiles
  devices : db'.devices = db.devices
  peers : ∀ p : Peer, p.userId ≠ v → (p ∈ db'.peers ↔ p ∈ db.peers)

theorem Writes.ownerFrame (h : Writes (OfOwner v) db db') : OwnerFrame v db db' := by
  refine h.relates (R := OwnerFrame v) (fun _ => ⟨rfl, rfl, fun _ _ => .rfl⟩) ?_ ?_
  · intro a b c h h'
    exact ⟨h'.profiles.trans h.profiles, h'.devices.trans h.devices,
      fun p hp => (h'.peers p hp).trans (h.peers p hp)⟩
  · intro db w hof hok
    cases w with
    | user row => exact ⟨rfl, rfl, fun _ _ => .rfl⟩
    | newPeer row =>
        refine ⟨rfl, rfl, fun p hp => ?_⟩
        show p ∈ db.peers ++ [row] ↔ _
        rw [List.mem_append, List.mem_singleton, or_iff_left]
        rintro rfl
        exact hp hof
    | peers f =>
        refine ⟨rfl, rfl, fun p hp => ?_⟩
        show p ∈ db.peers.map f ↔ _
        rw [List.mem_map]
        constructor
        · rintro ⟨q, hq, rfl⟩
          rw [(hok.same q hq).userId] at hp
          rwa [hof.1 q hq hp]
        · intro hmem
          exact ⟨p, hmem, hof.1 p hmem hp⟩
    | _ => exact hof.elim

theorem Writes.stored_profile (h : Writes (OfOwner v) db db') {row : RemnawaveUser}
    (hr : row ∈ db.profiles) : row ∈ db'.profiles := by
  rw [h.ownerFrame.profiles]
  exact hr

/-- The peers of `u` are the same rows, the status of each moved by `f`. -/
structure Moves (u : UserId) (f : Peer → PeerStatus) (db db' : Db) : Prop where
  profiles : db'.profiles = db.profiles
  devices : db'.devices = db.devices
  fwd : ∀ p ∈ db.peers, p.userId = u → ∃ q ∈ db'.peers, p.Same q ∧ q.status = f p
  back : ∀ q ∈ db'.peers, q.userId = u → ∃ p ∈ db.peers, p.Same q ∧ q.status = f p

namespace Moves

variable {f g h : Peer → PeerStatus} {db'' : Db}

theorem of_peers (hprofiles : db'.profiles = db.profiles) (hdevices : db'.devices = db.devices)
    (hpeers : ∀ p : Peer, p.userId = u → (p ∈ db'.peers ↔ p ∈ db.peers)) :
    Moves u (·.status) db db' := by
  refine ⟨hprofiles, hdevices, fun p hp hu => ?_, fun q hq hu => ?_⟩
  · exact ⟨p, (hpeers p hu).mpr hp, .refl p, rfl⟩
  · exact ⟨q, (hpeers q hu).mp hq, .refl q, rfl⟩

theorem refl (db : Db) : Moves u (·.status) db db := of_peers rfl rfl fun _ _ => .rfl

theorem trans (hf : Moves u f db db') (hg : Moves u g db' db'')
    (hcomp : ∀ p ∈ db.peers, p.userId = u → ∀ q : Peer, p.Same q → q.status = f p → g q = h p) :
    Moves u h db db'' := by
  refine ⟨hg.profiles.trans hf.profiles, hg.devices.trans hf.devices, ?_, ?_⟩
  · intro p hp hu
    obtain ⟨q, hq, hpq, hst⟩ := hf.fwd p hp hu
    obtain ⟨r, hr, hqr, hst'⟩ := hg.fwd q hq (hpq.userId.trans hu)
    exact ⟨r, hr, hpq.trans hqr, hst'.trans (hcomp p hp hu q hpq hst)⟩
  · intro r hr hu
    obtain ⟨q, hq, hqr, hst'⟩ := hg.back r hr hu
    have hqu : q.userId = u := hqr.userId.symm.trans hu
    obtain ⟨p, hp, hpq, hst⟩ := hf.back q hq hqu
    have hpu : p.userId = u := hpq.userId.symm.trans hqu
    exact ⟨p, hp, hpq.trans hqr, hst'.trans (hcomp p hp hpu q hpq hst)⟩

theorem map_peers (f : Peer → Peer) (hsame : ∀ p ∈ db.peers, p.Same (f p))
    (hprofiles : db'.profiles = db.profiles) (hdevices : db'.devices = db.devices)
    (hpeers : db'.peers = db.peers.map f) : Moves u (fun p => (f p).status) db db' := by
  refine ⟨hprofiles, hdevices, fun p hp _ => ?_, fun q hq _ => ?_⟩
  · exact ⟨f p, hpeers ▸ List.mem_map_of_mem hp, hsame p hp, rfl⟩
  · rw [hpeers] at hq
    obtain ⟨p, hp, rfl⟩ := List.mem_map.mp hq
    exact ⟨p, hp, hsame p hp, rfl⟩

end Moves

/-- The entry recorded traffic of the peer `q`, and its owner's combined limit
is met with it. -/
def relimits (db : Db) (q : Peer) (data : PeerSyncResult) (now : Time) : Bool :=
  let (sample, db) := applyPeerResult db q data now
  sample.isSome && (db.profileOf? q.userId).any fun row =>
    remnawaveCombinedLimited row (loadLocalTotalBytes db q.userId)

/-- The status an entry leaves a peer of an imported account in. -/
def entryStatus (db : Db) (loaded : String → Option PeerId) (data : PeerSyncResult) (now : Time)
    (p : Peer) : PeerStatus :=
  match (loaded data.publicKey).bind db.peer? with
  | none => p.status
  | some q =>
      if q.userId = p.userId ∧ relimits db q data now then .pendingDelete
      else if q.id = p.id then (peerAfterResult db q data).status
      else p.status

theorem reading_moves (hwf : db.WF) {q : Peer} (data : PeerSyncResult) (now : Time)
    (hq : q ∈ db.peers) :
    Moves u (fun p => if q.id = p.id then (peerAfterResult db q data).status else p.status) db
      (applyPeerResult db q data now).2 := by
  rw [applyPeerResult_db]
  let f : Peer → Peer := fun p =>
    if p.id = (peerAfterResult db q data).id then peerAfterResult db q data else p
  have hmoves : Moves u (fun p => (f p).status) db { db with
      traffic := trafficAfterResult db q data now
      peers := Rows.save Peer.id (peerAfterResult db q data) db.peers } := by
    refine Moves.map_peers f ?_ rfl rfl rfl
    intro p hp
    show p.Same (if _ then _ else _)
    split
    · next h =>
        rw [hwf.peer_eq hp hq (h.trans (peerAfterResult_id db q data))]
        exact peerAfterResult_same db q data
    · exact .refl p
  have hstatus : (fun p => (f p).status) =
      fun p => if q.id = p.id then (peerAfterResult db q data).status else p.status := by
    funext p
    show Peer.status (if _ then _ else _) = _
    rw [peerAfterResult_id]
    by_cases h : p.id = q.id
    · rw [if_pos h, if_pos h.symm]
    · rw [if_neg h, if_neg fun h' => h h'.symm]
  rwa [hstatus] at hmoves

/-- The combined limit of an imported account, once met, takes every peer of it
to `pending_delete`. -/
theorem combinedLimit_moves (hwf : db.WF) {row : RemnawaveUser}
    (hrow : db.profileOf? u = some row) :
    Moves u (fun p => if remnawaveCombinedLimited row (loadLocalTotalBytes db u)
        then .pendingDelete else p.status) db
      (enforceRemnawaveCombinedLimitForUser db u).2 := by
  have hr : row ∈ db.profiles := Rows.mem_of_get? hrow
  have hrid : row.userId = u := Rows.key_of_get? hrow
  obtain ⟨user, hu, huid⟩ := hwf.profileOwner row hr
  have hget : db.user? row.userId = some user := hwf.userIds.get?_iff.mpr ⟨hu, huid⟩
  unfold enforceRemnawaveCombinedLimitForUser
  rw [hrow]
  show Moves u _ db (enforceRemnawaveCombinedLimit db row).2
  unfold enforceRemnawaveCombinedLimit
  rw [hrid]
  cases remnawaveCombinedLimited row (loadLocalTotalBytes db u) with
  | false => exact Moves.refl db
  | true =>
      rw [hrid] at hget huid
      rw [hget]
      let saved := db.saveUser { user with isBlocked := true }
      have hsaved : saved.WF := hwf.save_user _
      have hmoves : Moves u (fun p => (transitionOf saved (loadPeers saved user.id) true p).status)
          db (transitionPeers saved (loadPeers saved user.id) true).2 :=
        Moves.map_peers _ (fun p _ => transitionPeer_same _ _ _ p) rfl rfl rfl
      refine hmoves.trans (Moves.refl _) fun p hp hpu q _ hst => ?_
      rw [hst]
      exact transitionOf_block ((mem_loadPeers hsaved hp).mpr (hpu.trans huid.symm))

/-- An imported account is not judged locally. -/
theorem enforceLocalLifecycle_of_profile {row : RemnawaveUser} (hrow : db.profileOf? u = some row)
    (now : Time) : enforceLocalLifecycleForUser cfg db u now = ([], db) := by
  unfold enforceLocalLifecycleForUser
  cases db.user? u with
  | none => rfl
  | some user =>
      dsimp only
      rw [if_pos (by simp [hrow])]

/-- The limits after an entry of `v`, for the peers of the imported account
`u`. -/
theorem enforceLimits_moves {st : PeerResults} (hwf : st.db.WF) {row : RemnawaveUser}
    (hrow : st.db.profileOf? u = some row) (v : UserId) (now : Time) :
    Moves u (fun p => if v = u ∧ remnawaveCombinedLimited row (loadLocalTotalBytes st.db u)
        then .pendingDelete else p.status) st.db (enforceLimits cfg st v now).db := by
  by_cases hvu : v = u
  · subst hvu
    have hlocal : (enforceLocalLifecycleForUser cfg st.db v now).2 = st.db :=
      congrArg Prod.snd (enforceLocalLifecycle_of_profile hrow now)
    show Moves v _ st.db (enforceRemnawaveCombinedLimitForUser
      (enforceLocalLifecycleForUser cfg st.db v now).2 v).2
    rw [hlocal]
    simpa using combinedLimit_moves hwf hrow
  · have hwrites : Writes (OfOwner v) st.db (enforceLimits cfg st v now).db :=
      enforceLimits_writes hwf v now
    have hframe := hwrites.ownerFrame
    have hmoves := Moves.of_peers (u := u) hframe.profiles hframe.devices
      fun p hp => hframe.peers p (hp ▸ Ne.symm hvu)
    simpa [hvu] using hmoves

theorem entry_moves {loaded : String → Option PeerId} {st : PeerResults} (hwf : st.db.WF)
    {row : RemnawaveUser} (hrow : st.db.profileOf? u = some row) (data : PeerSyncResult)
    (now : Time) :
    Moves u (entryStatus st.db loaded data now) st.db
      (applyPeerEntry cfg loaded st data now).db := by
  unfold applyPeerEntry entryStatus
  cases hq : (loaded data.publicKey).bind st.db.peer? with
  | none => exact Moves.refl st.db
  | some q =>
      have hmem := (loaded_peer hq).1
      have hread := reading_moves (u := u) hwf data now hmem
      have hwf' := hwf.reading hmem data now
      have hrow' : (applyPeerResult st.db q data now).2.profileOf? u = some row := by
        unfold Db.profileOf?
        rw [hread.profiles]
        exact hrow
      dsimp only
      split
      · next hsample =>
          let st' : PeerResults := { st with
            db := (applyPeerResult st.db q data now).2
            acknowledgedOwnerIds := st.acknowledgedOwnerIds ++ [q.userId] }
          have hlimit : Moves u _ st'.db (enforceLimits cfg st' q.userId now).db :=
            enforceLimits_moves hwf' hrow' q.userId now
          refine hread.trans hlimit fun p hp hpu x hsame hst => ?_
          have hcond : (q.userId = p.userId ∧ relimits st.db q data now = true) ↔
              (q.userId = u ∧
                remnawaveCombinedLimited row (loadLocalTotalBytes st'.db u) = true) := by
            rw [hpu]
            refine and_congr_right fun hqu => ?_
            unfold relimits
            simp only [hsample, Bool.true_and]
            rw [hqu, hrow']
            rfl
          simp only [hcond, hst]
      · next hsample =>
          refine hread.trans (Moves.refl _) fun p hp hpu x hsame hst => ?_
          have hcond : ¬(q.userId = p.userId ∧ relimits st.db q data now = true) := by
            unfold relimits
            simp only [Bool.not_eq_true] at hsample
            simp [hsample]
          rw [if_neg hcond, hst]

/-! ## Removals under the entries -/

/-- The entry reports the peer as going away still, or meets the combined limit
of its owner. -/
def reopens (loaded : String → Option PeerId) (db : Db) (data : PeerSyncResult) (now : Time)
    (p : Peer) : Bool :=
  ((loaded data.publicKey).bind db.peer?).any fun q =>
    (q.id = p.id && data.status = some "pending_delete") ||
      (q.userId = p.userId && relimits db q data now)

/-- The entry reports the peer as removed. -/
def reportsRemoved (loaded : String → Option PeerId) (data : PeerSyncResult) (p : Peer) : Bool :=
  loaded data.publicKey = some p.id && data.status = some "deleted"

/-- Some entry reopens the peer, and no later one reports it as removed. -/
def reopened (cfg : Config) (loaded : String → Option PeerId) (now : Time) (p : Peer) :
    List PeerSyncResult → PeerResults → Bool
  | [], _ => false
  | data :: rest, st =>
      (reopens loaded st.db data now p && !rest.any (reportsRemoved loaded · p)) ||
        reopened cfg loaded now p rest (applyPeerEntry cfg loaded st data now)

theorem live_of_ofText? {text : String} {status : PeerStatus}
    (h : PeerStatus.ofText? text = some status) (hpending : text ≠ "pending_delete")
    (hdeleted : text ≠ "deleted") : status.live = true := by
  unfold PeerStatus.ofText? at h
  split at h
  · cases h
    rfl
  · cases h
    rfl
  · exact absurd rfl hpending
  · exact absurd rfl hdeleted
  · cases h

theorem peerResultStatus_going {stored : PeerStatus} (h : stored.live = false) (tomb : Bool)
    (reported : Option String) : peerResultStatus stored tomb reported =
      if reported = some "pending_delete" then .pendingDelete
      else if reported = some "deleted" then .deleted
      else stored := by
  unfold peerResultStatus
  cases reported with
  | none => simp [h]
  | some text =>
      by_cases hpending : text = "pending_delete"
      · subst hpending
        rfl
      by_cases hdeleted : text = "deleted"
      · subst hdeleted
        rfl
      simp only [Option.bind_some, h, Bool.and_false, Option.some.injEq, hpending, hdeleted,
        if_false]
      -- any other text is no status, or a live one that a going peer does not take
      cases htext : PeerStatus.ofText? text with
      | none => rfl
      | some status =>
          have hlive := live_of_ofText? htext hpending hdeleted
          simp [hlive, PeerStatus.tombstoned, h]

/-- What an entry does to a peer that is going or gone. -/
theorem entryStatus_going {loaded : String → Option PeerId} (hwf : db.WF) {p : Peer}
    (hp : p ∈ db.peers) (hgoing : p.status.live = false) (data : PeerSyncResult) (now : Time) :
    entryStatus db loaded data now p =
      if reopens loaded db data now p then .pendingDelete
      else if reportsRemoved loaded data p then .deleted
      else p.status := by
  unfold entryStatus reopens reportsRemoved
  cases hl : loaded data.publicKey with
  | none => simp
  | some id =>
      rw [Option.bind_some]
      cases hq : db.peer? id with
      | none =>
          have hne : id ≠ p.id := by
            rintro rfl
            exact Rows.get?_eq_none.mp hq p hp rfl
          simp [hne]
      | some q =>
          have hid : q.id = id := Rows.key_of_get? hq
          simp only [Option.any_some]
          by_cases hqp : q.id = p.id
          · have : q = p := hwf.peer_eq (Rows.mem_of_get? hq) hp hqp
            subst this
            rw [peerAfterResult_status, peerResultStatus_going hgoing]
            by_cases hr : relimits db q data now = true
            · simp [hr]
            · by_cases h1 : data.status = some "pending_delete"
              · simp [hr, h1]
              · by_cases h2 : data.status = some "deleted" <;> simp [hr, h1, h2, hid]
          · have hidp : id ≠ p.id := hid ▸ hqp
            by_cases hr : q.userId = p.userId ∧ relimits db q data now = true
            · simp [hr, hqp]
            · rw [if_neg hr, if_neg hqp, if_neg (by simpa [hqp] using hr), if_neg (by simp [hidp])]

theorem reopens_same {loaded : String → Option PeerId} {data : PeerSyncResult} {now : Time}
    {p q : Peer} (h : p.Same q) : reopens loaded db data now q = reopens loaded db data now p := by
  unfold reopens
  rw [h.id, h.userId]

theorem reportsRemoved_same {loaded : String → Option PeerId} {data : PeerSyncResult}
    {p q : Peer} (h : p.Same q) : reportsRemoved loaded data q = reportsRemoved loaded data p := by
  unfold reportsRemoved
  rw [h.id]

theorem reopened_same {loaded : String → Option PeerId} {now : Time} {p q : Peer} (h : p.Same q)
    (entries : List PeerSyncResult) : ∀ st : PeerResults,
      reopened cfg loaded now q entries st = reopened cfg loaded now p entries st := by
  induction entries with
  | nil =>
      intro st
      rfl
  | cons data rest ih =>
      intro st
      unfold reopened
      rw [reopens_same h, ih]
      simp only [reportsRemoved_same h]

/-- The status the entries leave a peer that is going or gone in. -/
def endStatus (cfg : Config) (loaded : String → Option PeerId) (now : Time)
    (entries : List PeerSyncResult) (st : PeerResults) (p : Peer) : PeerStatus :=
  if reopened cfg loaded now p entries st then .pendingDelete
  else if entries.any (reportsRemoved loaded · p) then .deleted
  else p.status

theorem endStatus_cons {loaded : String → Option PeerId} {now : Time} {data : PeerSyncResult}
    {rest : List PeerSyncResult} {st : PeerResults} (hwf : st.db.WF) {p q : Peer}
    (hp : p ∈ st.db.peers) (hgoing : p.status.live = false) (hsame : p.Same q)
    (hst : q.status = entryStatus st.db loaded data now p) :
    endStatus cfg loaded now rest (applyPeerEntry cfg loaded st data now) q =
      endStatus cfg loaded now (data :: rest) st p := by
  rw [entryStatus_going hwf hp hgoing] at hst
  unfold endStatus
  rw [reopened_same hsame, hst, reopened, List.any_cons]
  simp only [reportsRemoved_same hsame]
  cases reopened cfg loaded now p rest (applyPeerEntry cfg loaded st data now) <;>
    cases reopens loaded st.db data now p <;> cases reportsRemoved loaded data p <;>
    cases rest.any (reportsRemoved loaded · p) <;> simp

/-- No peer of the account is live. -/
def Going (u : UserId) (db : Db) : Prop := ∀ p ∈ db.peers, p.userId = u → p.status.live = false

theorem Moves.going {f : Peer → PeerStatus} (h : Moves u f db db')
    (hf : ∀ p ∈ db.peers, p.userId = u → (f p).live = false) : Going u db' := by
  intro q hq hu
  obtain ⟨p, hp, hsame, hst⟩ := h.back q hq hu
  rw [hst]
  exact hf p hp (hsame.userId.symm.trans hu)

theorem endStatus_going {loaded : String → Option PeerId} {now : Time}
    (entries : List PeerSyncResult) (st : PeerResults) {p : Peer} (h : p.status.live = false) :
    (endStatus cfg loaded now entries st p).live = false := by
  unfold endStatus
  split
  · rfl
  · split
    · rfl
    · exact h

/-- The peers of an imported account that is going, under the entries of a
result. -/
theorem entries_moves {loaded : String → Option PeerId} {now : Time} {row : RemnawaveUser}
    (entries : List PeerSyncResult) :
    ∀ {st : PeerResults}, st.db.WF → st.db.profileOf? u = some row → Going u st.db →
      Moves u (endStatus cfg loaded now entries st) st.db
        (applyPeerEntries cfg loaded now entries st).db := by
  induction entries with
  | nil =>
      intro st _ _ _
      exact Moves.refl st.db
  | cons data rest ih =>
      intro st hwf hrow hgoing
      have hone : Moves u _ st.db (applyPeerEntry cfg loaded st data now).db :=
        entry_moves hwf hrow data now
      have hwrites : Writes (OfEntries [data] now) st.db
          (applyPeerEntry cfg loaded st data now).db :=
        applyPeerEntry_writes hwf List.mem_cons_self now
      have hrow' : (applyPeerEntry cfg loaded st data now).db.profileOf? u = some row := by
        unfold Db.profileOf?
        rw [hone.profiles]
        exact hrow
      have hgoing' : Going u (applyPeerEntry cfg loaded st data now).db := by
        refine hone.going fun p hp hu => ?_
        rw [entryStatus_going hwf hp (hgoing p hp hu)]
        split
        · rfl
        · split
          · rfl
          · exact hgoing p hp hu
      exact hone.trans (ih (hwrites.wf hwf) hrow' hgoing') fun p hp hu q hsame hst =>
        endStatus_cons hwf hp (hgoing p hp hu) hsame hst

/-! ## A whole sync result -/

/-- A peer of the node whose key the answer does not list. -/
def unlisted (db : Db) (nodeId : NodeId) (data : SyncResult) (p : Peer) : Bool :=
  p.nodeId = nodeId && !(devicePublicKey db p).any (· ∈ data.peers.map (·.publicKey))

/-- The peers of a node by key, as a result loads them. -/
def loadedPeers (db : Db) (nodeId : NodeId) (key : String) : Option PeerId :=
  (peerByPublicKey db (db.peersOfNode nodeId) key).map (·.id)

/-- The entries of a sync result reopen the peer. -/
def syncReopens (cfg : Config) (db : Db) (node : Node) (data : SyncResult) (now : Time)
    (p : Peer) : Bool :=
  let db := db.saveNode (syncedNode node data now)
  reopened cfg (loadedPeers db node.id) now p data.peers { db }

/-- The answer confirms that the peer is removed: its node does not list the
key any more, or reports the peer as removed. -/
def confirmsRemoval (db : Db) (nodeId : NodeId) (data : SyncResult) (p : Peer) : Bool :=
  unlisted db nodeId data p || data.peers.any (reportsRemoved (loadedPeers db nodeId) · p)

/-- The status a sync result leaves a peer that is going or gone in. -/
def syncStatus (cfg : Config) (db : Db) (node : Node) (data : SyncResult) (now : Time) (p : Peer) :
    PeerStatus :=
  if unlisted db node.id data p then .deleted
  else if syncReopens cfg db node data now p then .pendingDelete
  else if confirmsRemoval db node.id data p then .deleted
  else p.status

theorem devicePublicKey_congr (h : db'.devices = db.devices) {p q : Peer} (hsame : p.Same q) :
    devicePublicKey db' q = devicePublicKey db p := by
  unfold devicePublicKey Db.device?
  rw [h, hsame.deviceId]

theorem confirm_moves {results : Db} {nodeId : NodeId} {keys : List String} :
    Moves u (fun p => (confirmPeer results nodeId keys p).status) results
      (results.mapPeers (confirmPeer results nodeId keys)) :=
  Moves.map_peers _ (peersOk_confirmPeer results nodeId keys).same rfl rfl rfl

/-- **Sync result.** The peers of an imported account that is going, up to the
releases. -/
theorem sync_moves (hwf : db.WF) {row : RemnawaveUser} (hrow : db.profileOf? u = some row)
    (hgoing : Going u db) (node : Node) (data : SyncResult) (now : Time) :
    Moves u (syncStatus cfg db node data now) db
      (confirmRemovals cfg (db.saveNode (syncedNode node data now)) node.id data now).db := by
  let saved := db.saveNode (syncedNode node data now)
  let results := (applyPeerResults cfg saved node.id data.peers now).db
  let keys := data.peers.map (·.publicKey)
  have hsaved : saved.WF := hwf.save_node _
  have hentries : Moves u (endStatus cfg (loadedPeers saved node.id) now data.peers { db := saved })
      saved results := entries_moves data.peers hsaved hrow hgoing
  -- the node row is the only difference between `db` and `saved`
  have hstart : Moves u (endStatus cfg (loadedPeers saved node.id) now data.peers { db := saved })
      db results := ⟨hentries.profiles, hentries.devices, hentries.fwd, hentries.back⟩
  refine hstart.trans confirm_moves fun p hp hu q hsame hst => ?_
  have hq : q.status.live = false := by
    rw [hst]
    exact endStatus_going _ _ (hgoing p hp hu)
  have hkey : devicePublicKey results q = devicePublicKey db p :=
    devicePublicKey_congr hstart.devices hsame
  have hconfirmed : removalConfirmed results node.id keys q =
      (unlisted db node.id data p && q.status = .pendingDelete) := by
    unfold removalConfirmed unlisted
    rw [hkey, hsame.nodeId]
    cases decide (p.nodeId = node.id) <;> cases decide (q.status = .pendingDelete) <;> simp [keys]
  show (confirmPeer results node.id keys q).status = _
  unfold confirmPeer syncStatus
  rw [hconfirmed]
  cases hun : unlisted db node.id data p with
  | true =>
      cases hs : q.status with
      | pending => simp [hs, PeerStatus.live] at hq
      | active => simp [hs, PeerStatus.live] at hq
      | pendingDelete => simp
      | deleted => simp [hs]
  | false =>
      rw [Bool.false_and, if_neg Bool.false_ne_true, if_neg Bool.false_ne_true, hst]
      unfold confirmsRemoval
      rw [hun, Bool.false_or]
      rfl

theorem syncConfirmed_profiles (hwf : db.WF) {node : Node} (hn : node ∈ db.nodes)
    (data : SyncResult) (now : Time) :
    (confirmRemovals cfg (db.saveNode (syncedNode node data now)) node.id data now).db.profiles =
      db.profiles := by
  refine (syncConfirmed_writes hwf hn data now).relates
    (R := fun a b : Db => b.profiles = a.profiles)
    (fun _ => rfl) (fun _ _ _ h h' => h'.trans h) ?_
  intro db w hw _
  cases w with
  | reading row entry at_ =>
      show (applyPeerResult db row entry at_).2.profiles = _
      rw [applyPeerResult_db]
  | _ => first | exact hw.elim | rfl

theorem syncStatus_going (node : Node) (data : SyncResult) (now : Time) {p : Peer}
    (h : p.status.live = false) : (syncStatus cfg db node data now p).live = false := by
  unfold syncStatus
  split
  · rfl
  · split
    · rfl
    · split
      · rfl
      · exact h

/-- The releases of a result leave the profiles, accounts and peers alone. -/
theorem releases_frame (h : Writes Releases db db') :
    db'.profiles = db.profiles ∧ db'.users = db.users ∧ db'.peers = db.peers := by
  refine h.relates (R := fun a b : Db => b.profiles = a.profiles ∧ b.users = a.users ∧
    b.peers = a.peers) (fun _ => ⟨rfl, rfl, rfl⟩) ?_ ?_
  · intro a b c h h'
    exact ⟨h'.1.trans h.1, h'.2.1.trans h.2.1, h'.2.2.trans h.2.2⟩
  · intro db w hw _
    cases w with
    | release row at_ => exact ⟨rfl, rfl, rfl⟩
    | _ => exact hw.elim

end VpnPanel.Backend
