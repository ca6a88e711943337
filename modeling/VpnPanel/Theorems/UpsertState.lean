import VpnPanel.Backend.Departures
import VpnPanel.Backend.ImportBatch

/-!
# The state after an import

One item of a batch, on any state before it: the owner's flag is the one the
profile and the combined limit ask for, the row is synced, and the rows of
every other account stay.
-/

namespace VpnPanel.Theorems

open VpnPanel.Lib VpnPanel.Backend

variable {cfg : Config} {db db' db'' : Db} {u : UserId} {now : Time}

/-! ## Other accounts -/

/-- The rows of every account but `u`. -/
structure OthersKept (u : UserId) (db db' : Db) : Prop where
  accounts : ∀ v, v ≠ u → SameAccount v db db'
  devices : db'.devices = db.devices
  nodes : db'.nodes = db.nodes
  traffic : db'.traffic = db.traffic
  peers : ∀ p : Peer, p.userId ≠ u → (p ∈ db'.peers ↔ p ∈ db.peers)

theorem OthersKept.trans (h : OthersKept u db db') (h' : OthersKept u db' db'') :
    OthersKept u db db'' where
  accounts v hv := (h.accounts v hv).trans (h'.accounts v hv)
  devices := h'.devices.trans h.devices
  nodes := h'.nodes.trans h.nodes
  traffic := h'.traffic.trans h.traffic
  peers p hp := (h'.peers p hp).trans (h.peers p hp)

/-- The lifecycle of an account of a stored profile. -/
theorem othersKept_of_owner {row : RemnawaveUser} (hr : row ∈ db.profiles)
    (h : Writes (OfOwner row.userId) db db') : OthersKept row.userId db db' := by
  have himport := (Writes.imports ⟨row, hr, rfl⟩ h).1.importFrame
  exact {
    accounts := fun v hv => h.sameAccount_of_owner hv.symm
    devices := himport.devices
    nodes := himport.nodes
    traffic := himport.traffic
    peers := h.ownerFrame.peers }

theorem othersKept_saveProfile (row : RemnawaveUser) (db : Db) :
    OthersKept row.userId db (db.saveProfile row) where
  accounts _ hv := ⟨rfl, Rows.get?_save_of_ne hv.symm, rfl⟩
  devices := rfl
  nodes := rfl
  traffic := rfl
  peers _ _ := .rfl

theorem othersKept_newImport {user : User} {row : RemnawaveUser}
    (hok : Write.Ok db (.newImport user row)) :
    OthersKept row.userId db (Write.apply db (.newImport user row)) where
  accounts _ hv :=
    ⟨Rows.get?_append_of_ne (hok.2.1 ▸ hv.symm), Rows.get?_append_of_ne hv.symm, rfl⟩
  devices := rfl
  nodes := rfl
  traffic := rfl
  peers _ _ := .rfl

/-! ## The two enforcement steps -/

/-- Remote and local usage reach a positive limit. -/
def LimitReached (item : RemnawaveUserIn) (localTotalBytes : Nat) : Prop :=
  0 < item.trafficLimitBytes ∧ item.trafficLimitBytes ≤ item.trafficUsedBytes + localTotalBytes

theorem combinedLimited_iff {row : RemnawaveUser} {item : RemnawaveUserIn} {total : Nat} :
    remnawaveCombinedLimited (applyRemnawaveProfile row item now) total = true ↔
      LimitReached item total := by
  unfold remnawaveCombinedLimited LimitReached applyRemnawaveProfile
  simp

/-- The flag after the imported lifecycle, whatever it was. -/
theorem applyRemnawaveLifecycle_flag? {user : User} (hu : db.user? user.id = some user)
    (loaded : List PeerId) (item : RemnawaveUserIn) (now : Time) :
    (applyRemnawaveLifecycle cfg db user loaded item now).2.flag? user.id =
      some (remnawaveBlocked item.status item.expireAt now) := by
  unfold applyRemnawaveLifecycle
  generalize remnawaveBlocked item.status item.expireAt now = blocks
  by_cases heq : user.isBlocked = blocks
  · dsimp only
    rw [if_pos heq]
    unfold Db.flag?
    rw [hu, ← heq]
    rfl
  · have hsaved : (db.saveUser { user with isBlocked := blocks }).flag? user.id = some blocks :=
      flag?_save { user with isBlocked := blocks } hu
    dsimp only
    rw [if_neg heq]
    cases blocks with
    | true => exact hsaved
    | false =>
        let moved := (transitionPeers (db.saveUser { user with isBlocked := false }) loaded false).2
        have hadds : Adds user.id moved (restoreMissingPeersForUser cfg moved user.id).2 :=
          (restoreMissingPeersForUser_writes moved user.id).adds
        exact (hadds.flag? user.id).trans hsaved

/-! ## One item -/

/-- The account `u` is the one that has the profile, or a new one. -/
structure AccountOf (uuid : String) (u : UserId) (db : Db) : Prop where
  owner : ∀ old ∈ db.profiles, old.remnawaveUuid = uuid ↔ old.userId = u
  new : (∀ old ∈ db.profiles, old.remnawaveUuid ≠ uuid) → db.user? u = none

theorem accountOf_row (hwf : db.WF) {row : RemnawaveUser} (hr : row ∈ db.profiles) :
    AccountOf row.remnawaveUuid row.userId db where
  owner old hold := by
    constructor
    · intro huuid
      rw [hwf.profileUuids.eq_of_key hold hr huuid]
    · intro hid
      rw [hwf.profileUsers.eq_of_key hold hr hid]
  new hnone := absurd rfl (hnone row hr)

theorem accountOf_newImport (hwf : db.WF) {user : User} {row : RemnawaveUser} {uuid : String}
    (hnone : db.profiles.find? (·.remnawaveUuid = uuid) = none)
    (hok : Write.Ok db (.newImport user row)) : AccountOf uuid row.userId db := by
  have huuid : ∀ old ∈ db.profiles, old.remnawaveUuid ≠ uuid := by simpa using hnone
  have hfresh : ∀ x ∈ db.users, x.id ≠ row.userId := by
    intro x hx
    rw [hok.2.1]
    exact hwf.userFresh.ne hok.1.id x hx
  refine ⟨fun old hold => iff_of_false (huuid old hold) fun hid => ?_, fun _ => ?_⟩
  · obtain ⟨owner, howner, howned⟩ := hwf.profileOwner old hold
    exact hfresh owner howner (howned.trans hid)
  · exact Rows.get?_eq_none.mpr hfresh

/-- What an import leaves: the row of the profile, its owner, the rows of every
other account, and the profiles to disable remotely. -/
structure PostState (item : RemnawaveUserIn) (now : Time) (db db' : Db) (uuids : List String)
    (row : RemnawaveUser) : Prop where
  stored : row ∈ db'.profiles
  uuid : row.remnawaveUuid = item.uuid
  limit : row.trafficLimitBytes = item.trafficLimitBytes
  used : row.trafficUsedBytes = item.trafficUsedBytes
  synced : row.syncStatus = .synced
  unreasoned : row.syncReason = none
  faultless : row.syncError = none
  undeleted : row.deleteRequestedAt = none
  account : AccountOf item.uuid row.userId db
  owner : ∃ user, db'.user? row.userId = some user ∧ (user.isBlocked = true ↔
    remnawaveBlocked item.status item.expireAt now = true ∨
      LimitReached item (loadLocalTotalBytes db row.userId))
  others : OthersKept row.userId db db'
  disabled : item.uuid ∈ uuids ↔
    LimitReached item (loadLocalTotalBytes db row.userId) ∧ item.status ≠ "DISABLED"

theorem owner_of_flag? {b : Bool} (h : db.flag? u = some b) :
    ∃ user, db.user? u = some user ∧ user.isBlocked = b := by
  obtain ⟨user, hu, hb⟩ := Option.map_eq_some_iff.mp h
  exact ⟨user, hu, hb⟩

/-- The tail of an item, after the tables `db` have the flag of the profile. -/
theorem finish_postState {base : Db} (hwf : db.WF) {row : RemnawaveUser} (hr : row ∈ db.profiles)
    {item : RemnawaveUserIn} (huuid : row.remnawaveUuid = item.uuid)
    (haccount : AccountOf item.uuid row.userId base) (hkept : OthersKept row.userId base db)
    (hflag : db.flag? row.userId = some (remnawaveBlocked item.status item.expireAt now))
    (st : UpsertState) (loaded : List PeerId) (created : List NodeId) :
    ∃ uuids, (finishUpsert st db row loaded created item now).remoteDisableUuids =
        st.remoteDisableUuids ++ uuids ∧
      PostState item now base (finishUpsert st db row loaded created item now).db uuids
        (applyRemnawaveProfile row item now) := by
  let row' := applyRemnawaveProfile row item now
  have hsave : Writes Imports db (db.saveProfile row') :=
    Writes.single (.profile row') trivial ⟨row, hr, rfl, rfl⟩
  have hmem : row' ∈ (db.saveProfile row').profiles :=
    Rows.mem_save.mpr (.inl ⟨rfl, row, hr, rfl⟩)
  have htotal : loadLocalTotalBytes db row.userId = loadLocalTotalBytes base row.userId :=
    loadLocalTotalBytes_of_traffic hkept.traffic _
  obtain ⟨user, hu, hblocked⟩ := owner_of_flag? (finish_flag? st row loaded created item now hflag)
  -- the limit is the new profile's, the total the one before the item
  refine ⟨(enforceRemnawaveCombinedLimit (db.saveProfile row') row').1.2, rfl, {
    stored := finishUpsert_mem hwf hr st loaded created item now
    uuid := huuid
    limit := rfl
    used := rfl
    synced := rfl
    unreasoned := rfl
    faultless := rfl
    undeleted := rfl
    account := haccount
    owner := ⟨user, hu, ?_⟩
    others := ?_
    disabled := ?_ }⟩
  · rw [hblocked, Bool.or_eq_true, combinedLimited_iff, htotal]
    rfl
  · have hlimit : OthersKept row'.userId (db.saveProfile row') _ :=
      othersKept_of_owner hmem (enforceRemnawaveCombinedLimit_writes (hsave.wf hwf) row')
    exact (hkept.trans (othersKept_saveProfile row' db)).trans hlimit
  · have hlimited : remnawaveCombinedLimited row'
        (loadLocalTotalBytes (db.saveProfile row') row'.userId) = true ↔
          LimitReached item (loadLocalTotalBytes base row.userId) := by
      rw [← htotal]
      exact combinedLimited_iff
    rw [enforceCombined_uuids]
    split
    · next hboth =>
        refine iff_of_true ?_ ⟨hlimited.mp hboth.1, hboth.2⟩
        rw [show row'.remnawaveUuid = item.uuid from huuid]
        exact List.mem_cons_self
    · next hnot =>
        exact iff_of_false List.not_mem_nil fun hboth => hnot ⟨hlimited.mpr hboth.1, hboth.2⟩

/-- One item, at any place of a batch. -/
theorem item_postState {st st' : UpsertState} (hwf : st.db.WF) (hheld : st.HeldOk)
    {item : RemnawaveUserIn} (h : upsertItem cfg st item now = some st') :
    ∃ row uuids, st'.remoteDisableUuids = st.remoteDisableUuids ++ uuids ∧
      PostState item now st.db st'.db uuids row := by
  cases upsertItem_step hwf hheld h with
  | @created user row hnone huuid hok hblocked =>
      obtain ⟨hw, hmem⟩ := newImport_writes hok
      have hwf₁ := hw.wf hwf
      have haccount := accountOf_newImport hwf hnone hok
      -- a new account starts with the flag of its profile
      have huser : (Write.apply st.db (.newImport user row)).user? user.id = some user :=
        hwf₁.userIds.get?_eq_some (List.mem_append_right _ List.mem_cons_self)
      have hflag : (Write.apply st.db (.newImport user row)).flag? row.userId =
          some (remnawaveBlocked item.status item.expireAt now) := by
        unfold Db.flag?
        rw [hok.2.1, huser, ← hblocked]
        rfl
      exact ⟨_, finish_postState hwf₁ hmem huuid haccount (othersKept_newImport hok) hflag st
        _ _⟩
  | @updated user row hr huuid hu hown =>
      have hid : user.id = row.userId := Rows.key_of_get? hu
      have hlife := hown.lifecycle_writes cfg hu item now
      -- the lifecycle may return early, and then the flag is right already
      have hflag : (applyRemnawaveLifecycle cfg st.db user
          (st.loadedPeers item.uuid row.userId) item now).2.flag? user.id = _ :=
        applyRemnawaveLifecycle_flag? (by rw [hid]; exact hu) _ item now
      rw [hid] at hlife hflag
      have hr₁ := hlife.stored_profile hr
      have haccount := accountOf_row hwf hr
      rw [huuid] at haccount
      exact ⟨_, finish_postState (hlife.wf hwf) hr₁ huuid haccount (othersKept_of_owner hr hlife)
        hflag st _ _⟩

/-! ## The request -/

theorem item_upserted {st st' : UpsertState} (hwf : st.db.WF) (hheld : st.HeldOk)
    {item : RemnawaveUserIn} (h : upsertItem cfg st item now = some st') :
    st'.upserted = st.upserted ++ [item.uuid] := by
  cases upsertItem_step hwf hheld h <;> rfl

/-- **Post-state.** After the import of one profile, on any reachable tables,
the flag of its owner, its row and the answer are those of the profile, and no
other account is touched. -/
theorem upsert_postState {s : Panel} (hreach : (panel cfg).Reachable s) (now : Time)
    (item : RemnawaveUserIn) {e : Effect}
    (h : handle cfg s.db now (.upsert [item]) = .ok e) :
    ∃ row affected uuids, e.reply = .upserted [item.uuid] affected uuids ∧
      PostState item now s.db e.db uuids row := by
  have hwf : s.db.WF := panel_wf hreach
  have hheld := UpsertState.heldOk_start s.db
  have hupsert : upsertRemnawaveUsers cfg s.db [item] now = .ok e := h
  unfold upsertRemnawaveUsers at hupsert
  split at hupsert
  · cases hupsert
  · next st hst =>
      cases hupsert
      obtain ⟨st₁, hitem, hrest⟩ := Option.bind_eq_some_iff.mp hst
      cases hrest
      obtain ⟨row, uuids, huuids, hpost⟩ := item_postState hwf hheld hitem
      refine ⟨row, sortedSet st.affectedNodeIds, sortedTexts uuids, ?_,
        { hpost with disabled := ?_ }⟩
      · rw [item_upserted hwf hheld hitem, huuids]
        rfl
      · rw [← hpost.disabled]
        unfold sortedTexts
        rw [List.mem_insertionSort, List.mem_dedup]

/-- A profile with a limit of ten bytes. -/
def tenBytes : RemnawaveUserIn :=
  { uuid := "x", username := "alice", status := "ACTIVE", trafficLimitBytes := 10 }

/-- The same profile once its limit is used up. -/
def usedUp : RemnawaveUserIn := { tenBytes with trafficUsedBytes := 10 }

/-- Its account, with a device that is installed on a node. -/
def limitedDevice : List Call := [
  ⟨0, .addNode { name := "a", url := "http://a", token := "t" }⟩,
  ⟨1, .upsert [tenBytes]⟩,
  ⟨2, .addDevice 1 "phone"⟩,
  ⟨3, .syncResult 0 { peers := [{ publicKey := "public-2", status := some "active" }] }⟩]

theorem upsert_postState_usedUp :
    ∃ s e, (panel exampleConfig).replay limitedDevice = some s ∧
      handle exampleConfig s.db 4 (.upsert [usedUp]) = .ok e ∧
      ∃ row affected uuids, e.reply = .upserted ["x"] affected uuids ∧
        PostState usedUp 4 s.db e.db uuids row := by
  have hrun : ((panel exampleConfig).replay limitedDevice).any (fun s =>
      (handle exampleConfig s.db 4 (.upsert [usedUp])).toBool) = true := by decide +kernel
  obtain ⟨s, hs, hok⟩ := TSys.replay_any hrun
  cases he : handle exampleConfig s.db 4 (.upsert [usedUp]) with
  | error err =>
      rw [he] at hok
      cases hok
  | ok e => exact ⟨s, e, hs, he, upsert_postState (TSys.replay_reachable hs) 4 usedUp he⟩

end VpnPanel.Theorems
