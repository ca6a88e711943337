import VpnPanel.Backend.Departures
import VpnPanel.Backend.ImportBatch

/-!
# Delete-requested accounts

An account whose deletion Remnawave asked for is blocked and has no live peer,
until it is imported again or purged: no request gives it a peer back.
-/

namespace VpnPanel.Backend

open VpnPanel.Lib

variable {cfg : Config} {db db' : Db} {u v : UserId}

/-- If the deletion of the account was asked for, it is blocked and no peer of
it is live. -/
def LeavesFor (u : UserId) (db : Db) : Prop :=
  ∀ r ∈ db.profiles, r.userId = u → r.deleteRequestedAt.isSome → db.flag? u = some true ∧ Going u db

def Db.Leaves (db : Db) : Prop := ∀ u, LeavesFor u db

theorem LeavesFor.of_none (h : ∀ r ∈ db.profiles, r.userId ≠ u) : LeavesFor u db :=
  fun r hr hu => absurd hu (h r hr)

/-- No request was added, and what held of the account still holds. -/
theorem LeavesFor.frame (h : LeavesFor u db)
    (hreq : ∀ r ∈ db'.profiles, r.userId = u → r.deleteRequestedAt.isSome →
      ∃ old ∈ db.profiles, old.userId = u ∧ old.deleteRequestedAt.isSome)
    (hkeep : db.flag? u = some true → Going u db → db'.flag? u = some true ∧ Going u db') :
    LeavesFor u db' := by
  intro r hr hu hsome
  obtain ⟨old, hold, hou, hosome⟩ := hreq r hr hu hsome
  obtain ⟨hflag, hgoing⟩ := h old hold hou hosome
  exact hkeep hflag hgoing

/-! ## Writes that leave such an account alone -/

/-- The write neither unblocks the account nor gives it a live peer, and asks
for no deletion. -/
def Lets (u : UserId) (db : Db) : Write → Prop
  | .user row => row.id = u → row.isBlocked = true
  | .resetTraffic row _ => row.id = u → row.isBlocked = true
  | .profile row => row.userId = u → row.deleteRequestedAt.isSome →
      ∃ old ∈ db.profiles, old.userId = u ∧ old.deleteRequestedAt.isSome
  | .newImport _ imported => imported.userId ≠ u
  | .peers f => ∀ p ∈ db.peers, p.userId = u → p.status.live = false → (f p).status.live = false
  | .newPeer row => row.userId = u → db.flag? u ≠ some true
  | _ => True

theorem going_map {f : Peer → Peer} (hsame : ∀ p ∈ db.peers, p.Same (f p))
    (hf : ∀ p ∈ db.peers, p.userId = u → p.status.live = false → (f p).status.live = false)
    (h : Going u db) : Going u (db.mapPeers f) := by
  intro q hq hu
  obtain ⟨p, hp, rfl⟩ := List.mem_map.mp hq
  have hpu := (hsame p hp).userId.symm.trans hu
  exact hf p hp hpu (h p hp hpu)

theorem going_reading (hwf : db.WF) {row : Peer} (hrow : row ∈ db.peers) (data : PeerSyncResult)
    (now : Time) (h : Going u db) : Going u (applyPeerResult db row data now).2 := by
  refine (reading_moves hwf data now hrow).going fun p hp hu => ?_
  split
  · next hid =>
      rw [peerAfterResult_status, hwf.peer_eq hrow hp hid]
      by_contra hlive
      rw [Bool.not_eq_false] at hlive
      have := (peerResultStatus_live hlive).1
      rw [h p hp hu] at this
      cases this
  · exact h p hp hu

theorem flag?_of_user {row : User} (hid : row.id = u → row.isBlocked = true)
    (h : db.flag? u = some true) : (db.saveUser row).flag? u = some true := by
  by_cases hu : row.id = u
  · obtain ⟨old, hold, -⟩ := Option.map_eq_some_iff.mp h
    rw [← hu] at hold ⊢
    rw [flag?_save row hold, hid hu]
  · rw [flag?_save_of_ne hu, h]

/-- A fresh account row shadows no stored one. -/
theorem flag?_of_newUser (hwf : db.WF) {row : User} (hid : row.id = db.nextId)
    (husers : db'.users = db.users ++ [row]) (h : db.flag? u = some true) :
    db'.flag? u = some true := by
  obtain ⟨old, hold, hblocked⟩ := Option.map_eq_some_iff.mp h
  have hne : row.id ≠ u := by
    rw [← (Rows.key_of_get? hold : old.id = u)]
    exact (hwf.userFresh.ne hid old (Rows.mem_of_get? hold)).symm
  have hget : db'.user? u = some old := by
    unfold Db.user?
    rw [husers]
    exact (Rows.get?_append_of_ne hne).trans hold
  unfold Db.flag?
  rw [hget, Option.map_some, hblocked]

theorem LeavesFor.apply (hwf : db.WF) (h : LeavesFor u db) {w : Write} (hl : Lets u db w)
    (hok : w.Ok db) : LeavesFor u (w.apply db) := by
  have hsame : ∀ r ∈ db.profiles, r.userId = u → r.deleteRequestedAt.isSome →
      ∃ old ∈ db.profiles, old.userId = u ∧ old.deleteRequestedAt.isSome :=
    fun r hr hu hsome => ⟨r, hr, hu, hsome⟩
  cases w with
  | user row => exact h.frame hsame fun hf hg => ⟨flag?_of_user hl hf, hg⟩
  | newUser row => exact h.frame hsame fun hf hg => ⟨flag?_of_newUser hwf hok.id rfl hf, hg⟩
  | profile row =>
      refine h.frame ?_ fun hf hg => ⟨hf, hg⟩
      intro r hr hu hsome
      rcases Rows.mem_save.mp hr with ⟨rfl, -⟩ | ⟨hr, -⟩
      · exact hl hu hsome
      · exact hsame r hr hu hsome
  | newImport row imported =>
      refine h.frame ?_ fun hf hg => ⟨flag?_of_newUser hwf hok.1.id rfl hf, hg⟩
      intro r hr hu hsome
      rcases List.mem_append.mp hr with hr | hr
      · exact hsame r hr hu hsome
      · rw [List.mem_singleton.mp hr] at hu
        exact absurd hu hl
  | node row => exact h
  | newNode row => exact h
  | newDevice row => exact h
  | tombstone row =>
      refine h.frame hsame fun hf hg => ⟨hf, ?_⟩
      have hgoing : Going u (db.mapPeers (deletedDevicePeer row.id)) := by
        refine going_map ?_ ?_ hg
        · intro p _
          unfold deletedDevicePeer
          split
          · exact ⟨rfl, rfl, rfl, rfl, rfl⟩
          · exact .refl p
        · intro p _ _ hdead
          unfold deletedDevicePeer
          split
          · rfl
          · exact hdead
      exact hgoing
  | release row at_ => exact h
  | peers f => exact h.frame hsame fun hf hg => ⟨hf, going_map hok.same hl hg⟩
  | newPeer row =>
      refine h.frame hsame fun hf hg => ⟨hf, fun p hp hu => ?_⟩
      rcases List.mem_append.mp hp with hp | hp
      · exact hg p hp hu
      · rw [List.mem_singleton.mp hp] at hu
        exact absurd hf (hl hu)
  | reading row data now =>
      refine h.frame ?_ fun hf hg => ⟨?_, going_reading hwf hok data now hg⟩
      · show ∀ r ∈ (applyPeerResult db row data now).2.profiles, _
        rw [applyPeerResult_db]
        exact hsame
      · show (applyPeerResult db row data now).2.flag? u = some true
        rw [applyPeerResult_db]
        exact hf
  | resetTraffic row at_ =>
      refine h.frame hsame fun hf hg => ⟨?_, hg⟩
      have hflag : (db.saveUser { row with trafficResetAt := some at_ }).flag? u = some true :=
        flag?_of_user hl hf
      exact hflag
  | deleteUser id =>
      by_cases hid : id = u
      · refine .of_none fun r hr => ?_
        rw [← hid]
        simpa using (List.mem_filter.mp hr).2
      · refine h.frame (fun r hr hu hsome => ⟨r, (List.mem_filter.mp hr).1, hu, hsome⟩)
          fun hf hg => ⟨?_, fun p hp hu => hg p (List.mem_filter.mp hp).1 hu⟩
        have huser : (db.deleteUser id).user? u = db.user? u := by
          refine Rows.get?_filter fun r _ hr => ?_
          simpa [hr] using Ne.symm hid
        show ((db.deleteUser id).user? u).map _ = some true
        rw [huser]
        exact hf
  | deleteNode id =>
      exact h.frame hsame fun hf hg => ⟨hf, fun p hp hu => hg p (List.mem_filter.mp hp).1 hu⟩

theorem LeavesFor.writes (hwf : db.WF) (h : LeavesFor u db) (hw : Writes (Lets u) db db') :
    LeavesFor u db' := by
  have hstep : ∀ db w, Lets u db w → w.Ok db → (db.WF ∧ LeavesFor u db) →
      (w.apply db).WF ∧ LeavesFor u (w.apply db) :=
    fun _ w hl hok hI => ⟨Write.apply_wf hI.1 w hok, hI.2.apply hI.1 hl hok⟩
  exact (hw.keeps hstep ⟨hwf, h⟩).2

/-- The lifecycle of another account. -/
theorem OfOwner.lets {w : Write} (h : OfOwner v db w) (hne : v ≠ u) : Lets u db w := by
  cases w with
  | user row => exact fun hid => absurd (h.symm.trans hid) hne
  | peers f => exact fun p hp hu hdead => by rwa [h.1 p hp fun hpv => hne (hpv.symm.trans hu)]
  | newPeer row => exact fun hid => absurd (h.symm.trans hid) hne
  | _ => exact h.elim

theorem LeavesFor.other (hwf : db.WF) (h : LeavesFor u db) (hne : v ≠ u)
    (hw : Writes (OfOwner v) db db') : LeavesFor u db' :=
  h.writes hwf (hw.mono fun _ _ hof => hof.lets hne)

/-- The lifecycle of an account without a profile. -/
theorem Db.Leaves.local_ (hwf : db.WF) (h : db.Leaves) (hnone : db.profileOf? v = none)
    (hw : Writes (OfOwner v) db db') : db'.Leaves := by
  intro u
  by_cases hvu : v = u
  · refine .of_none ?_
    rw [hw.ownerFrame.profiles, ← hvu]
    exact Rows.get?_eq_none.mp hnone
  · exact (h u).other hwf hvu hw

theorem Db.Leaves.writes {P : Db → Write → Prop} (hwf : db.WF) (h : db.Leaves)
    (hP : ∀ u db w, P db w → Lets u db w) (hw : Writes P db db') : db'.Leaves :=
  fun u => (h u).writes hwf (hw.mono fun db w => hP u db w)

theorem Db.Leaves.releases (hwf : db.WF) (h : db.Leaves) (hw : Writes Releases db db') :
    db'.Leaves :=
  h.writes hwf (fun _ _ w hw => by cases w <;> first | exact hw.elim | trivial) hw

theorem Db.Leaves.purge (hwf : db.WF) (h : db.Leaves) :
    (purgeConfirmedRemnawaveDeletes db).2.Leaves :=
  h.writes hwf (fun _ _ w hw => by cases w <;> first | exact hw.elim | trivial)
    (purgeConfirmedRemnawaveDeletes_writes db)

/-! ## Imports -/

/-- Where the only profile of the account asks for no deletion. -/
theorem LeavesFor.of_profile (hwf : db.WF) {row : RemnawaveUser} (hr : row ∈ db.profiles)
    (hreq : row.deleteRequestedAt = none) : LeavesFor row.userId db := by
  intro r hr' hu hsome
  rw [hwf.profileUsers.eq_of_key hr' hr hu, hreq] at hsome
  cases hsome

/-- The tail of an item withdraws any request for its own account, and leaves
the others alone. -/
theorem leaves_finish (hwf : db.WF) {row : RemnawaveUser} (hr : row ∈ db.profiles)
    (h : ∀ u, u ≠ row.userId → LeavesFor u db) (st : UpsertState) (loaded : List PeerId)
    (created : List NodeId) (item : RemnawaveUserIn) (now : Time) :
    (finishUpsert st db row loaded created item now).db.Leaves := by
  let row' := applyRemnawaveProfile row item now
  have hsave : Writes Imports db (db.saveProfile row') :=
    Writes.single (.profile row') trivial ⟨row, hr, rfl, rfl⟩
  have hwf' := (finishUpsert_writes hwf hr st loaded created item now).wf hwf
  intro u
  by_cases hu : row.userId = u
  · have hmem := finishUpsert_mem hwf hr st loaded created item now
    rw [← hu]
    have hleaves : LeavesFor row'.userId _ := LeavesFor.of_profile hwf' hmem rfl
    exact hleaves
  · have hsaved : LeavesFor u (db.saveProfile row') :=
      LeavesFor.apply (w := .profile row') hwf (h u (Ne.symm hu)) (fun hid => absurd hid hu)
        ⟨row, hr, rfl, rfl⟩
    exact hsaved.other (hsave.wf hwf) hu (enforceRemnawaveCombinedLimit_writes (hsave.wf hwf) row')

theorem leaves_item {st st' : UpsertState} (hwf : st.db.WF) (hheld : st.HeldOk)
    (h : st.db.Leaves) {item : RemnawaveUserIn} {now : Time}
    (hitem : upsertItem cfg st item now = some st') : st'.db.Leaves := by
  cases upsertItem_step hwf hheld hitem with
  | @created user row _ _ hok _ =>
      obtain ⟨hw, hmem⟩ := newImport_writes hok
      refine leaves_finish (hw.wf hwf) hmem (fun u hu => ?_) _ _ _ _ _
      exact (h u).apply hwf (fun hid => hu hid.symm) hok
  | @updated user row hr _ hu hown =>
      have hid : user.id = row.userId := Rows.key_of_get? hu
      have hlife := hown.lifecycle_writes cfg hu item now
      have hr' := hlife.stored_profile hr
      refine leaves_finish (hlife.wf hwf) hr' (fun u hne => ?_) _ _ _ _ _
      exact (h u).other hwf (fun heq => hne (heq.symm.trans hid)) hlife

theorem leaves_items {now : Time} (items : List RemnawaveUserIn) :
    ∀ {st st' : UpsertState}, st.db.WF → st.HeldOk → st.db.Leaves →
      upsertItems cfg now items st = some st' → st'.db.Leaves := by
  intro st st' hwf hheld h hst
  refine upsertItems_keeps (I := fun st => st.db.Leaves) items ?_ hwf hheld h hst
  intro item _ st₁ st₂ hwf₁ hheld₁ h₁ hitem
  exact leaves_item hwf₁ hheld₁ h₁ hitem

/-- A requested deletion blocks the account and takes its live peers away. -/
theorem leaves_requestDelete (hwf : db.WF) (h : db.Leaves) {row : RemnawaveUser} {user : User}
    (hr : row ∈ db.profiles) (hu : db.user? row.userId = some user) (now : Time) :
    (requestRemnawaveDelete db row user now).2.Leaves := by
  have hid : user.id = row.userId := Rows.key_of_get? hu
  have hwf' : (db.saveProfile (row.deleteRequested now)).WF :=
    hwf.save_profile ⟨row, hr, rfl, rfl⟩
  intro u
  by_cases hne : user.id = u
  · -- the account itself
    intro r _ _ _
    rw [← hne]
    refine ⟨?_, fun q hq hqu => ?_⟩
    · rw [← hid] at hu
      exact flag?_save { user with isBlocked := true } hu
    · obtain ⟨p, hp, rfl⟩ := List.mem_map.mp hq
      unfold deleteRequestedPeer at hqu ⊢
      split
      · rfl
      · next hnot =>
          rw [if_neg hnot] at hqu
          have hst : p.status = .deleted := by
            by_contra hst
            exact hnot ⟨hqu, hst⟩
          rw [hst]
          rfl
  · have hsaved : LeavesFor u (db.saveProfile (row.deleteRequested now)) :=
      LeavesFor.apply (w := .profile (row.deleteRequested now)) hwf (h u)
        (fun hru => absurd (hid.trans hru) hne) ⟨row, hr, rfl, rfl⟩
    exact hsaved.other hwf' (fun heq => hne heq) (requestRemnawaveDelete_ofOwner hu now)

/-- A completed reconcile keeps the requests, and blocks. -/
theorem leaves_staled (h : db.Leaves) (ids : List UserId) : (db.staled ids).Leaves := by
  intro u
  refine (h u).frame ?_ fun hf hg => ⟨?_, fun q hq hu => ?_⟩
  · intro r hr hu hsome
    obtain ⟨old, hold, rfl⟩ := List.mem_map.mp hr
    refine ⟨old, hold, ?_⟩
    split at hu
    · next hin =>
        rw [if_pos hin] at hsome
        exact ⟨hu, hsome⟩
    · next hout =>
        rw [if_neg hout] at hsome
        exact ⟨hu, hsome⟩
  · obtain ⟨user, hget, hblocked⟩ := Option.map_eq_some_iff.mp hf
    have hget' : (db.staled ids).user? u =
        some (if user.id ∈ ids then { user with isBlocked := true } else user) := by
      have hrow : Rows.get? User.id db.users u = some user := hget
      refine (Rows.get?_map fun x => ?_).trans (congrArg (Option.map _) hrow)
      split <;> rfl
    unfold Db.flag?
    rw [hget', Option.map_some]
    split
    · rfl
    · rw [hblocked]
  · obtain ⟨p, hp, rfl⟩ := List.mem_map.mp hq
    split
    · rfl
    · next hout =>
        rw [if_neg hout] at hu
        exact hg p hp hu

/-! ## Node results -/

theorem leaves_limits {st : PeerResults} (hwf : st.db.WF) (h : st.db.Leaves) (v : UserId)
    (now : Time) : (enforceLimits cfg st v now).db.Leaves := by
  have hw : Writes (OfOwner v) st.db (enforceLimits cfg st v now).db :=
    enforceLimits_writes hwf v now
  cases hrow : st.db.profileOf? v with
  | none => exact h.local_ hwf hrow hw
  | some row =>
      intro u
      by_cases hvu : v = u
      · subst hvu
        have hmoves : Moves v _ st.db (enforceLimits cfg st v now).db :=
          enforceLimits_moves hwf hrow v now
        refine (h v).frame ?_ fun hf hg => ⟨?_, hmoves.going fun p hp hu => ?_⟩
        · rw [hmoves.profiles]
          exact fun r hr hu hsome => ⟨r, hr, hu, hsome⟩
        · -- the limits only ever set the flag of an imported account
          have hid : row.userId = v := Rows.key_of_get? hrow
          have hlocal : (enforceLocalLifecycleForUser cfg st.db v now).2 = st.db :=
            congrArg Prod.snd (enforceLocalLifecycle_of_profile hrow now)
          show (enforceRemnawaveCombinedLimitForUser
            (enforceLocalLifecycleForUser cfg st.db v now).2 v).2.flag? v = some true
          rw [hlocal]
          unfold enforceRemnawaveCombinedLimitForUser
          rw [hrow]
          have hlimit :=
            combinedLimit_flag? row (hid.symm ▸ hf : st.db.flag? row.userId = some true)
          rw [hid, Bool.true_or] at hlimit
          exact hlimit
        · split
          · rfl
          · exact hg p hp hu
      · exact (h u).other hwf hvu hw

theorem leaves_entry {loaded : String → Option PeerId} {st : PeerResults} (hwf : st.db.WF)
    (h : st.db.Leaves) (data : PeerSyncResult) (now : Time) :
    (applyPeerEntry cfg loaded st data now).db.Leaves := by
  refine applyPeerEntry_keeps (I := fun st => st.db.Leaves) hwf h ?_ ?_
  · intro peer hmem _ u
    exact LeavesFor.apply (w := .reading peer data now) hwf (h u) trivial hmem
  · intro st' v hwf' hread
    exact leaves_limits hwf' hread v now

theorem leaves_entries {loaded : String → Option PeerId} (now : Time)
    (results : List PeerSyncResult) : ∀ {st : PeerResults}, st.db.WF → st.db.Leaves →
      (applyPeerEntries cfg loaded now results st).db.Leaves := by
  intro st hwf h
  refine applyPeerEntries_keeps (I := fun st => st.db.Leaves) results ?_ hwf h
  intro data _ st hwf h
  exact leaves_entry hwf h data now

theorem leaves_results (hwf : db.WF) (h : db.Leaves) (nodeId : NodeId)
    (results : List PeerSyncResult) (now : Time) :
    (applyPeerResults cfg db nodeId results now).db.Leaves := by
  have hst : (PeerResults.db { db }).Leaves := h
  exact leaves_entries now results hwf hst

theorem leaves_saveNode (h : db.Leaves) (row : Node) : (db.saveNode row).Leaves := h

/-- A confirmed removal gives no account a live peer. -/
theorem leaves_confirm (hwf : db.WF) (h : db.Leaves) (nodeId : NodeId) (seen : List String) :
    (db.mapPeers (confirmPeer db nodeId seen)).Leaves := by
  intro u
  refine LeavesFor.apply (w := .peers (confirmPeer db nodeId seen)) hwf (h u)
    (fun p _ _ hdead => ?_) (peersOk_confirmPeer db nodeId seen)
  rw [confirmPeer_live]
  exact hdead

theorem leaves_sync (hwf : db.WF) (h : db.Leaves) {node : Node} (hn : node ∈ db.nodes)
    (data : SyncResult) (now : Time) : (applySyncResult cfg db node data now).db.Leaves := by
  let saved := db.saveNode (syncedNode node data now)
  let results := (applyPeerResults cfg saved node.id data.peers now).db
  let confirmed := (confirmRemovals cfg saved node.id data now).db
  have hsaved : saved.WF := hwf.save_node _
  have hresults : results.Leaves := leaves_results hsaved (leaves_saveNode h _) node.id _ now
  have hwfr : results.WF := (applyPeerResults_writes hsaved node.id data.peers now).wf hsaved
  have hconf : confirmed.Leaves := leaves_confirm hwfr hresults node.id _
  have hwfc : confirmed.WF := Writes.wf (syncConfirmed_writes hwf hn data now) hwf
  have hrelease : Writes Releases confirmed
      (releaseDeviceIps confirmed (releasedCandidates confirmed node.id) now) :=
    releaseDeviceIps_writes hwfc _ now
  exact (hconf.releases hwfc hrelease).purge (hrelease.wf hwfc)

/-! ## New peers -/

/-- New peers of an account that is not blocked. -/
theorem LeavesFor.newPeers (h : LeavesFor u db) (hw : Writes (NewPeersOf v) db db')
    (hflag : db.flag? v ≠ some true) : LeavesFor u db' := by
  have hadds := hw.adds
  have hframe := (hw.mono fun _ _ hnew => hnew.ofOwner).ownerFrame
  refine h.frame ?_ fun hf hg => ⟨(hadds.flag? u).trans hf, fun q hq hu => ?_⟩
  · rw [hframe.profiles]
    exact fun r hr hu hsome => ⟨r, hr, hu, hsome⟩
  · rcases hadds.new q hq with hq | ⟨hv, -⟩
    · exact hg q hq hu
    · rw [← hv, hu] at hflag
      exact absurd hf hflag

theorem leaves_createDevice (hwf : db.WF) (h : db.Leaves) {name : String} {now : Time}
    {device : Device} {ids : List NodeId}
    (hc : createDevice cfg db u name now = .ok (device, ids, db')) : db'.Leaves := by
  obtain ⟨howner, hok, hu, -, rfl⟩ := createDevice_ok hc
  let added := Write.apply db (.newDevice device)
  have hflag : added.flag? device.userId ≠ some true := by
    have hfree : added.flag? u = some false := flag?_of_active howner
    rw [hu, hfree]
    simp
  have hmem : device ∈ added.devices := List.mem_append_right _ List.mem_cons_self
  intro v
  have hadded : LeavesFor v added := (h v).apply hwf trivial hok
  exact hadded.newPeers (createPendingPeersOn_writes _ hmem) hflag

theorem leaves_pendingPeers (nodeId : NodeId) (devices : List Device) :
    ∀ {db : Db}, (∀ d ∈ devices, d ∈ db.devices ∧ db.flag? d.userId ≠ some true) → db.Leaves →
      (createPendingPeersOf cfg nodeId devices db).Leaves := by
  induction devices with
  | nil =>
      intro db _ h
      exact h
  | cons first rest ih =>
      intro db hall h
      obtain ⟨hfirst, hflag⟩ := hall first List.mem_cons_self
      have hw : Writes (NewPeersOf first.userId) db (createPendingPeer cfg db nodeId first).2 :=
        createPendingPeer_writes nodeId hfirst
      refine ih (fun d hd => ?_) fun v => (h v).newPeers hw hflag
      rw [hw.adds.devices, hw.adds.flag?]
      exact hall d (List.mem_cons_of_mem _ hd)

/-- A new node gets no peer of a blocked account. -/
theorem leaves_addNode (h : db.Leaves) (node : Node) :
    (createPendingPeersForNode cfg (db.insertNode node) node).Leaves := by
  have hadded : (db.insertNode node).Leaves := h
  refine leaves_pendingPeers node.id _ (fun d hd => ?_) hadded
  obtain ⟨hmem, hselected⟩ := List.mem_filter.mp hd
  refine ⟨hmem, fun hf => ?_⟩
  unfold liveDeviceFilters at hselected
  simp only [Bool.and_eq_true] at hselected
  obtain ⟨user, huser, hfree⟩ := (Option.any_eq_true _ _).mp hselected.2
  unfold Db.flag? at hf
  rw [huser] at hf
  simp_all

/-! ## Every request -/

theorem leaves_commitLifecycle (hwf : db.WF) (h : db.Leaves) {user : User} (row : User)
    (hu : localUser db u = .ok user) (hid : user.id = row.id)
    (hstamp : user.trafficResetAt = row.trafficResetAt) (total : Option Nat) (now : Time) :
    (commitLifecycle cfg db row total now).db.Leaves := by
  obtain ⟨hstored, hnone⟩ := localUser_ok hu
  have hkey : user.id = u := Rows.key_of_get? hstored
  rw [← hkey, hid] at hnone
  exact h.local_ hwf hnone
    (commitLifecycle_writes hwf row (Rows.mem_of_get? hstored) hid hstamp total now)

theorem handle_leaves {now : Time} {request : Request} {e : Effect} (hwf : db.WF) (h : db.Leaves)
    (hok : handle cfg db now request = .ok e) : e.db.Leaves := by
  cases request with
  | addUser name limit =>
      rw [apiAddUser_ok hok]
      exact fun v => LeavesFor.apply (w := .newUser { id := db.nextId, name, deviceLimit := limit })
        hwf (h v) trivial ⟨rfl, rfl⟩
  | updateDeviceLimit v limit =>
      obtain ⟨user, hu, he⟩ := apiUpdateDeviceLimit_ok hok
      obtain ⟨hstored, hnone⟩ := localUser_ok hu
      rw [← (Rows.key_of_get? hstored : user.id = v)] at hnone
      rw [he]
      exact h.local_ hwf hnone (Writes.single (.user { user with deviceLimit := limit }) rfl
        ⟨user, Rows.mem_of_get? hstored, rfl, rfl⟩)
  | blockUser v =>
      obtain ⟨user, hu, rfl⟩ := apiBlockUser_ok hok
      exact leaves_commitLifecycle hwf h { user with lifecycleStatus := .blocked } hu rfl rfl _ _
  | unblockUser v =>
      obtain ⟨user, hu, -, rfl⟩ := apiUnblockUser_ok hok
      exact leaves_commitLifecycle hwf h { user with lifecycleStatus := .active } hu rfl rfl _ _
  | updateLocalLifecycle v data =>
      obtain ⟨user, hu, rfl⟩ := apiUpdateLocalLifecycle_ok hok
      exact leaves_commitLifecycle hwf h (data.apply user) hu rfl rfl _ _
  | resetLocalTraffic v =>
      obtain ⟨user, hu, -, rfl⟩ := apiResetLocalTraffic_ok hok
      obtain ⟨hstored, hnone⟩ := localUser_ok hu
      rw [← (Rows.key_of_get? hstored : user.id = v)] at hnone
      let stamped := (resetLocalTrafficUsage db user now).2
      have hreset : stamped.Leaves := by
        intro x
        by_cases hx : user.id = x
        · rw [← hx]
          exact .of_none (Rows.get?_eq_none.mp hnone)
        · exact LeavesFor.apply (w := .resetTraffic user now) hwf (h x) (fun hid => absurd hid hx)
            ⟨user, Rows.mem_of_get? hstored, rfl⟩
      have hrow : (resetLocalTrafficUsage db user now).1 ∈ stamped.users :=
        Rows.mem_save.mpr (.inl ⟨rfl, user, Rows.mem_of_get? hstored, rfl⟩)
      exact hreset.local_ (hwf.reset_traffic user now) hnone
        (commitLifecycle_writes (hwf.reset_traffic user now) _ hrow rfl rfl _ _)
  | deleteUser v =>
      obtain ⟨user, -, he, -⟩ := apiDeleteUser_ok hok
      rw [he]
      exact fun x => LeavesFor.apply (w := .deleteUser user.id) hwf (h x) trivial trivial
  | addNode data =>
      cases hok
      exact leaves_addNode h _
  | updateNode nodeId data =>
      obtain ⟨node, -, he⟩ := apiUpdateNode_ok hok
      rw [he]
      exact leaves_saveNode h _
  | deleteNode nodeId =>
      obtain ⟨node, -, he⟩ := apiDeleteNode_ok hok
      rw [he]
      have hdel : (db.deleteNode nodeId).Leaves :=
        fun x => LeavesFor.apply (w := .deleteNode nodeId) hwf (h x) trivial trivial
      exact hdel.releases (hwf.delete_node nodeId)
        (releaseDeviceIps_writes (hwf.delete_node nodeId) _ now)
  | addDevice v name =>
      obtain ⟨user, device, ids, -, hc, -⟩ := pubAddDevice_ok hok
      exact leaves_createDevice hwf h hc
  | deleteDevice v deviceId =>
      obtain ⟨device, hd, -, he⟩ := pubDeleteDevice_ok hok
      have hmem : device ∈ db.devices := Rows.mem_of_get? hd
      have htomb : (Write.apply db (.tombstone (device.tombstonedAt now))).Leaves :=
        fun x => (h x).apply hwf trivial (tombstoneOk hmem now)
      rw [he, deleteDevice_db hd]
      exact htomb.releases (hwf.tombstone (tombstoneOk hmem now))
        (releaseDeviceIp_writes (mem_tombstone hmem now) now)
  | upsert data =>
      obtain ⟨st, hst, he⟩ := upsertRemnawaveUsers_ok hok
      rw [he]
      have hstart : (UpsertState.db { db }).Leaves := h
      exact leaves_items data hwf (UpsertState.heldOk_start _) hstart hst
  | markDeleted uuid =>
      rcases markRemnawaveUserDeleted_ok hok with he | ⟨row, hr, -, user, hu, he⟩
      · rw [he]
        exact h
      · rw [he]
        exact leaves_requestDelete hwf h hr hu now
  | reconcileComplete seen =>
      cases hok
      have hmissing : (reconcileMissingRemnawaveUsers db seen).2.Leaves := by
        rw [(reconcileMissing_spec hwf seen).tables]
        exact leaves_staled h _
      exact hmissing.purge ((reconcileMissingRemnawaveUsers_writes hwf seen).wf hwf)
  | syncResult nodeId data =>
      obtain ⟨node, hn, ⟨-, he⟩ | ⟨-, he⟩⟩ := nodeSyncResult_ok hok
      · rw [he]
        exact leaves_saveNode h _
      · rw [he]
        exact leaves_sync hwf h (Rows.mem_of_get? hn) data now
  | heartbeatResult nodeId data =>
      obtain ⟨node, hn, he⟩ := nodeHeartbeatResult_ok hok
      rw [he]
      have hsaved := leaves_saveNode h (applyNodeHeartbeatResult node data now)
      unfold applyHeartbeatResult
      dsimp only
      split
      · exact leaves_results (hwf.save_node _) hsaved node.id _ now
      · exact hsaved

/-- **Leaving accounts.** In every reachable panel, an account whose deletion
was asked for is blocked and has no live peer. -/
theorem panel_leaves {s : Panel} (h : (panel cfg).Reachable s) : s.db.Leaves := by
  refine TSys.Reaches.invariant_with (Q := fun s => s.db.WF) (P := fun s => s.db.Leaves)
    (fun _ => panel_wf) (fun _ => .of_none fun _ hr => absurd hr List.not_mem_nil) ?_ h
  intro s call s' hwf hl _ hstep
  obtain ⟨-, rfl⟩ := panel_step hstep
  unfold afterRequest
  cases hans : handle cfg s.db call.now call.request with
  | error err => exact hl
  | ok e => exact handle_leaves hwf hl hans

end VpnPanel.Backend
