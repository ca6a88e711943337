import VpnPanel.Backend.ImportBatch

/-!
# Owner, device and peer states agree

Every request keeps `Db.Agrees`, with one exception: a batch of imported
profiles that lists a profile twice in a row may work on a peer collection that
is older than the peers it created itself.
-/

namespace VpnPanel.Theorems

open VpnPanel.Lib VpnPanel.Backend

section Requests

variable {cfg : Config} {u : UserId} {db db' : Db}

/-! ## Devices and nodes -/

/-- A new device starts with a pending peer on every node. -/
theorem agrees_createDevice (hwf : db.WF) (h : db.Agrees) {name : String} {now : Time}
    {device : Device} {ids : List NodeId}
    (hc : createDevice cfg db u name now = .ok (device, ids, db')) : db'.Agrees := by
  have hwrites := createDevice_writes hc
  obtain ⟨howner, hok, hu, -, rfl⟩ := createDevice_ok hc
  let added := Write.apply db (.newDevice device)
  have hmem : device ∈ added.devices := List.mem_append_right _ List.mem_cons_self
  have hadds : Adds device.userId added (createPendingPeersForDevice cfg added device).2 :=
    (createPendingPeersOn_writes _ hmem).adds
  have hflag : db.flag? u = some false := flag?_of_active howner
  intro v
  by_cases hv : v = u
  · subst hv
    have hflag' : (createPendingPeersForDevice cfg added device).2.flag? v = some false :=
      (hadds.flag? v).trans hflag
    refine ⟨fun hf => ?_, fun _ d hd hdu huse n hn => ?_, fun _ q hq hqu ht => ?_⟩
    · rw [hflag'] at hf
      cases hf
    · rw [hadds.devices] at hd
      rw [hadds.nodes] at hn
      rcases List.mem_append.mp hd with hd | hd
      · obtain ⟨p, hp, hboth⟩ := (h v).provisioned hflag d hd hdu huse n hn
        exact ⟨p, hadds.peers p hp, hboth⟩
      · rw [List.mem_singleton.mp hd] at huse ⊢
        exact createPendingPeersOn_has cfg huse (added.nodes.map (·.id)) hmem
          (fun id hid => List.mem_map.mp hid) n.id (List.mem_map_of_mem hn)
    · rcases hadds.new q hq with hq | ⟨-, hpending⟩
      · refine (h v).live hflag q hq hqu fun htomb => ht ?_
        obtain ⟨d, hd, hrest⟩ := htomb
        refine ⟨d, ?_, hrest⟩
        rw [hadds.devices]
        exact List.mem_append_left _ hd
      · rw [hpending]
        rfl
  · refine (h v).writes hwf (hwrites.mono ?_)
    intro b w hw
    cases w with
    | newDevice row => exact fun heq => hv (heq.symm.trans hw.1)
    | newPeer row => exact fun heq => absurd (heq.symm.trans hw) hv
    | _ => exact hw.elim

/-- What the loop over the selected devices of a new node leaves. -/
structure AddsOn (nodeId : NodeId) (selected : List Device) (db db' : Db) : Prop where
  peers : ∀ p ∈ db.peers, p ∈ db'.peers
  new : ∀ p ∈ db'.peers, p ∈ db.peers ∨
    (p.status = .pending ∧ ∃ d ∈ selected, d.userId = p.userId)
  devices : db'.devices = db.devices
  nodes : db'.nodes = db.nodes
  users : db'.users = db.users
  has : ∀ d ∈ selected, d.Usable → ∃ p ∈ db'.peers, p.nodeId = nodeId ∧ p.deviceId = d.id

theorem createPendingPeersOf_addsOn (cfg : Config) (nodeId : NodeId) (devices : List Device) :
    ∀ {db : Db}, (∀ d ∈ devices, d ∈ db.devices) → (∃ n ∈ db.nodes, n.id = nodeId) →
      AddsOn nodeId devices db (createPendingPeersOf cfg nodeId devices db) := by
  induction devices with
  | nil =>
      intro db _ _
      exact ⟨fun _ h => h, fun _ h => .inl h, rfl, rfl, rfl, fun _ h => absurd h List.not_mem_nil⟩
  | cons first rest ih =>
      intro db hmem hn
      have hfirst := hmem first List.mem_cons_self
      have hone : Adds first.userId db (createPendingPeer cfg db nodeId first).2 :=
        (createPendingPeer_writes nodeId hfirst).adds
      have hmem' : ∀ d ∈ rest, d ∈ (createPendingPeer cfg db nodeId first).2.devices := by
        rw [hone.devices]
        exact fun d hd => hmem d (List.mem_cons_of_mem _ hd)
      have hrest := ih hmem' (by rw [hone.nodes]; exact hn)
      refine ⟨fun p hp => hrest.peers p (hone.peers p hp), fun p hp => ?_,
        hrest.devices.trans hone.devices, hrest.nodes.trans hone.nodes,
        hrest.users.trans hone.users, fun d hd huse => ?_⟩
      · rcases hrest.new p hp with hp | ⟨hpending, d, hd, hdu⟩
        · rcases hone.new p hp with hp | ⟨hu, hpending⟩
          · exact .inl hp
          · exact .inr ⟨hpending, first, List.mem_cons_self, hu.symm⟩
        · exact .inr ⟨hpending, d, List.mem_cons_of_mem _ hd, hdu⟩
      · rcases List.mem_cons.mp hd with rfl | hd
        · obtain ⟨p, hp, hboth⟩ := createPendingPeer_has cfg hfirst huse hn
          exact ⟨p, hrest.peers p hp, hboth⟩
        · exact hrest.has d hd huse

/-- A new node gets a pending peer of every usable device of an account that is
not blocked. -/
theorem agrees_addNode (h : db.Agrees) {node : Node} :
    (createPendingPeersForNode cfg (db.insertNode node) node).Agrees := by
  let added := db.insertNode node
  let devices := added.devices.filter (liveDeviceFilters added)
  have hadds : AddsOn node.id devices added (createPendingPeersForNode cfg added node) :=
    createPendingPeersOf_addsOn cfg node.id devices (fun d hd => (List.mem_filter.mp hd).1)
      ⟨node, List.mem_append_right _ List.mem_cons_self, rfl⟩
  intro v
  have hflag : (createPendingPeersForNode cfg added node).flag? v = db.flag? v := by
    unfold Db.flag? Db.user?
    rw [hadds.users]
    rfl
  refine ⟨fun hf q hq hqv => ?_, fun hf d hd hdv huse n hn => ?_, fun hf q hq hqv ht => ?_⟩
  · rw [hflag] at hf
    rcases hadds.new q hq with hq | ⟨-, d, hd, hdu⟩
    · exact (h v).blocked hf q hq hqv
    · -- the device was selected, so its owner is not blocked
      have hsel := (List.mem_filter.mp hd).2
      unfold liveDeviceFilters at hsel
      simp only [Bool.and_eq_true] at hsel
      obtain ⟨user, huser, hfree⟩ := (Option.any_eq_true _ _).mp hsel.2
      rw [hdu, hqv] at huser
      unfold Db.flag? at hf
      rw [show db.user? v = some user from huser] at hf
      simp_all
  · rw [hflag] at hf
    rw [hadds.devices] at hd
    rw [hadds.nodes] at hn
    rcases List.mem_append.mp hn with hn | hn
    · obtain ⟨p, hp, hboth⟩ := (h v).provisioned hf d hd hdv huse n hn
      exact ⟨p, hadds.peers p hp, hboth⟩
    · rw [List.mem_singleton.mp hn]
      refine hadds.has d (List.mem_filter.mpr ⟨hd, ?_⟩) huse
      obtain ⟨key, hkey, -⟩ := truthy_iff.mp huse.key
      obtain ⟨ip, hip, -⟩ := truthy_iff.mp huse.ip
      obtain ⟨user, huser, hblocked⟩ := Option.map_eq_some_iff.mp hf
      have hstored : added.user? d.userId = some user := by
        rw [hdv]
        exact huser
      unfold liveDeviceFilters
      rw [hstored]
      simp [huse.live, hkey, hip, hblocked]
  · rw [hflag] at hf
    rcases hadds.new q hq with hq | ⟨hpending, -⟩
    · refine (h v).live hf q hq hqv fun htomb => ht ?_
      unfold Db.Tombstoned at htomb ⊢
      rw [hadds.devices]
      exact htomb
    · rw [hpending]
      rfl

/-! ## Missing and deleted profiles -/

theorem agrees_requestDelete (hwf : db.WF) (h : db.Agrees) {row : RemnawaveUser} {user : User}
    (hr : row ∈ db.profiles) (hu : db.user? row.userId = some user) (now : Time) :
    (requestRemnawaveDelete db row user now).2.Agrees := by
  have hsave : Writes Imports db (db.saveProfile (row.deleteRequested now)) :=
    Writes.single (.profile (row.deleteRequested now)) trivial ⟨row, hr, rfl, rfl⟩
  refine (h.saveProfile hwf _).of_owner (hsave.wf hwf)
    (requestRemnawaveDelete_ofOwner hu now) ?_
  have hid : user.id = row.userId := Rows.key_of_get? hu
  rw [← hid] at hu
  have hflag : (requestRemnawaveDelete db row user now).2.flag? user.id = some true :=
    flag?_save { user with isBlocked := true } hu
  refine ⟨fun _ q hq hqu => ?_, fun hf => ?_, fun hf => ?_⟩
  · obtain ⟨p, hp, rfl⟩ := List.mem_map.mp hq
    unfold deleteRequestedPeer at hqu ⊢
    split
    · rfl
    · next hnot =>
        rw [if_neg hnot] at hqu
        have hst : p.status = .deleted := by
          by_contra hne
          exact hnot ⟨hqu, hne⟩
        rw [hst]
        rfl
  · rw [hflag] at hf
    cases hf
  · rw [hflag] at hf
    cases hf

theorem agrees_markStale (hwf : db.WF) (h : db.Agrees) (row : RemnawaveUser)
    (hr : ∃ r ∈ db.profiles, r.userId = row.userId ∧ r.remnawaveUuid = row.remnawaveUuid) :
    (markRemnawaveUserStale db row).2.Agrees := by
  unfold markRemnawaveUserStale
  cases hu : db.user? row.userId with
  | none => exact h
  | some user =>
      let row' : RemnawaveUser := { row with
        syncStatus := .stale, syncReason := some "remote user missing", syncError := none }
      have hsave : Writes Imports db (db.saveProfile row') :=
        Writes.single (.profile row') trivial hr
      rw [← (Rows.key_of_get? hu : user.id = row.userId)] at hu
      exact (h.saveProfile hwf row').blockAll (hsave.wf hwf) hu

theorem agrees_markRowsStale (rows : List RemnawaveUser) :
    ∀ {db : Db}, db.WF → db.Agrees →
      (∀ row ∈ rows, ∃ r ∈ db.profiles, r.userId = row.userId ∧
        r.remnawaveUuid = row.remnawaveUuid) →
      (markRowsStale rows db).2.Agrees := by
  induction rows with
  | nil =>
      intro db _ h _
      exact h
  | cons row rest ih =>
      intro db hwf h hmem
      have hone := markRemnawaveUserStale_writes hwf (hmem row List.mem_cons_self)
      refine ih (hone.wf hwf) (agrees_markStale hwf h row (hmem row List.mem_cons_self)) ?_
      intro r hr
      exact profile_kept hwf (hmem r (List.mem_cons_of_mem _ hr)) hone

/-! ## Every request -/

/-- Every entry of a node's answer reports `active`. -/
def ReportsActive (call : Call) : Prop :=
  ∀ entry ∈ call.request.entries, entry.status = some "active"

/-- An imported batch has no stale flip. -/
def NoStaleFlip (s : Panel) (call : Call) : Prop :=
  ∀ data, call.request = .upsert data → staleFlip s.db call.now [] none data = false

theorem agrees_commitLifecycle (hwf : db.WF) (h : db.Agrees) {user : User} (row : User)
    (hu : localUser db u = .ok user) (hid : row.id = user.id)
    (hflag : user.isBlocked = row.isBlocked) (hstamp : user.trafficResetAt = row.trafficResetAt)
    (total : Option Nat) (now : Time) : (commitLifecycle cfg db row total now).db.Agrees := by
  have hstored := (localUser_ok hu).1
  rw [← (Rows.key_of_get? hstored : user.id = u), ← hid] at hstored
  exact h.localLifecycle hwf row hstored hflag hstamp total now

theorem handle_agrees {s : Panel} {call : Call} {e : Effect} (hwf : s.db.WF) (h : s.db.Agrees)
    (hactive : ReportsActive call) (hflip : NoStaleFlip s call)
    (hok : handle cfg s.db call.now call.request = .ok e) : e.db.Agrees := by
  cases hreq : call.request with
  | addUser name limit =>
      rw [hreq] at hok
      rw [apiAddUser_ok hok]
      exact fun v => Keeps.apply (w := .newUser { id := s.db.nextId, name, deviceLimit := limit })
        hwf (h v) trivial ⟨rfl, rfl⟩
  | updateDeviceLimit v limit =>
      rw [hreq] at hok
      obtain ⟨user, hu, he⟩ := apiUpdateDeviceLimit_ok hok
      have hstored := (localUser_ok hu).1
      rw [he]
      intro w
      refine Keeps.apply (w := .user { user with deviceLimit := limit }) hwf (h w) ?_
        ⟨user, Rows.mem_of_get? hstored, rfl, rfl⟩
      rintro rfl
      rw [← (Rows.key_of_get? hstored : user.id = v)] at hstored
      show s.db.flag? user.id = some user.isBlocked
      unfold Db.flag?
      rw [hstored]
      rfl
  | blockUser v =>
      rw [hreq] at hok
      obtain ⟨user, hu, rfl⟩ := apiBlockUser_ok hok
      exact agrees_commitLifecycle hwf h { user with lifecycleStatus := .blocked } hu rfl rfl rfl
        _ _
  | unblockUser v =>
      rw [hreq] at hok
      obtain ⟨user, hu, -, rfl⟩ := apiUnblockUser_ok hok
      exact agrees_commitLifecycle hwf h { user with lifecycleStatus := .active } hu rfl rfl rfl _ _
  | updateLocalLifecycle v data =>
      rw [hreq] at hok
      obtain ⟨user, hu, rfl⟩ := apiUpdateLocalLifecycle_ok hok
      exact agrees_commitLifecycle hwf h (data.apply user) hu rfl rfl rfl _ _
  | resetLocalTraffic v =>
      rw [hreq] at hok
      obtain ⟨user, hu, -, rfl⟩ := apiResetLocalTraffic_ok hok
      have hstored := (localUser_ok hu).1
      rw [← (Rows.key_of_get? hstored : user.id = v)] at hstored
      have hflag : s.db.flag? user.id = some user.isBlocked := by
        unfold Db.flag?
        rw [hstored]
        rfl
      have hreset : (resetLocalTrafficUsage s.db user call.now).2.Agrees := fun w =>
        Keeps.apply (w := .resetTraffic user call.now) hwf (h w) (fun hid => hid ▸ hflag)
          ⟨user, Rows.mem_of_get? hstored, rfl⟩
      have hrow : (resetLocalTrafficUsage s.db user call.now).2.user?
          (resetLocalTrafficUsage s.db user call.now).1.id =
          some (resetLocalTrafficUsage s.db user call.now).1 := Rows.get?_save_self hstored
      exact hreset.localLifecycle (hwf.reset_traffic user call.now) _ hrow rfl rfl _ _
  | deleteUser v =>
      rw [hreq] at hok
      obtain ⟨user, -, he, -⟩ := apiDeleteUser_ok hok
      rw [he]
      exact fun w => keeps_deleteUser hwf (h w) user.id
  | addNode data =>
      rw [hreq] at hok
      cases hok
      exact agrees_addNode h
  | updateNode nodeId data =>
      rw [hreq] at hok
      obtain ⟨node, -, he⟩ := apiUpdateNode_ok hok
      rw [he]
      exact h.saveNode hwf _
  | deleteNode nodeId =>
      rw [hreq] at hok
      obtain ⟨node, -, he⟩ := apiDeleteNode_ok hok
      rw [he]
      have hdel : (s.db.deleteNode nodeId).Agrees := fun w => keeps_deleteNode hwf (h w) nodeId
      exact hdel.releases (hwf.delete_node nodeId)
        (releaseDeviceIps_writes (hwf.delete_node nodeId) _ call.now)
  | addDevice v name =>
      rw [hreq] at hok
      obtain ⟨user, device, ids, -, hc, -⟩ := pubAddDevice_ok hok
      exact agrees_createDevice hwf h hc
  | deleteDevice v deviceId =>
      rw [hreq] at hok
      obtain ⟨device, hd, -, he⟩ := pubDeleteDevice_ok hok
      have hmem : device ∈ s.db.devices := Rows.mem_of_get? hd
      have htomb : (Write.apply s.db (.tombstone (device.tombstonedAt call.now))).Agrees :=
        fun w => keeps_tombstone (h w) (tombstoneOk hmem call.now)
      rw [he, deleteDevice_db hd]
      exact htomb.releases (hwf.tombstone (tombstoneOk hmem call.now))
        (releaseDeviceIp_writes (mem_tombstone hmem call.now) call.now)
  | upsert data =>
      rw [hreq] at hok
      obtain ⟨st, hst, he⟩ := upsertRemnawaveUsers_ok hok
      rw [he]
      have hstart : (UpsertState.db { db := s.db }).Agrees := h
      exact upsertItems_agrees data hwf (UpsertState.heldOk_start _) (Tracks.start hwf) hstart
        hst (hflip data hreq)
  | markDeleted uuid =>
      rw [hreq] at hok
      rcases markRemnawaveUserDeleted_ok hok with he | ⟨row, hr, -, user, hu, he⟩
      · rw [he]
        exact h
      · rw [he]
        exact agrees_requestDelete hwf h hr hu call.now
  | reconcileComplete seen =>
      rw [hreq] at hok
      cases hok
      have hmissing : (reconcileMissingRemnawaveUsers s.db seen).2.Agrees :=
        agrees_markRowsStale _ hwf h fun row hrow => ⟨row, (List.mem_filter.mp hrow).1, rfl, rfl⟩
      exact hmissing.purges ((reconcileMissingRemnawaveUsers_writes hwf seen).wf hwf)
        (purgeConfirmedRemnawaveDeletes_writes _)
  | syncResult nodeId data =>
      unfold ReportsActive at hactive
      rw [hreq] at hok hactive
      obtain ⟨node, hn, ⟨-, he⟩ | ⟨-, he⟩⟩ := nodeSyncResult_ok hok
      · rw [he]
        exact h.saveNode hwf _
      · rw [he]
        exact h.syncResult hwf (Rows.mem_of_get? hn) hactive call.now
  | heartbeatResult nodeId data =>
      unfold ReportsActive at hactive
      rw [hreq] at hok hactive
      obtain ⟨node, hn, he⟩ := nodeHeartbeatResult_ok hok
      rw [he]
      exact h.heartbeatResult hwf node hactive call.now

theorem panel_agrees {s : Panel}
    (h : (panel cfg).Reaches (fun s call => ReportsActive call ∧ NoStaleFlip s call) s) :
    s.db.WF ∧ s.db.Agrees := by
  refine TSys.Reaches.invariant (P := fun s => s.db.WF ∧ s.db.Agrees)
    ⟨Db.WF.empty, fun _ => .of_none rfl⟩ ?_ h
  rintro s call s' ⟨hwf, hag⟩ ⟨hactive, hflip⟩ hstep
  refine ⟨(panel_step_phases hwf hstep).writes.wf hwf, ?_⟩
  obtain ⟨-, rfl⟩ := panel_step hstep
  unfold afterRequest
  cases hans : handle cfg s.db call.now call.request with
  | error err => exact hag
  | ok e => exact handle_agrees hwf hag hactive hflip hans

end Requests

/-! ## Runs -/

theorem status_of_dead {status : PeerStatus} (h : status.live = false) :
    status = .pendingDelete ∨ status = .deleted := by
  cases status <;> simp_all [PeerStatus.live]

theorem status_of_live {status : PeerStatus} (h : status.live = true) :
    status = .pending ∨ status = .active := by
  cases status <;> simp_all [PeerStatus.live]

/-- **States agree.** In every state of a run whose node answers report
`active` and whose batches have no stale flip: the peers of a blocked account
are going or gone; each usable device of an account that is not blocked has
exactly one peer on every node, pending or active; the peers of a tombstoned
device are going or gone. -/
theorem states_agree (cfg : Config) (s : Panel)
    (hs : (panel cfg).Reaches (fun s call => ReportsActive call ∧ NoStaleFlip s call) s) :
    (∀ user ∈ s.db.users, user.isBlocked = true → ∀ p ∈ s.db.peers, p.userId = user.id →
        p.status = .pendingDelete ∨ p.status = .deleted) ∧
      (∀ user ∈ s.db.users, user.isBlocked = false → ∀ d ∈ s.db.devices, d.userId = user.id →
        d.Usable → ∀ n ∈ s.db.nodes, ∃ p ∈ s.db.peers, p.nodeId = n.id ∧ p.deviceId = d.id ∧
          (p.status = .pending ∨ p.status = .active) ∧
          ∀ q ∈ s.db.peers, q.nodeId = n.id → q.deviceId = d.id → q = p) ∧
      (∀ d ∈ s.db.devices, d.deletedAt.isSome → ∀ p ∈ s.db.peers, p.deviceId = d.id →
        p.status = .pendingDelete ∨ p.status = .deleted) := by
  obtain ⟨hwf, hag⟩ := panel_agrees hs
  have hflag : ∀ user ∈ s.db.users, s.db.flag? user.id = some user.isBlocked := by
    intro user hmem
    have hstored : s.db.user? user.id = some user := hwf.userIds.get?_eq_some hmem
    unfold Db.flag?
    rw [hstored]
    rfl
  refine ⟨fun user hmem hblocked p hp hu => ?_, fun user hmem hfree d hd hu huse n hn => ?_,
    fun d hd hdel p hp hpd => ?_⟩
  · exact status_of_dead ((hag user.id).blocked (hblocked ▸ hflag user hmem) p hp hu)
  · have hf : s.db.flag? user.id = some false := hfree ▸ hflag user hmem
    obtain ⟨p, hp, hpn, hpd⟩ := (hag user.id).provisioned hf d hd hu huse n hn
    have hpu : p.userId = user.id := (hwf.peer_owner hp hd hpd).trans hu
    have hlive : ¬s.db.Tombstoned p.deviceId := by
      rw [hpd, hwf.tombstoned_iff hd, huse.live]
      simp
    refine ⟨p, hp, hpn, hpd, status_of_live ((hag user.id).live hf p hp hpu hlive), ?_⟩
    intro q hq hqn hqd
    exact hwf.peer_eq hq hp (hwf.peerPair q hq p hp (hqn.trans hpn.symm) (hqd.trans hpd.symm))
  · exact status_of_dead (hwf.tombstones p hp ⟨d, hd, hpd.symm, hdel⟩)

/-- A blocked account with a device on a node: its peer is going or gone. -/
theorem states_agree_after_block :
    ∃ s, (panel exampleConfig).replay (oneDevice ++ [⟨3, .blockUser 1⟩]) = some s ∧
      (∃ user ∈ s.db.users, user.isBlocked = true ∧ ∃ p ∈ s.db.peers, p.userId = user.id ∧
        (p.status = .pendingDelete ∨ p.status = .deleted)) := by
  have hrun : ((panel exampleConfig).replay (oneDevice ++ [⟨3, .blockUser 1⟩])).any (fun s =>
      s.db.users.any fun user => user.isBlocked && s.db.peers.any (·.userId = user.id)) = true := by
    decide +kernel
  have hok : ∀ call ∈ oneDevice ++ [⟨3, .blockUser 1⟩], ∀ s,
      ReportsActive call ∧ NoStaleFlip s call := by
    intro call hcall s
    have hentries : call.request.entries = [] ∧ ∀ data, call.request ≠ .upsert data := by
      simp only [oneDevice, List.cons_append, List.nil_append, List.mem_cons,
        List.not_mem_nil, or_false] at hcall
      rcases hcall with rfl | rfl | rfl | rfl <;> exact ⟨rfl, nofun⟩
    refine ⟨fun entry hentry => ?_, fun data hreq => absurd hreq (hentries.2 data)⟩
    rw [hentries.1] at hentry
    cases hentry
  obtain ⟨s, hs, hrows⟩ := TSys.replay_any hrun
  obtain ⟨user, hmem, hrows⟩ := List.any_eq_true.mp hrows
  obtain ⟨hblocked, hrows⟩ := Bool.and_eq_true_iff.mp hrows
  obtain ⟨p, hp, hpu⟩ := List.any_eq_true.mp hrows
  have hpu : p.userId = user.id := by simpa using hpu
  have hagree := states_agree exampleConfig s
    (TSys.replay_reaches (TSys.replayOk_of_forall _ hok _) hs)
  exact ⟨s, hs, user, hmem, hblocked, p, hp, hpu, hagree.1 user hmem hblocked p hp hpu⟩

/-- An imported account with a device is disabled while a node is added; then
one batch lists it as active and, next, as disabled. -/
def flippedTwice : List Call := [
  ⟨0, .upsert [{ uuid := "x", username := "alice", status := "ACTIVE" }]⟩,
  ⟨1, .addDevice 0 "phone"⟩,
  ⟨2, .upsert [{ uuid := "x", username := "alice", status := "DISABLED" }]⟩,
  ⟨3, .addNode { name := "a", url := "http://a", token := "t" }⟩,
  ⟨4, .upsert [
    { uuid := "x", username := "alice", status := "ACTIVE" },
    { uuid := "x", username := "alice", status := "DISABLED" }]⟩]

/-- The account ends blocked with a pending peer. -/
theorem blocked_account_with_pending_peer :
    ∃ s, (panel exampleConfig).replay flippedTwice = some s ∧
      ∃ user ∈ s.db.users, user.isBlocked = true ∧
        ∃ p ∈ s.db.peers, p.userId = user.id ∧ p.status = .pending := by
  have hrun : ((panel exampleConfig).replay flippedTwice).any (fun s =>
      ∃ user ∈ s.db.users, user.isBlocked = true ∧
        ∃ p ∈ s.db.peers, p.userId = user.id ∧ p.status = .pending) = true := by
    decide +kernel
  obtain ⟨s, hs, hrows⟩ := TSys.replay_any hrun
  exact ⟨s, hs, of_decide_eq_true hrows⟩

end VpnPanel.Theorems
