import VpnPanel.Backend.Departures
import VpnPanel.Backend.ImportBatch
import VpnPanel.Backend.Metering

/-!
# Settled limits

When the limit enforcement of `_apply_peer_results` finds nothing to queue. An
account is settled when its peers and profile already are what the enforcement
would make of them (`LimitsSettled`); the entries of a result are settled when
each of them that records traffic meets a settled account, on the tables as the
entries before it left them (`EntriesSettled`). `entries_idle_iff` says that
this is exactly when the loop queues nothing.
-/

namespace VpnPanel.Backend

open VpnPanel.Lib

/-! ## Settled accounts -/

instance (db : Db) (id : DeviceId) : Decidable (db.Tombstoned id) :=
  inferInstanceAs (Decidable (∃ d ∈ db.devices, d.id = id ∧ d.deletedAt.isSome))

instance (d : Device) : Decidable d.Usable :=
  decidable_of_iff (d.deletedAt = none ∧ truthy d.publicKey = true ∧ truthy d.vpnIp = true)
    ⟨fun ⟨hlive, hkey, hip⟩ => ⟨hlive, hkey, hip⟩, fun h => ⟨h.live, h.key, h.ip⟩⟩

instance (db : Db) (u : UserId) : Decidable (db.Provisioned u) :=
  inferInstanceAs (Decidable (∀ d ∈ db.devices, d.userId = u → d.Usable → ∀ n ∈ db.nodes,
    ∃ p ∈ db.peers, p.nodeId = n.id ∧ p.deviceId = d.id))

/-- The peer already has the status a transition gives it. -/
def Db.PeerSettled (db : Db) (shouldBlock : Bool) (p : Peer) : Prop :=
  if shouldBlock then p.status = .pendingDelete
  else p.status.live = true ∨ db.Tombstoned p.deviceId

instance (db : Db) (b : Bool) (p : Peer) : Decidable (db.PeerSettled b p) := by
  unfold Db.PeerSettled
  infer_instance

/-- The local lifecycle has nothing left to do: the peers of the account have
the statuses its derived state asks for, and an account that becomes active
again misses no peer. -/
def LocallySettled (db : Db) (user : User) (now : Time) : Prop :=
  let shouldBlock : Bool := desiredStatus user (loadLocalTotalBytes db user.id) now ≠ .active
  (∀ p ∈ db.peersOf user.id, db.PeerSettled shouldBlock p) ∧
    (shouldBlock = false → (user.isBlocked || user.lifecycleStatus ≠ .active) = true →
      db.Provisioned user.id)

instance (db : Db) (user : User) (now : Time) : Decidable (LocallySettled db user now) := by
  unfold LocallySettled
  infer_instance

/-- The combined limit of an imported account is not reached, or it is disabled
remotely and all its peers are going. -/
def CombinedSettled (db : Db) (row : RemnawaveUser) : Prop :=
  remnawaveCombinedLimited row (loadLocalTotalBytes db row.userId) = true →
    row.status = "DISABLED" ∧ ∀ p ∈ db.peersOf row.userId, p.status = .pendingDelete

instance (db : Db) (row : RemnawaveUser) : Decidable (CombinedSettled db row) := by
  unfold CombinedSettled
  infer_instance

/-- The limits of an account are enforced already. -/
def LimitsSettled (db : Db) (userId : UserId) (now : Time) : Prop :=
  match db.profileOf? userId with
  | some row => CombinedSettled db row
  | none => ∀ user ∈ db.user? userId, LocallySettled db user now

instance (db : Db) (u : UserId) (now : Time) : Decidable (LimitsSettled db u now) := by
  unfold LimitsSettled
  split <;> infer_instance

/-! ## Settled entries -/

/-- The entry moves a counter of the peer. -/
def movesCounter (peer : Peer) (data : PeerSyncResult) : Bool :=
  data.reading?.any fun r =>
    counterDelta peer.rawRx r.rx ≠ 0 || counterDelta peer.rawTx r.tx ≠ 0

/-- An entry that moves a counter of its peer meets an account whose limits are
enforced already, the entry's own traffic counted. -/
def EntrySettled (loaded : String → Option PeerId) (db : Db) (data : PeerSyncResult)
    (now : Time) : Prop :=
  ∀ peer ∈ (loaded data.publicKey).bind db.peer?, movesCounter peer data = true →
    LimitsSettled (applyPeerResult db peer data now).2 peer.userId now

/-- Every entry is settled on the tables the entries before it left. -/
def EntriesSettled (cfg : Config) (loaded : String → Option PeerId) (now : Time) :
    List PeerSyncResult → Db → Prop
  | [], _ => True
  | data :: rest, db => EntrySettled loaded db data now ∧
      EntriesSettled cfg loaded now rest (applyPeerEntry cfg loaded { db } data now).db

instance (loaded : String → Option PeerId) (db : Db) (data : PeerSyncResult) (now : Time) :
    Decidable (EntrySettled loaded db data now) := by
  unfold EntrySettled
  infer_instance

instance decidableEntriesSettled (cfg : Config) (loaded : String → Option PeerId) (now : Time) :
    ∀ (entries : List PeerSyncResult) (db : Db),
      Decidable (EntriesSettled cfg loaded now entries db)
  | [], _ => isTrue trivial
  | _ :: rest, _ =>
      have := decidableEntriesSettled cfg loaded now rest
      inferInstanceAs (Decidable (_ ∧ _))

/-! ## A restore that creates nothing -/

section Restore

variable {cfg : Config} {db : Db} {u : UserId}

theorem createPendingPeer_false {nodeId : NodeId} {d : Device}
    (h : (createPendingPeer cfg db nodeId d).1 = false) :
    (createPendingPeer cfg db nodeId d).2 = db := by
  rcases createPendingPeer_cases cfg db nodeId d with heq | ⟨heq, -⟩
  · rw [heq]
  · rw [heq] at h
    cases h

/-- Every created peer draws one id. -/
theorem createPendingPeersOn_nextId (cfg : Config) (d : Device) (ids : List NodeId) : ∀ db : Db,
    (createPendingPeersOn cfg d ids db).2.nextId =
      db.nextId + (createPendingPeersOn cfg d ids db).1.length := by
  induction ids with
  | nil =>
      intro db
      rfl
  | cons id rest ih =>
      intro db
      have hrest := ih (createPendingPeer cfg db id d).2
      show (createPendingPeersOn cfg d rest (createPendingPeer cfg db id d).2).2.nextId = _
      show _ = db.nextId + (if (createPendingPeer cfg db id d).1 then
        id :: (createPendingPeersOn cfg d rest (createPendingPeer cfg db id d).2).1
        else (createPendingPeersOn cfg d rest (createPendingPeer cfg db id d).2).1).length
      rw [hrest]
      rcases createPendingPeer_cases cfg db id d with heq | ⟨heq, -⟩
      · simp [heq]
      · rw [heq]
        show (db.nextId + 1) + _ = db.nextId + (_ + 1)
        omega

theorem restoreMissingPeersOf_nextId (cfg : Config) (devices : List Device) : ∀ db : Db,
    (restoreMissingPeersOf cfg devices db).2.nextId =
      db.nextId + (restoreMissingPeersOf cfg devices db).1.length := by
  induction devices with
  | nil =>
      intro db
      rfl
  | cons d rest ih =>
      intro db
      have hhead := createPendingPeersOn_nextId cfg d (db.nodes.map (·.id)) db
      have hrest := ih (createPendingPeersForDevice cfg db d).2
      show (restoreMissingPeersOf cfg rest (createPendingPeersForDevice cfg db d).2).2.nextId =
        db.nextId + (_ ++ _ : List NodeId).length
      rw [hrest, List.length_append]
      show (createPendingPeersOn cfg d (db.nodes.map (·.id)) db).2.nextId + _ = _
      rw [hhead, Nat.add_assoc]
      rfl

theorem createPendingPeersOn_nil (d : Device) (ids : List NodeId) : ∀ db : Db,
    (createPendingPeersOn cfg d ids db).1 = [] → (createPendingPeersOn cfg d ids db).2 = db := by
  induction ids with
  | nil =>
      intro db _
      rfl
  | cons id rest ih =>
      intro db h
      replace h : (if (createPendingPeer cfg db id d).1 then
        id :: (createPendingPeersOn cfg d rest (createPendingPeer cfg db id d).2).1
        else (createPendingPeersOn cfg d rest (createPendingPeer cfg db id d).2).1) = [] := h
      show (createPendingPeersOn cfg d rest (createPendingPeer cfg db id d).2).2 = db
      cases hmade : (createPendingPeer cfg db id d).1 with
      | true => simp [hmade] at h
      | false =>
          rw [hmade, if_neg Bool.false_ne_true] at h
          rw [createPendingPeer_false hmade] at h ⊢
          exact ih db h

theorem restoreMissingPeersOf_nil (devices : List Device) : ∀ db : Db,
    (restoreMissingPeersOf cfg devices db).1 = [] →
      (restoreMissingPeersOf cfg devices db).2 = db := by
  induction devices with
  | nil =>
      intro db _
      rfl
  | cons d rest ih =>
      intro db h
      obtain ⟨hhead, hrest⟩ := List.append_eq_nil_iff.mp h
      have hsame := createPendingPeersOn_nil d (db.nodes.map (·.id)) db hhead
      show (restoreMissingPeersOf cfg rest
        (createPendingPeersOn cfg d (db.nodes.map (·.id)) db).2).2 = db
      rw [hsame] at hrest ⊢
      exact ih db hrest

/-- A restore creates nothing exactly when the account misses no peer. -/
theorem restoreMissingPeersForUser_nil_iff :
    (restoreMissingPeersForUser cfg db u).1 = [] ↔ db.Provisioned u := by
  constructor
  · intro h
    have hafter : (restoreMissingPeersForUser cfg db u).2.Provisioned u :=
      provisioned_restore cfg db u
    rwa [restoreMissingPeersForUser, restoreMissingPeersOf_nil _ db h] at hafter
  · intro hprov
    -- nothing was inserted, so no id was drawn
    have hids := restoreMissingPeersOf_nextId cfg (listLiveDevices db u) db
    have hsame : (restoreMissingPeersOf cfg (listLiveDevices db u) db).2 = db :=
      restoreMissingPeersForUser_of_provisioned hprov
    rw [hsame] at hids
    apply List.length_eq_zero_iff.mp
    show (restoreMissingPeersOf cfg (listLiveDevices db u) db).1.length = 0
    omega

end Restore

/-! ## An enforcement that queues nothing -/

section Enforce

variable {cfg : Config} {db : Db} {u : UserId}

/-- The peer loop reports no node exactly when every peer is settled. -/
theorem transitionPeers_nil_iff (hwf : db.WF) (b : Bool) :
    (transitionPeers db (loadPeers db u) b).1 = [] ↔
      ∀ p ∈ db.peersOf u, db.PeerSettled b p := by
  show ((db.peers.filter (·.id ∈ loadPeers db u)).filter fun p =>
    (transitionOf db (loadPeers db u) b p).status ≠ p.status).map (·.nodeId) = [] ↔ _
  rw [List.map_eq_nil_iff, List.filter_eq_nil_iff]
  have hone : ∀ p ∈ db.peers, p.id ∈ loadPeers db u →
      ((transitionOf db (loadPeers db u) b p).status = p.status ↔ db.PeerSettled b p) := by
    intro p hp hid
    unfold Db.PeerSettled
    cases b with
    | true =>
        rw [transitionOf_block hid, if_pos rfl]
        exact eq_comm
    | false =>
        rw [if_neg Bool.false_ne_true]
        rcases transitionOf_unblock hp hid with ⟨hdead, hkept, hst⟩ | ⟨hset, hst⟩
        · rw [hst]
          refine ⟨fun heq => ?_, fun hor => ?_⟩
          · rw [← heq] at hdead
            cases hdead
          · rcases hor with hlive | htomb
            · rw [hdead] at hlive
              cases hlive
            · exact absurd htomb hkept
        · exact ⟨fun _ => hset, fun _ => hst⟩
  constructor
  · intro hall p hp
    obtain ⟨hp, hu⟩ := List.mem_filter.mp hp
    have hid := (mem_loadPeers hwf hp).mpr (of_decide_eq_true hu)
    have := hall p (List.mem_filter.mpr ⟨hp, decide_eq_true hid⟩)
    exact (hone p hp hid).mp (by simpa using this)
  · intro hall p hp
    obtain ⟨hp, hid⟩ := List.mem_filter.mp hp
    have hid := of_decide_eq_true hid
    have hu := (mem_loadPeers hwf hp).mp hid
    have := (hone p hp hid).mpr (hall p (List.mem_filter.mpr ⟨hp, decide_eq_true hu⟩))
    simpa using this

/-- A peer loop that reports no node changed nothing. -/
theorem transitionPeers_idle {loaded : List PeerId} {b : Bool}
    (h : (transitionPeers db loaded b).1 = []) :
    (transitionPeers db loaded b).2.peers = db.peers := by
  have hsame : ∀ p ∈ db.peers, transitionOf db loaded b p = p := by
    intro p hp
    by_cases hid : p.id ∈ loaded
    · have hfilter : (db.peers.filter (·.id ∈ loaded)).filter
          (fun p => (transitionOf db loaded b p).status ≠ p.status) = [] := List.map_eq_nil_iff.mp h
      have hst : (transitionOf db loaded b p).status = p.status := by
        simpa using List.filter_eq_nil_iff.mp hfilter p
          (List.mem_filter.mpr ⟨hp, decide_eq_true hid⟩)
      unfold transitionOf transitionPeer at hst ⊢
      rw [if_pos hid] at hst ⊢
      rw [show transitionStatus _ _ p.status = p.status from hst]
    · exact transitionOf_of_not_mem hid
  show db.peers.map (transitionOf db loaded b) = db.peers
  conv_rhs => rw [← List.map_id db.peers]
  exact List.map_congr_left hsame

/-- The peer loop neither adds a peer nor takes one away. -/
theorem provisioned_transition_iff {loaded : List PeerId} {b : Bool} :
    (transitionPeers db loaded b).2.Provisioned u ↔ db.Provisioned u := by
  refine ⟨fun hprov d hd hu huse n hn => ?_, provisioned_transition⟩
  obtain ⟨q, hq, hqn, hqd⟩ := hprov d hd hu huse n hn
  obtain ⟨p, hp, rfl⟩ := List.mem_map.mp hq
  have hsame : p.Same (transitionOf db loaded b p) := transitionPeer_same _ _ _ p
  exact ⟨p, hp, hsame.nodeId.symm.trans hqn, hsame.deviceId.symm.trans hqd⟩

theorem applyLocalLifecycleState_nil_iff (hwf : db.WF) {user : User} (h : Updates db user)
    (now : Time) :
    (applyLocalLifecycleState cfg db user none now).1 = [] ↔ LocallySettled db user now := by
  let desired := desiredStatus user (loadLocalTotalBytes db user.id) now
  let b : Bool := desired ≠ .active
  let saved := db.saveUser { user with lifecycleStatus := desired, isBlocked := b }
  have hsaved : saved.WF :=
    (Writes.single (P := OfOwner user.id)
      (.user { user with lifecycleStatus := desired, isBlocked := b }) rfl ⟨h.exists_old⟩).wf hwf
  let moved := (transitionPeers saved (loadPeers saved user.id) b).2
  -- the row written first changes no peer, device or node
  have hpeers : (transitionPeers saved (loadPeers saved user.id) b).1 = [] ↔
      ∀ p ∈ db.peersOf user.id, db.PeerSettled b p := transitionPeers_nil_iff hsaved b
  have hprov : moved.Provisioned user.id ↔ db.Provisioned user.id := provisioned_transition_iff
  show Prod.fst (if ((user.isBlocked || user.lifecycleStatus ≠ .active) && !b) = true then
      ((transitionPeers saved (loadPeers saved user.id) b).1 ++
        (restoreMissingPeersForUser cfg moved user.id).1, _)
    else ((transitionPeers saved (loadPeers saved user.id) b).1, moved)) = [] ↔
      (∀ p ∈ db.peersOf user.id, db.PeerSettled b p) ∧ (b = false → _ → _)
  split
  · next hback =>
      simp only [Bool.and_eq_true, Bool.not_eq_true'] at hback
      rw [List.append_eq_nil_iff, hpeers, restoreMissingPeersForUser_nil_iff, hprov]
      exact and_congr_right fun _ => ⟨fun hp _ _ => hp, fun hp => hp hback.2 hback.1⟩
  · next hback =>
      rw [hpeers]
      refine ⟨fun hp => ⟨hp, fun hb hwas => ?_⟩, fun hp => hp.1⟩
      exact absurd (by rw [hwas, hb]; rfl) hback

/-- The combined limit reports no node exactly when it is not reached or every
peer is going. -/
theorem enforceCombined_nodes_nil_iff (hwf : db.WF) {row : RemnawaveUser}
    (hrow : row ∈ db.profiles) :
    (enforceRemnawaveCombinedLimit db row).1.1 = [] ↔
      (remnawaveCombinedLimited row (loadLocalTotalBytes db row.userId) = true →
        ∀ p ∈ db.peersOf row.userId, p.status = .pendingDelete) := by
  obtain ⟨user, huser, hid⟩ := hwf.profileOwner row hrow
  have hget : db.user? row.userId = some user := hid ▸ hwf.userIds.get?_eq_some huser
  let saved := db.saveUser { user with isBlocked := true }
  have hsaved : saved.WF :=
    (Writes.single (P := OfOwner user.id) (.user { user with isBlocked := true }) rfl
      ⟨(updates_of_user? hget).exists_old⟩).wf hwf
  have hpeers : (transitionPeers saved (loadPeers saved user.id) true).1 = [] ↔
      ∀ p ∈ db.peersOf row.userId, p.status = .pendingDelete := by
    rw [← hid]
    exact transitionPeers_nil_iff hsaved true
  unfold enforceRemnawaveCombinedLimit
  cases remnawaveCombinedLimited row (loadLocalTotalBytes db row.userId) with
  | false => simp
  | true =>
      rw [hget]
      show (transitionPeers saved (loadPeers saved user.id) true).1 = [] ↔ _
      rw [hpeers]
      exact ⟨fun h _ => h, fun h => h rfl⟩

/-- A combined limit that reports no node leaves the peers. -/
theorem enforceCombined_idle {row : RemnawaveUser}
    (h : (enforceRemnawaveCombinedLimit db row).1.1 = []) :
    (enforceRemnawaveCombinedLimit db row).2.peers = db.peers := by
  unfold enforceRemnawaveCombinedLimit at h ⊢
  generalize remnawaveCombinedLimited row (loadLocalTotalBytes db row.userId) = limited at h ⊢
  cases limited with
  | false => rfl
  | true =>
      generalize db.user? row.userId = owner at h ⊢
      cases owner with
      | none => rfl
      | some user =>
          let saved := db.saveUser { user with isBlocked := true }
          have hmoved : (transitionPeers saved (loadPeers saved user.id) true).1 = [] := h
          exact transitionPeers_idle hmoved

theorem enforceRemnawaveCombinedLimit_nil_iff (hwf : db.WF) {row : RemnawaveUser}
    (hrow : row ∈ db.profiles) :
    (enforceRemnawaveCombinedLimit db row).1 = ([], []) ↔ CombinedSettled db row := by
  rw [Prod.ext_iff, enforceCombined_nodes_nil_iff hwf hrow, enforceCombined_uuids]
  unfold CombinedSettled
  cases remnawaveCombinedLimited row (loadLocalTotalBytes db row.userId) with
  | false => simp
  | true => by_cases hstatus : row.status = "DISABLED" <;> simp [hstatus]

/-- The imported lifecycle reports no node exactly when the flag stays, or no
peer of the account has to follow it. -/
theorem applyRemnawaveLifecycle_nil_iff (hwf : db.WF) {user : User}
    (hu : db.user? user.id = some user) (item : RemnawaveUserIn) (now : Time) {b : Bool}
    (hb : remnawaveBlocked item.status item.expireAt now = b) :
    (applyRemnawaveLifecycle cfg db user (loadPeers db user.id) item now).1 = [] ↔
      user.isBlocked = b ∨
        ((∀ p ∈ db.peersOf user.id, db.PeerSettled b p) ∧
          (b = false → db.Provisioned user.id)) := by
  let saved := db.saveUser { user with isBlocked := b }
  have hsaved : saved.WF :=
    (Writes.single (P := OfOwner user.id) (.user { user with isBlocked := b }) rfl
      ⟨(updates_of_user? hu).exists_old⟩).wf hwf
  let moved := (transitionPeers saved (loadPeers saved user.id) b).2
  have hpeers : (transitionPeers saved (loadPeers saved user.id) b).1 = [] ↔
      ∀ p ∈ db.peersOf user.id, db.PeerSettled b p := transitionPeers_nil_iff hsaved b
  have hprov : moved.Provisioned user.id ↔ db.Provisioned user.id := provisioned_transition_iff
  unfold applyRemnawaveLifecycle
  dsimp only
  rw [hb]
  by_cases hsame : user.isBlocked = b
  · rw [if_pos hsame]
    exact iff_of_true rfl (.inl hsame)
  · rw [if_neg hsame, or_iff_right hsame]
    cases b with
    | true =>
        show (transitionPeers saved (loadPeers saved user.id) true).1 = [] ↔ _
        rw [hpeers]
        exact ⟨fun h => ⟨h, fun hf => by cases hf⟩, fun h => h.1⟩
    | false =>
        show (transitionPeers saved (loadPeers saved user.id) false).1 ++
          (restoreMissingPeersForUser cfg moved user.id).1 = [] ↔ _
        rw [List.append_eq_nil_iff, hpeers, restoreMissingPeersForUser_nil_iff, hprov]
        exact and_congr_right fun _ => ⟨fun h _ => h, fun h => h rfl⟩

/-- An imported lifecycle that reports no node leaves the peers. -/
theorem applyRemnawaveLifecycle_idle {user : User} {loaded : List PeerId} {item : RemnawaveUserIn}
    {now : Time} (h : (applyRemnawaveLifecycle cfg db user loaded item now).1 = []) :
    (applyRemnawaveLifecycle cfg db user loaded item now).2.peers = db.peers := by
  unfold applyRemnawaveLifecycle at h ⊢
  generalize remnawaveBlocked item.status item.expireAt now = b at h ⊢
  dsimp only at h ⊢
  by_cases hsame : user.isBlocked = b
  · rw [if_pos hsame]
  · rw [if_neg hsame] at h ⊢
    let saved := db.saveUser { user with isBlocked := b }
    cases b with
    | true =>
        have hmoved : (transitionPeers saved loaded true).1 = [] := h
        exact transitionPeers_idle hmoved
    | false =>
        obtain ⟨hmoved, hcreated⟩ := List.append_eq_nil_iff.mp h
        have hpeers : (transitionPeers saved loaded false).2.peers = db.peers :=
          transitionPeers_idle hmoved
        rw [← hpeers]
        exact congrArg Db.peers (restoreMissingPeersOf_nil _ _ hcreated)

/-! ## The loop over the entries -/

/-- An entry's tables depend on the tables alone, not on what the loop has
collected. -/
theorem applyPeerEntry_db (cfg : Config) (loaded : String → Option PeerId) (st : PeerResults)
    (data : PeerSyncResult) (now : Time) :
    (applyPeerEntry cfg loaded st data now).db =
      (applyPeerEntry cfg loaded { db := st.db } data now).db := by
  unfold applyPeerEntry
  dsimp only
  cases (loaded data.publicKey).bind st.db.peer? with
  | none => rfl
  | some peer =>
      dsimp only
      split <;> rfl

/-- The loop has collected nothing to queue. -/
structure PeerResults.Idle (st : PeerResults) : Prop where
  lifecycle : st.localLifecycleNodeIds = []
  limited : st.limitedNodeIds = []
  disable : st.remoteDisableUuids = []

theorem enforceLimits_idle_iff {st : PeerResults} (hwf : st.db.WF) (u : UserId) (now : Time) :
    (enforceLimits cfg st u now).Idle ↔ st.Idle ∧ LimitsSettled st.db u now := by
  let local_ := enforceLocalLifecycleForUser cfg st.db u now
  let combined := enforceRemnawaveCombinedLimitForUser local_.2 u
  -- each of the three lists grows by what its enforcement returns
  have hparts : (enforceLimits cfg st u now).Idle ↔
      st.Idle ∧ local_.1 = [] ∧ combined.1 = ([], []) := by
    constructor
    · rintro ⟨hlife, hlim, hdis⟩
      obtain ⟨hlife, hlocal⟩ := List.append_eq_nil_iff.mp hlife
      obtain ⟨hlim, hids⟩ := List.append_eq_nil_iff.mp hlim
      obtain ⟨hdis, huuids⟩ := List.append_eq_nil_iff.mp hdis
      exact ⟨⟨hlife, hlim, hdis⟩, hlocal, Prod.ext hids huuids⟩
    · rintro ⟨⟨hlife, hlim, hdis⟩, hlocal, hcombined⟩
      obtain ⟨hids, huuids⟩ := Prod.mk.inj hcombined
      exact ⟨List.append_eq_nil_iff.mpr ⟨hlife, hlocal⟩,
        List.append_eq_nil_iff.mpr ⟨hlim, hids⟩, List.append_eq_nil_iff.mpr ⟨hdis, huuids⟩⟩
  rw [hparts]
  refine and_congr_right fun _ => ?_
  unfold LimitsSettled
  cases hrow : st.db.profileOf? u with
  | some row =>
      have hlocal : local_ = ([], st.db) := enforceLocalLifecycle_of_profile hrow now
      have hcombined : combined = enforceRemnawaveCombinedLimit st.db row := by
        show enforceRemnawaveCombinedLimitForUser local_.2 u = _
        rw [hlocal, enforceRemnawaveCombinedLimitForUser, hrow]
      rw [hlocal, hcombined, enforceRemnawaveCombinedLimit_nil_iff hwf (Rows.mem_of_get? hrow)]
      exact ⟨fun h => h.2, fun h => ⟨rfl, h⟩⟩
  | none =>
      -- the lifecycle of an account gives it no profile
      have hframe : OwnerFrame u st.db local_.2 :=
        (enforceLocalLifecycleForUser_writes hwf u now).ownerFrame
      have hcombined : combined.1 = ([], []) := by
        show (enforceRemnawaveCombinedLimitForUser local_.2 u).1 = _
        have hnone : local_.2.profileOf? u = none := by
          unfold Db.profileOf?
          rw [hframe.profiles]
          exact hrow
        rw [enforceRemnawaveCombinedLimitForUser, hnone]
      have hlocal : local_.1 = [] ↔ ∀ user ∈ st.db.user? u, LocallySettled st.db user now := by
        show (enforceLocalLifecycleForUser cfg st.db u now).1 = [] ↔ _
        unfold enforceLocalLifecycleForUser
        cases hu : st.db.user? u with
        | none => simp
        | some user =>
            dsimp only
            rw [hrow, if_neg (by simp),
              applyLocalLifecycleState_nil_iff hwf (updates_of_user? hu) now]
            simp
      rw [hlocal]
      exact ⟨fun h => h.1, fun h => ⟨h, hcombined⟩⟩

/-- A sample is returned exactly when the entry moves a counter. -/
theorem applyPeerResult_sample (db : Db) (peer : Peer) (data : PeerSyncResult) (now : Time) :
    (applyPeerResult db peer data now).1.isSome = movesCounter peer data := by
  unfold applyPeerResult movesCounter PeerSyncResult.reading?
  cases data.rxBytes with
  | none => rfl
  | some rx =>
      cases data.txBytes with
      | none => rfl
      | some tx =>
          show (recordReading _ peer rx tx now).1.isSome = _
          unfold recordReading
          show Option.isSome (Prod.fst (if counterDelta peer.rawRx rx = 0 ∧
            counterDelta peer.rawTx tx = 0 then _ else _)) = _
          split
          · next h => simp [h.1, h.2]
          · next h =>
              simp only [not_and_or] at h
              simpa using h.imp id id

/-- **One entry queues nothing** exactly when it is settled. -/
theorem applyPeerEntry_idle_iff {loaded : String → Option PeerId} {st : PeerResults}
    (hwf : st.db.WF) (data : PeerSyncResult) (now : Time) :
    (applyPeerEntry cfg loaded st data now).Idle ↔
      st.Idle ∧ EntrySettled loaded st.db data now := by
  unfold applyPeerEntry EntrySettled
  cases hp : (loaded data.publicKey).bind st.db.peer? with
  | none => simp
  | some peer =>
      have hmem := (loaded_peer hp).1
      let st' : PeerResults := { st with
        db := (applyPeerResult st.db peer data now).2
        acknowledgedOwnerIds := st.acknowledgedOwnerIds ++ [peer.userId] }
      have hwf' : st'.db.WF := hwf.reading hmem data now
      have hst : st'.Idle ↔ st.Idle :=
        ⟨fun ⟨h1, h2, h3⟩ => ⟨h1, h2, h3⟩, fun ⟨h1, h2, h3⟩ => ⟨h1, h2, h3⟩⟩
      show PeerResults.Idle (if (applyPeerResult st.db peer data now).1.isSome then
        enforceLimits cfg st' peer.userId now else st') ↔ _
      rw [applyPeerResult_sample]
      split
      · next hmoves =>
          rw [enforceLimits_idle_iff hwf', hst]
          simp [hmoves, st']
      · next hstill =>
          rw [hst]
          simp [hstill]

/-- **The loop queues nothing** exactly when its entries are settled. -/
theorem entries_idle_iff {loaded : String → Option PeerId} {now : Time}
    (entries : List PeerSyncResult) : ∀ {st : PeerResults}, st.db.WF →
      ((applyPeerEntries cfg loaded now entries st).Idle ↔
        st.Idle ∧ EntriesSettled cfg loaded now entries st.db) := by
  induction entries with
  | nil =>
      intro st _
      exact ⟨fun h => ⟨h, trivial⟩, fun h => h.1⟩
  | cons data rest ih =>
      intro st hwf
      have hone : Writes (OfEntries [data] now) st.db (applyPeerEntry cfg loaded st data now).db :=
        applyPeerEntry_writes hwf List.mem_cons_self now
      show (applyPeerEntries cfg loaded now rest (applyPeerEntry cfg loaded st data now)).Idle ↔
        st.Idle ∧ EntrySettled loaded st.db data now ∧ _
      rw [ih (hone.wf hwf), applyPeerEntry_idle_iff hwf, and_assoc, applyPeerEntry_db]

theorem queued_eq_nil {results : PeerResults} : results.queued = [] ↔ results.Idle := by
  unfold PeerResults.queued enqueueSyncNodes enqueueRemnawaveDisableUsers
  simp only [List.append_eq_nil_iff, List.map_eq_nil_iff, sortedSet_eq_nil, sortedTexts_eq_nil]
  exact ⟨fun ⟨⟨h1, h2⟩, h3⟩ => ⟨h1, h2, h3⟩, fun ⟨h1, h2, h3⟩ => ⟨⟨h1, h2⟩, h3⟩⟩

/-! ## An entry that queues something -/

/-- What the loop leaves behind: the ledger only grows, and once something is
queued it has grown and an owner is acknowledged. -/
structure Recorded (st st' : PeerResults) : Prop where
  ledger : st.db.traffic.deltas.length ≤ st'.db.traffic.deltas.length
  owners : st.acknowledgedOwnerIds.length ≤ st'.acknowledgedOwnerIds.length
  busy : st.Idle → ¬st'.Idle →
    st.db.traffic.deltas.length < st'.db.traffic.deltas.length ∧
      st.acknowledgedOwnerIds.length < st'.acknowledgedOwnerIds.length

theorem Recorded.refl (st : PeerResults) : Recorded st st :=
  ⟨le_refl _, le_refl _, fun h h' => absurd h h'⟩

theorem Recorded.trans {st st' st'' : PeerResults} (h : Recorded st st') (h' : Recorded st' st'') :
    Recorded st st'' := by
  refine ⟨h.ledger.trans h'.ledger, h.owners.trans h'.owners, fun hidle hbusy => ?_⟩
  by_cases hmid : st'.Idle
  · obtain ⟨hledger, howners⟩ := h'.busy hmid hbusy
    exact ⟨Nat.lt_of_le_of_lt h.ledger hledger, Nat.lt_of_le_of_lt h.owners howners⟩
  · obtain ⟨hledger, howners⟩ := h.busy hidle hmid
    exact ⟨Nat.lt_of_lt_of_le hledger h'.ledger, Nat.lt_of_lt_of_le howners h'.owners⟩

/-- The lifecycle of an account writes no traffic row. -/
theorem Writes.ownerTraffic {db' : Db} (h : Writes (OfOwner u) db db') :
    db'.traffic = db.traffic := by
  refine h.relates (R := fun a b : Db => b.traffic = a.traffic) (fun _ => rfl)
    (fun _ _ _ h h' => h'.trans h) fun db w hof _ => ?_
  cases w <;> first | rfl | exact hof.elim

theorem applyPeerEntry_recorded {loaded : String → Option PeerId} {st : PeerResults}
    (hwf : st.db.WF) (data : PeerSyncResult) (now : Time) :
    Recorded st (applyPeerEntry cfg loaded st data now) := by
  unfold applyPeerEntry
  cases hp : (loaded data.publicKey).bind st.db.peer? with
  | none => exact .refl st
  | some peer =>
      have hmem := (loaded_peer hp).1
      let st' : PeerResults := { st with
        db := (applyPeerResult st.db peer data now).2
        acknowledgedOwnerIds := st.acknowledgedOwnerIds ++ [peer.userId] }
      have hwf' : st'.db.WF := hwf.reading hmem data now
      have hledger : st'.db.traffic.deltas =
          st.db.traffic.deltas ++ ledgerRows peer data now := by
        show (applyPeerResult st.db peer data now).2.traffic.deltas = _
        rw [applyPeerResult_db]
        exact trafficAfterResult_deltas st.db peer data now
      have howners : st'.acknowledgedOwnerIds.length = st.acknowledgedOwnerIds.length + 1 :=
        List.length_append
      show Recorded st (if (applyPeerResult st.db peer data now).1.isSome then
        enforceLimits cfg st' peer.userId now else st')
      rw [applyPeerResult_sample]
      split
      · next hmoves =>
          have htraffic : (enforceLimits cfg st' peer.userId now).db.traffic = st'.db.traffic :=
            (enforceLimits_writes hwf' peer.userId now).ownerTraffic
          -- a counter moved, so the ledger has a new row
          have hrow : 0 < (ledgerRows peer data now).length := by
            unfold movesCounter at hmoves
            unfold ledgerRows
            cases hr : data.reading? with
            | none => simp [hr] at hmoves
            | some r =>
                rw [hr] at hmoves
                dsimp only
                rw [if_neg]
                · exact Nat.one_pos
                · rintro ⟨hrx, htx⟩
                  simp [hrx, htx] at hmoves
          have hlt : st.db.traffic.deltas.length <
              (enforceLimits cfg st' peer.userId now).db.traffic.deltas.length := by
            rw [htraffic, hledger, List.length_append]
            omega
          have hlt' : st.acknowledgedOwnerIds.length <
              (enforceLimits cfg st' peer.userId now).acknowledgedOwnerIds.length := by
            show _ < st'.acknowledgedOwnerIds.length
            omega
          exact ⟨hlt.le, hlt'.le, fun _ _ => ⟨hlt, hlt'⟩⟩
      · refine ⟨?_, ?_, fun ⟨h1, h2, h3⟩ hbusy => absurd ⟨h1, h2, h3⟩ hbusy⟩
        · rw [hledger, List.length_append]
          omega
        · omega

theorem entries_recorded {loaded : String → Option PeerId} {now : Time}
    (entries : List PeerSyncResult) : ∀ {st : PeerResults}, st.db.WF →
      Recorded st (applyPeerEntries cfg loaded now entries st) := by
  intro st hwf
  refine applyPeerEntries_keeps (I := Recorded st) entries ?_ hwf (.refl st)
  intro data _ st' hwf' h
  exact h.trans (applyPeerEntry_recorded hwf' data now)

/-- Without a loaded peer no entry does anything. -/
theorem entries_of_none {loaded : String → Option PeerId} {now : Time}
    (hnone : ∀ key, loaded key = none) (entries : List PeerSyncResult) :
    ∀ st : PeerResults, applyPeerEntries cfg loaded now entries st = st := by
  induction entries with
  | nil =>
      intro st
      rfl
  | cons data rest ih =>
      intro st
      show applyPeerEntries cfg loaded now rest (applyPeerEntry cfg loaded st data now) = st
      have hone : applyPeerEntry cfg loaded st data now = st := by
        simp only [applyPeerEntry, hnone, Option.bind_none]
      rw [hone, ih]

end Enforce

end VpnPanel.Backend
