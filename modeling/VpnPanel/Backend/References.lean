import VpnPanel.Backend.EndpointSessions
import VpnPanel.Backend.Retention

/-!
# References between the tables

Every column that refers to another table names a stored row, and an id is
handed out once. So what was removed is never named again, by any table.
-/

namespace VpnPanel.Backend

open VpnPanel.Lib

/-- The tables that others refer to. -/
inductive Table
  | users | nodes | devices | peers
  deriving DecidableEq, Repr

namespace Db

/-- The primary keys of a table. -/
def ids (db : Db) : Table → List Nat
  | .users => db.users.map (·.id)
  | .nodes => db.nodes.map (·.id)
  | .devices => db.devices.map (·.id)
  | .peers => db.peers.map (·.id)

/-- The values of all columns that refer to a table. -/
def refs (db : Db) : Table → List Nat
  | .users => db.profiles.map (·.userId) ++ db.devices.map (·.userId) ++
      db.peers.map (·.userId) ++ db.traffic.deltas.map (·.userId) ++
      db.traffic.sessions.map (·.userId) ++ db.traffic.userDaily.map (·.identity.1) ++
      db.traffic.userNodeDaily.map (·.identity.1) ++ db.traffic.userLifetime.map (·.identity) ++
      db.traffic.userNodeLifetime.map (·.identity.1)
  | .nodes => db.peers.map (·.nodeId) ++ db.traffic.deltas.map (·.nodeId) ++
      db.traffic.sessions.map (·.nodeId) ++ db.traffic.userNodeDaily.map (·.identity.2.1) ++
      db.traffic.userNodeLifetime.map (·.identity.2)
  | .devices => db.peers.map (·.deviceId)
  | .peers => db.traffic.samples.map (·.peerId) ++ db.traffic.deltas.map (·.peerId) ++
      db.traffic.sessions.map (·.peerId)

/-- A stored peer with this id, account and node. -/
def HasPeer (db : Db) (id : PeerId) (u : UserId) (n : NodeId) : Prop :=
  ∃ p ∈ db.peers, p.id = id ∧ p.userId = u ∧ p.nodeId = n

/-- Every traffic row names stored rows, and of a peer its own account and node. -/
structure Referenced (db : Db) : Prop where
  samples : ∀ x ∈ db.traffic.samples, x.peerId ∈ db.ids .peers
  deltas : ∀ x ∈ db.traffic.deltas, db.HasPeer x.peerId x.userId x.nodeId
  sessions : ∀ x ∈ db.traffic.sessions, db.HasPeer x.peerId x.userId x.nodeId
  userDaily : ∀ k, HasRow db.traffic.userDaily k → k.1 ∈ db.ids .users
  userNodeDaily : ∀ k, HasRow db.traffic.userNodeDaily k →
    k.1 ∈ db.ids .users ∧ k.2.1 ∈ db.ids .nodes
  userLifetime : ∀ k, HasRow db.traffic.userLifetime k → k ∈ db.ids .users
  userNodeLifetime : ∀ k, HasRow db.traffic.userNodeLifetime k →
    k.1 ∈ db.ids .users ∧ k.2 ∈ db.ids .nodes

end Db

/-! ## Ids are handed out once -/

/-- The stored ids after some writes are stored before them or new. -/
structure Renews (db db' : Db) : Prop where
  nextId : db.nextId ≤ db'.nextId
  ids : ∀ table, ∀ id ∈ db'.ids table, id ∈ db.ids table ∨ db.nextId ≤ id

namespace Renews

variable {db db' db'' : Db}

theorem refl (db : Db) : Renews db db := ⟨le_rfl, fun _ _ => .inl⟩

theorem trans (h : Renews db db') (h' : Renews db' db'') : Renews db db'' where
  nextId := h.nextId.trans h'.nextId
  ids table id hid := by
    rcases h'.ids table id hid with hid | hle
    · exact h.ids table id hid
    · exact .inr (h.nextId.trans hle)

/-- No table gains an id. -/
theorem of_subset (hnext : db.nextId ≤ db'.nextId)
    (hids : ∀ table, db'.ids table ⊆ db.ids table) : Renews db db' :=
  ⟨hnext, fun table _ hid => .inl (hids table hid)⟩

/-- One table gains one row, under the next id. -/
theorem of_new (new : Table) (hnext : db'.nextId = db.nextId + 1)
    (hnew : db'.ids new = db.ids new ++ [db.nextId])
    (hsame : ∀ table, table ≠ new → db'.ids table = db.ids table) : Renews db db' where
  nextId := by
    rw [hnext]
    exact Nat.le_succ _
  ids table id hid := by
    by_cases htable : table = new
    · subst htable
      rw [hnew] at hid
      rcases List.mem_append.mp hid with hid | hid
      · exact .inl hid
      · exact .inr (List.mem_singleton.mp hid).ge
    · rw [hsame table htable] at hid
      exact .inl hid

end Renews

theorem ids_mapPeers {db : Db} {f : Peer → Peer} (hid : ∀ p ∈ db.peers, (f p).id = p.id)
    (table : Table) : (db.mapPeers f).ids table = db.ids table := by
  cases table with
  | peers => exact Rows.map_key_map hid
  | _ => rfl

theorem ids_saveUser (db : Db) (row : User) (table : Table) :
    (db.saveUser row).ids table = db.ids table := by
  cases table with
  | users => exact Rows.map_key_save
  | _ => rfl

theorem ids_saveNode (db : Db) (row : Node) (table : Table) :
    (db.saveNode row).ids table = db.ids table := by
  cases table with
  | nodes => exact Rows.map_key_save
  | _ => rfl

theorem ids_saveDevice (db : Db) (row : Device) (table : Table) :
    (db.saveDevice row).ids table = db.ids table := by
  cases table with
  | devices => exact Rows.map_key_save
  | _ => rfl

theorem ids_reading (db : Db) (row : Peer) (data : PeerSyncResult) (now : Time) (table : Table) :
    (applyPeerResult db row data now).2.ids table = db.ids table := by
  rw [applyPeerResult_db]
  cases table with
  | peers => exact Rows.map_key_save
  | _ => rfl

theorem map_filter_subset {α β : Type} (f : α → β) (p : α → Bool) (rows : List α) :
    (rows.filter p).map f ⊆ rows.map f :=
  List.map_subset f List.filter_sublist.subset

/-- The tables keep their ids, lose some, or gain the next one. -/
theorem Write.renews {db : Db} {w : Write} (hok : w.Ok db) : Renews db (w.apply db) := by
  have hrefl : Renews db db := .refl db
  cases w with
  | user row => exact ⟨le_rfl, fun table id hid => .inl (by rwa [← ids_saveUser db row])⟩
  | newUser row =>
      refine .of_new .users rfl ?_ fun table h => by cases table <;> trivial
      exact (List.map_append ..).trans (congrArg _ (congrArg (· :: []) hok.id))
  | profile row => exact .of_subset le_rfl fun table => by cases table <;> exact List.Subset.refl _
  | newImport row imported =>
      refine .of_new .users rfl ?_ fun table h => by cases table <;> trivial
      exact (List.map_append ..).trans (congrArg _ (congrArg (· :: []) hok.1.id))
  | node row => exact ⟨le_rfl, fun table id hid => .inl (by rwa [← ids_saveNode db row])⟩
  | newNode row =>
      refine .of_new .nodes rfl ?_ fun table h => by cases table <;> trivial
      exact (List.map_append ..).trans (congrArg _ (congrArg (· :: []) hok))
  | newDevice row =>
      refine .of_new .devices rfl ?_ fun table h => by cases table <;> trivial
      exact (List.map_append ..).trans (congrArg _ (congrArg (· :: []) hok.id))
  | tombstone row =>
      refine ⟨le_rfl, fun table id hid => .inl ?_⟩
      rw [← ids_saveDevice db row, ← ids_mapPeers (f := deletedDevicePeer row.id)]
      · exact hid
      · intro p _
        unfold deletedDevicePeer
        split <;> rfl
  | release row at_ =>
      exact ⟨le_rfl, fun table id hid => .inl (by rwa [← ids_saveDevice db (row.released at_)])⟩
  | peers f =>
      refine ⟨le_rfl, fun table id hid => .inl ?_⟩
      rwa [← ids_mapPeers fun p hp => (hok.same p hp).id]
  | newPeer row =>
      refine .of_new .peers rfl ?_ fun table h => by cases table <;> trivial
      exact (List.map_append ..).trans (congrArg _ (congrArg (· :: []) hok.id))
  | reading row data now =>
      refine ⟨?_, fun table id hid => .inl (by rwa [← ids_reading db row data now])⟩
      show db.nextId ≤ (applyPeerResult db row data now).2.nextId
      rw [applyPeerResult_db]
  | resetTraffic row at_ =>
      refine ⟨le_rfl, fun table id hid => .inl ?_⟩
      rw [← ids_saveUser db { row with trafficResetAt := some at_ }]
      cases table <;> exact hid
  | deleteUser id =>
      refine .of_subset le_rfl fun table => ?_
      cases table <;> first | exact map_filter_subset _ _ _ | exact List.Subset.refl _
  | deleteNode id =>
      refine .of_subset le_rfl fun table => ?_
      cases table <;> first | exact map_filter_subset _ _ _ | exact List.Subset.refl _

/-! ## References -/

theorem HasRow.mono {κ : Type} {rows rows' : List (TrafficAggregate κ)} {k : κ}
    (h : HasRow rows k) (hsub : rows ⊆ rows') : HasRow rows' k := by
  obtain ⟨row, hrow, hk⟩ := h
  exact ⟨row, hsub hrow, hk⟩

theorem hasRow_filter {κ : Type} {rows : List (TrafficAggregate κ)} {q : κ → Bool} {k : κ}
    (h : HasRow (rows.filter fun row => q row.identity) k) : HasRow rows k ∧ q k = true := by
  obtain ⟨row, hmem, rfl⟩ := h
  obtain ⟨hmem, hq⟩ := List.mem_filter.mp hmem
  exact ⟨⟨row, hmem, rfl⟩, hq⟩

namespace Db.Referenced

variable {db db' : Db}

theorem empty : Db.Referenced {} := ⟨nofun, nofun, nofun, nofun, nofun, nofun, nofun⟩

/-- A write that leaves the traffic alone and removes no account, node or peer. -/
theorem frame (h : db.Referenced) (htraffic : db'.traffic = db.traffic)
    (husers : db.ids .users ⊆ db'.ids .users) (hnodes : db.ids .nodes ⊆ db'.ids .nodes)
    (hpeers : ∀ p ∈ db.peers, ∃ p' ∈ db'.peers, p.Same p') : db'.Referenced := by
  have hpeer : ∀ {id u n}, db.HasPeer id u n → db'.HasPeer id u n := by
    rintro id u n ⟨p, hp, hid, huser, hnode⟩
    obtain ⟨p', hp', hsame⟩ := hpeers p hp
    exact ⟨p', hp', hsame.id.trans hid, hsame.userId.trans huser, hsame.nodeId.trans hnode⟩
  constructor
  · intro x hx
    rw [htraffic] at hx
    obtain ⟨p, hp, hid⟩ := List.mem_map.mp (h.samples x hx)
    obtain ⟨p', hp', hsame⟩ := hpeers p hp
    exact List.mem_map.mpr ⟨p', hp', hsame.id.trans hid⟩
  · rw [htraffic]
    exact fun x hx => hpeer (h.deltas x hx)
  · rw [htraffic]
    exact fun x hx => hpeer (h.sessions x hx)
  · rw [htraffic]
    exact fun k hk => husers (h.userDaily k hk)
  · rw [htraffic]
    exact fun k hk => ⟨husers (h.userNodeDaily k hk).1, hnodes (h.userNodeDaily k hk).2⟩
  · rw [htraffic]
    exact fun k hk => husers (h.userLifetime k hk)
  · rw [htraffic]
    exact fun k hk => ⟨husers (h.userNodeLifetime k hk).1, hnodes (h.userNodeLifetime k hk).2⟩

/-- A recorded reading of a stored peer. -/
theorem record (h : db.Referenced) {delta : TrafficDelta}
    (hpeer : db.HasPeer delta.peerId delta.userId delta.nodeId)
    (huser : delta.userId ∈ db.ids .users) (hnode : delta.nodeId ∈ db.ids .nodes) :
    Db.Referenced { db with traffic := db.traffic.record delta } := by
  constructor
  · intro x hx
    rcases List.mem_append.mp hx with hx | hx
    · exact h.samples x hx
    · rw [List.mem_singleton.mp hx]
      obtain ⟨p, hp, hid, -⟩ := hpeer
      exact List.mem_map.mpr ⟨p, hp, hid⟩
  · intro x hx
    rcases List.mem_append.mp hx with hx | hx
    · exact h.deltas x hx
    · rw [List.mem_singleton.mp hx]
      exact hpeer
  · exact h.sessions
  · intro k hk
    rcases hasRow_increase.mp hk with hk | rfl
    · exact h.userDaily k hk
    · exact huser
  · intro k hk
    rcases hasRow_increase.mp hk with hk | rfl
    · exact h.userNodeDaily k hk
    · exact ⟨huser, hnode⟩
  · intro k hk
    rcases hasRow_increase.mp hk with hk | rfl
    · exact h.userLifetime k hk
    · exact huser
  · intro k hk
    rcases hasRow_increase.mp hk with hk | rfl
    · exact h.userNodeLifetime k hk
    · exact ⟨huser, hnode⟩

/-- The sessions after a result are old ones or of its peer. -/
theorem sessions_result (h : db.Referenced) {row : Peer} (hrow : row ∈ db.peers)
    (data : PeerSyncResult) (now : Time) :
    ∀ x ∈ (trafficAfterResult db row data now).sessions, db.HasPeer x.peerId x.userId x.nodeId := by
  intro x hx
  rw [(trafficAfterResult_sessions db row data now).1] at hx
  generalize htraffic : applyPeerEndpointSession db.traffic row data now = traffic at hx
  have hstep := applyPeerEndpointSession_step db.traffic row data now
  rw [htraffic] at hstep
  cases hstep with
  | unseen _ => exact h.sessions x hx
  | kept _ _ _ => exact h.sessions x hx
  | opened _ _ _ =>
      rcases List.mem_append.mp hx with hx | hx
      · exact h.sessions x hx
      · rw [List.mem_singleton.mp hx]
        exact ⟨row, hrow, rfl, rfl, rfl⟩
  | extended session hlast _ =>
      rcases Rows.mem_save.mp hx with ⟨rfl, -⟩ | ⟨hx, -⟩
      · rw [latestSession_eq] at hlast
        exact h.sessions session (List.mem_of_mem_filter (latest_mem hlast))
      · exact h.sessions x hx

theorem reading (hwf : db.WF) (h : db.Referenced) {row : Peer} (hrow : row ∈ db.peers)
    (data : PeerSyncResult) (now : Time) : (applyPeerResult db row data now).2.Referenced := by
  obtain ⟨d, hd, -, howner⟩ := hwf.peerDevice row hrow
  have huser : row.userId ∈ db.ids .users := List.mem_map.mpr (howner ▸ hwf.deviceOwner d hd)
  have hnode : row.nodeId ∈ db.ids .nodes := List.mem_map.mpr (hwf.peerNode row hrow)
  have hsessions := h.sessions_result hrow data now
  have hrecorded : Db.Referenced { db with traffic := trafficAfterResult db row data now } := by
    obtain ⟨sessions, nextSessionId, hcases⟩ := trafficAfterResult_cases db row data now
    rcases hcases with heq | ⟨delta, hpeer, hduser, hdnode, -, heq⟩
    · rw [heq] at hsessions ⊢
      exact { h with sessions := hsessions }
    · rw [heq] at hsessions ⊢
      have hseen : Db.Referenced
          { db with traffic := { db.traffic with sessions, nextSessionId } } :=
        { h with sessions := hsessions }
      exact hseen.record ⟨row, hrow, hpeer.symm, hduser.symm, hdnode.symm⟩ (hduser ▸ huser)
        (hdnode ▸ hnode)
  rw [applyPeerResult_db]
  refine hrecorded.frame rfl (List.Subset.refl _) (List.Subset.refl _) fun p hp => ?_
  by_cases hid : p.id = row.id
  · obtain rfl := hwf.peer_eq hp hrow hid
    exact ⟨_, Rows.mem_save.mpr (.inl ⟨rfl, p, hp, (peerAfterResult_id db p data).symm⟩),
      peerAfterResult_same db p data⟩
  · exact ⟨p, Rows.mem_save.mpr (.inr ⟨hp, by rwa [peerAfterResult_id]⟩), .refl p⟩

/-- Accounts or nodes are removed with their peers and the traffic of theirs. -/
theorem remove (h : db.Referenced) {gone : Peer → Bool} {user : UserId → Bool}
    {node : NodeId → Bool} (hgone : ∀ p, gone p = (user p.userId || node p.nodeId))
    (husers : ∀ u ∈ db.ids .users, user u = false → u ∈ db'.ids .users)
    (hnodes : ∀ n ∈ db.ids .nodes, node n = false → n ∈ db'.ids .nodes)
    (hpeers : db'.peers = db.peers.filter (! gone ·))
    (htraffic : db'.traffic = Db.dropTraffic db.traffic
      (fun id => (db.peers.filter gone).any (·.id = id)) user node) : db'.Referenced := by
  have hpeer : ∀ {id u n}, user u = false → node n = false → db.HasPeer id u n →
      db'.HasPeer id u n := by
    rintro id u n hu hn ⟨p, hp, rfl, rfl, rfl⟩
    refine ⟨p, ?_, rfl, rfl, rfl⟩
    rw [hpeers]
    exact List.mem_filter.mpr ⟨hp, by rw [hgone, hu, hn]; rfl⟩
  -- a row is kept when neither its peer nor its account nor its node goes
  have hkept : ∀ {id u n}, (!((db.peers.filter gone).any (·.id = id) || user u || node n)) = true →
      user u = false ∧ node n = false := by
    intro id u n hk
    rw [Bool.not_eq_true', Bool.or_eq_false_iff, Bool.or_eq_false_iff] at hk
    exact ⟨hk.1.2, hk.2⟩
  constructor
  · intro x hx
    rw [htraffic] at hx
    obtain ⟨hx, hstays⟩ := List.mem_filter.mp hx
    obtain ⟨p, hp, hid⟩ := List.mem_map.mp (h.samples x hx)
    refine List.mem_map.mpr ⟨p, ?_, hid⟩
    rw [hpeers]
    refine List.mem_filter.mpr ⟨hp, ?_⟩
    rw [Bool.not_eq_true'] at hstays ⊢
    rw [List.any_eq_false] at hstays
    by_contra hg
    exact hstays p (List.mem_filter.mpr ⟨hp, by simpa using hg⟩) (decide_eq_true hid)
  · intro x hx
    rw [htraffic] at hx
    obtain ⟨hx, hstays⟩ := List.mem_filter.mp hx
    obtain ⟨hu, hn⟩ := hkept hstays
    exact hpeer hu hn (h.deltas x hx)
  · intro x hx
    rw [htraffic] at hx
    obtain ⟨hx, hstays⟩ := List.mem_filter.mp hx
    obtain ⟨hu, hn⟩ := hkept hstays
    exact hpeer hu hn (h.sessions x hx)
  · intro k hk
    rw [htraffic] at hk
    obtain ⟨hk, hu⟩ := hasRow_filter (q := fun k : UserId × Day => !user k.1) hk
    exact husers _ (h.userDaily k hk) (by simpa using hu)
  · intro k hk
    rw [htraffic] at hk
    obtain ⟨hk, hun⟩ := hasRow_filter
      (q := fun k : UserId × NodeId × Day => !(user k.1 || node k.2.1)) hk
    rw [Bool.not_eq_true', Bool.or_eq_false_iff] at hun
    obtain ⟨huser, hnode⟩ := h.userNodeDaily k hk
    exact ⟨husers _ huser hun.1, hnodes _ hnode hun.2⟩
  · intro k hk
    rw [htraffic] at hk
    obtain ⟨hk, hu⟩ := hasRow_filter (q := fun k : UserId => !user k) hk
    exact husers _ (h.userLifetime k hk) (by simpa using hu)
  · intro k hk
    rw [htraffic] at hk
    obtain ⟨hk, hun⟩ := hasRow_filter
      (q := fun k : UserId × NodeId => !(user k.1 || node k.2)) hk
    rw [Bool.not_eq_true', Bool.or_eq_false_iff] at hun
    obtain ⟨huser, hnode⟩ := h.userNodeLifetime k hk
    exact ⟨husers _ huser hun.1, hnodes _ hnode hun.2⟩

theorem mem_ids_filter {α : Type} {key : α → Nat} {rows : List α} {id i : Nat}
    (hi : i ∈ rows.map key) (hne : decide (i = id) = false) :
    i ∈ (rows.filter (key · ≠ id)).map key := by
  obtain ⟨row, hrow, rfl⟩ := List.mem_map.mp hi
  exact List.mem_map.mpr ⟨row, List.mem_filter.mpr ⟨hrow, by simpa using hne⟩, rfl⟩

theorem deleteUser (h : db.Referenced) (id : UserId) : (db.deleteUser id).Referenced := by
  have htraffic : (db.deleteUser id).traffic = Db.dropTraffic db.traffic
      (fun p => (db.peers.filter fun q => q.userId = id).any (·.id = p)) (· = id)
      fun _ => false := rfl
  refine h.remove (fun p => (Bool.or_false _).symm) (fun u hu hne => ?_) (fun n hn _ => hn) ?_
    htraffic
  · exact mem_ids_filter hu hne
  · exact List.filter_congr fun p _ => decide_not

theorem deleteNode (h : db.Referenced) (id : NodeId) : (db.deleteNode id).Referenced := by
  have htraffic : (db.deleteNode id).traffic = Db.dropTraffic db.traffic
      (fun p => (db.peers.filter fun q => q.nodeId = id).any (·.id = p)) (fun _ => false)
      (· = id) := rfl
  have hgone : ∀ p : Peer, decide (p.nodeId = id) = (false || decide (p.nodeId = id)) :=
    fun p => (Bool.false_or _).symm
  refine h.remove hgone (fun u hu _ => hu) (fun n hn hne => ?_) ?_ htraffic
  · exact mem_ids_filter hn hne
  · exact List.filter_congr fun p _ => decide_not

theorem reset (h : db.Referenced) (user : User) (at_ : Time) :
    (resetLocalTrafficUsage db user at_).2.Referenced := by
  have hids : (resetLocalTrafficUsage db user at_).2.ids .users = db.ids .users :=
    ids_saveUser db { user with trafficResetAt := some at_ } .users
  refine ⟨h.samples, h.deltas, h.sessions, fun k hk => ?_, fun k hk => ?_, fun k hk => ?_,
    fun k hk => ?_⟩
  · rw [hids]
    exact h.userDaily k (hk.mono List.filter_sublist.subset)
  · rw [hids]
    exact h.userNodeDaily k (hk.mono List.filter_sublist.subset)
  · rw [hids]
    exact h.userLifetime k (hk.mono List.filter_sublist.subset)
  · rw [hids]
    exact h.userNodeLifetime k (hk.mono List.filter_sublist.subset)

/-- **Step.** -/
theorem apply (hwf : db.WF) (h : db.Referenced) {w : Write} (hok : w.Ok db) :
    (w.apply db).Referenced := by
  have hstay : ∀ p ∈ db.peers, ∃ p' ∈ db.peers, p.Same p' := fun p hp => ⟨p, hp, .refl p⟩
  have hrefl : ∀ l : List Nat, l ⊆ l := List.Subset.refl
  cases w with
  | user row =>
      refine h.frame rfl ?_ (hrefl _) hstay
      exact ids_saveUser db row .users ▸ hrefl _
  | newUser row =>
      refine h.frame rfl ?_ (hrefl _) hstay
      exact List.map_subset _ (List.subset_append_left _ _)
  | newImport row imported =>
      refine h.frame rfl ?_ (hrefl _) hstay
      exact List.map_subset _ (List.subset_append_left _ _)
  | node row =>
      refine h.frame rfl (hrefl _) ?_ hstay
      exact ids_saveNode db row .nodes ▸ hrefl _
  | newNode row =>
      refine h.frame rfl (hrefl _) ?_ hstay
      exact List.map_subset _ (List.subset_append_left _ _)
  | tombstone row =>
      refine h.frame rfl (hrefl _) (hrefl _) fun p hp => ⟨_, List.mem_map_of_mem hp, ?_⟩
      unfold deletedDevicePeer
      split
      · exact ⟨rfl, rfl, rfl, rfl, rfl⟩
      · exact .refl p
  | peers f =>
      exact h.frame rfl (hrefl _) (hrefl _)
        fun p hp => ⟨f p, List.mem_map_of_mem hp, hok.same p hp⟩
  | newPeer row =>
      exact h.frame rfl (hrefl _) (hrefl _) fun p hp => ⟨p, List.mem_append_left _ hp, .refl p⟩
  | reading row data at_ => exact h.reading hwf hok data at_
  | resetTraffic row at_ => exact h.reset row at_
  | deleteUser id => exact h.deleteUser id
  | deleteNode id => exact h.deleteNode id
  | profile row => exact h.frame rfl (hrefl _) (hrefl _) hstay
  | newDevice row => exact h.frame rfl (hrefl _) (hrefl _) hstay
  | release row at_ => exact h.frame rfl (hrefl _) (hrefl _) hstay

/-- The cleanup of samples removes no row that others name. -/
theorem resampled (h : db.Referenced) (p : PeerTrafficSample → Bool) :
    (db.resampled (db.traffic.samples.filter p)).Referenced :=
  { h with samples := fun x hx => h.samples x (List.mem_of_mem_filter hx) }

/-- Every column that refers to a table names one of its rows. -/
theorem refs_subset (hwf : db.WF) (h : db.Referenced) (table : Table) :
    db.refs table ⊆ db.ids table := by
  have hpeerUser : ∀ p ∈ db.peers, p.userId ∈ db.ids .users := by
    intro p hp
    obtain ⟨d, hd, -, howner⟩ := hwf.peerDevice p hp
    exact List.mem_map.mpr (howner ▸ hwf.deviceOwner d hd)
  have hpeerNode : ∀ p ∈ db.peers, p.nodeId ∈ db.ids .nodes :=
    fun p hp => List.mem_map.mpr (hwf.peerNode p hp)
  have hpeer : ∀ {id u n}, db.HasPeer id u n →
      id ∈ db.ids .peers ∧ u ∈ db.ids .users ∧ n ∈ db.ids .nodes := by
    rintro id u n ⟨p, hp, rfl, rfl, rfl⟩
    exact ⟨List.mem_map_of_mem hp, hpeerUser p hp, hpeerNode p hp⟩
  have hrows : ∀ {α : Type} {rows : List α} {f : α → Nat} {l : List Nat},
      (∀ x ∈ rows, f x ∈ l) → rows.map f ⊆ l := by
    intro α rows f l hx i hi
    obtain ⟨x, hmem, rfl⟩ := List.mem_map.mp hi
    exact hx x hmem
  cases table with
  | users =>
      simp only [Db.refs, List.append_subset]
      refine ⟨⟨⟨⟨⟨⟨⟨⟨?_, ?_⟩, hrows hpeerUser⟩, ?_⟩, ?_⟩, ?_⟩, ?_⟩, ?_⟩, ?_⟩
      · exact hrows fun r hr => List.mem_map.mpr (hwf.profileOwner r hr)
      · exact hrows fun d hd => List.mem_map.mpr (hwf.deviceOwner d hd)
      · exact hrows fun x hx => (hpeer (h.deltas x hx)).2.1
      · exact hrows fun x hx => (hpeer (h.sessions x hx)).2.1
      · exact hrows fun x hx => h.userDaily _ ⟨x, hx, rfl⟩
      · exact hrows fun x hx => (h.userNodeDaily _ ⟨x, hx, rfl⟩).1
      · exact hrows fun x hx => h.userLifetime _ ⟨x, hx, rfl⟩
      · exact hrows fun x hx => (h.userNodeLifetime _ ⟨x, hx, rfl⟩).1
  | nodes =>
      simp only [Db.refs, List.append_subset]
      refine ⟨⟨⟨⟨hrows hpeerNode, ?_⟩, ?_⟩, ?_⟩, ?_⟩
      · exact hrows fun x hx => (hpeer (h.deltas x hx)).2.2
      · exact hrows fun x hx => (hpeer (h.sessions x hx)).2.2
      · exact hrows fun x hx => (h.userNodeDaily _ ⟨x, hx, rfl⟩).2
      · exact hrows fun x hx => (h.userNodeLifetime _ ⟨x, hx, rfl⟩).2
  | devices =>
      refine hrows fun p hp => ?_
      obtain ⟨d, hd, hid, -⟩ := hwf.peerDevice p hp
      exact List.mem_map.mpr ⟨d, hd, hid⟩
  | peers =>
      simp only [Db.refs, List.append_subset]
      exact ⟨⟨hrows h.samples, hrows fun x hx => (hpeer (h.deltas x hx)).1⟩,
        hrows fun x hx => (hpeer (h.sessions x hx)).1⟩

end Db.Referenced

/-! ## Runs -/

/-- The tables are well formed and every reference among them is to a stored row. -/
structure Db.Sound (db : Db) : Prop where
  wf : db.WF
  referenced : db.Referenced

theorem Writes.sound {P : Db → Write → Prop} {db db' : Db} (h : Writes P db db')
    (hs : db.Sound) : db'.Sound ∧ Renews db db' := by
  refine h.keeps (I := fun db' => db'.Sound ∧ Renews db db') ?_ ⟨hs, .refl db⟩
  rintro db' w - hok ⟨hs', hr⟩
  exact ⟨⟨Write.apply_wf hs'.wf w hok, hs'.referenced.apply hs'.wf hok⟩,
    hr.trans (Write.renews hok)⟩

variable {cfg : Config}

/-- **Step.** -/
theorem sound_step {s s' : RetentionPanel} {e : RetentionEvent} (hs : s.panel.db.Sound)
    (hstep : (retentionPanel cfg).step s e = some s') :
    s'.panel.db.Sound ∧ Renews s.panel.db s'.panel.db := by
  rcases retentionPanel_step hstep with
    ⟨call, -, hcall, -⟩ | ⟨_, -, hpanel⟩ | ⟨now, -, -, -, hpanel⟩
  · exact (panel_step_phases hs.wf hcall).writes.sound hs
  · rw [hpanel]
    exact ⟨hs, .refl _⟩
  · have hdb : s'.panel.db = afterCleanup s.panel.db s.retentionDays now := by rw [hpanel]
    refine ⟨⟨hdb ▸ wf_afterCleanup hs.wf _ now, ?_⟩, ?_⟩
    · rw [hdb, afterCleanup_eq]
      exact hs.referenced.resampled _
    · rw [hdb, afterCleanup_eq]
      exact .of_subset le_rfl fun table => by cases table <;> exact List.Subset.refl _

theorem retentionPanel_sound {s : RetentionPanel} (h : (retentionPanel cfg).Reachable s) :
    s.panel.db.Sound :=
  h.invariant (P := fun s => s.panel.db.Sound) ⟨Db.WF.empty, .empty⟩
    fun _ _ _ hs _ hstep => (sound_step hs hstep).1

theorem sound_run {s t : RetentionPanel} {steps : List (RetentionPanel × RetentionEvent)}
    (h : (retentionPanel cfg).Trace s steps t) (hs : s.panel.db.Sound) :
    t.panel.db.Sound ∧ Renews s.panel.db t.panel.db := by
  induction h with
  | nil s => exact ⟨hs, .refl _⟩
  | cons hstep _ ih =>
      obtain ⟨hs', hr⟩ := sound_step hs hstep
      obtain ⟨ht, hr'⟩ := ih hs'
      exact ⟨ht, hr.trans hr'⟩

end VpnPanel.Backend
