import VpnPanel.Lib.Session
import VpnPanel.Backend.Operations
import VpnPanel.Backend.Settled

/-!
# The session of a sync result

`node_sync_result` statement by statement: the row locks of
`load_node_with_peers`, the node row, the entries, the commits that
`enqueue_operation` makes for every operation the limits queue, and only then
the confirmations, the releases, the purge, the notification and the last
commit. `nodeSyncResult_run` ties the whole run to the request of
`Requests.lean`.
-/

namespace VpnPanel.Backend

open VpnPanel.Lib

/-! ## The statements -/

/-- What a commit of the session makes durable: the tables, the operation rows
and the owners whose page is told to read again (`pg_notify` is delivered by
the commit). -/
structure Store where
  db : Db
  operations : List AsyncOperation := []
  notified : List UserId := []

/-- The effects of a result proper. -/
def Store.effects (store : Store) : Db × List UserId := (store.db, store.notified)

def Store.onDb (f : Db → Db) (store : Store) : Store := { store with db := f store.db }

inductive RowLock
  | owner (id : UserId)
  | device (id : DeviceId)
  | peer (id : PeerId)
  deriving DecidableEq, Repr

/-- `_lock_owner_rows`: the owners of the node's peers and the owners a purge
may delete. With no other writer the second discovery finds none. -/
def lockOwnerRows (nodeId : NodeId) (store : Store) : List RowLock :=
  let ids := (store.db.peersOfNode nodeId).map (·.userId) ++
    (store.db.profiles.filter (·.deleteRequestedAt.isSome)).map (·.userId)
  (store.db.users.filter (·.id ∈ ids)).map fun user => .owner user.id

/-- `_lock_peer_device_rows`. -/
def lockPeerDeviceRows (nodeId : NodeId) (store : Store) : List RowLock :=
  let ids := (store.db.peersOfNode nodeId).map (·.deviceId)
  (store.db.devices.filter (·.id ∈ ids)).map fun device => .device device.id

/-- The `FOR UPDATE` of `_peers_of_node`. -/
def lockPeerRows (nodeId : NodeId) (store : Store) : List RowLock :=
  (store.db.peersOfNode nodeId).map fun peer => .peer peer.id

/-- `load_node_with_peers(..., for_update=True)`. -/
def loadNodeWithPeers (nodeId : NodeId) : List (Statement Store RowLock) :=
  [.lock (lockOwnerRows nodeId), .lock (lockPeerDeviceRows nodeId), .lock (lockPeerRows nodeId)]

/-- `enqueue_operation`: the row and a commit, the publish, and a second commit
when the publish raised. -/
def enqueueOperation (job : Job) (id : Nat) (now : Time) (failure : Option String) :
    List (Statement Store RowLock) :=
  let row := newOperation job id (id + 1) now
  .write (fun store => { store with operations := store.operations ++ [row] }) :: .commit ::
    match failure with
    | none => []
    | some error =>
        [.write (fun store => { store with
            operations := Rows.save AsyncOperation.id (markEnqueueFailed error row now)
              store.operations }),
          .commit]

/-- The operations of a result, one `enqueue_operation` after the other.
`publish` tells for an operation id what its publish raised. -/
def enqueueOperations (now : Time) (publish : Nat → Option String) :
    List Command → Nat → List (Statement Store RowLock)
  | [], _ => []
  | command :: rest, id =>
      enqueueOperation command.job id now (publish id) ++
        enqueueOperations now publish rest (id + 2)

/-- `notify_user_changes`. -/
def notifyUserChanges (userIds : List UserId) (store : Store) : Store :=
  { store with notified := store.notified ++ sortedSet userIds }

/-- The entries of a result. -/
def entryStatements (cfg : Config) (loaded : String → Option PeerId) (now : Time)
    (entries : List PeerSyncResult) : List (Statement Store RowLock) :=
  entries.map fun data =>
    .write (Store.onDb fun db => (applyPeerEntry cfg loaded { db } data now).db)

/-- What follows the entries of a successful result, up to the last commit. -/
def closingStatements (nodeId : NodeId) (seenPublicKeys : List String)
    (acknowledgedOwnerIds : List UserId) (now : Time) : List (Statement Store RowLock) :=
  [.write (Store.onDb fun db => db.mapPeers (confirmPeer db nodeId seenPublicKeys)),
    .write (Store.onDb fun db => releaseDeviceIps db (releasedCandidates db nodeId) now),
    .write (Store.onDb fun db => (purgeConfirmedRemnawaveDeletes db).2),
    .write (notifyUserChanges acknowledgedOwnerIds)]

/-- The locks, the node row and the entries: the statements before the first
operation is queued. -/
def openingStatements (cfg : Config) (db : Db) (node : Node) (data : SyncResult) (now : Time) :
    List (Statement Store RowLock) :=
  loadNodeWithPeers node.id ++
    .write (Store.onDb (·.saveNode (syncedNode node data now))) ::
      entryStatements cfg (entryPeer db node.id) now data.peers

/-- A successful result. The node ids, uuids and owners the handler keeps in
local variables are those of the entries on the tables it loaded. -/
def syncResultStatements (cfg : Config) (db : Db) (node : Node) (data : SyncResult) (now : Time)
    (publish : Nat → Option String) (id : Nat) : List (Statement Store RowLock) :=
  let results := confirmRemovals cfg (db.saveNode (syncedNode node data now)) node.id data now
  openingStatements cfg db node data now ++
    enqueueOperations now publish results.queued id ++
    closingStatements node.id (data.peers.map (·.publicKey)) results.acknowledgedOwnerIds now ++
    [.commit]

/-- `node_sync_result`; an unknown node is refused before anything is written.
The ids of the operations are drawn from `id` on. -/
def nodeSyncResultStatements (cfg : Config) (db : Db) (nodeId : NodeId) (data : SyncResult)
    (now : Time) (publish : Nat → Option String) (id : Nat) : List (Statement Store RowLock) :=
  match db.node? nodeId with
  | none => []
  | some node =>
      if !data.ok then
        loadNodeWithPeers node.id ++
          [.write (Store.onDb (·.saveNode (failedNode node data))),
            .write (notifyUserChanges ((db.peersOfNode node.id).map (·.userId))),
            .commit]
      else syncResultStatements cfg db node data now publish id

/-! ## The run and the request -/

section Run

variable {cfg : Config} {store : Store} {node : Node} {data : SyncResult} {now : Time}

theorem effect_entryStatements (loaded : String → Option PeerId) (entries : List PeerSyncResult) :
    ∀ (store : Store) (st : PeerResults), store.db = st.db →
      Session.effect (entryStatements cfg loaded now entries) store =
        { store with db := (applyPeerEntries cfg loaded now entries st).db } := by
  induction entries with
  | nil =>
      intro store st h
      show store = { store with db := st.db }
      rw [← h]
  | cons data rest ih =>
      intro store st h
      show Session.effect (entryStatements cfg loaded now rest)
        (store.onDb fun db => (applyPeerEntry cfg loaded { db } data now).db) = _
      rw [ih _ (applyPeerEntry cfg loaded st data now)]
      · rfl
      · show (applyPeerEntry cfg loaded { db := store.db } data now).db = _
        rw [h, ← applyPeerEntry_db]

/-- The view of the session once the entries are applied. -/
theorem effect_openingStatements (cfg : Config) (store : Store) (node : Node) (data : SyncResult)
    (now : Time) :
    Session.effect (openingStatements cfg store.db node data now) store =
      { store with
        db := (applyPeerResults cfg (store.db.saveNode (syncedNode node data now)) node.id
          data.peers now).db } := by
  unfold openingStatements
  rw [Session.effect_append]
  show Session.effect (entryStatements cfg (entryPeer store.db node.id) now data.peers)
    (store.onDb (·.saveNode (syncedNode node data now))) = _
  rw [effect_entryStatements _ _ _ { db := store.db.saveNode (syncedNode node data now) } rfl]
  rfl

/-- Queueing changes the operation rows only. -/
theorem effect_enqueueOperation (job : Job) (id : Nat) (failure : Option String) (store : Store) :
    (Session.effect (enqueueOperation job id now failure) store).effects = store.effects := by
  cases failure <;> rfl

theorem effect_enqueueOperations (now : Time) (publish : Nat → Option String)
    (commands : List Command) :
    ∀ (id : Nat) (store : Store),
      (Session.effect (enqueueOperations now publish commands id) store).effects =
        store.effects := by
  induction commands with
  | nil =>
      intro id store
      rfl
  | cons command rest ih =>
      intro id store
      unfold enqueueOperations
      rw [Session.effect_append, ih, effect_enqueueOperation]

/-- The confirmations, the releases, the purge and the announcement. -/
theorem effect_closingStatements (nodeId : NodeId) (seen : List String) (owners : List UserId)
    (now : Time) (store : Store) :
    (Session.effect (closingStatements nodeId seen owners now) store).effects =
      ((purgeConfirmedRemnawaveDeletes
          (releaseDeviceIps (store.db.mapPeers (confirmPeer store.db nodeId seen))
            (releasedCandidates (store.db.mapPeers (confirmPeer store.db nodeId seen)) nodeId)
            now)).2,
        store.notified ++ sortedSet owners) := rfl

/-- The durable effects of a whole successful result. -/
theorem run_syncResultStatements (cfg : Config) (store : Store) (node : Node) (data : SyncResult)
    (now : Time) (publish : Nat → Option String) (id : Nat) :
    (Session.run (syncResultStatements cfg store.db node data now publish id)
        (Session.start store)).committed.effects =
      ((applySyncResult cfg store.db node data now).db,
        store.notified ++
          sortedSet (applySyncResult cfg store.db node data now).acknowledgedOwnerIds) := by
  unfold syncResultStatements
  dsimp only
  rw [Session.run_commit, Session.effect_append, Session.effect_append]
  show Store.effects (Session.effect _ (Session.effect _ (Session.effect _ store))) = _
  -- the operation rows aside, the closing statements start from the entries
  rw [effect_closingStatements, effect_openingStatements]
  have hsame := effect_enqueueOperations now publish
    (confirmRemovals cfg (store.db.saveNode (syncedNode node data now)) node.id data now).queued id
    { store with
      db := (applyPeerResults cfg (store.db.saveNode (syncedNode node data now)) node.id
        data.peers now).db }
  obtain ⟨hdb, hnotified⟩ := Prod.mk.inj hsame
  rw [hdb, hnotified]
  rfl

/-- **The statements refine the request.** Run to the end, the session commits
the tables and the announcement of `nodeSyncResult`. -/
theorem nodeSyncResult_run {nodeId : NodeId} {e : Effect}
    (h : nodeSyncResult cfg store.db nodeId data now = .ok e) (publish : Nat → Option String)
    (id : Nat) :
    (Session.run (nodeSyncResultStatements cfg store.db nodeId data now publish id)
        (Session.start store)).committed.effects =
      (e.db, store.notified ++ sortedSet e.notified) := by
  unfold nodeSyncResult at h
  unfold nodeSyncResultStatements
  cases hnode : store.db.node? nodeId with
  | none =>
      rw [hnode] at h
      cases h
  | some node =>
      rw [hnode] at h
      dsimp only at h ⊢
      by_cases hok : (!data.ok) = true
      · rw [if_pos hok] at h ⊢
        cases h
        rfl
      · rw [if_neg hok] at h ⊢
        cases h
        exact run_syncResultStatements cfg store node data now publish id

theorem openingStatements_quiet (cfg : Config) (db : Db) (node : Node) (data : SyncResult)
    (now : Time) : ∀ x ∈ openingStatements cfg db node data now, Session.Quiet x := by
  intro x hx
  rcases List.mem_append.mp hx with hx | hx
  · simp only [loadNodeWithPeers, List.mem_cons, List.not_mem_nil, or_false] at hx
    rcases hx with rfl | rfl | rfl <;> trivial
  · rcases List.mem_cons.mp hx with rfl | hx
    · trivial
    · obtain ⟨entry, -, rfl⟩ := List.mem_map.mp hx
      trivial

theorem closingStatements_quiet (nodeId : NodeId) (seen : List String) (owners : List UserId)
    (now : Time) : ∀ x ∈ closingStatements nodeId seen owners now, Session.Quiet x := by
  intro x hx
  simp only [closingStatements, List.mem_cons, List.not_mem_nil, or_false] at hx
  rcases hx with rfl | rfl | rfl | rfl <;> trivial

/-! ## Every statement keeps the constraints -/

theorem Db.WF.saveNode {db : Db} (hwf : db.WF) (row : Node) : (db.saveNode row).WF := by
  by_cases hex : ∃ node ∈ db.nodes, node.id = row.id
  · obtain ⟨node, hn, hid⟩ := hex
    exact (saveNode_writes (P := AnyWrite) (fun _ => trivial) hn hid.symm).wf hwf
  · -- no row of that id: nothing is written
    have hsame : Rows.save Node.id row db.nodes = db.nodes := by
      unfold Rows.save
      rw [List.map_congr_left fun n hn => if_neg fun h => hex ⟨n, hn, h⟩]
      exact List.map_id _
    unfold Db.saveNode
    rw [hsame]
    exact hwf

/-- Queueing writes no table. -/
theorem enqueueOperations_db (publish : Nat → Option String) (commands : List Command) :
    ∀ (id : Nat) (f : Store → Store), .write f ∈ enqueueOperations now publish commands id →
      ∀ s : Store, (f s).db = s.db := by
  induction commands with
  | nil =>
      intro id f hf
      cases hf
  | cons command rest ih =>
      intro id f hf
      rcases List.mem_append.mp hf with hf | hf
      · unfold enqueueOperation at hf
        cases hout : publish id <;>
          simp only [hout, List.mem_cons, List.not_mem_nil, Statement.write.injEq, reduceCtorEq,
            or_false, false_or] at hf
        · subst hf
          exact fun _ => rfl
        · rcases hf with rfl | rfl <;> exact fun _ => rfl
      · exact ih _ f hf

/-- A failure of the session after any number of statements leaves well-formed
tables. -/
theorem nodeSyncResultStatements_wf {nodeId : NodeId} (hwf : store.db.WF)
    (publish : Nat → Option String) (id n : Nat) :
    (Session.run ((nodeSyncResultStatements cfg store.db nodeId data now publish id).take n)
      (Session.start store)).committed.db.WF := by
  refine (Session.run_keeps (P := fun s : Store => s.db.WF) _ (fun f hf => ?_)
    (Session.start store) hwf hwf).1
  have hf := List.mem_of_mem_take hf
  intro s hs
  unfold nodeSyncResultStatements at hf
  split at hf
  · cases hf
  next node _ =>
  split at hf
  · simp only [loadNodeWithPeers, List.cons_append, List.nil_append, List.mem_cons,
      List.not_mem_nil, Statement.write.injEq, reduceCtorEq, or_false, false_or] at hf
    rcases hf with rfl | rfl
    · exact hs.saveNode _
    · exact hs
  unfold syncResultStatements openingStatements at hf
  simp only [List.mem_append, List.mem_cons, loadNodeWithPeers, closingStatements,
    List.not_mem_nil, Statement.write.injEq, reduceCtorEq, or_false, false_or] at hf
  rcases hf with ((rfl | hf) | hf) | rfl | rfl | rfl | rfl
  · exact hs.saveNode _
  · obtain ⟨entry, -, heq⟩ := List.mem_map.mp hf
    cases heq
    let st : PeerResults := { db := s.db }
    have hone : Writes (OfEntries [entry] now) st.db
        (applyPeerEntry cfg (entryPeer store.db node.id) st entry now).db :=
      applyPeerEntry_writes hs List.mem_cons_self now
    exact hone.wf hs
  · show (f s).db.WF
    rw [enqueueOperations_db publish _ _ f hf]
    exact hs
  · have hconfirm : Writes (OfSync node.id data now) s.db
        (s.db.mapPeers (confirmPeer s.db node.id (data.peers.map (·.publicKey)))) :=
      confirmPeer_writes s.db node.id data
    exact hconfirm.wf hs
  · exact (releaseDeviceIps_writes hs _ now).wf hs
  · exact (purgeConfirmedRemnawaveDeletes_writes s.db).wf hs
  · exact hs

end Run

end VpnPanel.Backend
