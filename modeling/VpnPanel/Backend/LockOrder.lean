import Mathlib.Data.Prod.Lex
import VpnPanel.Lib.Locks
import VpnPanel.Lib.TSys
import VpnPanel.Backend.SyncSession

/-!
# Row locks of concurrent transactions

Node results, node deletions, device creations and deletions and limit updates,
any number at a time. A transaction runs its `FOR UPDATE` statements in order;
a statement reads its rows once, then locks them one by one and waits where
another transaction holds one. The writes are no part of the system: a commit
may leave any tables, so whatever appears while a transaction waits is covered.
-/

namespace VpnPanel.Backend

open VpnPanel.Lib

/-! ## Rows and their order -/

namespace RowLock

/-- Users before devices before peers. -/
def level : RowLock → Nat
  | owner _ => 0
  | device _ => 1
  | peer _ => 2

def id : RowLock → Nat
  | owner id | device id | peer id => id

def isPeer : RowLock → Bool
  | peer _ => true
  | _ => false

/-- The documented order: by level, and by id among users and among devices. -/
def Before (a b : RowLock) : Prop :=
  a.level < b.level ∨ a.level = b.level ∧ (b.isPeer ∨ a.id < b.id)

instance (a b : RowLock) : Decidable (a.Before b) := inferInstanceAs (Decidable (_ ∨ _))

/-- By level, then by id. -/
def rank (r : RowLock) : Nat ×ₗ Nat := toLex (r.level, r.id)

end RowLock

/-- The peer rows of a list stand in ascending id order. -/
def PeersAscend (rows : List RowLock) : Prop :=
  rows.Pairwise fun a b => a.isPeer → b.isPeer → a.id < b.id

instance (rows : List RowLock) : Decidable (PeersAscend rows) :=
  inferInstanceAs (Decidable (rows.Pairwise _))

/-- The row is still there. -/
def Db.hasRow (db : Db) : RowLock → Bool
  | .owner id => (db.user? id).isSome
  | .device id => (db.device? id).isSome
  | .peer id => (db.peer? id).isSome

/-! ## Statements -/

inductive LockStatement
  /-- `_lock_user_row`. -/
  | ownerRow (userId : UserId)
  /-- A round of `_lock_owner_rows`. -/
  | ownerRound (nodeId : NodeId)
  /-- `_lock_peer_device_rows`. -/
  | nodeDevices (nodeId : NodeId)
  | deviceRow (deviceId : DeviceId)
  /-- The `FOR UPDATE` of `_peers_of_node`, which has no `ORDER BY`. -/
  | nodePeers (nodeId : NodeId)
  | devicePeers (deviceId : DeviceId)
  /-- `release_device_ips`, its devices still locked. -/
  | releaseDevices
  /-- `release_device_ips` once a commit has dropped the locks. -/
  | relockDevices
  deriving DecidableEq, Repr

def maxLockDiscoveryAttempts : Nat := 5

/-- `owner_ids` of a round. -/
def ownerIds (db : Db) (nodeId : NodeId) : List UserId :=
  (db.peersOfNode nodeId).map (·.userId) ++
    (db.profiles.filter (·.deleteRequestedAt.isSome)).map (·.userId)

/-- `pending` of a round: the owners not locked yet, sorted. -/
def pendingOwners (db : Db) (nodeId : NodeId) (held : List RowLock) : List UserId :=
  (sortedSet (ownerIds db nodeId)).filter (.owner · ∉ held)

namespace LockStatement

def level : LockStatement → Nat
  | ownerRow _ | ownerRound _ => 0
  | nodeDevices _ | deviceRow _ | relockDevices => 1
  | nodePeers _ | devicePeers _ => 2
  | releaseDevices => 3

def isRound : LockStatement → Bool
  | ownerRound _ => true
  | _ => false

/-- The rows of the statement, in the order it locks them. `ids` are the peers
as the scan of `nodePeers` meets them, or the devices to release. -/
def rows (db : Db) (held : List RowLock) (ids : List Nat) : LockStatement → List RowLock
  | ownerRow userId => [.owner userId]
  | ownerRound nodeId => (pendingOwners db nodeId held).map .owner
  | nodeDevices nodeId => (sortedSet ((db.peersOfNode nodeId).map (·.deviceId))).map .device
  | deviceRow deviceId => [.device deviceId]
  | nodePeers _ => ids.map .peer
  | devicePeers deviceId =>
      -- a device that is gone ends `delete_device`
      if .device deviceId ∈ held then
        (sortedSet ((db.peers.filter (·.deviceId = deviceId)).map (·.id))).map .peer
      else []
  | releaseDevices | relockDevices => (sortedSet ids).map .device

/-- The scan meets each peer of the node; released devices are among the locked
ones. -/
def admits (db : Db) (held : List RowLock) (ids : List Nat) : LockStatement → Bool
  | nodePeers nodeId => decide (ids.Perm ((db.peersOfNode nodeId).map (·.id)))
  | releaseDevices => ids.all (.device · ∈ held)
  | _ => true

/-- What remains of the script: a round that finds no owner is the last. -/
def rest (db : Db) (held : List RowLock) (script : List LockStatement) :
    LockStatement → List LockStatement
  | ownerRound nodeId =>
      if pendingOwners db nodeId held = [] then script.dropWhile isRound else script
  | _ => script

end LockStatement

/-- `load_node_with_peers(..., for_update=True)`. -/
def loaderScript (db : Db) (nodeId : NodeId) : List LockStatement :=
  match db.node? nodeId with
  | none => []
  | some node => List.replicate maxLockDiscoveryAttempts (.ownerRound node.id) ++
      [.nodeDevices node.id, .nodePeers node.id]

/-- The `FOR UPDATE` statements of a request. -/
def lockScript (db : Db) : Request → List LockStatement
  | .syncResult nodeId data =>
      if (db.node? nodeId).isSome && data.ok then loaderScript db nodeId ++ [.releaseDevices]
      else loaderScript db nodeId
  | .heartbeatResult nodeId _ => loaderScript db nodeId
  | .deleteNode nodeId =>
      if (db.node? nodeId).isSome then loaderScript db nodeId ++ [.releaseDevices] else []
  | .addDevice userId _ | .updateDeviceLimit userId _ => [.ownerRow userId]
  | .deleteDevice _ deviceId =>
      match db.device? deviceId with
      | none => []
      | some device => [.ownerRow device.userId, .deviceRow device.id, .devicePeers device.id]
  | _ => []

/-- A result whose entries may queue an operation, which commits. -/
def Request.mayEnqueue : Request → Bool
  | .syncResult _ data => data.ok
  | .heartbeatResult _ data => data.ok
  | _ => false

/-! ## Transactions -/

structure Tx where
  id : Nat
  request : Request
  /-- The statements still to run. -/
  script : List LockStatement
  /-- The rows the running statement has still to lock. -/
  plan : List RowLock := []
  /-- The locked rows, in the order of acquisition. -/
  held : List RowLock := []

namespace Tx

/-- The rows of the statements run so far, locked or to be locked. -/
def rows (tx : Tx) : List RowLock := tx.held ++ tx.plan

/-- Run the next statement; a row it holds is not locked again. -/
def advance (tx : Tx) (db : Db) (ids : List Nat) (st : LockStatement)
    (script : List LockStatement) : Tx :=
  { tx with
    plan := (st.rows db tx.held ids).filter (· ∉ tx.held)
    script := st.rest db tx.held script }

/-- Lock the next row; a row deleted in the meantime is passed over. -/
def take (tx : Tx) (db : Db) (r : RowLock) (plan : List RowLock) : Tx :=
  { tx with plan, held := if db.hasRow r then tx.held ++ [r] else tx.held }

/-- Every row is locked, and the entries are being applied. -/
def applying (tx : Tx) : Bool :=
  tx.request.mayEnqueue && tx.plan.isEmpty &&
    tx.script.all fun st => st = .releaseDevices || st = .relockDevices

/-- The commit of `enqueue_operation`: what follows runs without the locks. -/
def restart (tx : Tx) : Tx :=
  { tx with script := if tx.script = [] then [] else [.relockDevices], held := [] }

end Tx

structure Locking where
  db : Db := {}
  txs : List Tx := []

inductive LockEvent
  | begin (id : Nat) (request : Request)
  | next (id : Nat) (ids : List Nat)
  | lock (id : Nat)
  | enqueue (id : Nat) (db : Db)
  | commit (id : Nat) (db : Db)
  | rollback (id : Nat)
  /-- A commit of a transaction without explicit locks. -/
  | other (db : Db)

namespace Locking

def tx? (s : Locking) (id : Nat) : Option Tx := Rows.get? Tx.id s.txs id

def save (s : Locking) (tx : Tx) : Locking := { s with txs := Rows.save Tx.id tx s.txs }

def drop (s : Locking) (id : Nat) : Locking := { s with txs := s.txs.filter (·.id ≠ id) }

/-- Another transaction holds the row. -/
def lockedBesides (s : Locking) (id : Nat) (r : RowLock) : Bool :=
  s.txs.any fun tx => tx.id ≠ id && r ∈ tx.held

def act (s : Locking) : LockEvent → Option Locking
  | .begin id request =>
      if (s.tx? id).isSome then none
      else some { s with txs := s.txs ++ [{ id, request, script := lockScript s.db request }] }
  | .next id ids => (s.tx? id).bind fun tx =>
      match tx.plan, tx.script with
      | [], st :: script =>
          if st.admits s.db tx.held ids then some (s.save (tx.advance s.db ids st script))
          else none
      | _, _ => none
  | .lock id => (s.tx? id).bind fun tx =>
      match tx.plan with
      | [] => none
      | r :: plan => if s.lockedBesides id r then none else some (s.save (tx.take s.db r plan))
  | .enqueue id db => (s.tx? id).bind fun tx =>
      if tx.applying then some { s.save tx.restart with db } else none
  | .commit id db => (s.tx? id).bind fun tx =>
      if tx.plan.isEmpty && tx.script.isEmpty then some { s.drop id with db } else none
  | .rollback id => (s.tx? id).map fun _ => s.drop id
  | .other db => some { s with db }

/-- Who holds which row, and who waits for which. -/
def graph (s : Locking) : WaitGraph Nat RowLock where
  holds id r := ∃ tx ∈ s.txs, tx.id = id ∧ r ∈ tx.held
  awaits id r := ∃ tx ∈ s.txs, tx.id = id ∧ tx.plan.head? = some r ∧ r ∉ tx.held

end Locking

theorem Locking.waits_iff {s : Locking} {t t' : Nat} :
    s.graph.Waits t t' ↔ ∃ tx ∈ s.txs, ∃ tx' ∈ s.txs, tx.id = t ∧ tx'.id = t' ∧
      ∃ r ∈ tx.plan.head?, r ∉ tx.held ∧ r ∈ tx'.held := by
  constructor
  · rintro ⟨r, ⟨tx, htx, hid, hhead, hfree⟩, tx', htx', hid', hheld⟩
    exact ⟨tx, htx, tx', htx', hid, hid', r, hhead, hfree, hheld⟩
  · rintro ⟨tx, htx, tx', htx', hid, hid', r, hhead, hfree, hheld⟩
    exact ⟨r, ⟨tx, htx, hid, hhead, hfree⟩, tx', htx', hid', hheld⟩

instance (s : Locking) (t t' : Nat) : Decidable (s.graph.Waits t t') :=
  decidable_of_iff' _ Locking.waits_iff

def locking : TSys Locking LockEvent where
  init := {}
  step := Locking.act

/-! ## What a step does -/

/-- The transactions after one step. -/
inductive Locking.Move (s : Locking) : LockEvent → List Tx → Prop
  | begin {id : Nat} {request : Request} : (∀ tx ∈ s.txs, tx.id ≠ id) →
      Move s (.begin id request)
        (s.txs ++ [{ id, request, script := lockScript s.db request }])
  | next {tx : Tx} {ids : List Nat} {st : LockStatement} {script : List LockStatement} :
      s.tx? tx.id = some tx → tx.plan = [] → tx.script = st :: script →
      st.admits s.db tx.held ids = true →
      Move s (.next tx.id ids) (Rows.save Tx.id (tx.advance s.db ids st script) s.txs)
  | lock {tx : Tx} {r : RowLock} {plan : List RowLock} :
      s.tx? tx.id = some tx → tx.plan = r :: plan → s.lockedBesides tx.id r = false →
      Move s (.lock tx.id) (Rows.save Tx.id (tx.take s.db r plan) s.txs)
  | enqueue {tx : Tx} {db : Db} : s.tx? tx.id = some tx → tx.plan = [] →
      Move s (.enqueue tx.id db) (Rows.save Tx.id tx.restart s.txs)
  | commit {id : Nat} {db : Db} : Move s (.commit id db) (s.txs.filter (·.id ≠ id))
  | rollback {id : Nat} : Move s (.rollback id) (s.txs.filter (·.id ≠ id))
  | other {db : Db} : Move s (.other db) s.txs

theorem Locking.tx?_id {s : Locking} {id : Nat} {tx : Tx} (h : s.tx? id = some tx) :
    tx.id = id := Rows.key_of_get? h

theorem Locking.move_of_step {s s' : Locking} {e : LockEvent} (h : locking.step s e = some s') :
    s.Move e s'.txs := by
  replace h : s.act e = some s' := h
  cases e with
  | begin id request =>
      simp only [Locking.act] at h
      split at h
      · cases h
      · next hfree =>
          cases h
          have hnone : s.tx? id = none := by simpa using hfree
          exact .begin (Rows.get?_eq_none.mp hnone)
  | next id ids =>
      simp only [Locking.act] at h
      obtain ⟨tx, htx, hact⟩ := Option.bind_eq_some_iff.mp h
      obtain rfl := Locking.tx?_id htx
      split at hact
      · next st script hplan hscript =>
          split at hact
          · next hadmits =>
              cases hact
              exact .next htx hplan hscript hadmits
          · cases hact
      · cases hact
  | lock id =>
      simp only [Locking.act] at h
      obtain ⟨tx, htx, hact⟩ := Option.bind_eq_some_iff.mp h
      obtain rfl := Locking.tx?_id htx
      split at hact
      · cases hact
      · next r plan hplan =>
          split at hact
          · cases hact
          · next hfree =>
              cases hact
              exact .lock htx hplan (by simpa using hfree)
  | enqueue id db =>
      simp only [Locking.act] at h
      obtain ⟨tx, htx, hact⟩ := Option.bind_eq_some_iff.mp h
      obtain rfl := Locking.tx?_id htx
      split at hact
      · next happlying =>
          cases hact
          have hplan : tx.plan = [] := by
            simp only [Tx.applying, Bool.and_eq_true, List.isEmpty_iff] at happlying
            exact happlying.1.2
          exact .enqueue htx hplan
      · cases hact
  | commit id db =>
      simp only [Locking.act] at h
      obtain ⟨tx, htx, hact⟩ := Option.bind_eq_some_iff.mp h
      split at hact
      · cases hact
        exact .commit
      · cases hact
  | rollback id =>
      simp only [Locking.act] at h
      obtain ⟨tx, -, rfl⟩ := Option.map_eq_some_iff.mp h
      exact .rollback
  | other db =>
      cases h
      exact .other

/-! ## The rows of a statement -/

namespace RowLock

theorem isPeer_iff {r : RowLock} : r.isPeer = true ↔ r.level = 2 := by
  cases r <;> simp [isPeer, level]

theorem rank_lt {a b : RowLock} (h : a.level < b.level ∨ a.level = b.level ∧ a.id < b.id) :
    a.rank < b.rank := Prod.Lex.toLex_lt_toLex.mpr h

end RowLock

theorem PeersAscend.sublist {l m : List RowLock} (h : PeersAscend m) (hl : l.Sublist m) :
    PeersAscend l := List.Pairwise.sublist hl h

namespace LockStatement

variable {db : Db} {held : List RowLock} {ids : List Nat} {st : LockStatement} {r : RowLock}

/-- A statement locks rows of one level. -/
theorem level_of_mem_rows (h : r ∈ st.rows db held ids) (hst : st ≠ .releaseDevices) :
    r.level = st.level := by
  cases st with
  | ownerRow _ => obtain rfl := List.mem_singleton.mp h; rfl
  | deviceRow _ => obtain rfl := List.mem_singleton.mp h; rfl
  | ownerRound _ => obtain ⟨_, -, rfl⟩ := List.mem_map.mp h; rfl
  | nodeDevices _ => obtain ⟨_, -, rfl⟩ := List.mem_map.mp h; rfl
  | nodePeers _ => obtain ⟨_, -, rfl⟩ := List.mem_map.mp h; rfl
  | relockDevices => obtain ⟨_, -, rfl⟩ := List.mem_map.mp h; rfl
  | devicePeers deviceId =>
      simp only [rows] at h
      split at h
      · obtain ⟨_, -, rfl⟩ := List.mem_map.mp h
        rfl
      · exact absurd h List.not_mem_nil
  | releaseDevices => exact absurd rfl hst

theorem level_le_two (hst : st ≠ .releaseDevices) : st.level ≤ 2 := by
  cases st <;> simp_all [level]

/-- Sorted ids of one class stand in the documented order. -/
theorem before_of_sorted {l : List Nat} (hl : l.Pairwise (· < ·)) {f : Nat → RowLock}
    (hlevel : ∀ a b, (f a).level = (f b).level) (hid : ∀ a, (f a).id = a) :
    (l.map f).Pairwise RowLock.Before := by
  refine List.pairwise_map.mpr (hl.imp fun {a b} hab => .inr ⟨hlevel a b, .inr ?_⟩)
  rwa [hid, hid]

/-- A statement locks its rows in the documented order. -/
theorem rows_before : (st.rows db held ids).Pairwise RowLock.Before := by
  have hsorted := sortedSet_pairwise
  cases st with
  | ownerRow _ => exact List.pairwise_singleton _ _
  | deviceRow _ => exact List.pairwise_singleton _ _
  | ownerRound nodeId =>
      exact before_of_sorted ((hsorted _).filter _) (fun _ _ => rfl) fun _ => rfl
  | nodeDevices _ => exact before_of_sorted (hsorted _) (fun _ _ => rfl) fun _ => rfl
  | relockDevices => exact before_of_sorted (hsorted _) (fun _ _ => rfl) fun _ => rfl
  | releaseDevices => exact before_of_sorted (hsorted _) (fun _ _ => rfl) fun _ => rfl
  | nodePeers _ =>
      -- the scan order is free: peers have none among themselves
      exact List.pairwise_map.mpr (List.pairwise_of_forall fun a b => .inr ⟨rfl, .inl rfl⟩)
  | devicePeers deviceId =>
      simp only [rows]
      split
      · exact before_of_sorted (hsorted _) (fun _ _ => rfl) fun _ => rfl
      · exact List.Pairwise.nil

/-- Nothing is left to lock for `release_device_ips`. -/
theorem releaseDevices_held (h : releaseDevices.admits db held ids = true) :
    (releaseDevices.rows db held ids).filter (· ∉ held) = [] := by
  refine List.filter_eq_nil_iff.mpr fun r hr => ?_
  obtain ⟨id, hid, rfl⟩ := List.mem_map.mp hr
  have hmem : id ∈ ids := by simpa [sortedSet] using hid
  have hheld := List.all_eq_true.mp h id hmem
  simpa using hheld

/-- The statement may follow rows, and statements, of the level. -/
def After (level : Nat) (st : LockStatement) : Prop :=
  level < st.level ∨ level = 0 ∧ st.isRound = true

theorem rest_sublist (script : List LockStatement) :
    (st.rest db held script).Sublist script := by
  cases st with
  | ownerRound nodeId =>
      simp only [rest]
      split
      · exact List.dropWhile_sublist _
      · exact .refl _
  | _ => exact .refl _

end LockStatement

/-- Alone, the statements of the loader lock the rows of `loadNodeWithPeers`. -/
theorem loader_rows (store : Store) (nodeId : NodeId) {ids : List Nat}
    (hids : (LockStatement.nodePeers nodeId).admits store.db [] ids = true) (r : RowLock) :
    (∃ st ∈ [LockStatement.ownerRound nodeId, .nodeDevices nodeId, .nodePeers nodeId],
        r ∈ st.rows store.db [] ids ∧ store.db.hasRow r = true) ↔
      r ∈ lockOwnerRows nodeId store ++ lockPeerDeviceRows nodeId store ++
        lockPeerRows nodeId store := by
  have hscan : ids.Perm ((store.db.peersOfNode nodeId).map (·.id)) := of_decide_eq_true hids
  cases r with
  | owner id =>
      simp only [LockStatement.rows, pendingOwners, ownerIds, Db.hasRow, Db.user?, Rows.isSome_get?,
        lockOwnerRows, lockPeerDeviceRows, lockPeerRows]
      simp [mem_sortedSet]
      grind
  | device id =>
      simp only [LockStatement.rows, Db.hasRow, Db.device?, Rows.isSome_get?, lockOwnerRows,
        lockPeerDeviceRows, lockPeerRows]
      simp [mem_sortedSet]
      grind
  | peer id =>
      simp only [LockStatement.rows, Db.hasRow, Db.peer?, Rows.isSome_get?, lockOwnerRows,
        lockPeerDeviceRows, lockPeerRows]
      simp [hscan.mem_iff, Db.peersOfNode]
      grind

theorem loaderScript_after (db : Db) (nodeId : NodeId) :
    (loaderScript db nodeId ++ [LockStatement.releaseDevices]).Pairwise
      fun a b => b.After a.level := by
  unfold loaderScript
  split
  · exact List.pairwise_singleton _ _
  · simp [maxLockDiscoveryAttempts, List.replicate, LockStatement.After, LockStatement.level,
      LockStatement.isRound]

theorem lockScript_after (db : Db) (request : Request) :
    (lockScript db request).Pairwise fun a b => b.After a.level := by
  have hloader : ∀ nodeId, (loaderScript db nodeId).Pairwise fun a b => b.After a.level :=
    fun nodeId => (loaderScript_after db nodeId).sublist (List.sublist_append_left _ _)
  cases request with
  | syncResult nodeId data =>
      simp only [lockScript]
      split
      · exact loaderScript_after db nodeId
      · exact hloader nodeId
  | heartbeatResult nodeId data => exact hloader nodeId
  | deleteNode nodeId =>
      simp only [lockScript]
      split
      · exact loaderScript_after db nodeId
      · exact List.Pairwise.nil
  | deleteDevice userId deviceId =>
      simp only [lockScript]
      split
      · exact List.Pairwise.nil
      · simp [LockStatement.After, LockStatement.level]
  | addDevice userId name => exact List.pairwise_singleton _ _
  | updateDeviceLimit userId limit => exact List.pairwise_singleton _ _
  | _ => exact List.Pairwise.nil

theorem Tx.rows_eq_held {tx : Tx} (hplan : tx.plan = []) : tx.rows = tx.held := by
  unfold Tx.rows
  rw [hplan, List.append_nil]

theorem Tx.restart_rows {tx : Tx} (hplan : tx.plan = []) : tx.restart.rows = [] := hplan

theorem Tx.take_rows {tx : Tx} {r : RowLock} {plan : List RowLock} (hplan : tx.plan = r :: plan)
    (db : Db) : (tx.take db r plan).rows.Sublist tx.rows := by
  unfold Tx.rows Tx.take
  rw [hplan]
  dsimp only
  split
  · rw [List.append_assoc, List.singleton_append]
  · exact (List.sublist_cons_self r plan).append_left tx.held

/-! ## One holder -/

/-- No row is held twice. -/
structure Exclusive (txs : List Tx) : Prop where
  ids : Rows.Distinct Tx.id txs
  held : ∀ t ∈ txs, ∀ t' ∈ txs, ∀ r ∈ t.held, r ∈ t'.held → t.id = t'.id

/-- A transaction that takes rows no other holds. -/
theorem Exclusive.save {txs : List Tx} (h : Exclusive txs) {tx : Tx}
    (hfree : ∀ t ∈ txs, t.id ≠ tx.id → ∀ r ∈ tx.held, r ∉ t.held) :
    Exclusive (Rows.save Tx.id tx txs) := by
  refine ⟨h.ids.save, fun t ht t' ht' r hr hr' => ?_⟩
  rcases Rows.mem_save.mp ht with ⟨heq, -⟩ | ⟨hmem, hne⟩
  · rcases Rows.mem_save.mp ht' with ⟨heq', -⟩ | ⟨hmem', hne'⟩
    · rw [heq, heq']
    · exact absurd hr' (hfree t' hmem' hne' r (heq ▸ hr))
  · rcases Rows.mem_save.mp ht' with ⟨heq', -⟩ | ⟨hmem', -⟩
    · exact absurd hr (hfree t hmem hne r (heq' ▸ hr'))
    · exact h.held t hmem t' hmem' r hr hr'

theorem Exclusive.step {s s' : Locking} {e : LockEvent} (h : Exclusive s.txs)
    (hstep : locking.step s e = some s') : Exclusive s'.txs := by
  have hmove := Locking.move_of_step hstep
  generalize s'.txs = txs at hmove ⊢
  have hothers : ∀ tx ∈ s.txs, ∀ t ∈ s.txs, t.id ≠ tx.id → ∀ r ∈ tx.held, r ∉ t.held :=
    fun tx htx t ht hne r hr hr' => hne (h.held t ht tx htx r hr' hr)
  have hfilter : ∀ id, Exclusive (s.txs.filter (·.id ≠ id)) := fun id =>
    ⟨h.ids.filter _, fun t ht t' ht' =>
      h.held t (List.mem_filter.mp ht).1 t' (List.mem_filter.mp ht').1⟩
  cases hmove with
  | @begin id request hfree =>
      refine ⟨h.ids.append hfree, fun t ht t' ht' r hr hr' => ?_⟩
      rcases List.mem_append.mp ht with ht | ht
      · rcases List.mem_append.mp ht' with ht' | ht'
        · exact h.held t ht t' ht' r hr hr'
        · rw [List.mem_singleton.mp ht'] at hr'
          exact absurd hr' List.not_mem_nil
      · rw [List.mem_singleton.mp ht] at hr
        exact absurd hr List.not_mem_nil
  | @next tx ids st script htx _ _ _ => exact h.save (hothers tx (Rows.mem_of_get? htx))
  | @lock tx r plan htx _ hfree =>
      have hnone : ∀ t ∈ s.txs, t.id ≠ tx.id → r ∉ t.held := by
        simpa [Locking.lockedBesides] using hfree
      refine h.save fun t ht hne r' hr' => ?_
      -- the row taken last, or one it held
      have hcases : r' ∈ tx.held ∨ r' = r := by
        simp only [Tx.take] at hr'
        split at hr'
        · simpa using hr'
        · exact .inl hr'
      rcases hcases with hheld | rfl
      · exact hothers tx (Rows.mem_of_get? htx) t ht hne r' hheld
      · exact hnone t ht hne
  | enqueue _ _ => exact h.save fun t _ _ r hr => absurd hr List.not_mem_nil
  | commit => exact hfilter _
  | rollback => exact hfilter _
  | other => exact h

/-- **One holder.** In every reachable state a row is held by one transaction
at most. -/
theorem one_holder {s : Locking} (hs : locking.Reachable s) {t t' : Nat} {r : RowLock}
    (h : s.graph.holds t r) (h' : s.graph.holds t' r) : t = t' := by
  have hexclusive : Exclusive s.txs := by
    refine TSys.Reaches.invariant (P := fun s : Locking => Exclusive s.txs) ?_ ?_ hs
    · constructor <;> simp [locking, Rows.Distinct]
    · exact fun _ _ _ h _ hstep => h.step hstep
  obtain ⟨tx, htx, rfl, hheld⟩ := h
  obtain ⟨tx', htx', rfl, hheld'⟩ := h'
  exact hexclusive.held tx htx tx' htx' r hheld hheld'

end VpnPanel.Backend
