import VpnPanel.Backend.SyncSession

/-!
# A sync result and its commits

`node_sync_result` takes its row locks, writes, and commits once at the end.
The limits it enforces on the way queue follow-up operations, and each
`enqueue_operation` commits the same session: the entries are then durable, the
locks are gone, and the confirmations, releases, purge and notification still
stand before a failure. The result is one transaction exactly when its entries
have no limit left to enforce.
-/

namespace VpnPanel.Theorems

open VpnPanel.Lib VpnPanel.Backend

/-- A sync result is applied all or nothing: at every point of failure the
durable tables and notifications show none or all of it, and the rows locked by
`load_node_with_peers` stay locked until the last statement. -/
structure AllOrNothing (cfg : Config) (store : Store) (nodeId : NodeId) (data : SyncResult)
    (now : Time) (publish : Nat → Option String) (id : Nat) : Prop where
  atomic : Session.Atomic Store.effects
    (nodeSyncResultStatements cfg store.db nodeId data now publish id) (Session.start store)
  locked : Session.HoldsLocks (loadNodeWithPeers nodeId).length
    (nodeSyncResultStatements cfg store.db nodeId data now publish id) (Session.start store)

/-- Every entry of a successful result for a known node meets an account whose
limits are enforced already. -/
def Settled (cfg : Config) (db : Db) (nodeId : NodeId) (data : SyncResult) (now : Time) : Prop :=
  data.ok = true → ∀ node ∈ db.node? nodeId,
    EntriesSettled cfg (entryPeer db node.id) now data.peers
      (db.saveNode (syncedNode node data now))

instance (cfg : Config) (db : Db) (nodeId : NodeId) (data : SyncResult) (now : Time) :
    Decidable (Settled cfg db nodeId data now) := by
  unfold Settled
  infer_instance

/-! ## States, failed results included -/

/-- A request, or a sync result that fails after some of its statements. -/
inductive Interruption
  | request (call : Call)
  | failed (now : Time) (nodeId : NodeId) (data : SyncResult) (publish : Nat → Option String)
      (id statements : Nat)

/-- The backend, with sync results that may fail at any point. -/
def interrupted (cfg : Config) : TSys Panel Interruption where
  init := {}
  step s e :=
    match e with
    | .request call => (panel cfg).step s call
    | .failed now nodeId data publish id statements =>
        if now < s.clock then none
        else some ⟨(Session.run
          ((nodeSyncResultStatements cfg s.db nodeId data now publish id).take statements)
          (Session.start { db := s.db })).committed.db, now⟩

variable {cfg : Config}

theorem interrupted_wf {s : Panel} (h : (interrupted cfg).Reachable s) : s.db.WF := by
  refine TSys.Reaches.invariant (P := fun s => s.db.WF) Db.WF.empty ?_ h
  intro s e s' hwf _ hstep
  cases e with
  | request call => exact (panel_step_phases hwf hstep).writes.wf hwf
  | failed now nodeId data publish id statements =>
      simp only [interrupted] at hstep
      split at hstep
      · cases hstep
      · cases hstep
        let store : Store := { db := s.db }
        have hstore : store.db.WF := hwf
        exact nodeSyncResultStatements_wf hstore publish id statements

/-! ## One commit or several -/

section Result

variable {store : Store} {node : Node} {data : SyncResult} {now : Time}

/-- The loop over the entries of a result queues nothing exactly when they are
settled. -/
theorem queued_nil_iff (hwf : store.db.WF) :
    (confirmRemovals cfg (store.db.saveNode (syncedNode node data now)) node.id data
        now).queued = [] ↔
      EntriesSettled cfg (entryPeer store.db node.id) now data.peers
        (store.db.saveNode (syncedNode node data now)) := by
  let st : PeerResults := { db := store.db.saveNode (syncedNode node data now) }
  have hst : st.db.WF := hwf.saveNode _
  have hloop : (applyPeerEntries cfg (entryPeer store.db node.id) now data.peers st).Idle ↔
      st.Idle ∧ EntriesSettled cfg (entryPeer store.db node.id) now data.peers st.db :=
    entries_idle_iff data.peers hst
  rw [queued_eq_nil]
  constructor
  · rintro ⟨h1, h2, h3⟩
    exact (hloop.mp ⟨h1, h2, h3⟩).2
  · intro hsettled
    obtain ⟨h1, h2, h3⟩ := hloop.mpr ⟨⟨rfl, rfl, rfl⟩, hsettled⟩
    exact ⟨h1, h2, h3⟩

/-- One commit at the end makes the result one transaction. -/
theorem allOrNothing_of_quiet {nodeId : NodeId} {publish : Nat → Option String} {id : Nat}
    {p : List (Statement Store RowLock)} (hquiet : ∀ x ∈ p, Session.Quiet x)
    (hp : nodeSyncResultStatements cfg store.db nodeId data now publish id = p ++ [.commit]) :
    AllOrNothing cfg store nodeId data now publish id := by
  constructor
  · rw [hp]
    exact Session.atomic_of_quiet hquiet _
  · rw [hp]
    exact Session.holdsLocks_of_quiet hquiet _

theorem syncResult_of_settled (hwf : store.db.WF)
    (hsettled : EntriesSettled cfg (entryPeer store.db node.id) now data.peers
      (store.db.saveNode (syncedNode node data now))) (publish : Nat → Option String) (id : Nat) :
    ∃ p, (∀ x ∈ p, Session.Quiet x) ∧
      syncResultStatements cfg store.db node data now publish id = p ++ [.commit] := by
  refine ⟨_, ?_, rfl⟩
  rw [(queued_nil_iff hwf).mpr hsettled]
  intro x hx
  rcases List.mem_append.mp hx with hx | hx
  · rcases List.mem_append.mp hx with hx | hx
    · exact openingStatements_quiet _ _ _ _ _ x hx
    · cases hx
  · exact closingStatements_quiet _ _ _ _ x hx

/-- The rows of the node's peers are among those locked first. -/
theorem peer_locked {peer : Peer} (hp : peer ∈ store.db.peersOfNode node.id)
    (rest : List (Statement Store RowLock)) :
    .peer peer.id ∈ (Session.run
      ((loadNodeWithPeers node.id ++ rest).take (loadNodeWithPeers node.id).length)
      (Session.start store)).locked := by
  rw [List.take_left]
  refine List.mem_append_right _ ?_
  exact List.mem_map_of_mem hp

/-- **A commit in the middle.** A result whose entries are not settled is durable
in part once the first operation row is committed, and its locks are gone. -/
theorem unsettled_neither (hwf : store.db.WF)
    (hunsettled : ¬EntriesSettled cfg (entryPeer store.db node.id) now data.peers
      (store.db.saveNode (syncedNode node data now))) (publish : Nat → Option String) (id : Nat) :
    ¬Session.Atomic Store.effects (syncResultStatements cfg store.db node data now publish id)
        (Session.start store) ∧
      ¬Session.HoldsLocks (loadNodeWithPeers node.id).length
        (syncResultStatements cfg store.db node data now publish id) (Session.start store) := by
  let st : PeerResults := { db := store.db.saveNode (syncedNode node data now) }
  have hst : st.db.WF := hwf.saveNode _
  let results := confirmRemovals cfg st.db node.id data now
  have hqueued : results.queued ≠ [] := fun h => hunsettled ((queued_nil_iff hwf).mp h)
  -- what the entries left behind when they queued the first operation
  have hrecorded : Recorded st
      (applyPeerEntries cfg (entryPeer store.db node.id) now data.peers st) :=
    entries_recorded data.peers hst
  have hbusy : ¬(applyPeerEntries cfg (entryPeer store.db node.id) now data.peers st).Idle :=
    fun hidle => hunsettled ((entries_idle_iff data.peers hst).mp hidle).2
  obtain ⟨hledger, howners⟩ := hrecorded.busy ⟨rfl, rfl, rfl⟩ hbusy
  obtain ⟨command, commands, hcommands⟩ := List.exists_cons_of_ne_nil hqueued
  -- the statements up to the row of the first operation, and those after its commit
  let row : Statement Store RowLock := .write fun store =>
    { store with operations := store.operations ++ [newOperation command.job id (id + 1) now] }
  obtain ⟨more, hmore⟩ : ∃ more, enqueueOperations now publish (command :: commands) id =
      row :: .commit :: more := ⟨_, rfl⟩
  obtain ⟨rest, hrest, hprogram⟩ : ∃ rest, rest ≠ [] ∧
      syncResultStatements cfg store.db node data now publish id =
        (openingStatements cfg store.db node data now ++ [row]) ++ .commit :: rest := by
    refine ⟨more ++ closingStatements node.id (data.peers.map (·.publicKey))
      results.acknowledgedOwnerIds now ++ [.commit], by simp, ?_⟩
    show openingStatements cfg store.db node data now ++
      enqueueOperations now publish results.queued id ++ _ ++ _ = _
    rw [hcommands, hmore]
    simp [results, st]
  have heffect : (Session.effect (openingStatements cfg store.db node data now ++ [row])
      store).effects =
        ((applyPeerEntries cfg (entryPeer store.db node.id) now data.peers st).db,
          store.notified) := by
    rw [Session.effect_append, effect_openingStatements]
    rfl
  constructor
  · have hfinal := run_syncResultStatements cfg store node data now publish id
    rw [hprogram] at hfinal ⊢
    apply Session.not_atomic_of_commit
    · -- the ledger has grown
      show Store.effects (Session.effect _ store) ≠ store.effects
      rw [heffect]
      intro heq
      rw [(Prod.mk.inj heq).1] at hledger
      exact absurd hledger (lt_irrefl _)
    · -- the notification is still to be recorded
      show Store.effects (Session.effect _ store) ≠ _
      rw [heffect, hfinal]
      intro heq
      have hnone := (List.self_eq_append_right.mp (Prod.mk.inj heq).2)
      have hall := sortedSet_eq_nil.mp hnone
      have hentries : (applyPeerEntries cfg (entryPeer store.db node.id) now data.peers
          st).acknowledgedOwnerIds = [] := (List.append_eq_nil_iff.mp hall).1
      rw [hentries] at howners
      exact absurd howners (Nat.not_lt_zero _)
  · -- the node has a peer, or no entry would have done anything
    obtain ⟨peer, hpeer⟩ : ∃ peer, peer ∈ store.db.peersOfNode node.id := by
      by_contra hnone
      have hempty : store.db.peersOfNode node.id = [] :=
        List.eq_nil_iff_forall_not_mem.mpr fun p hp => hnone ⟨p, hp⟩
      have hloaded : ∀ key, entryPeer store.db node.id key = none := by
        intro key
        simp [entryPeer, peerByPublicKey, hempty]
      rw [entries_of_none hloaded] at howners
      exact absurd howners (lt_irrefl _)
    rw [hprogram]
    have hlock : .peer peer.id ∈ (Session.run
        ((openingStatements cfg store.db node data now ++ [row]).take
          (loadNodeWithPeers node.id).length) (Session.start store)).locked := by
      unfold openingStatements
      rw [List.append_assoc]
      exact peer_locked hpeer _
    exact Session.not_holdsLocks_of_commit (by simp [openingStatements]) hrest hlock

end Result

/-- **A sync result is one transaction exactly when it is settled.** In every
state, after any failures, a result is applied all or nothing under its first
locks if and only if no entry of it has a limit left to enforce. -/
theorem sync_result_atomic_iff (cfg : Config) {s : Panel} (h : (interrupted cfg).Reachable s)
    (operations : List AsyncOperation) (notified : List UserId) (nodeId : NodeId)
    (data : SyncResult) (now : Time) (publish : Nat → Option String) (id : Nat) :
    AllOrNothing cfg ⟨s.db, operations, notified⟩ nodeId data now publish id ↔
      Settled cfg s.db nodeId data now := by
  let store : Store := ⟨s.db, operations, notified⟩
  have hwf : store.db.WF := interrupted_wf h
  cases hnode : s.db.node? nodeId with
  | none =>
      -- 404: there is no statement
      have hp : nodeSyncResultStatements cfg store.db nodeId data now publish id = [] := by
        simp only [nodeSyncResultStatements, store, hnode]
      refine ⟨fun _ _ node hn => ?_, fun _ => ⟨?_, ?_⟩⟩
      · rw [hnode] at hn
        cases hn
      · intro n
        rw [hp, List.take_nil]
        exact .inl rfl
      · intro n _ hn
        rw [hp] at hn
        exact absurd hn (Nat.not_lt_zero _)
  | some node =>
      have hid : node.id = nodeId := Rows.key_of_get? hnode
      by_cases hok : data.ok = true
      · have hp : nodeSyncResultStatements cfg store.db nodeId data now publish id =
            syncResultStatements cfg store.db node data now publish id := by
          simp only [nodeSyncResultStatements, store, hnode, hok]
          rfl
        constructor
        · intro hall _ stored hstored
          rw [hnode] at hstored
          cases hstored
          by_contra hunsettled
          have hatomic := hall.atomic
          rw [hp] at hatomic
          exact (unsettled_neither hwf hunsettled publish id).1 hatomic
        · intro hsettled
          obtain ⟨p, hquiet, hcommit⟩ :=
            syncResult_of_settled hwf (hsettled hok node hnode) publish id
          exact allOrNothing_of_quiet hquiet (hp.trans hcommit)
      · -- a failed result enforces no limit
        refine ⟨fun _ hgood => absurd hgood hok, fun _ => ?_⟩
        refine allOrNothing_of_quiet (p := loadNodeWithPeers node.id ++
          [.write (Store.onDb (·.saveNode (failedNode node data))),
            .write (notifyUserChanges ((s.db.peersOfNode node.id).map (·.userId)))]) ?_ ?_
        · intro x hx
          simp only [loadNodeWithPeers, List.cons_append, List.nil_append, List.mem_cons,
            List.not_mem_nil, or_false] at hx
          rcases hx with rfl | rfl | rfl | rfl | rfl <;> trivial
        · simp only [nodeSyncResultStatements, hnode, hok]
          rfl

/-- A local account with a limit of 100 bytes and an installed device, and
another account whose device was deleted but not yet removed from the node. -/
def limitedAccount : List Interruption := [
  .request ⟨0, .addNode { name := "a", url := "http://a", token := "t" }⟩,
  .request ⟨1, .addUser "alice" 1⟩,
  .request ⟨2, .updateLocalLifecycle 1 { trafficLimitBytes := 100 }⟩,
  .request ⟨3, .addDevice 1 "phone"⟩,
  .request ⟨4, .addUser "bob" 1⟩,
  .request ⟨5, .addDevice 4 "tablet"⟩,
  .request ⟨6, .syncResult 0 { peers := [
    { publicKey := "public-2", status := some "active", rxBytes := some 0, txBytes := some 0 },
    { publicKey := "public-5", status := some "active" }] }⟩,
  .request ⟨7, .deleteDevice 4 5⟩]

/-- The node reports a reading of the first device, and no longer lists the
second. -/
def readingOf (rxBytes : Nat) : SyncResult where
  peers := [{ publicKey := "public-2", rxBytes := some rxBytes, txBytes := some 0 }]

/-- Under the limit the result is one transaction. -/
theorem sync_result_atomic_unlimited :
    ∃ s, (interrupted exampleConfig).replay limitedAccount = some s ∧
      AllOrNothing exampleConfig ⟨s.db, [], []⟩ 0 (readingOf 50) 8 (fun _ => none) 0 := by
  have hrun : ((interrupted exampleConfig).replay limitedAccount).any (fun s =>
      Settled exampleConfig s.db 0 (readingOf 50) 8) = true := by decide +kernel
  obtain ⟨s, hs, hsettled⟩ := TSys.replay_any hrun
  exact ⟨s, hs, (sync_result_atomic_iff exampleConfig (TSys.replay_reachable hs) [] [] 0
    (readingOf 50) 8 (fun _ => none) 0).mpr (of_decide_eq_true hsettled)⟩

/-- The session of a reading of 100 bytes after `statements` of its statements. -/
def readingAfter (s : Panel) (statements : Nat) : Session Store RowLock :=
  Session.run ((nodeSyncResultStatements exampleConfig s.db 0 (readingOf 100) 8 (fun _ => none)
    0).take statements) (Session.start { db := s.db })

/-- A failure right after the operation row of the reached limit is committed:
the traffic and the block are durable, the removal of the other peer and the
notification are not, and no lock is held. -/
theorem sync_result_torn :
    ∃ s, (interrupted exampleConfig).Reachable s ∧
      (readingAfter s 7).committed.db.peers.map (·.status) = [.pendingDelete, .pendingDelete] ∧
      (readingAfter s 7).committed.db.traffic.deltas.length = 1 ∧
      (readingAfter s 7).committed.notified = [] ∧ (readingAfter s 7).locked = [] ∧
      ¬AllOrNothing exampleConfig ⟨s.db, [], []⟩ 0 (readingOf 100) 8 (fun _ => none) 0 := by
  have hrun : ((interrupted exampleConfig).replay limitedAccount).any (fun s =>
      (readingAfter s 7).committed.db.peers.map (·.status) = [.pendingDelete, .pendingDelete] ∧
      (readingAfter s 7).committed.db.traffic.deltas.length = 1 ∧
      (readingAfter s 7).committed.notified = [] ∧ (readingAfter s 7).locked = [] ∧
      s.db.traffic.deltas.length = 0 ∧
      (Session.run (nodeSyncResultStatements exampleConfig s.db 0 (readingOf 100) 8
        (fun _ => none) 0) (Session.start { db := s.db })).committed.notified ≠ []) = true := by
    decide +kernel
  obtain ⟨s, hs, hfacts⟩ := TSys.replay_any hrun
  obtain ⟨hpeers, hledger, hsilent, hlocks, hbefore, hafter⟩ := of_decide_eq_true hfacts
  refine ⟨s, TSys.replay_reachable hs, hpeers, hledger, hsilent, hlocks, fun hall => ?_⟩
  rcases hall.atomic 7 with hnone | hwhole
  · have hsame : (readingAfter s 7).committed.db.traffic.deltas.length =
        s.db.traffic.deltas.length :=
      congrArg (fun effects : Db × List UserId => effects.1.traffic.deltas.length) hnone
    rw [hledger, hbefore] at hsame
    cases hsame
  · exact hafter ((congrArg Prod.snd hwhole).symm.trans hsilent)

end VpnPanel.Theorems
