import VpnPanel.Backend.Affected

/-!
# No affected node is forgotten

Each request computes its own set of affected nodes; `handle_covers` follows
every one of them. A peer whose node reports `pending` or `pending_delete`
itself is the one case without a sync.
-/

namespace VpnPanel.Theorems

open VpnPanel.Lib VpnPanel.Backend

/-- **No affected node is forgotten.** A peer that an accepted request created
or moved, and left `pending` or `pending_delete`, has an operation of that
request for its node, unless the request is the node's own report of it. -/
theorem affected_nodes_synced (cfg : Config) (s : Panel) (call : Call) (e : Effect) (q : Peer)
    (hs : (panel cfg).Reachable s) (hok : handle cfg s.db call.now call.request = .ok e)
    (hq : q ∈ e.db.peers) (hout : q.status = .pending ∨ q.status = .pendingDelete)
    (hmoved : ∀ p ∈ s.db.peers, p.id = q.id → p.status ≠ q.status) :
    Synced e q.nodeId call.request ∨ Reports s.db q call.request := by
  obtain ⟨nodes, hall, hqueued⟩ := handle_covers (panel_wf hs) hok
  cases hall q hq with
  | kept hp hsame hst => exact absurd hst (hmoved _ hp hsame.id.symm)
  | announced _ hmem => exact .inl (hqueued _ hmem)
  | confirmed hst =>
      rw [hst] at hout
      rcases hout with hout | hout <;> cases hout
  | reported hrep => exact .inr hrep

/-- A block takes the peer of the account away, and syncs its node. -/
theorem affected_nodes_synced_block :
    ∃ s e q, (panel exampleConfig).replay oneDevice = some s ∧
      handle exampleConfig s.db 3 (.blockUser 1) = .ok e ∧ q ∈ e.db.peers ∧
      q.status = .pendingDelete ∧ .syncNode q.nodeId ∈ e.queued := by
  have hrun : ((panel exampleConfig).replay oneDevice).any (fun s =>
      (handle exampleConfig s.db 3 (.blockUser 1)).toOption.any fun e =>
        e.db.peers.any fun q => q.status = .pendingDelete &&
          s.db.peers.all fun p => p.id = q.id → p.status ≠ q.status) = true := by
    decide +kernel
  obtain ⟨s, hs, hrest⟩ := TSys.replay_any hrun
  obtain ⟨e, he, hrest⟩ := (Option.any_eq_true _ _).mp hrest
  have hok : handle exampleConfig s.db 3 (.blockUser 1) = .ok e := ok_of_toOption he
  obtain ⟨q, hq, hpeer⟩ := List.any_eq_true.mp hrest
  simp only [Bool.and_eq_true, decide_eq_true_eq, List.all_eq_true] at hpeer
  refine ⟨s, e, q, hs, hok, hq, hpeer.1, ?_⟩
  rcases affected_nodes_synced exampleConfig s ⟨3, .blockUser 1⟩ e q (TSys.replay_reachable hs) hok
    hq (.inr hpeer.1) hpeer.2 with hsync | hrep
  · exact hsync
  · exact hrep.elim

/-- A heartbeat that reports an active peer as `pending_delete` moves it, and
nothing is queued for the node. -/
theorem reported_removal_not_synced :
    ∃ s e q, (panel exampleConfig).replay (oneDevice ++ [⟨3, .syncResult 0 {
        peers := [{ publicKey := "public-2", status := some "active" }] }⟩]) = some s ∧
      handle exampleConfig s.db 4 (.heartbeatResult 0 {
        peers := [{ publicKey := "public-2", status := some "pending_delete" }] }) = .ok e ∧
      q ∈ e.db.peers ∧ q.status = .pendingDelete ∧
      (∀ p ∈ s.db.peers, p.id = q.id → p.status = .active) ∧ e.queued = [] := by
  have hrun : ((panel exampleConfig).replay (oneDevice ++ [⟨3, .syncResult 0 {
      peers := [{ publicKey := "public-2", status := some "active" }] }⟩])).any (fun s =>
      (handle exampleConfig s.db 4 (.heartbeatResult 0 {
        peers := [{ publicKey := "public-2", status := some "pending_delete" }] })).toOption.any
        fun e => e.db.peers.any fun q => q.status = .pendingDelete &&
          (s.db.peers.all fun p => p.id = q.id → p.status = .active) && e.queued.isEmpty) =
        true := by
    decide +kernel
  obtain ⟨s, hs, hrest⟩ := TSys.replay_any hrun
  obtain ⟨e, he, hrest⟩ := (Option.any_eq_true _ _).mp hrest
  obtain ⟨q, hq, hpeer⟩ := List.any_eq_true.mp hrest
  simp only [Bool.and_eq_true, decide_eq_true_eq, List.all_eq_true, List.isEmpty_iff] at hpeer
  exact ⟨s, e, q, hs, ok_of_toOption he, hq, hpeer.1.1, hpeer.1.2, hpeer.2⟩

end VpnPanel.Theorems
