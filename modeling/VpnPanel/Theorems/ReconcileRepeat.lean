import VpnPanel.Backend.Departures

/-!
# A reconcile completed twice

`remnawave_reconcile_complete` called again with the same list, after nothing
but node sync results: when the second call affects no node, queues no sync and
leaves the peers of stale accounts as they are. `mark_remnawave_user_stale`
compares with `pending_delete` only, so it takes a peer whose removal a node has
confirmed for one that is not going away yet.
-/

namespace VpnPanel.Theorems

open VpnPanel.Lib VpnPanel.Backend

variable {cfg : Config} {db : Db} {seen : List String}

/-- The call is a sync result. -/
def isSyncResult (call : Call) : Bool :=
  match call.request with
  | .syncResult _ _ => true
  | _ => false

/-- A reconcile with the list `seen` was completed in a reachable panel, and
only sync results followed until `t`. -/
structure Reconciled (cfg : Config) (seen : List String) (t : Panel) : Prop where
  intro ::
  exists_run : ∃ s s' now steps, (panel cfg).Reachable s ∧
    (panel cfg).step s ⟨now, .reconcileComplete seen⟩ = some s' ∧ (panel cfg).Trace s' steps t ∧
    ∀ x ∈ steps, isSyncResult x.2 = true

/-- What a second completion should do. -/
structure RepeatsNothing (db : Db) (effect : Effect) : Prop where
  affected : ∃ purged, effect.reply = .reconciled purged []
  queued : effect.queued = []
  kept : ∀ r ∈ db.profiles, r.syncStatus = .stale → ∀ p ∈ db.peers, p.userId = r.userId →
    ∃ q ∈ effect.db.peers, q.id = p.id ∧ q.status = p.status

/-- A peer of an account the list leaves out is confirmed removed. -/
def MissingPeerDeleted (seen : List String) (db : Db) : Prop :=
  ∃ r ∈ db.profiles, r.remnawaveUuid ∉ seen ∧
    ∃ p ∈ db.peers, p.userId = r.userId ∧ p.status = .deleted

/-! ## Between the two calls -/

/-- No peer of a missing account is live, and no account waits for the purge. -/
structure Departed (seen : List String) (db : Db) : Prop where
  going : ∀ r ∈ db.profiles, r.remnawaveUuid ∉ seen → Going r.userId db
  swept : db.Swept

theorem departed_reconcile (hwf : db.WF) (seen : List String) :
    Departed seen (purgeConfirmedRemnawaveDeletes
      (reconcileMissingRemnawaveUsers db seen).2).2 := by
  have hwf' := (reconcileMissingRemnawaveUsers_writes hwf seen).wf hwf
  refine ⟨fun r hr hmissing p hp hu => ?_, swept_purge hwf'⟩
  obtain ⟨hr, -⟩ := (mem_purge_profiles hwf').mp hr
  obtain ⟨old, hold, howner, huuid, -⟩ := reconcileMissing_profile hwf hr
  rw [(purge_spec _).peers, reconcileMissing_peers hwf] at hp
  obtain ⟨q, hq, rfl⟩ := List.mem_map.mp (List.mem_filter.mp hp).1
  by_cases h : q.userId ∈ missingOwners db seen
  · rw [if_pos h]
    rfl
  · -- a peer of the account belongs to a missing one
    rw [if_neg h] at hu
    exact absurd (mem_missingOwners.mpr ⟨old, hold, huuid ▸ hmissing, howner.trans hu.symm⟩) h

/-- A sync result revives no peer of a missing account, and ends with a
purge. -/
theorem Departed.syncResult (hwf : db.WF) (h : Departed seen db) {node : Node}
    (hn : node ∈ db.nodes) (data : SyncResult) (now : Time) :
    Departed seen (applySyncResult cfg db node data now).db := by
  let confirmed :=
    (confirmRemovals cfg (db.saveNode (syncedNode node data now)) node.id data now).db
  let released := releaseDeviceIps confirmed (releasedCandidates confirmed node.id) now
  have hwfc : confirmed.WF := Writes.wf (syncConfirmed_writes hwf hn data now) hwf
  have hrelease : Writes Releases confirmed released := releaseDeviceIps_writes hwfc _ now
  have hwfr : released.WF := hrelease.wf hwfc
  obtain ⟨hprofiles, -, hpeers⟩ := releases_frame hrelease
  refine ⟨fun r hr hmissing p hp hu => ?_, swept_purge hwfr⟩
  obtain ⟨hr, -⟩ := (mem_purge_profiles hwfr).mp hr
  have hmem : r ∈ db.profiles := by
    have hc : confirmed.profiles = db.profiles := syncConfirmed_profiles hwf hn data now
    rwa [hprofiles, hc] at hr
  have hrow : db.profileOf? r.userId = some r := hwf.profileUsers.get?_eq_some hmem
  have hgoing := h.going r hmem hmissing
  have hmoves : Moves r.userId _ db confirmed := sync_moves hwf hrow hgoing node data now
  have hp' : p ∈ released.peers := by
    have hkept : p ∈ (purgeConfirmedRemnawaveDeletes released).2.peers := hp
    rw [(purge_spec released).peers] at hkept
    exact (List.mem_filter.mp hkept).1
  rw [hpeers] at hp'
  exact hmoves.going (fun q hq hqu => syncStatus_going node data now (hgoing q hq hqu)) p hp' hu

theorem Departed.request {call : Call} {e : Effect} (hwf : db.WF) (h : Departed seen db)
    (hsync : isSyncResult call = true) (hok : handle cfg db call.now call.request = .ok e) :
    Departed seen e.db := by
  obtain ⟨now, request⟩ := call
  unfold isSyncResult at hsync
  cases request with
  | syncResult nodeId data =>
      obtain ⟨node, hn, ⟨-, he⟩ | ⟨-, he⟩⟩ := nodeSyncResult_ok hok
      · -- a failed result writes the node row only
        rw [he]
        exact ⟨h.going, h.swept⟩
      · rw [he]
        exact h.syncResult hwf (Rows.mem_of_get? hn) data now
  | _ => cases hsync

theorem Departed.trace {s t : Panel} {steps : List (Panel × Call)}
    (htrace : (panel cfg).Trace s steps t) (hsync : ∀ x ∈ steps, isSyncResult x.2 = true)
    (hwf : s.db.WF) (h : Departed seen s.db) : t.db.WF ∧ Departed seen t.db :=
  panel_trace_keeps (fun hwf h hsync hok => Departed.request hwf h hsync hok) htrace hsync hwf h

theorem Reconciled.departed {t : Panel} (h : Reconciled cfg seen t) :
    t.db.WF ∧ Departed seen t.db := by
  obtain ⟨s, s', now, steps, hreach, hstep, htrace, hsync⟩ := h
  have hwf := panel_wf hreach
  have hstart : Departed seen s'.db := by
    obtain ⟨-, rfl⟩ := panel_step hstep
    exact departed_reconcile hwf seen
  exact Departed.trace htrace hsync ((panel_step_phases hwf hstep).writes.wf hwf) hstart

/-! ## The second call -/

/-- The second call affects a node exactly when a peer of a missing account is
not `pending_delete`. -/
theorem affected_eq_nil_iff (hwf : db.WF) (h : Departed seen db) :
    (reconcileMissingRemnawaveUsers db seen).1 = [] ↔ ¬MissingPeerDeleted seen db := by
  rw [List.eq_nil_iff_forall_not_mem]
  constructor
  · rintro hnone ⟨r, hr, hmissing, p, hp, hu, hst⟩
    refine hnone p.nodeId (((reconcileMissing_spec hwf seen).affected _).mpr ⟨p, hp, ?_, ?_, rfl⟩)
    · exact mem_missingOwners.mpr ⟨r, hr, hmissing, hu.symm⟩
    · rw [hst]
      simp
  · intro hnot nodeId hmem
    obtain ⟨p, hp, howner, hst, -⟩ := ((reconcileMissing_spec hwf seen).affected _).mp hmem
    obtain ⟨r, hr, hmissing, hu⟩ := mem_missingOwners.mp howner
    have hgoing := h.going r hr hmissing p hp hu.symm
    refine hnot ⟨r, hr, hmissing, p, hp, hu.symm, ?_⟩
    cases hs : p.status with
    | pending => simp [hs, PeerStatus.live] at hgoing
    | active => simp [hs, PeerStatus.live] at hgoing
    | pendingDelete => exact absurd hs hst
    | deleted => rfl

/-- With no such peer, the second call moves no peer and purges nobody. -/
theorem reconcile_peers_kept (hwf : db.WF) (h : Departed seen db)
    (hnot : ¬MissingPeerDeleted seen db) :
    (purgeConfirmedRemnawaveDeletes (reconcileMissingRemnawaveUsers db seen).2).2.peers =
      db.peers := by
  have hpeers : (reconcileMissingRemnawaveUsers db seen).2.peers = db.peers := by
    rw [reconcileMissing_peers hwf]
    conv_rhs => rw [← List.map_id db.peers]
    apply List.map_congr_left
    intro p hp
    by_cases howner : p.userId ∈ missingOwners db seen
    · have hst : p.status = .pendingDelete := by
        by_contra hst
        have hnone := (affected_eq_nil_iff hwf h).mpr hnot
        have hmem := ((reconcileMissing_spec hwf seen).affected p.nodeId).mpr
          ⟨p, hp, howner, hst, rfl⟩
        rw [hnone] at hmem
        cases hmem
      rw [if_pos howner, ← hst]
      rfl
    · rw [if_neg howner]
      rfl
  have hswept : (reconcileMissingRemnawaveUsers db seen).2.Swept := by
    intro r hr
    obtain ⟨old, hold, howner, -, hreq⟩ := reconcileMissing_profile hwf hr
    rw [← h.swept old hold]
    unfold purgeable Db.peersOf
    rw [hpeers, howner, hreq]
  rw [hswept.purge, hpeers]

/-- **Repeated completion.** A second `remnawave_reconcile_complete` with the
same list, after any sync results, repeats nothing exactly when no peer of an
account the list leaves out is confirmed removed by then. -/
theorem reconcile_repeat_iff (cfg : Config) (seen : List String) (t : Panel)
    (h : Reconciled cfg seen t) :
    (∃ effect, remnawaveReconcileComplete t.db seen = .ok effect ∧
      RepeatsNothing t.db effect) ↔ ¬MissingPeerDeleted seen t.db := by
  obtain ⟨hwf, hdep⟩ := h.departed
  constructor
  · rintro ⟨effect, he, hrep⟩
    obtain ⟨purged, hreply⟩ := hrep.affected
    cases he
    have hsorted : sortedSet (reconcileMissingRemnawaveUsers t.db seen).1 = [] := by
      injection hreply
    exact (affected_eq_nil_iff hwf hdep).mp (sortedSet_eq_nil.mp hsorted)
  · intro hnot
    have hnone := (affected_eq_nil_iff hwf hdep).mpr hnot
    refine ⟨_, rfl, ?_, ?_, ?_⟩
    · show ∃ purged, Reply.reconciled _ (sortedSet (reconcileMissingRemnawaveUsers t.db seen).1) = _
      rw [hnone]
      exact ⟨_, rfl⟩
    · show enqueueSyncNodes (reconcileMissingRemnawaveUsers t.db seen).1 = []
      rw [hnone]
      rfl
    · intro r _ _ p hp _
      refine ⟨p, ?_, rfl, rfl⟩
      show p ∈ (purgeConfirmedRemnawaveDeletes (reconcileMissingRemnawaveUsers t.db seen).2).2.peers
      rw [reconcile_peers_kept hwf hdep hnot]
      exact hp

/-- A replay with one completed reconcile, followed by sync results. -/
theorem reconciled_of_replay {before syncs : List Call} {now : Time} {t : Panel}
    (h : (panel cfg).replay (before ++ ⟨now, .reconcileComplete seen⟩ :: syncs) = some t)
    (hsync : ∀ call ∈ syncs, isSyncResult call = true) : Reconciled cfg seen t := by
  unfold TSys.replay at h
  rw [TSys.replayFrom_append] at h
  obtain ⟨s, hs, h⟩ := Option.bind_eq_some_iff.mp h
  obtain ⟨s', hstep, h⟩ := Option.bind_eq_some_iff.mp h
  have hok : (panel cfg).ReplayOk (fun _ call => isSyncResult call = true) s' syncs :=
    TSys.replayOk_of_forall syncs (fun call hcall _ => hsync call hcall) s'
  obtain ⟨steps, htrace, hsteps⟩ := TSys.Trace.of_replayOk syncs hok h
  exact ⟨s, s', now, steps, TSys.replay_reachable hs, hstep, htrace, hsteps⟩

/-- An imported account with a device that is installed on a node, and is then
missing from a reconcile. -/
def importedDevice : List Call := [
  ⟨0, .addNode { name := "a", url := "http://a", token := "t" }⟩,
  ⟨1, .upsert [{ uuid := "x", username := "alice", status := "ACTIVE" }]⟩,
  ⟨2, .addDevice 1 "phone"⟩,
  ⟨3, .syncResult 0 { peers := [{ publicKey := "public-2", status := some "active" }] }⟩]

/-- While the node still lists the key, the repeated call repeats nothing. -/
theorem reconcile_repeat_listed :
    ∃ t, (panel exampleConfig).replay (importedDevice ++ [⟨4, .reconcileComplete []⟩,
        ⟨5, .syncResult 0 { peers := [{ publicKey := "public-2", status := some "active" }] }⟩]) =
          some t ∧ t.db.peers.length = 1 ∧
      ∃ effect, remnawaveReconcileComplete t.db [] = .ok effect ∧
        RepeatsNothing t.db effect := by
  have hrun : ((panel exampleConfig).replay (importedDevice ++ [⟨4, .reconcileComplete []⟩,
      ⟨5, .syncResult 0 { peers := [{ publicKey := "public-2", status := some "active" }] }⟩])).any
      (fun t => t.db.peers.length = 1 ∧ ∀ p ∈ t.db.peers, p.status ≠ .deleted) = true := by
    decide +kernel
  obtain ⟨t, ht, hfacts⟩ := TSys.replay_any hrun
  obtain ⟨hlen, hkept⟩ := of_decide_eq_true hfacts
  have hrec : Reconciled exampleConfig [] t := reconciled_of_replay ht (by simp [isSyncResult])
  refine ⟨t, ht, hlen, (reconcile_repeat_iff exampleConfig [] t hrec).mpr ?_⟩
  rintro ⟨r, -, -, p, hp, -, hst⟩
  exact hkept p hp hst

/-- Once the node has confirmed the removal, the repeated call affects the node
again and takes the peer back to `pending_delete`. -/
theorem reconcile_repeat_reopens :
    ∃ t, Reconciled exampleConfig [] t ∧
      ¬∃ effect, remnawaveReconcileComplete t.db [] = .ok effect ∧
        RepeatsNothing t.db effect := by
  have hrun : ((panel exampleConfig).replay (importedDevice ++ [⟨4, .reconcileComplete []⟩,
      ⟨5, .syncResult 0 {}⟩])).any (fun t =>
        sortedSet (reconcileMissingRemnawaveUsers t.db []).1 = [0]) = true := by decide +kernel
  obtain ⟨t, ht, haffected⟩ := TSys.replay_any hrun
  refine ⟨t, reconciled_of_replay ht (by simp [isSyncResult]), ?_⟩
  rintro ⟨effect, he, hrep⟩
  obtain ⟨purged, hreply⟩ := hrep.affected
  cases he
  have hsorted : sortedSet (reconcileMissingRemnawaveUsers t.db []).1 = [] := by injection hreply
  rw [of_decide_eq_true haffected] at hsorted
  cases hsorted

end VpnPanel.Theorems
