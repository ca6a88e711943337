import VpnPanel.Backend.Leaving

/-!
# Delete-requested accounts are purged

`purge_confirmed_remnawave_deletes` runs at the end of a completed reconcile and
of a sync result. It never takes an account with a peer whose removal was not
confirmed. It misses an account that has no peer at all, and one whose confirmed
peers an earlier part of the same transaction took back to `pending_delete`.
-/

namespace VpnPanel.Theorems

open VpnPanel.Lib VpnPanel.Backend

variable {cfg : Config} {db : Db} {seen : List String}

/-- The account asked to be deleted, and every peer of it is gone. -/
def Confirmed (gone : Peer → Prop) (db : Db) (r : RemnawaveUser) : Prop :=
  r.deleteRequestedAt.isSome ∧ ∀ p ∈ db.peers, p.userId = r.userId → gone p

/-- A transaction from `db` to `db'` leaves no account whose peers are all gone,
and deletes no other. -/
structure PurgesExactly (gone : Peer → Prop) (db db' : Db) : Prop where
  purged : ∀ r ∈ db'.profiles, ¬Confirmed gone db r
  spared : ∀ x ∈ db.users, (∀ y ∈ db'.users, y.id ≠ x.id) →
    ∀ p ∈ db.peers, p.userId = x.id → gone p

/-- A reconcile confirms no removal itself. -/
def GoneBefore (p : Peer) : Prop := p.status = .deleted

/-- The peer was deleted before the sync result, or the result confirms its
removal. -/
def GoneBy (db : Db) (nodeId : NodeId) (data : SyncResult) (p : Peer) : Prop :=
  p.status = .deleted ∨ confirmsRemoval db nodeId data p = true

/-- A completed reconcile misses an account: it has no peer, or the list leaves
it out. -/
def MissedByReconcile (seen : List String) (db : Db) : Prop :=
  ∃ r ∈ db.profiles, Confirmed GoneBefore db r ∧
    ((∀ p ∈ db.peers, p.userId ≠ r.userId) ∨ r.remnawaveUuid ∉ seen)

/-- A sync result misses an account: it has no peer, or an entry reopens one
whose key the node still lists or which is on another node. -/
def MissedBySync (cfg : Config) (db : Db) (node : Node) (data : SyncResult) (now : Time) : Prop :=
  ∃ r ∈ db.profiles, Confirmed (GoneBy db node.id data) db r ∧
    ((∀ p ∈ db.peers, p.userId ≠ r.userId) ∨
      ∃ p ∈ db.peers, p.userId = r.userId ∧ syncReopens cfg db node data now p = true ∧
        unlisted db node.id data p = false)

/-! ## The purge of a transaction -/

/-- `mid` are the tables the purge of a transaction from `db` finds: the same
accounts, and the same requests. -/
structure Meets (db mid : Db) : Prop where
  fwd : ∀ r ∈ db.profiles, ∃ r' ∈ mid.profiles,
    r.userId = r'.userId ∧ r.deleteRequestedAt = r'.deleteRequestedAt
  back : ∀ r' ∈ mid.profiles, ∃ r ∈ db.profiles,
    r.userId = r'.userId ∧ r.deleteRequestedAt = r'.deleteRequestedAt
  users : ∀ x ∈ db.users, ∃ y ∈ mid.users, y.id = x.id

/-- Where the purge takes the accounts that have a peer, whose peers are all
gone and that meet `keep`, it misses those without a peer and those that do
not. -/
theorem purges_exactly_iff {mid : Db} (hwf : mid.WF) (hmeets : Meets db mid)
    {gone : Peer → Prop} (keep : RemnawaveUser → Prop)
    (hpurge : ∀ r ∈ db.profiles, ∀ r' ∈ mid.profiles, r.userId = r'.userId →
      r.deleteRequestedAt = r'.deleteRequestedAt → (purgeable mid r' = true ↔
        (∃ p ∈ db.peers, p.userId = r.userId) ∧ Confirmed gone db r ∧ keep r)) :
    PurgesExactly gone db (purgeConfirmedRemnawaveDeletes mid).2 ↔
      ¬∃ r ∈ db.profiles, Confirmed gone db r ∧
        ((∀ p ∈ db.peers, p.userId ≠ r.userId) ∨ ¬keep r) := by
  constructor
  · rintro hpurges ⟨r, hr, hconf, hmiss⟩
    obtain ⟨r', hr', howner, hreq⟩ := hmeets.fwd r hr
    refine hpurges.purged r' ((mem_purge_profiles hwf).mpr ⟨hr', ?_⟩) ?_
    · rw [← Bool.not_eq_true, hpurge r hr r' hr' howner hreq]
      rintro ⟨⟨p, hp, hpu⟩, -, hkeep⟩
      rcases hmiss with hnone | hnot
      · exact hnone p hp hpu
      · exact hnot hkeep
    · unfold Confirmed at hconf ⊢
      rwa [← howner, ← hreq]
  · intro hnot
    refine ⟨fun r' hr' hconf => ?_, fun x hx hgone p hp hpx => ?_⟩
    · obtain ⟨hr', hkept⟩ := (mem_purge_profiles hwf).mp hr'
      obtain ⟨r, hr, howner, hreq⟩ := hmeets.back r' hr'
      have hconf' : Confirmed gone db r := by
        unfold Confirmed at hconf ⊢
        rwa [howner, hreq]
      rw [← Bool.not_eq_true, hpurge r hr r' hr' howner hreq] at hkept
      -- the account was to be purged, unless the transaction misses it
      by_cases hpeers : ∃ p ∈ db.peers, p.userId = r.userId
      · by_cases hkeep : keep r
        · exact hkept ⟨hpeers, hconf', hkeep⟩
        · exact hnot ⟨r, hr, hconf', .inr hkeep⟩
      · exact hnot ⟨r, hr, hconf', .inl fun p hp hpu => hpeers ⟨p, hp, hpu⟩⟩
    · have hpurged : x.id ∈ purgedOwners mid := by
        by_contra hout
        obtain ⟨y, hy, hyx⟩ := hmeets.users x hx
        refine hgone y ?_ hyx
        rw [(purge_spec mid).users]
        exact List.mem_filter.mpr ⟨hy, by simpa [hyx] using hout⟩
      obtain ⟨r', hr', hrx⟩ := List.mem_map.mp hpurged
      obtain ⟨hr', hpurgeable⟩ := List.mem_filter.mp hr'
      obtain ⟨r, hr, howner, hreq⟩ := hmeets.back r' hr'
      rw [hpurge r hr r' hr' howner hreq] at hpurgeable
      exact hpurgeable.2.1.2 p hp ((hpx.trans hrx.symm).trans howner.symm)

/-! ## A completed reconcile -/

/-- Only an account on the list, with a peer and every peer deleted, is
purged. -/
theorem purgeable_reconcile (hwf : db.WF) {old r : RemnawaveUser} (hold : old ∈ db.profiles)
    (howner : old.userId = r.userId) (hreq : old.deleteRequestedAt = r.deleteRequestedAt) :
    purgeable (reconcileMissingRemnawaveUsers db seen).2 r = true ↔
      (∃ p ∈ db.peers, p.userId = old.userId) ∧ Confirmed GoneBefore db old ∧
        old.remnawaveUuid ∈ seen := by
  have hmiss : old.userId ∈ missingOwners db seen ↔ old.remnawaveUuid ∉ seen := by
    rw [mem_missingOwners]
    constructor
    · rintro ⟨x, hx, huuid, hid⟩
      rwa [← hwf.profileUsers.eq_of_key hx hold hid]
    · intro huuid
      exact ⟨old, hold, huuid, rfl⟩
  rw [purgeable_iff, reconcileMissing_peers hwf, ← howner, ← hreq]
  constructor
  · rintro ⟨hsome, ⟨q, hq, hqu⟩, hall⟩
    obtain ⟨p, hp, rfl⟩ := List.mem_map.mp hq
    have hpu : p.userId = old.userId := by
      split at hqu <;> exact hqu
    -- were the account missing, this peer would be going again
    have hseen : old.userId ∉ missingOwners db seen := by
      intro hin
      have hst := hall _ hq hqu
      rw [if_pos (hpu ▸ hin)] at hst
      cases hst
    refine ⟨⟨p, hp, hpu⟩, ⟨hsome, fun x hx hxu => ?_⟩, ?_⟩
    · have hkept : (if x.userId ∈ missingOwners db seen then { x with status := .pendingDelete }
          else x) = x := if_neg (hxu ▸ hseen)
      exact hall x (List.mem_map.mpr ⟨x, hx, hkept⟩) hxu
    · rw [hmiss] at hseen
      exact not_not.mp hseen
  · rintro ⟨⟨p, hp, hpu⟩, ⟨hsome, hall⟩, hin⟩
    have hkept : ∀ x : Peer, x.userId = old.userId → (if x.userId ∈ missingOwners db seen then
        { x with status := .pendingDelete } else x) = x := by
      intro x hxu
      refine if_neg fun hx => ?_
      rw [hxu, hmiss] at hx
      exact hx hin
    refine ⟨hsome, ⟨p, List.mem_map.mpr ⟨p, hp, hkept p hpu⟩, hpu⟩, fun q hq hqu => ?_⟩
    obtain ⟨x, hx, rfl⟩ := List.mem_map.mp hq
    have hxu : x.userId = old.userId := by
      split at hqu <;> exact hqu
    rw [hkept x hxu]
    exact hall x hx hxu

theorem meets_reconcile (hwf : db.WF) (seen : List String) :
    Meets db (reconcileMissingRemnawaveUsers db seen).2 := by
  rw [(reconcileMissing_spec hwf seen).tables]
  refine ⟨fun r hr => ⟨_, List.mem_map_of_mem hr, ?_⟩, fun r' hr' => ?_,
    fun x hx => ⟨_, List.mem_map_of_mem hx, ?_⟩⟩
  · split <;> exact ⟨rfl, rfl⟩
  · obtain ⟨r, hr, rfl⟩ := List.mem_map.mp hr'
    refine ⟨r, hr, ?_⟩
    split <;> exact ⟨rfl, rfl⟩
  · split <;> rfl

theorem reconcile_purges_iff (hwf : db.WF) (seen : List String) :
    PurgesExactly GoneBefore db (purgeConfirmedRemnawaveDeletes
      (reconcileMissingRemnawaveUsers db seen).2).2 ↔ ¬MissedByReconcile seen db :=
  purges_exactly_iff ((reconcileMissingRemnawaveUsers_writes hwf seen).wf hwf)
    (meets_reconcile hwf seen) (fun r => r.remnawaveUuid ∈ seen)
    fun _ hr _ _ howner hreq => purgeable_reconcile hwf hr howner hreq

/-! ## A sync result -/

theorem syncStatus_deleted_iff {node : Node} {data : SyncResult} {now : Time} {p : Peer} :
    syncStatus cfg db node data now p = .deleted ↔ GoneBy db node.id data p ∧
      (syncReopens cfg db node data now p = true → unlisted db node.id data p = true) := by
  unfold syncStatus GoneBy
  cases hun : unlisted db node.id data p with
  | true => simp [confirmsRemoval, hun]
  | false =>
      cases hre : syncReopens cfg db node data now p with
      | true => simp
      | false =>
          cases hconf : confirmsRemoval db node.id data p with
          | true => simp
          | false => simp

/-- Accounts outlive a sync result up to its purge. -/
theorem syncConfirmed_users (hwf : db.WF) {node : Node} (hn : node ∈ db.nodes)
    (data : SyncResult) (now : Time) :
    (confirmRemovals cfg (db.saveNode (syncedNode node data now)) node.id data now).db.users.map
      (·.id) = db.users.map (·.id) := by
  refine (syncConfirmed_writes hwf hn data now).relates
    (R := fun a b : Db => b.users.map (·.id) = a.users.map (·.id))
    (fun _ => rfl) (fun _ _ _ h h' => h'.trans h) ?_
  intro db w hw _
  cases w with
  | user row => exact Rows.map_key_save
  | reading row entry at_ =>
      show (applyPeerResult db row entry at_).2.users.map _ = _
      rw [applyPeerResult_db]
  | _ => first | exact hw.elim | rfl

theorem sync_purges_iff (hwf : db.WF) (hleaves : db.Leaves) {node : Node} (hn : node ∈ db.nodes)
    (data : SyncResult) (now : Time) :
    PurgesExactly (GoneBy db node.id data) db (applySyncResult cfg db node data now).db ↔
      ¬MissedBySync cfg db node data now := by
  let confirmed :=
    (confirmRemovals cfg (db.saveNode (syncedNode node data now)) node.id data now).db
  let released := releaseDeviceIps confirmed (releasedCandidates confirmed node.id) now
  have hwfc : confirmed.WF := Writes.wf (syncConfirmed_writes hwf hn data now) hwf
  have hrelease : Writes Releases confirmed released := releaseDeviceIps_writes hwfc _ now
  obtain ⟨hprofiles, husers, hpeers⟩ := releases_frame hrelease
  have hsame : released.profiles = db.profiles :=
    hprofiles.trans (syncConfirmed_profiles hwf hn data now)
  have hmeets : Meets db released := by
    refine ⟨fun r hr => ⟨r, hsame ▸ hr, rfl, rfl⟩, fun r hr => ⟨r, hsame ▸ hr, rfl, rfl⟩,
      fun x hx => ?_⟩
    have hids : released.users.map (·.id) = db.users.map (·.id) := by
      rw [husers]
      exact syncConfirmed_users hwf hn data now
    have hmem : x.id ∈ released.users.map (·.id) := hids ▸ List.mem_map_of_mem hx
    exact List.mem_map.mp hmem
  have hkeep : MissedBySync cfg db node data now ↔
      ∃ r ∈ db.profiles, Confirmed (GoneBy db node.id data) db r ∧
        ((∀ p ∈ db.peers, p.userId ≠ r.userId) ∨
          ¬∀ p ∈ db.peers, p.userId = r.userId → syncReopens cfg db node data now p = true →
            unlisted db node.id data p = true) := by
    unfold MissedBySync
    simp only [not_forall, exists_prop, Bool.not_eq_true]
  rw [hkeep]
  refine purges_exactly_iff (hrelease.wf hwfc) hmeets _ fun r hr r' hr' howner _ => ?_
  have hrr : r' = r := by
    rw [hsame] at hr'
    exact hwf.profileUsers.eq_of_key hr' hr howner.symm
  subst hrr
  rw [purgeable_iff, hpeers]
  by_cases hreq : r'.deleteRequestedAt.isSome = true
  · have hgoing := (hleaves r'.userId r' hr rfl hreq).2
    have hrow : db.profileOf? r'.userId = some r' := hwf.profileUsers.get?_eq_some hr
    have hmoves : Moves r'.userId (syncStatus cfg db node data now) db confirmed :=
      sync_moves hwf hrow hgoing node data now
    constructor
    · rintro ⟨-, ⟨q, hq, hqu⟩, hall⟩
      obtain ⟨p, hp, hpq, -⟩ := hmoves.back q hq hqu
      have hdel : ∀ x ∈ db.peers, x.userId = r'.userId →
          syncStatus cfg db node data now x = .deleted := by
        intro x hx hxu
        obtain ⟨y, hy, hxy, hst⟩ := hmoves.fwd x hx hxu
        rw [← hst]
        exact hall y hy (hxy.userId.trans hxu)
      refine ⟨⟨p, hp, hpq.userId.symm.trans hqu⟩, ⟨hreq, fun x hx hxu => ?_⟩, fun x hx hxu => ?_⟩
      · exact (syncStatus_deleted_iff.mp (hdel x hx hxu)).1
      · exact (syncStatus_deleted_iff.mp (hdel x hx hxu)).2
    · rintro ⟨⟨p, hp, hpu⟩, ⟨-, hgone⟩, hclosed⟩
      obtain ⟨q, hq, hpq, -⟩ := hmoves.fwd p hp hpu
      refine ⟨hreq, ⟨q, hq, hpq.userId.trans hpu⟩, fun y hy hyu => ?_⟩
      obtain ⟨x, hx, hxy, hst⟩ := hmoves.back y hy hyu
      have hxu := hxy.userId.symm.trans hyu
      rw [hst]
      exact syncStatus_deleted_iff.mpr ⟨hgone x hx hxu, hclosed x hx hxu⟩
  · constructor
    · rintro ⟨hsome, -⟩
      exact absurd hsome hreq
    · rintro ⟨-, ⟨hsome, -⟩, -⟩
      exact absurd hsome hreq

/-- **Confirmed purge.** From every reachable panel, a completed reconcile and a
successful sync result purge exactly the delete-requested accounts whose peers
are all gone, unless they miss one. -/
theorem purges_confirmed_iff (cfg : Config) (s : Panel) (h : (panel cfg).Reachable s) :
    (∀ seen effect, remnawaveReconcileComplete s.db seen = .ok effect →
      (PurgesExactly GoneBefore s.db effect.db ↔ ¬MissedByReconcile seen s.db)) ∧
    (∀ node ∈ s.db.nodes, ∀ data now effect, data.ok = true →
      nodeSyncResult cfg s.db node.id data now = .ok effect →
      (PurgesExactly (GoneBy s.db node.id data) s.db effect.db ↔
        ¬MissedBySync cfg s.db node data now)) := by
  have hwf := panel_wf h
  refine ⟨fun seen effect he => ?_, fun node hn data now effect hgood he => ?_⟩
  · cases he
    exact reconcile_purges_iff hwf seen
  · obtain ⟨stored, hstored, ⟨hbad, -⟩ | ⟨-, hdb⟩⟩ := nodeSyncResult_ok he
    · rw [hgood] at hbad
      cases hbad
    · have hsame : stored = node :=
        hwf.nodeIds.eq_of_key (Rows.mem_of_get? hstored) hn (Rows.key_of_get? hstored)
      rw [hdb, hsame]
      exact sync_purges_iff hwf (panel_leaves h) hn data now

/-- An imported account with a device installed on a node, whose deletion is
then asked for. -/
def deletionRequested : List Call := [
  ⟨0, .addNode { name := "a", url := "http://a", token := "t" }⟩,
  ⟨1, .upsert [{ uuid := "x", username := "alice", status := "ACTIVE" }]⟩,
  ⟨2, .addDevice 1 "phone"⟩,
  ⟨3, .syncResult 0 { peers := [{ publicKey := "public-2", status := some "active" }] }⟩,
  ⟨4, .markDeleted "x"⟩]

/-- The node's next answer no longer lists the key, and the account is purged. -/
theorem purges_confirmed_removal :
    ∃ s, (panel exampleConfig).replay deletionRequested = some s ∧ ∃ node ∈ s.db.nodes,
      ∃ effect, nodeSyncResult exampleConfig s.db node.id {} 5 = .ok effect ∧
        effect.db.users.length = 0 ∧ PurgesExactly (GoneBy s.db node.id {}) s.db effect.db := by
  have hrun : ((panel exampleConfig).replay deletionRequested).any (fun s =>
      ∃ node ∈ s.db.nodes,
        (∀ r ∈ s.db.profiles, ∃ p ∈ s.db.peers, p.userId = r.userId) ∧
        (∀ p ∈ s.db.peers, unlisted s.db node.id {} p = true) ∧
        (nodeSyncResult exampleConfig s.db node.id {} 5).toOption.any (·.db.users.length = 0)) =
      true := by decide +kernel
  obtain ⟨s, hs, hfacts⟩ := TSys.replay_any hrun
  obtain ⟨node, hn, hpeers, hunlisted, hans⟩ := of_decide_eq_true hfacts
  obtain ⟨effect, hans, hnone⟩ := (Option.any_eq_true _ _).mp hans
  have he : nodeSyncResult exampleConfig s.db node.id {} 5 = .ok effect := by
    cases h : nodeSyncResult exampleConfig s.db node.id {} 5 with
    | error err =>
        rw [h] at hans
        cases hans
    | ok e =>
        rw [h] at hans
        cases hans
        rfl
  refine ⟨s, hs, node, hn, effect, he, of_decide_eq_true hnone, ?_⟩
  refine ((purges_confirmed_iff exampleConfig s (TSys.replay_reachable hs)).2 node hn {} 5 effect
    rfl he).mpr ?_
  rintro ⟨r, hr, -, hnone | ⟨p, hp, -, -, hlisted⟩⟩
  · obtain ⟨p, hp, hpu⟩ := hpeers r hr
    exact hnone p hp hpu
  · rw [hunlisted p hp] at hlisted
    cases hlisted

/-- An imported account is disabled and its removal confirmed before its
deletion is asked for. -/
def deletedAfterRemoval : List Call := [
  ⟨0, .addNode { name := "a", url := "http://a", token := "t" }⟩,
  ⟨1, .upsert [{ uuid := "x", username := "alice", status := "ACTIVE" }]⟩,
  ⟨2, .addDevice 1 "phone"⟩,
  ⟨3, .upsert [{ uuid := "x", username := "alice", status := "DISABLED" }]⟩,
  ⟨4, .syncResult 0 {}⟩,
  ⟨5, .markDeleted "x"⟩]

/-- A completed reconcile that leaves the account out keeps it: the account
stays with a peer that is going again. -/
theorem confirmed_account_kept :
    ∃ s, (panel exampleConfig).Reachable s ∧
      ∃ effect, remnawaveReconcileComplete s.db [] = .ok effect ∧
        ¬PurgesExactly GoneBefore s.db effect.db := by
  have hrun : ((panel exampleConfig).replay deletedAfterRemoval).any (fun s =>
      (∀ p ∈ s.db.peers, p.status = .deleted) ∧
      (purgeConfirmedRemnawaveDeletes (reconcileMissingRemnawaveUsers s.db []).2).2.profiles.any
        (·.deleteRequestedAt.isSome)) = true := by decide +kernel
  obtain ⟨s, hs, hfacts⟩ := TSys.replay_any hrun
  obtain ⟨hgone, hkept⟩ := of_decide_eq_true hfacts
  obtain ⟨r, hr, hreq⟩ := List.any_eq_true.mp hkept
  refine ⟨s, TSys.replay_reachable hs, _, rfl, fun hpurges => ?_⟩
  exact hpurges.purged r hr ⟨hreq, fun p hp _ => hgone p hp⟩

end VpnPanel.Theorems
