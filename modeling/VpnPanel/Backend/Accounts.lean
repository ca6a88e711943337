import VpnPanel.Backend.Refine

/-!
# One account across writes

What a write leaves of the account `u`: its row, whether it has a profile, and
its lifetime total. A lifecycle pass on another account, an import, a device or
a node leaves all three; a reading can only raise the total.
-/

namespace VpnPanel.Backend

open VpnPanel.Lib

/-- `db'` has the same account `u` as `db`. -/
structure SameAccount (u : UserId) (db db' : Db) : Prop where
  user : db'.user? u = db.user? u
  profile : db'.profileOf? u = db.profileOf? u
  total : loadLocalTotalBytes db' u = loadLocalTotalBytes db u

namespace SameAccount

variable {u : UserId} {db db' db'' : Db}

theorem refl (db : Db) : SameAccount u db db := ⟨rfl, rfl, rfl⟩

theorem trans (h : SameAccount u db db') (h' : SameAccount u db' db'') : SameAccount u db db'' :=
  ⟨h'.user.trans h.user, h'.profile.trans h.profile, h'.total.trans h.total⟩

end SameAccount

/-- A write outside the account `u`. -/
def Spares (u : UserId) (_ : Db) : Write → Prop
  | .user row => row.id ≠ u
  | .newUser row => row.id ≠ u
  | .profile row => row.userId ≠ u
  | .newImport row imported => row.id ≠ u ∧ imported.userId ≠ u
  | .reading _ _ _ => False
  | .resetTraffic row _ => row.id ≠ u
  | .deleteUser id => id ≠ u
  | _ => True

variable {cfg : Config} {u : UserId} {db : Db}

theorem loadLocalTotalBytes_congr {db' : Db}
    (h : Rows.get? TrafficAggregate.identity db'.traffic.userLifetime u =
      Rows.get? TrafficAggregate.identity db.traffic.userLifetime u) :
    loadLocalTotalBytes db' u = loadLocalTotalBytes db u := by
  unfold loadLocalTotalBytes
  unfold Rows.get? at h
  rw [h]

theorem loadLocalTotalBytes_of_traffic {db' : Db} (h : db'.traffic = db.traffic) (u : UserId) :
    loadLocalTotalBytes db' u = loadLocalTotalBytes db u := by
  unfold loadLocalTotalBytes
  rw [h]

theorem Spares.sameAccount {w : Write} (h : Spares u db w) : SameAccount u db (w.apply db) := by
  cases w with
  | user row => exact ⟨Rows.get?_save_of_ne h, rfl, rfl⟩
  | newUser row => exact ⟨Rows.get?_append_of_ne h, rfl, rfl⟩
  | profile row => exact ⟨rfl, Rows.get?_save_of_ne h, rfl⟩
  | newImport row imported =>
      exact ⟨Rows.get?_append_of_ne h.1, Rows.get?_append_of_ne h.2, rfl⟩
  | reading row data now => exact h.elim
  | resetTraffic row at_ =>
      refine ⟨Rows.get?_save_of_ne h, rfl, loadLocalTotalBytes_congr (Rows.get?_filter ?_)⟩
      intro r _ hr
      simpa [hr] using Ne.symm h
  | deleteUser id =>
      have hne : ∀ {i : UserId}, i = u → decide (i ≠ id) = true := by
        intro i hi
        simpa [hi] using Ne.symm h
      refine ⟨Rows.get?_filter fun r _ hr => hne hr, Rows.get?_filter fun r _ hr => hne hr,
        loadLocalTotalBytes_congr (Rows.get?_filter ?_)⟩
      intro r _ hr
      simpa [hr] using Ne.symm h
  | deleteNode id =>
      refine ⟨rfl, rfl, loadLocalTotalBytes_congr (Rows.get?_filter ?_)⟩
      intro r _ _
      rfl
  | _ => exact ⟨rfl, rfl, rfl⟩

theorem Writes.sameAccount {db' : Db} (h : Writes (Spares u) db db') : SameAccount u db db' :=
  h.relates .refl (fun _ _ _ => .trans) fun _ _ hw _ => hw.sameAccount

/-- A lifecycle sequence of another account. -/
theorem Writes.sameAccount_of_owner {v : UserId} {db' : Db} (hne : v ≠ u)
    (h : Writes (OfOwner v) db db') : SameAccount u db db' := by
  refine (h.mono ?_).sameAccount
  intro db w hw
  cases w with
  | user row => exact fun hid => hne (hw.symm.trans hid)
  | peers f => trivial
  | newPeer row => trivial
  | _ => exact hw.elim

/-- The import routes leave a stored account without a profile alone. -/
theorem Writes.sameAccount_of_imports {db' : Db} (hwf : db.WF) (h : Writes Imports db db')
    {user : User} (hu : db.user? u = some user) (hp : db.profileOf? u = none) :
    SameAccount u db db' := by
  have hboth : db'.WF ∧ SameAccount u db db' := by
    refine h.keeps (I := fun db' => db'.WF ∧ SameAccount u db db') ?_ ⟨hwf, .refl db⟩
    rintro b w hw hok ⟨hb, hsame⟩
    refine ⟨Write.apply_wf hb w hok, hsame.trans (Spares.sameAccount ?_)⟩
    have hnone : ∀ r ∈ b.profiles, r.userId ≠ u :=
      Rows.get?_eq_none.mp (hsame.profile.trans hp)
    have hmem : ∃ v ∈ b.users, v.id = u :=
      ⟨user, Rows.mem_of_get? (hsame.user.trans hu), Rows.key_of_get? (hsame.user.trans hu)⟩
    cases w with
    | profile row =>
        obtain ⟨old, hold, huser, -⟩ := hok
        rw [Spares, ← huser]
        exact hnone old hold
    | newImport row imported =>
        obtain ⟨v, hv, hvid⟩ := hmem
        have hne : row.id ≠ u := by
          rw [← hvid]
          exact (hb.userFresh.ne hok.1.id v hv).symm
        exact ⟨hne, by rw [hok.2.1]; exact hne⟩
    | user row =>
        obtain ⟨r, hr, hrow⟩ := hw
        intro hid
        exact hnone r hr (hrow.symm.trans hid)
    | peers f => trivial
    | newPeer row => trivial
    | _ =>
        obtain ⟨r, -, h⟩ := hw
        exact h.elim
  exact hboth.2

/-- A purge leaves the accounts it has no reason to delete. -/
theorem sameAccount_of_purge (h : ∀ r ∈ db.profiles, purgeable db r = true → r.userId ≠ u) :
    SameAccount u db (purgeConfirmedRemnawaveDeletes db).2 := by
  have hfold : ∀ (rows : List RemnawaveUser) (base : Db), (∀ r ∈ rows, r.userId ≠ u) →
      SameAccount u base (rows.foldl (fun db row => db.deleteUser row.userId) base) := by
    intro rows
    induction rows with
    | nil =>
        intro base _
        exact .refl base
    | cons r rest ih =>
        intro base hne
        have hone : SameAccount u base (base.deleteUser r.userId) :=
          Spares.sameAccount (w := .deleteUser r.userId) (hne r List.mem_cons_self)
        exact hone.trans (ih _ fun x hx => hne x (List.mem_cons_of_mem _ hx))
  apply hfold
  intro r hr
  obtain ⟨hr, hpurge⟩ := List.mem_filter.mp hr
  exact h r hr hpurge

theorem sameAccount_of_purge_local (hp : db.profileOf? u = none) :
    SameAccount u db (purgeConfirmedRemnawaveDeletes db).2 :=
  sameAccount_of_purge fun r hr _ => Rows.get?_eq_none.mp hp r hr

theorem Writes.sameAccount_of_releases {db' : Db} (h : Writes Releases db db') :
    SameAccount u db db' := by
  refine (h.mono ?_).sameAccount
  intro db w hw
  cases w <;> first | exact hw.elim | trivial

/-! ## A lifecycle pass on the account itself -/

/-- The account row a lifecycle pass leaves. -/
def User.derived (user : User) (total : Nat) (now : Time) : User :=
  { user with
    lifecycleStatus := desiredStatus user total now
    isBlocked := desiredStatus user total now ≠ .active }

/-- Peers may come and change, the accounts stay. -/
theorem sameAccount_of_peers {loaded : List PeerId} (v : UserId) (b : Bool) (db : Db) :
    SameAccount v db (transitionPeers db loaded b).2 := by
  rw [transitionPeers_db]
  exact Spares.sameAccount (w := .peers _) trivial

theorem sameAccount_of_restore (v w : UserId) (db : Db) :
    SameAccount v db (restoreMissingPeersForUser cfg db w).2 := by
  refine ((restoreMissingPeersForUser_writes db w).mono ?_).sameAccount
  intro db w hw
  cases w <;> trivial

/-- A lifecycle pass writes the derived row of its account, and leaves the
profile and the total. -/
theorem applyLocalLifecycleState_account (cfg : Config) (user : User) {old : User}
    (hu : db.user? user.id = some old) (total : Option Nat) (now : Time) :
    SameAccount user.id
      (db.saveUser (user.derived (total.getD (loadLocalTotalBytes db user.id)) now))
      (applyLocalLifecycleState cfg db user total now).2 ∧
    (applyLocalLifecycleState cfg db user total now).2.user? user.id =
      some (user.derived (total.getD (loadLocalTotalBytes db user.id)) now) := by
  let row := user.derived (total.getD (loadLocalTotalBytes db user.id)) now
  let moved := (transitionPeers (db.saveUser row) (loadPeers (db.saveUser row) user.id)
    row.isBlocked).2
  have hmoved : SameAccount user.id (db.saveUser row) moved := sameAccount_of_peers _ _ _
  have hpass : SameAccount user.id (db.saveUser row)
      (applyLocalLifecycleState cfg db user total now).2 := by
    unfold applyLocalLifecycleState
    show SameAccount _ _ (Prod.snd (if _ then (_, (restoreMissingPeersForUser cfg moved user.id).2)
      else (_, moved)))
    split
    · exact hmoved.trans (sameAccount_of_restore _ _ _)
    · exact hmoved
  refine ⟨hpass, ?_⟩
  rw [hpass.user]
  exact Rows.get?_save_self hu

/-! ## Totals -/

/-- The lifetime total after an increase. -/
theorem get?_increaseAggregate {rows : List (TrafficAggregate UserId)} {v : UserId}
    {rx tx total : Nat} {at_ : Time} :
    ((Rows.get? TrafficAggregate.identity (increaseAggregate rows v rx tx total at_) u).map
        (·.totalBytes)).getD 0 =
      ((Rows.get? TrafficAggregate.identity rows u).map (·.totalBytes)).getD 0 +
        if v = u then total else 0 := by
  unfold increaseAggregate
  cases hv : Rows.get? TrafficAggregate.identity rows v with
  | none =>
      by_cases heq : v = u
      · subst heq
        rw [if_pos rfl, hv]
        unfold Rows.get? at hv ⊢
        rw [List.find?_append, hv]
        simp
      · dsimp only
        rw [if_neg heq, Rows.get?_append_of_ne heq]
        rfl
  | some row =>
      by_cases heq : v = u
      · subst heq
        dsimp only
        rw [if_pos rfl, Rows.get?_save_self hv, hv]
        rfl
      · dsimp only
        rw [if_neg heq, Rows.get?_save_of_ne heq]
        rfl

theorem loadLocalTotalBytes_eq (db : Db) (u : UserId) :
    loadLocalTotalBytes db u =
      ((Rows.get? TrafficAggregate.identity db.traffic.userLifetime u).map
        (·.totalBytes)).getD 0 := by
  unfold loadLocalTotalBytes Rows.get?
  cases db.traffic.userLifetime.find? fun r => decide (r.identity = u) <;> rfl

/-- The endpoint sessions of a result touch no byte count. -/
theorem applyPeerEndpointSession_eq (traffic : Traffic) (peer : Peer) (data : PeerSyncResult)
    (now : Time) : ∃ sessions nextSessionId, applyPeerEndpointSession traffic peer data now =
      { traffic with sessions, nextSessionId } := by
  unfold applyPeerEndpointSession
  split
  · exact ⟨_, _, rfl⟩
  · split
    · exact ⟨_, _, rfl⟩
    · dsimp only
      split
      · exact ⟨_, _, rfl⟩
      · split
        · exact ⟨_, _, rfl⟩
        · split
          · exact ⟨_, _, rfl⟩
          · exact ⟨_, _, rfl⟩

theorem applyPeerEndpointSession_lifetime (traffic : Traffic) (peer : Peer) (data : PeerSyncResult)
    (now : Time) :
    (applyPeerEndpointSession traffic peer data now).userLifetime = traffic.userLifetime := by
  obtain ⟨_, _, h⟩ := applyPeerEndpointSession_eq traffic peer data now
  rw [h]

theorem applyPeerEndpointSession_deltas (traffic : Traffic) (peer : Peer) (data : PeerSyncResult)
    (now : Time) : (applyPeerEndpointSession traffic peer data now).deltas = traffic.deltas := by
  obtain ⟨_, _, h⟩ := applyPeerEndpointSession_eq traffic peer data now
  rw [h]

/-- A reading never lowers a lifetime total, and touches no account row. -/
theorem applyPeerResult_account (db : Db) (u : UserId) (peer : Peer) (data : PeerSyncResult)
    (now : Time) :
    (applyPeerResult db peer data now).2.user? u = db.user? u ∧
      (applyPeerResult db peer data now).2.profileOf? u = db.profileOf? u ∧
      loadLocalTotalBytes db u ≤ loadLocalTotalBytes (applyPeerResult db peer data now).2 u := by
  rw [applyPeerResult_db]
  refine ⟨rfl, rfl, ?_⟩
  rw [loadLocalTotalBytes_eq, loadLocalTotalBytes_eq]
  show _ ≤ ((Rows.get? TrafficAggregate.identity
    (trafficAfterResult db peer data now).userLifetime u).map (·.totalBytes)).getD 0
  have hsession := applyPeerEndpointSession_lifetime db.traffic peer data now
  unfold trafficAfterResult
  cases data.rxBytes with
  | none =>
      dsimp only
      rw [hsession]
  | some rx =>
      cases data.txBytes with
      | none =>
          dsimp only
          rw [hsession]
      | some tx =>
          dsimp only
          unfold recordReading
          dsimp only
          split
          · rw [hsession]
          · unfold applyLocalTrafficAggregates
            dsimp only
            rw [get?_increaseAggregate, hsession]
            exact Nat.le_add_right _ _

/-! ## Requests about something else -/

/-- The requests that may write the local account `u`: its own routes, and the
node results. -/
def Request.Touches (u : UserId) : Request → Prop
  | .updateDeviceLimit v _ => v = u
  | .blockUser v => v = u
  | .unblockUser v => v = u
  | .updateLocalLifecycle v _ => v = u
  | .resetLocalTraffic v => v = u
  | .deleteUser v => v = u
  | .syncResult _ _ => True
  | .heartbeatResult _ _ => True
  | _ => False

/-- The routes of the import worker. -/
def Request.imports : Request → Bool
  | .upsert _ => true
  | .markDeleted _ => true
  | .reconcileComplete _ => true
  | _ => false

/-- Any other request that imports nothing leaves a stored account as it is. -/
theorem sameAccount_of_foreign {request : Request} {now : Time} {e : Effect} (hwf : db.WF)
    {user : User} (hu : db.user? u = some user) (h : handle cfg db now request = .ok e)
    (hne : ¬request.Touches u) (himport : request.imports = false) :
    SameAccount u db e.db := by
  have hpass : ∀ {v : UserId} {row : User} {total : Option Nat}, v ≠ u →
      (∃ user, localUser db v = .ok user ∧ user.id = row.id ∧
        user.trafficResetAt = row.trafficResetAt) →
      SameAccount u db (commitLifecycle cfg db row total now).db := by
    intro v row total hne hrow
    obtain ⟨other, hv, hid, hstamp⟩ := hrow
    have hstored := (localUser_ok hv).1
    have hvid : row.id = v := hid.symm.trans (Rows.key_of_get? hstored)
    refine (commitLifecycle_writes hwf row (Rows.mem_of_get? hstored) hid hstamp total
      now).sameAccount_of_owner ?_
    rw [hvid]
    exact hne
  cases request with
  | addUser name limit =>
      rw [apiAddUser_ok h]
      refine Spares.sameAccount (w := .newUser { id := db.nextId, name, deviceLimit := limit }) ?_
      have hid : user.id = u := Rows.key_of_get? hu
      rw [← hid]
      exact (hwf.userFresh.ne rfl user (Rows.mem_of_get? hu)).symm
  | updateDeviceLimit v limit =>
      obtain ⟨other, hv, he⟩ := apiUpdateDeviceLimit_ok h
      rw [he]
      have hid : other.id = v := Rows.key_of_get? (localUser_ok hv).1
      exact Spares.sameAccount (w := .user { other with deviceLimit := limit })
        fun heq => hne (hid.symm.trans heq)
  | blockUser v =>
      obtain ⟨other, hv, rfl⟩ := apiBlockUser_ok h
      exact hpass hne ⟨other, hv, rfl, rfl⟩
  | unblockUser v =>
      obtain ⟨other, hv, -, rfl⟩ := apiUnblockUser_ok h
      exact hpass hne ⟨other, hv, rfl, rfl⟩
  | updateLocalLifecycle v data =>
      obtain ⟨other, hv, rfl⟩ := apiUpdateLocalLifecycle_ok h
      exact hpass hne ⟨other, hv, rfl, rfl⟩
  | resetLocalTraffic v =>
      obtain ⟨other, hv, -, rfl⟩ := apiResetLocalTraffic_ok h
      have hstored := (localUser_ok hv).1
      have hid : other.id ≠ u := by
        rw [(Rows.key_of_get? hstored : other.id = v)]
        exact hne
      have hreset : SameAccount u db (resetLocalTrafficUsage db other now).2 :=
        Spares.sameAccount (w := .resetTraffic other now) hid
      have hwf' : (resetLocalTrafficUsage db other now).2.WF := hwf.reset_traffic other now
      exact hreset.trans ((commitLifecycle_writes hwf' _
        (Rows.mem_save.mpr (.inl ⟨rfl, other, Rows.mem_of_get? hstored, rfl⟩)) rfl
        rfl _ _).sameAccount_of_owner hid)
  | deleteUser v =>
      obtain ⟨other, hv, he, -⟩ := apiDeleteUser_ok h
      rw [he, (Rows.key_of_get? (localUser_ok hv).1 : other.id = v)]
      exact Spares.sameAccount (w := .deleteUser v) hne
  | addNode data =>
      cases h
      refine ((addNode_writes rfl).mono ?_).sameAccount
      intro db w hw
      cases w <;> first | exact hw.elim | trivial
  | updateNode nodeId data =>
      obtain ⟨node, -, he⟩ := apiUpdateNode_ok h
      rw [he]
      exact Spares.sameAccount (w := .node _) trivial
  | deleteNode nodeId =>
      obtain ⟨node, -, he⟩ := apiDeleteNode_ok h
      rw [he]
      have hdel : SameAccount u db (db.deleteNode nodeId) :=
        Spares.sameAccount (w := .deleteNode nodeId) trivial
      exact hdel.trans (releaseDeviceIps_writes (hwf.delete_node nodeId) _
        now).sameAccount_of_releases
  | addDevice v name =>
      obtain ⟨other, device, ids, -, hc, -⟩ := pubAddDevice_ok h
      refine ((createDevice_writes hc).mono ?_).sameAccount
      intro db w hw
      cases w <;> first | exact hw.elim | trivial
  | deleteDevice v deviceId =>
      obtain ⟨device, hd, -, he⟩ := pubDeleteDevice_ok h
      rw [he, deleteDevice_db hd]
      have htomb : SameAccount u db (Write.apply db (.tombstone (device.tombstonedAt now))) :=
        Spares.sameAccount (w := .tombstone _) trivial
      exact htomb.trans (releaseDeviceIp_writes (mem_tombstone (Rows.mem_of_get? hd) now)
        now).sameAccount_of_releases
  | upsert data => cases himport
  | markDeleted uuid => cases himport
  | reconcileComplete seen => cases himport
  | syncResult nodeId data => exact absurd trivial hne
  | heartbeatResult nodeId data => exact absurd trivial hne

/-- Any other request leaves a local account as it is. -/
theorem sameAccount_of_request {request : Request} {now : Time} {e : Effect} (hwf : db.WF)
    {user : User} (hu : db.user? u = some user) (hp : db.profileOf? u = none)
    (h : handle cfg db now request = .ok e) (hne : ¬request.Touches u) :
    SameAccount u db e.db := by
  cases request with
  | upsert data =>
      obtain ⟨st, hst, he⟩ := upsertRemnawaveUsers_ok h
      rw [he]
      exact (upsertItems_writes data hwf (UpsertState.heldOk_start _)
        hst).sameAccount_of_imports hwf hu hp
  | markDeleted uuid =>
      rcases markRemnawaveUserDeleted_ok h with he | ⟨row, hr, -, other, hother, he⟩
      · rw [he]
        exact .refl db
      · rw [he]
        exact (requestRemnawaveDelete_writes hr hother now).sameAccount_of_imports hwf hu hp
  | reconcileComplete seen =>
      cases h
      have hmissing : SameAccount u db (reconcileMissingRemnawaveUsers db seen).2 :=
        (reconcileMissingRemnawaveUsers_writes hwf seen).sameAccount_of_imports hwf hu hp
      exact hmissing.trans (sameAccount_of_purge_local (hmissing.profile.trans hp))
  | _ => exact sameAccount_of_foreign hwf hu h hne rfl

/-- The local routes of an account with a profile are refused. -/
theorem not_touches_of_profile {request : Request} {now : Time} {e : Effect}
    (hp : db.profileOf? u ≠ none) (h : handle cfg db now request = .ok e)
    (hresult : ∀ nodeId data, request ≠ .syncResult nodeId data)
    (hbeat : ∀ nodeId data, request ≠ .heartbeatResult nodeId data) : ¬request.Touches u := by
  have hrefused : ∀ {v : UserId} {user : User}, localUser db v = .ok user → v ≠ u := by
    rintro v user hv rfl
    exact hp (localUser_ok hv).2
  cases request with
  | updateDeviceLimit v limit =>
      obtain ⟨user, hv, -⟩ := apiUpdateDeviceLimit_ok h
      exact hrefused hv
  | blockUser v =>
      obtain ⟨user, hv, -⟩ := apiBlockUser_ok h
      exact hrefused hv
  | unblockUser v =>
      obtain ⟨user, hv, -, -⟩ := apiUnblockUser_ok h
      exact hrefused hv
  | updateLocalLifecycle v data =>
      obtain ⟨user, hv, -⟩ := apiUpdateLocalLifecycle_ok h
      exact hrefused hv
  | resetLocalTraffic v =>
      obtain ⟨user, hv, -, -⟩ := apiResetLocalTraffic_ok h
      exact hrefused hv
  | deleteUser v =>
      obtain ⟨user, hv, -, -⟩ := apiDeleteUser_ok h
      exact hrefused hv
  | syncResult nodeId data => exact absurd rfl (hresult nodeId data)
  | heartbeatResult nodeId data => exact absurd rfl (hbeat nodeId data)
  | _ => exact id

/-! ## Node results -/

/-- A fact about the account `u` that no node result takes away: it survives a
reading, which can only raise the total, the limits enforced after it, and the
purge. -/
structure Sticks (cfg : Config) (u : UserId) (now : Time) (I : Db → Prop) : Prop where
  grows : ∀ {db db' : Db}, db'.user? u = db.user? u → db'.profileOf? u = db.profileOf? u →
    loadLocalTotalBytes db u ≤ loadLocalTotalBytes db' u → I db → I db'
  limits : ∀ {st : PeerResults} (v : UserId), st.db.WF → I st.db →
    I (enforceLimits cfg st v now).db
  purge : ∀ {db : Db}, db.WF → I db → I (purgeConfirmedRemnawaveDeletes db).2

namespace Sticks

variable {now : Time} {I : Db → Prop}

theorem frame (h : Sticks cfg u now I) {db db' : Db} (hI : I db) (hsame : SameAccount u db db') :
    I db' :=
  h.grows hsame.user hsame.profile (Nat.le_of_eq hsame.total.symm) hI

/-- One entry of a node's answer. -/
theorem entry (h : Sticks cfg u now I) {loaded : String → Option PeerId} {st : PeerResults}
    (hwf : st.db.WF) (hI : I st.db) (data : PeerSyncResult) :
    I (applyPeerEntry cfg loaded st data now).db := by
  refine applyPeerEntry_keeps (I := fun st => I st.db) hwf hI ?_ ?_
  · intro peer _ _
    obtain ⟨huser, hprofile, htotal⟩ := applyPeerResult_account st.db u peer data now
    exact h.grows huser hprofile htotal hI
  · intro st' v hwf' hread
    exact h.limits v hwf' hread

theorem entries (h : Sticks cfg u now I) {loaded : String → Option PeerId}
    (results : List PeerSyncResult) :
    ∀ {st : PeerResults}, I st.db → st.db.WF →
      I (applyPeerEntries cfg loaded now results st).db := by
  intro st hI hwf
  refine applyPeerEntries_keeps (I := fun st => I st.db) results ?_ hwf hI
  intro data _ st hwf hI
  exact h.entry hwf hI data

theorem results (h : Sticks cfg u now I) {results : List PeerSyncResult} (hI : I db) (hwf : db.WF)
    (nodeId : NodeId) : I (applyPeerResults cfg db nodeId results now).db := by
  have hst : I (PeerResults.db { db }) := hI
  exact h.entries results hst hwf

/-- A successful sync result: the node row, the entries, and then only peers,
devices and the purge. -/
theorem syncResult (h : Sticks cfg u now I) (hI : I db) (hwf : db.WF) {node : Node}
    (hn : node ∈ db.nodes) (data : SyncResult) : I (applySyncResult cfg db node data now).db := by
  let row := syncedNode node data now
  have hsaved : Writes (OfSync node.id data now) db (db.saveNode row) :=
    saveNode_writes (fun _ => trivial) hn (syncedNode_id node data now)
  have hnode : I (db.saveNode row) := h.frame hI (Spares.sameAccount (w := .node row) trivial)
  let confirmed := (confirmRemovals cfg (db.saveNode row) node.id data now).db
  have hconf : I confirmed :=
    h.frame (h.results hnode (hsaved.wf hwf) node.id) (Spares.sameAccount (w := .peers _) trivial)
  have hwrites : Writes (OfSync node.id data now) db confirmed :=
    syncConfirmed_writes hwf hn data now
  have hrelease : Writes Releases confirmed
      (releaseDeviceIps confirmed (releasedCandidates confirmed node.id) now) :=
    releaseDeviceIps_writes (hwrites.wf hwf) _ now
  exact h.purge (hrelease.wf (hwrites.wf hwf)) (h.frame hconf hrelease.sameAccount_of_releases)

theorem heartbeatResult (h : Sticks cfg u now I) (hI : I db) (hwf : db.WF) {node : Node}
    (hn : node ∈ db.nodes) (data : HeartbeatResult) :
    I (applyHeartbeatResult cfg db node data now).db := by
  let row := applyNodeHeartbeatResult node data now
  have hsaved : Writes (OfHeartbeat data.peers now) db (db.saveNode row) :=
    saveNode_writes (fun _ => trivial) hn rfl
  have hnode : I (db.saveNode row) := h.frame hI (Spares.sameAccount (w := .node row) trivial)
  unfold applyHeartbeatResult
  dsimp only
  split
  · exact h.results hnode (hsaved.wf hwf) node.id
  · exact hnode

theorem syncRequest (h : Sticks cfg u now I) (hI : I db) (hwf : db.WF) {nodeId : NodeId}
    {data : SyncResult} {e : Effect}
    (hok : handle cfg db now (.syncResult nodeId data) = .ok e) : I e.db := by
  obtain ⟨node, hn, ⟨-, he⟩ | ⟨-, he⟩⟩ := nodeSyncResult_ok hok
  · -- a failed result writes the node row only
    rw [he]
    exact h.frame hI (Spares.sameAccount (w := .node _) trivial)
  · rw [he]
    exact h.syncResult hI hwf (Rows.mem_of_get? hn) data

theorem heartbeatRequest (h : Sticks cfg u now I) (hI : I db) (hwf : db.WF) {nodeId : NodeId}
    {data : HeartbeatResult} {e : Effect}
    (hok : handle cfg db now (.heartbeatResult nodeId data) = .ok e) : I e.db := by
  obtain ⟨node, hn, he⟩ := nodeHeartbeatResult_ok hok
  rw [he]
  exact h.heartbeatResult hI hwf (Rows.mem_of_get? hn) data

end Sticks

end VpnPanel.Backend
