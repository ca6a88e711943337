import VpnPanel.Backend.Settled
import VpnPanel.Theorems.UpsertState

/-!
# A profile imported twice

The same profile upserted again, with nothing about the profile in between: when
the second call affects no node, queues no sync and leaves the peers. The flag
that `apply_remnawave_lifecycle` compares with is the one the combined limit has
set, so an account over its limit whose profile does not block it is unblocked
and blocked again by every repeat.
-/

namespace VpnPanel.Theorems

open VpnPanel.Lib VpnPanel.Backend

variable {cfg : Config} {db : Db} {u : UserId} {now imported : Time} {item : RemnawaveUserIn}

/-- The request says nothing about the profile `uuid`: it does not import it,
ask for its deletion or report it missing. -/
def leavesProfile (uuid : String) : Request → Bool
  | .upsert data => data.all (·.uuid ≠ uuid)
  | .markDeleted other => other ≠ uuid
  | .reconcileComplete seen => uuid ∈ seen
  | _ => true

/-- The profile `item` was imported at `imported`, into the panel `s`, and no
request up to `t` said anything about it. -/
structure LastImported (cfg : Config) (item : RemnawaveUserIn) (imported : Time) (s t : Panel) :
    Prop where
  intro ::
  exists_run : ∃ before pre post effect steps, (panel cfg).Reachable before ∧
    (∀ x ∈ post, x.uuid ≠ item.uuid) ∧
    handle cfg before.db imported (.upsert (pre ++ item :: post)) = .ok effect ∧
    (panel cfg).step before ⟨imported, .upsert (pre ++ item :: post)⟩ = some s ∧
    (panel cfg).Trace s steps t ∧ ∀ x ∈ steps, leavesProfile item.uuid x.2.request = true

/-- What a repeated import should do. -/
structure ImportsNothing (db : Db) (effect : Effect) : Prop where
  affected : ∃ uuids disabled, effect.reply = .upserted uuids [] disabled
  queued : ∀ nodeId, .syncNode nodeId ∉ effect.queued
  peers : effect.db.peers = db.peers

/-- The combined limit is not reached; or every peer is going already and, where
the profile itself does not block the account, there is none to restore: every
peer is of a deleted device, and no live device misses one. -/
def LimitIdle (item : RemnawaveUserIn) (now : Time) (u : UserId) (db : Db) : Prop :=
  LimitReached item (loadLocalTotalBytes db u) →
    (∀ p ∈ db.peersOf u, p.status = .pendingDelete) ∧
      (remnawaveBlocked item.status item.expireAt now = false →
        (∀ p ∈ db.peersOf u, db.Tombstoned p.deviceId) ∧ db.Provisioned u)

/-! ## Other profiles -/

theorem item_spares {st st' : UpsertState} (hwf : st.db.WF) (hheld : st.HeldOk)
    {other : RemnawaveUserIn} (h : upsertItem cfg st other now = some st') {row : RemnawaveUser}
    (hrow : st.db.profileOf? u = some row) (hne : other.uuid ≠ row.remnawaveUuid) :
    SameAccount u st.db st'.db := by
  obtain ⟨stored, uuids, -, hpost⟩ := item_postState hwf hheld h
  refine hpost.others.accounts u fun hu => hne ?_
  have hid : row.userId = u := Rows.key_of_get? hrow
  exact ((hpost.account.owner row (Rows.mem_of_get? hrow)).mpr (hid.trans hu)).symm

theorem items_spare (items : List RemnawaveUserIn) {st st' : UpsertState} {row : RemnawaveUser}
    (hwf : st.db.WF) (hheld : st.HeldOk) (h : upsertItems cfg now items st = some st')
    (hrow : st.db.profileOf? u = some row) (hne : ∀ x ∈ items, x.uuid ≠ row.remnawaveUuid) :
    SameAccount u st.db st'.db := by
  refine upsertItems_keeps (I := fun st' => SameAccount u st.db st'.db) items ?_ hwf hheld
    (.refl st.db) h
  intro other hother st₁ st₂ hwf₁ hheld₁ hsame hitem
  exact hsame.trans
    (item_spares hwf₁ hheld₁ hitem (hsame.profile.trans hrow) (hne other hother))

/-! ## What the import leaves -/

/-- The row has the limit and the usage of the profile, and nobody asked for
its deletion. -/
structure Carries (item : RemnawaveUserIn) (row : RemnawaveUser) : Prop where
  uuid : row.remnawaveUuid = item.uuid
  limit : row.trafficLimitBytes = item.trafficLimitBytes
  used : row.trafficUsedBytes = item.trafficUsedBytes
  undeleted : row.deleteRequestedAt = none

theorem Carries.limited_iff {row : RemnawaveUser} (h : Carries item row) (total : Nat) :
    remnawaveCombinedLimited row total = true ↔ LimitReached item total := by
  unfold remnawaveCombinedLimited LimitReached
  rw [h.limit, h.used]
  simp

theorem LimitReached.mono {total total' : Nat} (h : LimitReached item total)
    (hle : total ≤ total') : LimitReached item total' := by
  obtain ⟨hpos, hle'⟩ := h
  exact ⟨hpos, by omega⟩

/-- The account `u` after the import at `imported`, on a local total of `total`
bytes: it is blocked where the profile or the limit asked for it, and for no
other reason than these. -/
structure ImportHeld (item : RemnawaveUserIn) (imported : Time) (total : Nat) (u : UserId)
    (db : Db) : Prop where
  row : ∃ row, db.profileOf? u = some row ∧ Carries item row
  grown : total ≤ loadLocalTotalBytes db u
  flag : ∃ b, db.flag? u = some b ∧
    (remnawaveBlocked item.status item.expireAt imported = true ∨ LimitReached item total →
      b = true) ∧
    (b = true → remnawaveBlocked item.status item.expireAt imported = true ∨
      LimitReached item (loadLocalTotalBytes db u))

namespace ImportHeld

variable {total : Nat} {db' : Db}

theorem grows (huser : db'.user? u = db.user? u) (hprofile : db'.profileOf? u = db.profileOf? u)
    (htotal : loadLocalTotalBytes db u ≤ loadLocalTotalBytes db' u)
    (h : ImportHeld item imported total u db) : ImportHeld item imported total u db' := by
  obtain ⟨row, hrow, hcarries⟩ := h.row
  obtain ⟨b, hb, hon, honly⟩ := h.flag
  refine ⟨⟨row, hprofile.trans hrow, hcarries⟩, h.grown.trans htotal, b, ?_, hon,
    fun hblocked => ?_⟩
  · unfold Db.flag?
    rw [huser]
    exact hb
  · exact (honly hblocked).imp_right (·.mono htotal)

theorem frame (h : ImportHeld item imported total u db) (hsame : SameAccount u db db') :
    ImportHeld item imported total u db' :=
  h.grows hsame.user hsame.profile (Nat.le_of_eq hsame.total.symm)

/-- The combined limit blocks the account when it is reached, and only then. -/
theorem combined (h : ImportHeld item imported total u db) (hwf : db.WF) (v : UserId) :
    ImportHeld item imported total u (enforceRemnawaveCombinedLimitForUser db v).2 := by
  have hwrites := enforceRemnawaveCombinedLimitForUser_writes hwf v
  by_cases hvu : v = u
  · subst hvu
    obtain ⟨row, hrow, hcarries⟩ := h.row
    obtain ⟨b, hb, hon, honly⟩ := h.flag
    have hid : row.userId = v := Rows.key_of_get? hrow
    have hprofile : (enforceRemnawaveCombinedLimitForUser db v).2.profileOf? v = some row := by
      unfold Db.profileOf?
      rw [hwrites.ownerFrame.profiles]
      exact hrow
    have htotal : loadLocalTotalBytes (enforceRemnawaveCombinedLimitForUser db v).2 v =
        loadLocalTotalBytes db v := loadLocalTotalBytes_of_traffic hwrites.ownerTraffic v
    have hflag : (enforceRemnawaveCombinedLimitForUser db v).2.flag? v =
        some (b || remnawaveCombinedLimited row (loadLocalTotalBytes db v)) := by
      unfold enforceRemnawaveCombinedLimitForUser
      rw [hrow]
      rw [← hid] at hb ⊢
      exact combinedLimit_flag? row hb
    -- a flag that is set stays set, and the limit sets it for a reason that lasts
    refine ⟨⟨row, hprofile, hcarries⟩, htotal.symm ▸ h.grown, _, hflag, fun hreason => ?_,
      fun hblocked => ?_⟩
    · rw [hon hreason]
      rfl
    · rw [htotal]
      rcases (Bool.or_eq_true _ _).mp hblocked with hold | hlimited
      · exact honly hold
      · exact .inr ((hcarries.limited_iff _).mp hlimited)
  · exact h.frame (hwrites.sameAccount_of_owner hvu)

theorem limits {st : PeerResults} (h : ImportHeld item imported total u st.db) (hwf : st.db.WF)
    (v : UserId) : ImportHeld item imported total u (enforceLimits cfg st v now).db := by
  have hlocal : Writes (OfOwner v) st.db (enforceLocalLifecycleForUser cfg st.db v now).2 :=
    enforceLocalLifecycleForUser_writes hwf v now
  refine combined ?_ (hlocal.wf hwf) v
  by_cases hvu : v = u
  · subst hvu
    obtain ⟨row, hrow, -⟩ := h.row
    rw [enforceLocalLifecycle_of_profile hrow now]
    exact h
  · exact h.frame (hlocal.sameAccount_of_owner hvu)

theorem purge (h : ImportHeld item imported total u db) (hwf : db.WF) :
    ImportHeld item imported total u (purgeConfirmedRemnawaveDeletes db).2 := by
  obtain ⟨row, hrow, hcarries⟩ := h.row
  exact h.frame (sameAccount_of_purge_undeleted hwf hrow hcarries.undeleted)

theorem sticks : Sticks cfg u now (ImportHeld item imported total u) where
  grows huser hprofile htotal h := h.grows huser hprofile htotal
  limits v hwf h := h.limits hwf v
  purge hwf h := h.purge hwf

/-- The import itself. -/
theorem of_post {uuids : List String} {row : RemnawaveUser}
    (hwf : db'.WF) (h : PostState item imported db db' uuids row) :
    ImportHeld item imported (loadLocalTotalBytes db' row.userId) row.userId db' := by
  have htotal : loadLocalTotalBytes db' row.userId = loadLocalTotalBytes db row.userId :=
    loadLocalTotalBytes_of_traffic h.others.traffic _
  obtain ⟨user, hu, hblocked⟩ := h.owner
  refine ⟨⟨row, hwf.profileUsers.get?_eq_some h.stored, h.uuid, h.limit, h.used, h.undeleted⟩,
    le_rfl, user.isBlocked, ?_, ?_, ?_⟩
  · unfold Db.flag?
    rw [hu]
    rfl
  · rw [htotal]
    exact hblocked.mpr
  · rw [htotal]
    exact hblocked.mp

/-- A request that says nothing about the profile. -/
theorem request {request : Request} {e : Effect} (h : ImportHeld item imported total u db)
    (hwf : db.WF) (hok : handle cfg db now request = .ok e)
    (hleaves : leavesProfile item.uuid request = true) :
    ImportHeld item imported total u e.db := by
  obtain ⟨row, hrow, hcarries⟩ := h.row
  cases request with
  | upsert data =>
      obtain ⟨st, hst, he⟩ := upsertRemnawaveUsers_ok hok
      rw [he]
      refine h.frame (items_spare data hwf (UpsertState.heldOk_start db) hst hrow fun x hx => ?_)
      rw [hcarries.uuid]
      simpa using List.all_eq_true.mp hleaves x hx
  | markDeleted other =>
      rcases markRemnawaveUserDeleted_ok hok with he | ⟨gone, hr, huuid, user, hu, he⟩
      · rw [he]
        exact h
      · rw [he]
        have hne : gone.userId ≠ u := by
          intro hid
          have hsame : gone = row :=
            hwf.profileUsers.eq_of_key hr (Rows.mem_of_get? hrow)
              (hid.trans (Rows.key_of_get? hrow).symm)
          refine of_decide_eq_true hleaves ?_
          rw [← huuid, hsame, hcarries.uuid]
        have huid : user.id = gone.userId := Rows.key_of_get? hu
        have hsaved : SameAccount u db (db.saveProfile (gone.deleteRequested now)) :=
          Spares.sameAccount (w := .profile (gone.deleteRequested now)) hne
        exact h.frame (hsaved.trans
          ((requestRemnawaveDelete_ofOwner hu now).sameAccount_of_owner (huid ▸ hne)))
  | reconcileComplete seen =>
      cases hok
      have hseen : row.remnawaveUuid ∈ seen := by
        rw [hcarries.uuid]
        exact of_decide_eq_true hleaves
      exact (h.frame (sameAccount_of_reconcileMissing hwf hrow hseen)).purge
        ((reconcileMissingRemnawaveUsers_writes hwf seen).wf hwf)
  | syncResult nodeId data => exact sticks.syncRequest h hwf hok
  | heartbeatResult nodeId data => exact sticks.heartbeatRequest h hwf hok
  | _ =>
      -- the local routes refuse an imported account, the rest is about something else
      obtain ⟨b, hb, -⟩ := h.flag
      obtain ⟨user, hu, -⟩ := owner_of_flag? hb
      have hnot := not_touches_of_profile (u := u) (by rw [hrow]; simp) hok
        (fun _ _ heq => by cases heq) (fun _ _ heq => by cases heq)
      exact h.frame (sameAccount_of_foreign hwf hu hok hnot rfl)

theorem trace {s t : Panel} {steps : List (Panel × Call)} (htrace : (panel cfg).Trace s steps t)
    (hleaves : ∀ x ∈ steps, leavesProfile item.uuid x.2.request = true) (hwf : s.db.WF)
    (h : ImportHeld item imported total u s.db) :
    t.db.WF ∧ ImportHeld item imported total u t.db := by
  have hkeeps : ∀ {db : Db} {call : Call} {e : Effect}, db.WF →
      ImportHeld item imported total u db → leavesProfile item.uuid call.request = true →
      handle cfg db call.now call.request = .ok e → ImportHeld item imported total u e.db :=
    fun hwf h hleaves hok => h.request hwf hok hleaves
  exact panel_trace_keeps hkeeps htrace hleaves hwf h

end ImportHeld

/-- After the whole batch the account of the item is as the item left it. -/
theorem upsertItems_imports {before st : UpsertState} (hwf : before.db.WF)
    (hheld : before.HeldOk) {pre post : List RemnawaveUserIn}
    (hpost : ∀ x ∈ post, x.uuid ≠ item.uuid)
    (h : upsertItems cfg imported (pre ++ item :: post) before = some st) :
    ∃ u, ImportHeld item imported (loadLocalTotalBytes st.db u) u st.db := by
  obtain ⟨st₁, st₂, hbefore, hitem, hafter⟩ := upsertItems_split h
  have hwf₁ : st₁.db.WF := (upsertItems_writes pre hwf hheld hbefore).wf hwf
  have hheld₁ := upsertItems_held pre hwf hheld hbefore
  obtain ⟨hw₂, hheld₂⟩ := upsertItem_writes hwf₁ hheld₁ hitem
  have hwf₂ := hw₂.wf hwf₁
  obtain ⟨stored, uuids, -, hstate⟩ := item_postState hwf₁ hheld₁ hitem
  -- the rest of the batch spares the account
  have hrow : st₂.db.profileOf? stored.userId = some stored :=
    hwf₂.profileUsers.get?_eq_some hstate.stored
  have hsame : SameAccount stored.userId st₂.db st.db := by
    refine items_spare post hwf₂ hheld₂ hafter hrow fun x hx => ?_
    rw [hstate.uuid]
    exact hpost x hx
  refine ⟨stored.userId, ?_⟩
  rw [hsame.total]
  exact (ImportHeld.of_post hwf₂ hstate).frame hsame

/-- After the import and everything that followed, the account of the profile
is the one that was imported. -/
theorem LastImported.held {s t : Panel} (h : LastImported cfg item imported s t)
    {row : RemnawaveUser} (hrow : row ∈ t.db.profiles) (huuid : row.remnawaveUuid = item.uuid) :
    t.db.WF ∧ ImportHeld item imported (loadLocalTotalBytes s.db row.userId) row.userId t.db := by
  obtain ⟨before, pre, post, effect, steps, hreach, hpost, hok, hstep, htrace, hleaves⟩ := h
  have hwf := panel_wf hreach
  obtain ⟨st, hst, he⟩ := upsertRemnawaveUsers_ok hok
  obtain ⟨-, rfl⟩ := panel_step hstep
  have hs : afterRequest cfg before.db imported (.upsert (pre ++ item :: post)) = st.db := by
    unfold afterRequest
    rw [hok]
    exact he
  rw [hs] at htrace ⊢
  have hstart := UpsertState.heldOk_start before.db
  have hwfs : st.db.WF := (upsertItems_writes _ hwf hstart hst).wf hwf
  obtain ⟨u, himport⟩ := upsertItems_imports hwf hstart hpost hst
  obtain ⟨hwft, hheld⟩ := himport.trace htrace hleaves hwfs
  -- the profile of `t` is the one the import wrote
  obtain ⟨last, hlast, hcarries⟩ := hheld.row
  have hid : row.userId = u := by
    rw [hwft.profileUuids.eq_of_key hrow (Rows.mem_of_get? hlast) (huuid.trans hcarries.uuid.symm)]
    exact Rows.key_of_get? hlast
  rw [hid]
  exact ⟨hwft, hheld⟩

/-! ## The second call -/

/-- The flag of the account before the second call, when no threshold was
crossed since the first. -/
theorem ImportHeld.blocked_iff {total : Nat} (h : ImportHeld item imported total u db)
    (htraffic : LimitReached item (loadLocalTotalBytes db u) ↔ LimitReached item total) :
    ∃ user, db.user? u = some user ∧ (user.isBlocked = true ↔
      remnawaveBlocked item.status item.expireAt imported = true ∨
        LimitReached item (loadLocalTotalBytes db u)) := by
  obtain ⟨b, hb, hon, honly⟩ := h.flag
  obtain ⟨user, hu, rfl⟩ := owner_of_flag? hb
  refine ⟨user, hu, honly, fun hreason => hon ?_⟩
  exact hreason.imp_right htraffic.mp

/-- The limit of the new profile, on tables with the same traffic and peers. -/
theorem newLimit_nil_iff {db' : Db} (hwf : db'.WF) {row : RemnawaveUser} (hr : row ∈ db'.profiles)
    (htraffic : db'.traffic = db.traffic) (hpeers : db'.peers = db.peers) :
    (enforceRemnawaveCombinedLimit (db'.saveProfile (applyRemnawaveProfile row item now))
        (applyRemnawaveProfile row item now)).1.1 = [] ↔
      (LimitReached item (loadLocalTotalBytes db row.userId) →
        ∀ p ∈ db.peersOf row.userId, p.status = .pendingDelete) := by
  let row' := applyRemnawaveProfile row item now
  have hsave : Writes Imports db' (db'.saveProfile row') :=
    Writes.single (.profile row') trivial ⟨row, hr, rfl, rfl⟩
  have hmem : row' ∈ (db'.saveProfile row').profiles :=
    Rows.mem_save.mpr (.inl ⟨rfl, row, hr, rfl⟩)
  rw [enforceCombined_nodes_nil_iff (hsave.wf hwf) hmem, combinedLimited_iff]
  have htotal : loadLocalTotalBytes (db'.saveProfile row') row.userId =
      loadLocalTotalBytes db row.userId := loadLocalTotalBytes_of_traffic htraffic _
  have hown : (db'.saveProfile row').peersOf row.userId = db.peersOf row.userId := by
    show db'.peers.filter _ = db.peers.filter _
    rw [hpeers]
  show (LimitReached item (loadLocalTotalBytes (db'.saveProfile row') row.userId) →
    ∀ p ∈ (db'.saveProfile row').peersOf row.userId, _) ↔ _
  rw [htotal, hown]

/-- The import of a stored profile never fails. What it does is nothing exactly
when neither of its two steps reports a node. -/
theorem reimport_cases (cfg : Config) (hwf : db.WF) {row : RemnawaveUser} (hrow : row ∈ db.profiles)
    (huuid : row.remnawaveUuid = item.uuid) {user : User} (hu : db.user? row.userId = some user)
    (now : Time) {b : Bool} (hb : remnawaveBlocked item.status item.expireAt now = b) :
    (∃ effect, handle cfg db now (.upsert [item]) = .ok effect ∧ ImportsNothing db effect) ↔
      (user.isBlocked = b ∨ ((∀ p ∈ db.peersOf row.userId, db.PeerSettled b p) ∧
        (b = false → db.Provisioned row.userId))) ∧
      (LimitReached item (loadLocalTotalBytes db row.userId) →
        ∀ p ∈ db.peersOf row.userId, p.status = .pendingDelete) := by
  have hid : user.id = row.userId := Rows.key_of_get? hu
  let life := applyRemnawaveLifecycle cfg db user (loadPeers db row.userId) item now
  let row' := applyRemnawaveProfile row item now
  let limit := enforceRemnawaveCombinedLimit (life.2.saveProfile row') row'
  let st := finishUpsert { db } life.2 row (loadPeers db row.userId) life.1 item now
  have hitem : upsertItem cfg { db } item now = some st := by
    unfold upsertItem
    rw [← huuid, find?_profile hwf hrow]
    show (db.user? row.userId).map _ = _
    rw [hu]
    rfl
  have hhandle : handle cfg db now (.upsert [item]) = .ok {
      db := st.db
      queued := enqueueSyncNodes st.affectedNodeIds ++
        enqueueRemnawaveDisableUsers st.remoteDisableUuids
      reply := .upserted st.upserted (sortedSet st.affectedNodeIds)
        (sortedTexts st.remoteDisableUuids) } := by
    show upsertRemnawaveUsers cfg db [item] now = _
    unfold upsertRemnawaveUsers upsertItems
    rw [hitem]
    rfl
  have haffected : st.affectedNodeIds = life.1 ++ limit.1.1 := rfl
  have hlife : life.1 = [] ↔ user.isBlocked = b ∨
      ((∀ p ∈ db.peersOf row.userId, db.PeerSettled b p) ∧
        (b = false → db.Provisioned row.userId)) := by
    have hstored : db.user? user.id = some user := hid ▸ hu
    have hiff : (applyRemnawaveLifecycle cfg db user (loadPeers db user.id) item now).1 = [] ↔ _ :=
      applyRemnawaveLifecycle_nil_iff hwf hstored item now hb
    rw [hid] at hiff
    exact hiff
  have hwrites : Writes (OfOwner row.userId) db life.2 := by
    rw [← hid]
    exact (ownPeers_loadPeers hwf row.userId).lifecycle_writes cfg hu item now
  have hrow₁ := hwrites.stored_profile hrow
  rw [hhandle, ← hlife]
  -- the limit works on the peers the lifecycle left, which are the stored ones if it was idle
  constructor
  · rintro ⟨effect, he, hnothing⟩
    cases he
    obtain ⟨uuids, disabled, hreply⟩ := hnothing.affected
    have hsorted : sortedSet st.affectedNodeIds = [] := by injection hreply
    rw [sortedSet_eq_nil, haffected, List.append_eq_nil_iff] at hsorted
    refine ⟨hsorted.1, (newLimit_nil_iff (hwrites.wf hwf) hrow₁ hwrites.ownerTraffic ?_).mp
      hsorted.2⟩
    exact applyRemnawaveLifecycle_idle hsorted.1
  · rintro ⟨hnone, hgoing⟩
    have hpeers : life.2.peers = db.peers := applyRemnawaveLifecycle_idle hnone
    have hlimit : limit.1.1 = [] :=
      (newLimit_nil_iff (hwrites.wf hwf) hrow₁ hwrites.ownerTraffic hpeers).mpr hgoing
    rw [hnone, hlimit] at haffected
    refine ⟨_, rfl, ⟨st.upserted, sortedTexts st.remoteDisableUuids, ?_⟩, ?_, ?_⟩
    · rw [haffected]
      rfl
    · intro nodeId hmem
      rw [haffected] at hmem
      obtain ⟨uuid, -, heq⟩ := List.mem_map.mp hmem
      cases heq
    · exact (enforceCombined_idle hlimit).trans hpeers

/-- **Repeated import.** The profile last imported for an account, imported
again with no threshold crossed since, does nothing exactly when the combined
limit finds nothing to take away, and the lifecycle nothing to give back. -/
theorem reimport_iff {s t : Panel} (h : LastImported cfg item imported s t)
    {row : RemnawaveUser} (hrow : row ∈ t.db.profiles) (huuid : row.remnawaveUuid = item.uuid)
    (htime : remnawaveBlocked item.status item.expireAt now =
      remnawaveBlocked item.status item.expireAt imported)
    (htraffic : LimitReached item (loadLocalTotalBytes t.db row.userId) ↔
      LimitReached item (loadLocalTotalBytes s.db row.userId)) :
    (∃ effect, handle cfg t.db now (.upsert [item]) = .ok effect ∧ ImportsNothing t.db effect) ↔
      LimitIdle item now row.userId t.db := by
  obtain ⟨hwf, hheld⟩ := h.held hrow huuid
  obtain ⟨user, hu, hblocked⟩ := hheld.blocked_iff htraffic
  rw [← htime] at hblocked
  rw [reimport_cases cfg hwf hrow huuid hu now rfl]
  unfold LimitIdle
  by_cases hlimit : LimitReached item (loadLocalTotalBytes t.db row.userId)
  · have hflag : user.isBlocked = true := hblocked.mpr (.inr hlimit)
    rw [hflag]
    cases hb : remnawaveBlocked item.status item.expireAt now with
    | true => simp [hlimit]
    | false =>
        -- the flag of the limit is taken for the profile's, so the account is unblocked first
        simp only [Bool.true_eq_false, false_or, hlimit, forall_const]
        constructor
        · rintro ⟨⟨hsettled, hprov⟩, hgoing⟩
          refine ⟨hgoing, fun p hp => ?_, hprov⟩
          have hset := hsettled p hp
          unfold Db.PeerSettled at hset
          rw [if_neg Bool.false_ne_true, hgoing p hp] at hset
          exact hset.resolve_left (by simp [PeerStatus.live])
        · rintro ⟨hgoing, htomb, hprov⟩
          refine ⟨⟨fun p hp => ?_, hprov⟩, hgoing⟩
          unfold Db.PeerSettled
          rw [if_neg Bool.false_ne_true]
          exact .inr (htomb p hp)
  · -- below the limit the flag is the profile's own
    have hflag : user.isBlocked = remnawaveBlocked item.status item.expireAt now := by
      rw [Bool.eq_iff_iff, hblocked, or_iff_left hlimit]
    simp [hflag, hlimit]

instance (item : RemnawaveUserIn) (total : Nat) : Decidable (LimitReached item total) :=
  inferInstanceAs (Decidable (_ ∧ _))

/-- A replay in which the profile is imported alone, and not mentioned again. -/
theorem lastImported_of_replay {before after : List Call} {t : Panel}
    (h : (panel cfg).replay (before ++ ⟨imported, .upsert [item]⟩ :: after) = some t)
    (hok : ((panel cfg).replay before).all
      (fun s => (handle cfg s.db imported (.upsert [item])).toBool) = true)
    (hleaves : ∀ call ∈ after, leavesProfile item.uuid call.request = true) :
    ∃ s, LastImported cfg item imported s t := by
  unfold TSys.replay at h
  rw [TSys.replayFrom_append] at h
  obtain ⟨start, hstart, h⟩ := Option.bind_eq_some_iff.mp h
  obtain ⟨s, hstep, h⟩ := Option.bind_eq_some_iff.mp h
  have hrun : (panel cfg).ReplayOk (fun _ call => leavesProfile item.uuid call.request = true) s
      after := TSys.replayOk_of_forall after (fun call hcall _ => hleaves call hcall) s
  obtain ⟨steps, htrace, hsteps⟩ := TSys.Trace.of_replayOk after hrun h
  have hreplay : (panel cfg).replay before = some start := hstart
  rw [hreplay] at hok
  cases he : handle cfg start.db imported (.upsert [item]) with
  | error err =>
      rw [Option.all_some, he] at hok
      cases hok
  | ok effect =>
      exact ⟨s, start, [], [], effect, steps, TSys.replay_reachable hstart, by simp, he, hstep,
        htrace, hsteps⟩

/-- Below its limit, the profile is imported again without effect, with a node
result in between. -/
theorem reimport_tenBytes : ∃ s t, LastImported exampleConfig tenBytes 1 s t ∧
    t.db.peers.length = 1 ∧
    ∃ effect, handle exampleConfig t.db 4 (.upsert [tenBytes]) = .ok effect ∧
      ImportsNothing t.db effect := by
  have hrun : ((panel exampleConfig).replay limitedDevice).any (fun t => t.db.peers.length = 1 ∧
      ∃ row ∈ t.db.profiles, row.remnawaveUuid = tenBytes.uuid ∧
        ¬LimitReached tenBytes (loadLocalTotalBytes t.db row.userId)) = true := by decide +kernel
  have hok : ((panel exampleConfig).replay (limitedDevice.take 1)).all (fun s =>
      (handle exampleConfig s.db 1 (.upsert [tenBytes])).toBool) = true := by decide +kernel
  obtain ⟨t, ht, hfacts⟩ := TSys.replay_any hrun
  obtain ⟨hlen, row, hrow, huuid, hbelow⟩ := of_decide_eq_true hfacts
  have hleaves : ∀ call ∈ limitedDevice.drop 2,
      leavesProfile tenBytes.uuid call.request = true := by
    decide
  obtain ⟨s, hlast⟩ := lastImported_of_replay ht hok hleaves
  have hbefore : ¬LimitReached tenBytes (loadLocalTotalBytes s.db row.userId) :=
    fun h => hbelow (h.mono (hlast.held hrow huuid).2.grown)
  have htime : remnawaveBlocked tenBytes.status tenBytes.expireAt 4 =
      remnawaveBlocked tenBytes.status tenBytes.expireAt 1 := rfl
  exact ⟨s, t, hlast, hlen, (reimport_iff hlast hrow huuid htime
    (iff_of_false hbelow hbefore)).mpr fun h => absurd h hbelow⟩

/-- The profile whose limit is used up, imported for an account with a device,
and a node that has confirmed the removal of its key. -/
def usedUpConfirmed : List Call :=
  limitedDevice ++ ⟨4, .upsert [usedUp]⟩ :: [⟨5, .syncResult 0 {}⟩]

theorem limitReached_usedUp (total : Nat) : LimitReached usedUp total := by
  refine ⟨by decide, ?_⟩
  show (10 : Int) ≤ 10 + total
  omega

/-- Over its limit, the same profile takes the removed peer back to
`pending_delete` and queues another sync of the node. -/
theorem reimport_reopens : ∃ s t row, LastImported exampleConfig usedUp 4 s t ∧
    row ∈ t.db.profiles ∧ row.remnawaveUuid = usedUp.uuid ∧
    remnawaveBlocked usedUp.status usedUp.expireAt 6 =
      remnawaveBlocked usedUp.status usedUp.expireAt 4 ∧
    (LimitReached usedUp (loadLocalTotalBytes t.db row.userId) ↔
      LimitReached usedUp (loadLocalTotalBytes s.db row.userId)) ∧
    ¬∃ effect, handle exampleConfig t.db 6 (.upsert [usedUp]) = .ok effect ∧
      ImportsNothing t.db effect := by
  have hrun : ((panel exampleConfig).replay usedUpConfirmed).any (fun t =>
      (∃ row ∈ t.db.profiles, row.remnawaveUuid = usedUp.uuid) ∧
      (handle exampleConfig t.db 6 (.upsert [usedUp])).toOption.any
        (.syncNode 0 ∈ ·.queued)) = true := by decide +kernel
  have hok : ((panel exampleConfig).replay limitedDevice).all (fun s =>
      (handle exampleConfig s.db 4 (.upsert [usedUp])).toBool) = true := by decide +kernel
  obtain ⟨t, ht, hfacts⟩ := TSys.replay_any hrun
  obtain ⟨⟨row, hrow, huuid⟩, hqueued⟩ := of_decide_eq_true hfacts
  obtain ⟨s, hlast⟩ := lastImported_of_replay ht hok (by simp [leavesProfile])
  refine ⟨s, t, row, hlast, hrow, huuid, rfl,
    iff_of_true (limitReached_usedUp _) (limitReached_usedUp _), ?_⟩
  rintro ⟨effect, he, hnothing⟩
  rw [he] at hqueued
  exact hnothing.queued 0 (of_decide_eq_true hqueued)

end VpnPanel.Theorems
