import VpnPanel.Backend.Accounts

/-!
# An administrator's block

`lifecycle_status` holds the manual block and the derived states in one column.
A block survives every pass that derives `expired` or `limited` over it, as
long as the reason that was written over it stays; it is gone with that reason.
-/

namespace VpnPanel.Theorems

open VpnPanel.Lib VpnPanel.Backend

/-! ## What a pass derives -/

theorem desiredStatus_eq_active {user : User} {total : Nat} {now : Time} :
    desiredStatus user total now = .active ↔
      user.lifecycleStatus ≠ .blocked ∧ localUserExpired user now = false ∧
        localUserLimited user total = false := by
  unfold desiredStatus
  cases localUserExpired user now <;> cases localUserLimited user total <;> simp

/-- Expiry and limit only become more due with time and traffic. -/
theorem desiredStatus_ne_active_mono {user : User} {total total' : Nat} {now now' : Time}
    (h : desiredStatus user total now ≠ .active) (htotal : total ≤ total') (hnow : now ≤ now') :
    desiredStatus user total' now' ≠ .active := by
  intro hact
  obtain ⟨hstatus, hexp, hlim⟩ := desiredStatus_eq_active.mp hact
  refine h (desiredStatus_eq_active.mpr ⟨hstatus, ?_, ?_⟩)
  · unfold localUserExpired at hexp ⊢
    cases he : user.expireAt with
    | none => rfl
    | some at_ =>
        rw [he] at hexp
        have hlate : ¬at_ ≤ now' := by simpa using hexp
        simpa using fun hle : at_ ≤ now => hlate (hle.trans hnow)
  · unfold localUserLimited at hlim ⊢
    by_contra hyes
    simp only [Bool.not_eq_false, Bool.and_eq_true, decide_eq_true_eq] at hyes
    have hmore : user.trafficLimitBytes ≤ total' := hyes.2.trans htotal
    simp [hyes.1, hmore] at hlim

/-- A second pass at the same time and total changes nothing. -/
theorem desiredStatus_derived (user : User) (total : Nat) (now : Time) :
    desiredStatus (user.derived total now) total now = desiredStatus user total now := by
  have hexp : localUserExpired (user.derived total now) now = localUserExpired user now := rfl
  have hlim : localUserLimited (user.derived total now) total = localUserLimited user total := rfl
  have hstatus : (user.derived total now).lifecycleStatus = desiredStatus user total now := rfl
  unfold desiredStatus at hstatus ⊢
  rw [hexp, hlim, hstatus]
  cases localUserExpired user now <;> cases localUserLimited user total <;> simp

/-! ## The held block -/

/-- The local account `u` is blocked, and a lifecycle pass at `now` would leave
it blocked. -/
structure BlockHeld (u : UserId) (now : Time) (db : Db) : Prop where
  intro ::
  exists_row : ∃ user, db.user? u = some user ∧ db.profileOf? u = none ∧ user.isBlocked = true ∧
    desiredStatus user (loadLocalTotalBytes db u) now ≠ .active

namespace BlockHeld

variable {cfg : Config} {u : UserId} {now now' : Time} {db db' : Db}

theorem grows (h : BlockHeld u now db) (huser : db'.user? u = db.user? u)
    (hprofile : db'.profileOf? u = db.profileOf? u)
    (htotal : loadLocalTotalBytes db u ≤ loadLocalTotalBytes db' u) (hnow : now ≤ now') :
    BlockHeld u now' db' := by
  obtain ⟨user, hu, hp, hb, hd⟩ := h
  exact ⟨user, huser.trans hu, hprofile.trans hp, hb, desiredStatus_ne_active_mono hd htotal hnow⟩

theorem frame (h : BlockHeld u now db) (hsame : SameAccount u db db') : BlockHeld u now db' :=
  h.grows hsame.user hsame.profile (Nat.le_of_eq hsame.total.symm) le_rfl

theorem later (h : BlockHeld u now db) (hnow : now ≤ now') : BlockHeld u now' db :=
  h.grows rfl rfl le_rfl hnow

theorem local_ (h : BlockHeld u now db) : db.profileOf? u = none := by
  obtain ⟨user, -, hp, -⟩ := h
  exact hp

theorem blocked (h : BlockHeld u now db) : (db.user? u).any (·.isBlocked) = true := by
  obtain ⟨user, hu, -, hb, -⟩ := h
  rw [hu]
  exact hb

/-- A pass over a row that derives no `active` state holds the block. -/
theorem of_pass (row : User) {old : User} (hu : db.user? row.id = some old)
    (hp : db.profileOf? row.id = none) {total : Option Nat}
    (htotal : total.getD (loadLocalTotalBytes db row.id) = loadLocalTotalBytes db row.id)
    (hd : desiredStatus row (loadLocalTotalBytes db row.id) now ≠ .active) :
    BlockHeld row.id now (applyLocalLifecycleState cfg db row total now).2 := by
  obtain ⟨hsame, hrow⟩ := applyLocalLifecycleState_account cfg row hu total now
  rw [htotal] at hsame hrow
  have hload : loadLocalTotalBytes (applyLocalLifecycleState cfg db row total now).2 row.id =
      loadLocalTotalBytes db row.id := hsame.total
  refine ⟨_, hrow, hsame.profile.trans hp, ?_, ?_⟩
  · simpa [User.derived] using hd
  · rw [hload, desiredStatus_derived]
    exact hd

theorem enforceLocal (h : BlockHeld u now db) (hwf : db.WF) (v : UserId) :
    BlockHeld u now (enforceLocalLifecycleForUser cfg db v now).2 := by
  by_cases hvu : v = u
  · subst hvu
    obtain ⟨user, hu, hp, hb, hd⟩ := h
    have hid : user.id = v := Rows.key_of_get? hu
    subst hid
    unfold enforceLocalLifecycleForUser
    rw [hu, hp]
    exact of_pass user hu hp rfl hd
  · exact h.frame ((enforceLocalLifecycleForUser_writes hwf v now).sameAccount_of_owner hvu)

theorem enforceCombined (h : BlockHeld u now db) (hwf : db.WF) (v : UserId) :
    BlockHeld u now (enforceRemnawaveCombinedLimitForUser db v).2 := by
  by_cases hvu : v = u
  · subst hvu
    unfold enforceRemnawaveCombinedLimitForUser
    rw [h.local_]
    exact h
  · exact h.frame ((enforceRemnawaveCombinedLimitForUser_writes hwf v).sameAccount_of_owner hvu)

theorem limits {st : PeerResults} (h : BlockHeld u now st.db) (hwf : st.db.WF) (v : UserId) :
    BlockHeld u now (enforceLimits cfg st v now).db := by
  have hlocal : Writes (OfOwner v) st.db (enforceLocalLifecycleForUser cfg st.db v now).2 :=
    enforceLocalLifecycleForUser_writes hwf v now
  exact (h.enforceLocal hwf v).enforceCombined (hlocal.wf hwf) v

/-- A node result only raises the total, and purges no local account. -/
theorem sticks : Sticks cfg u now (BlockHeld u now) where
  grows huser hprofile htotal h := h.grows huser hprofile htotal le_rfl
  limits v hwf h := h.limits hwf v
  purge _ h := h.frame (sameAccount_of_purge_local h.local_)

end BlockHeld

/-! ## What lifts a block -/

/-- The manual block is no longer in the row's status, and the row is neither
expired nor over its limit. -/
def recovered (row : User) (total : Nat) (now : Time) : Bool :=
  row.lifecycleStatus ≠ .blocked && !localUserExpired row now && !localUserLimited row total

/-- A lifecycle update or a traffic reset of `u` that takes away the reason
which was written over its block. -/
def lifts (u : UserId) (s : Panel) (call : Call) : Bool :=
  match call.request with
  | .updateLocalLifecycle v data =>
      v = u && (s.db.user? u).any fun user =>
        recovered (data.apply user) (loadLocalTotalBytes s.db u) call.now
  | .resetLocalTraffic v =>
      v = u && (s.db.user? u).any fun user =>
        user.trafficResetPolicy = .manual && recovered user 0 call.now
  | _ => false

theorem desiredStatus_of_recovered {row : User} {total : Nat} {now : Time} :
    desiredStatus row total now = .active ↔ recovered row total now = true := by
  rw [desiredStatus_eq_active]
  unfold recovered
  simp [and_assoc]

theorem reset_user? {db : Db} {user : User} (now : Time) (hu : db.user? user.id = some user) :
    (resetLocalTrafficUsage db user now).2.user? user.id =
      some (resetLocalTrafficUsage db user now).1 :=
  Rows.get?_save_self hu

theorem reset_total (db : Db) (user : User) (now : Time) :
    loadLocalTotalBytes (resetLocalTrafficUsage db user now).2 user.id = 0 := by
  rw [loadLocalTotalBytes_eq]
  have hnone : Rows.get? TrafficAggregate.identity
      (resetLocalTrafficUsage db user now).2.traffic.userLifetime user.id = none := by
    rw [Rows.get?_eq_none]
    intro r hr
    simpa using (List.mem_filter.mp hr).2
  rw [hnone]
  rfl

/-! ## One request -/

section Step

variable {cfg : Config} {u : UserId} {db : Db} {e : Effect}

/-- An accepted block request holds its own block. -/
theorem blockHeld_of_block {now : Time} (h : apiBlockUser cfg db u now = .ok e) :
    BlockHeld u now e.db := by
  obtain ⟨user, hu, rfl⟩ := apiBlockUser_ok h
  obtain ⟨hstored, hp⟩ := localUser_ok hu
  have hid : user.id = u := Rows.key_of_get? hstored
  subst hid
  exact BlockHeld.of_pass { user with lifecycleStatus := .blocked } hstored hp rfl
    (desiredStatus_ne_active_of_blocked rfl)

/-- Every accepted request keeps a held block, unless it unblocks or deletes
the account, or lifts the block. -/
theorem BlockHeld.handle_keeps {s : Panel} {call : Call} (hwf : s.db.WF)
    (h : BlockHeld u call.now s.db) (hok : handle cfg s.db call.now call.request = .ok e)
    (hunblock : call.request ≠ .unblockUser u) (hdelete : call.request ≠ .deleteUser u)
    (hlift : lifts u s call = false) : BlockHeld u call.now e.db := by
  obtain ⟨user, hu, hp, hb, hd⟩ := id h
  have hid : user.id = u := Rows.key_of_get? hu
  by_cases ht : call.request.Touches u
  swap
  · exact h.frame (sameAccount_of_request hwf hu hp hok ht)
  subst hid
  cases hreq : call.request with
  | updateDeviceLimit v limit =>
      rw [hreq] at hok ht
      obtain rfl : v = user.id := ht
      obtain ⟨same, hsame, he⟩ := apiUpdateDeviceLimit_ok hok
      obtain rfl : user = same := Option.some.inj (hu.symm.trans (localUser_ok hsame).1)
      rw [he]
      exact ⟨{ user with deviceLimit := limit }, Rows.get?_save_self hu, hp, hb, hd⟩
  | blockUser v =>
      rw [hreq] at hok ht
      obtain rfl : v = user.id := ht
      exact blockHeld_of_block hok
  | unblockUser v =>
      rw [hreq] at ht
      obtain rfl : v = user.id := ht
      exact absurd hreq hunblock
  | deleteUser v =>
      rw [hreq] at ht
      obtain rfl : v = user.id := ht
      exact absurd hreq hdelete
  | updateLocalLifecycle v data =>
      rw [hreq] at hok ht
      obtain rfl : v = user.id := ht
      obtain ⟨same, hsame, rfl⟩ := apiUpdateLocalLifecycle_ok hok
      obtain rfl : user = same := Option.some.inj (hu.symm.trans (localUser_ok hsame).1)
      refine BlockHeld.of_pass (data.apply user) hu hp rfl fun hact => ?_
      have hrec : recovered (data.apply user) (loadLocalTotalBytes s.db user.id) call.now = true :=
        desiredStatus_of_recovered.mp hact
      simp [lifts, hreq, hu, hrec] at hlift
  | resetLocalTraffic v =>
      rw [hreq] at hok ht
      obtain rfl : v = user.id := ht
      obtain ⟨same, hsame, hmanual, rfl⟩ := apiResetLocalTraffic_ok hok
      obtain rfl : user = same := Option.some.inj (hu.symm.trans (localUser_ok hsame).1)
      have hzero := reset_total s.db user call.now
      have hreset := reset_user? call.now hu
      have hstamped : (resetLocalTrafficUsage s.db user call.now).1.id = user.id := rfl
      refine BlockHeld.of_pass (resetLocalTrafficUsage s.db user call.now).1 hreset hp
        hzero.symm ?_
      intro hact
      rw [hstamped, hzero] at hact
      have hrec : recovered user 0 call.now = true := desiredStatus_of_recovered.mp hact
      simp [lifts, hreq, hu, hmanual, hrec] at hlift
  | syncResult nodeId data =>
      rw [hreq] at hok
      exact BlockHeld.sticks.syncRequest h hwf hok
  | heartbeatResult nodeId data =>
      rw [hreq] at hok
      exact BlockHeld.sticks.heartbeatRequest h hwf hok
  | _ =>
      rw [hreq] at ht
      exact ht.elim

theorem afterRequest_ok {now : Time} {request : Request}
    (h : handle cfg db now request = .ok e) : afterRequest cfg db now request = e.db := by
  unfold afterRequest
  rw [h]

theorem unblocked_of_derived {now : Time} {row : User} {total : Nat} {v : UserId}
    (h : db.user? v = some (row.derived total now))
    (hact : desiredStatus row total now = .active) :
    (db.user? v).any (·.isBlocked) = false := by
  rw [h]
  simpa [User.derived] using hact

theorem localUser_eq {user : User} (hu : db.user? u = some user) (hp : db.profileOf? u = none) :
    localUser db u = .ok user := by
  unfold localUser
  rw [hu, hp]
  rfl

/-- A lifting request leaves the account unblocked. -/
theorem unblocked_of_lifts {s : Panel} {call : Call} (hp : s.db.profileOf? u = none)
    (hlift : lifts u s call = true) :
    ((afterRequest cfg s.db call.now call.request).user? u).any (·.isBlocked) = false := by
  unfold lifts at hlift
  split at hlift
  · next v data hreq =>
      simp only [Bool.and_eq_true, decide_eq_true_eq, Option.any_eq_true] at hlift
      obtain ⟨rfl, user, hu, hrec⟩ := hlift
      obtain rfl : user.id = v := Rows.key_of_get? hu
      have hrow := (applyLocalLifecycleState_account cfg (data.apply user) hu none call.now).2
      have hok : handle cfg s.db call.now call.request =
          .ok (commitLifecycle cfg s.db (data.apply user) none call.now) := by
        rw [hreq]
        show (localUser s.db user.id >>= _) = _
        rw [localUser_eq hu hp]
        rfl
      rw [afterRequest_ok hok]
      exact unblocked_of_derived hrow (desiredStatus_of_recovered.mpr hrec)
  · next v hreq =>
      simp only [Bool.and_eq_true, decide_eq_true_eq, Option.any_eq_true] at hlift
      obtain ⟨rfl, user, hu, hmanual, hrec⟩ := hlift
      obtain rfl : user.id = v := Rows.key_of_get? hu
      let stamped := (resetLocalTrafficUsage s.db user call.now).1
      have hreset := reset_user? call.now hu
      have hrow := (applyLocalLifecycleState_account cfg stamped hreset (some 0) call.now).2
      have hok : handle cfg s.db call.now call.request =
          .ok (commitLifecycle cfg (resetLocalTrafficUsage s.db user call.now).2 stamped (some 0)
            call.now) := by
        rw [hreq]
        show (localUser s.db user.id >>= _) = _
        rw [localUser_eq hu hp]
        show (if user.trafficResetPolicy ≠ .manual then _ else _) = _
        rw [if_neg (not_not.mpr hmanual)]
        rfl
      rw [afterRequest_ok hok]
      exact unblocked_of_derived hrow (desiredStatus_of_recovered.mpr hrec)
  · cases hlift

end Step

/-! ## Runs -/

/-- Neither an accepted unblock request for `u` nor its deletion. -/
def LeavesBlock (cfg : Config) (u : UserId) (s : Panel) (call : Call) : Prop :=
  call.request ≠ .deleteUser u ∧
    ¬(call.request = .unblockUser u ∧ ∃ e, handle cfg s.db call.now call.request = .ok e)

/-- **A block holds exactly until its overwritten reason goes.** After an
accepted block request, over any run without an accepted unblock request for
the account (and without its deletion), the account is blocked in every state
if and only if no request of the run lifts the block. -/
theorem block_sticky_iff (cfg : Config) (s s' t : Panel) (call : Call) (u : UserId) (e : Effect)
    (steps : List (Panel × Call)) (hs : (panel cfg).Reachable s)
    (hreq : call.request = .blockUser u) (hok : handle cfg s.db call.now call.request = .ok e)
    (hstep : (panel cfg).step s call = some s') (hrun : (panel cfg).Trace s' steps t)
    (hleaves : ∀ x ∈ steps, LeavesBlock cfg u x.1 x.2) :
    (∀ x ∈ TSys.statesOf steps t, (x.db.user? u).any (·.isBlocked) = true) ↔
      ∀ x ∈ steps, ¬lifts u x.1 x.2 = true := by
  have hwf := panel_wf hs
  refine TSys.Trace.forall_states_iff (I := fun x => x.db.WF ∧ BlockHeld u x.clock x.db)
    (B := fun x c => lifts u x c = true) (fun x hx => hx.2.blocked) ?_ ?_ hrun hleaves
    ⟨(panel_step_phases hwf hstep).writes.wf hwf, ?_⟩
  · rintro x c x' ⟨hx, hheld⟩ hc hnolift hxc
    refine ⟨(panel_step_phases hx hxc).writes.wf hx, ?_⟩
    obtain ⟨hclock, rfl⟩ := panel_step hxc
    have hnow := hheld.later hclock
    cases hans : handle cfg x.db c.now c.request with
    | error err =>
        unfold afterRequest
        rw [hans]
        exact hnow
    | ok ans =>
        show BlockHeld u c.now (afterRequest cfg x.db c.now c.request)
        rw [afterRequest_ok hans]
        exact hnow.handle_keeps hx hans (fun hu => hc.2 ⟨hu, ans, hans⟩) hc.1
          (Bool.eq_false_iff.mpr hnolift)
  · rintro x c x' ⟨hx, hheld⟩ - hlift hxc hblocked
    obtain ⟨-, rfl⟩ := panel_step hxc
    rw [unblocked_of_lifts hheld.local_ hlift] at hblocked
    cases hblocked
  · obtain ⟨-, rfl⟩ := panel_step hstep
    show BlockHeld u call.now (afterRequest cfg s.db call.now call.request)
    rw [afterRequest_ok hok]
    rw [hreq] at hok
    exact blockHeld_of_block hok

/-- One local account. -/
def oneAccount : List Call := [⟨0, .addUser "alice" 0⟩]

/-- A blocked account that is given a traffic limit stays blocked. -/
theorem block_sticky_under_limit :
    ∃ s s' t, (panel exampleConfig).replay oneAccount = some s ∧
      (panel exampleConfig).step s ⟨1, .blockUser 0⟩ = some s' ∧
      (panel exampleConfig).step s' ⟨2, .updateLocalLifecycle 0 { trafficLimitBytes := 10 }⟩ =
        some t ∧ (t.db.user? 0).any (·.isBlocked) = true := by
  let limit : Call := ⟨2, .updateLocalLifecycle 0 { trafficLimitBytes := 10 }⟩
  have hrun : ((panel exampleConfig).replay oneAccount).any (fun s =>
      (handle exampleConfig s.db 1 (.blockUser 0)).toOption.isSome &&
      ((panel exampleConfig).step s ⟨1, .blockUser 0⟩).any fun s' =>
        !lifts 0 s' limit && ((panel exampleConfig).step s' limit).isSome) = true := by
    decide +kernel
  obtain ⟨s, hs, hrest⟩ := TSys.replay_any hrun
  simp only [Bool.and_eq_true] at hrest
  obtain ⟨hok, hrest⟩ := hrest
  obtain ⟨s', hs', hlimit⟩ := (Option.any_eq_true _ _).mp hrest
  simp only [Bool.and_eq_true, Bool.not_eq_true', Option.isSome_iff_exists] at hlimit
  obtain ⟨hnolift, t, ht⟩ := hlimit
  cases hans : handle exampleConfig s.db 1 (.blockUser 0) with
  | error err =>
      rw [hans] at hok
      cases hok
  | ok e =>
      refine ⟨s, s', t, hs, hs', ht, ?_⟩
      have hall := (block_sticky_iff exampleConfig s s' t ⟨1, .blockUser 0⟩ 0 e [(s', limit)]
        (TSys.replay_reachable hs) rfl hans hs' (.cons ht (.nil t)) ?_).mpr ?_
      · exact hall t (List.mem_cons_of_mem _ List.mem_cons_self)
      · intro x hx
        rw [List.mem_singleton.mp hx]
        exact ⟨nofun, fun h => nomatch h.1⟩
      · intro x hx
        rw [List.mem_singleton.mp hx, hnolift]
        exact Bool.false_ne_true

/-- A blocked account that is given an expiry in the past is stored as
`expired`, and the update that removes the expiry unblocks it. -/
theorem block_lifted_by_update :
    ∃ s s' s'' t, (panel exampleConfig).replay oneAccount = some s ∧
      (panel exampleConfig).step s ⟨1, .blockUser 0⟩ = some s' ∧
      (s'.db.user? 0).any (·.isBlocked) = true ∧
      (panel exampleConfig).step s' ⟨2, .updateLocalLifecycle 0 { expireAt := some 2 }⟩ =
        some s'' ∧
      (panel exampleConfig).step s'' ⟨3, .updateLocalLifecycle 0 {}⟩ = some t ∧
      (t.db.user? 0).any (·.isBlocked) = false := by
  have hrun : ((panel exampleConfig).replay oneAccount).any (fun s =>
      ((panel exampleConfig).step s ⟨1, .blockUser 0⟩).any fun s' =>
        (s'.db.user? 0).any (·.isBlocked) &&
        ((panel exampleConfig).step s'
          ⟨2, .updateLocalLifecycle 0 { expireAt := some 2 }⟩).any fun s'' =>
          ((panel exampleConfig).step s'' ⟨3, .updateLocalLifecycle 0 {}⟩).any fun t =>
            !(t.db.user? 0).any (·.isBlocked)) = true := by
    decide +kernel
  obtain ⟨s, hs, hrest⟩ := TSys.replay_any hrun
  obtain ⟨s', hs', hrest⟩ := (Option.any_eq_true _ _).mp hrest
  obtain ⟨hblocked, hrest⟩ := Bool.and_eq_true_iff.mp hrest
  obtain ⟨s'', hs'', hrest⟩ := (Option.any_eq_true _ _).mp hrest
  obtain ⟨t, ht, hfree⟩ := (Option.any_eq_true _ _).mp hrest
  exact ⟨s, s', s'', t, hs, hs', hblocked, hs'', ht, by simpa using hfree⟩

end VpnPanel.Theorems
