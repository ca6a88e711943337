import VpnPanel.Backend.Conservation

/-!
# Traffic conservation

The aggregates of every account agree with each other and with the ledger in
every reachable state, over every order of node results, resets and any other
request short of a node deletion.
-/

namespace VpnPanel.Theorems

open VpnPanel.Lib VpnPanel.Backend

/-! ## Runs with their resets -/

/-- The panel, and for each account the number of ledger rows it had at its last
traffic reset. -/
structure Audited where
  panel : Panel := {}
  mark : UserId → Nat := fun _ => 0

/-- The marks after a request: an accepted reset marks the end of the account's
ledger. -/
def markAfter (cfg : Config) (s : Audited) (call : Call) : UserId → Nat :=
  match call.request, handle cfg s.panel.db call.now call.request with
  | .resetLocalTraffic u, .ok effect =>
      Function.update s.mark u (effect.db.traffic.ledger u).length
  | _, _ => s.mark

def audited (cfg : Config) : TSys Audited Call where
  init := {}
  step s call := ((panel cfg).step s.panel call).map fun next =>
    { panel := next, mark := markAfter cfg s call }

/-- Every request but the deletion of a node. -/
def KeepsNodes (_ : Audited) (call : Call) : Prop := ∀ nodeId, call.request ≠ .deleteNode nodeId

/-! ## The equations -/

/-- The bytes of an account's lifetime row; a missing row counts as zero. -/
def lifetimeBytes (traffic : Traffic) (c : Column) (u : UserId) : Nat :=
  ((Rows.get? TrafficAggregate.identity traffic.userLifetime u).map (·.bytes c)).getD 0

/-- The bytes of an account's row of one day; a missing row counts as zero. -/
def dailyBytes (traffic : Traffic) (c : Column) (u : UserId) (day : Day) : Nat :=
  ((Rows.get? TrafficAggregate.identity traffic.userDaily (u, day)).map (·.bytes c)).getD 0

/-- Every total is the sum of its parts. -/
def TotalsAdd {κ : Type} (rows : List (TrafficAggregate κ)) : Prop :=
  ∀ row ∈ rows, row.totalBytes = row.rxBytes + row.txBytes

structure Balanced (db : Db) (mark : UserId → Nat) : Prop where
  userDaily : TotalsAdd db.traffic.userDaily
  userNodeDaily : TotalsAdd db.traffic.userNodeDaily
  userLifetime : TotalsAdd db.traffic.userLifetime
  userNodeLifetime : TotalsAdd db.traffic.userNodeLifetime
  /-- Lifetime row and the node rows of the account. -/
  nodes : ∀ c u, lifetimeBytes db.traffic c u =
    sumOf c (fun k => k.1 = u) db.traffic.userNodeLifetime
  /-- Daily row and the node rows of the account and day. -/
  days : ∀ c u day, dailyBytes db.traffic c u day =
    sumOf c (fun k => k.1 = u && k.2.2 = day) db.traffic.userNodeDaily
  /-- Lifetime row and the daily rows not before the day of the last reset. -/
  daily : ∀ c u, lifetimeBytes db.traffic c u =
    sumOf c (sinceReset u (db.resetAt? u)) db.traffic.userDaily
  /-- Lifetime row and the ledger rows recorded since the last reset. -/
  ledger : ∀ c u, lifetimeBytes db.traffic c u = db.traffic.ledgerSince c u (mark u)

theorem balanced_of_tallied {mark : UserId → Nat} {now : Time} {db : Db} (h : Tallied mark now db) :
    Balanced db mark := by
  have hlife : ∀ c u, lifetimeBytes db.traffic c u = sumOf c (· = u) db.traffic.userLifetime :=
    fun c u => (Tally.tally_single h.sound.userLifetime.distinct u).symm
  refine ⟨h.sound.userDaily.totals, h.sound.userNodeDaily.totals, h.sound.userLifetime.totals,
    h.sound.userNodeLifetime.totals, fun c u => ?_, fun c u day => ?_, fun c u => ?_,
    fun c u => ?_⟩
  · rw [hlife c u]
    exact (h.conserved u).nodes c
  · exact (Tally.tally_single h.sound.userDaily.distinct (u, day)).symm.trans
      ((h.conserved u).days c day)
  · rw [hlife c u]
    exact (h.conserved u).daily c
  · rw [hlife c u]
    exact (h.conserved u).ledger c

/-! ## One request -/

variable {cfg : Config}

theorem tallied_empty : Tallied (fun _ => 0) 0 {} := by
  have hrows : ∀ {κ : Type}, Aggregates ([] : List (TrafficAggregate κ)) :=
    ⟨List.nodup_nil, nofun⟩
  exact ⟨⟨hrows, hrows, hrows, hrows⟩, fun _ => ⟨fun _ => rfl, fun _ _ => rfl, fun _ => rfl,
    fun _ => by simp [Traffic.ledgerSince, Traffic.ledger, sumOf]⟩, nofun, fun _ _ => rfl,
    nofun, nofun⟩

/-- The tail of the lifecycle routes leaves the traffic alone. -/
theorem traffic_of_owner {db db' : Db} {u : UserId} (h : Writes (OfOwner u) db db') :
    db'.traffic = db.traffic := by
  refine h.keeps (I := fun b => b.traffic = db.traffic) ?_ rfl
  intro b w hw _ hb
  cases w <;> first | exact hw.elim | exact hb

theorem tallied_handle {mark : UserId → Nat} {db : Db} {now : Time} {request : Request}
    {effect : Effect} (hwf : db.WF) (h : Tallied mark now db)
    (hok : handle cfg db now request = .ok effect)
    (hnode : ∀ nodeId, request ≠ .deleteNode nodeId)
    (hreset : ∀ u, request ≠ .resetLocalTraffic u) : Tallied mark now effect.db := by
  obtain ⟨db₁, db₂, h₁, h₂, h₃⟩ := handle_phases hwf hok
  have ht₁ : Tallied mark now db₁ := h.writes hwf (fun b w hw => by
    cases w with
    | reading row data at_ => exact hw.2
    | resetTraffic row at_ => exact absurd hw.1 (hreset row.id)
    | deleteNode id => exact absurd hw (hnode id)
    | _ => trivial) h₁
  have ht₂ : Tallied mark now db₂ := ht₁.writes (h₁.wf hwf) (fun b w hw => by
    cases w <;> first | exact hw.elim | trivial) h₂
  exact ht₂.writes (h₂.wf (h₁.wf hwf)) (fun b w hw => by
    cases w <;> first | exact hw.elim | trivial) h₃

theorem tallied_reset {mark : UserId → Nat} {db : Db} {now : Time} {u : UserId} {effect : Effect}
    (hwf : db.WF) (h : Tallied mark now db)
    (hok : handle cfg db now (.resetLocalTraffic u) = .ok effect) :
    Tallied (Function.update mark u (effect.db.traffic.ledger u).length) now effect.db := by
  obtain ⟨user, hu, -, rfl⟩ := apiResetLocalTraffic_ok hok
  have hmem : user ∈ db.users := Rows.mem_of_get? (localUser_ok hu).1
  have hid : user.id = u := Rows.key_of_get? (localUser_ok hu).1
  subst hid
  let stamped : User := { user with trafficResetAt := some now }
  have hreset := h.resetTraffic hwf hmem
  have hwf' : (resetLocalTrafficUsage db user now).2.WF := hwf.reset_traffic user now
  have hstamped : stamped ∈ (resetLocalTrafficUsage db user now).2.users :=
    Rows.mem_save.mpr (.inl ⟨rfl, user, hmem, rfl⟩)
  have hwrites : Writes (OfOwner stamped.id) (resetLocalTrafficUsage db user now).2
      (commitLifecycle cfg (resetLocalTrafficUsage db user now).2 stamped (some 0) now).db :=
    commitLifecycle_writes hwf' stamped hstamped rfl rfl (some 0) now
  have hledger : ((commitLifecycle cfg (resetLocalTrafficUsage db user now).2
      (resetLocalTrafficUsage db user now).1 (some 0) now).db.traffic.ledger user.id) =
      db.traffic.ledger user.id :=
    congrArg (·.ledger user.id) (traffic_of_owner hwrites)
  rw [hledger]
  refine hreset.writes hwf' (fun b w hw => ?_) hwrites
  cases w <;> first | exact hw.elim | trivial

/-- **Step.** -/
theorem tallied_step {s s' : Audited} {call : Call} (hwf : s.panel.db.WF)
    (h : Tallied s.mark s.panel.clock s.panel.db) (hnode : KeepsNodes s call)
    (hstep : (audited cfg).step s call = some s') :
    Tallied s'.mark s'.panel.clock s'.panel.db := by
  obtain ⟨next, hnext, rfl⟩ := Option.map_eq_some_iff.mp hstep
  obtain ⟨hclock, rfl⟩ := panel_step hnext
  have hnow := h.later hclock
  show Tallied (markAfter cfg s call) call.now (afterRequest cfg s.panel.db call.now call.request)
  unfold markAfter afterRequest
  cases hok : handle cfg s.panel.db call.now call.request with
  | error err => cases call.request <;> exact hnow
  | ok effect =>
      by_cases hreset : ∃ u, call.request = .resetLocalTraffic u
      · obtain ⟨u, hu⟩ := hreset
        rw [hu] at hok ⊢
        exact tallied_reset hwf hnow hok
      · have hkeep := tallied_handle hwf hnow hok hnode fun u hu => hreset ⟨u, hu⟩
        cases hreq : call.request with
        | resetLocalTraffic u => exact absurd ⟨u, hreq⟩ hreset
        | _ => exact hkeep

theorem audited_wf {s : Audited} (h : (audited cfg).Reachable s) : s.panel.db.WF := by
  refine TSys.Reaches.invariant (P := fun s : Audited => s.panel.db.WF) Db.WF.empty ?_ h
  intro s call s' hwf _ hstep
  obtain ⟨next, hnext, rfl⟩ := Option.map_eq_some_iff.mp hstep
  exact (panel_step_phases hwf hnext).writes.wf hwf

/-- **Traffic conservation.** In every state that runs without a node deletion
reach, the aggregates of every account balance. -/
theorem traffic_conserved (cfg : Config) (s : Audited) (h : (audited cfg).Reaches KeepsNodes s) :
    Balanced s.panel.db s.mark := by
  have htallied : Tallied s.mark s.panel.clock s.panel.db := by
    refine TSys.Reaches.invariant_with (Q := fun s : Audited => s.panel.db.WF)
      (P := fun s => Tallied s.mark s.panel.clock s.panel.db) (fun _ => audited_wf)
      tallied_empty ?_ h
    intro s call s' hwf hs hok hstep
    exact tallied_step hwf hs hok hstep
  exact balanced_of_tallied htallied

/-- One device on one node: traffic is read, the account's traffic is reset, and
traffic is read again. -/
def readAndReset : List Call := oneDevice ++ [
  ⟨4, .syncResult 0 { peers := [
    { publicKey := "public-2", status := some "active", rxBytes := some 10, txBytes := some 5 }] }⟩,
  ⟨5, .heartbeatResult 0 { peers := [
    { publicKey := "public-2", status := some "active", rxBytes := some 30, txBytes := some 9 }] }⟩,
  ⟨6, .resetLocalTraffic 1⟩,
  ⟨7, .heartbeatResult 0 { peers := [
    { publicKey := "public-2", status := some "active", rxBytes := some 37, txBytes := some 9 }] }⟩]

theorem traffic_conserved_readAndReset :
    ∃ s, (audited exampleConfig).replay readAndReset = some s ∧ s.mark 1 = 1 ∧
      lifetimeBytes s.panel.db.traffic .total 1 = 7 ∧ Balanced s.panel.db s.mark := by
  have hrun : ((audited exampleConfig).replay readAndReset).any (fun s =>
      s.mark 1 = 1 ∧ lifetimeBytes s.panel.db.traffic .total 1 = 7) = true := by decide +kernel
  obtain ⟨s, hs, hfacts⟩ := TSys.replay_any hrun
  obtain ⟨hmark, htotal⟩ := of_decide_eq_true hfacts
  have hok : (audited exampleConfig).ReplayOk KeepsNodes (audited exampleConfig).init
      readAndReset := by
    refine TSys.replayOk_of_forall _ (fun call hcall _ nodeId hreq => ?_) _
    simp only [readAndReset, oneDevice, List.cons_append, List.nil_append, List.mem_cons,
      List.not_mem_nil, or_false] at hcall
    rcases hcall with rfl | rfl | rfl | rfl | rfl | rfl | rfl <;> cases hreq
  exact ⟨s, hs, hmark, htotal,
    traffic_conserved exampleConfig s (TSys.replay_reaches hok hs)⟩

end VpnPanel.Theorems
