import VpnPanel.Backend.Resampled

/-!
# Sample retention

What the cleanup of raw traffic samples deletes, and that nothing but the
samples ever shows that it ran.
-/

namespace VpnPanel.Theorems

open VpnPanel.Lib VpnPanel.Backend

variable {cfg : Config}

/-! ## What is deleted -/

section Accounted

variable {db : Db} {since : Time} {sample : PeerTrafficSample} {p : Peer}

/-- Every aggregate has a row for a sample of the peer. -/
structure InAggregates (traffic : Traffic) (p : Peer) (sampledAt : Time) : Prop where
  userDaily : HasRow traffic.userDaily (p.userId, dayOf sampledAt)
  userNodeDaily : HasRow traffic.userNodeDaily (p.userId, p.nodeId, dayOf sampledAt)
  userLifetime : HasRow traffic.userLifetime p.userId
  userNodeLifetime : HasRow traffic.userNodeLifetime (p.userId, p.nodeId)

theorem any_identity {κ : Type} [DecidableEq κ] {rows : List (TrafficAggregate κ)} {k : κ} :
    rows.any (·.identity = k) = true ↔ HasRow rows k := by
  unfold HasRow
  simp [List.any_eq_true]

/-- The peer and the ledger row of a sample are always there, so only the
aggregates decide. -/
theorem accounted_iff (hwf : db.WF) (h : Ledgered since db) (hsample : sample ∈ db.traffic.samples)
    (hp : p ∈ db.peers) (hid : p.id = sample.peerId) :
    accounted db sample = true ↔ InAggregates db.traffic p sample.sampledAt := by
  unfold accounted
  rw [List.any_eq_true]
  constructor
  · rintro ⟨q, hq, hall⟩
    simp only [Bool.and_eq_true, decide_eq_true_eq, List.any_eq_true (l := db.traffic.deltas),
      any_identity] at hall
    obtain ⟨⟨⟨hqid, d, -, ⟨⟨⟨⟨-, hat⟩, -⟩, -⟩, hdaily⟩, hnodeDaily⟩, hlifetime⟩, hnode⟩ := hall
    obtain rfl := hwf.peer_eq hq hp (hqid.trans hid.symm)
    rw [hat] at hdaily hnodeDaily
    exact ⟨hdaily, hnodeDaily, hlifetime, hnode⟩
  · intro hrows
    obtain ⟨d, hd, rfl⟩ := List.mem_map.mp (h.samples.subset hsample)
    refine ⟨p, hp, ?_⟩
    simp only [Bool.and_eq_true, decide_eq_true_eq, List.any_eq_true (l := db.traffic.deltas),
      any_identity]
    exact ⟨⟨⟨hid, d, hd, ⟨⟨⟨⟨rfl, rfl⟩, rfl⟩, rfl⟩, hrows.userDaily⟩, hrows.userNodeDaily⟩,
      hrows.userLifetime⟩, hrows.userNodeLifetime⟩

/-- The samples of an account that was never reset are in every aggregate. -/
theorem accounted_of_unreset (hwf : db.WF) (h : Ledgered since db)
    (hsample : sample ∈ db.traffic.samples) (hp : p ∈ db.peers) (hid : p.id = sample.peerId)
    (hreset : db.resetAt? p.userId = none) : accounted db sample = true := by
  rw [accounted_iff hwf h hsample hp hid]
  obtain ⟨d, hd, rfl⟩ := List.mem_map.mp (h.samples.subset hsample)
  obtain ⟨q, hq, hqid, huser, hnode⟩ := h.owner d hd
  obtain rfl := hwf.peer_eq hq hp (hqid.trans hid.symm)
  have hrows := h.aggregated d hd (huser ▸ hreset)
  constructor
  · rw [huser]
    exact hrows.userDaily
  · rw [huser, hnode]
    exact hrows.userNodeDaily
  · rw [huser]
    exact hrows.userLifetime
  · rw [huser, hnode]
    exact hrows.userNodeLifetime

end Accounted

/-- The samples of an account's peers. -/
def samplesOf (db : Db) (u : UserId) : List PeerTrafficSample :=
  db.traffic.samples.filter fun sample => db.ownsPeer u sample.peerId

/-- **Cleanup.** In every reachable state a cleanup changes the samples alone,
deletes only samples that the setting does not keep and that are in every
aggregate, and of an account that was never reset all that the setting does not
keep. -/
theorem cleanup_sweeps {s s' : RetentionPanel} (h : (retentionPanel cfg).Reachable s) {now : Time}
    (hstep : (retentionPanel cfg).step s (.cleanup now) = some s') :
    ∃ left, s'.panel.db = s.panel.db.resampled left ∧ left.Sublist s.panel.db.traffic.samples ∧
      (∀ sample ∈ s.panel.db.traffic.samples, sample ∉ left →
        keptBy s.retentionDays now sample = false ∧
          ∃ p ∈ s.panel.db.peers, p.id = sample.peerId ∧
            InAggregates s.panel.db.traffic p sample.sampledAt) ∧
      ∀ u, s.panel.db.resetAt? u = none →
        samplesOf s'.panel.db u =
          (samplesOf s.panel.db u).filter (keptBy s.retentionDays now) := by
  have hkeeps : (retentionPanel cfg).Reaches (KeepsDays 0) s := h.mono fun s e _ => by
    cases e with
    | cleanup now => exact .inr (Nat.zero_le _)
    | _ => trivial
  obtain ⟨hwf, hledger⟩ := retentionPanel_ledgered hkeeps
  have hdb : s'.panel.db = afterCleanup s.panel.db s.retentionDays now := by
    rcases retentionPanel_step hstep with ⟨_, heq, -⟩ | ⟨_, heq, -⟩ | ⟨_, heq, -, -, hpanel⟩
    · cases heq
    · cases heq
    · cases heq
      rw [hpanel]
  rw [afterCleanup_eq] at hdb
  refine ⟨_, hdb, List.filter_sublist, fun sample hmem hgone => ?_, fun u hreset => ?_⟩
  · have hdrop : (keptBy s.retentionDays now sample || !accounted s.panel.db sample) = false := by
      rw [← Bool.not_eq_true]
      exact fun hkeep => hgone (List.mem_filter.mpr ⟨hmem, hkeep⟩)
    obtain ⟨hkept, haccounted⟩ := Bool.or_eq_false_iff.mp hdrop
    obtain ⟨d, hd, rfl⟩ := List.mem_map.mp (hledger.samples.subset hmem)
    obtain ⟨p, hp, hid, -⟩ := hledger.owner d hd
    exact ⟨hkept, p, hp, hid,
      (accounted_iff hwf hledger hmem hp hid).mp (by simpa using haccounted)⟩
  · have howns : ∀ sample, s'.panel.db.ownsPeer u sample = s.panel.db.ownsPeer u sample := by
      rw [hdb]
      exact fun _ => rfl
    unfold samplesOf
    simp only [howns]
    rw [hdb, resampled_samples, List.filter_comm]
    refine List.filter_congr fun sample hmem => ?_
    obtain ⟨hmem, hown⟩ := List.mem_filter.mp hmem
    obtain ⟨p, hp, hpeer⟩ := List.any_eq_true.mp hown
    rw [Bool.and_eq_true, decide_eq_true_eq, decide_eq_true_eq] at hpeer
    rw [accounted_of_unreset hwf hledger hmem hp hpeer.1 (hpeer.2 ▸ hreset)]
    simp

/-- The sample of day 0 goes, the one of day 2 stays. -/
theorem cleanup_sweeps_readOnTwoDays :
    ∃ s s', (retentionPanel exampleConfig).replay readOnTwoDays = some s ∧
      (retentionPanel exampleConfig).step s (.cleanup 259200000000) = some s' ∧
      samplesOf s.panel.db 1 = [⟨3, 5, 20, 4⟩, ⟨3, 172800000000, 7, 0⟩] ∧
      samplesOf s'.panel.db 1 = [⟨3, 172800000000, 7, 0⟩] := by
  have hrun : ((retentionPanel exampleConfig).replay readOnTwoDays).any (fun s =>
      s.retentionDays = 2 ∧ s.panel.db.resetAt? 1 = none ∧
        samplesOf s.panel.db 1 = [⟨3, 5, 20, 4⟩, ⟨3, 172800000000, 7, 0⟩] ∧
        ((retentionPanel exampleConfig).step s (.cleanup 259200000000)).isSome) = true := by
    decide +kernel
  obtain ⟨s, hs, hfacts⟩ := TSys.replay_any hrun
  obtain ⟨hdays, hreset, hsamples, hstep⟩ := of_decide_eq_true hfacts
  obtain ⟨s', hstep⟩ := Option.isSome_iff_exists.mp hstep
  obtain ⟨left, -, -, -, hunreset⟩ := cleanup_sweeps (TSys.replay_reachable hs) hstep
  refine ⟨s, s', hs, hstep, hsamples, ?_⟩
  rw [hunreset 1 hreset, hsamples, hdays]
  decide

/-! ## What is seen -/

/-- `a` lost some samples of `b`, all of them from before `since`. -/
structure Thinned (since : Time) (a b : List PeerTrafficSample) : Prop where
  sublist : a.Sublist b
  recent : a.filter (since ≤ ·.sampledAt) = b.filter (since ≤ ·.sampledAt)

theorem thinned_sampling (since : Time) : Sampling (Thinned since) where
  append h added := by
    refine ⟨h.sublist.append (List.Sublist.refl added), ?_⟩
    rw [List.filter_append, List.filter_append, h.recent]
  filter h p := by
    refine ⟨h.sublist.filter p, ?_⟩
    rw [List.filter_comm, h.recent, List.filter_comm]

theorem Thinned.later {since since' : Time} {a b : List PeerTrafficSample} (h : Thinned since a b)
    (hle : since ≤ since') : Thinned since' a b := by
  refine ⟨h.sublist, ?_⟩
  rw [filter_since hle, h.recent, ← filter_since hle]

/-- The panel `t` is `s` without what its cleanups deleted. -/
structure Unswept (keep : Nat) (s t : RetentionPanel) : Prop where
  retentionDays : t.retentionDays = s.retentionDays
  clock : t.panel.clock ≤ s.panel.clock
  samples : ∃ x, t.panel.db = s.panel.db.resampled x ∧
    Thinned (s.back keep) s.panel.db.traffic.samples x

variable {keep : Nat} {s s' t : RetentionPanel}

theorem Unswept.cleanup (h : Unswept keep s t) {now : Time}
    (hkeeps : s.retentionDays = 0 ∨ keep ≤ s.retentionDays)
    (hstep : (retentionPanel cfg).step s (.cleanup now) = some s') : Unswept keep s' t := by
  rcases retentionPanel_step hstep with ⟨_, heq, -⟩ | ⟨_, heq, -⟩ | ⟨_, heq, hclock, hdays, hpanel⟩
  · cases heq
  · cases heq
  cases heq
  obtain ⟨x, hdb, hthin⟩ := h.samples
  have hback : s'.back keep = now - keep * 86400000000 := by
    unfold RetentionPanel.back
    rw [hpanel]
  have hle : s.back keep ≤ s'.back keep := by
    rw [hback]
    exact Int.sub_le_sub_right hclock _
  have hlater := hthin.later hle
  rw [afterCleanup_eq] at hpanel
  refine ⟨h.retentionDays.trans hdays.symm, ?_, x, ?_, ?_⟩
  · rw [hpanel]
    exact h.clock.trans hclock
  · rw [hdb, hpanel]
    rfl
  · rw [hpanel]
    refine ⟨List.filter_sublist.trans hlater.sublist, Eq.trans ?_ hlater.recent⟩
    rw [resampled_samples, List.filter_filter]
    refine List.filter_congr fun sample _ => ?_
    by_cases hx : s'.back keep ≤ sample.sampledAt
    · simp [hx, keptBy_of_recent hkeeps (hback ▸ hx)]
    · simp [hx]

theorem Unswept.save (h : Unswept keep s t) (days : Nat) :
    Unswept keep (s.save days) (t.save days) := by
  unfold RetentionPanel.save
  split
  · exact ⟨rfl, h.clock, h.samples⟩
  · exact h

theorem Unswept.request (h : Unswept keep s t) {call : Call}
    (hstep : (retentionPanel cfg).step s (.request call) = some s') :
    ∃ t', (retentionPanel cfg).step t (.request call) = some t' ∧ Unswept keep s' t' := by
  obtain ⟨panel, hcall, rfl⟩ := Option.map_eq_some_iff.mp hstep
  obtain ⟨hclock, rfl⟩ := panel_step hcall
  obtain ⟨x, hdb, hthin⟩ := h.samples
  have hlater : Thinned (call.now - keep * 86400000000) s.panel.db.traffic.samples x :=
    hthin.later (Int.sub_le_sub_right hclock _)
  obtain ⟨y, hafter, hy⟩ :=
    afterRequest_alike cfg (thinned_sampling _) hlater call.now call.request
  refine ⟨{ t with panel := ⟨afterRequest cfg t.panel.db call.now call.request, call.now⟩ }, ?_,
    h.retentionDays, le_rfl, y, ?_, hy⟩
  · have hnot : ¬call.now < t.panel.clock := not_lt.mpr (h.clock.trans hclock)
    simp only [retentionPanel, panel, if_neg hnot, Option.map_some]
  · rw [hdb]
    exact hafter

theorem Unswept.handle (h : Unswept keep s t) (now : Time) (request : Request) :
    (Backend.handle cfg s.panel.db now request).Alike List.Sublist
      (Backend.handle cfg t.panel.db now request) := by
  obtain ⟨x, hdb, hthin⟩ := h.samples
  rw [hdb]
  exact handle_alike cfg ⟨fun h added => h.append (List.Sublist.refl added), fun h p => h.filter p⟩
    hthin.sublist now request

theorem Unswept.graph (h : Unswept keep s t) {now : Time} (hclock : s.panel.clock ≤ now)
    {days : Int} (hdays : days ≤ keep) (u : UserId) :
    apiUserTraffic t.panel.db u days now = apiUserTraffic s.panel.db u days now := by
  obtain ⟨x, hdb, hthin⟩ := h.samples
  have hsamples : ∀ since, daysBefore? now days = some since →
      samplesSince t.panel.db u since = samplesSince s.panel.db u since := by
    intro since hsince
    have hrecent := (hthin.later (back_le hclock hdays hsince)).recent
    unfold samplesSince
    rw [hdb, ← List.filter_filter, ← List.filter_filter, resampled_samples, ← hrecent]
    rfl
  have huser : (t.panel.db.user? u) = s.panel.db.user? u := by
    rw [hdb]
    rfl
  unfold apiUserTraffic
  rw [huser]
  cases hsince : daysBefore? now days with
  | none => rfl
  | some since =>
      dsimp only
      rw [hsamples since hsince]

/-- **Unseen.** A run with cleanups, none of which keeps fewer than `keep` days,
goes through without them, and ends in the same panel but for the samples: every
request is answered the same, and so is every graph of up to `keep` days. -/
theorem retention_unseen {events : List RetentionEvent}
    (hkeeps : (retentionPanel cfg).ReplayOk (KeepsDays keep) (retentionPanel cfg).init events)
    (hrun : (retentionPanel cfg).replay events = some s) :
    ∃ t, (retentionPanel cfg).replay (events.filter (! ·.isCleanup)) = some t ∧
      t.retentionDays = s.retentionDays ∧
      (∃ x, t.panel.db = s.panel.db.resampled x ∧ s.panel.db.traffic.samples.Sublist x) ∧
      (∀ now request, (handle cfg s.panel.db now request).Alike List.Sublist
        (handle cfg t.panel.db now request)) ∧
      ∀ now, s.panel.clock ≤ now → ∀ days : Int, days ≤ keep → ∀ u,
        apiUserTraffic t.panel.db u days now = apiUserTraffic s.panel.db u days now := by
  have hstart : Unswept keep (retentionPanel cfg).init (retentionPanel cfg).init :=
    ⟨rfl, le_rfl, [], rfl, .slnil, rfl⟩
  have hown : ∀ s e s' t, Unswept keep s t → KeepsDays keep s e → e.isCleanup = true →
      (retentionPanel cfg).step s e = some s' → Unswept keep s' t := by
    intro s e s' t h hok hown hstep
    cases e with
    | cleanup now => exact h.cleanup hok hstep
    | request call => cases hown
    | saveSettings days => cases hown
  have hother : ∀ s e s' t, Unswept keep s t → KeepsDays keep s e → e.isCleanup = false →
      (retentionPanel cfg).step s e = some s' →
      ∃ t', (retentionPanel cfg).step t e = some t' ∧ Unswept keep s' t' := by
    intro s e s' t h _ hown hstep
    cases e with
    | cleanup now => cases hown
    | request call => exact h.request hstep
    | saveSettings days =>
        cases hstep
        exact ⟨t.save days, rfl, h.save days⟩
  obtain ⟨t, ht, h⟩ := TSys.replayFrom_erase_upTo hown hother events hstart hkeeps hrun
  obtain ⟨x, hdb, hthin⟩ := h.samples
  exact ⟨t, ht, h.retentionDays, ⟨x, hdb, hthin.sublist⟩, h.handle,
    fun now hclock days hdays u => h.graph hclock hdays u⟩

theorem retention_unseen_swept :
    ∃ s t, (retentionPanel exampleConfig).replay sweptRun = some s ∧
      (retentionPanel exampleConfig).replay (sweptRun.filter (! ·.isCleanup)) = some t ∧
      s.panel.db.traffic.samples.length = 2 ∧
      apiUserTraffic t.panel.db 1 2 259200000001 = apiUserTraffic s.panel.db 1 2 259200000001 := by
  have hrun : ((retentionPanel exampleConfig).replay sweptRun).any (fun s =>
      s.panel.clock ≤ 259200000001 ∧ s.panel.db.traffic.samples.length = 2) = true := by
    decide +kernel
  have hkeeps : (retentionPanel exampleConfig).ReplayOk (KeepsDays 2)
      (retentionPanel exampleConfig).init sweptRun := by decide +kernel
  obtain ⟨s, hs, hfacts⟩ := TSys.replay_any hrun
  obtain ⟨hclock, hsamples⟩ := of_decide_eq_true hfacts
  obtain ⟨t, ht, -, -, -, hgraph⟩ := retention_unseen hkeeps hs
  exact ⟨s, t, hs, ht, hsamples, hgraph 259200000001 hclock 2 le_rfl 1⟩

end VpnPanel.Theorems
