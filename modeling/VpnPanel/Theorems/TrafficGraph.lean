import VpnPanel.Backend.DailyTraffic

/-!
# The traffic graph

The graph is drawn from samples that a cleanup deletes, the daily page from
aggregates that are never trimmed. Within the days every cleanup kept, the
graph is the one of the ledger, and both pages show the same days.
-/

namespace VpnPanel.Theorems

open VpnPanel.Lib VpnPanel.Backend

/-- The samples the ledger rows of an account repeat, from `since` on. -/
def ledgerSince (db : Db) (u : UserId) (since : Time) : List PeerTrafficSample :=
  ((db.traffic.ledger u).map TrafficDelta.sample).filter (since ≤ ·.sampledAt)

/-- The graph drawn from the ledger. -/
def ledgerTraffic (db : Db) (u : UserId) (days : Int) (now : Time) :
    Except HttpError (List TrafficPoint) :=
  if (db.user? u).isNone then .error userNotFound
  else match daysBefore? now days with
    | none => .error internalError
    | some since => .ok (trafficPoints (ledgerSince db u since))

section Samples

variable {db : Db} {since start : Time} {u : UserId}

/-- A ledger row belongs to the owner of its peer. -/
theorem ownsPeer_of_ledger (hwf : db.WF) (h : Ledgered since db) {d : TrafficDelta}
    (hd : d ∈ db.traffic.deltas) : db.ownsPeer u d.peerId = decide (d.userId = u) := by
  obtain ⟨p, hp, hid, huser, -⟩ := h.owner d hd
  unfold Db.ownsPeer
  rw [Bool.eq_iff_iff, List.any_eq_true, decide_eq_true_eq]
  constructor
  · rintro ⟨q, hq, hown⟩
    rw [Bool.and_eq_true, decide_eq_true_eq, decide_eq_true_eq] at hown
    rw [← huser, ← hwf.peer_eq hq hp (hown.1.trans hid.symm), hown.2]
  · rintro rfl
    exact ⟨p, hp, by simp [hid, huser]⟩

/-- The samples the account's peers would have, had none been deleted. -/
theorem ledgerSince_eq (hwf : db.WF) (h : Ledgered start db) (u : UserId) (since : Time) :
    ledgerSince db u since = (db.traffic.deltas.map TrafficDelta.sample).filter fun x =>
      db.ownsPeer u x.peerId && since ≤ x.sampledAt := by
  unfold ledgerSince Traffic.ledger
  rw [← List.filter_filter, List.filter_comm]
  congr 1
  rw [List.filter_map]
  congr 1
  exact List.filter_congr fun d hd => (ownsPeer_of_ledger hwf h hd).symm

/-- The samples of an account are some of those, and from the start of what is
kept all of them. -/
theorem samplesSince_sublist (hwf : db.WF) (h : Ledgered start db) (u : UserId) (since : Time) :
    (samplesSince db u since).Sublist (ledgerSince db u since) := by
  rw [ledgerSince_eq hwf h]
  exact h.samples.filter _

theorem samplesSince_eq (hwf : db.WF) (h : Ledgered start db) (hle : start ≤ since) :
    samplesSince db u since = ledgerSince db u since := by
  rw [ledgerSince_eq hwf h]
  unfold samplesSince
  rw [← List.filter_filter, ← List.filter_filter, (h.later hle).recent]

end Samples

variable {cfg : Config}

/-- **Graph.** The graph of an account shows nothing but readings of its
ledger. Where no cleanup of the run kept fewer than `keep` days, the graph of up
to `keep` days is the graph of the ledger. -/
theorem graph_of_ledger {keep : Nat} {s : RetentionPanel}
    (h : (retentionPanel cfg).Reaches (KeepsDays keep) s) (u : UserId) :
    (∀ since, (samplesSince s.panel.db u since).Sublist (ledgerSince s.panel.db u since)) ∧
      ∀ now, s.panel.clock ≤ now → ∀ days : Int, days ≤ keep →
        apiUserTraffic s.panel.db u days now = ledgerTraffic s.panel.db u days now := by
  obtain ⟨hwf, hledger⟩ := retentionPanel_ledgered h
  refine ⟨samplesSince_sublist hwf hledger u, fun now hclock days hdays => ?_⟩
  unfold apiUserTraffic ledgerTraffic
  cases hsince : daysBefore? now days with
  | none => rfl
  | some since =>
      dsimp only
      rw [samplesSince_eq hwf hledger (back_le hclock hdays hsince)]

theorem sweptRun_ends : ∃ s, (retentionPanel exampleConfig).replay sweptRun = some s ∧
    (retentionPanel exampleConfig).Reaches (fun s e => KeepsDays 2 s e ∧ e.keepsNodes) s ∧
    s.panel.clock = 259200000001 ∧ s.panel.db.resetAt? 1 = none ∧
    s.panel.db.traffic.samples.length = 2 ∧ s.panel.db.traffic.deltas.length = 3 ∧
    (apiUserTraffic s.panel.db 1 2 259200000001).toOption = some [⟨2, 7, 0⟩, ⟨3, 3, 1⟩] := by
  have hrun : ((retentionPanel exampleConfig).replay sweptRun).any (fun s =>
      s.panel.clock = 259200000001 ∧ s.panel.db.resetAt? 1 = none ∧
        s.panel.db.traffic.samples.length = 2 ∧ s.panel.db.traffic.deltas.length = 3 ∧
        (apiUserTraffic s.panel.db 1 2 259200000001).toOption = some [⟨2, 7, 0⟩, ⟨3, 3, 1⟩]) =
      true := by decide +kernel
  have hok : (retentionPanel exampleConfig).ReplayOk (fun s e => KeepsDays 2 s e ∧ e.keepsNodes)
      {} sweptRun := by decide +kernel
  obtain ⟨s, hs, hfacts⟩ := TSys.replay_any hrun
  exact ⟨s, hs, TSys.replay_reaches hok hs, of_decide_eq_true hfacts⟩

theorem graph_of_ledger_swept :
    ∃ s, (retentionPanel exampleConfig).replay sweptRun = some s ∧
      s.panel.db.traffic.samples.length = 2 ∧ s.panel.db.traffic.deltas.length = 3 ∧
      (ledgerTraffic s.panel.db 1 2 259200000001).toOption = some [⟨2, 7, 0⟩, ⟨3, 3, 1⟩] := by
  obtain ⟨s, hs, hreaches, hclock, -, hsamples, hdeltas, hgraph⟩ := sweptRun_ends
  have hkept : (retentionPanel exampleConfig).Reaches (KeepsDays 2) s :=
    hreaches.mono fun _ _ hok => hok.1
  have hagree := (graph_of_ledger hkept 1).2 259200000001 hclock.le 2 le_rfl
  exact ⟨s, hs, hsamples, hdeltas, hagree ▸ hgraph⟩

/-! ## The graph and the daily page -/

/-- The columns of a daily row that the graph has. -/
def UsageDailyTotals.point (totals : UsageDailyTotals) : TrafficPoint :=
  ⟨totals.day, totals.rxBytes, totals.txBytes⟩

section Days

variable {db : Db} {start since : Time} {u : UserId} {day : Day}

/-- An instant of a later day is later. -/
theorem le_of_dayOf_lt {at_ : Time} (h : dayOf since < dayOf at_) : since ≤ at_ := by
  by_contra hlt
  have hback : dayOf at_ ≤ dayOf since := Int.ediv_le_ediv (by decide) (not_le.mp hlt).le
  exact absurd hback (not_le.mpr h)

/-- A whole day of the window is the ledger's day. -/
theorem ledgerSince_day (hday : dayOf since < day) :
    (ledgerSince db u since).filter (dayOf ·.sampledAt = day) =
      ((db.traffic.ledger u).filter (dayOf ·.observedAt = day)).map TrafficDelta.sample := by
  unfold ledgerSince
  rw [List.filter_filter, List.filter_map]
  congr 1
  refine List.filter_congr fun d _ => ?_
  show (decide (dayOf d.observedAt = day) && decide (since ≤ d.observedAt)) = _
  by_cases hd : dayOf d.observedAt = day
  · simp [hd, le_of_dayOf_lt (hd ▸ hday)]
  · simp [hd]

/-- The daily row of a whole day is the point of the graph. -/
theorem point_of_row (h : Daily db) (hreset : db.resetAt? u = none)
    {row : TrafficAggregate (UserId × Day)} (hrow : row ∈ db.traffic.userDaily)
    (huser : row.identity.1 = u) (hday : dayOf since < row.identity.2) :
    UsageDailyTotals.point (usageDailyTotals row) =
      trafficPoint (ledgerSince db u since) row.identity.2 := by
  have hid : row.identity = (u, row.identity.2) := Prod.ext huser rfl
  have hbytes : ∀ c, row.bytes c = db.traffic.ledgerOn c u row.identity.2 := by
    intro c
    rw [← h.bytes u hreset c row.identity.2, ← hid]
    refine Eq.symm ((Tally.tally_single h.sound.distinct row.identity).trans ?_)
    rw [h.sound.distinct.get?_eq_some hrow]
    rfl
  unfold trafficPoint
  rw [ledgerSince_day hday, List.map_map, List.map_map]
  exact congrArg₂ (TrafficPoint.mk row.identity.2) (hbytes .rx) (hbytes .tx)

/-- The whole days with a daily row are those with a point. -/
theorem day_mem_iff (hledger : Ledgered start db) (h : Daily db) (hreset : db.resetAt? u = none)
    (hday : dayOf since < day) :
    HasRow db.traffic.userDaily (u, day) ↔
      ∃ x ∈ ledgerSince db u since, dayOf x.sampledAt = day := by
  constructor
  · intro hrow
    obtain ⟨d, hd, rfl⟩ := h.rows u hreset day hrow
    exact ⟨d.sample, List.mem_filter.mpr ⟨List.mem_map_of_mem hd,
      decide_eq_true (le_of_dayOf_lt hday)⟩, rfl⟩
  · rintro ⟨x, hx, rfl⟩
    obtain ⟨d, hd, rfl⟩ := List.mem_map.mp (List.mem_filter.mp hx).1
    obtain ⟨hmem, huser⟩ := List.mem_filter.mp hd
    obtain rfl := of_decide_eq_true huser
    exact (hledger.aggregated d hmem hreset).userDaily

/-- The daily rows of one account are told apart by their day. -/
theorem days_distinct {rows : List (TrafficAggregate (UserId × Day))}
    (h : Rows.Distinct TrafficAggregate.identity rows) (huser : ∀ row ∈ rows, row.identity.1 = u) :
    Rows.Distinct (fun row : TrafficAggregate (UserId × Day) => row.identity.2) rows := by
  have hpairs : rows.map TrafficAggregate.identity =
      (rows.map fun row => row.identity.2).map (Prod.mk u) := by
    rw [List.map_map]
    exact List.map_congr_left fun row hrow => Prod.ext (huser row hrow) rfl
  unfold Rows.Distinct at h ⊢
  rw [hpairs] at h
  exact h.of_map _

theorem mem_dailyRows {first : Day} {row : TrafficAggregate (UserId × Day)} :
    row ∈ dailyRows db.traffic u first ↔
      row ∈ db.traffic.userDaily ∧ row.identity.1 = u ∧ first ≤ row.identity.2 := by
  unfold dailyRows
  rw [List.mem_insertionSort, List.mem_filter, Bool.and_eq_true, decide_eq_true_eq,
    decide_eq_true_eq]

/-- The whole days of both pages are the same. -/
theorem wholeDays_eq (hledger : Ledgered start db) (h : Daily db)
    (hreset : db.resetAt? u = none) :
    ((dailyRows db.traffic u (dayOf since)).map (·.identity.2)).filter (dayOf since < ·) =
      (Grouping.groupKeys (dayOf ·.sampledAt) (ledgerSince db u since)).filter
        (dayOf since < ·) := by
  have hdistinct := days_distinct (h.sound.distinct.filter fun row =>
    row.identity.1 = u && dayOf since ≤ row.identity.2) fun row hrow => by
      simpa using (Bool.and_eq_true_iff.mp (List.mem_filter.mp hrow).2).1
  refine Grouping.eq_of_pairwise_lt ((Grouping.pairwise_lt_sorted hdistinct).filter _)
    ((Grouping.groupKeys_pairwise _ _).filter _) fun day => ?_
  rw [List.mem_filter, List.mem_filter, Grouping.mem_groupKeys]
  refine and_congr_left fun hlt => ?_
  have hday : dayOf since < day := of_decide_eq_true hlt
  rw [← day_mem_iff hledger h hreset hday, List.mem_map]
  constructor
  · rintro ⟨row, hrow, rfl⟩
    obtain ⟨hrow, huser, -⟩ := mem_dailyRows.mp hrow
    exact ⟨row, hrow, Prod.ext huser rfl⟩
  · rintro ⟨row, hrow, hid⟩
    obtain ⟨rfl, rfl⟩ := Prod.ext_iff.mp hid
    exact ⟨row, mem_dailyRows.mpr ⟨hrow, rfl, hday.le⟩, rfl⟩

/-- The points of the whole days are the same. -/
theorem wholePoints_eq (hledger : Ledgered start db) (h : Daily db)
    (hreset : db.resetAt? u = none) :
    (trafficPoints (ledgerSince db u since)).filter (dayOf since < ·.day) =
      (((dailyRows db.traffic u (dayOf since)).map usageDailyTotals).map
        UsageDailyTotals.point).filter (dayOf since < ·.day) := by
  let rows := dailyRows db.traffic u (dayOf since)
  let point := trafficPoint (ledgerSince db u since)
  have hrow : ∀ row ∈ rows.filter (dayOf since < ·.identity.2),
      UsageDailyTotals.point (usageDailyTotals row) = point row.identity.2 := by
    intro row hrow
    obtain ⟨hmem, hday⟩ := List.mem_filter.mp hrow
    obtain ⟨hmem, huser, -⟩ := mem_dailyRows.mp hmem
    exact point_of_row h hreset hmem huser (of_decide_eq_true hday)
  calc (trafficPoints (ledgerSince db u since)).filter (dayOf since < ·.day)
    _ = ((Grouping.groupKeys (dayOf ·.sampledAt) (ledgerSince db u since)).filter
          (dayOf since < ·)).map point := List.filter_map
    _ = ((rows.map (·.identity.2)).filter (dayOf since < ·)).map point := by
        rw [wholeDays_eq hledger h hreset]
    _ = (rows.filter (dayOf since < ·.identity.2)).map fun row => point row.identity.2 := by
        rw [List.filter_map, List.map_map]
        rfl
    _ = (rows.filter (dayOf since < ·.identity.2)).map fun row =>
          UsageDailyTotals.point (usageDailyTotals row) :=
        List.map_congr_left fun row hmem => (hrow row hmem).symm
    _ = ((rows.map usageDailyTotals).map UsageDailyTotals.point).filter (dayOf since < ·.day) := by
        rw [List.map_map, List.filter_map]
        rfl

end Days

/-- **Both pages.** In every run without a node deletion, an account whose
traffic was never reset has the same points on both pages, the day the window
starts in apart. -/
theorem graph_matches_daily {keep : Nat} {s : RetentionPanel}
    (h : (retentionPanel cfg).Reaches (fun s e => KeepsDays keep s e ∧ e.keepsNodes) s)
    {u : UserId} (hreset : s.panel.db.resetAt? u = none) {now : Time} (hclock : s.panel.clock ≤ now)
    {days : Int} (hdays : days ≤ keep) {points : List TrafficPoint}
    (hgraph : apiUserTraffic s.panel.db u days now = .ok points) :
    ∃ since totals, daysBefore? now days = some since ∧
      apiUserLocalTrafficDaily s.panel.db u days now = .ok totals ∧
      points.filter (dayOf since < ·.day) =
        (totals.map UsageDailyTotals.point).filter (dayOf since < ·.day) := by
  have hdaily := retentionPanel_daily h
  have hkept := h.mono fun _ _ hok => hok.1
  obtain ⟨-, hledger⟩ := retentionPanel_ledgered hkept
  rw [(graph_of_ledger hkept u).2 now hclock days hdays] at hgraph
  unfold ledgerTraffic at hgraph
  cases huser : s.panel.db.user? u with
  | none =>
      rw [huser] at hgraph
      cases hgraph
  | some user =>
      rw [huser] at hgraph
      cases hsince : daysBefore? now days with
      | none =>
          rw [hsince] at hgraph
          cases hgraph
      | some since =>
          rw [hsince] at hgraph
          cases hgraph
          have hfirst : firstDay user since = dayOf since := by
            unfold Db.resetAt? at hreset
            rw [huser] at hreset
            unfold firstDay
            rw [show user.trafficResetAt = none from hreset]
          refine ⟨since, (dailyRows s.panel.db.traffic u (dayOf since)).map usageDailyTotals, rfl,
            ?_, wholePoints_eq hledger hdaily hreset⟩
          unfold apiUserLocalTrafficDaily
          rw [huser, hsince]
          dsimp only
          rw [hfirst]

/-- Day 1 is where the window starts; the days 2 and 3 are on both pages. -/
theorem graph_matches_daily_swept :
    ∃ s totals, (retentionPanel exampleConfig).replay sweptRun = some s ∧
      apiUserLocalTrafficDaily s.panel.db 1 2 259200000001 = .ok totals ∧
      (totals.map UsageDailyTotals.point).filter (1 < ·.day) = [⟨2, 7, 0⟩, ⟨3, 3, 1⟩] := by
  obtain ⟨s, hs, hreaches, hclock, hreset, -, -, hgraph⟩ := sweptRun_ends
  cases hok : apiUserTraffic s.panel.db 1 2 259200000001 with
  | error e =>
      rw [hok] at hgraph
      cases hgraph
  | ok points =>
      rw [hok] at hgraph
      obtain rfl := Option.some.inj hgraph
      obtain ⟨since, totals, hsince, htotals, heq⟩ :=
        graph_matches_daily hreaches hreset hclock.le le_rfl hok
      obtain rfl : 86400000001 = since := Option.some.inj hsince
      exact ⟨s, totals, hs, htotals, heq.symm⟩

end VpnPanel.Theorems
