import VpnPanel.Backend.Retention

/-!
# Daily usage

The daily route of `api_parts/users.py`, which reads the aggregates where the
traffic graph reads the samples, and the days of the ledger both go back to.
-/

namespace VpnPanel.Backend

open VpnPanel.Lib

/-! ## The route -/

/-- `LocalAmneziawgUsageDailyTotals`. -/
structure UsageDailyTotals where
  userId : UserId
  day : Day
  rxBytes : Nat
  txBytes : Nat
  totalBytes : Nat
  updatedAt : Time
  deriving DecidableEq, Repr

def usageDailyTotals (row : TrafficAggregate (UserId × Day)) : UsageDailyTotals where
  userId := row.identity.1
  day := row.identity.2
  rxBytes := row.rxBytes
  txBytes := row.txBytes
  totalBytes := row.totalBytes
  updatedAt := row.updatedAt

/-- The daily rows of an account from `since` on, `ORDER BY day`. -/
def dailyRows (traffic : Traffic) (userId : UserId) (since : Day) :
    List (TrafficAggregate (UserId × Day)) :=
  (traffic.userDaily.filter fun row => row.identity.1 = userId && since ≤ row.identity.2)
    |>.insertionSort fun r r' => r.identity.2 ≤ r'.identity.2

/-- The first day shown: never before the day of the last reset. -/
def firstDay (user : User) (since : Time) : Day :=
  match user.trafficResetAt with
  | none => dayOf since
  | some at_ => max (dayOf since) (dayOf at_)

def apiUserLocalTrafficDaily (db : Db) (userId : UserId) (days : Int) (now : Time) :
    Except HttpError (List UsageDailyTotals) :=
  match db.user? userId with
  | none => .error userNotFound
  | some user =>
      match daysBefore? now days with
      | none => .error internalError
      | some since =>
          .ok ((dailyRows db.traffic userId (firstDay user since)).map usageDailyTotals)

/-! ## The days of the ledger -/

/-- The bytes of an account's ledger rows of one day. -/
def Traffic.ledgerOn (traffic : Traffic) (c : Column) (u : UserId) (day : Day) : Nat :=
  (((traffic.ledger u).filter (dayOf ·.observedAt = day)).map (·.bytes c)).sum

/-- The daily rows of an account that was never reset are its ledger by days. -/
structure Daily (db : Db) : Prop where
  sound : Aggregates db.traffic.userDaily
  bytes : ∀ u, db.resetAt? u = none → ∀ c day,
    sumOf c (· = (u, day)) db.traffic.userDaily = db.traffic.ledgerOn c u day
  rows : ∀ u, db.resetAt? u = none → ∀ day, HasRow db.traffic.userDaily (u, day) →
    ∃ d ∈ db.traffic.ledger u, dayOf d.observedAt = day

/-- A new ledger row counts for its own account and day. -/
theorem ledgerOn_append {traffic traffic' : Traffic} {c : Column} {u : UserId} {day : Day}
    {delta : TrafficDelta} (h : traffic'.deltas = traffic.deltas ++ [delta]) :
    traffic'.ledgerOn c u day = traffic.ledgerOn c u day +
      if delta.userId = u ∧ dayOf delta.observedAt = day then delta.bytes c else 0 := by
  unfold Traffic.ledgerOn Traffic.ledger
  rw [h, List.filter_append, List.filter_append, List.map_append, List.sum_append]
  by_cases hu : delta.userId = u <;> by_cases hd : dayOf delta.observedAt = day <;> simp [hu, hd]

theorem ledger_append {traffic traffic' : Traffic} {u : UserId} {delta : TrafficDelta}
    (h : traffic'.deltas = traffic.deltas ++ [delta]) :
    traffic'.ledger u = traffic.ledger u ++ if delta.userId = u then [delta] else [] := by
  unfold Traffic.ledger
  rw [h, List.filter_append]
  by_cases hu : delta.userId = u <;> simp [hu]

namespace Daily

variable {db db' : Db}

theorem empty : Daily {} := ⟨⟨List.nodup_nil, nofun⟩, fun _ _ _ _ => rfl, fun _ _ _ h => by
  obtain ⟨_, hrow, -⟩ := h
  cases hrow⟩

theorem frame (h : Daily db) (hdaily : db'.traffic.userDaily = db.traffic.userDaily)
    (hdeltas : db'.traffic.deltas = db.traffic.deltas)
    (hreset : ∀ u, db'.resetAt? u = none → db.resetAt? u = none) : Daily db' where
  sound := by
    rw [hdaily]
    exact h.sound
  bytes u hu c day := by
    unfold Traffic.ledgerOn Traffic.ledger
    rw [hdaily, hdeltas]
    exact h.bytes u (hreset u hu) c day
  rows u hu day := by
    unfold Traffic.ledger
    rw [hdaily, hdeltas]
    exact h.rows u (hreset u hu) day

theorem record (h : Daily db) {delta : TrafficDelta}
    (hbytes : ∀ c, delta.bytes c = increment delta.rxDeltaBytes delta.txDeltaBytes c) :
    Daily { db with traffic := db.traffic.record delta } where
  sound := h.sound.increase _ _ _ _
  bytes u hu c day := by
    have hdeltas : (db.traffic.record delta).deltas = db.traffic.deltas ++ [delta] := rfl
    refine (sumOf_increase h.sound c _ _ _ _ _).trans (Eq.trans ?_ (ledgerOn_append hdeltas).symm)
    rw [h.bytes u hu c day, hbytes c]
    simp [Prod.ext_iff]
  rows u hu day hrow := by
    have hdeltas : (db.traffic.record delta).deltas = db.traffic.deltas ++ [delta] := rfl
    show ∃ d ∈ (db.traffic.record delta).ledger u, _
    rw [ledger_append hdeltas]
    rcases hasRow_increase.mp hrow with hold | hnew
    · obtain ⟨d, hd, hday⟩ := h.rows u hu day hold
      exact ⟨d, List.mem_append_left _ hd, hday⟩
    · obtain ⟨rfl, rfl⟩ := Prod.ext_iff.mp hnew
      exact ⟨delta, List.mem_append_right _ (by simp), rfl⟩

theorem reading (h : Daily db) (row : Peer) (data : PeerSyncResult) (now : Time) :
    Daily (applyPeerResult db row data now).2 := by
  obtain ⟨sessions, nextSessionId, hcases⟩ := trafficAfterResult_cases db row data now
  have hseen : Daily { db with traffic := { db.traffic with sessions, nextSessionId } } :=
    h.frame rfl rfl fun _ hu => hu
  rw [applyPeerResult_db]
  rcases hcases with heq | ⟨delta, -, -, -, hbytes, heq⟩
  · rw [heq]
    exact hseen.frame rfl rfl fun _ hu => hu
  · rw [heq]
    exact (hseen.record hbytes).frame rfl rfl fun _ hu => hu

theorem reset (h : Daily db) {user : User} (hu : ∃ old ∈ db.users, old.id = user.id)
    (at_ : Time) : Daily (resetLocalTrafficUsage db user at_).2 := by
  let kept : UserId × Day → Bool := fun k => ¬(k.1 = user.id ∧ k.2 ≥ dayOf at_)
  have hdaily : (resetLocalTrafficUsage db user at_).2.traffic.userDaily =
      db.traffic.userDaily.filter fun row => kept row.identity := rfl
  have hother : ∀ u, (resetLocalTrafficUsage db user at_).2.resetAt? u = none →
      u ≠ user.id ∧ db.resetAt? u = none := by
    intro u hnone
    rw [resetAt?_reset hu] at hnone
    split at hnone
    · cases hnone
    · next hne => exact ⟨hne, hnone⟩
  refine ⟨h.sound.filter _, fun u hnone c day => ?_, fun u hnone day hrow => ?_⟩
  · obtain ⟨hne, hold⟩ := hother u hnone
    rw [hdaily]
    refine (sumOf_filter_keep (q := kept) c fun k hk => ?_).trans (h.bytes u hold c day)
    rw [of_decide_eq_true hk]
    simp [kept, hne]
  · obtain ⟨row, hrow, hk⟩ := hrow
    exact h.rows u (hother u hnone).2 day ⟨row, (List.mem_filter.mp hrow).1, hk⟩

theorem deleteUser (hwf : db.WF) {since : Time} (hledger : Ledgered since db) (h : Daily db)
    (id : UserId) : Daily (db.deleteUser id) := by
  let owned : PeerId → Bool := fun p => (db.peersOf id).any (·.id = p)
  have htraffic : (db.deleteUser id).traffic = db.traffic.without id owned := rfl
  have hdaily : (db.deleteUser id).traffic.userDaily =
      db.traffic.userDaily.filter fun row => !decide (row.identity.1 = id) := rfl
  have hgone : (db.traffic.without id owned).ledger id = [] := by
    unfold Traffic.ledger Traffic.without Db.dropTraffic
    rw [List.filter_filter, List.filter_eq_nil_iff]
    simp +contextual
  have hkept : ∀ u, u ≠ id → (db.traffic.without id owned).ledger u = db.traffic.ledger u := by
    refine fun u hu => ledger_without_other (Ne.symm hu) fun d hd hdu => ?_
    obtain ⟨p, hp, hid, huser, -⟩ := hledger.owner d hd
    rw [List.any_eq_false]
    intro q hq hqid
    obtain ⟨hq, hquser⟩ := List.mem_filter.mp hq
    have heq : q = p := hwf.peer_eq hq hp ((of_decide_eq_true hqid).trans hid.symm)
    exact hu (hdu ▸ huser ▸ heq ▸ of_decide_eq_true hquser)
  refine ⟨h.sound.filter _, fun u hnone c day => ?_, fun u hnone day hrow => ?_⟩
  · rw [hdaily]
    unfold Traffic.ledgerOn
    rw [htraffic]
    by_cases hu : u = id
    · subst hu
      rw [hgone]
      exact sumOf_filter_drop (q := fun k : UserId × Day => !decide (k.1 = u)) c fun k hk => by
        rw [of_decide_eq_true hk]
        simp
    · rw [hkept u hu]
      refine (sumOf_filter_keep (q := fun k : UserId × Day => !decide (k.1 = id)) c
        fun k hk => ?_).trans (h.bytes u (resetAt?_deleteUser db hu ▸ hnone) c day)
      rw [of_decide_eq_true hk]
      simp [hu]
  · obtain ⟨row, hrow, hk⟩ := hrow
    rw [hdaily] at hrow
    obtain ⟨hrow, hstays⟩ := List.mem_filter.mp hrow
    have hu : u ≠ id := by simpa [hk] using hstays
    rw [htraffic, hkept u hu]
    exact h.rows u (resetAt?_deleteUser db hu ▸ hnone) day ⟨row, hrow, hk⟩

/-- **Step.** -/
theorem apply (hwf : db.WF) {since : Time} (hledger : Ledgered since db) (h : Daily db) {w : Write}
    (hok : w.Ok db) (hnode : ∀ id, w ≠ .deleteNode id) : Daily (w.apply db) := by
  cases w with
  | user row => exact h.frame rfl rfl fun u hnone => (resetAt?_save hwf hok u).symm.trans hnone
  | newUser row =>
      exact h.frame rfl rfl fun u hnone => (resetAt?_append hwf hok u rfl).symm.trans hnone
  | newImport row imported =>
      exact h.frame rfl rfl fun u hnone => (resetAt?_append hwf hok.1 u rfl).symm.trans hnone
  | reading row data at_ => exact h.reading row data at_
  | resetTraffic row at_ => exact h.reset hok at_
  | deleteUser id => exact h.deleteUser hwf hledger id
  | deleteNode id => exact absurd rfl (hnode id)
  | _ => exact h.frame rfl rfl fun _ hnone => hnone

theorem writes {P : Db → Write → Prop} (hwf : db.WF) {since : Time}
    (hledger : Ledgered since db) (h : Daily db)
    (hP : ∀ db w, P db w → ∀ id, w ≠ .deleteNode id) (hw : Writes P db db') : Daily db' := by
  have hall : db'.WF ∧ Ledgered since db' ∧ Daily db' :=
    hw.keeps (I := fun db => db.WF ∧ Ledgered since db ∧ Daily db)
      (fun db w hPw hok hI => ⟨Write.apply_wf hI.1 w hok, hI.2.1.apply hI.1 hok,
        hI.2.2.apply hI.1 hI.2.1 hok (hP db w hPw)⟩) ⟨hwf, hledger, h⟩
  exact hall.2.2

end Daily

/-! ## Runs -/

/-- No node is deleted. -/
def RetentionEvent.keepsNodes : RetentionEvent → Bool
  | .request ⟨_, .deleteNode _⟩ => false
  | _ => true

variable {cfg : Config}

theorem daily_call {since : Time} {s s' : Panel} {call : Call} (hwf : s.db.WF)
    (hledger : Ledgered since s.db) (h : Daily s.db)
    (hnode : ∀ nodeId, call.request ≠ .deleteNode nodeId)
    (hstep : (panel cfg).step s call = some s') : Daily s'.db := by
  obtain ⟨db₁, db₂, h₁, h₂, h₃⟩ := panel_step_phases hwf hstep
  have hd₁ : Daily db₁ := h.writes hwf hledger (fun _ w hw id heq => by
    subst heq
    exact hnode id hw) h₁
  have hwf₁ := h₁.wf hwf
  have hl₁ := hledger.writes hwf h₁
  have hd₂ : Daily db₂ := hd₁.writes hwf₁ hl₁ (fun _ w hw id heq => by
    subst heq
    exact hw) h₂
  exact hd₂.writes (h₂.wf hwf₁) (hl₁.writes hwf₁ h₂) (fun _ w hw id heq => by
    subst heq
    exact hw) h₃

theorem daily_afterCleanup {db : Db} (h : Daily db) (retentionDays : Nat) (now : Time) :
    Daily (afterCleanup db retentionDays now) := by
  rw [afterCleanup_eq]
  exact h.frame rfl rfl fun _ hnone => hnone

theorem retentionPanel_daily {days : Nat} {s : RetentionPanel}
    (h : (retentionPanel cfg).Reaches (fun s e => KeepsDays days s e ∧ e.keepsNodes) s) :
    Daily s.panel.db := by
  have hall : (s.panel.db.WF ∧ Ledgered (s.back days) s.panel.db) ∧ Daily s.panel.db := by
    refine h.invariant
      (P := fun s => (s.panel.db.WF ∧ Ledgered (s.back days) s.panel.db) ∧ Daily s.panel.db)
      ⟨⟨Db.WF.empty, .empty _⟩, .empty⟩ ?_
    rintro s e s' ⟨⟨hwf, hledger⟩, hdaily⟩ ⟨hkeeps, hnode⟩ hstep
    refine ⟨ledgered_step hwf hledger hkeeps hstep, ?_⟩
    rcases retentionPanel_step hstep with
      ⟨call, rfl, hcall, -⟩ | ⟨_, -, hpanel⟩ | ⟨now, -, -, -, hpanel⟩
    · refine daily_call hwf hledger hdaily (fun nodeId heq => ?_) hcall
      obtain ⟨now, request⟩ := call
      subst heq
      cases hnode
    · rw [hpanel]
      exact hdaily
    · rw [hpanel]
      exact daily_afterCleanup hdaily _ now
  exact hall.2

end VpnPanel.Backend
