import VpnPanel.Lib.Tally
import VpnPanel.Backend.Accounts

/-!
# Conservation of traffic

The four aggregate tables and the ledger keep the same bytes. A reading adds
one increment to each of them; a reset of an account drops its lifetime rows
and its daily rows from the reset day on, and starts its count of ledger rows
anew. `Tallied mark now db` says so of every account, where `mark u` is the
number of ledger rows the account had at its last reset.
-/

namespace VpnPanel.Backend

open VpnPanel.Lib

/-! ## Byte columns -/

inductive Column
  | rx | tx | total
  deriving DecidableEq, Repr

def TrafficAggregate.bytes {κ : Type} (row : TrafficAggregate κ) : Column → Nat
  | .rx => row.rxBytes
  | .tx => row.txBytes
  | .total => row.totalBytes

def TrafficDelta.bytes (row : TrafficDelta) : Column → Nat
  | .rx => row.rxDeltaBytes
  | .tx => row.txDeltaBytes
  | .total => row.totalDeltaBytes

/-- What an increment adds to a column. -/
def increment (rxDelta txDelta : Nat) : Column → Nat
  | .rx => rxDelta
  | .tx => txDelta
  | .total => rxDelta + txDelta

section Aggregate

variable {κ : Type}

/-- The sum of a column over the rows whose identity meets `p`. -/
def sumOf (c : Column) (p : κ → Bool) (rows : List (TrafficAggregate κ)) : Nat :=
  tally TrafficAggregate.identity (·.bytes c) p rows

/-- A sound aggregate table: one row for each identity, and every total is the
sum of its parts. -/
structure Aggregates (rows : List (TrafficAggregate κ)) : Prop where
  distinct : Rows.Distinct TrafficAggregate.identity rows
  totals : ∀ row ∈ rows, row.totalBytes = row.rxBytes + row.txBytes

variable {rows : List (TrafficAggregate κ)}

theorem Aggregates.filter (h : Aggregates rows) (p : TrafficAggregate κ → Bool) :
    Aggregates (rows.filter p) :=
  ⟨h.distinct.filter p, fun row hrow => h.totals row (List.mem_filter.mp hrow).1⟩

variable [DecidableEq κ]

theorem Aggregates.increase (h : Aggregates rows) (i : κ) (rx tx : Nat) (at_ : Time) :
    Aggregates (increaseAggregate rows i rx tx (rx + tx) at_) := by
  unfold increaseAggregate
  cases hi : Rows.get? TrafficAggregate.identity rows i with
  | none =>
      refine ⟨h.distinct.append (Rows.get?_eq_none.mp hi), fun row hrow => ?_⟩
      rcases List.mem_append.mp hrow with hrow | hrow
      · exact h.totals row hrow
      · rw [List.mem_singleton.mp hrow]
  | some old =>
      have hold := h.totals old (Rows.mem_of_get? hi)
      refine ⟨h.distinct.save, fun row hrow => ?_⟩
      rcases Rows.mem_save.mp hrow with ⟨rfl, -⟩ | ⟨hrow, -⟩
      · show old.totalBytes + (rx + tx) = old.rxBytes + rx + (old.txBytes + tx)
        omega
      · exact h.totals row hrow

/-- An increment goes to the sums that select its identity. -/
theorem sumOf_increase (h : Aggregates rows) (c : Column) (p : κ → Bool) (i : κ) (rx tx : Nat)
    (at_ : Time) : sumOf c p (increaseAggregate rows i rx tx (rx + tx) at_) =
      sumOf c p rows + if p i then increment rx tx c else 0 := by
  unfold increaseAggregate sumOf
  cases hi : Rows.get? TrafficAggregate.identity rows i with
  | none =>
      dsimp only
      rw [Tally.tally_append]
      cases c <;> rfl
  | some old =>
      let row : TrafficAggregate κ :=
        ⟨i, old.rxBytes + rx, old.txBytes + tx, old.totalBytes + (rx + tx), at_⟩
      have hsave : tally TrafficAggregate.identity (·.bytes c) p
            (Rows.save TrafficAggregate.identity row rows) +
          (if p row.identity then old.bytes c else 0) =
          tally TrafficAggregate.identity (·.bytes c) p rows +
            if p row.identity then row.bytes c else 0 :=
        Tally.tally_save h.distinct (Rows.mem_of_get? hi) (Rows.key_of_get? hi)
      have hrow : row.bytes c = old.bytes c + increment rx tx c := by cases c <;> rfl
      have hid : row.identity = i := rfl
      rw [hrow, hid] at hsave
      show tally _ _ p (Rows.save TrafficAggregate.identity row rows) = _
      split
      · next hp =>
          rw [if_pos hp, if_pos hp] at hsave
          omega
      · next hp =>
          rw [if_neg hp, if_neg hp] at hsave
          omega

end Aggregate

/-! ## One account -/

/-- The ledger rows of an account, oldest first. -/
def Traffic.ledger (traffic : Traffic) (u : UserId) : List TrafficDelta :=
  traffic.deltas.filter (·.userId = u)

/-- The bytes of an account's ledger rows after the first `mark`. -/
def Traffic.ledgerSince (traffic : Traffic) (c : Column) (u : UserId) (mark : Nat) : Nat :=
  (((traffic.ledger u).drop mark).map (·.bytes c)).sum

/-- The daily rows of an account not before the day of `resetAt`. -/
def sinceReset (u : UserId) (resetAt : Option Time) (k : UserId × Day) : Bool :=
  k.1 = u && resetAt.all fun at_ => dayOf at_ ≤ k.2

structure Conserved (traffic : Traffic) (u : UserId) (resetAt : Option Time) (mark : Nat) :
    Prop where
  nodes : ∀ c, sumOf c (· = u) traffic.userLifetime =
    sumOf c (fun k => k.1 = u) traffic.userNodeLifetime
  days : ∀ c day, sumOf c (· = (u, day)) traffic.userDaily =
    sumOf c (fun k => k.1 = u && k.2.2 = day) traffic.userNodeDaily
  daily : ∀ c, sumOf c (· = u) traffic.userLifetime =
    sumOf c (sinceReset u resetAt) traffic.userDaily
  ledger : ∀ c, sumOf c (· = u) traffic.userLifetime = traffic.ledgerSince c u mark

/-- Every aggregate table is sound. -/
structure Traffic.Sound (traffic : Traffic) : Prop where
  userDaily : Aggregates traffic.userDaily
  userNodeDaily : Aggregates traffic.userNodeDaily
  userLifetime : Aggregates traffic.userLifetime
  userNodeLifetime : Aggregates traffic.userNodeLifetime

variable {traffic : Traffic} {u : UserId} {resetAt : Option Time} {mark : Nat}

theorem Traffic.Sound.aggregates (h : traffic.Sound) (peer : Peer) (now : Time) (rx tx : Nat) :
    (applyLocalTrafficAggregates traffic peer now rx tx).Sound :=
  ⟨h.userDaily.increase _ rx tx now, h.userNodeDaily.increase _ rx tx now,
    h.userLifetime.increase _ rx tx now, h.userNodeLifetime.increase _ rx tx now⟩

/-- What a reading records: nothing, or one increment everywhere. -/
theorem recordReading_cases (traffic : Traffic) (peer : Peer) (rx tx : Nat) (now : Time) :
    (recordReading traffic peer rx tx now).2 = traffic ∨
      ∃ samples, ∃ delta : TrafficDelta, delta.peerId = peer.id ∧ delta.userId = peer.userId ∧
        (∀ c, delta.bytes c = increment delta.rxDeltaBytes delta.txDeltaBytes c) ∧
        (recordReading traffic peer rx tx now).2 = applyLocalTrafficAggregates
          { traffic with samples, deltas := traffic.deltas ++ [delta] } peer now
          delta.rxDeltaBytes delta.txDeltaBytes := by
  unfold recordReading
  dsimp only
  split
  · exact .inl rfl
  · refine .inr ⟨_, trafficDelta peer rx tx now, rfl, rfl, fun c => ?_, rfl⟩
    cases c <;> rfl

theorem Traffic.Sound.recordReading (h : traffic.Sound) (peer : Peer) (rx tx : Nat) (now : Time) :
    (Backend.recordReading traffic peer rx tx now).2.Sound := by
  rcases recordReading_cases traffic peer rx tx now with heq | ⟨samples, delta, -, -, -, heq⟩
  · rw [heq]
    exact h
  · rw [heq]
    have hrows : Traffic.Sound { traffic with samples, deltas := traffic.deltas ++ [delta] } :=
      ⟨h.userDaily, h.userNodeDaily, h.userLifetime, h.userNodeLifetime⟩
    exact hrows.aggregates peer now _ _

/-- A new ledger row counts for its own account. -/
theorem ledgerSince_append (traffic : Traffic) (c : Column) (delta : TrafficDelta)
    (samples : List PeerTrafficSample)
    (hmark : delta.userId = u → mark ≤ (traffic.ledger u).length) :
    Traffic.ledgerSince { traffic with samples, deltas := traffic.deltas ++ [delta] } c u mark =
      traffic.ledgerSince c u mark + if delta.userId = u then delta.bytes c else 0 := by
  have hledger : Traffic.ledger { traffic with samples, deltas := traffic.deltas ++ [delta] } u =
      traffic.ledger u ++ if delta.userId = u then [delta] else [] := by
    unfold Traffic.ledger
    rw [List.filter_append]
    by_cases h : delta.userId = u <;> simp [h]
  unfold Traffic.ledgerSince
  rw [hledger]
  by_cases h : delta.userId = u
  · rw [if_pos h, if_pos h, List.drop_append_of_le_length (hmark h)]
    simp
  · simp [h]

/-- **Reading.** The increment goes to one row of each table, all of the same
account and day, and to one new ledger row. -/
theorem Conserved.recordReading (hs : traffic.Sound) (h : Conserved traffic u resetAt mark)
    (peer : Peer) (rx tx : Nat) {now : Time} (hday : ∀ at_ ∈ resetAt, at_ ≤ now)
    (hmark : peer.userId = u → mark ≤ (traffic.ledger u).length) :
    Conserved (Backend.recordReading traffic peer rx tx now).2 u resetAt mark := by
  rcases recordReading_cases traffic peer rx tx now with
    heq | ⟨samples, delta, -, huser, hbytes, heq⟩
  · rw [heq]
    exact h
  rw [heq]
  -- the day of the reading is not before the day of the reset
  have hsince : sinceReset u resetAt (peer.userId, dayOf now) = decide (peer.userId = u) := by
    unfold sinceReset
    cases resetAt with
    | none => simp
    | some at_ =>
        have hle : dayOf at_ ≤ dayOf now := Int.ediv_le_ediv (by decide) (hday at_ rfl)
        simp [hle]
  have hlife : ∀ c, sumOf c (· = u) (increaseAggregate traffic.userLifetime peer.userId
      delta.rxDeltaBytes delta.txDeltaBytes (delta.rxDeltaBytes + delta.txDeltaBytes) now) =
      sumOf c (· = u) traffic.userLifetime +
        if peer.userId = u then increment delta.rxDeltaBytes delta.txDeltaBytes c else 0 := by
    intro c
    rw [sumOf_increase hs.userLifetime]
    simp
  refine ⟨fun c => (hlife c).trans ?_, fun c day => ?_, fun c => (hlife c).trans ?_,
    fun c => (hlife c).trans ?_⟩
  · refine Eq.symm ((sumOf_increase hs.userNodeLifetime c _ _ _ _ _).trans ?_)
    rw [h.nodes c]
    simp
  · refine (sumOf_increase hs.userDaily c _ _ _ _ _).trans
      (Eq.trans ?_ (sumOf_increase hs.userNodeDaily c _ _ _ _ _).symm)
    rw [h.days c day]
    simp [Prod.ext_iff]
  · refine Eq.symm ((sumOf_increase hs.userDaily c _ _ _ _ _).trans ?_)
    rw [h.daily c, hsince]
    simp
  · refine Eq.symm ((ledgerSince_append traffic c delta samples (huser ▸ hmark)).trans ?_)
    rw [h.ledger c, hbytes c, huser]

/-! ## Trimming -/

section Trim

variable {κ : Type} {p q : κ → Bool} {rows : List (TrafficAggregate κ)}

theorem sumOf_filter_keep (c : Column) (h : ∀ k, p k → q k) :
    sumOf c p (rows.filter fun r => q r.identity) = sumOf c p rows := Tally.tally_filter_of_imp h

theorem sumOf_filter_drop (c : Column) (h : ∀ k, p k → q k = false) :
    sumOf c p (rows.filter fun r => q r.identity) = 0 := by
  refine Tally.tally_eq_zero fun r hr => ?_
  cases hp : p r.identity with
  | false => rfl
  | true =>
      have hq := (List.mem_filter.mp hr).2
      rw [h _ hp] at hq
      cases hq

end Trim

/-- The tables after a reset of the account `v`. -/
def Traffic.reset (traffic : Traffic) (v : UserId) (at_ : Time) : Traffic :=
  { traffic with
    userLifetime := traffic.userLifetime.filter (·.identity ≠ v)
    userNodeLifetime := traffic.userNodeLifetime.filter (·.identity.1 ≠ v)
    userDaily := traffic.userDaily.filter fun row =>
      ¬(row.identity.1 = v ∧ row.identity.2 ≥ dayOf at_)
    userNodeDaily := traffic.userNodeDaily.filter fun row =>
      ¬(row.identity.1 = v ∧ row.identity.2.2 ≥ dayOf at_) }

theorem Traffic.Sound.reset (h : traffic.Sound) (v : UserId) (at_ : Time) :
    (traffic.reset v at_).Sound :=
  ⟨h.userDaily.filter _, h.userNodeDaily.filter _, h.userLifetime.filter _,
    h.userNodeLifetime.filter _⟩

/-- A reset of another account touches nothing of this one. -/
theorem Conserved.reset_other (h : Conserved traffic u resetAt mark) {v : UserId} (hv : v ≠ u)
    (at_ : Time) : Conserved (traffic.reset v at_) u resetAt mark := by
  have hlife : ∀ c, sumOf c (· = u) (traffic.reset v at_).userLifetime =
      sumOf c (· = u) traffic.userLifetime :=
    fun c => sumOf_filter_keep (q := fun k => k ≠ v) c (by simp +contextual [hv.symm])
  refine ⟨fun c => (hlife c).trans ?_, fun c day => ?_, fun c => (hlife c).trans ?_,
    fun c => (hlife c).trans (h.ledger c)⟩
  · rw [h.nodes c]
    exact (sumOf_filter_keep (q := fun k : UserId × NodeId => k.1 ≠ v) c
      (by simp +contextual [hv.symm])).symm
  · refine (sumOf_filter_keep (q := fun k : UserId × Day => ¬(k.1 = v ∧ k.2 ≥ dayOf at_)) c
      (by simp +contextual [hv.symm])).trans ((h.days c day).trans ?_)
    exact (sumOf_filter_keep
      (q := fun k : UserId × NodeId × Day => ¬(k.1 = v ∧ k.2.2 ≥ dayOf at_)) c
      (by simp +contextual [hv.symm])).symm
  · rw [h.daily c]
    exact (sumOf_filter_keep (q := fun k : UserId × Day => ¬(k.1 = v ∧ k.2 ≥ dayOf at_)) c
      (by simp +contextual [sinceReset, hv.symm])).symm

/-- **Reset.** The account starts from nothing: its days before the reset stay
and no longer count. -/
theorem Conserved.reset_self (h : Conserved traffic u resetAt mark) (at_ : Time) :
    Conserved (traffic.reset u at_) u (some at_) (traffic.ledger u).length := by
  have hlife : ∀ c, sumOf c (· = u) (traffic.reset u at_).userLifetime = 0 :=
    fun c => sumOf_filter_drop (q := fun k => k ≠ u) c (by simp)
  refine ⟨fun c => (hlife c).trans ?_, fun c day => ?_, fun c => (hlife c).trans ?_,
    fun c => (hlife c).trans ?_⟩
  · exact (sumOf_filter_drop (q := fun k : UserId × NodeId => k.1 ≠ u) c (by simp)).symm
  · by_cases hd : dayOf at_ ≤ day
    · -- both tables have lost the day
      refine (sumOf_filter_drop (q := fun k : UserId × Day => ¬(k.1 = u ∧ k.2 ≥ dayOf at_)) c
        (by simp +contextual [hd])).trans (Eq.symm ?_)
      exact sumOf_filter_drop
        (q := fun k : UserId × NodeId × Day => ¬(k.1 = u ∧ k.2.2 ≥ dayOf at_)) c
        (by simp +contextual [hd])
    · refine (sumOf_filter_keep (q := fun k : UserId × Day => ¬(k.1 = u ∧ k.2 ≥ dayOf at_)) c
        (by simp +contextual [hd])).trans ((h.days c day).trans (Eq.symm ?_))
      exact sumOf_filter_keep
        (q := fun k : UserId × NodeId × Day => ¬(k.1 = u ∧ k.2.2 ≥ dayOf at_)) c
        (by simp +contextual [hd])
  · exact (sumOf_filter_drop (q := fun k : UserId × Day => ¬(k.1 = u ∧ k.2 ≥ dayOf at_)) c
      (by simp +contextual [sinceReset])).symm
  · show 0 = (((traffic.ledger u).drop (traffic.ledger u).length).map _).sum
    rw [List.drop_length]
    rfl

/-- The tables without the rows of the account `v`, whose peers are `peer`. -/
def Traffic.without (traffic : Traffic) (v : UserId) (peer : PeerId → Bool) : Traffic :=
  Db.dropTraffic traffic peer (· = v) fun _ => false

theorem Traffic.Sound.without (h : traffic.Sound) (v : UserId) (peer : PeerId → Bool) :
    (traffic.without v peer).Sound :=
  ⟨h.userDaily.filter _, h.userNodeDaily.filter _, h.userLifetime.filter _,
    h.userNodeLifetime.filter _⟩

theorem ledger_without_other {v : UserId} (hv : v ≠ u) {peer : PeerId → Bool}
    (hpeer : ∀ row ∈ traffic.deltas, row.userId = u → peer row.peerId = false) :
    (traffic.without v peer).ledger u = traffic.ledger u := by
  unfold Traffic.ledger Traffic.without Db.dropTraffic
  rw [List.filter_filter]
  refine List.filter_congr fun row hrow => ?_
  by_cases hu : row.userId = u
  · simp [hu, hv.symm, hpeer row hrow hu]
  · simp [hu]

theorem Conserved.without_other (h : Conserved traffic u resetAt mark) {v : UserId} (hv : v ≠ u)
    {peer : PeerId → Bool}
    (hpeer : ∀ row ∈ traffic.deltas, row.userId = u → peer row.peerId = false) :
    Conserved (traffic.without v peer) u resetAt mark := by
  have hlife : ∀ c, sumOf c (· = u) (traffic.without v peer).userLifetime =
      sumOf c (· = u) traffic.userLifetime :=
    fun c => sumOf_filter_keep (q := fun k => !(k = v)) c (by simp +contextual [hv.symm])
  refine ⟨fun c => (hlife c).trans ?_, fun c day => ?_, fun c => (hlife c).trans ?_,
    fun c => (hlife c).trans ?_⟩
  · rw [h.nodes c]
    exact (sumOf_filter_keep (q := fun k : UserId × NodeId => !(k.1 = v || false)) c
      (by simp +contextual [hv.symm])).symm
  · refine (sumOf_filter_keep (q := fun k : UserId × Day => !(k.1 = v)) c
      (by simp +contextual [hv.symm])).trans ((h.days c day).trans ?_)
    exact (sumOf_filter_keep (q := fun k : UserId × NodeId × Day => !(k.1 = v || false)) c
      (by simp +contextual [hv.symm])).symm
  · rw [h.daily c]
    exact (sumOf_filter_keep (q := fun k : UserId × Day => !(k.1 = v)) c
      (by simp +contextual [sinceReset, hv.symm])).symm
  · rw [h.ledger c]
    unfold Traffic.ledgerSince
    rw [ledger_without_other hv hpeer]

/-- **Deletion.** Nothing is left of the account. -/
theorem conserved_without_self (traffic : Traffic) (u : UserId) (peer : PeerId → Bool)
    (resetAt : Option Time) (mark : Nat) :
    Conserved (traffic.without u peer) u resetAt mark := by
  have hlife : ∀ c, sumOf c (· = u) (traffic.without u peer).userLifetime = 0 :=
    fun c => sumOf_filter_drop (q := fun k => !(k = u)) c (by simp)
  refine ⟨fun c => (hlife c).trans ?_, fun c day => ?_, fun c => (hlife c).trans ?_,
    fun c => (hlife c).trans ?_⟩
  · exact (sumOf_filter_drop (q := fun k : UserId × NodeId => !(k.1 = u || false)) c
      (by simp)).symm
  · refine (sumOf_filter_drop (q := fun k : UserId × Day => !(k.1 = u)) c
      (by simp +contextual)).trans (Eq.symm ?_)
    exact sumOf_filter_drop (q := fun k : UserId × NodeId × Day => !(k.1 = u || false)) c
      (by simp +contextual)
  · exact (sumOf_filter_drop (q := fun k : UserId × Day => !(k.1 = u)) c
      (by simp +contextual [sinceReset])).symm
  · have hnone : (traffic.without u peer).ledger u = [] := by
      unfold Traffic.ledger Traffic.without Db.dropTraffic
      rw [List.filter_filter, List.filter_eq_nil_iff]
      simp +contextual
    unfold Traffic.ledgerSince
    rw [hnone]
    simp

/-! ## Every account -/

/-- The last traffic reset of an account. -/
def Db.resetAt? (db : Db) (u : UserId) : Option Time := (db.user? u).bind (·.trafficResetAt)

structure Tallied (mark : UserId → Nat) (now : Time) (db : Db) : Prop where
  sound : db.traffic.Sound
  conserved : ∀ u, Conserved db.traffic u (db.resetAt? u) (mark u)
  marked : ∀ user ∈ db.users, mark user.id ≤ (db.traffic.ledger user.id).length
  unmarked : ∀ u, db.nextId ≤ u → mark u = 0
  stamped : ∀ u, ∀ at_ ∈ db.resetAt? u, at_ ≤ now
  peers : ∀ row ∈ db.traffic.deltas, row.peerId < db.nextId ∧
    ∀ p ∈ db.peers, p.id = row.peerId → p.userId = row.userId

/-- A write of a request handled at `now` that resets no traffic and deletes no
node. -/
def Meters (now : Time) (_ : Db) : Write → Prop
  | .reading _ _ at_ => at_ = now
  | .resetTraffic _ _ => False
  | .deleteNode _ => False
  | _ => True

variable {marks : UserId → Nat} {now : Time} {db db' : Db}

theorem Tallied.later (h : Tallied marks now db) {later : Time} (hle : now ≤ later) :
    Tallied marks later db :=
  { h with stamped := fun u at_ hat => le_trans (h.stamped u at_ hat) hle }

/-- A write that leaves the traffic and the reset stamps alone. -/
theorem Tallied.frame (h : Tallied marks now db) (htraffic : db'.traffic = db.traffic)
    (hreset : ∀ u, db'.resetAt? u = db.resetAt? u)
    (husers : ∀ user' ∈ db'.users, (∃ user ∈ db.users, user.id = user'.id) ∨ db.nextId ≤ user'.id)
    (hpeers : ∀ p' ∈ db'.peers, (∃ p ∈ db.peers, p.Same p') ∨ db.nextId ≤ p'.id)
    (hnext : db.nextId ≤ db'.nextId) : Tallied marks now db' where
  sound := by
    rw [htraffic]
    exact h.sound
  conserved := by
    intro u
    rw [htraffic, hreset u]
    exact h.conserved u
  marked := by
    intro user' hu'
    rw [htraffic]
    rcases husers user' hu' with ⟨user, hu, hid⟩ | hnew
    · rw [← hid]
      exact h.marked user hu
    · rw [h.unmarked user'.id hnew]
      exact Nat.zero_le _
  unmarked := fun u hu => h.unmarked u (Nat.le_trans hnext hu)
  stamped := by
    intro u
    rw [hreset u]
    exact h.stamped u
  peers := by
    intro row hrow
    rw [htraffic] at hrow
    obtain ⟨hlt, howner⟩ := h.peers row hrow
    refine ⟨Nat.lt_of_lt_of_le hlt hnext, fun p' hp' hid => ?_⟩
    rcases hpeers p' hp' with ⟨p, hp, hsame⟩ | hnew
    · rw [hsame.userId]
      exact howner p hp (hsame.id.symm.trans hid)
    · rw [hid] at hnew
      exact absurd hlt (Nat.not_lt.mpr hnew)

theorem resetAt?_save (hwf : db.WF) {row : User} (hok : Updates db row) (u : UserId) :
    (db.saveUser row).resetAt? u = db.resetAt? u := by
  obtain ⟨old, hold, hid, hstamp⟩ := hok
  unfold Db.resetAt? Db.user?
  by_cases hu : row.id = u
  · subst hu
    have hget : Rows.get? User.id db.users row.id = some old := hid ▸ hwf.userIds.get?_eq_some hold
    show (Rows.get? User.id (Rows.save User.id row db.users) row.id).bind _ = _
    rw [Rows.get?_save_self hget, hget]
    exact hstamp.symm
  · show (Rows.get? User.id (Rows.save User.id row db.users) u).bind _ = _
    rw [Rows.get?_save_of_ne hu]

theorem resetAt?_append (hwf : db.WF) {row : User} (hok : NewUserOk db row) (u : UserId)
    (husers : db'.users = db.users ++ [row]) : db'.resetAt? u = db.resetAt? u := by
  unfold Db.resetAt? Db.user?
  rw [husers]
  by_cases hu : row.id = u
  · -- the id was free, and a new account was never reset
    have hnone : Rows.get? User.id db.users u = none :=
      Rows.get?_eq_none.mpr (hu ▸ hwf.userFresh.ne hok.id)
    unfold Rows.get? at hnone ⊢
    rw [List.find?_append, hnone]
    simp [hu, hok.unreset]
  · rw [Rows.get?_append_of_ne hu]

/-- What a result leaves of the traffic: sound tables, conserved accounts, and
at most one new ledger row, of the peer's own account. -/
structure Records (marks : UserId → Nat) (db : Db) (row : Peer) (traffic : Traffic) : Prop where
  sound : traffic.Sound
  conserved : ∀ u, Conserved traffic u (db.resetAt? u) (marks u)
  deltas : traffic.deltas = db.traffic.deltas ∨ ∃ delta : TrafficDelta,
    delta.peerId = row.id ∧ delta.userId = row.userId ∧
      traffic.deltas = db.traffic.deltas ++ [delta]

theorem Tallied.records (hwf : db.WF) (h : Tallied marks now db) {row : Peer}
    (hrow : row ∈ db.peers) (data : PeerSyncResult) :
    Records marks db row (trafficAfterResult db row data now) := by
  obtain ⟨d, hd, -, hduser⟩ := hwf.peerDevice row hrow
  obtain ⟨user, hu, huid⟩ := hwf.deviceOwner d hd
  have howner : user.id = row.userId := huid.trans hduser
  obtain ⟨sessions, nextSessionId, hsession⟩ := applyPeerEndpointSession_eq db.traffic row data now
  let seen : Traffic := { db.traffic with sessions, nextSessionId }
  have hseen : Records marks db row seen := by
    refine ⟨⟨h.sound.userDaily, h.sound.userNodeDaily, h.sound.userLifetime,
      h.sound.userNodeLifetime⟩, fun u => ?_, .inl rfl⟩
    exact ⟨(h.conserved u).nodes, (h.conserved u).days, (h.conserved u).daily,
      (h.conserved u).ledger⟩
  unfold trafficAfterResult
  rw [hsession]
  cases data.rxBytes with
  | none => exact hseen
  | some rx =>
      cases data.txBytes with
      | none => exact hseen
      | some tx =>
          show Records marks db row (recordReading seen row rx tx now).2
          refine ⟨hseen.sound.recordReading row rx tx now, fun u => ?_, ?_⟩
          · refine (hseen.conserved u).recordReading hseen.sound row rx tx (h.stamped u) ?_
            rintro rfl
            rw [← howner]
            exact h.marked user hu
          · rcases recordReading_cases seen row rx tx now with
              heq | ⟨samples, delta, hpeer, huser, -, heq⟩
            · rw [heq]
              exact .inl rfl
            · rw [heq]
              exact .inr ⟨delta, hpeer, huser, rfl⟩

theorem Tallied.reading (hwf : db.WF) (h : Tallied marks now db) {row : Peer}
    (hrow : row ∈ db.peers) (data : PeerSyncResult) :
    Tallied marks now (applyPeerResult db row data now).2 := by
  have hrec := h.records hwf hrow data
  rw [applyPeerResult_db]
  refine ⟨hrec.sound, hrec.conserved, fun user hu => ?_, h.unmarked, h.stamped, ?_⟩
  · -- the ledger of an account only grows
    refine Nat.le_trans (h.marked user hu) ?_
    unfold Traffic.ledger
    show _ ≤ ((trafficAfterResult db row data now).deltas.filter _).length
    rcases hrec.deltas with heq | ⟨delta, -, -, heq⟩
    · rw [heq]
    · rw [heq, List.filter_append, List.length_append]
      exact Nat.le_add_right _ _
  · have hsaved : ∀ p' ∈ Rows.save Peer.id (peerAfterResult db row data) db.peers,
        ∃ p ∈ db.peers, p.Same p' := by
      intro p' hp'
      rcases Rows.mem_save.mp hp' with ⟨rfl, -⟩ | ⟨hp', -⟩
      · exact ⟨row, hrow, peerAfterResult_same db row data⟩
      · exact ⟨p', hp', .refl p'⟩
    have hnew : ∀ delta ∈ (trafficAfterResult db row data now).deltas,
        delta ∈ db.traffic.deltas ∨ delta.peerId = row.id ∧ delta.userId = row.userId := by
      intro delta hdelta
      rcases hrec.deltas with heq | ⟨new, hpeer, huser, heq⟩
      · rw [heq] at hdelta
        exact .inl hdelta
      · rw [heq] at hdelta
        rcases List.mem_append.mp hdelta with hold | hnew
        · exact .inl hold
        · rw [List.mem_singleton.mp hnew]
          exact .inr ⟨hpeer, huser⟩
    intro delta hdelta
    rcases hnew delta hdelta with hold | ⟨hpeer, huser⟩
    · obtain ⟨hlt, howner⟩ := h.peers delta hold
      refine ⟨hlt, fun p' hp' hid => ?_⟩
      obtain ⟨p, hp, hsame⟩ := hsaved p' hp'
      rw [hsame.userId]
      exact howner p hp (hsame.id.symm.trans hid)
    · refine ⟨hpeer ▸ hwf.peerFresh row hrow, fun p' hp' hid => ?_⟩
      obtain ⟨p, hp, hsame⟩ := hsaved p' hp'
      have heq : p = row := hwf.peer_eq hp hrow (hsame.id.symm.trans (hid.trans hpeer))
      rw [hsame.userId, heq, huser]

theorem Tallied.deleteUser (h : Tallied marks now db) (id : UserId) :
    Tallied marks now (db.deleteUser id) := by
  let owned : PeerId → Bool := fun p => (db.peersOf id).any (·.id = p)
  have htraffic : (db.deleteUser id).traffic = db.traffic.without id owned := rfl
  have hother : ∀ u, u ≠ id → ∀ row ∈ db.traffic.deltas, row.userId = u →
      owned row.peerId = false := by
    intro u hne row hrow huser
    show (db.peersOf id).any _ = false
    rw [List.any_eq_false]
    intro p hp
    obtain ⟨hp, hid⟩ := List.mem_filter.mp hp
    simp only [decide_eq_true_eq] at hid ⊢
    intro heq
    exact hne (huser.symm.trans (((h.peers row hrow).2 p hp heq).symm.trans hid))
  have huser : ∀ u, u ≠ id → (db.deleteUser id).resetAt? u = db.resetAt? u := by
    intro u hne
    unfold Db.resetAt? Db.user? Rows.get?
    show (List.find? _ (db.users.filter _)).bind _ = _
    rw [List.find?_filter]
    congr 2
    funext user
    by_cases hu : user.id = u
    · simp [hu, hne]
    · simp [hu]
  have hgone : (db.deleteUser id).resetAt? id = none := by
    unfold Db.resetAt? Db.user?
    rw [Rows.get?_eq_none.mpr]
    · rfl
    · intro user hu
      simpa using (List.mem_filter.mp hu).2
  refine ⟨h.sound.without id owned, fun u => ?_, fun user hu => ?_, h.unmarked, fun u => ?_, ?_⟩
  · rw [htraffic]
    by_cases hne : u = id
    · rw [hne]
      exact conserved_without_self _ _ _ _ _
    · rw [huser u hne]
      exact (h.conserved u).without_other (Ne.symm hne) (hother u hne)
  · obtain ⟨hu, hid⟩ := List.mem_filter.mp hu
    have hne : user.id ≠ id := by simpa using hid
    rw [htraffic, ledger_without_other (Ne.symm hne) (hother user.id hne)]
    exact h.marked user hu
  · by_cases hne : u = id
    · subst hne
      rw [hgone]
      exact nofun
    · rw [huser u hne]
      exact h.stamped u
  · intro row hrow
    obtain ⟨hlt, howner⟩ := h.peers row (List.mem_filter.mp hrow).1
    exact ⟨hlt, fun p hp => howner p (List.mem_filter.mp hp).1⟩

/-- **Step.** -/
theorem Tallied.apply (hwf : db.WF) (h : Tallied marks now db) {w : Write}
    (hw : Meters now db w) (hok : w.Ok db) : Tallied marks now (w.apply db) := by
  have hsameUsers : ∀ user ∈ db.users,
      (∃ old ∈ db.users, old.id = user.id) ∨ db.nextId ≤ user.id :=
    fun user hu => .inl ⟨user, hu, rfl⟩
  have hsamePeers : ∀ p ∈ db.peers, (∃ q ∈ db.peers, q.Same p) ∨ db.nextId ≤ p.id :=
    fun p hp => .inl ⟨p, hp, .refl p⟩
  have hnewUser : ∀ row, NewUserOk db row → ∀ user ∈ db.users ++ [row],
      (∃ old ∈ db.users, old.id = user.id) ∨ db.nextId ≤ user.id := by
    intro row hnew user hu
    rcases List.mem_append.mp hu with hu | hu
    · exact hsameUsers user hu
    · rw [List.mem_singleton.mp hu, hnew.id]
      exact .inr (Nat.le_refl _)
  cases w with
  | user row =>
      refine h.frame rfl (resetAt?_save hwf hok) (fun user hu => .inl ?_) hsamePeers le_rfl
      obtain ⟨old, hold, hid, -⟩ := hok
      rcases Rows.mem_save.mp hu with ⟨rfl, -⟩ | ⟨hu, -⟩
      · exact ⟨old, hold, hid⟩
      · exact ⟨user, hu, rfl⟩
  | newUser row =>
      exact h.frame rfl (fun u => resetAt?_append hwf hok u rfl) (hnewUser row hok) hsamePeers
        (Nat.le_succ _)
  | newImport row imported =>
      exact h.frame rfl (fun u => resetAt?_append hwf hok.1 u rfl) (hnewUser row hok.1) hsamePeers
        (Nat.le_succ _)
  | newNode row => exact h.frame rfl (fun _ => rfl) hsameUsers hsamePeers (Nat.le_succ _)
  | newDevice row => exact h.frame rfl (fun _ => rfl) hsameUsers hsamePeers (Nat.le_succ _)
  | tombstone row =>
      refine h.frame rfl (fun _ => rfl) hsameUsers (fun p' hp' => ?_) le_rfl
      obtain ⟨p, hp, rfl⟩ := List.mem_map.mp hp'
      refine .inl ⟨p, hp, ?_⟩
      unfold deletedDevicePeer
      split
      · exact ⟨rfl, rfl, rfl, rfl, rfl⟩
      · exact .refl p
  | peers f =>
      refine h.frame rfl (fun _ => rfl) hsameUsers (fun p' hp' => ?_) le_rfl
      obtain ⟨p, hp, rfl⟩ := List.mem_map.mp hp'
      exact .inl ⟨p, hp, hok.same p hp⟩
  | newPeer row =>
      refine h.frame rfl (fun _ => rfl) hsameUsers (fun p hp => ?_) (Nat.le_succ _)
      rcases List.mem_append.mp hp with hp | hp
      · exact hsamePeers p hp
      · rw [List.mem_singleton.mp hp, hok.id]
        exact .inr (Nat.le_refl _)
  | reading row data at_ =>
      cases hw
      exact h.reading hwf hok data
  | resetTraffic row at_ => exact hw.elim
  | deleteUser id => exact h.deleteUser id
  | deleteNode id => exact hw.elim
  | _ => exact h.frame rfl (fun _ => rfl) hsameUsers hsamePeers le_rfl

theorem Tallied.writes {P : Db → Write → Prop} (hwf : db.WF) (h : Tallied marks now db)
    (hP : ∀ db w, P db w → Meters now db w) (hw : Writes P db db') : Tallied marks now db' := by
  have hboth : db'.WF ∧ Tallied marks now db' :=
    hw.keeps (I := fun db => db.WF ∧ Tallied marks now db)
      (fun db w hPw hok hI => ⟨Write.apply_wf hI.1 w hok, hI.2.apply hI.1 (hP db w hPw) hok⟩)
      ⟨hwf, h⟩
  exact hboth.2

/-- **Reset step.** The account's mark moves to the end of its ledger. -/
theorem Tallied.resetTraffic (hwf : db.WF) (h : Tallied marks now db) {user : User}
    (hu : user ∈ db.users) :
    Tallied (Function.update marks user.id (db.traffic.ledger user.id).length) now
      (resetLocalTrafficUsage db user now).2 := by
  let stamped : User := { user with trafficResetAt := some now }
  have husers : (resetLocalTrafficUsage db user now).2.users = Rows.save User.id stamped db.users :=
    rfl
  have hget : Rows.get? User.id db.users stamped.id = some user := hwf.userIds.get?_eq_some hu
  have hself : (resetLocalTrafficUsage db user now).2.resetAt? user.id = some now := by
    unfold Db.resetAt? Db.user?
    rw [husers]
    exact congrArg (·.bind fun row => row.trafficResetAt) (Rows.get?_save_self hget)
  have hother : ∀ u, u ≠ user.id →
      (resetLocalTrafficUsage db user now).2.resetAt? u = db.resetAt? u := by
    intro u hne
    have hid : stamped.id ≠ u := Ne.symm hne
    unfold Db.resetAt? Db.user?
    rw [husers, Rows.get?_save_of_ne hid]
  refine ⟨h.sound.reset user.id now, fun u => ?_, fun row hrow => ?_, fun u hfresh => ?_,
    fun u => ?_, h.peers⟩
  · by_cases hne : u = user.id
    · subst hne
      rw [hself, Function.update_self]
      exact (h.conserved user.id).reset_self now
    · rw [hother u hne, Function.update_of_ne hne]
      exact (h.conserved u).reset_other (Ne.symm hne) now
  · have hid : ∃ old ∈ db.users, old.id = row.id := by
      rcases Rows.mem_save.mp hrow with ⟨rfl, -⟩ | ⟨hrow, -⟩
      · exact ⟨user, hu, rfl⟩
      · exact ⟨row, hrow, rfl⟩
    obtain ⟨old, hold, hid⟩ := hid
    show _ ≤ (db.traffic.ledger row.id).length
    by_cases hne : row.id = user.id
    · rw [hne, Function.update_self]
    · rw [Function.update_of_ne hne, ← hid]
      exact h.marked old hold
  · have hne : u ≠ user.id := by
      rintro rfl
      exact absurd (hwf.userFresh user hu) (Nat.not_lt.mpr hfresh)
    rw [Function.update_of_ne hne]
    exact h.unmarked u hfresh
  · by_cases hne : u = user.id
    · subst hne
      rw [hself]
      intro at_ hat
      cases hat
      exact le_rfl
    · rw [hother u hne]
      exact h.stamped u

end VpnPanel.Backend
