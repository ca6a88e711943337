import VpnPanel.Lib.Grouping
import VpnPanel.Backend.Conservation

/-!
# Raw traffic samples

`services/traffic_retention.py`, its settings row, and the traffic graph of
`api_parts/users.py` that reads the samples. A sample repeats a ledger row; the
cleanup drops those that are old enough and whose bytes every aggregate has.

A sample row is given by its columns: the cleanup selects ids, but no condition
of it tells two rows of equal columns apart.
-/

namespace VpnPanel.Backend

open VpnPanel.Lib

/-! ## The clock -/

/-- `datetime.min`, in UTC. -/
def minTime : Time := -62135596800000000

/-- `datetime.max`, in UTC. -/
def maxTime : Time := 253402300799999999

/-- `now - timedelta(days=days)`; `none` is an `OverflowError`. -/
def daysBefore? (now : Time) (days : Int) : Option Time :=
  let instant := now - days * 86400000000
  if 999999999 < days.natAbs ∨ instant < minTime ∨ maxTime < instant then none else some instant

theorem daysBefore?_eq_some {now instant : Time} {days : Int}
    (h : daysBefore? now days = some instant) : instant = now - days * 86400000000 := by
  unfold daysBefore? at h
  dsimp only at h
  split at h
  · cases h
  · exact (Option.some.inj h).symm

/-! ## The traffic graph -/

/-- One point of the graph. -/
structure TrafficPoint where
  day : Day
  rxBytes : Nat
  txBytes : Nat
  deriving DecidableEq, Repr

/-- The sums of one day. -/
def trafficPoint (rows : List PeerTrafficSample) (day : Day) : TrafficPoint where
  day := day
  rxBytes := ((rows.filter (dayOf ·.sampledAt = day)).map (·.rxBytes)).sum
  txBytes := ((rows.filter (dayOf ·.sampledAt = day)).map (·.txBytes)).sum

/-- `GROUP BY day ORDER BY day`. -/
def trafficPoints (rows : List PeerTrafficSample) : List TrafficPoint :=
  (Grouping.groupKeys (dayOf ·.sampledAt) rows).map (trafficPoint rows)

/-- The peer with this id belongs to the account. -/
def Db.ownsPeer (db : Db) (userId : UserId) (id : PeerId) : Bool :=
  db.peers.any fun p => p.id = id && p.userId = userId

/-- The samples of an account not older than `since`. -/
def samplesSince (db : Db) (userId : UserId) (since : Time) : List PeerTrafficSample :=
  db.traffic.samples.filter fun x => db.ownsPeer userId x.peerId && since ≤ x.sampledAt

def apiUserTraffic (db : Db) (userId : UserId) (days : Int) (now : Time) :
    Except HttpError (List TrafficPoint) :=
  if (db.user? userId).isNone then .error userNotFound
  else match daysBefore? now days with
    | none => .error internalError
    | some since => .ok (trafficPoints (samplesSince db userId since))

/-! ## The cleanup -/

structure RawSampleRetentionResult where
  retentionDays : Nat
  deleted : Nat
  disabled : Bool
  cutoff : Option Time := none
  deriving DecidableEq, Repr

/-- The joins of `_deletable_raw_sample_ids`: the peer of the sample is stored,
a ledger row repeats it, and every aggregate has a row for it. -/
def accounted (db : Db) (x : PeerTrafficSample) : Bool :=
  db.peers.any fun p => p.id = x.peerId &&
    (db.traffic.deltas.any fun d => d.peerId = x.peerId && d.observedAt = x.sampledAt &&
      d.rxDeltaBytes = x.rxBytes && d.txDeltaBytes = x.txBytes &&
      db.traffic.userDaily.any (·.identity = (p.userId, dayOf d.observedAt)) &&
      db.traffic.userNodeDaily.any (·.identity = (p.userId, p.nodeId, dayOf d.observedAt))) &&
    db.traffic.userLifetime.any (·.identity = p.userId) &&
    db.traffic.userNodeLifetime.any (·.identity = (p.userId, p.nodeId))

/-- The rows `_deletable_raw_sample_ids` selects. -/
def deletable (db : Db) (cutoff : Time) (x : PeerTrafficSample) : Bool :=
  accounted db x && x.sampledAt < cutoff

/-- The tables with other samples. -/
def Db.resampled (db : Db) (samples : List PeerTrafficSample) : Db :=
  { db with traffic := { db.traffic with samples } }

/-- `cleanup_raw_traffic_samples`; an overflow of the cutoff fails the request. -/
def Db.cleanupRawTrafficSamples (db : Db) (retentionDays : Nat) (now : Time) :
    Option (RawSampleRetentionResult × Db) :=
  if retentionDays = 0 then some ({ retentionDays, deleted := 0, disabled := true }, db)
  else (daysBefore? now retentionDays).map fun cutoff =>
    ({ retentionDays, deleted := (db.traffic.samples.filter (deletable db cutoff)).length,
       disabled := false, cutoff := some cutoff },
      db.resampled (db.traffic.samples.filter (! deletable db cutoff ·)))

/-! ## The system -/

/-- The panel with its retention setting (`LocalAmneziawgTrafficSettings`). -/
structure RetentionPanel where
  panel : Panel := {}
  retentionDays : Nat := 90

inductive RetentionEvent
  | request (call : Call)
  | saveSettings (days : Nat)
  | cleanup (now : Time)

def RetentionEvent.isCleanup : RetentionEvent → Bool
  | .cleanup _ => true
  | _ => false

/-- `PUT /local-traffic/settings`; the column is a 32-bit integer. -/
def RetentionPanel.save (s : RetentionPanel) (days : Nat) : RetentionPanel :=
  if days < 2147483648 then { s with retentionDays := days } else s

/-- The tables after `POST /traffic/cleanup-raw-samples`. -/
def afterCleanup (db : Db) (retentionDays : Nat) (now : Time) : Db :=
  match db.cleanupRawTrafficSamples retentionDays now with
  | none => db
  | some (_, db) => db

def retentionPanel (cfg : Config) : TSys RetentionPanel RetentionEvent where
  init := {}
  step s
    | .request call => ((panel cfg).step s.panel call).map fun panel => { s with panel }
    | .saveSettings days => some (s.save days)
    | .cleanup now =>
        if now < s.panel.clock then none
        else some { s with panel := ⟨afterCleanup s.panel.db s.retentionDays now, now⟩ }

/-- One device with two readings, on the days 0 and 2, and the setting to keep
two days. -/
def readOnTwoDays : List RetentionEvent := oneDevice.map .request ++ [
  .request ⟨4, .syncResult 0 { peers := [
    { publicKey := "public-2", status := some "active", rxBytes := some 10, txBytes := some 5 }] }⟩,
  .request ⟨5, .heartbeatResult 0 { peers := [
    { publicKey := "public-2", rxBytes := some 30, txBytes := some 9 }] }⟩,
  .request ⟨172800000000, .heartbeatResult 0 { peers := [
    { publicKey := "public-2", rxBytes := some 37, txBytes := some 9 }] }⟩,
  .saveSettings 2]

/-- A cleanup on day 3, and a third reading. -/
def sweptRun : List RetentionEvent := readOnTwoDays ++ [
  .cleanup 259200000000,
  .request ⟨259200000001, .heartbeatResult 0 { peers := [
    { publicKey := "public-2", rxBytes := some 40, txBytes := some 10 }] }⟩]

/-! ## The ledger and its samples -/

/-- The sample that repeats a ledger row. -/
def TrafficDelta.sample (delta : TrafficDelta) : PeerTrafficSample :=
  ⟨delta.peerId, delta.observedAt, delta.rxDeltaBytes, delta.txDeltaBytes⟩

/-- A recorded reading: the sample, its ledger row, and one increment of each
aggregate. -/
def Traffic.record (traffic : Traffic) (delta : TrafficDelta) : Traffic :=
  let rx := delta.rxDeltaBytes
  let tx := delta.txDeltaBytes
  let at_ := delta.observedAt
  { traffic with
    samples := traffic.samples ++ [delta.sample]
    deltas := traffic.deltas ++ [delta]
    userDaily := increaseAggregate traffic.userDaily (delta.userId, dayOf at_) rx tx (rx + tx) at_
    userNodeDaily := increaseAggregate traffic.userNodeDaily
      (delta.userId, delta.nodeId, dayOf at_) rx tx (rx + tx) at_
    userLifetime := increaseAggregate traffic.userLifetime delta.userId rx tx (rx + tx) at_
    userNodeLifetime := increaseAggregate traffic.userNodeLifetime (delta.userId, delta.nodeId)
      rx tx (rx + tx) at_ }

/-- A result leaves the traffic as it was, its sessions apart, or records one
reading of the peer. -/
theorem trafficAfterResult_cases (db : Db) (row : Peer) (data : PeerSyncResult) (now : Time) :
    ∃ sessions nextSessionId,
      trafficAfterResult db row data now = { db.traffic with sessions, nextSessionId } ∨
        ∃ delta : TrafficDelta, delta.peerId = row.id ∧ delta.userId = row.userId ∧
          delta.nodeId = row.nodeId ∧
          (∀ c, delta.bytes c = increment delta.rxDeltaBytes delta.txDeltaBytes c) ∧
          trafficAfterResult db row data now =
            Traffic.record { db.traffic with sessions, nextSessionId } delta := by
  obtain ⟨sessions, nextSessionId, hsession⟩ := applyPeerEndpointSession_eq db.traffic row data now
  refine ⟨sessions, nextSessionId, ?_⟩
  unfold trafficAfterResult
  rw [hsession]
  cases data.rxBytes with
  | none => exact .inl rfl
  | some rx =>
      cases data.txBytes with
      | none => exact .inl rfl
      | some tx =>
          dsimp only
          unfold recordReading
          dsimp only
          split
          · exact .inl rfl
          · refine .inr ⟨trafficDelta row rx tx now, rfl, rfl, rfl, fun c => ?_, rfl⟩
            cases c <;> rfl

/-- A row with this identity. -/
def HasRow {κ : Type} (rows : List (TrafficAggregate κ)) (k : κ) : Prop :=
  ∃ row ∈ rows, row.identity = k

section HasRow

variable {κ : Type} {rows : List (TrafficAggregate κ)} {k : κ}

theorem HasRow.filter (h : HasRow rows k) {p : TrafficAggregate κ → Bool}
    (hp : ∀ row ∈ rows, row.identity = k → p row = true) : HasRow (rows.filter p) k := by
  obtain ⟨row, hrow, hk⟩ := h
  exact ⟨row, List.mem_filter.mpr ⟨hrow, hp row hrow hk⟩, hk⟩

variable [DecidableEq κ]

/-- The identities of a table after an increment: the old ones and its own. -/
theorem hasRow_increase {i : κ} {rx tx total : Nat} {at_ : Time} :
    HasRow (increaseAggregate rows i rx tx total at_) k ↔ HasRow rows k ∨ k = i := by
  have hkeys : ∀ l : List (TrafficAggregate κ),
      HasRow l k ↔ k ∈ l.map TrafficAggregate.identity :=
    fun l => List.mem_map.symm
  rw [hkeys, hkeys]
  unfold increaseAggregate
  cases hi : Rows.get? TrafficAggregate.identity rows i with
  | none => simp
  | some old =>
      rw [Rows.map_key_save]
      refine ⟨.inl, fun h => h.elim id ?_⟩
      rintro rfl
      exact List.mem_map.mpr ⟨old, Rows.mem_of_get? hi, Rows.key_of_get? hi⟩

end HasRow

/-- Every aggregate has a row for the ledger row. -/
structure Aggregated (traffic : Traffic) (delta : TrafficDelta) : Prop where
  userDaily : HasRow traffic.userDaily (delta.userId, dayOf delta.observedAt)
  userNodeDaily : HasRow traffic.userNodeDaily
    (delta.userId, delta.nodeId, dayOf delta.observedAt)
  userLifetime : HasRow traffic.userLifetime delta.userId
  userNodeLifetime : HasRow traffic.userNodeLifetime (delta.userId, delta.nodeId)

theorem resetAt?_reset {db : Db} {user : User} (hu : ∃ old ∈ db.users, old.id = user.id)
    (at_ : Time) (u : UserId) : (resetLocalTrafficUsage db user at_).2.resetAt? u =
      if u = user.id then some at_ else db.resetAt? u := by
  let stamped : User := { user with trafficResetAt := some at_ }
  show (Rows.get? User.id (Rows.save User.id stamped db.users) u).bind _ = _
  split
  · next heq =>
      subst heq
      obtain ⟨row, hrow⟩ := Option.isSome_iff_exists.mp (Rows.isSome_get?.mpr hu)
      have hkey : Rows.get? User.id db.users stamped.id = some row := hrow
      have hself : Rows.get? User.id (Rows.save User.id stamped db.users) user.id = some stamped :=
        Rows.get?_save_self hkey
      rw [hself]
      rfl
  · next hne =>
      have hkey : stamped.id ≠ u := Ne.symm hne
      rw [Rows.get?_save_of_ne hkey]
      rfl

theorem resetAt?_deleteUser (db : Db) {id u : UserId} (h : u ≠ id) :
    (db.deleteUser id).resetAt? u = db.resetAt? u := by
  have hsame : (db.deleteUser id).user? u = db.user? u :=
    Rows.get?_filter fun row _ hk => by simpa [hk] using h
  unfold Db.resetAt?
  rw [hsame]

/-- The rows from a later start on are among those from an earlier one. -/
theorem filter_since {since since' : Time} (hle : since ≤ since') (l : List PeerTrafficSample) :
    l.filter (since' ≤ ·.sampledAt) =
      (l.filter (since ≤ ·.sampledAt)).filter (since' ≤ ·.sampledAt) := by
  rw [List.filter_filter]
  refine List.filter_congr fun x _ => ?_
  by_cases hx : since' ≤ x.sampledAt
  · simp [hx, le_trans hle hx]
  · simp [hx]

/-- The samples repeat ledger rows in their order, all of them from `since` on;
the rows of an account that was never reset are in every aggregate. -/
structure Ledgered (since : Time) (db : Db) : Prop where
  owner : ∀ d ∈ db.traffic.deltas, ∃ p ∈ db.peers,
    p.id = d.peerId ∧ p.userId = d.userId ∧ p.nodeId = d.nodeId
  samples : db.traffic.samples.Sublist (db.traffic.deltas.map TrafficDelta.sample)
  recent : db.traffic.samples.filter (since ≤ ·.sampledAt) =
    (db.traffic.deltas.map TrafficDelta.sample).filter (since ≤ ·.sampledAt)
  aggregated : ∀ d ∈ db.traffic.deltas, db.resetAt? d.userId = none → Aggregated db.traffic d

namespace Ledgered

variable {since : Time} {db db' : Db}

theorem empty (since : Time) : Ledgered since {} := ⟨nofun, .slnil, rfl, nofun⟩

/-- A write that leaves the traffic alone, keeps the peers and unstamps no
account. -/
theorem frame (h : Ledgered since db) (htraffic : db'.traffic = db.traffic)
    (hreset : ∀ u, db'.resetAt? u = none → db.resetAt? u = none)
    (hpeers : ∀ p ∈ db.peers, ∃ p' ∈ db'.peers, p.Same p') : Ledgered since db' where
  owner d hd := by
    rw [htraffic] at hd
    obtain ⟨p, hp, hid, huser, hnode⟩ := h.owner d hd
    obtain ⟨p', hp', hsame⟩ := hpeers p hp
    exact ⟨p', hp', hsame.id.trans hid, hsame.userId.trans huser, hsame.nodeId.trans hnode⟩
  samples := by
    rw [htraffic]
    exact h.samples
  recent := by
    rw [htraffic]
    exact h.recent
  aggregated d hd hnone := by
    rw [htraffic] at hd ⊢
    exact h.aggregated d hd (hreset d.userId hnone)

/-- A recorded reading of a stored peer. -/
theorem record (h : Ledgered since db) {row : Peer} (hrow : row ∈ db.peers)
    {delta : TrafficDelta} (hpeer : delta.peerId = row.id) (huser : delta.userId = row.userId)
    (hnode : delta.nodeId = row.nodeId) :
    Ledgered since { db with traffic := db.traffic.record delta } where
  owner d hd := by
    rcases List.mem_append.mp hd with hd | hd
    · exact h.owner d hd
    · rw [List.mem_singleton.mp hd]
      exact ⟨row, hrow, hpeer.symm, huser.symm, hnode.symm⟩
  samples := by
    show List.Sublist (_ ++ [_]) (List.map _ (_ ++ [_]))
    rw [List.map_append]
    exact h.samples.append (List.Sublist.refl _)
  recent := by
    show List.filter _ (_ ++ [_]) = List.filter _ (List.map _ (_ ++ [_]))
    rw [List.map_append, List.filter_append, List.filter_append, h.recent]
    rfl
  aggregated d hd hnone := by
    rcases List.mem_append.mp hd with hd | hd
    · have hrows := h.aggregated d hd hnone
      exact ⟨hasRow_increase.mpr (.inl hrows.userDaily),
        hasRow_increase.mpr (.inl hrows.userNodeDaily),
        hasRow_increase.mpr (.inl hrows.userLifetime),
        hasRow_increase.mpr (.inl hrows.userNodeLifetime)⟩
    · rw [List.mem_singleton.mp hd]
      exact ⟨hasRow_increase.mpr (.inr rfl), hasRow_increase.mpr (.inr rfl),
        hasRow_increase.mpr (.inr rfl), hasRow_increase.mpr (.inr rfl)⟩

theorem reading (hwf : db.WF) (h : Ledgered since db) {row : Peer} (hrow : row ∈ db.peers)
    (data : PeerSyncResult) (now : Time) :
    Ledgered since (applyPeerResult db row data now).2 := by
  obtain ⟨sessions, nextSessionId, hcases⟩ := trafficAfterResult_cases db row data now
  have hseen : Ledgered since
      { db with traffic := { db.traffic with sessions, nextSessionId } } :=
    ⟨h.owner, h.samples, h.recent, fun d hd hnone =>
      let hrows := h.aggregated d hd hnone
      ⟨hrows.userDaily, hrows.userNodeDaily, hrows.userLifetime, hrows.userNodeLifetime⟩⟩
  have hrecorded : Ledgered since { db with traffic := trafficAfterResult db row data now } := by
    rcases hcases with heq | ⟨delta, hpeer, huser, hnode, -, heq⟩
    · rw [heq]
      exact hseen
    · rw [heq]
      exact hseen.record hrow hpeer huser hnode
  rw [applyPeerResult_db]
  refine hrecorded.frame rfl (fun _ => id) fun p hp => ?_
  by_cases hid : p.id = row.id
  · obtain rfl := hwf.peer_eq hp hrow hid
    exact ⟨_, Rows.mem_save.mpr (.inl ⟨rfl, p, hp, (peerAfterResult_id db p data).symm⟩),
      peerAfterResult_same db p data⟩
  · exact ⟨p, Rows.mem_save.mpr (.inr ⟨hp, by rwa [peerAfterResult_id]⟩), .refl p⟩

/-- Peers are removed with the traffic of theirs. -/
theorem remove (hwf : db.WF) (h : Ledgered since db) {gone : Peer → Bool} {user : UserId → Bool}
    {node : NodeId → Bool} (hgone : ∀ p, gone p = (user p.userId || node p.nodeId))
    (hpeers : db'.peers = db.peers.filter (! gone ·))
    (htraffic : db'.traffic = Db.dropTraffic db.traffic
      (fun id => (db.peers.filter gone).any (·.id = id)) user node)
    (hreset : ∀ u, user u = false → db'.resetAt? u = none → db.resetAt? u = none) :
    Ledgered since db' := by
  let drops : PeerId → Bool := fun id => (db.peers.filter gone).any (·.id = id)
  -- a ledger row goes with its peer
  have hdrops : ∀ d ∈ db.traffic.deltas, drops d.peerId = (user d.userId || node d.nodeId) := by
    intro d hd
    obtain ⟨p, hp, hid, huser, hnode⟩ := h.owner d hd
    rw [← huser, ← hnode, ← hgone p, Bool.eq_iff_iff]
    show (db.peers.filter gone).any _ = true ↔ _
    rw [List.any_eq_true]
    constructor
    · rintro ⟨q, hq, heq⟩
      obtain ⟨hq, hgoneq⟩ := List.mem_filter.mp hq
      rwa [← hwf.peer_eq hq hp ((of_decide_eq_true heq).trans hid.symm)]
    · intro hp'
      exact ⟨p, List.mem_filter.mpr ⟨hp, hp'⟩, decide_eq_true hid⟩
  have hdeltas : db'.traffic.deltas = db.traffic.deltas.filter fun d => !drops d.peerId := by
    rw [htraffic]
    refine List.filter_congr fun d hd => ?_
    show (!(drops d.peerId || user d.userId || node d.nodeId)) = _
    rw [Bool.or_assoc, ← hdrops d hd, Bool.or_self]
  have hsamples : db'.traffic.samples = db.traffic.samples.filter fun x => !drops x.peerId := by
    rw [htraffic]
    rfl
  have hrepeat : db'.traffic.deltas.map TrafficDelta.sample =
      (db.traffic.deltas.map TrafficDelta.sample).filter fun x => !drops x.peerId := by
    rw [hdeltas, List.filter_map]
    rfl
  have hkept : ∀ d ∈ db'.traffic.deltas,
      d ∈ db.traffic.deltas ∧ user d.userId = false ∧ node d.nodeId = false := by
    intro d hd
    rw [hdeltas] at hd
    obtain ⟨hd, hstays⟩ := List.mem_filter.mp hd
    rw [hdrops d hd] at hstays
    exact ⟨hd, by simpa using hstays⟩
  refine ⟨fun d hd => ?_, ?_, ?_, fun d hd hnone => ?_⟩
  · obtain ⟨hd, hu, hn⟩ := hkept d hd
    obtain ⟨p, hp, hid, huser, hnode⟩ := h.owner d hd
    refine ⟨p, ?_, hid, huser, hnode⟩
    rw [hpeers]
    exact List.mem_filter.mpr ⟨hp, by simp [hgone, huser, hnode, hu, hn]⟩
  · rw [hsamples, hrepeat]
    exact h.samples.filter _
  · rw [hsamples, hrepeat, List.filter_comm, h.recent, List.filter_comm]
  · obtain ⟨hd, hu, hn⟩ := hkept d hd
    have hrows := h.aggregated d hd (hreset d.userId hu hnone)
    rw [htraffic]
    exact ⟨hrows.userDaily.filter fun row _ hk => by simp [hk, hu],
      hrows.userNodeDaily.filter fun row _ hk => by simp [hk, hu, hn],
      hrows.userLifetime.filter fun row _ hk => by simp [hk, hu],
      hrows.userNodeLifetime.filter fun row _ hk => by simp [hk, hu, hn]⟩

/-- The account that is reset is no longer one that never was. -/
theorem reset (h : Ledgered since db) {user : User} (hu : ∃ old ∈ db.users, old.id = user.id)
    (at_ : Time) : Ledgered since (resetLocalTrafficUsage db user at_).2 where
  owner := h.owner
  samples := h.samples
  recent := h.recent
  aggregated d hd hnone := by
    rw [resetAt?_reset hu] at hnone
    split at hnone
    · cases hnone
    next hne =>
    have hrows := h.aggregated d hd hnone
    exact ⟨hrows.userDaily.filter fun row _ hk => by simp [hk, hne],
      hrows.userNodeDaily.filter fun row _ hk => by simp [hk, hne],
      hrows.userLifetime.filter fun row _ hk => by simp [hk, hne],
      hrows.userNodeLifetime.filter fun row _ hk => by simp [hk, hne]⟩

theorem deleteUser (hwf : db.WF) (h : Ledgered since db) (id : UserId) :
    Ledgered since (db.deleteUser id) := by
  have htraffic : (db.deleteUser id).traffic = Db.dropTraffic db.traffic
      (fun p => (db.peers.filter fun q => q.userId = id).any (·.id = p)) (· = id)
      fun _ => false := rfl
  refine h.remove hwf (fun p => (Bool.or_false _).symm) ?_ htraffic ?_
  · exact List.filter_congr fun p _ => decide_not
  · intro u hu hnone
    rwa [resetAt?_deleteUser db (by simpa using hu)] at hnone

theorem deleteNode (hwf : db.WF) (h : Ledgered since db) (id : NodeId) :
    Ledgered since (db.deleteNode id) := by
  have htraffic : (db.deleteNode id).traffic = Db.dropTraffic db.traffic
      (fun p => (db.peers.filter fun q => q.nodeId = id).any (·.id = p)) (fun _ => false)
      (· = id) := rfl
  have hgone : ∀ p : Peer, decide (p.nodeId = id) = (false || decide (p.nodeId = id)) :=
    fun p => (Bool.false_or _).symm
  refine h.remove hwf hgone ?_ htraffic fun _ _ hnone => hnone
  exact List.filter_congr fun p _ => decide_not

/-- **Step.** -/
theorem apply (hwf : db.WF) (h : Ledgered since db) {w : Write} (hok : w.Ok db) :
    Ledgered since (w.apply db) := by
  have hstay : ∀ p ∈ db.peers, ∃ p' ∈ db.peers, p.Same p' := fun p hp => ⟨p, hp, .refl p⟩
  cases w with
  | user row => exact h.frame rfl (fun u hnone => (resetAt?_save hwf hok u).symm.trans hnone) hstay
  | newUser row =>
      exact h.frame rfl (fun u hnone => (resetAt?_append hwf hok u rfl).symm.trans hnone) hstay
  | newImport row imported =>
      exact h.frame rfl (fun u hnone => (resetAt?_append hwf hok.1 u rfl).symm.trans hnone) hstay
  | tombstone row =>
      refine h.frame rfl (fun _ => id) fun p hp => ⟨_, List.mem_map_of_mem hp, ?_⟩
      unfold deletedDevicePeer
      split
      · exact ⟨rfl, rfl, rfl, rfl, rfl⟩
      · exact .refl p
  | peers f =>
      exact h.frame rfl (fun _ => id) fun p hp => ⟨f p, List.mem_map_of_mem hp, hok.same p hp⟩
  | newPeer row =>
      exact h.frame rfl (fun _ => id) fun p hp => ⟨p, List.mem_append_left _ hp, .refl p⟩
  | reading row data at_ => exact h.reading hwf hok data at_
  | resetTraffic row at_ => exact h.reset hok at_
  | deleteUser id => exact h.deleteUser hwf id
  | deleteNode id => exact h.deleteNode hwf id
  | _ => exact h.frame rfl (fun _ => id) hstay

theorem writes {P : Db → Write → Prop} (hwf : db.WF) (h : Ledgered since db)
    (hw : Writes P db db') : Ledgered since db' := by
  have hboth : db'.WF ∧ Ledgered since db' :=
    hw.keeps (I := fun db => db.WF ∧ Ledgered since db)
      (fun _ w _ hok hI => ⟨Write.apply_wf hI.1 w hok, hI.2.apply hI.1 hok⟩) ⟨hwf, h⟩
  exact hboth.2

/-- A later start asks for less. -/
theorem later (h : Ledgered since db) {since' : Time} (hle : since ≤ since') :
    Ledgered since' db := by
  refine ⟨h.owner, h.samples, ?_, h.aggregated⟩
  rw [filter_since hle, h.recent, ← filter_since hle]

/-- Old samples are dropped. -/
theorem resampled (h : Ledgered since db) {p : PeerTrafficSample → Bool}
    (hp : ∀ x, since ≤ x.sampledAt → p x = true) :
    Ledgered since (db.resampled (db.traffic.samples.filter p)) := by
  refine ⟨h.owner, List.filter_sublist.trans h.samples, ?_, fun d hd hnone => ?_⟩
  · refine Eq.trans ?_ h.recent
    show List.filter _ (List.filter p _) = _
    rw [List.filter_filter]
    refine List.filter_congr fun x _ => ?_
    by_cases hx : since ≤ x.sampledAt
    · simp [hx, hp x hx]
    · simp [hx]
  · have hrows := h.aggregated d hd hnone
    exact ⟨hrows.userDaily, hrows.userNodeDaily, hrows.userLifetime, hrows.userNodeLifetime⟩

end Ledgered

/-! ## Runs -/

/-- No cleanup keeps fewer days than `days`. -/
def KeepsDays (days : Nat) (s : RetentionPanel) : RetentionEvent → Prop
  | .cleanup _ => s.retentionDays = 0 ∨ days ≤ s.retentionDays
  | _ => True

instance (days : Nat) (s : RetentionPanel) : DecidablePred (KeepsDays days s)
  | .cleanup _ => inferInstanceAs (Decidable (_ ∨ _))
  | .request _ => isTrue trivial
  | .saveSettings _ => isTrue trivial

/-- The instant `days` days before the clock of the panel. -/
def RetentionPanel.back (s : RetentionPanel) (days : Nat) : Time :=
  s.panel.clock - days * 86400000000

theorem back_le {s : RetentionPanel} {keep : Nat} {days : Int} {now since : Time}
    (hclock : s.panel.clock ≤ now) (hdays : days ≤ keep) (h : daysBefore? now days = some since) :
    s.back keep ≤ since := by
  rw [daysBefore?_eq_some h]
  exact Int.sub_le_sub hclock (Int.mul_le_mul_of_nonneg_right hdays (by decide))

/-- What the setting keeps of the samples: all of them when the cleanup is off
or its cutoff overflows, else those from the cutoff on. -/
def keptBy (retentionDays : Nat) (now : Time) (x : PeerTrafficSample) : Bool :=
  retentionDays = 0 || (daysBefore? now retentionDays).all (· ≤ x.sampledAt)

theorem afterCleanup_eq (db : Db) (retentionDays : Nat) (now : Time) :
    afterCleanup db retentionDays now = db.resampled (db.traffic.samples.filter fun x =>
      keptBy retentionDays now x || !accounted db x) := by
  have hall : ∀ p : PeerTrafficSample → Bool, (∀ x, p x = true) →
      db = db.resampled (db.traffic.samples.filter p) := by
    intro p hp
    rw [List.filter_eq_self.mpr fun x _ => hp x]
    rfl
  unfold afterCleanup Db.cleanupRawTrafficSamples keptBy
  by_cases hdays : retentionDays = 0
  · rw [if_pos hdays]
    exact hall _ fun x => by simp [hdays]
  · rw [if_neg hdays]
    cases daysBefore? now retentionDays with
    | none => exact hall _ fun x => by simp
    | some cutoff =>
        refine congrArg db.resampled (List.filter_congr fun x _ => ?_)
        unfold deletable
        by_cases hold : x.sampledAt < cutoff
        · simp [hold, hdays]
        · simp [hold, not_lt.mp hold]

/-- The samples of the days kept are kept. -/
theorem keptBy_of_recent {days retentionDays : Nat} {now : Time} {x : PeerTrafficSample}
    (hkeeps : retentionDays = 0 ∨ days ≤ retentionDays)
    (hx : now - days * 86400000000 ≤ x.sampledAt) : keptBy retentionDays now x = true := by
  unfold keptBy
  rcases hkeeps with rfl | hdays
  · rfl
  · rw [Bool.or_eq_true]
    refine .inr ((Option.all_eq_true _ _).mpr fun cutoff hcutoff => decide_eq_true ?_)
    have hle : now - (retentionDays : Int) * 86400000000 ≤ now - (days : Int) * 86400000000 :=
      Int.sub_le_sub_left (Int.mul_le_mul_of_nonneg_right (Int.ofNat_le.mpr hdays) (by decide)) _
    rw [daysBefore?_eq_some hcutoff]
    exact hle.trans hx

variable {cfg : Config}

theorem retentionPanel_step {s s' : RetentionPanel} {e : RetentionEvent}
    (h : (retentionPanel cfg).step s e = some s') :
    (∃ call, e = .request call ∧ (panel cfg).step s.panel call = some s'.panel ∧
        s'.retentionDays = s.retentionDays) ∨
      (∃ days, e = .saveSettings days ∧ s'.panel = s.panel) ∨
      ∃ now, e = .cleanup now ∧ s.panel.clock ≤ now ∧ s'.retentionDays = s.retentionDays ∧
        s'.panel = ⟨afterCleanup s.panel.db s.retentionDays now, now⟩ := by
  cases e with
  | request call =>
      obtain ⟨panel, hstep, rfl⟩ := Option.map_eq_some_iff.mp h
      exact .inl ⟨call, rfl, hstep, rfl⟩
  | saveSettings days =>
      cases h
      refine .inr (.inl ⟨days, rfl, ?_⟩)
      unfold RetentionPanel.save
      split <;> rfl
  | cleanup now =>
      simp only [retentionPanel] at h
      split at h
      · cases h
      · next hclock =>
          cases h
          exact .inr (.inr ⟨now, rfl, not_lt.mp hclock, rfl, rfl⟩)

theorem wf_afterCleanup {db : Db} (h : db.WF) (retentionDays : Nat) (now : Time) :
    (afterCleanup db retentionDays now).WF := by
  rw [afterCleanup_eq]
  exact { h with }

theorem ledgered_step {days : Nat} {s s' : RetentionPanel} {e : RetentionEvent}
    (hwf : s.panel.db.WF) (h : Ledgered (s.back days) s.panel.db) (hkeeps : KeepsDays days s e)
    (hstep : (retentionPanel cfg).step s e = some s') :
    s'.panel.db.WF ∧ Ledgered (s'.back days) s'.panel.db := by
  have hback : s.panel.clock ≤ s'.panel.clock → s.back days ≤ s'.back days :=
    fun hle => Int.sub_le_sub_right hle _
  rcases retentionPanel_step hstep with
    ⟨call, -, hcall, -⟩ | ⟨_, -, hpanel⟩ | ⟨now, rfl, hclock, -, hpanel⟩
  · have hphases := (panel_step_phases hwf hcall).writes
    refine ⟨hphases.wf hwf, (h.writes hwf hphases).later (hback ?_)⟩
    obtain ⟨hle, heq⟩ := panel_step hcall
    rw [heq]
    exact hle
  · unfold RetentionPanel.back at h ⊢
    rw [hpanel]
    exact ⟨hwf, h⟩
  · have hlater : Ledgered (s'.back days) s.panel.db :=
      h.later (hback (by rw [hpanel]; exact hclock))
    rw [hpanel]
    refine ⟨wf_afterCleanup hwf _ now, ?_⟩
    dsimp only
    rw [afterCleanup_eq]
    refine hlater.resampled fun x hx => ?_
    unfold RetentionPanel.back at hx
    rw [hpanel] at hx
    rw [keptBy_of_recent hkeeps hx, Bool.true_or]

theorem retentionPanel_ledgered {days : Nat} {s : RetentionPanel}
    (h : (retentionPanel cfg).Reaches (KeepsDays days) s) :
    s.panel.db.WF ∧ Ledgered (s.back days) s.panel.db :=
  h.invariant (P := fun s => s.panel.db.WF ∧ Ledgered (s.back days) s.panel.db)
    ⟨Db.WF.empty, .empty _⟩ fun _ _ _ hs hok hstep => ledgered_step hs.1 hs.2 hok hstep

end VpnPanel.Backend
