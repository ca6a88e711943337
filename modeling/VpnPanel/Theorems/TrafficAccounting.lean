import VpnPanel.Backend.Metering

/-!
# What the backend accounts for a peer

Two systems around the panel watch one peer `p`. In the first its counters on
the node only grow, and heartbeat and sync jobs hand their readings in at any
later time. In the second the readings come in order, and the counters restart
when the node's removal of the peer is confirmed.
-/

namespace VpnPanel.Theorems

open VpnPanel.Lib VpnPanel.Backend

/-! ## Readings handed in at any time -/

/-- The panel, the counters of the peer on its node, the readings that jobs
took and did not hand in yet, and those handed in, oldest first. -/
structure Telemetry where
  panel : Panel := {}
  counters : Reading := ⟨0, 0⟩
  flying : List Reading := []
  delivered : List Reading := []

inductive TelemetryEvent
  | traffic (rx tx : Nat)
  | take
  | request (call : Call)

/-- Readings leave the ones in flight as they are handed in. -/
def handIn : List Reading → List Reading → Option (List Reading)
  | [], flying => some flying
  | r :: rest, flying => if r ∈ flying then handIn rest (flying.erase r) else none

/-- Any request may come at any time; its readings of the peer were taken
before. -/
def telemetry (cfg : Config) (p : PeerId) : TSys Telemetry TelemetryEvent where
  init := {}
  step s
    | .traffic rx tx => some { s with counters := ⟨s.counters.rx + rx, s.counters.tx + tx⟩ }
    | .take => some { s with flying := s.flying ++ [s.counters] }
    | .request call =>
        (handIn (readingsFor p s.panel.db call.request) s.flying).bind fun flying =>
          ((panel cfg).step s.panel call).map fun panel =>
            { s with
              panel, flying
              delivered := s.delivered ++ readingsFor p s.panel.db call.request }

theorem telemetry_ledger {cfg : Config} {p : PeerId} {s : Telemetry}
    (h : (telemetry cfg p).Reachable s) : s.panel.db.WF ∧ Ledger p s.delivered s.panel.db := by
  refine TSys.Reaches.invariant
    (P := fun s => s.panel.db.WF ∧ Ledger p s.delivered s.panel.db)
    ⟨Db.WF.empty, Ledger.empty p⟩ ?_ h
  rintro s ev s' ⟨hwf, hledger⟩ - hstep
  cases ev with
  | traffic rx tx =>
      cases hstep
      exact ⟨hwf, hledger⟩
  | take =>
      cases hstep
      exact ⟨hwf, hledger⟩
  | request call =>
      obtain ⟨flying, -, hrest⟩ := Option.bind_eq_some_iff.mp hstep
      obtain ⟨next, hnext, rfl⟩ := Option.map_eq_some_iff.mp hrest
      exact ⟨(panel_step_phases hwf hnext).writes.wf hwf, hledger.step hwf hnext⟩

/-- The highest reading above the first one. -/
def growth (readings : List Nat) : Nat := Counter.highest readings - readings.head?.getD 0

theorem metered_le_growth_iff (readings : List Nat) :
    Counter.metered none readings ≤ growth readings ↔ Counter.lateAreZero readings = true := by
  cases readings with
  | nil => simp [Counter.metered, Counter.lateAreZero]
  | cons r rest =>
      rw [← Counter.metered_le_iff rest r, Counter.metered, Counter.delta, Nat.zero_add]
      rfl

/-- **Late readings are counted twice.** In every state of the system, what the
backend accounts for a peer is within the growth its readings show if and only
if, for both counters, no reading was handed in after a higher one, zeros at
the end apart. -/
theorem accounted_le_growth_iff (cfg : Config) (p : PeerId) (s : Telemetry)
    (hs : (telemetry cfg p).Reachable s) (peer : Peer) (hpeer : peer ∈ s.panel.db.peers)
    (hid : peer.id = p) :
    (rxAccounted p s.panel.db ≤ growth (s.delivered.map (·.rx)) ∧
        txAccounted p s.panel.db ≤ growth (s.delivered.map (·.tx))) ↔
      Counter.lateAreZero (s.delivered.map (·.rx)) = true ∧
        Counter.lateAreZero (s.delivered.map (·.tx)) = true := by
  subst hid
  have hm := (telemetry_ledger hs).2.row peer hpeer rfl
  rw [hm.rx, hm.tx, metered_le_growth_iff, metered_le_growth_iff]

/-- The node's answer to a heartbeat, with the counters of the peer. -/
def heartbeat (rx tx : Nat) : Request :=
  .heartbeatResult 0 { peers := [
    { publicKey := "public-2", status := some "active", rxBytes := some rx, txBytes := some tx }] }

/-- The node's answer to a sync, with the counters of the peer. -/
def synced (rx tx : Nat) : Request :=
  .syncResult 0 { peers := [
    { publicKey := "public-2", status := some "active", rxBytes := some rx, txBytes := some tx }] }

/-- The counters are read at 10, 20 and 30. -/
def threeReadings : List TelemetryEvent :=
  oneDevice.map .request ++ [
    .traffic 10 0, .take, .traffic 10 0, .take, .traffic 10 0, .take, .request ⟨3, heartbeat 10 0⟩]

/-- Handed in as they were taken, the readings account for the growth. -/
theorem accounted_in_order :
    ∃ s, (telemetry exampleConfig 3).replay
        (threeReadings ++ [.request ⟨4, synced 20 0⟩, .request ⟨5, heartbeat 30 0⟩]) = some s ∧
      rxAccounted 3 s.panel.db ≤ growth (s.delivered.map (·.rx)) ∧
      growth (s.delivered.map (·.rx)) = 20 := by
  have hrun : ((telemetry exampleConfig 3).replay
      (threeReadings ++ [.request ⟨4, synced 20 0⟩, .request ⟨5, heartbeat 30 0⟩])).any (fun s =>
        s.panel.db.peers.any (·.id = 3) &&
          Counter.lateAreZero (s.delivered.map (·.rx)) &&
          Counter.lateAreZero (s.delivered.map (·.tx)) &&
          growth (s.delivered.map (·.rx)) = 20) = true := by decide +kernel
  obtain ⟨s, hs, hall⟩ := TSys.replay_any hrun
  simp only [Bool.and_eq_true, List.any_eq_true, decide_eq_true_eq] at hall
  obtain ⟨⟨⟨⟨peer, hpeer, hid⟩, hrx⟩, htx⟩, hgrowth⟩ := hall
  exact ⟨s, hs, ((accounted_le_growth_iff exampleConfig 3 s (TSys.replay_reachable hs) peer hpeer
    hid).mpr ⟨hrx, htx⟩).1, hgrowth⟩

/-- The reading of 20 comes after the one of 30: 40 bytes are accounted for
a growth of 20. -/
theorem late_reading_overcounted :
    ∃ s, (telemetry exampleConfig 3).replay
        (threeReadings ++ [.request ⟨4, heartbeat 30 0⟩, .request ⟨5, synced 20 0⟩]) = some s ∧
      (∃ peer ∈ s.panel.db.peers, peer.id = 3) ∧ s.delivered.map (·.rx) = [10, 30, 20] ∧
      rxAccounted 3 s.panel.db = 40 ∧ ¬rxAccounted 3 s.panel.db ≤ 30 - 10 := by
  have hrun : ((telemetry exampleConfig 3).replay
      (threeReadings ++ [.request ⟨4, heartbeat 30 0⟩, .request ⟨5, synced 20 0⟩])).any (fun s =>
        s.panel.db.peers.any (·.id = 3) && s.delivered.map (·.rx) = [10, 30, 20] &&
          rxAccounted 3 s.panel.db = 40) = true := by decide +kernel
  obtain ⟨s, hs, hall⟩ := TSys.replay_any hrun
  simp only [Bool.and_eq_true, List.any_eq_true, decide_eq_true_eq] at hall
  obtain ⟨⟨hpeer, hdelivered⟩, hforty⟩ := hall
  exact ⟨s, hs, hpeer, hdelivered, hforty, by rw [hforty]; decide⟩

/-! ## Counters that restart -/

/-- The panel, the counters of the peer on its node, the readings of earlier
installations, and those of the present one. -/
structure Installations where
  panel : Panel := {}
  counters : Reading := ⟨0, 0⟩
  earlier : List (List Reading) := []
  current : List Reading := []

inductive InstallationEvent
  | traffic (rx tx : Nat)
  | request (call : Call)

/-- The node confirmed that it removed the peer. -/
def removed (p : PeerId) (db : Db) : Bool := (db.peer? p).any (·.status = .deleted)

/-- A request after which the peer is removed ends its installation: the
counters are at zero when it is installed again. -/
def Installations.after (s : Installations) (p : PeerId) (next : Panel)
    (readings : List Reading) : Installations :=
  if removed p next.db ∧ ¬removed p s.panel.db then
    { panel := next, earlier := s.earlier ++ [s.current ++ readings] }
  else { s with panel := next, current := s.current ++ readings }

/-- A removed peer has no traffic and no readings; any other reading is of the
counters as they are. -/
def installations (cfg : Config) (p : PeerId) : TSys Installations InstallationEvent where
  init := {}
  step s
    | .traffic rx tx =>
        if removed p s.panel.db then none
        else some { s with counters := ⟨s.counters.rx + rx, s.counters.tx + tx⟩ }
    | .request call =>
        let readings := readingsFor p s.panel.db call.request
        if readings.all (fun r => r = s.counters && !removed p s.panel.db) then
          ((panel cfg).step s.panel call).map fun next => s.after p next readings
        else none

/-- Every installation with a reading, the present one last. -/
def Installations.all (s : Installations) : List (List Reading) := s.earlier ++ [s.current]

/-- The readings of each installation grow, up to its present counters. -/
structure Installations.Sorted (column : Reading → Nat) (s : Installations) : Prop where
  earlier : ∀ seg ∈ s.earlier, (seg.map column).Pairwise (· ≤ ·)
  current : (s.current.map column).Pairwise (· ≤ ·)
  below : ∀ r ∈ s.current, column r ≤ column s.counters

theorem Installations.Sorted.read {column : Reading → Nat} {s : Installations}
    (h : s.Sorted column) {readings : List Reading} (hnow : ∀ r ∈ readings, r = s.counters) :
    ((s.current ++ readings).map column).Pairwise (· ≤ ·) ∧
      ∀ r ∈ s.current ++ readings, column r ≤ column s.counters := by
  have hsame : ∀ x ∈ readings.map column, x = column s.counters := by
    intro x hx
    obtain ⟨r, hr, rfl⟩ := List.mem_map.mp hx
    rw [hnow r hr]
  refine ⟨?_, ?_⟩
  · rw [List.map_append, List.pairwise_append]
    refine ⟨h.current, ?_, ?_⟩
    · refine List.Pairwise.imp_of_mem (R := fun _ _ => True) ?_
        (List.pairwise_of_forall fun _ _ => trivial)
      intro a b ha hb _
      rw [hsame a ha, hsame b hb]
    · intro a ha b hb
      obtain ⟨r, hr, rfl⟩ := List.mem_map.mp ha
      rw [hsame b hb]
      exact h.below r hr
  · intro r hr
    rcases List.mem_append.mp hr with hr | hr
    · exact h.below r hr
    · rw [hnow r hr]

theorem Installations.Sorted.after {column : Reading → Nat} {s : Installations}
    (h : s.Sorted column) {p : PeerId} {next : Panel} {readings : List Reading}
    (hnow : ∀ r ∈ readings, r = s.counters) : (s.after p next readings).Sorted column := by
  obtain ⟨hsorted, hbelow⟩ := h.read hnow
  unfold Installations.after
  split
  · refine ⟨?_, List.Pairwise.nil, fun _ hr => absurd hr List.not_mem_nil⟩
    intro seg hseg
    rcases List.mem_append.mp hseg with hseg | hseg
    · exact h.earlier seg hseg
    · rw [List.mem_singleton.mp hseg]
      exact hsorted
  · exact ⟨h.earlier, hsorted, hbelow⟩

theorem Installations.all_after (s : Installations) (p : PeerId) (next : Panel)
    (readings : List Reading) :
    (s.after p next readings).all.flatten = s.all.flatten ++ readings := by
  unfold Installations.after Installations.all
  split <;> simp

/-- What holds in every state: the ledger follows the readings, and they grow
within an installation. -/
structure Installations.Inv (p : PeerId) (s : Installations) : Prop where
  wf : s.panel.db.WF
  ledger : Ledger p s.all.flatten s.panel.db
  rx : s.Sorted (·.rx)
  tx : s.Sorted (·.tx)

theorem installations_inv {cfg : Config} {p : PeerId} {s : Installations}
    (h : (installations cfg p).Reachable s) : s.Inv p := by
  refine TSys.Reaches.invariant (P := Installations.Inv p) ?_ ?_ h
  · have hsorted : ∀ column, Installations.Sorted column {} := fun _ =>
      ⟨fun _ hs => absurd hs List.not_mem_nil, List.Pairwise.nil,
        fun _ hr => absurd hr List.not_mem_nil⟩
    exact ⟨Db.WF.empty, Ledger.empty p, hsorted _, hsorted _⟩
  · rintro s ev s' ⟨hwf, hledger, hrx, htx⟩ - hstep
    cases ev with
    | traffic rx tx =>
        simp only [installations] at hstep
        split at hstep
        · cases hstep
        · cases hstep
          refine ⟨hwf, hledger, ⟨hrx.earlier, hrx.current, fun r hr => ?_⟩,
            ⟨htx.earlier, htx.current, fun r hr => ?_⟩⟩
          · exact (hrx.below r hr).trans (Nat.le_add_right _ _)
          · exact (htx.below r hr).trans (Nat.le_add_right _ _)
    | request call =>
        simp only [installations] at hstep
        split at hstep
        swap
        · cases hstep
        next hall =>
          obtain ⟨next, hnext, rfl⟩ := Option.map_eq_some_iff.mp hstep
          have hnow : ∀ r ∈ readingsFor p s.panel.db call.request, r = s.counters := by
            intro r hr
            have hboth := List.all_eq_true.mp hall r hr
            simp only [Bool.and_eq_true, decide_eq_true_eq] at hboth
            exact hboth.1
          have hpanel : (s.after p next (readingsFor p s.panel.db call.request)).panel = next := by
            unfold Installations.after
            split <;> rfl
          refine ⟨?_, ?_, hrx.after hnow, htx.after hnow⟩
          · rw [hpanel]
            exact (panel_step_phases hwf hnext).writes.wf hwf
          · rw [hpanel, Installations.all_after]
            exact hledger.step hwf hnext

/-- The readings of one counter, installation by installation. -/
def Installations.readings (column : Reading → Nat) (s : Installations) : List (List Nat) :=
  s.all.map fun seg => seg.map column

theorem Installations.Sorted.readings_sorted {column : Reading → Nat} {s : Installations}
    (h : s.Sorted column) : ∀ seg ∈ s.readings column, seg.Pairwise (· ≤ ·) := by
  intro seg hseg
  obtain ⟨readings, hmem, rfl⟩ := List.mem_map.mp hseg
  rcases List.mem_append.mp hmem with hmem | hmem
  · exact h.earlier readings hmem
  · rw [List.mem_singleton.mp hmem]
    exact h.current

theorem Installations.flatten_readings (column : Reading → Nat) (s : Installations) :
    (s.readings column).flatten = s.all.flatten.map column := by
  unfold Installations.readings
  rw [List.map_flatten]

/-- **Restarts are seen by the drop of the counter.** In every state of the
system, the backend accounts for what the peer transferred over all of its
installations if and only if, for both counters, the first reading of each
later installation is below the last one of the installation before it, or that
last one is zero. -/
theorem accounted_eq_transferred_iff (cfg : Config) (p : PeerId) (s : Installations)
    (hs : (installations cfg p).Reachable s) (peer : Peer) (hpeer : peer ∈ s.panel.db.peers)
    (hid : peer.id = p) :
    (rxAccounted p s.panel.db = Counter.transferred none (s.readings (·.rx)) ∧
        txAccounted p s.panel.db = Counter.transferred none (s.readings (·.tx))) ↔
      Counter.restartsSeen none (s.readings (·.rx)) = true ∧
        Counter.restartsSeen none (s.readings (·.tx)) = true := by
  subst hid
  obtain ⟨-, hledger, hrx, htx⟩ := installations_inv hs
  have hm := hledger.row peer hpeer rfl
  rw [hm.rx, hm.tx, ← Installations.flatten_readings, ← Installations.flatten_readings,
    (Counter.metered_eq_iff _ none hrx.readings_sorted).2,
    (Counter.metered_eq_iff _ none htx.readings_sorted).2]

/-- The peer is read at 100, blocked, removed, and unblocked. -/
def reinstalled : List InstallationEvent :=
  oneDevice.map .request ++ [
    .request ⟨3, synced 0 0⟩, .traffic 100 0, .request ⟨4, synced 100 0⟩,
    .request ⟨5, .blockUser 1⟩, .request ⟨6, .syncResult 0 {}⟩, .request ⟨7, .unblockUser 1⟩]

/-- Read at 40 next, all of the 140 bytes are accounted. -/
theorem accounted_after_restart :
    ∃ s, (installations exampleConfig 3).replay
        (reinstalled ++ [.traffic 40 0, .request ⟨8, synced 40 0⟩]) = some s ∧
      rxAccounted 3 s.panel.db = Counter.transferred none (s.readings (·.rx)) ∧
      s.readings (·.rx) = [[0, 100], [40]] := by
  have hrun : ((installations exampleConfig 3).replay
      (reinstalled ++ [.traffic 40 0, .request ⟨8, synced 40 0⟩])).any (fun s =>
        s.panel.db.peers.any (·.id = 3) && Counter.restartsSeen none (s.readings (·.rx)) &&
          Counter.restartsSeen none (s.readings (·.tx)) &&
          s.readings (·.rx) = [[0, 100], [40]]) = true := by decide +kernel
  obtain ⟨s, hs, hall⟩ := TSys.replay_any hrun
  simp only [Bool.and_eq_true, List.any_eq_true, decide_eq_true_eq] at hall
  obtain ⟨⟨⟨⟨peer, hpeer, hid⟩, hrx⟩, htx⟩, hreadings⟩ := hall
  exact ⟨s, hs, ((accounted_eq_transferred_iff exampleConfig 3 s (TSys.replay_reachable hs) peer
    hpeer hid).mpr ⟨hrx, htx⟩).1, hreadings⟩

/-- Read at 150 next, 150 of the 250 bytes are accounted. -/
theorem restart_undercounted :
    ∃ s, (installations exampleConfig 3).replay
        (reinstalled ++ [.traffic 150 0, .request ⟨8, synced 150 0⟩]) = some s ∧
      (∃ peer ∈ s.panel.db.peers, peer.id = 3) ∧ s.readings (·.rx) = [[0, 100], [150]] ∧
      rxAccounted 3 s.panel.db = 150 ∧
      rxAccounted 3 s.panel.db ≠ Counter.transferred none (s.readings (·.rx)) := by
  have hrun : ((installations exampleConfig 3).replay
      (reinstalled ++ [.traffic 150 0, .request ⟨8, synced 150 0⟩])).any (fun s =>
        s.panel.db.peers.any (·.id = 3) && s.readings (·.rx) = [[0, 100], [150]] &&
          rxAccounted 3 s.panel.db = 150) = true := by decide +kernel
  obtain ⟨s, hs, hall⟩ := TSys.replay_any hrun
  simp only [Bool.and_eq_true, List.any_eq_true, decide_eq_true_eq] at hall
  obtain ⟨⟨hpeer, hreadings⟩, htotal⟩ := hall
  refine ⟨s, hs, hpeer, hreadings, htotal, ?_⟩
  rw [htotal, hreadings]
  decide

end VpnPanel.Theorems
