import VpnPanel.Backend.History

/-!
# Tombstones and addresses over a run

Between any two states of a run, what became of a device row that is in both.
-/

namespace VpnPanel.Theorems

open VpnPanel.Lib VpnPanel.Backend

/-- Some request of the run released the address `d` holds, and ended with
every peer of the device confirmed `deleted`. -/
def ReleasedDuring (cfg : Config) (steps : List (Panel × Call)) (d : Device) : Prop :=
  ∃ step ∈ steps, ∃ after, (panel cfg).step step.1 step.2 = some after ∧
    (∃ d₁ ∈ step.1.db.devices, d₁.id = d.id ∧ d₁.vpnIp = d.vpnIp) ∧
    (∃ d₂ ∈ after.db.devices, d₂.id = d.id ∧ d₂.vpnIp = none ∧ d₂.releasedVpnIp = d.vpnIp) ∧
    ∀ p ∈ after.db.peers, p.deviceId = d.id → p.status = .deleted

/-- A row that is in the first and the last state of a run is in the second. -/
theorem device_mid {cfg : Config} {s s' t : Panel} {call : Call} {steps : List (Panel × Call)}
    (hwf : s.db.WF) (hstep : (panel cfg).step s call = some s')
    (hrest : (panel cfg).Trace s' steps t) {d d' : Device} (hd : d ∈ s.db.devices)
    (hd' : d' ∈ t.db.devices) (hid : d'.id = d.id) :
    ∃ d₁ ∈ s'.db.devices, DeviceHistory d d₁ ∧ DeviceHistory d₁ d' := by
  have hw := (panel_step_phases hwf hstep).writes
  have hwf' := hw.wf hwf
  rcases ((panel_trace_writes hrest hwf').history hwf').devices d' hd' with ⟨d₁, hd₁, h⟩ | hnew
  · exact ⟨d₁, hd₁, (hw.history hwf).device_of_id hwf hd hd₁ (h.id.symm.trans hid), h⟩
  · have hlt : d.id < s.db.nextId := hwf.deviceFresh d hd
    rw [hid] at hnew
    exact absurd (Nat.lt_of_lt_of_le hlt (hw.history hwf).nextId) (Nat.not_lt.mpr hnew)

/-- An address that moved during a run was released by one of its requests. -/
theorem releasedDuring_of_ne {cfg : Config} {s t : Panel} {steps : List (Panel × Call)}
    (hrun : (panel cfg).Trace s steps t) : s.db.WF → ∀ {d d' : Device}, d ∈ s.db.devices →
      d' ∈ t.db.devices → d'.id = d.id → d'.vpnIp ≠ d.vpnIp → ReleasedDuring cfg steps d := by
  induction hrun with
  | nil s =>
      intro hwf d d' hd hd' hid hne
      rw [hwf.device_eq hd' hd hid] at hne
      exact absurd rfl hne
  | @cons s s' t call rest hstep hrest ih =>
      intro hwf d d' hd hd' hid hne
      obtain ⟨d₁, hd₁, hone, hlater⟩ := device_mid hwf hstep hrest hd hd' hid
      by_cases hip : d₁.vpnIp = d.vpnIp
      · -- not yet: the release is one of the later requests
        have hwf' := (panel_step_phases hwf hstep).writes.wf hwf
        rw [← hip] at hne
        obtain ⟨step, hmem, after, hafter, ⟨e₁, he₁, hid₁, hip₁⟩, ⟨e₂, he₂, hid₂, hnone, hrel⟩,
            hall⟩ := ih hwf' hd₁ hd' hlater.id hne
        rw [hone.id] at hid₁ hid₂ hall
        rw [hip] at hip₁ hrel
        exact ⟨step, List.mem_cons_of_mem _ hmem, after, hafter, ⟨e₁, he₁, hid₁, hip₁⟩,
          ⟨e₂, he₂, hid₂, hnone, hrel⟩, hall⟩
      · refine ⟨(s, call), List.mem_cons_self, s', hstep, ⟨d, hd, rfl, rfl⟩, ?_,
          (panel_step_phases hwf hstep).release_confirmed hwf hd hd₁ hone.id hip⟩
        rcases hone.address with ⟨h, -⟩ | ⟨-, hnone, hrel, -⟩
        · exact absurd h hip
        · exact ⟨d₁, hd₁, hone.id, hnone, hrel⟩

/-- **Tombstones are durable.** For a device row of two states of a run: its
keys are the same; a tombstone is neither cleared nor moved, and the device has
no peer it did not have then; a device that is still live has its address; and
the address is untouched, or it was released during the run, into
`released_vpn_ip`, by a request that left every peer of the device confirmed
`deleted` (from then on there is no address to release again). -/
theorem tombstone_history_durable (cfg : Config) (s t : Panel) (steps : List (Panel × Call))
    (hs : (panel cfg).Reachable s) (hrun : (panel cfg).Trace s steps t) (d d' : Device)
    (hd : d ∈ s.db.devices) (hd' : d' ∈ t.db.devices) (hid : d'.id = d.id) :
    (d'.publicKey = d.publicKey ∧ d'.privateKey = d.privateKey) ∧
      (d.deletedAt.isSome → d'.deletedAt = d.deletedAt ∧
        ∀ p' ∈ t.db.peers, p'.deviceId = d.id → ∃ p ∈ s.db.peers, p.id = p'.id) ∧
      (d'.deletedAt = none → d'.vpnIp = d.vpnIp) ∧
      ((d'.vpnIp = d.vpnIp ∧ d'.releasedVpnIp = d.releasedVpnIp) ∨
        (d.vpnIp.isSome ∧ d'.vpnIp = none ∧ d'.releasedVpnIp = d.vpnIp ∧
          ReleasedDuring cfg steps d)) := by
  have hwf := panel_wf hs
  have hhist := (panel_trace_writes hrun hwf).history hwf
  have hdev := hhist.device_of_id hwf hd hd' hid
  refine ⟨⟨hdev.publicKey, hdev.privateKey⟩, ?_, ?_, ?_⟩
  · intro hdel
    refine ⟨hdev.tombstone hdel, ?_⟩
    intro p' hp' hpd
    rcases hhist.peers p' hp' with ⟨p, hp, hsame⟩ | hnew
    · exact ⟨p, hp, hsame.id.symm⟩
    · rw [hnew d hd hpd.symm] at hdel
      cases hdel
  · intro hlive
    rcases hdev.address with ⟨h, -⟩ | ⟨-, -, -, hdel⟩
    · exact h
    · rw [hlive] at hdel
      cases hdel
  · rcases hdev.address with h | ⟨hsome, hnone, hrel, -⟩
    · exact .inl h
    · refine .inr ⟨hsome, hnone, hrel, releasedDuring_of_ne hrun hwf hd hd' hid ?_⟩
      intro heq
      rw [← heq, hnone] at hsome
      cases hsome

/-- The device is deleted, deleted again, and its removal confirmed. -/
def deletedTwice : List Call := [
  ⟨3, .deleteDevice 1 2⟩, ⟨4, .deleteDevice 1 2⟩, ⟨5, .syncResult 0 {}⟩]

/-- The address `10.8.0.2` of a device deleted twice is released during the
run, and its keys stay. -/
theorem tombstone_history_of_deletedTwice :
    ∃ s t steps, (panel exampleConfig).replay oneDevice = some s ∧
      (panel exampleConfig).Trace s steps t ∧
      ∃ d ∈ s.db.devices, ∃ d' ∈ t.db.devices, d'.id = d.id ∧ d'.publicKey = d.publicKey ∧
        d.vpnIp = some "10.8.0.2" ∧ d'.releasedVpnIp = some "10.8.0.2" ∧
        ReleasedDuring exampleConfig steps d := by
  have hrun : ((panel exampleConfig).replay oneDevice).any (fun s =>
      ((panel exampleConfig).replayFrom s deletedTwice).any fun t =>
        ∃ d ∈ s.db.devices, ∃ d' ∈ t.db.devices, d'.id = d.id ∧ d.vpnIp = some "10.8.0.2" ∧
          d'.vpnIp = none) = true := by decide +kernel
  obtain ⟨s, hs, hrest⟩ := TSys.replay_any hrun
  obtain ⟨t, ht, hrows⟩ := (Option.any_eq_true _ _).mp hrest
  rw [decide_eq_true_eq] at hrows
  obtain ⟨d, hd, d', hd', hid, hip, hnone⟩ := hrows
  obtain ⟨steps, htrace⟩ := TSys.Trace.of_replayFrom deletedTwice ht
  obtain ⟨⟨hkey, -⟩, -, -, hsame | ⟨-, -, hrel, hduring⟩⟩ :=
    tombstone_history_durable exampleConfig s t steps (TSys.replay_reachable hs) htrace d d' hd hd'
      hid
  · rw [hip, hnone] at hsame
    cases hsame.1
  · exact ⟨s, t, steps, hs, htrace, d, hd, d', hd', hid, hkey, hip, hrel.trans hip, hduring⟩

end VpnPanel.Theorems
