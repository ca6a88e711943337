import VpnPanel.Backend.History
import VpnPanel.Worker.World

/-!
# Account deletion and the nodes

Deleting an account removes the rows that name its keys, and the worker removes
only keys its snapshot names. So what is installed stays installed: the sync
jobs that the deletion queues cannot mention the keys any more. The one way out
is a snapshot fetched before the deletion that lists the key for removal and is
applied after it.
-/

namespace VpnPanel.Theorems

open VpnPanel.Lib VpnPanel.Backend VpnPanel.Worker

/-- A device of the account has this key. -/
def OwnsKey (db : Db) (userId : UserId) (key : String) : Prop :=
  ∃ d ∈ db.devices, d.userId = userId ∧ d.publicKey = some key

/-- The step cuts no job short: it makes all its requests and drops no fetched
snapshot. -/
def completes (w : World) : Event → Bool
  | .applyFails _ _ => false
  | .abandon => w.fetched.isEmpty
  | .report _ => w.fetched.isEmpty || w.result.any fun x => (w.panel.db.node? x.1).isSome
  | _ => true

/-- In `w` the account is deleted, and the events `evs` that follow lead to `t`:
every sync job the deletion queued is fetched, applied and reported, no job is
cut short and none is running at the end. -/
structure AfterDeletion (cfg : Config) (userId : UserId) (w : World) (evs : List Event)
    (t : World) : Prop where
  intro ::
  exists_deletion : ∃ now effect deleted,
    handle cfg w.panel.db now (.deleteUser userId) = .ok effect ∧
    (world cfg).step w (.request ⟨now, .deleteUser userId⟩) = some deleted ∧
    (world cfg).replayFrom deleted evs = some t ∧
    (world cfg).ReplayOk (fun w e => completes w e) deleted evs ∧
    ∀ nodeId, .syncNode nodeId ∈ effect.queued → ∃ interface readings reportedAt,
      [Event.fetchNode nodeId, .apply interface readings, .report reportedAt].Sublist evs
  idle : t.idle

/-- No node that had a key of the account when it was deleted has it at the
end. -/
def KeysRevoked (userId : UserId) (w t : World) : Prop :=
  ∀ nodeId key, OwnsKey w.panel.db userId key → Installed (w.tables nodeId) key →
    ¬Installed (t.tables nodeId) key

/-- The worker carries a snapshot of the node that lists the key for removal. -/
def RemovalInFlight (w : World) (nodeId : NodeId) (key : String) : Prop :=
  ∃ snapshot ∈ w.fetched, snapshot.id = nodeId ∧ key ∈ (splitPeers snapshot.peers).2

/-! ## Keys are drawn once -/

/-- Every device has the key drawn for its id. -/
def Keyed (cfg : Config) (db : Db) : Prop :=
  ∀ d ∈ db.devices, d.publicKey = some (cfg.generateKeypair d.id).2

/-- No device has this id, and none will. -/
structure Absent (id : DeviceId) (db : Db) : Prop where
  used : id < db.nextId
  gone : ∀ d ∈ db.devices, d.id ≠ id

variable {cfg : Config}

theorem Keyed.apply {db : Db} (h : Keyed cfg db) {w : Write} (hok : w.Ok db)
    (hnew : ∀ row, w = .newDevice row → row.publicKey = some (cfg.generateKeypair row.id).2) :
    Keyed cfg (w.apply db) := by
  cases w with
  | newDevice row =>
      intro d hd
      rcases List.mem_append.mp hd with hd | hd
      · exact h d hd
      · rw [List.mem_singleton.mp hd]
        exact hnew row rfl
  | tombstone row =>
      obtain ⟨old, hold, at_, rfl⟩ := hok
      intro d hd
      rcases Rows.mem_save.mp hd with ⟨rfl, _⟩ | ⟨hd, _⟩
      · exact h old hold
      · exact h d hd
  | release row at_ =>
      intro d hd
      rcases Rows.mem_save.mp hd with ⟨rfl, _⟩ | ⟨hd, _⟩
      · exact h row hok.mem
      · exact h d hd
  | reading row data now =>
      show Keyed cfg (applyPeerResult db row data now).2
      rw [applyPeerResult_db]
      exact h
  | deleteUser id => exact fun d hd => h d (List.mem_filter.mp hd).1
  | _ => exact h

theorem panel_keyed {s : Panel} (h : (panel cfg).Reachable s) : Keyed cfg s.db := by
  have hinit : Keyed cfg (panel cfg).init.db := fun d hd => absurd hd List.not_mem_nil
  refine TSys.Reaches.invariant_with (P := fun s => Keyed cfg s.db) (fun _ => panel_wf) hinit ?_ h
  intro s call s' hwf hkeyed _ hstep
  obtain ⟨db₁, db₂, h₁, h₂, h₃⟩ := panel_step_phases hwf hstep
  have hk₁ : Keyed cfg db₁ := h₁.keeps (fun _ w hw hok hI => hI.apply hok fun row heq => by
    subst heq
    exact hw) hkeyed
  have hk₂ : Keyed cfg db₂ := h₂.keeps (fun _ w hw hok hI => hI.apply hok fun row heq => by
    subst heq
    exact hw.elim) hk₁
  exact h₃.keeps (fun _ w hw hok hI => hI.apply hok fun row heq => by
    subst heq
    exact hw.elim) hk₂

theorem Absent.panel_step {id : DeviceId} {s s' : Panel} {call : Call} (hwf : s.db.WF)
    (h : Absent id s.db) (hstep : (panel cfg).step s call = some s') : Absent id s'.db := by
  have hhist := (panel_step_phases hwf hstep).writes.history hwf
  refine ⟨Nat.lt_of_lt_of_le h.used hhist.nextId, fun d' hd' heq => ?_⟩
  rcases hhist.devices d' hd' with ⟨d, hd, hdd⟩ | hnew
  · exact h.gone d hd (hdd.id.symm.trans heq)
  · rw [heq] at hnew
    exact absurd h.used (Nat.not_lt.mpr hnew)

theorem Absent.world_step {id : DeviceId} {w w' : World} {e : Event} (hwf : w.panel.db.WF)
    (h : Absent id w.panel.db) (hstep : (world cfg).step w e = some w') :
    Absent id w'.panel.db := by
  rcases world_panel hstep with heq | ⟨call, hcall⟩
  · rw [heq]
    exact h
  · exact h.panel_step hwf hcall

/-- The deleted account's devices are gone for good. -/
theorem absent_of_deleted {db : Db} (hwf : db.WF) {d : Device} (hd : d ∈ db.devices) :
    Absent d.id (db.deleteUser d.userId) := by
  refine ⟨hwf.deviceFresh d hd, fun d' hd' heq => ?_⟩
  obtain ⟨hmem, huser⟩ := List.mem_filter.mp hd'
  rw [hwf.device_eq hmem hd heq] at huser
  simp at huser

/-- A snapshot taken once the device is gone does not name its key. -/
theorem not_named {db : Db} (hwf : db.WF) (hkeyed : Keyed cfg db)
    (hdraw : Function.Injective fun id => (cfg.generateKeypair id).2) {id : DeviceId}
    (habsent : Absent id db) {node : Node} :
    ∀ y ∈ (nodeSnapshot db node).peers, y.publicKey ≠ (cfg.generateKeypair id).2 := by
  intro y hy heq
  obtain ⟨p, -, -, u, -, -, d, hd, -, -, hk, -⟩ := (mem_nodeSnapshot hwf).mp hy
  have hkey : (cfg.generateKeypair d.id).2 = (cfg.generateKeypair id).2 :=
    (Option.some.inj ((hkeyed d hd).symm.trans hk)).trans heq
  exact habsent.gone d hd (hdraw hkey)

/-! ## Along the run -/

/-- The snapshot neither wants the key nor lists it for removal. -/
def Silent (key : String) (snapshot : NodeSnapshot) : Prop :=
  (∀ x ∈ (splitPeers snapshot.peers).1, x.publicKey ≠ key) ∧ key ∉ (splitPeers snapshot.peers).2

theorem silent_of_not_named {key : String} {snapshot : NodeSnapshot}
    (h : ∀ y ∈ snapshot.peers, y.publicKey ≠ key) : Silent key snapshot := by
  refine ⟨fun x hx => ?_, fun hkey => ?_⟩
  · obtain ⟨y, hy, -, -, rfl⟩ := mem_splitPeers_active.mp hx
    exact h y hy
  · obtain ⟨y, hy, -, -, heq⟩ := mem_splitPeers_delete.mp hkey
    exact h y hy heq.symm

/-- The snapshots a step leaves to be applied: those it found, or the new ones
of a fetch. -/
theorem fetched_after {w w' : World} {e : Event}
    (hstep : (world cfg).step w e = some w') :
    ∀ snapshot ∈ w'.fetched, snapshot ∈ w.fetched ∨
      ∃ node, snapshot = nodeSnapshot w.panel.db node ∧
        (e = .fetchNode node.id ∨ e = .fetchAll) := by
  have hdoes := world_step hstep
  intro snapshot hs
  cases e with
  | request call =>
      obtain ⟨-, next, -, rfl⟩ := hdoes
      exact .inl hs
  | fetchNode nodeId =>
      obtain ⟨-, node, -, rfl, rfl⟩ := hdoes
      exact .inr ⟨node, List.mem_singleton.mp hs, .inl rfl⟩
  | fetchAll =>
      obtain ⟨-, rfl⟩ := hdoes
      obtain ⟨node, -, rfl⟩ := List.mem_map.mp hs
      exact .inr ⟨node, rfl, .inr rfl⟩
  | apply interface readings =>
      obtain ⟨first, rest, hfetched, -, rfl⟩ := hdoes
      exact .inl (hfetched ▸ List.mem_cons_of_mem _ hs)
  | applyFails requests error =>
      obtain ⟨first, rest, -, -, rfl⟩ := hdoes
      cases hs
  | report now =>
      obtain ⟨nodeId, data, -, next, -, rfl⟩ := hdoes
      dsimp only at hs
      split at hs
      · exact .inl hs
      · cases hs
  | reportHeartbeat index now =>
      obtain ⟨nodeId, data, -, next, -, rfl⟩ := hdoes
      exact .inl hs
  | abandon =>
      cases hdoes
      cases hs
  | heartbeat nodeId readings =>
      cases hdoes
      exact .inl hs
  | heartbeatFails nodeId error =>
      cases hdoes
      exact .inl hs

/-- A step leaves a node's table as it was or applies the first snapshot. -/
theorem table_after {w w' : World} {e : Event} (hstep : (world cfg).step w e = some w')
    (nodeId : NodeId) :
    w'.tables nodeId = w.tables nodeId ∨ ∃ snapshot ∈ w.fetched, snapshot.id = nodeId ∧
      ((∃ interface readings, e = .apply interface readings ∧
          w'.tables nodeId = applySnapshot (w.tables nodeId) snapshot.peers) ∨
        ∃ requests error, e = .applyFails requests error ∧
          w'.tables nodeId = applyPartly (w.tables nodeId) snapshot.peers requests) := by
  have hdoes := world_step hstep
  cases e with
  | request call =>
      obtain ⟨-, next, -, rfl⟩ := hdoes
      exact .inl rfl
  | fetchNode other =>
      obtain ⟨-, node, -, -, rfl⟩ := hdoes
      exact .inl rfl
  | fetchAll =>
      obtain ⟨-, rfl⟩ := hdoes
      exact .inl rfl
  | apply interface readings =>
      obtain ⟨first, rest, hfetched, -, rfl⟩ := hdoes
      by_cases hid : first.id = nodeId
      · subst hid
        exact .inr ⟨first, hfetched ▸ List.mem_cons_self, rfl,
          .inl ⟨interface, readings, rfl, Function.update_self ..⟩⟩
      · exact .inl (Function.update_of_ne (Ne.symm hid) ..)
  | applyFails requests error =>
      obtain ⟨first, rest, hfetched, -, rfl⟩ := hdoes
      by_cases hid : first.id = nodeId
      · subst hid
        exact .inr ⟨first, hfetched ▸ List.mem_cons_self, rfl,
          .inr ⟨requests, error, rfl, Function.update_self ..⟩⟩
      · exact .inl (Function.update_of_ne (Ne.symm hid) ..)
  | report now =>
      obtain ⟨other, data, -, next, -, rfl⟩ := hdoes
      exact .inl rfl
  | reportHeartbeat index now =>
      obtain ⟨other, data, -, next, -, rfl⟩ := hdoes
      exact .inl rfl
  | abandon =>
      cases hdoes
      exact .inl rfl
  | heartbeat other readings =>
      cases hdoes
      exact .inl rfl
  | heartbeatFails other error =>
      cases hdoes
      exact .inl rfl

section Key

variable {w w' : World} {e : Event} {nodeId : NodeId} {id : DeviceId} {key : String}

/-- What a step adds to the job says nothing about the key of a device that is
gone. -/
theorem fetched_silent (hdraw : Function.Injective fun id => (cfg.generateKeypair id).2)
    (hwf : w.panel.db.WF) (hkeyed : Keyed cfg w.panel.db) (habsent : Absent id w.panel.db)
    (hstep : (world cfg).step w e = some w') :
    ∀ snapshot ∈ w'.fetched, snapshot ∈ w.fetched ∨
      Silent (cfg.generateKeypair id).2 snapshot := by
  intro snapshot hs
  rcases fetched_after hstep snapshot hs with hold | ⟨node, rfl, -⟩
  · exact .inl hold
  · exact .inr (silent_of_not_named (not_named hwf hkeyed hdraw habsent))

/-- The key is installed and no snapshot on its way removes it. -/
structure Stays (nodeId : NodeId) (key : String) (w : World) : Prop where
  installed : Installed (w.tables nodeId) key
  kept : ∀ snapshot ∈ w.fetched, snapshot.id = nodeId → key ∉ (splitPeers snapshot.peers).2

/-- **Step, key that stays.** Whatever happens, job failures included. -/
theorem Stays.step (h : Stays nodeId key w) (hstep : (world cfg).step w e = some w')
    (hnew : ∀ snapshot ∈ w'.fetched, snapshot ∈ w.fetched ∨ Silent key snapshot) :
    Stays nodeId key w' := by
  refine ⟨?_, fun snapshot hs hid => ?_⟩
  · rcases table_after hstep nodeId with hsame | ⟨snapshot, hs, hid, ⟨_, _, -, happ⟩ |
      ⟨requests, _, -, happ⟩⟩
    · rw [hsame]
      exact h.installed
    · rw [happ, installed_applySnapshot, if_pos h.installed]
      exact h.kept snapshot hs hid
    · rw [happ]
      exact h.installed.applyPartly (h.kept snapshot hs hid) requests
  · rcases hnew snapshot hs with hold | hsilent
    · exact h.kept snapshot hold hid
    · exact hsilent.2

/-- The key is installed and the job removes it, or it is gone and no snapshot
on its way wants it. -/
def Goes (nodeId : NodeId) (key : String) (w : World) : Prop :=
  (Installed (w.tables nodeId) key ∧ RemovalInFlight w nodeId key) ∨
    (¬Installed (w.tables nodeId) key ∧ ∀ snapshot ∈ w.fetched, snapshot.id = nodeId →
      ∀ x ∈ (splitPeers snapshot.peers).1, x.publicKey ≠ key)

/-- While the removal is on its way, only the application of its snapshot ends
it. -/
theorem removalInFlight_step (hjob : OneJob w) (hin : Installed (w.tables nodeId) key)
    (h : RemovalInFlight w nodeId key) (hdone : completes w e)
    (hstep : (world cfg).step w e = some w') : Goes nodeId key w' := by
  obtain ⟨snapshot, hs, hid, hkey⟩ := h
  have hbusy : w.fetched ≠ [] := List.ne_nil_of_mem hs
  have hdoes := world_step hstep
  cases e with
  | request call =>
      obtain ⟨-, next, -, rfl⟩ := hdoes
      exact .inl ⟨hin, snapshot, hs, hid, hkey⟩
  | fetchNode other =>
      exact absurd (idle_iff.mp hdoes.1).1 hbusy
  | fetchAll => exact absurd (idle_iff.mp hdoes.1).1 hbusy
  | apply interface readings =>
      obtain ⟨first, rest, hfetched, -, rfl⟩ := hdoes
      have hids := hjob.ids
      rw [hfetched, List.map_cons, List.nodup_cons] at hids
      rw [hfetched] at hs
      rcases List.mem_cons.mp hs with rfl | hs
      · -- this is the snapshot that removes the key; the job has no other of the node
        subst hid
        refine .inr ⟨?_, fun other hother heq => ?_⟩
        · show ¬Installed (Function.update w.tables snapshot.id _ snapshot.id) key
          rw [Function.update_self, installed_applySnapshot, if_pos hin]
          exact fun hnot => hnot hkey
        · exact absurd (List.mem_map.mpr ⟨other, hother, heq⟩) hids.1
      · have hne : nodeId ≠ first.id := by
          rintro rfl
          exact hids.1 (List.mem_map.mpr ⟨snapshot, hs, hid⟩)
        refine .inl ⟨?_, snapshot, hs, hid, hkey⟩
        show Installed (Function.update w.tables first.id _ nodeId) key
        rw [Function.update_of_ne hne]
        exact hin
  | applyFails requests error => cases hdone
  | report now =>
      obtain ⟨other, data, hresult, next, -, rfl⟩ := hdoes
      refine .inl ⟨hin, snapshot, ?_, hid, hkey⟩
      -- the report is accepted, for a refused one would drop this snapshot
      simp only [completes, Bool.or_eq_true, List.isEmpty_iff, hbusy, hresult, Option.any_some,
        false_or] at hdone
      show snapshot ∈ if (w.panel.db.node? other).isSome then w.fetched else []
      rw [if_pos hdone]
      exact hs
  | abandon => exact absurd (List.isEmpty_iff.mp hdone) hbusy
  | heartbeat other readings =>
      cases hdoes
      exact .inl ⟨hin, snapshot, hs, hid, hkey⟩
  | heartbeatFails other error =>
      cases hdoes
      exact .inl ⟨hin, snapshot, hs, hid, hkey⟩
  | reportHeartbeat index now =>
      obtain ⟨other, data, -, next, -, rfl⟩ := hdoes
      exact .inl ⟨hin, snapshot, hs, hid, hkey⟩

/-- **Step, key that goes.** -/
theorem Goes.step (hjob : OneJob w) (h : Goes nodeId key w) (hdone : completes w e)
    (hstep : (world cfg).step w e = some w')
    (hnew : ∀ snapshot ∈ w'.fetched, snapshot ∈ w.fetched ∨ Silent key snapshot) :
    Goes nodeId key w' := by
  rcases h with ⟨hin, hflight⟩ | ⟨hout, hwants⟩
  · exact removalInFlight_step hjob hin hflight hdone hstep
  · refine .inr ⟨?_, fun snapshot hs hid => ?_⟩
    · rcases table_after hstep nodeId with hsame | ⟨snapshot, hs, hid, ⟨_, _, -, happ⟩ |
        ⟨requests, _, rfl, -⟩⟩
      · rw [hsame]
        exact hout
      · rw [happ, installed_applySnapshot, if_neg hout]
        rintro ⟨x, hx, hkey⟩
        exact hwants snapshot hs hid x hx hkey
      · cases hdone
    · rcases hnew snapshot hs with hold | hsilent
      · exact hwants snapshot hold hid
      · exact hsilent.1

end Key

/-! ## Whole runs -/

section Run

variable {w deleted t : World} {evs : List Event} {nodeId : NodeId} {id : DeviceId}

/-- What the world keeps while the key of a device that is gone is followed. -/
structure Gone (cfg : Config) (id : DeviceId) (w : World) : Prop where
  reachable : (world cfg).Reachable w
  absent : Absent id w.panel.db

theorem Gone.step {w' : World} {e : Event} (h : Gone cfg id w)
    (hstep : (world cfg).step w e = some w') : Gone cfg id w' :=
  ⟨.step h.reachable trivial hstep, h.absent.world_step (world_wf h.reachable) hstep⟩

theorem Gone.silent (hdraw : Function.Injective fun id => (cfg.generateKeypair id).2)
    {w' : World} {e : Event} (h : Gone cfg id w) (hstep : (world cfg).step w e = some w') :
    ∀ snapshot ∈ w'.fetched, snapshot ∈ w.fetched ∨ Silent (cfg.generateKeypair id).2 snapshot :=
  fetched_silent hdraw (world_wf h.reachable) (panel_keyed (world_panel_reachable h.reachable))
    h.absent hstep

theorem stays_run (hdraw : Function.Injective fun id => (cfg.generateKeypair id).2)
    (hgone : Gone cfg id w) (h : Stays nodeId (cfg.generateKeypair id).2 w)
    (hok : (world cfg).ReplayOk (fun w e => completes w e) w evs)
    (hrun : (world cfg).replayFrom w evs = some t) :
    Installed (t.tables nodeId) (cfg.generateKeypair id).2 := by
  have hend : Gone cfg id t ∧ Stays nodeId (cfg.generateKeypair id).2 t :=
    TSys.replayFrom_keeps (P := fun w => Gone cfg id w ∧ Stays nodeId (cfg.generateKeypair id).2 w)
      (fun _ _ _ hw _ hstep => ⟨hw.1.step hstep, hw.2.step hstep (hw.1.silent hdraw hstep)⟩)
      evs ⟨hgone, h⟩ hok hrun
  exact hend.2.installed

theorem goes_run (hdraw : Function.Injective fun id => (cfg.generateKeypair id).2)
    (hgone : Gone cfg id w) (h : Goes nodeId (cfg.generateKeypair id).2 w)
    (hok : (world cfg).ReplayOk (fun w e => completes w e) w evs)
    (hrun : (world cfg).replayFrom w evs = some t) (hidle : t.idle) :
    ¬Installed (t.tables nodeId) (cfg.generateKeypair id).2 := by
  have hend : Gone cfg id t ∧ Goes nodeId (cfg.generateKeypair id).2 t :=
    TSys.replayFrom_keeps (P := fun w => Gone cfg id w ∧ Goes nodeId (cfg.generateKeypair id).2 w)
      (fun _ _ _ hw hdone hstep => ⟨hw.1.step hstep,
        hw.2.step (world_oneJob hw.1.reachable) hdone hstep (hw.1.silent hdraw hstep)⟩)
      evs ⟨hgone, h⟩ hok hrun
  rcases hend.2 with ⟨-, snapshot, hs, -⟩ | ⟨hout, -⟩
  · rw [(idle_iff.mp hidle).1] at hs
    cases hs
  · exact hout

/-- The deletion itself touches neither a node nor the running job. -/
theorem deletion_step {userId : UserId} {now : Time} {effect : Effect}
    (hok : handle cfg w.panel.db now (.deleteUser userId) = .ok effect)
    (hstep : (world cfg).step w (.request ⟨now, .deleteUser userId⟩) = some deleted) :
    deleted.tables = w.tables ∧ deleted.fetched = w.fetched ∧
      deleted.panel.db = w.panel.db.deleteUser userId := by
  obtain ⟨-, next, hnext, rfl⟩ := world_step hstep
  obtain ⟨-, rfl⟩ := panel_step hnext
  refine ⟨rfl, rfl, ?_⟩
  show afterRequest cfg w.panel.db now (.deleteUser userId) = _
  unfold afterRequest
  rw [hok]
  obtain ⟨user, hu, hdb, -⟩ := apiDeleteUser_ok hok
  have hid : user.id = userId := Rows.key_of_get? (localUser_ok hu).1
  rw [← hid]
  exact hdb

end Run

theorem exampleConfig_draws_once :
    Function.Injective fun id => (exampleConfig.generateKeypair id).2 := by
  intro i j h
  have hrepr : Nat.repr i = Nat.repr j := by
    simpa [exampleConfig, String.append_right_inj] using h
  have hdigits : Nat.toDigits 10 i = Nat.toDigits 10 j := by
    simpa using congrArg String.toList hrepr
  rw [← Nat.ofDigitChars_ten_toDigits (n := i), hdigits, Nat.ofDigitChars_ten_toDigits]

/-- One account with one device, installed and then blocked; the worker has
fetched the node's snapshot, which lists the key for removal. -/
def removalFetched : List Event :=
  oneDevice.map .request ++ [.fetchNode 0, .apply none fun _ => {}, .report 4,
    .request ⟨5, .blockUser 1⟩, .fetchNode 0]

/-- The job that runs at the deletion, then the one the deletion queues. -/
def finishAndSync : List Event :=
  [.apply none fun _ => {}, .report 7, .fetchNode 0, .apply none fun _ => {}, .report 8]

/-- One account with one device, installed; the worker is idle. -/
def installedAndIdle : List Event :=
  oneDevice.map .request ++ [.fetchNode 0, .apply none fun _ => {}, .report 4]

/-- The job the deletion queues. -/
def syncOnce : List Event := [.fetchNode 0, .apply none fun _ => {}, .report 7]

/-- The end of `evs` after the account's deletion in `w`, where the deletion
queues `queued` and no later job is cut short. -/
def endAfterDeletion (userId : UserId) (queued : List Command) (evs : List Event) (w : World) :
    Option World :=
  match handle exampleConfig w.panel.db 6 (.deleteUser userId),
      (world exampleConfig).step w (.request ⟨6, .deleteUser userId⟩) with
  | .ok effect, some deleted =>
      if effect.queued = queued ∧
          (world exampleConfig).ReplayOk (fun w e => completes w e) deleted evs then
        (world exampleConfig).replayFrom deleted evs
      else none
  | _, _ => none

theorem afterDeletion_of_end {userId : UserId} {queued : List Command} {evs : List Event}
    {w t : World} (h : endAfterDeletion userId queued evs w = some t) (hidle : t.idle)
    (hsync : ∀ nodeId, .syncNode nodeId ∈ queued → ∃ interface readings reportedAt,
      [Event.fetchNode nodeId, .apply interface readings, .report reportedAt].Sublist evs) :
    AfterDeletion exampleConfig userId w evs t := by
  unfold endAfterDeletion at h
  split at h
  · next effect deleted hok hstep =>
      split at h
      · next hcond =>
          obtain ⟨rfl, hdone⟩ := hcond
          exact ⟨⟨6, effect, deleted, hok, hstep, h, hdone, hsync⟩, hidle⟩
      · cases h
  · cases h

/-- The event fetches no snapshot of the node. -/
def leavesOut (nodeId : NodeId) : Event → Bool
  | .fetchNode other => other ≠ nodeId
  | .fetchAll => false
  | _ => true

/-- A node whose snapshot is never fetched keeps its empty table. -/
theorem table_of_leavesOut {evs : List Event} {w : World} {nodeId : NodeId}
    (hrun : (world cfg).replay evs = some w) (hall : ∀ e ∈ evs, leavesOut nodeId e) :
    w.tables nodeId = [] := by
  have hend : w.tables nodeId = [] ∧ ∀ snapshot ∈ w.fetched, snapshot.id ≠ nodeId := by
    have hok : (world cfg).ReplayOk (fun _ e => leavesOut nodeId e) (world cfg).init evs :=
      TSys.replayOk_of_forall evs (fun e he _ => hall e he) _
    refine TSys.replayFrom_keeps
      (P := fun w : World => w.tables nodeId = [] ∧ ∀ snapshot ∈ w.fetched, snapshot.id ≠ nodeId)
      ?_ evs ⟨rfl, fun _ hs => absurd hs List.not_mem_nil⟩ hok hrun
    rintro w e w' ⟨hempty, hids⟩ hout hstep
    constructor
    · rcases table_after hstep nodeId with hsame | ⟨snapshot, hs, hid, -⟩
      · exact hsame.trans hempty
      · exact absurd hid (hids snapshot hs)
    · intro snapshot hs
      rcases fetched_after hstep snapshot hs with hold | ⟨node, rfl, rfl | rfl⟩
      · exact hids snapshot hold
      · exact of_decide_eq_true hout
      · cases hout
  exact hend.1

end VpnPanel.Theorems
