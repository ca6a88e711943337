import VpnPanel.Backend.OwnerRequests
import VpnPanel.Backend.Refine

/-!
# Requests without rivals

A request whose statements run with no other transaction in between answers as
its route does in one step, and commits the same rows. The route draws ids from
the supply of the tables, and the statements can draw the same ones.
-/

namespace VpnPanel.Backend

open VpnPanel.Lib

/-! ## The statements of one transaction -/

/-- A statement can draw the id: no row has it. -/
structure Stage.Draws (stage : Stage) (db : Db) (draw : Nat) : Prop where
  devices : ∀ d ∈ db.devices ++ stage.devices, d.id ≠ draw
  peers : ∀ p ∈ db.peers ++ stage.peers, p.id ≠ draw

/-- What the statements of a transaction come to while it is the only one. -/
inductive StageRuns (cfg : Config) (db : Db) (now : Time) : Stage → Progress → Prop
  | last {stage : Stage} {draw : Nat} : stage.Draws db draw →
      StageRuns cfg db now stage (stage.step cfg db now draw)
  | next {stage stage' : Stage} {draw : Nat} {p : Progress} : stage.Draws db draw →
      stage.step cfg db now draw = .goes stage' → StageRuns cfg db now stage' p →
      StageRuns cfg db now stage p

variable {cfg : Config} {db : Db} {now : Time} {stage stage' : Stage} {p : Progress}

theorem StageRuns.ends {draw : Nat} (hdraws : stage.Draws db draw)
    (h : stage.step cfg db now draw = p) : StageRuns cfg db now stage p :=
  h ▸ .last hdraws

/-- Before a row is inserted, the supply's next id can be drawn. -/
theorem draws_supply (hwf : db.WF) (hdevices : stage.devices = []) (hpeers : stage.peers = []) :
    stage.Draws db db.nextId where
  devices d hd := by
    rw [hdevices, List.append_nil] at hd
    exact (hwf.deviceFresh d hd).ne
  peers p hp := by
    rw [hpeers, List.append_nil] at hp
    exact (hwf.peerFresh p hp).ne

/-- The system with one transaction. -/
def OwnerRows.only (db : Db) (operations : List Command) (id : Nat) (stage : Stage) : OwnerRows :=
  { db, operations, txs := [{ id, stage }] }

/-- What a transaction's progress leaves of the system it is alone in. -/
theorem act_only {operations : List Command} {id draw : Nat} (hdraws : stage.Draws db draw) :
    (OwnerRows.only db operations id stage).act cfg (.next id now draw) =
      some ((OwnerRows.only db operations id stage).progress { id, stage }
        (stage.step cfg db now draw)) := by
  have htx : (OwnerRows.only db operations id stage).tx? id = some { id, stage } := by
    simp [OwnerRows.tx?, OwnerRows.only, Rows.get?]
  have hwaits : (OwnerRows.only db operations id stage).waits { id, stage } = false := by
    simp [OwnerRows.waits, OwnerRows.others, OwnerRows.only]
  have hfresh : (OwnerRows.only db operations id stage).fresh draw = true := by
    simp only [OwnerRows.fresh, OwnerRows.only, List.flatMap_singleton, Bool.and_eq_true,
      List.all_eq_true, decide_eq_true_eq]
    exact ⟨hdraws.devices, hdraws.peers⟩
  simp only [OwnerRows.act, htx, Option.bind_some, hwaits, hfresh]
  rfl

theorem progress_only {operations : List Command} {id : Nat} :
    (OwnerRows.only db operations id stage').progress { id, stage := stage' } p =
      (OwnerRows.only db operations id stage).progress { id, stage } p := by
  cases p with
  | goes next => simp [OwnerRows.progress, OwnerRows.only, Rows.save]
  | refuses error => simp [OwnerRows.progress, OwnerRows.only, OwnerRows.finish, OwnerRows.others]
  | commits db' queued ending =>
      simp [OwnerRows.progress, OwnerRows.only, OwnerRows.finish, OwnerRows.others]

/-- The statements as events of the system. -/
theorem StageRuns.replay (sys : TSys OwnerRows OwnerEvent) (hsys : sys.step = OwnerRows.act cfg)
    (operations : List Command) (id : Nat) (h : StageRuns cfg db now stage p) :
    ∃ evs : List OwnerEvent, (∀ e ∈ evs, e.tx? = some id) ∧
      sys.replayFrom (OwnerRows.only db operations id stage) evs =
        some ((OwnerRows.only db operations id stage).progress { id, stage } p) := by
  induction h with
  | @last stage draw hdraws =>
      refine ⟨[.next id now draw], by simp [OwnerEvent.tx?], ?_⟩
      rw [TSys.replayFrom, hsys, act_only hdraws]
      rfl
  | @next stage stage' draw p hdraws hstep _ ih =>
      obtain ⟨evs, hown, hreplay⟩ := ih
      refine ⟨.next id now draw :: evs, List.forall_mem_cons.mpr ⟨rfl, hown⟩, ?_⟩
      have hgoes : (OwnerRows.only db operations id stage).progress { id, stage }
          (.goes stage') = OwnerRows.only db operations id stage' := by
        simp [OwnerRows.progress, OwnerRows.only, Rows.save]
      rw [TSys.replayFrom, hsys, act_only hdraws, hstep, hgoes, Option.bind_some, hreplay,
        progress_only]

/-! ## A creation -/

variable {userId : UserId} {name : String} {device : Device}

theorem step_creating (at_ : Creation) (draw : Nat) :
    (Stage.creating userId name at_).step cfg db now draw =
      createStep cfg db ((Stage.creating userId name at_).view db draw) userId name now at_ := rfl

section

variable {at_ : Creation} (hwf : db.WF) (hdevices : (Stage.creating userId name at_).devices = [])
  (hpeers : (Stage.creating userId name at_).peers = [])

include hwf hdevices hpeers

/-- Before a row is inserted, a statement sees the tables. -/
theorem creating_ends (h : createStep cfg db db userId name now at_ = p) :
    StageRuns cfg db now (.creating userId name at_) p := by
  refine .ends (draws_supply hwf hdevices hpeers) ?_
  have hview : (Stage.creating userId name at_).view db db.nextId = db := by
    unfold Stage.view
    rw [hdevices, hpeers, List.append_nil, List.append_nil]
  rw [step_creating, hview, h]

theorem creating_goes (h : createStep cfg db db userId name now at_ = .goes stage')
    (hrest : StageRuns cfg db now stage' p) :
    StageRuns cfg db now (.creating userId name at_) p := by
  refine .next (draws_supply hwf hdevices hpeers) ?_ hrest
  have hview : (Stage.creating userId name at_).view db db.nextId = db := by
    unfold Stage.view
    rw [hdevices, hpeers, List.append_nil, List.append_nil]
  rw [step_creating, hview, h]

end

/-- The rounds of the address allocation, under one supply. -/
theorem runs_allocate (hwf : db.WF) (keypair : String × String) (attempts : Nat) :
    (∀ e, insertDeviceWithUniqueIp cfg db userId name keypair now attempts = .error e →
      StageRuns cfg db now (.creating userId name (.allocate keypair attempts))
        (.refuses (e.http cfg))) ∧
    ∀ device db', insertDeviceWithUniqueIp cfg db userId name keypair now attempts =
        .ok (device, db') →
      ∀ p, StageRuns cfg db now (.creating userId name (.listNodes device)) p →
        StageRuns cfg db now (.creating userId name (.allocate keypair attempts)) p := by
  induction attempts with
  | zero =>
      refine ⟨fun e h => ?_, fun device db' h => by cases h⟩
      cases h
      exact creating_ends hwf rfl rfl rfl
  | succ attempts ih =>
      unfold insertDeviceWithUniqueIp
      cases hip : allocateDeviceIp cfg db with
      | none =>
          refine ⟨fun e h => ?_, fun device db' h => by cases h⟩
          cases h
          exact creating_ends hwf rfl rfl (by simp only [createStep, hip])
      | some vpnIp =>
          have hround : ∀ p,
              StageRuns cfg db now (.creating userId name (.insert keypair attempts vpnIp)) p →
              StageRuns cfg db now (.creating userId name (.allocate keypair (attempts + 1))) p :=
            fun p => creating_goes hwf rfl rfl (by simp only [createStep, hip])
          dsimp only
          cases hinsert : db.insertDevice {
              id := db.nextId, userId, name, publicKey := some keypair.2,
              privateKey := some keypair.1, vpnIp := some vpnIp, createdAt := now } with
          | ok db₁ =>
              refine ⟨(fun e h => by cases h), fun device db' h p hrest => hround p ?_⟩
              cases h
              exact creating_goes hwf rfl rfl (by simp only [createStep, hinsert]) hrest
          | error conflict =>
              cases conflict with
              | vpnIp =>
                  -- the savepoint is rolled back, and the next round draws the same id
                  have hagain : ∀ p,
                      StageRuns cfg db now (.creating userId name (.allocate keypair attempts)) p →
                      StageRuns cfg db now
                        (.creating userId name (.insert keypair attempts vpnIp)) p :=
                    fun p => creating_goes hwf rfl rfl (by simp only [createStep, hinsert])
                  exact ⟨fun e h => hround _ (hagain _ (ih.1 e h)),
                    fun device db' h p hrest => hround p (hagain p (ih.2 device db' h p hrest))⟩
              | publicKey =>
                  refine ⟨fun e h => hround _ ?_, fun device db' h => by cases h⟩
                  cases h
                  exact creating_ends hwf rfl rfl (by simp only [createStep, hinsert])
              | owner =>
                  refine ⟨fun e h => hround _ ?_, fun device db' h => by cases h⟩
                  cases h
                  exact creating_ends hwf rfl rfl (by simp only [createStep, hinsert])

/-- What the transaction sees, with the next id of the supply above all rows. -/
structure Stage.Sees (stage : Stage) (db view : Db) : Prop where
  rows : stage.view db view.nextId = view
  devices : Rows.Below Device.id view.devices view.nextId
  peers : Rows.Below Peer.id view.peers view.nextId

theorem Stage.Sees.draws {view : Db} (h : stage.Sees db view) : stage.Draws db view.nextId where
  devices d hd := by
    have hmem : d ∈ (stage.view db view.nextId).devices := hd
    rw [h.rows] at hmem
    exact (h.devices d hmem).ne
  peers p hp := by
    have hmem : p ∈ (stage.view db view.nextId).peers := hp
    rw [h.rows] at hmem
    exact (h.peers p hmem).ne

/-- The loop over the nodes: the transaction sees the rows that the route has
come to. -/
theorem runs_pendingPeers (todo : List NodeId) : ∀ {view : Db} {peers : List Peer}
    {created : List NodeId},
    (Stage.creating userId name (.pendingPeers device peers created todo)).Sees db view →
    StageRuns cfg db now (.creating userId name (.pendingPeers device peers created todo))
      (.commits { (createPendingPeersOn cfg device todo view).2 with nextId := db.nextId }
        (enqueueSyncNodes (created ++ (createPendingPeersOn cfg device todo view).1))
        (.created device)) := by
  induction todo with
  | nil =>
      intro view peers created hsees
      refine .ends hsees.draws ?_
      have hview : { view with nextId := db.nextId } =
          { db with devices := db.devices ++ [device], peers := db.peers ++ peers } := by
        rw [← hsees.rows]
        rfl
      simp only [createPendingPeersOn, List.append_nil, hview]
      rfl
  | cons nodeId todo ih =>
      intro view peers created hsees
      have hstep : (Stage.creating userId name
          (.pendingPeers device peers created (nodeId :: todo))).step cfg db now view.nextId =
            if (createPendingPeer cfg view nodeId device).1 then
              .goes (.creating userId name (.pendingPeers device
                (peers ++ [pendingPeer cfg view nodeId device]) (created ++ [nodeId]) todo))
            else .goes (.creating userId name (.pendingPeers device peers created todo)) := by
        rw [step_creating, hsees.rows]
        rfl
      -- a node that has a peer of the device gets none
      rcases createPendingPeer_cases cfg view nodeId device with hnone | ⟨hnew, -, -⟩
      · have hroute : createPendingPeersOn cfg device (nodeId :: todo) view =
            createPendingPeersOn cfg device todo view := by
          simp [createPendingPeersOn, hnone]
        rw [hnone] at hstep
        rw [hroute]
        exact .next hsees.draws hstep (ih ⟨hsees.rows, hsees.devices, hsees.peers⟩)
      · have hroute : createPendingPeersOn cfg device (nodeId :: todo) view =
            (nodeId :: (createPendingPeersOn cfg device todo
                (Write.apply view (.newPeer (pendingPeer cfg view nodeId device)))).1,
              (createPendingPeersOn cfg device todo
                (Write.apply view (.newPeer (pendingPeer cfg view nodeId device)))).2) := by
          simp [createPendingPeersOn, hnew]
        have hlater : (Stage.creating userId name (.pendingPeers device
            (peers ++ [pendingPeer cfg view nodeId device]) (created ++ [nodeId]) todo)).Sees db
            (Write.apply view (.newPeer (pendingPeer cfg view nodeId device))) := by
          refine ⟨?_, hsees.devices.succ, hsees.peers.append rfl⟩
          have hinserted := congrArg
            (Write.apply · (.newPeer (pendingPeer cfg view nodeId device))) hsees.rows
          refine Eq.trans ?_ hinserted
          unfold Stage.view Write.apply
          simp only [Stage.devices, Stage.peers, List.append_assoc]
        have hrest := ih hlater
        rw [List.append_assoc, List.singleton_append] at hrest
        rw [hnew] at hstep
        rw [hroute]
        exact .next hsees.draws hstep hrest

/-- The route in one step and the statements come to the same: the rows, but for
the supply of ids, and the operations. -/
inductive SameAnswer (db : Db) : Outcome → Progress → Prop
  | refused {e : HttpError} : SameAnswer db (.error e) (.refuses e)
  | committed {effect : Effect} {ending : Ending} : SameAnswer db (.ok effect)
      (.commits { effect.db with nextId := db.nextId } effect.queued ending)

/-- The answer of a creation whose device was inserted. -/
def createdAnswer (cfg : Config) (db : Db) (device : Device) : Progress :=
  let result := createPendingPeersForDevice cfg (Write.apply db (.newDevice device)) device
  .commits { result.2 with nextId := db.nextId } (enqueueSyncNodes result.1) (.created device)

/-- Behind the inserted device, its peers. -/
theorem runs_listNodes (hwf : db.WF) (hid : device.id = db.nextId) :
    StageRuns cfg db now (.creating userId name (.listNodes device))
      (createdAnswer cfg db device) := by
  have hsees : ∀ at_, (Stage.creating userId name at_).devices = [device] →
      (Stage.creating userId name at_).peers = [] →
      (Stage.creating userId name at_).Sees db (Write.apply db (.newDevice device)) := by
    intro at_ hdevices hpeers
    refine ⟨?_, hwf.deviceFresh.append hid, hwf.peerFresh.succ⟩
    unfold Stage.view
    rw [hdevices, hpeers, List.append_nil]
    rfl
  have hlist := hsees (.listNodes device) rfl rfl
  have hloop : StageRuns cfg db now
      (.creating userId name (.pendingPeers device [] [] (db.nodes.map (·.id))))
      (createdAnswer cfg db device) :=
    runs_pendingPeers (db.nodes.map (·.id)) (hsees _ rfl rfl)
  refine .next hlist.draws ?_ hloop
  rw [step_creating, hlist.rows]
  rfl

/-- The checks behind the lock. -/
theorem runs_checks (hwf : db.WF) {progress : Progress}
    (hactive : requireActiveOwner db userId now = .ok ())
    (hcapacity : assertDeviceCapacity db userId = .ok ())
    (hrest : StageRuns cfg db now (.creating userId name
      (.allocate (cfg.generateKeypair db.nextId) maxIpAllocationAttempts)) progress) :
    StageRuns cfg db now (.creating userId name .requireActive) progress := by
  refine creating_goes hwf rfl rfl (by simp only [createStep, hactive]; rfl) ?_
  unfold assertDeviceCapacity at hcapacity
  cases hlimit : effectiveDeviceLimit db userId with
  | none => exact creating_goes hwf rfl rfl (by simp only [createStep, hlimit]) hrest
  | some limit =>
      rw [hlimit] at hcapacity
      dsimp only at hcapacity
      split at hcapacity
      · cases hcapacity
      · next hroom =>
          refine creating_goes hwf rfl rfl (by simp only [createStep, hlimit]; rfl) ?_
          exact creating_goes hwf rfl rfl (by simp only [createStep, if_neg hroom]) hrest

/-- A full account. -/
theorem runs_full (hwf : db.WF) {e : DeviceError}
    (hactive : requireActiveOwner db userId now = .ok ())
    (hcapacity : assertDeviceCapacity db userId = .error e) :
    StageRuns cfg db now (.creating userId name .requireActive) (.refuses (e.http cfg)) := by
  refine creating_goes hwf rfl rfl (by simp only [createStep, hactive]; rfl) ?_
  unfold assertDeviceCapacity at hcapacity
  cases hlimit : effectiveDeviceLimit db userId with
  | none =>
      rw [hlimit] at hcapacity
      cases hcapacity
  | some limit =>
      rw [hlimit] at hcapacity
      dsimp only at hcapacity
      split at hcapacity
      · next hfull =>
          cases hcapacity
          refine creating_goes hwf rfl rfl (by simp only [createStep, hlimit]; rfl) ?_
          exact creating_ends hwf rfl rfl (by simp only [createStep, if_pos hfull])
      · cases hcapacity

/-- From the lock on. -/
theorem runs_createDevice (hwf : db.WF) :
    (∀ e, createDevice cfg db userId name now = .error e →
      StageRuns cfg db now (.creating userId name .requireActive) (.refuses (e.http cfg))) ∧
    ∀ device ids db', createDevice cfg db userId name now = .ok (device, ids, db') →
      StageRuns cfg db now (.creating userId name .requireActive)
        (.commits { db' with nextId := db.nextId } (enqueueSyncNodes ids) (.created device)) := by
  unfold createDevice
  simp only [bind, Except.bind, pure, Except.pure]
  cases hactive : requireActiveOwner db userId now with
  | error e =>
      refine ⟨fun e h => ?_, fun device ids db' h => by cases h⟩
      cases h
      exact creating_ends hwf rfl rfl (by simp only [createStep, hactive])
  | ok _ =>
      cases hcapacity : assertDeviceCapacity db userId with
      | error e =>
          refine ⟨fun e h => ?_, fun device ids db' h => by cases h⟩
          cases h
          exact runs_full hwf hactive hcapacity
      | ok _ =>
          dsimp only
          cases hinsert : insertDeviceWithUniqueIp cfg db userId name
              (cfg.generateKeypair db.nextId) now maxIpAllocationAttempts with
          | error e =>
              refine ⟨fun e h => ?_, fun device ids db' h => by cases h⟩
              cases h
              exact runs_checks hwf hactive hcapacity ((runs_allocate hwf _ _).1 e hinsert)
          | ok inserted =>
              refine ⟨(fun e h => by cases h), fun device ids db' h => ?_⟩
              obtain ⟨made, db₁⟩ := inserted
              obtain ⟨rfl, hnew, -, -⟩ := insertDeviceWithUniqueIp_ok hinsert
              cases h
              exact runs_checks hwf hactive hcapacity
                ((runs_allocate hwf _ _).2 made _ hinsert _ (runs_listNodes hwf hnew.id))

theorem runs_create (hwf : db.WF) (userId : UserId) (name : String) :
    ∃ p, StageRuns cfg db now (.guard (.createDevice userId name)) p ∧
      SameAnswer db (pubAddDevice cfg db userId name now) p := by
  have hdraws : ∀ {stage : Stage}, stage.devices = [] → stage.peers = [] →
      stage.Draws db db.nextId := draws_supply hwf
  unfold pubAddDevice
  cases huser : db.user? userId with
  | none =>
      refine ⟨.refuses pageNotFound, .ends (hdraws rfl rfl) ?_, .refused⟩
      simp only [Stage.step, guardRequest, huser]
  | some user =>
      have hid : user.id = userId := Rows.key_of_get? huser
      dsimp only
      simp only [bind, Except.bind, pure, Except.pure]
      cases hguard : guardActiveAccount db user now with
      | error e =>
          refine ⟨.refuses e, .ends (hdraws rfl rfl) ?_, .refused⟩
          simp only [Stage.step, guardRequest, huser, hguard]
      | ok _ =>
          have hexists : ¬(db.user? user.id).isNone := by
            rw [hid, huser]
            exact Bool.false_ne_true
          have hlocked : ∀ p, StageRuns cfg db now (.creating user.id name .requireActive) p →
              StageRuns cfg db now (.guard (.createDevice userId name)) p := by
            intro p hrest
            have hlock : StageRuns cfg db now (.lockToCreate user.id name) p :=
              .next (hdraws rfl rfl) (by simp only [Stage.step, if_neg hexists]) hrest
            exact .next (hdraws rfl rfl) (by simp only [Stage.step, guardRequest, huser, hguard])
              hlock
          dsimp only
          cases hcreate : createDevice cfg db user.id name now with
          | error e => exact ⟨_, hlocked _ ((runs_createDevice hwf).1 e hcreate), .refused⟩
          | ok created =>
              obtain ⟨device, ids, db'⟩ := created
              exact ⟨_, hlocked _ ((runs_createDevice hwf).2 device ids db' hcreate), .committed⟩

/-! ## A deletion and a limit -/

/-- A device with a tombstone gives its address back once all its peers are gone. -/
theorem releaseDeviceIp_tombstoned (db : Db) (hdeleted : device.deletedAt.isSome) :
    (releaseDeviceIp db device now).2 =
      if truthy device.vpnIp &&
          (db.peers.filter (·.deviceId = device.id)).all (·.status = .deleted) then
        db.saveDevice { device with
          releasedVpnIp := device.vpnIp, ipReleasedAt := some now, vpnIp := none }
      else db := by
  have hgone : (((db.peers.filter (·.deviceId = device.id)).map (·.status)).any
      (· ≠ .deleted)) = !(db.peers.filter (·.deviceId = device.id)).all (·.status = .deleted) := by
    rw [List.any_map, List.not_all_eq_any_not]
    simp only [Function.comp_def, decide_not]
  have hnone : device.deletedAt.isNone = false := by
    rw [← Option.not_isSome, hdeleted]
    rfl
  unfold releaseDeviceIp
  dsimp only
  rw [hgone, hnone]
  cases truthy device.vpnIp <;>
    cases (db.peers.filter (·.deviceId = device.id)).all (·.status = .deleted) <;> rfl

/-- The copy that the session loaded is the row, where nothing has come between. -/
theorem tombstoneLoaded_eq (hwf : db.WF) (h : db.device? device.id = some device) :
    tombstoneLoaded db device now = deleteDevice db device.id now := by
  have hd : device ∈ db.devices := Rows.mem_of_get? h
  have hsame : ∀ peer, (deletedDevicePeer device.id peer).deviceId = peer.deviceId := by
    intro peer
    unfold deletedDevicePeer
    split <;> rfl
  have hpeers : (db.peers.map (deletedDevicePeer device.id)).filter (·.deviceId = device.id) =
      (db.peers.filter (·.deviceId = device.id)).map (deletedDevicePeer device.id) := by
    rw [List.filter_map]
    simp only [Function.comp_def, hsame]
  have haffected : ((db.peers.filter (·.deviceId = device.id)).filter (·.status.live)) =
      db.peers.filter fun p => p.deviceId = device.id ∧ p.status.live := by
    rw [List.filter_filter]
    refine List.filter_congr fun peer _ => ?_
    rw [Bool.decide_and, Bool.decide_eq_true, Bool.and_comm]
  have htombstone : (device.deletedAt.or (some now)).isSome := by
    cases device.deletedAt <;> rfl
  have hstamp : (if device.deletedAt.isNone then some now else device.deletedAt) =
      device.deletedAt.or (some now) := by
    cases device.deletedAt <;> rfl
  -- the two writes of the route are one statement here
  let tombstone : Device := { device with deletedAt := device.deletedAt.or (some now) }
  let gone : Device := tombstone.released now
  have htwice : Rows.save Device.id gone (Rows.save Device.id tombstone db.devices) =
      Rows.save Device.id gone db.devices := Rows.save_save rfl
  unfold tombstoneLoaded deleteDevice
  rw [h]
  dsimp only
  rw [haffected, hwf.deviceIds.map_of_key hd rfl, releaseDeviceIp_tombstoned _ htombstone]
  refine Prod.ext rfl ?_
  simp only [Db.mapPeers, Db.saveDevice, hpeers, hstamp]
  cases truthy device.vpnIp &&
      ((db.peers.filter (·.deviceId = device.id)).map (deletedDevicePeer device.id)).all
        (·.status = .deleted) with
  | false => rfl
  | true =>
      exact (congrArg (fun devices => { db with
        devices, peers := db.peers.map (deletedDevicePeer device.id) }) htwice).symm

theorem deleteDevice_nextId (db : Db) (deviceId : DeviceId) (now : Time) :
    (deleteDevice db deviceId now).2.nextId = db.nextId := by
  unfold deleteDevice releaseDeviceIp
  cases db.device? deviceId with
  | none => rfl
  | some device =>
      dsimp only
      split
      · rfl
      · split <;> rfl

theorem runs_delete (hwf : db.WF) (userId : UserId) (deviceId : DeviceId) :
    ∃ p, StageRuns cfg db now (.guard (.deleteDevice userId deviceId)) p ∧
      SameAnswer db (pubDeleteDevice db userId deviceId now) p := by
  have hdraws : ∀ {stage : Stage}, stage.devices = [] → stage.peers = [] →
      stage.Draws db db.nextId := draws_supply hwf
  have hrefuse : guardRequest db now (.deleteDevice userId deviceId) = .refuses pageNotFound →
      StageRuns cfg db now (.guard (.deleteDevice userId deviceId)) (.refuses pageNotFound) :=
    fun h => .ends (hdraws rfl rfl) h
  unfold pubDeleteDevice
  cases huser : db.user? userId with
  | none => exact ⟨_, hrefuse (by simp only [guardRequest, huser]), .refused⟩
  | some user =>
      cases hdevice : db.device? deviceId with
      | none => exact ⟨_, hrefuse (by simp only [guardRequest, huser, hdevice]), .refused⟩
      | some device =>
          dsimp only
          by_cases howner : device.userId ≠ user.id
          · rw [if_pos howner]
            have hforeign : guardRequest db now (.deleteDevice userId deviceId) =
                .refuses pageNotFound := by
              simp only [guardRequest, huser, hdevice, if_pos howner]
            exact ⟨_, hrefuse hforeign, .refused⟩
          · rw [if_neg howner]
            -- guard, owner row, device row, write
            have hid : device.id = deviceId := Rows.key_of_get? hdevice
            have hfound : db.device? device.id = some device := by rw [hid, hdevice]
            have hexists : ¬(db.device? device.id).isNone := by
              rw [hfound]
              exact Bool.false_ne_true
            have hguard : Stage.step cfg db now db.nextId (.guard (.deleteDevice userId deviceId)) =
                .goes (.lockToDelete device) := by
              simp only [Stage.step, guardRequest, huser, hdevice, if_neg howner]
            have hrow : Stage.step cfg db now db.nextId (.lockDevice device) =
                .goes (.tombstone device) := by
              simp only [Stage.step, if_neg hexists]
            have hwrite : Stage.step cfg db now db.nextId (.tombstone device) =
                .commits { (deleteDevice db device.id now).2 with nextId := db.nextId }
                  (enqueueSyncNodes (deleteDevice db device.id now).1) (.deleted device.id) := by
              rw [← deleteDevice_nextId db device.id now]
              simp only [Stage.step, tombstoneLoaded_eq hwf hfound]
            exact ⟨_, .next (hdraws rfl rfl) hguard (.next (hdraws rfl rfl) rfl
              (.next (hdraws rfl rfl) hrow (.ends (hdraws rfl rfl) hwrite))), .committed⟩

theorem runs_limit (hwf : db.WF) (userId : UserId) (deviceLimit : Nat) :
    ∃ p, StageRuns cfg db now (.guard (.updateDeviceLimit userId deviceLimit)) p ∧
      SameAnswer db (apiUpdateDeviceLimit db userId deviceLimit) p := by
  have hdraws : ∀ {stage : Stage}, stage.devices = [] → stage.peers = [] →
      stage.Draws db db.nextId := draws_supply hwf
  have hlock : ∀ p, StageRuns cfg db now (.lockToLimit userId deviceLimit) p →
      StageRuns cfg db now (.guard (.updateDeviceLimit userId deviceLimit)) p :=
    fun p => .next (hdraws rfl rfl) rfl
  unfold apiUpdateDeviceLimit
  cases huser : localUser db userId with
  | error e =>
      exact ⟨_, hlock _ (.ends (hdraws rfl rfl) (by simp only [Stage.step, huser])), .refused⟩
  | ok user =>
      have hstored := (localUser_ok huser).1
      have hid : user.id = userId := Rows.key_of_get? hstored
      subst hid
      have hrows : (db.users.map fun row => if row.id = user.id then { row with deviceLimit }
          else row) = Rows.save User.id { user with deviceLimit } db.users :=
        hwf.userIds.map_of_key
          (Rows.mem_of_get? hstored) rfl
      have hwrite : Stage.step cfg db now db.nextId (.limiting user.id deviceLimit) =
          .commits { db.saveUser { user with deviceLimit } with nextId := db.nextId } []
            (.limited user.id) := by
        simp only [Stage.step, hrows]
        rfl
      exact ⟨_, hlock _ (.next (hdraws rfl rfl) (by simp only [Stage.step, huser])
        (.ends (hdraws rfl rfl) hwrite)), .committed⟩

/-! ## A request as a transaction -/

/-- The route of a request, in one step. -/
def OwnerRequest.route (cfg : Config) (db : Db) (now : Time) : OwnerRequest → Outcome
  | .createDevice userId name => pubAddDevice cfg db userId name now
  | .deleteDevice userId deviceId => pubDeleteDevice db userId deviceId now
  | .updateDeviceLimit userId deviceLimit => apiUpdateDeviceLimit db userId deviceLimit

theorem runs_request (hwf : db.WF) (request : OwnerRequest) :
    ∃ p, StageRuns cfg db now (.guard request) p ∧ SameAnswer db (request.route cfg db now) p := by
  cases request with
  | createDevice userId name => exact runs_create hwf userId name
  | deleteDevice userId deviceId => exact runs_delete hwf userId deviceId
  | updateDeviceLimit userId deviceLimit => exact runs_limit hwf userId deviceLimit

/-- **A request alone.** Begun while no other transaction is under way and run
to its end, a request answers as its route does in one step: the same error, or
the same rows (but for the id supply) and operations. -/
theorem request_alone (cfg : Config) (hwf : db.WF) (operations : List Command) (id : Nat)
    (now : Time) (request : OwnerRequest) :
    ∃ (p : Progress) (evs : List OwnerEvent), (∀ e ∈ evs, e.tx? = some id) ∧
      SameAnswer db (request.route cfg db now) p ∧
      (ownerRequests cfg db operations).replay (.begin id request :: evs) =
        some ((OwnerRows.only db operations id (.guard request)).progress
          { id, stage := .guard request } p) := by
  obtain ⟨p, hruns, hanswer⟩ : ∃ p, StageRuns cfg db now (.guard request) p ∧
      SameAnswer db (request.route cfg db now) p := runs_request hwf request
  obtain ⟨evs, hown, hreplay⟩ := hruns.replay (ownerRequests cfg db operations) rfl operations id
  exact ⟨p, evs, hown, hanswer, hreplay⟩

end VpnPanel.Backend
