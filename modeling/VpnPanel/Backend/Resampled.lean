import VpnPanel.Backend.Retention

/-!
# Requests on other samples

No request reads the samples: on tables with other samples it answers the same
and leaves the same tables, but for the samples. The functions that add or drop
samples do the same to whatever samples there are.
-/

namespace VpnPanel.Backend

open VpnPanel.Lib

variable {cfg : Config} {db : Db} {x : List PeerTrafficSample}

/-- A result with tables, on other samples. -/
def resample {α : Type} (x : List PeerTrafficSample) (result : α × Db) : α × Db :=
  (result.1, result.2.resampled x)

/-! ## Devices -/

theorem insertPeer_resampled (peer : Peer) :
    (db.resampled x).insertPeer peer = (db.insertPeer peer).map (·.resampled x) := by
  unfold Db.insertPeer
  rw [apply_ite (Option.map (Db.resampled · x))]
  rfl

theorem createPendingPeer_resampled (nodeId : NodeId) (device : Device) :
    createPendingPeer cfg (db.resampled x) nodeId device =
      resample x (createPendingPeer cfg db nodeId device) := by
  unfold createPendingPeer
  simp only [insertPeer_resampled, apply_ite (resample x)]
  have hpending : pendingPeer cfg (db.resampled x) nodeId device =
      pendingPeer cfg db nodeId device := rfl
  rw [hpending]
  cases db.insertPeer (pendingPeer cfg db nodeId device) <;> rfl

theorem createPendingPeersOn_resampled (device : Device) (ids : List NodeId) (db : Db) :
    createPendingPeersOn cfg device ids (db.resampled x) =
      resample x (createPendingPeersOn cfg device ids db) := by
  induction ids generalizing db with
  | nil => rfl
  | cons nodeId rest ih =>
      simp only [createPendingPeersOn, createPendingPeer_resampled, resample, ih]

theorem createPendingPeersForDevice_resampled (device : Device) :
    createPendingPeersForDevice cfg (db.resampled x) device =
      resample x (createPendingPeersForDevice cfg db device) :=
  createPendingPeersOn_resampled device _ db

theorem createPendingPeersOf_resampled (nodeId : NodeId) (devices : List Device) (db : Db) :
    createPendingPeersOf cfg nodeId devices (db.resampled x) =
      (createPendingPeersOf cfg nodeId devices db).resampled x := by
  induction devices generalizing db with
  | nil => rfl
  | cons device rest ih =>
      simp only [createPendingPeersOf, createPendingPeer_resampled, resample, ih]

theorem createPendingPeersForNode_resampled (node : Node) :
    createPendingPeersForNode cfg (db.resampled x) node =
      (createPendingPeersForNode cfg db node).resampled x :=
  createPendingPeersOf_resampled node.id _ db

theorem restoreMissingPeersOf_resampled (devices : List Device) (db : Db) :
    restoreMissingPeersOf cfg devices (db.resampled x) =
      resample x (restoreMissingPeersOf cfg devices db) := by
  induction devices generalizing db with
  | nil => rfl
  | cons device rest ih =>
      simp only [restoreMissingPeersOf, createPendingPeersForDevice_resampled, resample, ih]

theorem restoreMissingPeersForUser_resampled (u : UserId) :
    restoreMissingPeersForUser cfg (db.resampled x) u =
      resample x (restoreMissingPeersForUser cfg db u) :=
  restoreMissingPeersOf_resampled _ db

theorem releaseDeviceIp_resampled (device : Device) (at_ : Time) :
    releaseDeviceIp (db.resampled x) device at_ = resample x (releaseDeviceIp db device at_) := by
  unfold releaseDeviceIp
  simp only [apply_ite (resample x)]
  rfl

theorem releaseRows_resampled (at_ : Time) (devices : List Device) (db : Db) :
    devices.foldl (fun db device => (releaseDeviceIp db device at_).2) (db.resampled x) =
      (devices.foldl (fun db device => (releaseDeviceIp db device at_).2) db).resampled x := by
  induction devices generalizing db with
  | nil => rfl
  | cons device rest ih =>
      rw [List.foldl_cons, List.foldl_cons, releaseDeviceIp_resampled]
      exact ih _

theorem releaseDeviceIps_resampled (ids : List DeviceId) (at_ : Time) :
    releaseDeviceIps (db.resampled x) ids at_ = (releaseDeviceIps db ids at_).resampled x :=
  releaseRows_resampled at_ _ db

theorem insertDevice_resampled (device : Device) :
    (db.resampled x).insertDevice device = (db.insertDevice device).map (·.resampled x) := by
  have hconflict : (db.resampled x).deviceConflict? device = db.deviceConflict? device := rfl
  unfold Db.insertDevice
  rw [hconflict]
  cases db.deviceConflict? device <;> rfl

theorem insertDeviceWithUniqueIp_resampled (u : UserId) (name : String)
    (keypair : String × String) (now : Time) (attempts : Nat) :
    insertDeviceWithUniqueIp cfg (db.resampled x) u name keypair now attempts =
      (insertDeviceWithUniqueIp cfg db u name keypair now attempts).map (resample x) := by
  induction attempts with
  | zero => rfl
  | succ attempts ih =>
      have hip : allocateDeviceIp cfg (db.resampled x) = allocateDeviceIp cfg db := rfl
      have hid : (db.resampled x).nextId = db.nextId := rfl
      simp only [insertDeviceWithUniqueIp, hip, hid, insertDevice_resampled, ih]
      cases allocateDeviceIp cfg db with
      | none => rfl
      | some vpnIp =>
          dsimp only
          cases db.insertDevice _ with
          | ok db' => rfl
          | error conflict => cases conflict <;> rfl

theorem createDevice_resampled (u : UserId) (name : String) (now : Time) :
    createDevice cfg (db.resampled x) u name now =
      (createDevice cfg db u name now).map fun made =>
        (made.1, made.2.1, made.2.2.resampled x) := by
  have howner : requireActiveOwner (db.resampled x) u now = requireActiveOwner db u now := rfl
  have hcapacity : assertDeviceCapacity (db.resampled x) u = assertDeviceCapacity db u := rfl
  unfold createDevice
  rw [howner, hcapacity, insertDeviceWithUniqueIp_resampled]
  show _ = Except.map _ (requireActiveOwner db u now >>= fun _ => _)
  cases requireActiveOwner db u now with
  | error e => rfl
  | ok _ =>
      cases assertDeviceCapacity db u with
      | error e => rfl
      | ok _ =>
          show ((insertDeviceWithUniqueIp cfg db u name (cfg.generateKeypair db.nextId) now
            maxIpAllocationAttempts).map (resample x) >>= fun _ => _) =
              Except.map _ (insertDeviceWithUniqueIp cfg db u name
                (cfg.generateKeypair db.nextId) now maxIpAllocationAttempts >>= fun _ => _)
          cases insertDeviceWithUniqueIp cfg db u name (cfg.generateKeypair db.nextId) now
              maxIpAllocationAttempts with
          | error e => rfl
          | ok made =>
              have hpeers : createPendingPeersForDevice cfg (made.2.resampled x) made.1 =
                  resample x (createPendingPeersForDevice cfg made.2 made.1) :=
                createPendingPeersForDevice_resampled made.1
              exact congrArg (fun peers : List NodeId × Db => Except.ok (made.1, peers)) hpeers

theorem deleteDevice_resampled (deviceId : DeviceId) (at_ : Time) :
    deleteDevice (db.resampled x) deviceId at_ = resample x (deleteDevice db deviceId at_) := by
  have hdevice : (db.resampled x).device? deviceId = db.device? deviceId := rfl
  unfold deleteDevice
  rw [hdevice]
  cases db.device? deviceId with
  | none => rfl
  | some device =>
      let deleted : Device := { device with deletedAt := device.deletedAt.or (some at_) }
      let written := (db.saveDevice deleted).mapPeers (deletedDevicePeer deviceId)
      have hrelease : releaseDeviceIp (written.resampled x) deleted at_ =
          resample x (releaseDeviceIp written deleted at_) := releaseDeviceIp_resampled deleted at_
      exact congrArg (fun released : Bool × Db => (_, released.2)) hrelease

/-! ## Lifecycle -/

theorem transitionPeers_resampled (loaded : List PeerId) (shouldBlock : Bool) :
    transitionPeers (db.resampled x) loaded shouldBlock =
      resample x (transitionPeers db loaded shouldBlock) := rfl

theorem saveUser_resampled (user : User) :
    (db.resampled x).saveUser user = (db.saveUser user).resampled x := rfl

theorem saveProfile_resampled (row : RemnawaveUser) :
    (db.resampled x).saveProfile row = (db.saveProfile row).resampled x := rfl

theorem applyLocalLifecycleState_resampled (user : User) (total : Option Nat) (now : Time) :
    applyLocalLifecycleState cfg (db.resampled x) user total now =
      resample x (applyLocalLifecycleState cfg db user total now) := by
  have htotal : loadLocalTotalBytes (db.resampled x) user.id = loadLocalTotalBytes db user.id :=
    rfl
  have hpeers : ∀ db : Db, loadPeers (db.resampled x) user.id = loadPeers db user.id :=
    fun _ => rfl
  unfold applyLocalLifecycleState
  simp only [htotal, saveUser_resampled, hpeers, transitionPeers_resampled, resample,
    restoreMissingPeersForUser_resampled]
  split <;> rfl

theorem enforceLocalLifecycleForUser_resampled (u : UserId) (now : Time) :
    enforceLocalLifecycleForUser cfg (db.resampled x) u now =
      resample x (enforceLocalLifecycleForUser cfg db u now) := by
  have huser : (db.resampled x).user? u = db.user? u := rfl
  unfold enforceLocalLifecycleForUser
  simp only [huser, applyLocalLifecycleState_resampled]
  cases db.user? u with
  | none => rfl
  | some user =>
      dsimp only
      rw [apply_ite (resample x)]
      rfl

theorem resetLocalTrafficUsage_resampled (user : User) (at_ : Time) :
    resetLocalTrafficUsage (db.resampled x) user at_ =
      resample x (resetLocalTrafficUsage db user at_) := rfl

/-! ## Imported accounts -/

theorem applyRemnawaveLifecycle_resampled (user : User) (loaded : List PeerId)
    (data : RemnawaveUserIn) (now : Time) :
    applyRemnawaveLifecycle cfg (db.resampled x) user loaded data now =
      resample x (applyRemnawaveLifecycle cfg db user loaded data now) := by
  unfold applyRemnawaveLifecycle
  simp only [saveUser_resampled, transitionPeers_resampled, resample,
    restoreMissingPeersForUser_resampled]
  split
  · rfl
  · split <;> rfl

theorem enforceRemnawaveCombinedLimit_resampled (row : RemnawaveUser) :
    enforceRemnawaveCombinedLimit (db.resampled x) row =
      resample x (enforceRemnawaveCombinedLimit db row) := by
  have huser : (db.resampled x).user? row.userId = db.user? row.userId := rfl
  unfold enforceRemnawaveCombinedLimit
  rw [huser, apply_ite (resample x)]
  cases db.user? row.userId <;> rfl

theorem enforceRemnawaveCombinedLimitForUser_resampled (u : UserId) :
    enforceRemnawaveCombinedLimitForUser (db.resampled x) u =
      resample x (enforceRemnawaveCombinedLimitForUser db u) := by
  have hrow : (db.resampled x).profileOf? u = db.profileOf? u := rfl
  unfold enforceRemnawaveCombinedLimitForUser
  rw [hrow]
  cases db.profileOf? u with
  | none => rfl
  | some row => exact enforceRemnawaveCombinedLimit_resampled row

theorem createRemnawaveRow_resampled (item : RemnawaveUserIn) (now : Time) :
    createRemnawaveRow (db.resampled x) item now =
      (createRemnawaveRow db item now).map (resample x) := by
  have hinsert : ∀ user : User, (db.resampled x).insertUser user =
      (db.insertUser user).map (·.resampled x) := by
    intro user
    unfold Db.insertUser
    rw [apply_ite (Option.map (Db.resampled · x))]
    rfl
  have hprofile : ∀ (db : Db) (row : RemnawaveUser), (db.resampled x).insertProfile row =
      (db.insertProfile row).map (·.resampled x) := by
    intro db row
    unfold Db.insertProfile
    rw [apply_ite (Option.map (Db.resampled · x))]
    rfl
  have hid : (db.resampled x).nextId = db.nextId := rfl
  have hname : resolveRemnawaveUsername (db.resampled x) item.username item.shortUuid =
      resolveRemnawaveUsername db item.username item.shortUuid := rfl
  unfold createRemnawaveRow
  simp only [hinsert, hid, hname]
  cases db.insertUser _ with
  | none => rfl
  | some made =>
      simp only [Option.map_some, Option.bind_some, hprofile]
      cases made.insertProfile _ <;> rfl

/-- The loop's state on other samples. -/
def UpsertState.resampled (st : UpsertState) (x : List PeerTrafficSample) : UpsertState :=
  { st with db := st.db.resampled x }

theorem finishUpsert_resampled {st : UpsertState} (db : Db) (row : RemnawaveUser)
    (loaded : List PeerId) (created : List NodeId) (item : RemnawaveUserIn) (now : Time) :
    finishUpsert (st.resampled x) (db.resampled x) row loaded created item now =
      (finishUpsert st db row loaded created item now).resampled x := by
  unfold finishUpsert
  simp only [saveProfile_resampled, enforceRemnawaveCombinedLimit_resampled, resample]
  rfl

theorem upsertItem_resampled {st : UpsertState} (item : RemnawaveUserIn) (now : Time) :
    upsertItem cfg (st.resampled x) item now =
      (upsertItem cfg st item now).map (·.resampled x) := by
  have hrow : (st.db.resampled x).profiles = st.db.profiles := rfl
  have huser : ∀ u, (st.db.resampled x).user? u = st.db.user? u := fun _ => rfl
  have hdb : (st.resampled x).db = st.db.resampled x := rfl
  unfold upsertItem
  simp only [hdb, hrow, huser]
  cases st.db.profiles.find? (·.remnawaveUuid = item.uuid) with
  | none =>
      dsimp only
      rw [createRemnawaveRow_resampled]
      cases createRemnawaveRow st.db item now with
      | none => rfl
      | some made => exact congrArg some (finishUpsert_resampled made.2 made.1 _ [] item now)
  | some row =>
      dsimp only
      cases st.db.user? row.userId with
      | none => rfl
      | some user =>
          simp only [Option.map_some, applyRemnawaveLifecycle_resampled, resample,
            finishUpsert_resampled]
          rfl

theorem upsertItems_resampled (items : List RemnawaveUserIn) (now : Time) (st : UpsertState) :
    upsertItems cfg now items (st.resampled x) =
      (upsertItems cfg now items st).map (·.resampled x) := by
  induction items generalizing st with
  | nil => rfl
  | cons item rest ih =>
      unfold upsertItems
      rw [upsertItem_resampled]
      cases upsertItem cfg st item now with
      | none => rfl
      | some st' => exact ih st'

theorem markRemnawaveUserStale_resampled (row : RemnawaveUser) :
    markRemnawaveUserStale (db.resampled x) row = resample x (markRemnawaveUserStale db row) := by
  have huser : (db.resampled x).user? row.userId = db.user? row.userId := rfl
  unfold markRemnawaveUserStale
  rw [huser]
  cases db.user? row.userId <;> rfl

theorem markRowsStale_resampled (rows : List RemnawaveUser) (db : Db) :
    markRowsStale rows (db.resampled x) = resample x (markRowsStale rows db) := by
  induction rows generalizing db with
  | nil => rfl
  | cons row rest ih => simp only [markRowsStale, markRemnawaveUserStale_resampled, resample, ih]

theorem reconcileMissingRemnawaveUsers_resampled (seen : List String) :
    reconcileMissingRemnawaveUsers (db.resampled x) seen =
      resample x (reconcileMissingRemnawaveUsers db seen) := markRowsStale_resampled _ db

theorem requestRemnawaveDelete_resampled (row : RemnawaveUser) (user : User) (now : Time) :
    requestRemnawaveDelete (db.resampled x) row user now =
      resample x (requestRemnawaveDelete db row user now) := rfl

/-! ## Samples that are added and dropped -/

/-- A relation of sample tables that the same additions and removals keep. -/
structure Sampling (R : List PeerTrafficSample → List PeerTrafficSample → Prop) : Prop where
  append : ∀ {a b}, R a b → ∀ added, R (a ++ added) (b ++ added)
  filter : ∀ {a b}, R a b → ∀ p, R (a.filter p) (b.filter p)

@[simp] theorem resampled_samples (db : Db) (x : List PeerTrafficSample) :
    (db.resampled x).traffic.samples = x := rfl

/-- What commutes with a change of the samples does not touch them. -/
theorem samples_of_resampled {f : Db → Db} (h : ∀ x, f (db.resampled x) = (f db).resampled x) :
    (f db).traffic.samples = db.traffic.samples :=
  congrArg (·.traffic.samples) (h db.traffic.samples)

/-- The traffic tables with other samples. -/
def Traffic.resampled (traffic : Traffic) (x : List PeerTrafficSample) : Traffic :=
  { traffic with samples := x }

theorem applyPeerEndpointSession_resampled (traffic : Traffic) (peer : Peer)
    (data : PeerSyncResult) (now : Time) :
    applyPeerEndpointSession (traffic.resampled x) peer data now =
      (applyPeerEndpointSession traffic peer data now).resampled x := by
  have hlatest : latestSession (traffic.resampled x).sessions peer.id =
      latestSession traffic.sessions peer.id := rfl
  unfold applyPeerEndpointSession
  cases data.endpoint.join with
  | none => rfl
  | some endpoint =>
      dsimp only
      rw [apply_ite (Traffic.resampled · x), hlatest]
      cases latestSession traffic.sessions peer.id with
      | none => rfl
      | some session =>
          simp only [apply_ite (Traffic.resampled · x)]
          rfl

/-- A reading adds its sample, if it has one. -/
theorem recordReading_resampled (traffic : Traffic) (peer : Peer) (rx tx : Nat) (now : Time) :
    recordReading (traffic.resampled x) peer rx tx now =
      ((recordReading traffic peer rx tx now).1, (recordReading traffic peer rx tx now).2.resampled
        (x ++ (recordReading traffic peer rx tx now).1.toList)) := by
  unfold recordReading
  dsimp only
  split
  · simp
  · rfl

theorem recordReading_samples (traffic : Traffic) (peer : Peer) (rx tx : Nat) (now : Time) :
    (recordReading traffic peer rx tx now).2.samples =
      traffic.samples ++ (recordReading traffic peer rx tx now).1.toList := by
  unfold recordReading
  dsimp only
  split
  · simp
  · rfl

theorem applyPeerResult_resampled (peer : Peer) (data : PeerSyncResult) (now : Time) :
    applyPeerResult (db.resampled x) peer data now =
      resample (x ++ (applyPeerResult db peer data now).1.toList)
        (applyPeerResult db peer data now) := by
  have hdevice : (db.resampled x).device? peer.deviceId = db.device? peer.deviceId := rfl
  have htraffic : (db.resampled x).traffic = db.traffic.resampled x := rfl
  unfold applyPeerResult
  rw [hdevice, htraffic, applyPeerEndpointSession_resampled]
  cases data.rxBytes with
  | none =>
      show _ = resample (x ++ []) _
      rw [List.append_nil]
      rfl
  | some rx =>
      cases data.txBytes with
      | none =>
          show _ = resample (x ++ []) _
          rw [List.append_nil]
          rfl
      | some tx =>
          simp only [recordReading_resampled]
          rfl

theorem applyPeerResult_samples (peer : Peer) (data : PeerSyncResult) (now : Time) :
    (applyPeerResult db peer data now).2.traffic.samples =
      db.traffic.samples ++ (applyPeerResult db peer data now).1.toList := by
  obtain ⟨sessions, nextSessionId, hsession⟩ := applyPeerEndpointSession_eq db.traffic peer data now
  unfold applyPeerResult
  rw [hsession]
  cases data.rxBytes with
  | none => exact (List.append_nil _).symm
  | some rx =>
      cases data.txBytes with
      | none => exact (List.append_nil _).symm
      | some tx => exact recordReading_samples _ peer rx tx now

/-! ## Node results -/

/-- The loop's state on other samples. -/
def PeerResults.resampled (st : PeerResults) (x : List PeerTrafficSample) : PeerResults :=
  { st with db := st.db.resampled x }

theorem enforceLimits_resampled (st : PeerResults) (u : UserId) (now : Time) :
    enforceLimits cfg (st.resampled x) u now = (enforceLimits cfg st u now).resampled x := by
  have hdb : (st.resampled x).db = st.db.resampled x := rfl
  unfold enforceLimits
  simp only [hdb, enforceLocalLifecycleForUser_resampled, resample,
    enforceRemnawaveCombinedLimitForUser_resampled]
  rfl

theorem enforceLimits_samples (st : PeerResults) (u : UserId) (now : Time) :
    (enforceLimits cfg st u now).db.traffic.samples = st.db.traffic.samples :=
  congrArg (·.db.traffic.samples)
    (enforceLimits_resampled (x := st.db.traffic.samples) st u now)

section Sampling

variable {R : List PeerTrafficSample → List PeerTrafficSample → Prop}

/-- The same result on other samples, related by `R`. -/
def PeerResults.Alike (R : List PeerTrafficSample → List PeerTrafficSample → Prop)
    (st st' : PeerResults) : Prop :=
  ∃ y, st' = st.resampled y ∧ R st.db.traffic.samples y

theorem applyPeerEntry_alike (hR : Sampling R) (loaded : String → Option PeerId)
    {st st' : PeerResults} (h : st.Alike R st') (data : PeerSyncResult) (now : Time) :
    (applyPeerEntry cfg loaded st data now).Alike R (applyPeerEntry cfg loaded st' data now) := by
  obtain ⟨x, rfl, hx⟩ := h
  have hpeer : (loaded data.publicKey).bind (st.resampled x).db.peer? =
      (loaded data.publicKey).bind st.db.peer? := rfl
  unfold applyPeerEntry
  rw [hpeer]
  cases (loaded data.publicKey).bind st.db.peer? with
  | none => exact ⟨x, rfl, hx⟩
  | some peer =>
      let added := (applyPeerResult st.db peer data now).1.toList
      let applied : PeerResults := { st with
        db := (applyPeerResult st.db peer data now).2
        acknowledgedOwnerIds := st.acknowledgedOwnerIds ++ [peer.userId] }
      have hnext : R applied.db.traffic.samples (x ++ added) := by
        show R (applyPeerResult st.db peer data now).2.traffic.samples _
        rw [applyPeerResult_samples]
        exact hR.append hx added
      have hlimits : enforceLimits cfg (applied.resampled (x ++ added)) peer.userId now =
          (enforceLimits cfg applied peer.userId now).resampled (x ++ added) :=
        enforceLimits_resampled applied peer.userId now
      have hdb : (st.resampled x).db = st.db.resampled x := rfl
      simp only [hdb, applyPeerResult_resampled, resample]
      split
      · refine ⟨x ++ added, hlimits, ?_⟩
        rw [enforceLimits_samples]
        exact hnext
      · exact ⟨x ++ added, rfl, hnext⟩

theorem applyPeerEntries_alike (hR : Sampling R) (loaded : String → Option PeerId) (now : Time)
    (entries : List PeerSyncResult) {st st' : PeerResults} (h : st.Alike R st') :
    (applyPeerEntries cfg loaded now entries st).Alike R
      (applyPeerEntries cfg loaded now entries st') := by
  induction entries generalizing st st' with
  | nil => exact h
  | cons data rest ih => exact ih (applyPeerEntry_alike hR loaded h data now)

theorem applyPeerResults_alike (cfg : Config) (hR : Sampling R) (hx : R db.traffic.samples x)
    (nodeId : NodeId) (results : List PeerSyncResult) (now : Time) :
    (applyPeerResults cfg db nodeId results now).Alike R
      (applyPeerResults cfg (db.resampled x) nodeId results now) :=
  applyPeerEntries_alike hR _ now results ⟨x, rfl, hx⟩

theorem confirmRemovals_alike (cfg : Config) (hR : Sampling R) (hx : R db.traffic.samples x)
    (nodeId : NodeId) (data : SyncResult) (now : Time) :
    (confirmRemovals cfg db nodeId data now).Alike R
      (confirmRemovals cfg (db.resampled x) nodeId data now) := by
  obtain ⟨y, heq, hy⟩ := applyPeerResults_alike cfg hR hx nodeId data.peers now
  unfold confirmRemovals
  rw [heq]
  exact ⟨y, rfl, hy⟩

/-- An account deletion drops the same samples everywhere. -/
theorem deleteUser_resampled (id : UserId) :
    (db.resampled x).deleteUser id = (db.deleteUser id).resampled
      (x.filter fun row => !(db.peersOf id).any (·.id = row.peerId)) := rfl

theorem deleteNode_resampled (id : NodeId) :
    (db.resampled x).deleteNode id = (db.deleteNode id).resampled
      (x.filter fun row => !(db.peersOfNode id).any (·.id = row.peerId)) := rfl

theorem purge_alike (hR : Sampling R) (rows : List RemnawaveUser) {db : Db}
    {x : List PeerTrafficSample} (hx : R db.traffic.samples x) :
    ∃ y, rows.foldl (fun db row => db.deleteUser row.userId) (db.resampled x) =
        (rows.foldl (fun db row => db.deleteUser row.userId) db).resampled y ∧
      R (rows.foldl (fun db row => db.deleteUser row.userId) db).traffic.samples y := by
  induction rows generalizing db x with
  | nil => exact ⟨x, rfl, hx⟩
  | cons row rest ih =>
      have hnext : R (db.deleteUser row.userId).traffic.samples
          (x.filter fun sample => !(db.peersOf row.userId).any (·.id = sample.peerId)) :=
        hR.filter hx _
      exact ih hnext

theorem purgeConfirmedRemnawaveDeletes_alike (hR : Sampling R) (hx : R db.traffic.samples x) :
    ∃ y, purgeConfirmedRemnawaveDeletes (db.resampled x) =
        resample y (purgeConfirmedRemnawaveDeletes db) ∧
      R (purgeConfirmedRemnawaveDeletes db).2.traffic.samples y := by
  obtain ⟨y, heq, hy⟩ := purge_alike hR (db.profiles.filter (purgeable db)) hx
  exact ⟨y, congrArg (Prod.mk _) heq, hy⟩

theorem releaseDeviceIps_samples (ids : List DeviceId) (now : Time) :
    (releaseDeviceIps db ids now).traffic.samples = db.traffic.samples :=
  congrArg (·.traffic.samples) (releaseDeviceIps_resampled (x := db.traffic.samples) ids now)

theorem releaseThenPurge_alike (hR : Sampling R) (hx : R db.traffic.samples x)
    (ids : List DeviceId) (now : Time) :
    ∃ y, (purgeConfirmedRemnawaveDeletes (releaseDeviceIps (db.resampled x) ids now)).2 =
        (purgeConfirmedRemnawaveDeletes (releaseDeviceIps db ids now)).2.resampled y ∧
      R (purgeConfirmedRemnawaveDeletes (releaseDeviceIps db ids now)).2.traffic.samples y := by
  have hreleased : R (releaseDeviceIps db ids now).traffic.samples x := by
    rw [releaseDeviceIps_samples]
    exact hx
  obtain ⟨y, hpurged, hy⟩ := purgeConfirmedRemnawaveDeletes_alike hR hreleased
  rw [releaseDeviceIps_resampled, hpurged]
  exact ⟨y, rfl, hy⟩

theorem applySyncResult_alike (cfg : Config) (hR : Sampling R) (hx : R db.traffic.samples x)
    (node : Node) (data : SyncResult) (now : Time) :
    (applySyncResult cfg db node data now).Alike R
      (applySyncResult cfg (db.resampled x) node data now) := by
  let synced := db.saveNode (syncedNode node data now)
  have hsynced : R synced.traffic.samples x := hx
  have hstart : (db.resampled x).saveNode (syncedNode node data now) = synced.resampled x := rfl
  obtain ⟨y, heq, hy⟩ := confirmRemovals_alike cfg hR hsynced node.id data now
  let results := confirmRemovals cfg synced node.id data now
  obtain ⟨z, htail, hz⟩ :=
    releaseThenPurge_alike hR hy (releasedCandidates results.db node.id) now
  unfold applySyncResult
  rw [hstart, heq]
  exact ⟨z, congrArg (fun db => { results with db }) htail, hz⟩

theorem applyHeartbeatResult_alike (cfg : Config) (hR : Sampling R) (hx : R db.traffic.samples x)
    (node : Node) (data : HeartbeatResult) (now : Time) :
    (applyHeartbeatResult cfg db node data now).Alike R
      (applyHeartbeatResult cfg (db.resampled x) node data now) := by
  let seen := db.saveNode (applyNodeHeartbeatResult node data now)
  have hseen : R seen.traffic.samples x := hx
  unfold applyHeartbeatResult
  dsimp only
  split
  · exact applyPeerResults_alike cfg hR hseen node.id data.peers now
  · exact ⟨x, rfl, hx⟩

end Sampling

/-! ## Requests -/

/-- The same answer with other samples. -/
def Effect.resampled (effect : Effect) (x : List PeerTrafficSample) : Effect :=
  { effect with db := effect.db.resampled x }

/-- The same error, or the same answer on other samples, related by `R`. -/
def Outcome.Alike (R : List PeerTrafficSample → List PeerTrafficSample → Prop) :
    Outcome → Outcome → Prop
  | .error e, .error e' => e' = e
  | .ok effect, .ok effect' => ∃ y, effect' = effect.resampled y ∧ R effect.db.traffic.samples y
  | _, _ => False

/-- A request that commutes with a change of the samples. -/
def Unsampled (route : Db → Outcome) : Prop :=
  ∀ db x, route (db.resampled x) = (route db).map (·.resampled x)

section Routes

variable {R : List PeerTrafficSample → List PeerTrafficSample → Prop} {now : Time}

theorem Unsampled.alike {route : Db → Outcome} (h : Unsampled route)
    (hx : R db.traffic.samples x) : (route db).Alike R (route (db.resampled x)) := by
  have hself := h db db.traffic.samples
  rw [h db x]
  cases hok : route db with
  | error e => rfl
  | ok effect =>
      have hsamples : effect.db.traffic.samples = db.traffic.samples := by
        rw [show db.resampled db.traffic.samples = db from rfl, hok] at hself
        exact congrArg (·.db.traffic.samples) (Except.ok.inj hself)
      exact ⟨x, rfl, hsamples ▸ hx⟩

/-- A route of a local account commutes where its continuation does. -/
theorem localUser_unsampled {u : UserId} {f : Db → User → Outcome}
    (h : ∀ user, Unsampled fun db => f db user) :
    Unsampled fun db => localUser db u >>= f db := by
  intro db x
  have huser : localUser (db.resampled x) u = localUser db u := rfl
  dsimp only
  rw [huser]
  cases localUser db u with
  | error e => rfl
  | ok user => exact h user db x

theorem commitLifecycle_resampled (user : User) (total : Option Nat) :
    commitLifecycle cfg (db.resampled x) user total now =
      (commitLifecycle cfg db user total now).resampled x := by
  unfold commitLifecycle
  rw [applyLocalLifecycleState_resampled]
  rfl

theorem commitLifecycle_unsampled (user : User) (total : Option Nat) :
    Unsampled fun db => .ok (commitLifecycle cfg db user total now) :=
  fun _ _ => congrArg Except.ok (commitLifecycle_resampled user total)

theorem apiAddUser_unsampled (name : String) (limit : Nat) :
    Unsampled fun db => apiAddUser db name limit := by
  intro db x
  have hinsert : (db.resampled x).insertUser { id := db.nextId, name, deviceLimit := limit } =
      (db.insertUser { id := db.nextId, name, deviceLimit := limit }).map (·.resampled x) := by
    unfold Db.insertUser
    rw [apply_ite (Option.map (Db.resampled · x))]
    rfl
  have hid : (db.resampled x).nextId = db.nextId := rfl
  simp only [apiAddUser, hid, hinsert]
  cases db.insertUser { id := db.nextId, name, deviceLimit := limit } <;> rfl

theorem apiUnblockUser_unsampled (u : UserId) :
    Unsampled fun db => apiUnblockUser cfg db u now := by
  refine localUser_unsampled fun user db x => ?_
  have htotal : loadLocalTotalBytes (db.resampled x) user.id = loadLocalTotalBytes db user.id :=
    rfl
  dsimp only
  rw [htotal, apply_ite (Except.map (Effect.resampled · x))]
  split
  · rfl
  · exact commitLifecycle_unsampled _ _ db x

theorem apiResetLocalTraffic_unsampled (u : UserId) :
    Unsampled fun db => apiResetLocalTraffic cfg db u now := by
  refine localUser_unsampled fun user db x => ?_
  dsimp only
  rw [apply_ite (Except.map (Effect.resampled · x))]
  split
  · rfl
  · exact commitLifecycle_unsampled _ _ (resetLocalTrafficUsage db user now).2 x

theorem apiAddNode_unsampled (data : NodeIn) : Unsampled fun db => apiAddNode cfg db data := by
  intro db x
  unfold apiAddNode
  have hinsert : ∀ node, (db.resampled x).insertNode node = (db.insertNode node).resampled x :=
    fun _ => rfl
  simp only [hinsert, createPendingPeersForNode_resampled]
  rfl

theorem apiUpdateNode_unsampled (nodeId : NodeId) (data : NodeUpdate) :
    Unsampled fun db => apiUpdateNode db nodeId data := by
  intro db x
  have hnode : (db.resampled x).node? nodeId = db.node? nodeId := rfl
  unfold apiUpdateNode
  dsimp only
  rw [hnode]
  cases db.node? nodeId <;> rfl

theorem pubAddDevice_unsampled (u : UserId) (name : String) :
    Unsampled fun db => pubAddDevice cfg db u name now := by
  intro db x
  have huser : (db.resampled x).user? u = db.user? u := rfl
  unfold pubAddDevice
  dsimp only
  rw [huser]
  cases db.user? u with
  | none => rfl
  | some user =>
      have hguard : guardActiveAccount (db.resampled x) user now =
          guardActiveAccount db user now := rfl
      dsimp only
      rw [hguard, createDevice_resampled]
      cases guardActiveAccount db user now with
      | error e => rfl
      | ok _ => cases createDevice cfg db user.id name now <;> rfl

theorem pubDeleteDevice_unsampled (u : UserId) (deviceId : DeviceId) :
    Unsampled fun db => pubDeleteDevice db u deviceId now := by
  intro db x
  have huser : (db.resampled x).user? u = db.user? u := rfl
  have hdevice : (db.resampled x).device? deviceId = db.device? deviceId := rfl
  unfold pubDeleteDevice
  dsimp only
  rw [huser, hdevice]
  cases db.user? u with
  | none => rfl
  | some user =>
      cases db.device? deviceId with
      | none => rfl
      | some device =>
          dsimp only
          rw [deleteDevice_resampled, apply_ite (Except.map (Effect.resampled · x))]
          rfl

theorem upsertRemnawaveUsers_unsampled (data : List RemnawaveUserIn) :
    Unsampled fun db => upsertRemnawaveUsers cfg db data now := by
  intro db x
  have hitems : upsertItems cfg now data { db := db.resampled x } =
      (upsertItems cfg now data { db }).map (·.resampled x) := upsertItems_resampled data now { db }
  unfold upsertRemnawaveUsers
  dsimp only
  rw [hitems]
  cases upsertItems cfg now data { db } <;> rfl

theorem markRemnawaveUserDeleted_unsampled (uuid : String) :
    Unsampled fun db => markRemnawaveUserDeleted db uuid now := by
  intro db x
  have hrows : (db.resampled x).profiles = db.profiles := rfl
  have huser : ∀ u, (db.resampled x).user? u = db.user? u := fun _ => rfl
  unfold markRemnawaveUserDeleted
  dsimp only
  rw [hrows]
  cases db.profiles.find? (·.remnawaveUuid = uuid) with
  | none => rfl
  | some row =>
      dsimp only
      rw [huser]
      cases db.user? row.userId <;> rfl

theorem apiDeleteUser_alike (hR : Sampling R) (hx : R db.traffic.samples x) (u : UserId) :
    (apiDeleteUser db u).Alike R (apiDeleteUser (db.resampled x) u) := by
  have huser : localUser (db.resampled x) u = localUser db u := rfl
  unfold apiDeleteUser
  rw [huser]
  cases localUser db u with
  | error e => rfl
  | ok user => exact ⟨_, rfl, hR.filter hx _⟩

theorem apiDeleteNode_alike (hR : Sampling R) (hx : R db.traffic.samples x) (nodeId : NodeId) :
    (apiDeleteNode db nodeId now).Alike R (apiDeleteNode (db.resampled x) nodeId now) := by
  have hnode : (db.resampled x).node? nodeId = db.node? nodeId := rfl
  unfold apiDeleteNode
  rw [hnode]
  cases db.node? nodeId with
  | none => rfl
  | some node =>
      dsimp only
      rw [deleteNode_resampled, releaseDeviceIps_resampled]
      refine ⟨_, rfl, ?_⟩
      dsimp only
      rw [releaseDeviceIps_samples]
      exact hR.filter hx _

theorem remnawaveReconcileComplete_alike (hR : Sampling R) (hx : R db.traffic.samples x)
    (seen : List String) : (remnawaveReconcileComplete db seen).Alike R
      (remnawaveReconcileComplete (db.resampled x) seen) := by
  have hstale : R (reconcileMissingRemnawaveUsers db seen).2.traffic.samples x := by
    rw [show (reconcileMissingRemnawaveUsers db seen).2.traffic.samples = db.traffic.samples from
      congrArg (·.2.traffic.samples)
        (reconcileMissingRemnawaveUsers_resampled (x := db.traffic.samples) seen)]
    exact hx
  obtain ⟨y, hpurged, hy⟩ := purgeConfirmedRemnawaveDeletes_alike hR hstale
  unfold remnawaveReconcileComplete
  rw [reconcileMissingRemnawaveUsers_resampled]
  dsimp only [resample]
  rw [hpurged]
  exact ⟨y, rfl, hy⟩

theorem nodeSyncResult_alike (hR : Sampling R) (hx : R db.traffic.samples x) (nodeId : NodeId)
    (data : SyncResult) : (nodeSyncResult cfg db nodeId data now).Alike R
      (nodeSyncResult cfg (db.resampled x) nodeId data now) := by
  have hnode : (db.resampled x).node? nodeId = db.node? nodeId := rfl
  unfold nodeSyncResult
  rw [hnode]
  cases db.node? nodeId with
  | none => rfl
  | some node =>
      dsimp only
      split
      · exact ⟨x, rfl, hx⟩
      · obtain ⟨y, heq, hy⟩ := applySyncResult_alike cfg hR hx node data now
        rw [heq]
        exact ⟨y, rfl, hy⟩

theorem nodeHeartbeatResult_alike (hR : Sampling R) (hx : R db.traffic.samples x)
    (nodeId : NodeId) (data : HeartbeatResult) :
    (nodeHeartbeatResult cfg db nodeId data now).Alike R
      (nodeHeartbeatResult cfg (db.resampled x) nodeId data now) := by
  have hnode : (db.resampled x).node? nodeId = db.node? nodeId := rfl
  unfold nodeHeartbeatResult
  rw [hnode]
  cases db.node? nodeId with
  | none => rfl
  | some node =>
      obtain ⟨y, heq, hy⟩ := applyHeartbeatResult_alike cfg hR hx node data now
      dsimp only
      rw [heq]
      exact ⟨y, rfl, hy⟩

/-- **Requests.** On other samples every request answers the same. -/
theorem handle_alike (cfg : Config) (hR : Sampling R) (hx : R db.traffic.samples x) (now : Time)
    (request : Request) :
    (handle cfg db now request).Alike R (handle cfg (db.resampled x) now request) := by
  cases request with
  | addUser name limit => exact (apiAddUser_unsampled name limit).alike hx
  | updateDeviceLimit u limit =>
      exact (localUser_unsampled (u := u) (f := fun db user =>
        .ok { db := db.saveUser { user with deviceLimit := limit } }) fun _ _ _ => rfl).alike hx
  | blockUser u =>
      exact (localUser_unsampled (u := u) fun user =>
        commitLifecycle_unsampled { user with lifecycleStatus := .blocked } none).alike hx
  | unblockUser u => exact (apiUnblockUser_unsampled u).alike hx
  | updateLocalLifecycle u data =>
      exact (localUser_unsampled (u := u) fun user =>
        commitLifecycle_unsampled (data.apply user) none).alike hx
  | resetLocalTraffic u => exact (apiResetLocalTraffic_unsampled u).alike hx
  | deleteUser u => exact apiDeleteUser_alike hR hx u
  | addNode data => exact (apiAddNode_unsampled data).alike hx
  | updateNode nodeId data => exact (apiUpdateNode_unsampled nodeId data).alike hx
  | deleteNode nodeId => exact apiDeleteNode_alike hR hx nodeId
  | addDevice u name => exact (pubAddDevice_unsampled u name).alike hx
  | deleteDevice u deviceId => exact (pubDeleteDevice_unsampled u deviceId).alike hx
  | upsert data => exact (upsertRemnawaveUsers_unsampled data).alike hx
  | markDeleted uuid => exact (markRemnawaveUserDeleted_unsampled uuid).alike hx
  | reconcileComplete seen => exact remnawaveReconcileComplete_alike hR hx seen
  | syncResult nodeId data => exact nodeSyncResult_alike hR hx nodeId data
  | heartbeatResult nodeId data => exact nodeHeartbeatResult_alike hR hx nodeId data

theorem afterRequest_alike (cfg : Config) (hR : Sampling R) (hx : R db.traffic.samples x)
    (now : Time) (request : Request) :
    ∃ y, afterRequest cfg (db.resampled x) now request =
        (afterRequest cfg db now request).resampled y ∧
      R (afterRequest cfg db now request).traffic.samples y := by
  have halike : (handle cfg db now request).Alike R (handle cfg (db.resampled x) now request) :=
    handle_alike cfg hR hx now request
  unfold afterRequest
  cases h : handle cfg db now request with
  | error e =>
      cases h' : handle cfg (db.resampled x) now request with
      | error e' => exact ⟨x, rfl, hx⟩
      | ok effect' =>
          rw [h, h'] at halike
          exact halike.elim
  | ok effect =>
      cases h' : handle cfg (db.resampled x) now request with
      | error e' =>
          rw [h, h'] at halike
          exact halike.elim
      | ok effect' =>
          rw [h, h'] at halike
          obtain ⟨y, rfl, hy⟩ := halike
          exact ⟨y, rfl, hy⟩

end Routes

end VpnPanel.Backend
