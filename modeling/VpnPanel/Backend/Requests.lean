import Mathlib.Data.List.Dedup
import VpnPanel.Lib.TSys
import VpnPanel.Backend.NodeResults

/-!
# Requests

The routes that write accounts, devices, nodes and peers, each as one atomic
step on the tables: `api_parts/users.py`, `api_parts/nodes.py`, the device
routes of `user_page.py` and the worker routes of `internal_worker_parts`. A
route answers with the tables it committed, the operations it queued, the
owners it announced and its reply, or with an HTTP error and no change.
-/

namespace VpnPanel.Backend

open VpnPanel.Lib

/-! ## Answers -/

/-- The operation rows a route creates after its commit. -/
inductive Command
  | syncNode (nodeId : NodeId)
  | provisionNode (nodeId : NodeId)
  | remnawaveDisableUser (uuid : String)
  deriving DecidableEq, Repr

inductive Reply
  | done
  | upserted (uuids : List String) (affectedNodeIds : List NodeId)
      (remoteDisableUuids : List String)
  | deleteRequested (affectedNodeIds : List NodeId)
  | notFound
  | reconciled (purged : Nat) (affectedNodeIds : List NodeId)
  deriving DecidableEq, Repr

structure Effect where
  db : Db
  queued : List Command := []
  notified : List UserId := []
  reply : Reply := .done

abbrev Outcome := Except HttpError Effect

def userNotFound : HttpError := ⟨404, "User not found"⟩
def nodeNotFound : HttpError := ⟨404, "Node not found"⟩
def pageNotFound : HttpError := ⟨404, "Not Found"⟩
def internalError : HttpError :=
  ⟨500, "Internal server error. Details were written to the server log."⟩

/-- `sorted(set(ids))`. -/
def sortedSet (ids : List Nat) : List Nat := ids.dedup.insertionSort (· ≤ ·)

/-- `sorted(set(uuids))`. -/
def sortedTexts (uuids : List String) : List String := uuids.dedup.insertionSort (· ≤ ·)

theorem sortedSet_eq_nil {ids : List Nat} : sortedSet ids = [] ↔ ids = [] := by
  simp only [sortedSet, List.eq_nil_iff_forall_not_mem, List.mem_insertionSort, List.mem_dedup]

theorem mem_sortedSet {id : Nat} {ids : List Nat} : id ∈ sortedSet ids ↔ id ∈ ids := by
  simp [sortedSet]

theorem sortedSet_pairwise (ids : List Nat) : (sortedSet ids).Pairwise (· < ·) := by
  have hle : (sortedSet ids).Pairwise (· ≤ ·) := List.pairwise_insertionSort _ _
  have hne : (sortedSet ids).Nodup :=
    (List.perm_insertionSort _ _).nodup_iff.mpr (List.nodup_dedup _)
  exact (hle.and hne).imp fun h => lt_of_le_of_ne h.1 h.2

theorem sortedTexts_eq_nil {uuids : List String} : sortedTexts uuids = [] ↔ uuids = [] := by
  simp only [sortedTexts, List.eq_nil_iff_forall_not_mem, List.mem_insertionSort, List.mem_dedup]

/-- `enqueue_sync_nodes`. -/
def enqueueSyncNodes (nodeIds : List NodeId) : List Command := (sortedSet nodeIds).map .syncNode

/-- `enqueue_remnawave_disable_users`. -/
def enqueueRemnawaveDisableUsers (uuids : List String) : List Command :=
  (sortedTexts uuids).map .remnawaveDisableUser

/-- `_enqueue_sync_nodes_for_user`: every node that holds a peer of the user. -/
def enqueueSyncNodesForUser (db : Db) (userId : UserId) : List Command :=
  enqueueSyncNodes ((db.peersOf userId).map (·.nodeId))

/-! ## Account routes -/

/-- A local account, or the error of its route
(`guard_not_remnawave_managed`). -/
def localUser (db : Db) (userId : UserId) : Except HttpError User :=
  match db.user? userId with
  | none => .error userNotFound
  | some user =>
      if (db.profileOf? userId).isSome then
        .error ⟨409, "Remnawave-managed user cannot be modified locally"⟩
      else .ok user

def apiAddUser (db : Db) (name : String) (deviceLimit : Nat) : Outcome :=
  match db.insertUser { id := db.nextId, name, deviceLimit } with
  | none => .error internalError
  | some db => .ok { db }

def apiUpdateDeviceLimit (db : Db) (userId : UserId) (deviceLimit : Nat) : Outcome := do
  let user ← localUser db userId
  return { db := db.saveUser { user with deviceLimit } }

/-- The common tail of the lifecycle routes: derive, commit, queue. -/
def commitLifecycle (cfg : Config) (db : Db) (user : User) (total : Option Nat) (now : Time) :
    Effect :=
  let db := (applyLocalLifecycleState cfg db user total now).2
  { db, queued := enqueueSyncNodesForUser db user.id }

def apiBlockUser (cfg : Config) (db : Db) (userId : UserId) (now : Time) : Outcome := do
  let user ← localUser db userId
  return commitLifecycle cfg db { user with lifecycleStatus := .blocked } none now

def apiUnblockUser (cfg : Config) (db : Db) (userId : UserId) (now : Time) : Outcome := do
  let user ← localUser db userId
  let total := loadLocalTotalBytes db user.id
  if localUserBlockedReason user total now ∈ [some .expired, some .limited] then
    .error ⟨409, "User is blocked by lifecycle constraints"⟩
  else return commitLifecycle cfg db { user with lifecycleStatus := .active } (some total) now

/-- `LocalUserLifecycleUpdate`. -/
structure LocalUserLifecycleUpdate where
  expireAt : Option Time := none
  trafficLimitBytes : Nat := 0
  trafficResetPolicy : ResetPolicy := .manual
  deriving DecidableEq, Repr

/-- The account row with the update's values. -/
def LocalUserLifecycleUpdate.apply (data : LocalUserLifecycleUpdate) (user : User) : User :=
  { user with
    expireAt := data.expireAt
    trafficLimitBytes := data.trafficLimitBytes
    trafficResetPolicy := data.trafficResetPolicy }

def apiUpdateLocalLifecycle (cfg : Config) (db : Db) (userId : UserId)
    (data : LocalUserLifecycleUpdate) (now : Time) : Outcome := do
  let user ← localUser db userId
  return commitLifecycle cfg db (data.apply user) none now

def apiResetLocalTraffic (cfg : Config) (db : Db) (userId : UserId) (now : Time) : Outcome := do
  let user ← localUser db userId
  if user.trafficResetPolicy ≠ .manual then
    .error ⟨409, "Traffic reset is disabled for this user"⟩
  else
    let (user, db) := resetLocalTrafficUsage db user now
    return commitLifecycle cfg db user (some 0) now

/-- Delete a local account and everything it owns, then queue the nodes that
held any of its peers. -/
def apiDeleteUser (db : Db) (userId : UserId) : Outcome := do
  let user ← localUser db userId
  return {
    db := db.deleteUser user.id
    queued := enqueueSyncNodes ((db.peersOf user.id).map (·.nodeId)) }

/-! ## Node routes -/

/-- `NodeIn`, the interface columns under their field names. -/
structure NodeIn where
  name : String
  url : String
  token : String
  interface : InterfaceResult := fun _ => none

def apiAddNode (cfg : Config) (db : Db) (data : NodeIn) : Outcome :=
  let node : Node := {
    id := db.nextId, name := data.name, url := data.url, token := data.token
    interface := fun field =>
      if field = .publicKey then some (.text (cfg.generateKeypair db.nextId).2)
      else data.interface field }
  .ok {
    db := createPendingPeersForNode cfg (db.insertNode node) node
    queued := [.provisionNode node.id] }

/-- `NodeUpdate`: the fields that were sent. -/
structure NodeUpdate where
  name : Option String := none
  url : Option String := none
  token : Option String := none
  interface : InterfaceResult := fun _ => none

/-- The node row with the fields that were sent. -/
def NodeUpdate.apply (data : NodeUpdate) (node : Node) : Node :=
  { node with
    name := data.name.getD node.name
    url := data.url.getD node.url
    token := data.token.getD node.token
    interface := fun field => (data.interface field).or (node.interface field)
    provisionStatus := .pending }

def apiUpdateNode (db : Db) (nodeId : NodeId) (data : NodeUpdate) : Outcome :=
  match db.node? nodeId with
  | none => .error nodeNotFound
  | some node => .ok { db := db.saveNode (data.apply node), queued := [.provisionNode nodeId] }

/-- Forget a managed node, then release the addresses its peers kept. -/
def apiDeleteNode (db : Db) (nodeId : NodeId) (now : Time) : Outcome :=
  match db.node? nodeId with
  | none => .error nodeNotFound
  | some node =>
      let deviceIds := (db.peersOfNode node.id).map (·.deviceId)
      .ok { db := releaseDeviceIps (db.deleteNode node.id) deviceIds now }

/-! ## Device routes of the public page -/

/-- The code text of an answer `Account is …`. -/
def AccountCode.text : AccountCode → String
  | .active => "active"
  | .blocked => "blocked"
  | .limited => "limited"
  | .expired => "expired"

/-- The dotted text of the subnet. -/
def Subnet.text (subnet : Subnet) : String := s!"{hostText subnet.address}/{subnet.prefixlen}"

/-- The HTTP answer of each error `create_device` raises. -/
def DeviceError.http (cfg : Config) : DeviceError → HttpError
  | .accountInactive status => ⟨403, s!"Account is {status.code.text}"⟩
  | .limitExceeded limit _ => ⟨409, s!"Device limit {limit} reached"⟩
  | .ipPoolExhausted => ⟨503, s!"VPN address pool {cfg.vpnSubnet.text} is exhausted: every client address is held by a live device or by a deleted device whose node has not yet confirmed removal"⟩
  | .ipAllocation _ | .integrity | .ownerNotFound => internalError

/-- `_guard_active_account`. -/
def guardActiveAccount (db : Db) (user : User) (now : Time) : Except HttpError Unit :=
  if user.isBlocked then .error ⟨403, "Account is blocked"⟩
  else
    let status := freshAccountStatus db user now
    if status.code ≠ .active then .error ⟨403, s!"Account is {status.code.text}"⟩ else .ok ()

/-- `pub_add_device`, with the account the URL segment resolved to and the
normalised name. -/
def pubAddDevice (cfg : Config) (db : Db) (userId : UserId) (name : String) (now : Time) :
    Outcome :=
  match db.user? userId with
  | none => .error pageNotFound
  | some user => do
      guardActiveAccount db user now
      match createDevice cfg db user.id name now with
      | .error e => .error (e.http cfg)
      | .ok (_, nodeIds, db) =>
          return { db, queued := enqueueSyncNodes nodeIds, notified := [user.id] }

def pubDeleteDevice (db : Db) (userId : UserId) (deviceId : DeviceId) (now : Time) : Outcome :=
  match db.user? userId, db.device? deviceId with
  | some user, some device =>
      if device.userId ≠ user.id then .error pageNotFound
      else
        let (nodeIds, db) := deleteDevice db device.id now
        .ok { db, queued := enqueueSyncNodes nodeIds, notified := [user.id] }
  | _, _ => .error pageNotFound

/-! ## Worker routes -/

/-- `upsert_remnawave_users`; a failing item rolls the batch back. -/
def upsertRemnawaveUsers (cfg : Config) (db : Db) (data : List RemnawaveUserIn) (now : Time) :
    Outcome :=
  match upsertItems cfg now data { db } with
  | none => .error ⟨500, "Remnawave users upsert failed"⟩
  | some st => .ok {
      db := st.db
      queued := enqueueSyncNodes st.affectedNodeIds ++
        enqueueRemnawaveDisableUsers st.remoteDisableUuids
      reply := .upserted st.upserted (sortedSet st.affectedNodeIds)
        (sortedTexts st.remoteDisableUuids) }

def markRemnawaveUserDeleted (db : Db) (uuid : String) (now : Time) : Outcome :=
  match db.profiles.find? (·.remnawaveUuid = uuid) with
  | none => .ok { db, reply := .notFound }
  | some row =>
      match db.user? row.userId with
      | none => .ok { db, reply := .notFound }
      | some user =>
          let (affected, db) := requestRemnawaveDelete db row user now
          .ok {
            db
            queued := enqueueSyncNodes affected
            reply := .deleteRequested (sortedSet affected) }

def remnawaveReconcileComplete (db : Db) (seenUuids : List String) : Outcome :=
  let (affected, db) := reconcileMissingRemnawaveUsers db seenUuids
  let (purged, db) := purgeConfirmedRemnawaveDeletes db
  .ok { db, queued := enqueueSyncNodes affected, reply := .reconciled purged (sortedSet affected) }

/-- The operations the limits queued during a result. -/
def PeerResults.queued (results : PeerResults) : List Command :=
  enqueueSyncNodes results.localLifecycleNodeIds ++ enqueueSyncNodes results.limitedNodeIds ++
    enqueueRemnawaveDisableUsers results.remoteDisableUuids

def nodeSyncResult (cfg : Config) (db : Db) (nodeId : NodeId) (data : SyncResult) (now : Time) :
    Outcome :=
  match db.node? nodeId with
  | none => .error nodeNotFound
  | some node =>
      if !data.ok then
        .ok { db := db.saveNode (failedNode node data)
              notified := (db.peersOfNode node.id).map (·.userId) }
      else
        let results := applySyncResult cfg db node data now
        .ok { db := results.db, queued := results.queued
              notified := results.acknowledgedOwnerIds }

def nodeHeartbeatResult (cfg : Config) (db : Db) (nodeId : NodeId) (data : HeartbeatResult)
    (now : Time) : Outcome :=
  match db.node? nodeId with
  | none => .error nodeNotFound
  | some node =>
      let results := applyHeartbeatResult cfg db node data now
      .ok { db := results.db, queued := results.queued, notified := results.acknowledgedOwnerIds }

/-! ## The request system -/

inductive Request
  | addUser (name : String) (deviceLimit : Nat)
  | updateDeviceLimit (userId : UserId) (deviceLimit : Nat)
  | blockUser (userId : UserId)
  | unblockUser (userId : UserId)
  | updateLocalLifecycle (userId : UserId) (data : LocalUserLifecycleUpdate)
  | resetLocalTraffic (userId : UserId)
  | deleteUser (userId : UserId)
  | addNode (data : NodeIn)
  | updateNode (nodeId : NodeId) (data : NodeUpdate)
  | deleteNode (nodeId : NodeId)
  | addDevice (userId : UserId) (name : String)
  | deleteDevice (userId : UserId) (deviceId : DeviceId)
  | upsert (data : List RemnawaveUserIn)
  | markDeleted (uuid : String)
  | reconcileComplete (seenUuids : List String)
  | syncResult (nodeId : NodeId) (data : SyncResult)
  | heartbeatResult (nodeId : NodeId) (data : HeartbeatResult)

def handle (cfg : Config) (db : Db) (now : Time) : Request → Outcome
  | .addUser name deviceLimit => apiAddUser db name deviceLimit
  | .updateDeviceLimit userId deviceLimit => apiUpdateDeviceLimit db userId deviceLimit
  | .blockUser userId => apiBlockUser cfg db userId now
  | .unblockUser userId => apiUnblockUser cfg db userId now
  | .updateLocalLifecycle userId data => apiUpdateLocalLifecycle cfg db userId data now
  | .resetLocalTraffic userId => apiResetLocalTraffic cfg db userId now
  | .deleteUser userId => apiDeleteUser db userId
  | .addNode data => apiAddNode cfg db data
  | .updateNode nodeId data => apiUpdateNode db nodeId data
  | .deleteNode nodeId => apiDeleteNode db nodeId now
  | .addDevice userId name => pubAddDevice cfg db userId name now
  | .deleteDevice userId deviceId => pubDeleteDevice db userId deviceId now
  | .upsert data => upsertRemnawaveUsers cfg db data now
  | .markDeleted uuid => markRemnawaveUserDeleted db uuid now
  | .reconcileComplete seenUuids => remnawaveReconcileComplete db seenUuids
  | .syncResult nodeId data => nodeSyncResult cfg db nodeId data now
  | .heartbeatResult nodeId data => nodeHeartbeatResult cfg db nodeId data now

/-- The committed tables and the clock. -/
structure Panel where
  db : Db := {}
  clock : Time := 0

/-- A request, and the clock reading it is handled at. -/
structure Call where
  now : Time
  request : Request

/-- The tables after a request; a failed one leaves them as they were. -/
def afterRequest (cfg : Config) (db : Db) (now : Time) (request : Request) : Db :=
  match handle cfg db now request with
  | .error _ => db
  | .ok effect => effect.db

/-- The backend as a system of atomic requests, from empty tables, under a
clock that never goes back. -/
def panel (cfg : Config) : TSys Panel Call where
  init := {}
  step s call :=
    if call.now < s.clock then none
    else some ⟨afterRequest cfg s.db call.now call.request, call.now⟩

/-- A deployment on the default subnet, with readable key material. -/
def exampleConfig : Config where
  vpnSubnet := ⟨0x0a080000, 24⟩
  generateKeypair id := (s!"private-{id}", s!"public-{id}")
  generatePsk id := s!"psk-{id}"

/-- One account with one device on one node: node 0, account 1, device 2 with
the key `public-2` and the address `10.8.0.2`, peer 3. -/
def oneDevice : List Call := [
  ⟨0, .addNode { name := "a", url := "http://a", token := "t" }⟩,
  ⟨1, .addUser "alice" 0⟩,
  ⟨2, .addDevice 1 "phone"⟩]

/-! ## Accepted requests -/

variable {cfg : Config} {db : Db} {e : Effect} {now : Time} {u : UserId}

/-- An accepted chain of checks accepted its first one. -/
theorem bind_ok {ε α β : Type} {x : Except ε α} {f : α → Except ε β} {b : β}
    (h : (x >>= f) = .ok b) : ∃ a, x = .ok a ∧ f a = .ok b := by
  cases x with
  | error e => cases h
  | ok a => exact ⟨a, rfl, h⟩

/-- The local account a guarded route works on is stored and has no profile. -/
theorem localUser_ok {user : User} (h : localUser db u = .ok user) :
    db.user? u = some user ∧ db.profileOf? u = none := by
  unfold localUser at h
  cases hu : db.user? u with
  | none =>
      rw [hu] at h
      cases h
  | some row =>
      rw [hu] at h
      dsimp only at h
      split at h
      · cases h
      · next hp =>
          cases h
          exact ⟨rfl, by simpa using hp⟩

theorem apiUpdateDeviceLimit_ok {limit : Nat} (h : apiUpdateDeviceLimit db u limit = .ok e) :
    ∃ user, localUser db u = .ok user ∧ e.db = db.saveUser { user with deviceLimit := limit } := by
  obtain ⟨user, hu, h⟩ := bind_ok h
  cases h
  exact ⟨user, hu, rfl⟩

theorem apiBlockUser_ok (h : apiBlockUser cfg db u now = .ok e) :
    ∃ user, localUser db u = .ok user ∧
      e = commitLifecycle cfg db { user with lifecycleStatus := .blocked } none now := by
  obtain ⟨user, hu, h⟩ := bind_ok h
  cases h
  exact ⟨user, hu, rfl⟩

theorem apiUnblockUser_ok (h : apiUnblockUser cfg db u now = .ok e) :
    ∃ user, localUser db u = .ok user ∧
      localUserBlockedReason user (loadLocalTotalBytes db user.id) now ∉
        [some .expired, some .limited] ∧
      e = commitLifecycle cfg db { user with lifecycleStatus := .active }
        (some (loadLocalTotalBytes db user.id)) now := by
  obtain ⟨user, hu, h⟩ := bind_ok h
  dsimp only at h
  split at h
  · cases h
  · next hr =>
      cases h
      exact ⟨user, hu, hr, rfl⟩

theorem apiUpdateLocalLifecycle_ok {data : LocalUserLifecycleUpdate}
    (h : apiUpdateLocalLifecycle cfg db u data now = .ok e) :
    ∃ user, localUser db u = .ok user ∧
      e = commitLifecycle cfg db (data.apply user) none now := by
  obtain ⟨user, hu, h⟩ := bind_ok h
  cases h
  exact ⟨user, hu, rfl⟩

theorem apiResetLocalTraffic_ok (h : apiResetLocalTraffic cfg db u now = .ok e) :
    ∃ user, localUser db u = .ok user ∧ user.trafficResetPolicy = .manual ∧
      e = commitLifecycle cfg (resetLocalTrafficUsage db user now).2
        (resetLocalTrafficUsage db user now).1 (some 0) now := by
  obtain ⟨user, hu, h⟩ := bind_ok h
  dsimp only at h
  split at h
  · cases h
  · next hp =>
      cases h
      exact ⟨user, hu, by simpa using hp, rfl⟩

theorem apiDeleteUser_ok (h : apiDeleteUser db u = .ok e) :
    ∃ user, localUser db u = .ok user ∧ e.db = db.deleteUser user.id ∧
      e.queued = enqueueSyncNodes ((db.peersOf user.id).map (·.nodeId)) := by
  obtain ⟨user, hu, h⟩ := bind_ok h
  cases h
  exact ⟨user, hu, rfl, rfl⟩

theorem apiAddUser_ok {name : String} {limit : Nat} (h : apiAddUser db name limit = .ok e) :
    e.db = { db with
      users := db.users ++ [{ id := db.nextId, name, deviceLimit := limit }]
      nextId := db.nextId + 1 } := by
  unfold apiAddUser Db.insertUser at h
  split at h
  · cases h
  · next hins =>
      cases h
      split at hins
      · cases hins
      · exact (Option.some.inj hins).symm

theorem pubAddDevice_ok {name : String} (h : pubAddDevice cfg db u name now = .ok e) :
    ∃ user device nodeIds, db.user? u = some user ∧
      createDevice cfg db user.id name now = .ok (device, nodeIds, e.db) ∧
      e.queued = enqueueSyncNodes nodeIds := by
  unfold pubAddDevice at h
  cases hu : db.user? u with
  | none =>
      rw [hu] at h
      cases h
  | some user =>
      rw [hu] at h
      obtain ⟨_, _, h⟩ := bind_ok h
      split at h
      · cases h
      · next device nodeIds db' hc =>
          cases h
          exact ⟨user, device, nodeIds, rfl, hc, rfl⟩

theorem pubDeleteDevice_ok {deviceId : DeviceId} (h : pubDeleteDevice db u deviceId now = .ok e) :
    ∃ device, db.device? deviceId = some device ∧ device.userId = u ∧
      e.db = (deleteDevice db deviceId now).2 := by
  unfold pubDeleteDevice at h
  cases hu : db.user? u with
  | none =>
      rw [hu] at h
      cases h
  | some user =>
      cases hd : db.device? deviceId with
      | none =>
          rw [hu, hd] at h
          cases h
      | some device =>
          rw [hu, hd] at h
          dsimp only at h
          split at h
          · cases h
          · next hne =>
              cases h
              have hid : device.id = deviceId := Rows.key_of_get? hd
              have huid : user.id = u := Rows.key_of_get? hu
              refine ⟨device, rfl, ?_, by rw [hid]⟩
              rw [← huid]
              simpa using hne

theorem apiDeleteNode_ok {nodeId : NodeId} (h : apiDeleteNode db nodeId now = .ok e) :
    ∃ node, db.node? nodeId = some node ∧
      e.db = releaseDeviceIps (db.deleteNode nodeId) ((db.peersOfNode nodeId).map (·.deviceId))
        now := by
  unfold apiDeleteNode at h
  cases hn : db.node? nodeId with
  | none =>
      rw [hn] at h
      cases h
  | some node =>
      rw [hn] at h
      cases h
      have hid : node.id = nodeId := Rows.key_of_get? hn
      exact ⟨node, rfl, by rw [hid]⟩

theorem apiUpdateNode_ok {nodeId : NodeId} {data : NodeUpdate}
    (h : apiUpdateNode db nodeId data = .ok e) :
    ∃ node, db.node? nodeId = some node ∧ e.db = db.saveNode (data.apply node) := by
  unfold apiUpdateNode at h
  cases hn : db.node? nodeId with
  | none =>
      rw [hn] at h
      cases h
  | some node =>
      rw [hn] at h
      cases h
      exact ⟨node, rfl, rfl⟩

theorem upsertRemnawaveUsers_ok {data : List RemnawaveUserIn}
    (h : upsertRemnawaveUsers cfg db data now = .ok e) :
    ∃ st, upsertItems cfg now data { db } = some st ∧ e.db = st.db := by
  unfold upsertRemnawaveUsers at h
  split at h
  · cases h
  · next st hst =>
      cases h
      exact ⟨st, hst, rfl⟩

theorem markRemnawaveUserDeleted_ok {uuid : String}
    (h : markRemnawaveUserDeleted db uuid now = .ok e) :
    e.db = db ∨ ∃ row ∈ db.profiles, row.remnawaveUuid = uuid ∧
      ∃ user, db.user? row.userId = some user ∧
        e.db = (requestRemnawaveDelete db row user now).2 := by
  unfold markRemnawaveUserDeleted at h
  split at h
  · cases h
    exact .inl rfl
  · next row hrow =>
      split at h
      · cases h
        exact .inl rfl
      · next user hu =>
          cases h
          have huuid : row.remnawaveUuid = uuid := by simpa using List.find?_some hrow
          exact .inr ⟨row, List.mem_of_find?_eq_some hrow, huuid, user, hu, rfl⟩

/-- A sync result fails the node's row, or is applied. -/
theorem nodeSyncResult_ok {nodeId : NodeId} {data : SyncResult}
    (h : nodeSyncResult cfg db nodeId data now = .ok e) :
    ∃ node, db.node? nodeId = some node ∧
      ((data.ok = false ∧ e.db = db.saveNode (failedNode node data)) ∨
        (data.ok = true ∧ e.db = (applySyncResult cfg db node data now).db)) := by
  unfold nodeSyncResult at h
  cases hn : db.node? nodeId with
  | none =>
      rw [hn] at h
      cases h
  | some node =>
      rw [hn] at h
      dsimp only at h
      split at h
      · next hok =>
          cases h
          exact ⟨node, rfl, .inl ⟨by simpa using hok, rfl⟩⟩
      · next hok =>
          cases h
          exact ⟨node, rfl, .inr ⟨by simpa using hok, rfl⟩⟩

theorem nodeHeartbeatResult_ok {nodeId : NodeId} {data : HeartbeatResult}
    (h : nodeHeartbeatResult cfg db nodeId data now = .ok e) :
    ∃ node, db.node? nodeId = some node ∧
      e.db = (applyHeartbeatResult cfg db node data now).db := by
  unfold nodeHeartbeatResult at h
  cases hn : db.node? nodeId with
  | none =>
      rw [hn] at h
      cases h
  | some node =>
      rw [hn] at h
      cases h
      exact ⟨node, rfl, rfl⟩

end VpnPanel.Backend
