import VpnPanel.Backend.Lifecycle

/-!
# Imported accounts

`services/remnawave_sync.py`, the account creation of `services/users.py` and
the import routes of `internal_worker_parts/remnawave.py`.
-/

namespace VpnPanel.Backend

open VpnPanel.Lib

/-! ## One imported profile -/

def applyRemnawaveProfile (row : RemnawaveUser) (data : RemnawaveUserIn) (now : Time) :
    RemnawaveUser :=
  { row with
    shortUuid := data.shortUuid
    username := data.username
    status := data.status
    expireAt := data.expireAt
    trafficLimitBytes := data.trafficLimitBytes
    trafficUsedBytes := data.trafficUsedBytes
    hwidDeviceLimit := data.hwidDeviceLimit
    lastSyncedAt := some now
    syncStatus := .synced
    syncReason := none
    syncError := none
    deleteRequestedAt := none }

/-- Apply the imported block state of the account `user`; only a change of the
block flag writes. `loaded` is the collection `row.user.peers`. -/
def applyRemnawaveLifecycle (cfg : Config) (db : Db) (user : User) (loaded : List PeerId)
    (data : RemnawaveUserIn) (now : Time) : List NodeId × Db :=
  let shouldBlock := remnawaveBlocked data.status data.expireAt now
  if user.isBlocked = shouldBlock then ([], db)
  else
    let db := db.saveUser { user with isBlocked := shouldBlock }
    let (affected, db) := transitionPeers db loaded shouldBlock
    if !shouldBlock then
      let (created, db) := restoreMissingPeersForUser cfg db user.id
      (affected ++ created, db)
    else (affected, db)

/-- Block the account once its remote and local traffic reach the limit. The
peers are selected here, not taken from the loaded collection. Returns the
affected nodes and the profiles to disable remotely. -/
def enforceRemnawaveCombinedLimit (db : Db) (row : RemnawaveUser) :
    (List NodeId × List String) × Db :=
  if !remnawaveCombinedLimited row (loadLocalTotalBytes db row.userId) then (([], []), db)
  else
    let uuids := if row.status ≠ "DISABLED" then [row.remnawaveUuid] else []
    match db.user? row.userId with
    | none => (([], uuids), db)
    | some user =>
        let db := db.saveUser { user with isBlocked := true }
        let (affected, db) := transitionPeers db (loadPeers db user.id) true
        ((affected, uuids), db)

def enforceRemnawaveCombinedLimitForUser (db : Db) (userId : UserId) :
    (List NodeId × List String) × Db :=
  match db.profileOf? userId with
  | none => (([], []), db)
  | some row => enforceRemnawaveCombinedLimit db row

/-! ## Import of a batch -/

/-- `resolve_remnawave_username`; the random suffix is drawn from the id of the
account to be created. -/
def resolveRemnawaveUsername (db : Db) (desired : String) (shortUuid : Option String) : String :=
  if db.users.any (·.name = desired) then
    let suffix := if truthy shortUuid then shortUuid.getD "" else s!"{db.nextId}"
    s!"{desired}__rw_{suffix}"
  else desired

/-- What the loop of `_upsert_remnawave_users` carries. `held` is the profile
the loop variable `row` still refers to, with the peer collection loaded for
it: a repeated uuid finds the same instance, whose collection is not loaded
again. -/
structure UpsertState where
  db : Db
  held : Option (String × List PeerId) := none
  affectedNodeIds : List NodeId := []
  remoteDisableUuids : List String := []
  upserted : List String := []

/-- The collection `row.user.peers` an item works on. -/
def UpsertState.loadedPeers (st : UpsertState) (uuid : String) (userId : UserId) : List PeerId :=
  match st.held with
  | some (held, loaded) => if held = uuid then loaded else loadPeers st.db userId
  | none => loadPeers st.db userId

/-- A profile seen for the first time: its account, then its row. `none` is an
integrity error. -/
def createRemnawaveRow (db : Db) (item : RemnawaveUserIn) (now : Time) :
    Option (RemnawaveUser × Db) :=
  let user : User := {
    id := db.nextId
    name := resolveRemnawaveUsername db item.username item.shortUuid
    isBlocked := remnawaveBlocked item.status item.expireAt now }
  (db.insertUser user).bind fun db =>
    let row : RemnawaveUser := {
      userId := user.id, remnawaveUuid := item.uuid, username := item.username,
      status := item.status }
    (db.insertProfile row).map fun db => (row, db)

/-- The common tail of an item: the profile columns, then the combined limit. -/
def finishUpsert (st : UpsertState) (db : Db) (row : RemnawaveUser) (loaded : List PeerId)
    (created : List NodeId) (item : RemnawaveUserIn) (now : Time) : UpsertState :=
  let row := applyRemnawaveProfile row item now
  let ((limited, uuids), db) := enforceRemnawaveCombinedLimit (db.saveProfile row) row
  { db
    held := some (item.uuid, loaded)
    affectedNodeIds := st.affectedNodeIds ++ created ++ limited
    remoteDisableUuids := st.remoteDisableUuids ++ uuids
    upserted := st.upserted ++ [item.uuid] }

/-- One item of the batch; `none` rolls the whole batch back. -/
def upsertItem (cfg : Config) (st : UpsertState) (item : RemnawaveUserIn) (now : Time) :
    Option UpsertState :=
  match st.db.profiles.find? (·.remnawaveUuid = item.uuid) with
  | none =>
      (createRemnawaveRow st.db item now).map fun (row, db) =>
        finishUpsert st db row (loadPeers db row.userId) [] item now
  | some row =>
      (st.db.user? row.userId).map fun user =>
        let loaded := st.loadedPeers item.uuid row.userId
        let (affected, db) := applyRemnawaveLifecycle cfg st.db user loaded item now
        finishUpsert st db row loaded affected item now

def upsertItems (cfg : Config) (now : Time) :
    List RemnawaveUserIn → UpsertState → Option UpsertState
  | [], st => some st
  | item :: rest, st => (upsertItem cfg st item now).bind (upsertItems cfg now rest)

/-! ## Missing and deleted profiles -/

/-- `mark_remnawave_user_stale`, with its default reason. -/
def markRemnawaveUserStale (db : Db) (row : RemnawaveUser) : List NodeId × Db :=
  match db.user? row.userId with
  | none => ([], db)
  | some user =>
      let db := db.saveProfile { row with
        syncStatus := .stale, syncReason := some "remote user missing", syncError := none }
      let db := db.saveUser { user with isBlocked := true }
      transitionPeers db (loadPeers db user.id) true

/-- The loop of `reconcile_missing_remnawave_users`. -/
def markRowsStale : List RemnawaveUser → Db → List NodeId × Db
  | [], db => ([], db)
  | row :: rest, db =>
      let (affected, db) := markRemnawaveUserStale db row
      let (ids, db) := markRowsStale rest db
      (affected ++ ids, db)

def reconcileMissingRemnawaveUsers (db : Db) (seenUuids : List String) : List NodeId × Db :=
  markRowsStale (db.profiles.filter (·.remnawaveUuid ∉ seenUuids)) db

/-- Whether `purge_confirmed_remnawave_deletes` deletes the account: it was
asked for, there is a peer, and every peer is confirmed deleted. -/
def purgeable (db : Db) (row : RemnawaveUser) : Bool :=
  let peers := db.peersOf row.userId
  row.deleteRequestedAt.isSome && !peers.isEmpty && peers.all (·.status = .deleted)

/-- The number of purged accounts, and the tables without them. -/
def purgeConfirmedRemnawaveDeletes (db : Db) : Nat × Db :=
  let rows := db.profiles.filter (purgeable db)
  (rows.length, rows.foldl (fun db row => db.deleteUser row.userId) db)

/-- The status `mark_remnawave_user_deleted` gives a peer of the account. -/
def deleteRequestedPeer (userId : UserId) (peer : Peer) : Peer :=
  if peer.userId = userId ∧ peer.status ≠ .deleted then { peer with status := .pendingDelete }
  else peer

/-- `mark_remnawave_user_deleted` on a known profile. -/
def requestRemnawaveDelete (db : Db) (row : RemnawaveUser) (user : User) (now : Time) :
    List NodeId × Db :=
  let db := db.saveProfile { row with
    deleteRequestedAt := row.deleteRequestedAt.or (some now)
    syncStatus := .missing
    syncReason := some "delete requested" }
  let db := db.saveUser { user with isBlocked := true }
  let affected := (db.peersOf user.id).filter (·.status ≠ .deleted)
  (affected.map (·.nodeId), db.mapPeers (deleteRequestedPeer user.id))

end VpnPanel.Backend
