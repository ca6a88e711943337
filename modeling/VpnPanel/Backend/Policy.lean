import VpnPanel.Backend.Schema

/-!
# Account standing

The predicates of `services/local_lifecycle.py`, `services/remnawave_sync.py`
and `services/account_policy.py` that decide whether an account may use its
devices. The clock a request reads is the argument `now`; a stored expiry is
already the UTC instant `aware` makes of it.
-/

namespace VpnPanel.Backend

/-! ## Local lifecycle -/

def localUserExpired (user : User) (now : Time) : Bool :=
  match user.expireAt with
  | none => false
  | some expireAt => expireAt ≤ now

def localUserLimited (user : User) (localTotalBytes : Nat) : Bool :=
  user.trafficLimitBytes > 0 && localTotalBytes ≥ user.trafficLimitBytes

/-- The lifetime total of an account; a missing row counts as zero. -/
def loadLocalTotalBytes (db : Db) (userId : UserId) : Nat :=
  match db.traffic.userLifetime.find? (·.identity = userId) with
  | some row => row.totalBytes
  | none => 0

/-- The state a lifecycle pass derives (the `desired_status` of
`apply_local_lifecycle_state`). -/
def desiredStatus (user : User) (total : Nat) (now : Time) : LifecycleStatus :=
  if localUserExpired user now then .expired
  else if localUserLimited user total then .limited
  else if user.lifecycleStatus = .blocked then .blocked
  else .active

/-! ## Imported lifecycle -/

/-- `RemnawaveUserIn`: the imported profile. -/
structure RemnawaveUserIn where
  uuid : String
  username : String
  shortUuid : Option String := none
  status : String
  expireAt : Option Time := none
  trafficLimitBytes : Int := 0
  trafficUsedBytes : Int := 0
  hwidDeviceLimit : Option Int := none
  deriving DecidableEq, Repr

/-- `remnawave_blocked`, which reads the same two fields of a row or of an
import. -/
def remnawaveBlocked (status : String) (expireAt : Option Time) (now : Time) : Bool :=
  if status ∈ ["DISABLED", "LIMITED", "EXPIRED"] then true
  else match expireAt with
    | none => false
    | some expireAt => expireAt ≤ now

def remnawaveCombinedLimited (row : RemnawaveUser) (localTotalBytes : Nat) : Bool :=
  row.trafficLimitBytes > 0 &&
    row.trafficUsedBytes + localTotalBytes ≥ row.trafficLimitBytes

/-! ## Effective standing -/

inductive AccountCode
  | active | blocked | limited | expired
  deriving DecidableEq, Repr

inductive AccountReason
  | blocked | limited | expired | disabled | deleted
  deriving DecidableEq, Repr

/-- The `{'code', 'reason'}` answer. -/
structure AccountStatus where
  code : AccountCode
  reason : Option AccountReason
  deriving DecidableEq, Repr

def activeStatus : AccountStatus := ⟨.active, none⟩

def localUserBlockedReason (user : User) (localTotalBytes : Nat) (now : Time) :
    Option AccountReason :=
  if localUserExpired user now then some .expired
  else if localUserLimited user localTotalBytes then some .limited
  else if user.lifecycleStatus = .blocked || user.isBlocked then some .blocked
  else none

/-- `LOCAL_REASON_CODES.get(reason, 'blocked')`. -/
def localReasonCode : AccountReason → AccountCode
  | .limited => .limited
  | .expired => .expired
  | _ => .blocked

def localAccountStatus (user : User) (localTotalBytes : Nat) (now : Time) : AccountStatus :=
  match localUserBlockedReason user localTotalBytes now with
  | none => activeStatus
  | some reason => ⟨localReasonCode reason, some reason⟩

/-- `REMNAWAVE_STATUS_CODES`. -/
def remnawaveStatusCode? : String → Option AccountStatus
  | "DISABLED" => some ⟨.blocked, some .disabled⟩
  | "LIMITED" => some ⟨.limited, some .limited⟩
  | "EXPIRED" => some ⟨.expired, some .expired⟩
  | _ => none

def remnawaveAccountStatus (row : RemnawaveUser) (localTotalBytes : Nat) (now : Time) :
    AccountStatus :=
  if row.deleteRequestedAt.isSome || row.syncStatus ∈ [.missing, .stale] then
    ⟨.blocked, some .deleted⟩
  else match remnawaveStatusCode? row.status with
    | some status => status
    | none =>
        if row.trafficLimitBytes > 0 &&
            row.trafficUsedBytes + localTotalBytes ≥ row.trafficLimitBytes then
          ⟨.limited, some .limited⟩
        else match row.expireAt with
          | some expireAt => if expireAt ≤ now then ⟨.expired, some .expired⟩ else activeStatus
          | none => activeStatus

def accountStatus (user : User) (localTotalBytes : Nat) (remnawave : Option RemnawaveUser)
    (now : Time) : AccountStatus :=
  match remnawave with
  | none => localAccountStatus user localTotalBytes now
  | some row =>
      let status := remnawaveAccountStatus row localTotalBytes now
      if status.code ≠ .active then status
      else if user.isBlocked then ⟨.blocked, some .blocked⟩
      else status

/-- The owner's status from the stored rows (`fresh_account_status`). -/
def freshAccountStatus (db : Db) (user : User) (now : Time) : AccountStatus :=
  accountStatus user (loadLocalTotalBytes db user.id) (db.profileOf? user.id) now

/-! ## Standing and the block flag -/

/-- An active standing implies an unset block flag, for a local and for an
imported account. -/
theorem accountStatus_active {user : User} {total : Nat} {remnawave : Option RemnawaveUser}
    {now : Time} (h : (accountStatus user total remnawave now).code = .active) :
    user.isBlocked = false := by
  cases remnawave with
  | none =>
      simp only [accountStatus, localAccountStatus, localUserBlockedReason] at h
      by_contra hb
      simp only [Bool.not_eq_false] at hb
      by_cases h1 : localUserExpired user now = true <;>
        by_cases h2 : localUserLimited user total = true <;>
        simp [h1, h2, hb, localReasonCode] at h
  | some row =>
      simp only [accountStatus] at h
      split at h
      · contradiction
      · split at h
        · cases h
        · rename_i hb
          simpa using hb

theorem desiredStatus_ne_active_of_blocked {user : User} {total : Nat} {now : Time}
    (h : user.lifecycleStatus = .blocked) : desiredStatus user total now ≠ .active := by
  unfold desiredStatus
  split
  · simp
  · split
    · simp
    · simp

end VpnPanel.Backend
