import VpnPanel.Backend.Requests

/-!
# The other readers of an account's standing

The reason of the admin list (`_remnawave_blocked_reason` of
`api_parts/users.py`) and the guard of the admin downloads
(`_guard_active_account` of `api_parts/configs.py`). The admin list turns a
naive expiry into an aware one by itself, so expiries stand here as the driver
returned them; `read` is the row with the instant that `aware` makes of them.
-/

namespace VpnPanel.Backend

/-! ## Naive and aware expiries -/

/-- A `datetime`: its wall clock, and its distance from UTC if it has a zone. -/
inductive Stamp
  | naive (wall : Time)
  | zoned (wall utcOffset : Time)
  deriving DecidableEq, Repr

/-- A `datetime` with a zone. Only these compare with the clock. -/
structure ZonedStamp where
  wall : Time
  utcOffset : Time
  deriving DecidableEq, Repr

/-- What `datetime` comparisons order zoned values by. -/
def ZonedStamp.instant (stamp : ZonedStamp) : Time := stamp.wall - stamp.utcOffset

/-- `value.replace(tzinfo=UTC)`. -/
def Stamp.replaceUtc : Stamp → ZonedStamp
  | .naive wall | .zoned wall _ => ⟨wall, 0⟩

/-- `aware`, which `local_lifecycle.py` and `remnawave_sync.py` both define. -/
def aware : Option Stamp → Option ZonedStamp
  | none => none
  | some (.zoned wall utcOffset) => some ⟨wall, utcOffset⟩
  | some (.naive wall) => some (Stamp.naive wall).replaceUtc

/-- A profile as loaded; the expiry of `row` is not read. -/
structure LoadedProfile where
  row : RemnawaveUser
  expireAt : Option Stamp

/-- The profile the services compare with the clock. -/
def LoadedProfile.read (rw : LoadedProfile) : RemnawaveUser :=
  { rw.row with expireAt := (aware rw.expireAt).map (·.instant) }

/-! ## The admin list -/

/-- `status_reasons`. -/
def statusReason? : String → Option AccountReason
  | "DISABLED" => some .disabled
  | "LIMITED" => some .limited
  | "EXPIRED" => some .expired
  | _ => none

/-- `_remnawave_blocked_reason`. -/
def remnawaveBlockedReason (rw : LoadedProfile) (localTotal : Nat) (now : Time) :
    Option AccountReason :=
  if rw.row.deleteRequestedAt.isSome then some .deleted
  else if rw.row.syncStatus ∈ [.missing, .stale] then some .deleted
  else match statusReason? rw.row.status with
    | some reason => some reason
    | none =>
        if rw.row.trafficLimitBytes > 0 &&
            rw.row.trafficUsedBytes + localTotal ≥ rw.row.trafficLimitBytes then some .limited
        else match rw.expireAt with
          | none => none
          | some stamp =>
              let expireAt : ZonedStamp := match stamp with
                | .naive wall => (Stamp.naive wall).replaceUtc
                | .zoned wall utcOffset => ⟨wall, utcOffset⟩
              if expireAt.instant ≤ now then some .expired else none

/-! ## The admin downloads -/

/-- `_guard_active_account` of the admin routes, which look the account up
before they call it. -/
def adminGuardActiveAccount (db : Db) (userId : UserId) (now : Time) : Except HttpError Unit :=
  match db.user? userId with
  | none => .error internalError
  | some user =>
      let status := freshAccountStatus db user now
      if status.code ≠ .active then .error ⟨403, s!"Account is {status.code.text}"⟩ else .ok ()

/-! ## The rules one by one -/

variable {row : RemnawaveUser} {total : Nat} {now : Time}

/-- Both tables of status texts name the same texts, with the same reasons. -/
theorem remnawaveStatusCode?_reason (status : String) :
    (remnawaveStatusCode? status).map (·.reason) = (statusReason? status).map some := by
  unfold remnawaveStatusCode?
  split
  · rfl
  · rfl
  · rfl
  · simp [statusReason?]

/-- No listed status text stands for an active account. -/
theorem remnawaveStatusCode?_code {status : String} {answer : AccountStatus}
    (h : remnawaveStatusCode? status = some answer) : answer.code ≠ .active := by
  unfold remnawaveStatusCode? at h
  split at h <;> cases h <;> simp

theorem remnawaveStatusCode?_eq_none {status : String} :
    remnawaveStatusCode? status = none ↔ status ∉ ["DISABLED", "LIMITED", "EXPIRED"] := by
  unfold remnawaveStatusCode?
  split <;> simp_all

/-- The rule of an imported profile that was neither lost nor deleted: its
status text first, then the limit, then the expiry. -/
theorem remnawaveAccountStatus_of_synced (hsync : row.syncStatus ∉ [.missing, .stale])
    (hdelete : row.deleteRequestedAt = none) :
    remnawaveAccountStatus row total now =
      match remnawaveStatusCode? row.status with
      | some status => status
      | none =>
          if remnawaveCombinedLimited row total then ⟨.limited, some .limited⟩
          else if row.expireAt.any (· ≤ now) then ⟨.expired, some .expired⟩
          else activeStatus := by
  unfold remnawaveAccountStatus remnawaveCombinedLimited
  rw [hdelete, if_neg (by simpa using hsync)]
  cases remnawaveStatusCode? row.status with
  | some status => rfl
  | none =>
      cases row.expireAt with
      | none => rfl
      | some expireAt => simp

/-- The list asks in the same order, and normalises the expiry as `aware` does. -/
theorem remnawaveBlockedReason_of_synced {rw : LoadedProfile}
    (hsync : rw.row.syncStatus ∉ [.missing, .stale]) (hdelete : rw.row.deleteRequestedAt = none) :
    remnawaveBlockedReason rw total now =
      match statusReason? rw.row.status with
      | some reason => some reason
      | none =>
          if remnawaveCombinedLimited rw.row total then some .limited
          else if rw.read.expireAt.any (· ≤ now) then some .expired
          else none := by
  unfold remnawaveBlockedReason remnawaveCombinedLimited
  rw [hdelete, if_neg (by simp), if_neg hsync]
  cases statusReason? rw.row.status with
  | some reason => rfl
  | none =>
      cases hexpire : rw.expireAt with
      | none => simp [LoadedProfile.read, hexpire, aware]
      | some stamp => cases stamp <;> simp [LoadedProfile.read, hexpire, aware]

/-- `remnawave_blocked` reads the status text and the expiry, in one test. -/
theorem remnawaveBlocked_iff (status : String) (expireAt : Option Time) (now : Time) :
    remnawaveBlocked status expireAt now = true ↔
      remnawaveStatusCode? status ≠ none ∨ expireAt.any (· ≤ now) = true := by
  unfold remnawaveBlocked
  rw [ne_eq, remnawaveStatusCode?_eq_none, not_not]
  split
  · next h => simp only [h, true_or]
  · next h =>
      rw [or_iff_right h]
      cases expireAt <;> simp

end VpnPanel.Backend
