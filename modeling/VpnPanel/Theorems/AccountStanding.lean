import VpnPanel.Backend.Standing

/-!
# One account standing

The admin list, the services and the three guards judge an account alike: the
list shows the reason of the service, the service's answer on a synced profile
is its two block rules, and every guard refuses exactly the accounts that are
not active.
-/

namespace VpnPanel.Theorems

open VpnPanel.Backend

/-- The guard refuses the request. -/
def Refused {ε : Type} (answer : Except ε Unit) : Prop := ∃ e, answer = .error e

theorem not_refused {ε : Type} : ¬Refused (.ok () : Except ε Unit) := by
  rintro ⟨e, h⟩
  cases h

theorem refused_ite {ε : Type} {p : Prop} [Decidable p] {e : ε} :
    Refused (if p then .error e else .ok ()) ↔ p := by
  split
  · next h => exact ⟨fun _ => h, fun _ => ⟨e, rfl⟩⟩
  · next h => exact ⟨fun hr => absurd hr not_refused, fun hp => absurd hp h⟩

/-! ## The reason shown in the admin list -/

/-- Gone profiles first; the others go through one order of checks. -/
theorem blockedReason_eq (rw : LoadedProfile) (total : Nat) (now : Time) :
    remnawaveBlockedReason rw total now = (remnawaveAccountStatus rw.read total now).reason := by
  by_cases hgone : rw.row.deleteRequestedAt.isSome = true ∨ rw.row.syncStatus ∈ [.missing, .stale]
  · have hlist : remnawaveBlockedReason rw total now = some .deleted := by
      unfold remnawaveBlockedReason
      rcases hgone with h | h
      · rw [if_pos h]
      · split
        · rfl
        · rfl
    have hservice : remnawaveAccountStatus rw.read total now = ⟨.blocked, some .deleted⟩ :=
      if_pos (by simpa [LoadedProfile.read] using hgone)
    rw [hlist, hservice]
  · obtain ⟨hdelete, hsync⟩ := not_or.mp hgone
    have hdelete : rw.row.deleteRequestedAt = none := by simpa using hdelete
    have hread : rw.read.syncStatus ∉ [.missing, .stale] := hsync
    rw [remnawaveBlockedReason_of_synced hsync hdelete,
      remnawaveAccountStatus_of_synced hread hdelete]
    have hreason := remnawaveStatusCode?_reason rw.row.status
    have hstatus : rw.read.status = rw.row.status := rfl
    rw [hstatus]
    cases hcode : remnawaveStatusCode? rw.row.status with
    | some status =>
        rw [hcode] at hreason
        cases hlist : statusReason? rw.row.status <;> simp_all
    | none =>
        -- neither table names the text: the limit decides, then the expiry
        rw [hcode] at hreason
        have hlist : statusReason? rw.row.status = none := by simpa [eq_comm] using hreason
        rw [hlist]
        show (if remnawaveCombinedLimited rw.read total then _ else _) =
          AccountStatus.reason (if remnawaveCombinedLimited rw.read total then _ else _)
        split
        · rfl
        · split <;> rfl

/-! ## The block rules of the import -/

theorem synced_inactive_iff {row : RemnawaveUser} {total : Nat} {now : Time}
    (hsync : row.syncStatus = .synced) (hdelete : row.deleteRequestedAt = none) :
    (remnawaveAccountStatus row total now).code ≠ .active ↔
      remnawaveBlocked row.status row.expireAt now = true ∨
        remnawaveCombinedLimited row total = true := by
  rw [remnawaveAccountStatus_of_synced (by simp [hsync]) hdelete, remnawaveBlocked_iff]
  cases hcode : remnawaveStatusCode? row.status with
  | some status => simpa using remnawaveStatusCode?_code hcode
  | none =>
      by_cases hlimit : remnawaveCombinedLimited row total = true
      · simp [hlimit]
      · by_cases hexpired : row.expireAt.any (· ≤ now) = true <;>
          simp [hlimit, hexpired, activeStatus]

/-! ## The guards -/

section Guards

variable {db : Db} {user : User} (now : Time) (hu : db.user? user.id = some user)

/-- The public guard tests the block flag first; an active standing implies that
it is unset. -/
theorem publicGuard_iff :
    Refused (guardActiveAccount db user now) ↔ (freshAccountStatus db user now).code ≠ .active := by
  unfold guardActiveAccount
  by_cases hb : user.isBlocked = true
  · rw [if_pos hb]
    refine ⟨fun _ hactive => ?_, fun _ => ⟨_, rfl⟩⟩
    rw [accountStatus_active hactive] at hb
    cases hb
  · rw [if_neg hb]
    exact refused_ite

include hu

theorem adminGuard_iff : Refused (adminGuardActiveAccount db user.id now) ↔
    (freshAccountStatus db user now).code ≠ .active := by
  unfold adminGuardActiveAccount
  rw [hu]
  exact refused_ite

theorem requireActive_iff : Refused (requireActiveOwner db user.id now) ↔
    (freshAccountStatus db user now).code ≠ .active := by
  unfold requireActiveOwner
  rw [hu]
  exact refused_ite

end Guards

/-- **All rules of account standing agree**: the reason of the admin list with
the service, the service with the two block rules of the import, and the three
guards with each other. -/
theorem account_rules_agree :
    (∀ (rw : LoadedProfile) (total : Nat) (now : Time),
      remnawaveBlockedReason rw total now = (remnawaveAccountStatus rw.read total now).reason) ∧
    (∀ (rw : LoadedProfile) (total : Nat) (now : Time),
      rw.row.syncStatus = .synced → rw.row.deleteRequestedAt = none →
      ((remnawaveAccountStatus rw.read total now).code ≠ .active ↔
        remnawaveBlocked rw.read.status rw.read.expireAt now = true ∨
          remnawaveCombinedLimited rw.read total = true)) ∧
    ∀ (db : Db) (user : User) (now : Time), db.user? user.id = some user →
      let inactive := (accountStatus user (loadLocalTotalBytes db user.id)
        (db.profileOf? user.id) now).code ≠ .active
      (Refused (guardActiveAccount db user now) ↔ inactive) ∧
      (Refused (adminGuardActiveAccount db user.id now) ↔ inactive) ∧
      (Refused (requireActiveOwner db user.id now) ↔ inactive) := by
  refine ⟨blockedReason_eq, fun rw total now hsync hdelete => ?_, fun db user now hu => ?_⟩
  · have hread : rw.read.syncStatus = .synced := hsync
    exact synced_inactive_iff hread hdelete
  · exact ⟨publicGuard_iff now, adminGuard_iff now hu, requireActive_iff now hu⟩

/-- An imported account at its limit and at its expiry instant, the expiry given
naive: a limit is reached, so the list says so, and no guard lets it pass. -/
theorem account_rules_agree_at_limit :
    let row : RemnawaveUser := {
      userId := 0, remnawaveUuid := "r", username := "u", status := "ACTIVE",
      trafficLimitBytes := 10, trafficUsedBytes := 7 }
    let user : User := { id := 0, name := "u" }
    let total : TrafficAggregate UserId := ⟨0, 1, 2, 3, 0⟩
    let rw : LoadedProfile := ⟨row, some (.naive 5)⟩
    let db : Db := {
      users := [user], profiles := [rw.read], traffic := { userLifetime := [total] } }
    remnawaveBlockedReason rw 3 5 = some .limited ∧
      (remnawaveBlocked rw.read.status rw.read.expireAt 5 = true ∨
        remnawaveCombinedLimited rw.read 3 = true) ∧
      Refused (guardActiveAccount db user 5) ∧ Refused (adminGuardActiveAccount db user.id 5) ∧
      Refused (requireActiveOwner db user.id 5) := by
  intro row user total rw db
  obtain ⟨hreason, hsynced, hguards⟩ := account_rules_agree
  have hcode : (accountStatus user (loadLocalTotalBytes db user.id)
      (db.profileOf? user.id) 5).code ≠ .active := by decide
  have hall := hguards db user 5 rfl
  have hrules := (hsynced rw 3 5 rfl rfl).mp (by decide)
  refine ⟨(hreason rw 3 5).trans (by decide), hrules, ?_, ?_, ?_⟩
  · exact hall.1.mpr hcode
  · exact hall.2.1.mpr hcode
  · exact hall.2.2.mpr hcode

end VpnPanel.Theorems
