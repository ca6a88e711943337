import VpnPanel.Events.Transaction

/-!
# Notifications and savepoints

Payloads are parked by depth. A savepoint that rolls back takes every payload at
its depth or deeper with it, also those of a savepoint that was released before
it began. Apart from that the hub is handed exactly what was kept.
-/

namespace VpnPanel.Theorems

open VpnPanel.Events

variable {P : Type}

/-- Nothing is handed over before the outermost transaction ends, a commit hands
over what was recorded in released scopes, each payload once, and a rollback
nothing. -/
def FollowsTree (body : Body P) : Prop :=
  (body.run .commit).handed = [] ∧ (body.run .commit).commit.handed.Perm body.kept ∧
    (body.run .rollback).rollback.handed = []

/-- The kept payloads of a scope with their depths, in the order of recording. -/
def keptTagged : Nat → Body P → List (Nat × P)
  | _, .done => []
  | d, .notify payloads rest => payloads.map (d, ·) ++ keptTagged d rest
  | d, .savepoint inner true rest => keptTagged (d + 1) inner ++ keptTagged d rest
  | d, .savepoint _ false rest => keptTagged d rest
  | d, .left inner => keptTagged (d + 1) inner

/-- At every savepoint of a kept scope that rolls back, all payloads kept so far
were recorded at a smaller depth than its own. `depths` are the depths of the
payloads kept before this scope. -/
def Undisturbed : Nat → List Nat → Body P → Prop
  | _, _, .done => True
  | d, depths, .notify payloads rest => Undisturbed d (depths ++ payloads.map fun _ => d) rest
  | d, depths, .savepoint inner true rest =>
      Undisturbed (d + 1) depths inner ∧
        Undisturbed d (depths ++ (keptTagged (d + 1) inner).map (·.1)) rest
  | d, depths, .savepoint _ false rest => (∀ k ∈ depths, k < d + 1) ∧ Undisturbed d depths rest
  | d, depths, .left inner => Undisturbed (d + 1) depths inner

theorem keptTagged_kept (body : Body P) : ∀ d, (keptTagged d body).map (·.2) = body.kept := by
  induction body with
  | done => exact fun _ => rfl
  | notify payloads rest ih =>
      intro d
      simp [keptTagged, Body.kept, ih, Function.comp_def]
  | savepoint inner released rest ihInner ihRest =>
      intro d
      cases released with
      | true => simp [keptTagged, Body.kept, ihInner, ihRest]
      | false => simp [keptTagged, Body.kept, ihRest]
  | left inner ih => exact fun d => ih (d + 1)

/-- A scope leaves the payloads parked at smaller depths alone. -/
theorem tagged_below (body : Body P) : ∀ {d k : Nat} {parked : List (Nat × P)}, k < d →
    (body.tagged d parked).filter (·.1 ≤ k) = parked.filter (·.1 ≤ k) := by
  induction body with
  | done => exact fun _ => rfl
  | notify payloads rest ih =>
      intro d k parked hk
      rw [Body.tagged, ih hk, List.filter_append]
      simp [List.filter_map, Function.comp_def, Nat.not_le.mpr hk]
  | savepoint inner released rest ihInner ihRest =>
      intro d k parked hk
      cases released with
      | true => rw [Body.tagged, ihRest hk, ihInner (by omega)]
      | false =>
          rw [Body.tagged, ihRest hk, List.filter_filter]
          -- what is kept at depth `d` and below includes depth `k` and below
          have hboth : ∀ x : Nat × P,
              (decide (x.1 ≤ k) && decide (x.1 ≤ d)) = decide (x.1 ≤ k) := by
            intro x
            by_cases hx : x.1 ≤ k
            · simp [hx, Nat.le_trans hx (Nat.le_of_lt hk)]
            · simp [hx]
          simp only [hboth]
          exact ihInner (by omega)
  | left inner ih => exact fun hk => ih (by omega)

/-- An undisturbed scope adds its kept payloads and drops none. -/
theorem tagged_of_undisturbed (body : Body P) : ∀ {d : Nat} {parked : List (Nat × P)},
    Undisturbed d (parked.map (·.1)) body → body.tagged d parked = parked ++ keptTagged d body := by
  induction body with
  | done =>
      intro d parked _
      simp [Body.tagged, keptTagged]
  | notify payloads rest ih =>
      intro d parked h
      rw [Body.tagged, ih (by simpa [Undisturbed, Function.comp_def] using h)]
      simp [keptTagged]
  | savepoint inner released rest ihInner ihRest =>
      intro d parked h
      cases released with
      | true =>
          obtain ⟨hinner, hrest⟩ := h
          rw [Body.tagged, ihInner hinner, ihRest (by simpa using hrest)]
          simp [keptTagged]
      | false =>
          obtain ⟨hbelow, hrest⟩ := h
          have hall : parked.filter (·.1 ≤ d) = parked := by
            rw [List.filter_eq_self]
            intro x hx
            have := hbelow x.1 (List.mem_map_of_mem hx)
            simp only [decide_eq_true_eq]
            omega
          rw [Body.tagged, tagged_below inner (Nat.lt_succ_self d), hall, ihRest hrest]
          rfl
  | left inner ih => exact fun h => ih h

/-- No scope parks more than its kept payloads. -/
theorem length_tagged_le (body : Body P) : ∀ (d : Nat) (parked : List (Nat × P)),
    (body.tagged d parked).length ≤ parked.length + body.kept.length := by
  induction body with
  | done => simp [Body.tagged, Body.kept]
  | notify payloads rest ih =>
      intro d parked
      have := ih d (parked ++ payloads.map (d, ·))
      simp only [Body.tagged, Body.kept, List.length_append, List.length_map] at this ⊢
      omega
  | savepoint inner released rest ihInner ihRest =>
      intro d parked
      cases released with
      | true =>
          have hinner := ihInner (d + 1) parked
          have hrest := ihRest d (inner.tagged (d + 1) parked)
          simp only [Body.tagged, Body.kept, List.length_append] at hrest ⊢
          omega
      | false =>
          have hrest := ihRest d (parked.filter (·.1 ≤ d))
          have hfilter := List.length_filter_le (fun x : Nat × P => x.1 ≤ d) parked
          rw [Body.tagged, tagged_below inner (Nat.lt_succ_self d)]
          simp only [Body.kept]
          omega
  | left inner ih => exact fun d parked => ih (d + 1) parked

/-- A disturbed scope has dropped a payload for good. -/
theorem length_tagged_lt (body : Body P) : ∀ {d : Nat} {parked : List (Nat × P)},
    ¬Undisturbed d (parked.map (·.1)) body →
      (body.tagged d parked).length < parked.length + body.kept.length := by
  induction body with
  | done => exact fun h => absurd trivial h
  | notify payloads rest ih =>
      intro d parked h
      have hrest : ¬Undisturbed d ((parked ++ payloads.map (d, ·)).map (·.1)) rest := by
        simpa [Undisturbed, Function.comp_def] using h
      have := ih hrest
      simp only [Body.tagged, Body.kept, List.length_append, List.length_map] at this ⊢
      omega
  | savepoint inner released rest ihInner ihRest =>
      intro d parked h
      cases released with
      | true =>
          by_cases hinner : Undisturbed (d + 1) (parked.map (·.1)) inner
          · have hrest : ¬Undisturbed d ((parked ++ keptTagged (d + 1) inner).map (·.1)) rest := by
              intro hrest
              exact h ⟨hinner, by simpa using hrest⟩
            have hlt := ihRest hrest
            have hkept := congrArg List.length (keptTagged_kept inner (d + 1))
            rw [Body.tagged, tagged_of_undisturbed inner hinner]
            simp only [Body.kept, List.length_append, List.length_map] at hlt hkept ⊢
            omega
          · have hlt := ihInner hinner
            have hle := length_tagged_le rest d (inner.tagged (d + 1) parked)
            simp only [Body.tagged, Body.kept, List.length_append] at hle ⊢
            omega
      | false =>
          rw [Body.tagged, tagged_below inner (Nat.lt_succ_self d)]
          by_cases hbelow : ∀ k ∈ parked.map (·.1), k < d + 1
          · have hall : parked.filter (·.1 ≤ d) = parked := by
              rw [List.filter_eq_self]
              intro x hx
              have := hbelow x.1 (List.mem_map_of_mem hx)
              simp only [decide_eq_true_eq]
              omega
            rw [hall]
            exact ihRest fun hrest => h ⟨hbelow, hrest⟩
          · -- a payload of a savepoint released before goes with the rollback
            have hdropped : (parked.filter (·.1 ≤ d)).length < parked.length := by
              rw [List.length_filter_lt_length_iff_exists]
              simp only [List.mem_map, forall_exists_index, and_imp, forall_apply_eq_imp_iff₂,
                not_forall] at hbelow
              obtain ⟨x, hx, hlarge⟩ := hbelow
              exact ⟨x, hx, by simpa using by omega⟩
            have hle := length_tagged_le rest d (parked.filter (·.1 ≤ d))
            simp only [Body.kept]
            omega
  | left inner ih => exact fun h => ih h

/-! ## The outermost transaction -/

theorem begun_inside : (Session.begin ({} : Session P) false).Inside ⟨0, false⟩ [] where
  outermost := rfl
  stack := rfl
  savepoints := rfl
  fresh := by simp

/-- The commit hands over the levels, the rollback nothing. -/
theorem run_handed (body : Body P) :
    (body.run .commit).handed = [] ∧ (body.run .rollback).rollback.handed = [] ∧
      (body.run .commit).commit.handed.Perm ((body.tagged 0 []).map (·.2)) := by
  obtain ⟨hinside, hhanded⟩ := body.exec_inside (P := P) .commit begun_inside
  obtain ⟨hrolled, hnothing⟩ := body.exec_inside (P := P) .rollback begun_inside
  refine ⟨hhanded, ?_, ?_⟩
  · have hstack : (body.run .rollback).stack = [⟨0, false⟩] := hrolled.stack
    have hnested : (body.run .rollback).nestedTransaction? = none := hrolled.not_nested
    have hempty : (body.run .rollback).handed = [] := hnothing
    simp [Session.rollback, hstack, Session.dropRolledBackPayloads, hnested, Session.close,
      Session.endOfTransaction, Session.dropRolledBackSavepointPayloads, Session.transaction?,
      hempty]
  · have hparks := body.exec_parks .commit (by simp) begun_inside parks_nil
    have hnested : (body.run .commit).nestedTransaction? = none := hinside.not_nested
    have hstack : (body.run .commit).stack = [⟨0, false⟩] := hinside.stack
    have hempty : (body.run .commit).handed = [] := hhanded
    have hcommit : (body.run .commit).commit.handed =
        ((body.run .commit).payloads.getD []).flatten := by
      simp [Session.commit, Session.flushCommittedPayloads, hnested, Session.close, hstack,
        Session.endOfTransaction, hempty]
    rw [hcommit]
    have hparked : Parks ((body.run .commit).payloads.getD []) (body.tagged 0 []) := hparks
    exact Parks.flatten_perm _ _ 0 (fun k => by simpa using hparked k) (by simp)

/-- **Notifications follow the transaction tree, unless a released savepoint is
disturbed.** -/
theorem follows_tree_iff (body : Body P) : FollowsTree body ↔ Undisturbed 0 [] body := by
  obtain ⟨hbefore, hrollback, hcommit⟩ := run_handed body
  constructor
  · rintro ⟨-, hperm, -⟩
    by_contra hdisturbed
    have hfrom : ¬Undisturbed 0 (([] : List (Nat × P)).map (·.1)) body := hdisturbed
    have hlt := length_tagged_lt body hfrom
    have hlength := (hcommit.symm.trans hperm).length_eq
    simp only [List.length_map, List.length_nil] at hlength hlt
    omega
  · intro h
    have hfrom : Undisturbed 0 (([] : List (Nat × P)).map (·.1)) body := h
    have htagged := tagged_of_undisturbed body hfrom
    rw [htagged, List.nil_append, keptTagged_kept] at hcommit
    exact ⟨hbefore, hcommit, hrollback⟩

/-- A savepoint records a notification and is released; the next one rolls back,
and the commit announces nothing. -/
theorem released_notification_dropped :
    ¬FollowsTree (Body.savepoint (.notify ["device.created"] .done) true
      (.savepoint .done false .done)) := by
  rintro ⟨-, hperm, -⟩
  exact absurd hperm.length_eq (by decide)

end VpnPanel.Theorems
