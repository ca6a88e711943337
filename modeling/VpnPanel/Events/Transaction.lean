import Mathlib.Data.List.Perm.Basic

/-!
# Notifications inside a transaction

The in-process transport of `services/events.py`: `notify_user_changes` parks
its payloads on the session, and listeners of the session's transaction events
hand them to the hub or drop them. A transaction is run here with its
savepoints, the events in the order SQLAlchemy fires them.
-/

namespace VpnPanel.Events

/-- `SessionTransaction`: the outermost transaction, or a savepoint (`nested`). -/
structure Transaction where
  id : Nat
  nested : Bool
  deriving DecidableEq, Repr

/-- A session: its transactions, the current one first, and the two entries of
`session.info`. `handed` is what the hub was given. -/
structure Session (P : Type) where
  stack : List Transaction := []
  nextId : Nat := 0
  /-- The open savepoints, innermost last. -/
  savepoints : Option (List Nat) := none
  /-- The parked payloads, by the number of open savepoints. -/
  payloads : Option (List (List P)) := none
  handed : List P := []

namespace Session

variable {P : Type} (s : Session P)

/-- `get_transaction()`. -/
def transaction? : Option Transaction := s.stack.getLast?

/-- `get_nested_transaction()`. -/
def nestedTransaction? : Option Transaction := s.stack.find? (·.nested)

/-! ## The listeners -/

def savepointDepth : Nat := (s.savepoints.getD []).length

/-- `notify_user_changes` off PostgreSQL. -/
def notifyUserChanges (payloads : List P) : Session P :=
  if payloads.isEmpty then s
  else
    let levels := s.payloads.getD []
    let depth := s.savepointDepth
    let padded := levels ++ List.replicate (depth + 1 - levels.length) []
    { s with payloads := some (padded.modify depth (· ++ payloads)) }

/-- `after_transaction_create`. -/
def trackSavepoint (t : Transaction) : Session P :=
  if t.nested then { s with savepoints := some (s.savepoints.getD [] ++ [t.id]) } else s

/-- `after_transaction_end`. -/
def endOfTransaction (t : Transaction) : Session P :=
  let savepoints := s.savepoints.map fun ids =>
    if ids.getLast? = some t.id then ids.dropLast else ids
  { s with
    savepoints := if savepoints.getD [] = [] then none else savepoints
    payloads := if s.transaction?.isNone then none else s.payloads }

/-- `after_commit`. -/
def flushCommittedPayloads : Session P :=
  if s.nestedTransaction?.isSome then s
  else { s with payloads := none, handed := s.handed ++ (s.payloads.getD []).flatten }

/-- `after_rollback`. -/
def dropRolledBackPayloads : Session P :=
  if s.nestedTransaction?.isNone then { s with payloads := none, savepoints := none } else s

/-- `_rolled_back_savepoint_depth`. -/
def rolledBackSavepointDepth (t : Transaction) : Nat :=
  let ids := s.savepoints.getD []
  match ids.findIdx? (· = t.id) with
  | some index => index + 1
  | none => ids.length + 1

/-- `after_soft_rollback`. -/
def dropRolledBackSavepointPayloads (previous : Transaction) : Session P :=
  if s.transaction?.isNone || !previous.nested then { s with payloads := none }
  else { s with payloads := s.payloads.map (·.take (s.rolledBackSavepointDepth previous)) }

/-! ## The transaction events -/

/-- Begin the outermost transaction or a savepoint. -/
def begin (nested : Bool) : Session P :=
  let t : Transaction := ⟨s.nextId, nested⟩
  { s with stack := t :: s.stack, nextId := s.nextId + 1 }.trackSavepoint t

/-- The current transaction ends because one around it rolls back. -/
def close : Session P :=
  match s.stack with
  | [] => s
  | t :: rest => { s with stack := rest }.endOfTransaction t

/-- Commit the current transaction; of a savepoint this is its release. -/
def commit : Session P := s.flushCommittedPayloads.close

/-- Roll the current transaction back: it is closed before `after_soft_rollback`
fires. -/
def rollback : Session P :=
  match s.stack with
  | [] => s
  | t :: _ => s.dropRolledBackPayloads.close.dropRolledBackSavepointPayloads t

end Session

/-! ## Whole transactions -/

/-- What happens in one scope, the outermost transaction or a savepoint, up to
its end. -/
inductive Body (P : Type)
  | done
  | notify (payloads : List P) (rest : Body P)
  /-- A savepoint that is released or rolled back, and what follows it. -/
  | savepoint (inner : Body P) (released : Bool) (rest : Body P)
  /-- A savepoint that is still open when the scope ends. -/
  | left (inner : Body P)

/-- How the end of a scope ends the savepoints it left open. -/
inductive Ending
  | commit | close | rollback
  deriving DecidableEq, Repr

variable {P : Type}

def Session.finish (s : Session P) : Ending → Session P
  | .commit => s.commit
  | .close => s.close
  | .rollback => s.rollback

def Body.exec : Body P → Ending → Session P → Session P
  | .done, _, s => s
  | .notify payloads rest, e, s => rest.exec e (s.notifyUserChanges payloads)
  | .savepoint inner true rest, e, s => rest.exec e (inner.exec .commit (s.begin true)).commit
  | .savepoint inner false rest, e, s => rest.exec e (inner.exec .close (s.begin true)).rollback
  | .left inner, e, s => (inner.exec e (s.begin true)).finish e

/-- The session before the outermost transaction ends. -/
def Body.run (body : Body P) (e : Ending) : Session P := body.exec e (Session.begin {} false)

/-- The payloads recorded in scopes that were released, with every scope around
them; a savepoint left open is released by the commit. -/
def Body.kept : Body P → List P
  | .done => []
  | .notify payloads rest => payloads ++ rest.kept
  | .savepoint inner true rest => inner.kept ++ rest.kept
  | .savepoint _ false rest => rest.kept
  | .left inner => inner.kept

/-! ## Payloads by depth

Each parked payload with the number of savepoints open when it was recorded. -/

def Body.tagged : Nat → Body P → List (Nat × P) → List (Nat × P)
  | _, .done, parked => parked
  | d, .notify payloads rest, parked => rest.tagged d (parked ++ payloads.map (d, ·))
  | d, .savepoint inner true rest, parked => rest.tagged d (inner.tagged (d + 1) parked)
  | d, .savepoint inner false rest, parked =>
      rest.tagged d ((inner.tagged (d + 1) parked).filter (·.1 ≤ d))
  | d, .left inner, parked => inner.tagged (d + 1) parked

/-- The levels of a session hold the parked payloads, each at its depth. -/
def Parks (levels : List (List P)) (parked : List (Nat × P)) : Prop :=
  ∀ k, levels.getD k [] = (parked.filter (·.1 = k)).map (·.2)

theorem parks_nil : Parks ([] : List (List P)) [] := fun _ => rfl

theorem Parks.notify {levels : List (List P)} {parked : List (Nat × P)} (h : Parks levels parked)
    (d : Nat) (payloads : List P) :
    Parks ((levels ++ List.replicate (d + 1 - levels.length) []).modify d (· ++ payloads))
      (parked ++ payloads.map (d, ·)) := by
  intro k
  have hpad : (levels ++ List.replicate (d + 1 - levels.length) []).getD k [] =
      levels.getD k [] := by
    simp only [List.getD_eq_getElem?_getD, List.getElem?_append, List.getElem?_replicate]
    split
    · rfl
    · split <;> simp_all
  have hlt : d < (levels ++ List.replicate (d + 1 - levels.length) ([] : List P)).length := by
    simp only [List.length_append, List.length_replicate]
    omega
  rw [List.filter_append, List.map_append, ← h k, ← hpad]
  by_cases hk : k = d
  · subst hk
    simp only [List.getD_eq_getElem?_getD, List.getElem?_modify_eq]
    rw [List.getElem?_eq_getElem hlt]
    simp [List.filter_map, Function.comp_def]
  · simp only [List.getD_eq_getElem?_getD, List.getElem?_modify_ne _ _ (Ne.symm hk)]
    simp [List.filter_map, Function.comp_def, Ne.symm hk]

theorem Parks.take {levels : List (List P)} {parked : List (Nat × P)} (h : Parks levels parked)
    (d : Nat) : Parks (levels.take (d + 1)) (parked.filter (·.1 ≤ d)) := by
  intro k
  rw [List.filter_filter]
  by_cases hk : k ≤ d
  · have hsame : ∀ x : Nat × P, (decide (x.1 = k) && decide (x.1 ≤ d)) = decide (x.1 = k) := by
      intro x
      by_cases hx : x.1 = k
      · simp [hx, hk]
      · simp [hx]
    simp only [hsame, ← h k, List.getD_eq_getElem?_getD, List.getElem?_take]
    rw [if_pos (by omega)]
  · have hnone : ∀ x : Nat × P, (decide (x.1 = k) && decide (x.1 ≤ d)) = false := by
      intro x
      by_cases hx : x.1 = k
      · simp [hx, hk]
      · simp [hx]
    simp only [hnone, List.filter_false, List.map_nil, List.getD_eq_getElem?_getD,
      List.getElem?_take]
    rw [if_neg (by omega)]
    rfl

/-- Every parked payload stands in the levels, once. -/
theorem Parks.flatten_perm : ∀ (levels : List (List P)) (parked : List (Nat × P)) (first : Nat),
    (∀ k, levels.getD k [] = (parked.filter (·.1 = first + k)).map (·.2)) →
    (∀ x ∈ parked, first ≤ x.1) → levels.flatten.Perm (parked.map (·.2)) := by
  intro levels
  induction levels with
  | nil =>
      intro parked first hparks hfirst
      have hempty : parked = [] := by
        rw [List.eq_nil_iff_forall_not_mem]
        intro x hx
        have hlevel := hparks (x.1 - first)
        have hmem : x ∈ parked.filter (·.1 = first + (x.1 - first)) := by
          have := hfirst x hx
          simp only [List.mem_filter, decide_eq_true_eq]
          exact ⟨hx, by omega⟩
        simp only [List.getD_nil] at hlevel
        rw [List.map_eq_nil_iff.mp hlevel.symm] at hmem
        cases hmem
      simp [hempty]
  | cons level rest ih =>
      intro parked first hparks hfirst
      -- the head holds the payloads of `first`, the tail those of the later depths
      have hhead : level = (parked.filter (·.1 = first)).map (·.2) := by simpa using hparks 0
      have htail := ih (parked.filter (fun x => !decide (x.1 = first))) (first + 1) (by
        intro k
        rw [List.filter_filter]
        have hk := hparks (k + 1)
        simp only [List.getD_cons_succ] at hk
        rw [hk]
        congr 1
        apply List.filter_congr
        intro x _
        by_cases hx : x.1 = first + (k + 1)
        · simp [hx]
          omega
        · have : x.1 ≠ first + 1 + k := by omega
          simp [hx, this]) (by
        intro x hx
        have := hfirst x (List.mem_filter.mp hx).1
        have hne : x.1 ≠ first := by simpa using (List.mem_filter.mp hx).2
        omega)
      rw [List.flatten_cons, hhead]
      refine (List.Perm.append_left _ htail).trans ?_
      rw [← List.map_append]
      exact (List.filter_append_perm _ parked).map _

/-! ## What the listeners do to a session -/

/-- The session is inside the outermost transaction `root` and the savepoints
`ids`, the innermost last, and its bookkeeping says so. -/
structure Session.Inside (s : Session P) (root : Transaction) (ids : List Nat) : Prop where
  outermost : root.nested = false
  stack : s.stack = ids.reverse.map (⟨·, true⟩) ++ [root]
  savepoints : s.savepoints = if ids = [] then none else some ids
  fresh : ∀ id ∈ ids, id < s.nextId

namespace Session

variable {s : Session P} {root : Transaction} {ids : List Nat} {id : Nat}

theorem Inside.openIds (h : s.Inside root ids) : s.savepoints.getD [] = ids := by
  rw [h.savepoints]
  split
  · next hids => simp [hids]
  · rfl

theorem Inside.depth (h : s.Inside root ids) : s.savepointDepth = ids.length := by
  rw [savepointDepth, h.openIds]

theorem Inside.transaction (h : s.Inside root ids) : s.transaction? = some root := by
  unfold transaction?
  simp [h.stack]

theorem Inside.nested (h : s.Inside root (ids ++ [id])) :
    s.nestedTransaction? = some ⟨id, true⟩ := by
  unfold nestedTransaction?
  simp [h.stack]

theorem Inside.not_nested (h : s.Inside root []) : s.nestedTransaction? = none := by
  unfold nestedTransaction?
  simp [h.stack, h.outermost]

theorem Inside.notify (h : s.Inside root ids) (payloads : List P) :
    (s.notifyUserChanges payloads).Inside root ids ∧
      (s.notifyUserChanges payloads).handed = s.handed := by
  unfold notifyUserChanges
  split
  · exact ⟨h, rfl⟩
  · exact ⟨⟨h.outermost, h.stack, h.savepoints, h.fresh⟩, rfl⟩

theorem Inside.begin (h : s.Inside root ids) :
    (s.begin true).Inside root (ids ++ [s.nextId]) ∧ (s.begin true).handed = s.handed ∧
      (s.begin true).payloads = s.payloads := by
  refine ⟨⟨h.outermost, ?_, ?_, ?_⟩, rfl, rfl⟩
  · simp [Session.begin, trackSavepoint, h.stack]
  · simp [Session.begin, trackSavepoint, h.openIds]
  · intro i hi
    show i < s.nextId + 1
    rcases List.mem_append.mp hi with hi | hi
    · exact Nat.lt_succ_of_lt (h.fresh i hi)
    · simp [List.mem_singleton.mp hi]

/-- Closing the innermost savepoint forgets it, and no payload. -/
theorem Inside.close (h : s.Inside root (ids ++ [id])) :
    s.close.Inside root ids ∧ s.close.handed = s.handed ∧ s.close.payloads = s.payloads := by
  have hstack : s.stack = ⟨id, true⟩ :: (ids.reverse.map (⟨·, true⟩) ++ [root]) := by
    simp [h.stack]
  have hsavepoints : s.savepoints = some (ids ++ [id]) := by simp [h.savepoints]
  unfold Session.close
  rw [hstack]
  refine ⟨⟨h.outermost, rfl, ?_, fun i hi => h.fresh i (List.mem_append_left _ hi)⟩, rfl, ?_⟩
  · simp [endOfTransaction, hsavepoints]
  · simp [endOfTransaction, transaction?]

/-- Releasing a savepoint hands nothing over: the commit is not the outermost. -/
theorem Inside.release (h : s.Inside root (ids ++ [id])) :
    s.commit.Inside root ids ∧ s.commit.handed = s.handed ∧ s.commit.payloads = s.payloads := by
  have hflush : s.flushCommittedPayloads = s := by
    unfold flushCommittedPayloads
    simp [h.nested]
  unfold Session.commit
  rw [hflush]
  exact h.close

/-- Rolling a savepoint back cuts the levels down to those around it. -/
theorem Inside.rollback (h : s.Inside root (ids ++ [id])) (hid : id ∉ ids) :
    s.rollback.Inside root ids ∧ s.rollback.handed = s.handed ∧
      s.rollback.payloads = s.payloads.map (·.take (ids.length + 1)) := by
  have hstack : s.stack = ⟨id, true⟩ :: (ids.reverse.map (⟨·, true⟩) ++ [root]) := by
    simp [h.stack]
  have hdrop : s.dropRolledBackPayloads = s := by
    unfold dropRolledBackPayloads
    simp [h.nested]
  obtain ⟨hinside, hhanded, hpayloads⟩ := h.close
  unfold Session.rollback
  rw [hstack]
  dsimp only
  rw [hdrop]
  unfold dropRolledBackSavepointPayloads
  rw [hinside.transaction]
  -- the savepoint is forgotten already, so its depth is one more than what is left
  have hdepth : s.close.rolledBackSavepointDepth ⟨id, true⟩ = ids.length + 1 := by
    unfold rolledBackSavepointDepth
    rw [hinside.openIds]
    have hnone : ids.findIdx? (· = id) = none := by
      rw [List.findIdx?_eq_none_iff]
      intro i hi
      simpa using fun heq : i = id => hid (heq ▸ hi)
    simp [hnone]
  refine ⟨⟨hinside.outermost, hinside.stack, hinside.savepoints, hinside.fresh⟩, hhanded, ?_⟩
  simp [hpayloads, hdepth]

end Session

open Session

/-- Until the outermost transaction ends, nothing is handed to the hub. -/
theorem Body.exec_inside (body : Body P) : ∀ {s : Session P} {root : Transaction} {ids : List Nat}
    (e : Ending), s.Inside root ids →
      (body.exec e s).Inside root ids ∧ (body.exec e s).handed = s.handed := by
  induction body with
  | done => exact fun e h => ⟨h, rfl⟩
  | notify payloads rest ih =>
      intro s root ids e h
      obtain ⟨hinside, hhanded⟩ := h.notify payloads
      obtain ⟨hrest, hsame⟩ := ih e hinside
      exact ⟨hrest, hsame.trans hhanded⟩
  | savepoint inner released rest ihInner ihRest =>
      intro s root ids e h
      obtain ⟨hbegun, hbegin, -⟩ := h.begin
      have hfresh : s.nextId ∉ ids := fun hmem => Nat.lt_irrefl _ (h.fresh _ hmem)
      cases released with
      | true =>
          obtain ⟨hinner, hsame⟩ := ihInner .commit hbegun
          obtain ⟨hended, hend, -⟩ := hinner.release
          obtain ⟨hrest, hrestSame⟩ := ihRest e hended
          exact ⟨hrest, hrestSame.trans (hend.trans (hsame.trans hbegin))⟩
      | false =>
          obtain ⟨hinner, hsame⟩ := ihInner .close hbegun
          obtain ⟨hended, hend, -⟩ := hinner.rollback hfresh
          obtain ⟨hrest, hrestSame⟩ := ihRest e hended
          exact ⟨hrest, hrestSame.trans (hend.trans (hsame.trans hbegin))⟩
  | left inner ih =>
      intro s root ids e h
      obtain ⟨hbegun, hbegin, -⟩ := h.begin
      have hfresh : s.nextId ∉ ids := fun hmem => Nat.lt_irrefl _ (h.fresh _ hmem)
      obtain ⟨hinner, hsame⟩ := ih e hbegun
      cases e with
      | commit => exact ⟨hinner.release.1, hinner.release.2.1.trans (hsame.trans hbegin)⟩
      | close => exact ⟨hinner.close.1, hinner.close.2.1.trans (hsame.trans hbegin)⟩
      | rollback =>
          obtain ⟨hended, hend, -⟩ := hinner.rollback hfresh
          exact ⟨hended, hend.trans (hsame.trans hbegin)⟩

/-- The levels of the session are the payloads parked by depth, as long as the
scope itself is not rolled back. -/
theorem Body.exec_parks (body : Body P) : ∀ {s : Session P} {root : Transaction} {ids : List Nat}
    {parked : List (Nat × P)} (e : Ending), e ≠ .rollback → s.Inside root ids →
      Parks (s.payloads.getD []) parked →
      Parks ((body.exec e s).payloads.getD []) (body.tagged ids.length parked) := by
  induction body with
  | done => exact fun _ _ _ h => h
  | notify payloads rest ih =>
      intro s root ids parked e he hinside hparks
      refine ih e he (hinside.notify payloads).1 ?_
      unfold notifyUserChanges
      split
      · next hempty => simpa [List.isEmpty_iff.mp hempty] using hparks
      · simpa [hinside.depth] using hparks.notify ids.length payloads
  | savepoint inner released rest ihInner ihRest =>
      intro s root ids parked e he hinside hparks
      obtain ⟨hbegun, -, hpayloads⟩ := hinside.begin
      have hstart : Parks ((s.begin true).payloads.getD []) parked := by rwa [hpayloads]
      have hlength : (ids ++ [s.nextId]).length = ids.length + 1 := by simp
      cases released with
      | true =>
          have hinner := ihInner (e := .commit) (by simp) hbegun hstart
          rw [hlength] at hinner
          obtain ⟨hended, -, hsame⟩ := (inner.exec_inside .commit hbegun).1.release
          refine ihRest e he hended ?_
          rwa [hsame]
      | false =>
          have hfresh : s.nextId ∉ ids := fun hmem => Nat.lt_irrefl _ (hinside.fresh _ hmem)
          have hinner := ihInner (e := .close) (by simp) hbegun hstart
          rw [hlength] at hinner
          obtain ⟨hended, -, hsame⟩ := (inner.exec_inside .close hbegun).1.rollback hfresh
          refine ihRest e he hended ?_
          rw [hsame]
          have htake := hinner.take ids.length
          cases hnone : (inner.exec .close (s.begin true)).payloads with
          | none => simpa [hnone] using htake
          | some levels => simpa [hnone] using htake
  | left inner ih =>
      intro s root ids parked e he hinside hparks
      obtain ⟨hbegun, -, hpayloads⟩ := hinside.begin
      have hinner := ih e he hbegun (by rwa [hpayloads])
      rw [show (ids ++ [s.nextId]).length = ids.length + 1 by simp] at hinner
      have hended := (inner.exec_inside e hbegun).1
      show Parks (((inner.exec e (s.begin true)).finish e).payloads.getD []) _
      cases e with
      | commit =>
          rw [show ((inner.exec .commit (s.begin true)).finish .commit).payloads = _ from
            hended.release.2.2]
          exact hinner
      | close =>
          rw [show ((inner.exec .close (s.begin true)).finish .close).payloads = _ from
            hended.close.2.2]
          exact hinner
      | rollback => exact absurd rfl he

end VpnPanel.Events
