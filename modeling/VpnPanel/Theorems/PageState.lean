import Mathlib.Data.List.Pairwise
import VpnPanel.UserPage.Ownership

/-!
# What the public page shows

Answers may arrive in any order, after any number of resets and token changes.
The ticket of an answer that was overtaken is no longer the current one, and the
run of a request that lost the state is not the page's.
-/

namespace VpnPanel.Theorems

open VpnPanel.Lib VpnPanel.UserPage

variable {p q : Page} {e : Event}

/-- The event makes every read that began before it too old. -/
def Outdates (p : Page) : Event → Prop
  | .reset | .acceptInfo _ | .invalidate | .stop => True
  | .frame generation .unauthorized => generation = p.stream.generation
  | _ => False

/-- The event asks for a read. -/
def Asks (p : Page) : Event → Prop
  | .refresh _ | .pollTimer => True
  | .visibility hidden => hidden = false ∧ p.listening = true
  | .frame generation (.connected _) | .frame generation (.changed _)
  | .frame generation .unauthorized => generation = p.stream.generation
  | _ => False

/-- A read newer than `run` is in flight. -/
def Newer (run : Nat) (p : Page) : Prop := ∃ r ∈ p.requests, run < r.run

/-! ## The counters only grow -/

def Grows (p q : Page) : Prop := p.current ≤ q.current ∧ p.run ≤ q.run

theorem Grows.refl (p : Page) : Grows p p := ⟨Nat.le_refl _, Nat.le_refl _⟩

theorem Grows.trans {r : Page} (h : Grows p q) (h' : Grows q r) : Grows p r :=
  ⟨Nat.le_trans h.1 h'.1, Nat.le_trans h.2 h'.2⟩

theorem grows_schedule (p : Page) : Grows p p.schedule := by
  obtain ⟨timer, since, heq⟩ := p.schedule_eq
  rw [heq]
  exact Grows.refl p

theorem grows_syncStream (p : Page) : Grows p p.syncStream := by
  obtain ⟨stream, available, heq⟩ := p.syncStream_eq
  rw [heq]
  exact Grows.refl p

theorem grows_refresh (p : Page) (silent : Bool) : Grows p (p.refresh silent) := by
  unfold Page.refresh
  split
  · exact Grows.refl p
  · split
    · exact Grows.refl p
    · exact ⟨Nat.le_succ _, Nat.le_succ _⟩

theorem grows_finish (p : Page) (r : Request) : Grows p (p.finish r) := by
  unfold Page.finish
  split
  · dsimp only
    split
    · exact Grows.refl p
    · split
      · refine Grows.trans (q := { p with
          inFlight := false, controller := none, refreshing := false, loading := false
          queued := false }) (Grows.refl p) (grows_refresh _ _)
      · refine Grows.trans (q := { p with
          inFlight := false, controller := none, refreshing := false, loading := false })
          (Grows.refl p) (grows_schedule _)
  · exact Grows.refl p

theorem grows_settle (p : Page) (r : Request) (outcome : Outcome) :
    Grows p (p.settle r outcome) := by
  obtain ⟨info, error, retrying, loaded, heq⟩ :=
    ({ p with requests := p.requests.erase r } : Page).receive_eq r outcome
  unfold Page.settle
  rw [heq]
  refine Grows.trans ?_ (grows_finish _ r)
  exact Grows.refl p

theorem grows_handle (p : Page) (signal : Option Signal) : Grows p (p.handle signal) := by
  rcases signal with _ | signal
  · exact Grows.refl p
  · cases signal with
    | onConnected event =>
        exact grows_refresh { p with notificationsAvailable := event.notifications } true
    | onChanged reason => exact grows_refresh p true
    | onUnauthorized =>
        refine Grows.trans ?_ (grows_refresh _ true)
        exact ⟨Nat.le_succ _, Nat.le_refl _⟩

theorem grows_onVisibilityChange (p : Page) : Grows p p.onVisibilityChange := by
  unfold Page.onVisibilityChange
  split
  · exact Grows.refl p
  · exact (grows_syncStream p).trans (grows_refresh _ _)

/-- A reset moves both counters. -/
theorem reset_grows (p : Page) : p.current < p.reset.current ∧ p.run < p.reset.run := by
  have hgrows : Grows (p.invalidate.seize) p.reset := by
    unfold Page.reset
    refine Grows.trans ?_ (grows_refresh _ false)
    refine Grows.trans ?_ (grows_syncStream _)
    exact ⟨Nat.le_refl _, Nat.le_refl _⟩
  exact ⟨Nat.lt_of_succ_le hgrows.1, Nat.lt_of_succ_le hgrows.2⟩

theorem grows_step (h : p.step e = some q) : Grows p q := by
  cases e with
  | start =>
      rw [← Option.some.inj h]
      unfold Page.start
      split
      · exact Grows.refl p
      · refine Grows.trans ?_ (grows_refresh _ false)
        exact grows_syncStream { p with started := true, listening := true }
  | stop =>
      rw [← Option.some.inj h]
      exact ⟨Nat.le_succ _, Nat.le_succ _⟩
  | reset =>
      rw [← Option.some.inj h]
      exact ⟨Nat.le_of_lt (reset_grows p).1, Nat.le_of_lt (reset_grows p).2⟩
  | refresh silent => exact Option.some.inj h ▸ grows_refresh p silent
  | acceptInfo data =>
      rw [← Option.some.inj h]
      refine Grows.trans ?_ (grows_schedule _)
      exact ⟨Nat.le_succ _, Nat.le_refl _⟩
  | invalidate =>
      rw [← Option.some.inj h]
      exact ⟨Nat.le_succ _, Nat.le_refl _⟩
  | visibility hidden =>
      rw [← Option.some.inj h]
      dsimp only
      split
      · exact grows_onVisibilityChange { p with hidden }
      · exact Grows.refl p
  | frame generation frame =>
      simp only [Page.step] at h
      split at h
      · exact Option.some.inj h ▸ Grows.refl p
      · obtain ⟨-, h⟩ := Option.ite_none_right_eq_some.mp h
        rw [← Option.some.inj h]
        exact grows_handle { p with stream := (p.stream.receive frame).1 } _
  | pollTimer =>
      obtain ⟨-, h⟩ := Option.ite_none_right_eq_some.mp h
      rw [← Option.some.inj h]
      exact grows_refresh { p with timer := none } true
  | settle request outcome =>
      obtain ⟨-, h⟩ := Option.ite_none_right_eq_some.mp h
      exact Option.some.inj h ▸ grows_settle p request outcome
  | retryTimer =>
      obtain ⟨-, h⟩ := Option.ite_none_right_eq_some.mp h
      exact Option.some.inj h ▸ Grows.refl p
  | setToken token => exact Option.some.inj h ▸ Grows.refl p
  | clock now => exact Option.some.inj h ▸ Grows.refl p

theorem grows_run {token : Token} {hidden : Bool} {steps : List (Page × Event)}
    (h : (userPage token hidden).Trace p steps q) : Grows p q := by
  induction h with
  | nil p => exact Grows.refl p
  | cons hstep _ ih => exact (grows_step hstep).trans ih

theorem outdates_step (he : Outdates p e) (h : p.step e = some q) : p.current < q.current := by
  cases e with
  | reset =>
      rw [← Option.some.inj h]
      exact (reset_grows p).1
  | acceptInfo data =>
      rw [← Option.some.inj h]
      refine Nat.lt_of_succ_le (Nat.le_trans ?_ (grows_schedule _).1)
      exact Nat.le_refl _
  | invalidate =>
      rw [← Option.some.inj h]
      exact Nat.lt_succ_self _
  | stop =>
      rw [← Option.some.inj h]
      exact Nat.lt_succ_self _
  | frame generation frame =>
      cases frame with
      | unauthorized =>
          simp only [Page.step] at h
          rw [if_neg (fun hne => hne he)] at h
          obtain ⟨-, h⟩ := Option.ite_none_right_eq_some.mp h
          rw [← Option.some.inj h]
          refine Nat.lt_of_succ_le (Nat.le_trans ?_ (grows_refresh _ true).1)
          exact Nat.le_refl _
      | _ => cases he
  | _ => cases he

/-! ## What an answer may change -/

theorem refresh_shows (p : Page) (silent : Bool) :
    (p.refresh silent).info = p.info ∧ (p.refresh silent).error = p.error := by
  unfold Page.refresh
  split
  · exact ⟨rfl, rfl⟩
  · split
    · exact ⟨rfl, rfl⟩
    · exact ⟨rfl, rfl⟩

theorem reset_shows (p : Page) : p.reset.info = none ∧ p.reset.error = none := by
  obtain ⟨stream, available, heq⟩ := p.reset_eq
  rw [heq]
  exact refresh_shows _ false

theorem finish_shows (p : Page) (r : Request) :
    (p.finish r).info = p.info ∧ (p.finish r).error = p.error := by
  unfold Page.finish
  split
  · dsimp only
    split
    · exact ⟨rfl, rfl⟩
    · split
      · exact refresh_shows _ true
      · obtain ⟨timer, since, heq⟩ := Page.schedule_eq { p with
          inFlight := false, controller := none, refreshing := false, loading := false }
        rw [heq]
        exact ⟨rfl, rfl⟩
  · exact ⟨rfl, rfl⟩

/-- An answer that does not count is dropped. -/
theorem settle_shows {r : Request} (hcounts : ¬p.Counts r) (outcome : Outcome) :
    (p.settle r outcome).info = p.info ∧ (p.settle r outcome).error = p.error := by
  unfold Page.settle
  rw [Page.receive_of_not_counts { p with requests := p.requests.erase r } hcounts]
  exact finish_shows _ r

theorem settle_step {r : Request} {outcome : Outcome} (h : p.step (.settle r outcome) = some q) :
    r ∈ p.requests ∧ q = p.settle r outcome := by
  obtain ⟨⟨hr, -⟩, h⟩ := Option.ite_none_right_eq_some.mp h
  exact ⟨hr, (Option.some.inj h).symm⟩

/-! ## A read that was asked for -/

theorem refresh_of_busy (hstarted : p.started = true) (hflight : p.inFlight = true)
    (silent : Bool) : p.refresh silent = { p with queued := true } := by
  simp [Page.refresh, hstarted, hflight]

theorem newer_refresh {run : Nat} (hstarted : p.started = true) (hflight : p.inFlight = false)
    (hrun : run ≤ p.run) (silent : Bool) : Newer run (p.refresh silent) := by
  rw [show p.refresh silent = p.begin silent by simp [Page.refresh, hstarted, hflight]]
  exact ⟨_, List.mem_cons_self, Nat.lt_succ_of_le hrun⟩

/-- The read `run` is in flight, and another one is queued behind it. -/
structure Awaits (run : Nat) (p : Page) : Prop where
  started : p.started = true
  inFlight : p.inFlight = true
  queued : p.queued = true
  run : p.run = run

theorem Awaits.refresh {run : Nat} (h : Awaits run p) (silent : Bool) :
    Awaits run (p.refresh silent) := by
  rw [refresh_of_busy h.started h.inFlight]
  exact ⟨h.started, h.inFlight, rfl, h.run⟩

theorem Awaits.syncStream {run : Nat} (h : Awaits run p) : Awaits run p.syncStream := by
  obtain ⟨stream, available, heq⟩ := p.syncStream_eq
  rw [heq]
  exact ⟨h.started, h.inFlight, h.queued, h.run⟩

/-- When the read in flight settles, the queued one begins. -/
theorem Awaits.settle {run : Nat} (h : Awaits run p) {r : Request} (hrun : r.run = run)
    (outcome : Outcome) : Newer run (p.settle r outcome) := by
  obtain ⟨info, error, retrying, loaded, heq⟩ :=
    ({ p with requests := p.requests.erase r } : Page).receive_eq r outcome
  unfold Page.settle
  rw [heq]
  unfold Page.finish
  rw [if_pos (hrun.trans h.run.symm)]
  dsimp only
  rw [if_neg (by simp [h.started]), if_pos h.queued]
  refine newer_refresh ?_ rfl ?_ true
  · exact h.started
  · exact Nat.le_of_eq h.run.symm

theorem Awaits.reset {run : Nat} (h : Awaits run p) : Newer run p.reset := by
  obtain ⟨stream, available, heq⟩ := p.reset_eq
  rw [heq]
  refine newer_refresh ?_ rfl ?_ false
  · exact h.started
  · exact h.run ▸ Nat.le_succ _

theorem Awaits.handle {run : Nat} (h : Awaits run p) (signal : Option Signal) :
    Awaits run (p.handle signal) := by
  rcases signal with _ | signal
  · exact h
  · cases signal with
    | onConnected event =>
        refine Awaits.refresh
          (p := { p with notificationsAvailable := event.notifications }) ?_ true
        exact ⟨h.started, h.inFlight, h.queued, h.run⟩
    | onChanged reason => exact h.refresh true
    | onUnauthorized =>
        refine Awaits.refresh (p := Page.dropRevokedState _) ?_ true
        exact ⟨h.started, h.inFlight, h.queued, h.run⟩

theorem Awaits.step {run : Nat} (h : Awaits run p) (he : e ≠ .stop) (hstep : p.step e = some q) :
    Awaits run q ∨ Newer run q := by
  cases e with
  | start =>
      rw [← Option.some.inj hstep, Page.start, if_pos h.started]
      exact .inl h
  | stop => exact absurd rfl he
  | reset => exact .inr (Option.some.inj hstep ▸ h.reset)
  | refresh silent => exact .inl (Option.some.inj hstep ▸ h.refresh silent)
  | acceptInfo data =>
      obtain ⟨timer, since, heq⟩ := Page.schedule_eq
        { ({ p with current := p.current + 1 } : Page).apply (.ok data) with
          lastLoadedAt := some p.now, loading := false }
      rw [← Option.some.inj hstep, Page.acceptInfo, heq]
      exact .inl ⟨h.started, h.inFlight, h.queued, h.run⟩
  | visibility hidden =>
      have hshown : Awaits run { p with hidden } := ⟨h.started, h.inFlight, h.queued, h.run⟩
      rw [← Option.some.inj hstep]
      dsimp only
      split
      · unfold Page.onVisibilityChange
        split
        · exact .inl ⟨h.started, h.inFlight, h.queued, h.run⟩
        · exact .inl (hshown.syncStream.refresh true)
      · exact .inl hshown
  | frame generation frame =>
      simp only [Page.step] at hstep
      split at hstep
      · exact .inl (Option.some.inj hstep ▸ h)
      · obtain ⟨-, hstep⟩ := Option.ite_none_right_eq_some.mp hstep
        rw [← Option.some.inj hstep]
        refine .inl (Awaits.handle (p := { p with stream := (p.stream.receive frame).1 }) ?_ _)
        exact ⟨h.started, h.inFlight, h.queued, h.run⟩
  | pollTimer =>
      obtain ⟨-, hstep⟩ := Option.ite_none_right_eq_some.mp hstep
      rw [← Option.some.inj hstep]
      refine .inl (Awaits.refresh (p := { p with timer := none }) ?_ true)
      exact ⟨h.started, h.inFlight, h.queued, h.run⟩
  | settle request outcome =>
      obtain ⟨-, rfl⟩ := settle_step hstep
      by_cases hrun : request.run = p.run
      · exact .inr (h.settle (hrun.trans h.run) outcome)
      · rw [Page.settle_of_superseded hrun]
        exact .inl ⟨h.started, h.inFlight, h.queued, h.run⟩
  | retryTimer =>
      obtain ⟨-, hstep⟩ := Option.ite_none_right_eq_some.mp hstep
      exact .inl (Option.some.inj hstep ▸ ⟨h.started, h.inFlight, h.queued, h.run⟩)
  | invalidate => exact .inl (Option.some.inj hstep ▸ ⟨h.started, h.inFlight, h.queued, h.run⟩)
  | setToken token =>
      exact .inl (Option.some.inj hstep ▸ ⟨h.started, h.inFlight, h.queued, h.run⟩)
  | clock now => exact .inl (Option.some.inj hstep ▸ ⟨h.started, h.inFlight, h.queued, h.run⟩)

/-- As long as the page is not stopped, the queued read waits or has begun. -/
theorem Awaits.run_keeps {token : Token} {hidden : Bool} {run : Nat}
    {steps : List (Page × Event)} (htrace : (userPage token hidden).Trace p steps q)
    (hstop : ∀ x ∈ steps, x.2 ≠ .stop) (h : Awaits run p) :
    Awaits run q ∨ ∃ x ∈ TSys.statesOf steps q, Newer run x := by
  induction htrace with
  | nil p => exact .inl h
  | @cons p p' q e rest hstep hrest ih =>
      rcases h.step (hstop _ List.mem_cons_self) hstep with hawaits | hnewer
      · rcases ih (fun x hx => hstop x (List.mem_cons_of_mem _ hx)) hawaits with hq | ⟨x, hx, hn⟩
        · exact .inl hq
        · exact .inr ⟨x, List.mem_cons_of_mem _ hx, hn⟩
      · exact .inr ⟨p', List.mem_cons_of_mem _ hrest.start_mem, hnewer⟩

/-- Asking while a read is in flight queues another one behind it. -/
theorem awaits_of_asks (hstarted : p.started = true) (hflight : p.inFlight = true)
    (he : Asks p e) (h : p.step e = some q) : Awaits p.run q := by
  have hqueue : ∀ {p' : Page} (silent : Bool), p'.started = p.started → p'.inFlight = p.inFlight →
      p'.run = p.run → Awaits p.run (p'.refresh silent) := by
    intro p' silent hs hf hr
    rw [refresh_of_busy (hs.trans hstarted) (hf.trans hflight)]
    exact ⟨hs.trans hstarted, hf.trans hflight, rfl, hr⟩
  cases e with
  | refresh silent => exact Option.some.inj h ▸ hqueue silent rfl rfl rfl
  | pollTimer =>
      obtain ⟨-, h⟩ := Option.ite_none_right_eq_some.mp h
      rw [← Option.some.inj h]
      exact hqueue true rfl rfl rfl
  | visibility hidden =>
      obtain ⟨rfl, hlistening⟩ := he
      rw [← Option.some.inj h]
      dsimp only
      rw [if_pos hlistening, Page.onVisibilityChange, if_neg (by simp)]
      obtain ⟨stream, available, heq⟩ := Page.syncStream_eq { p with hidden := false }
      rw [heq]
      exact hqueue true rfl rfl rfl
  | frame generation frame =>
      have hcurrent : ∀ {frame}, generation = p.stream.generation →
          p.step (.frame generation frame) = some q →
          q = ({ p with stream := (p.stream.receive frame).1 } : Page).handle
            (p.stream.receive frame).2 := by
        intro frame hgeneration h
        simp only [Page.step] at h
        rw [if_neg (fun hne => hne hgeneration)] at h
        obtain ⟨-, h⟩ := Option.ite_none_right_eq_some.mp h
        exact (Option.some.inj h).symm
      cases frame with
      | connected payload =>
          rw [hcurrent he h]
          exact hqueue true rfl rfl rfl
      | changed reason =>
          rw [hcurrent he h]
          exact hqueue true rfl rfl rfl
      | unauthorized =>
          rw [hcurrent he h]
          exact hqueue true rfl rfl rfl
      | _ => cases he
  | _ => cases he

end VpnPanel.Theorems
