import VpnPanel.UserPage.Ownership

/-!
# The poll timer of the public page

A visible page between two reads has a timer armed for the next one. The timer
follows what is shown, so it is missing where a read ends, its answer may not be
applied and nothing was shown before.
-/

namespace VpnPanel.Theorems

open VpnPanel.Lib VpnPanel.UserPage

variable {p q : Page} {e : Event}

/-- A page that is started, visible and not reading has its timer armed. -/
def Polls (p : Page) : Prop :=
  p.started = true → p.hidden = false → p.inFlight = false → p.timer ≠ none

/-- The read in flight settles with an answer that was overtaken or is for
another token, nothing is shown, and no other read is queued. -/
def DropsFirstAnswer (p : Page) : Event → Prop
  | .settle r _ => r.run = p.run ∧ (r.ticket ≠ p.current ∨ p.token ≠ r.token) ∧
      p.info = none ∧ p.error = none ∧ p.queued = false ∧ p.hidden = false
  | _ => False

instance (p : Page) (e : Event) : Decidable (DropsFirstAnswer p e) := by
  unfold DropsFirstAnswer
  split
  · infer_instance
  · infer_instance

theorem polls_refresh (p : Page) (silent : Bool) : Polls (p.refresh silent) := by
  intro hstarted _ hflight
  unfold Page.refresh at hstarted hflight
  split at hstarted
  · next h => simp [hstarted] at h
  · next h =>
    rw [if_neg h] at hflight
    split at hflight
    · next hbusy => exact absurd hbusy (by simp [show p.inFlight = false from hflight])
    · cases hflight

/-- Only a hidden document is not polled. -/
theorem nextPollDelayMs_visible (info : Option UserInfo) (pendingForMs : Int) :
    nextPollDelayMs info false pendingForMs ≠ none := by
  simp only [nextPollDelayMs, Bool.false_eq_true, if_false]
  split
  · simp
  · split <;> simp

theorem polls_schedule (hshown : p.info ≠ none ∨ p.error ≠ none) : Polls p.schedule := by
  intro hstarted hhidden _
  obtain ⟨timer, since, heq⟩ := p.schedule_eq
  rw [heq] at hstarted hhidden
  have hstarted : p.started = true := hstarted
  have hhidden : p.hidden = false := hhidden
  have hsomething : ¬(p.info = none ∧ p.error = none) := by
    rintro ⟨hinfo, herror⟩
    rcases hshown with h | h
    · exact h hinfo
    · exact h herror
  unfold Page.schedule
  dsimp only
  rw [if_neg (by simp [hstarted, hsomething])]
  split
  · unfold Page.pendingForMs
    dsimp only
    split
    · dsimp only
      rw [hhidden]
      exact nextPollDelayMs_visible _ _
    · dsimp only
      rw [hhidden]
      exact nextPollDelayMs_visible _ _
  · simp [hhidden]

theorem polls_handle (h : Polls p) (signal : Option Signal) : Polls (p.handle signal) := by
  rcases signal with _ | signal
  · exact h
  · cases signal with
    | onConnected event => exact polls_refresh _ true
    | onChanged reason => exact polls_refresh p true
    | onUnauthorized => exact polls_refresh _ true

/-- The read in flight ends. -/
theorem polls_settle (hok : p.Ok) (h : Polls p) {r : Request} (hr : r ∈ p.requests)
    {outcome : Outcome} (houtcome : outcome = .aborted → r.aborted = true)
    (hdrop : ¬DropsFirstAnswer p (.settle r outcome)) : Polls (p.settle r outcome) := by
  by_cases hrun : r.run = p.run
  · have hstarted : p.started = true := hok.started (hok.live.mpr ⟨r, hr, hrun⟩)
    have hlive : outcome ≠ .aborted := fun habort =>
      (hok.aborted r hr).mp (houtcome habort) hrun
    let left : Page := { p with requests := p.requests.erase r }
    obtain ⟨info, error, retrying, loaded, heq⟩ := left.receive_eq r outcome
    have hshows : left.Counts r → info ≠ none ∨ error ≠ none := by
      intro hcounts
      have hshown := left.receive_shows hcounts hlive
      rw [heq] at hshown
      exact hshown
    have hdropped : ¬left.Counts r → info = p.info ∧ error = p.error := by
      intro hcounts
      have hsame := (left.receive_of_not_counts hcounts outcome).symm.trans heq
      exact ⟨(congrArg Page.info hsame).symm, (congrArg Page.error hsame).symm⟩
    unfold Page.settle
    rw [heq]
    unfold Page.finish
    rw [if_pos hrun]
    dsimp only
    rw [if_neg (by simp [left, hstarted])]
    split
    · exact polls_refresh _ true
    · next hqueued =>
      by_cases hhidden : p.hidden = true
      · -- a hidden page is not polled
        intro _ hvisible
        obtain ⟨timer, since, hsched⟩ := Page.schedule_eq
          { left with
            info := info, error := error, retrying := retrying, lastLoadedAt := loaded
            inFlight := false, controller := none, refreshing := false, loading := false }
        rw [hsched] at hvisible
        exact absurd (hhidden.symm.trans hvisible) (by simp)
      · refine polls_schedule ?_
        by_cases hcounts : left.Counts r
        · exact hshows hcounts
        · by_contra hnothing
          obtain ⟨hinfo, herror⟩ := hdropped hcounts
          rw [not_or, not_not, not_not] at hnothing
          refine hdrop ⟨hrun, ?_, hinfo.symm.trans hnothing.1, herror.symm.trans hnothing.2,
            by simpa [left] using hqueued, by simpa using hhidden⟩
          by_contra hcurrent
          rw [not_or, not_not, not_not] at hcurrent
          exact hcounts ⟨hrun, hcurrent.1, hcurrent.2⟩
  · rw [Page.settle_of_superseded hrun]
    exact h

/-- An answer that is dropped with nothing on screen leaves no timer. -/
theorem not_polls_settle (hok : p.Ok) {r : Request} (hr : r ∈ p.requests) {outcome : Outcome}
    (hdrop : DropsFirstAnswer p (.settle r outcome)) : ¬Polls (p.settle r outcome) := by
  obtain ⟨hrun, hold, hinfo, herror, hqueued, hvisible⟩ := hdrop
  have hstarted : p.started = true := hok.started (hok.live.mpr ⟨r, hr, hrun⟩)
  have hcounts : ¬Page.Counts { p with requests := p.requests.erase r } r := by
    rintro ⟨-, hticket, htoken⟩
    rcases hold with h | h
    · exact h hticket
    · exact h htoken
  have hsettle : p.settle r outcome = { p with
      requests := p.requests.erase r
      inFlight := false, controller := none, refreshing := false, loading := false
      timer := none } := by
    unfold Page.settle
    rw [Page.receive_of_not_counts _ hcounts]
    simp [Page.finish, Page.schedule, hrun, hstarted, hinfo, herror, hqueued]
  intro hpolls
  rw [hsettle] at hpolls
  exact hpolls hstarted hvisible rfl rfl

theorem polls_step (hok : p.Ok) (h : Polls p) (hdrop : ¬DropsFirstAnswer p e)
    (hstep : p.step e = some q) : Polls q := by
  cases e with
  | start =>
      rw [← Option.some.inj hstep]
      unfold Page.start
      split
      · exact h
      · exact polls_refresh _ false
  | stop =>
      rw [← Option.some.inj hstep]
      exact fun hstarted => nomatch hstarted
  | reset => exact Option.some.inj hstep ▸ polls_refresh _ false
  | refresh silent => exact Option.some.inj hstep ▸ polls_refresh p silent
  | acceptInfo data =>
      rw [← Option.some.inj hstep]
      exact polls_schedule (.inl (by simp [Page.apply, resolveRefresh]))
  | invalidate => exact Option.some.inj hstep ▸ h
  | visibility hidden =>
      rw [← Option.some.inj hstep]
      dsimp only
      split
      · unfold Page.onVisibilityChange
        split
        · next hhidden => exact fun _ hvisible => absurd (hhidden.symm.trans hvisible) (by simp)
        · exact polls_refresh _ true
      · next hlistening => exact fun hstarted => absurd (hok.listening hstarted) hlistening
  | setToken token => exact Option.some.inj hstep ▸ h
  | frame generation frame =>
      simp only [Page.step] at hstep
      split at hstep
      · exact Option.some.inj hstep ▸ h
      · obtain ⟨-, hstep⟩ := Option.ite_none_right_eq_some.mp hstep
        rw [← Option.some.inj hstep]
        exact polls_handle (p := { p with stream := (p.stream.receive frame).1 }) h _
  | retryTimer =>
      obtain ⟨-, hstep⟩ := Option.ite_none_right_eq_some.mp hstep
      exact Option.some.inj hstep ▸ h
  | pollTimer =>
      obtain ⟨-, hstep⟩ := Option.ite_none_right_eq_some.mp hstep
      exact Option.some.inj hstep ▸ polls_refresh _ true
  | settle request outcome =>
      obtain ⟨⟨hr, houtcome⟩, hstep⟩ := Option.ite_none_right_eq_some.mp hstep
      exact Option.some.inj hstep ▸ polls_settle hok h hr houtcome hdrop
  | clock now => exact Option.some.inj hstep ▸ h

/-- **The poll loop dies only with a dropped first answer.** Along every run, a
visible page that is started and not reading has its timer armed exactly when no
read settles with an answer that may not be applied while nothing is shown and
no other read is queued. -/
theorem polls_iff {token : Token} {hidden : Bool} {steps : List (Page × Event)}
    (h : (userPage token hidden).Trace (userPage token hidden).init steps q) :
    (∀ p ∈ TSys.statesOf steps q, Polls p) ↔ ∀ x ∈ steps, ¬DropsFirstAnswer x.1 x.2 := by
  refine TSys.Trace.forall_states_iff (I := fun p => p.Ok ∧ Polls p) (A := fun _ _ => True)
    (fun _ hp => hp.2) ?_ ?_ h (fun _ _ => trivial) ⟨Page.ok_init token hidden, ?_⟩
  · rintro p e p' ⟨hok, hpolls⟩ _ hdrop hstep
    exact ⟨hok.step hstep, polls_step hok hpolls hdrop hstep⟩
  · rintro p e p' ⟨hok, -⟩ _ hdrop hstep
    cases e with
    | settle request outcome =>
        obtain ⟨⟨hr, -⟩, hstep⟩ := Option.ite_none_right_eq_some.mp hstep
        exact Option.some.inj hstep ▸ not_polls_settle hok hr hdrop
    | _ => cases hdrop
  · exact fun hstarted => nomatch hstarted

/-- The first read fails and is retried when the timer fires; the second one is
answered after a device was added meanwhile. -/
theorem polls_retry : ∃ steps p,
    (userPage "alice" false).Trace (userPage "alice" false).init steps p ∧
      p.info ≠ none ∧ ∀ x ∈ TSys.statesOf steps p, Polls x := by
  let evs : List Event := [.start, .settle ⟨1, 1, "alice", false⟩ (.failed none), .pollTimer,
    .acceptInfo ⟨false, "active", []⟩, .settle ⟨2, 2, "alice", false⟩ (.ok ⟨false, "active", []⟩)]
  have hrun : ((userPage "alice" false).replay evs).any (fun p => p.info ≠ none) = true := by
    decide
  obtain ⟨p, hp, hinfo⟩ := TSys.replay_any hrun
  have hok : (userPage "alice" false).ReplayOk (fun p e => ¬DropsFirstAnswer p e)
      (userPage "alice" false).init evs := by decide
  obtain ⟨steps, htrace, hsteps⟩ := TSys.Trace.of_replayOk evs hok hp
  exact ⟨steps, p, htrace, by simpa using hinfo, (polls_iff htrace).mpr hsteps⟩

/-- The page is invalidated during its first read: the answer is dropped, and
nothing reads the page again. -/
theorem polls_lost : ∃ p, (userPage "alice" false).Reachable p ∧ ¬Polls p := by
  have hrun : ((userPage "alice" false).replay [.start, .invalidate,
      .settle ⟨1, 1, "alice", false⟩ (.ok ⟨false, "active", []⟩)]).any (fun p =>
        p.started = true ∧ p.hidden = false ∧ p.inFlight = false ∧ p.timer = none) = true := by
    decide
  obtain ⟨p, hp, hcheck⟩ := TSys.replay_any hrun
  simp only [decide_eq_true_eq] at hcheck
  obtain ⟨hstarted, hvisible, hflight, htimer⟩ := hcheck
  exact ⟨p, TSys.replay_reachable hp, fun hpolls => hpolls hstarted hvisible hflight htimer⟩

end VpnPanel.Theorems
