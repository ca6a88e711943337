import VpnPanel.UserPage.Refresh

/-!
# Who owns the page's state

The request whose run is the current one owns the shared state; `inFlight` says
that it exists, and its controller is the one held. A request that lost the
state was aborted.
-/

namespace VpnPanel.UserPage

open VpnPanel.Lib

namespace Page

structure Ok (p : Page) : Prop where
  runs : p.requests.Pairwise fun r r' => r.run ≠ r'.run
  below : ∀ r ∈ p.requests, r.run ≤ p.run ∧ r.ticket ≤ p.current
  live : p.inFlight = true ↔ ∃ r ∈ p.requests, r.run = p.run
  held : p.controller = if p.inFlight then some p.run else none
  aborted : ∀ r ∈ p.requests, r.aborted = true ↔ r.run ≠ p.run
  queued : p.queued = true → p.inFlight = true
  started : p.inFlight = true → p.started = true
  listening : p.started = true → p.listening = true

/-- The part of the page that the invariant reads. -/
def ownership (p : Page) : List Request × Nat × Nat × Bool × Option Nat × Bool × Bool × Bool :=
  (p.requests, p.run, p.current, p.inFlight, p.controller, p.queued, p.started, p.listening)

theorem Ok.same {p q : Page} (h : p.Ok) (hq : q.ownership = p.ownership) : q.Ok := by
  obtain ⟨hrequests, hrun, hcurrent, hflight, hcontroller, hqueued, hstarted, hlistening⟩ :
      q.requests = p.requests ∧ q.run = p.run ∧ q.current = p.current ∧
        q.inFlight = p.inFlight ∧ q.controller = p.controller ∧ q.queued = p.queued ∧
        q.started = p.started ∧ q.listening = p.listening := by simpa [ownership] using hq
  refine ⟨?_, ?_, ?_, ?_, ?_, ?_, ?_, ?_⟩
  · rw [hrequests]
    exact h.runs
  · rw [hrequests, hrun, hcurrent]
    exact h.below
  · rw [hrequests, hrun, hflight]
    exact h.live
  · rw [hcontroller, hflight, hrun]
    exact h.held
  · rw [hrequests, hrun]
    exact h.aborted
  · rw [hqueued, hflight]
    exact h.queued
  · rw [hflight, hstarted]
    exact h.started
  · rw [hstarted, hlistening]
    exact h.listening

/-! ## What the helpers touch -/

section Frame

variable (p : Page)

theorem schedule_eq : ∃ timer since,
    p.schedule = { p with timer := timer, pendingSince := since } := by
  unfold schedule
  dsimp only
  split
  · exact ⟨none, p.pendingSince, rfl⟩
  · split
    · unfold pendingForMs
      dsimp only
      split
      · exact ⟨_, _, rfl⟩
      · exact ⟨_, _, rfl⟩
    · exact ⟨_, p.pendingSince, rfl⟩

theorem syncStream_eq : ∃ stream available,
    p.syncStream = { p with stream := stream, notificationsAvailable := available } := by
  unfold syncStream
  split
  · exact ⟨_, p.notificationsAvailable, rfl⟩
  · exact ⟨_, _, rfl⟩

/-- A reset ends in a first read of a page with nothing on it. -/
theorem reset_eq : ∃ stream available,
    p.reset = Page.refresh { ({ p with current := p.current + 1 } : Page).seize.abort with
      timer := none, pendingSince := none
      info := none, error := none, retrying := false, lastLoadedAt := none, loading := true
      stream := stream, notificationsAvailable := available } false := by
  obtain ⟨stream, available, heq⟩ := syncStream_eq
    { ({ p with current := p.current + 1 } : Page).seize.abort with
      timer := none, pendingSince := none
      info := none, error := none, retrying := false, lastLoadedAt := none, loading := true }
  exact ⟨stream, available, congrArg (·.refresh false) heq⟩

theorem receive_of_not_counts {r : Request} (h : ¬p.Counts r) (outcome : Outcome) :
    p.receive r outcome = p := by
  cases outcome with
  | ok data => exact if_neg h
  | failed error => exact if_neg h
  | aborted => rfl

theorem receive_eq (r : Request) (outcome : Outcome) : ∃ info error retrying loaded,
    p.receive r outcome =
      { p with info := info, error := error, retrying := retrying, lastLoadedAt := loaded } := by
  by_cases h : p.Counts r
  · cases outcome with
    | ok data =>
        rw [show p.receive r (.ok data) = _ from if_pos h]
        exact ⟨_, _, _, _, rfl⟩
    | failed error =>
        rw [show p.receive r (.failed error) = _ from if_pos h]
        exact ⟨_, _, _, p.lastLoadedAt, rfl⟩
    | aborted => exact ⟨p.info, p.error, p.retrying, p.lastLoadedAt, rfl⟩
  · rw [p.receive_of_not_counts h]
    exact ⟨p.info, p.error, p.retrying, p.lastLoadedAt, rfl⟩

/-- A counted answer leaves something on screen. -/
theorem receive_shows {r : Request} (h : p.Counts r) {outcome : Outcome}
    (houtcome : outcome ≠ .aborted) :
    (p.receive r outcome).info ≠ none ∨ (p.receive r outcome).error ≠ none := by
  cases outcome with
  | ok data =>
      left
      simp [receive, h, apply, resolveRefresh]
  | failed error =>
      right
      simp [receive, h, apply, resolveRefresh]
  | aborted => exact absurd rfl houtcome

end Frame

/-! ## The invariant -/

variable {p : Page}

theorem ok_init (token : Token) (hidden : Bool) : Ok { token, hidden } where
  runs := List.Pairwise.nil
  below := by simp
  live := by simp
  held := rfl
  aborted := by simp
  queued := by simp
  started := by simp
  listening := by simp

theorem Ok.schedule (h : p.Ok) : p.schedule.Ok := by
  obtain ⟨timer, since, heq⟩ := p.schedule_eq
  rw [heq]
  exact h.same rfl

theorem Ok.syncStream (h : p.Ok) : p.syncStream.Ok := by
  obtain ⟨stream, available, heq⟩ := p.syncStream_eq
  rw [heq]
  exact h.same rfl

/-- A ticket that was handed out stays below the counter. -/
theorem Ok.invalidate (h : p.Ok) : p.invalidate.Ok :=
  ⟨h.runs, fun r hr => ⟨(h.below r hr).1, Nat.le_succ_of_le (h.below r hr).2⟩, h.live, h.held,
    h.aborted, h.queued, h.started, h.listening⟩

theorem Ok.begin (h : p.Ok) (hidle : p.inFlight = false) (hstarted : p.started = true)
    (silent : Bool) : (p.begin silent).Ok := by
  -- without a live request every unsettled one was aborted before
  have hnone : ∀ r ∈ p.requests, r.run ≠ p.run := by
    intro r hr hrun
    have hlive := h.live.mpr ⟨r, hr, hrun⟩
    simp [hidle] at hlive
  have hold : ∀ r ∈ p.requests, r.run ≠ p.run + 1 := by
    intro r hr
    have := (h.below r hr).1
    omega
  refine ⟨?_, ?_, ?_, ?_, ?_, ?_, ?_, h.listening⟩
  · exact List.pairwise_cons.mpr ⟨fun r hr => (hold r hr).symm, h.runs⟩
  · intro r hr
    rcases List.mem_cons.mp hr with rfl | hr
    · exact ⟨Nat.le_refl _, Nat.le_refl _⟩
    · exact ⟨Nat.le_succ_of_le (h.below r hr).1, Nat.le_succ_of_le (h.below r hr).2⟩
  · exact iff_of_true rfl ⟨_, List.mem_cons_self, rfl⟩
  · rfl
  · intro r hr
    rcases List.mem_cons.mp hr with rfl | hr
    · simp [Page.begin]
    · exact iff_of_true ((h.aborted r hr).mpr (hnone r hr)) (hold r hr)
  · exact fun _ => rfl
  · exact fun _ => hstarted

theorem Ok.refresh (h : p.Ok) (silent : Bool) : (p.refresh silent).Ok := by
  unfold Page.refresh
  split
  · exact h
  · next hstarted =>
    split
    · next hflight =>
        exact ⟨h.runs, h.below, h.live, h.held, h.aborted, fun _ => hflight, h.started,
        h.listening⟩
    · next hflight => exact h.begin (by simpa using hflight) (by simpa using hstarted) silent

/-- Taking the state away aborts the request that had it. -/
theorem Ok.abort (h : p.Ok) : p.seize.abort.Ok := by
  have hrun : ∀ r ∈ p.requests, r.run ≠ p.run + 1 := by
    intro r hr
    have := (h.below r hr).1
    omega
  have habort : ∀ r ∈ p.seize.abort.requests, ∃ old ∈ p.requests,
      r.run = old.run ∧ r.ticket = old.ticket ∧ r.aborted = true := by
    intro r hr
    obtain ⟨old, hold, rfl⟩ := List.mem_map.mp hr
    refine ⟨old, hold, ?_⟩
    by_cases hcontroller : p.controller = some old.run
    · simp [Page.seize, hcontroller]
    · -- no controller is held for it, so it was not live
      have hnot : old.run ≠ p.run := by
        intro heq
        have hlive := h.live.mpr ⟨old, hold, heq⟩
        exact hcontroller (by simp [h.held, hlive, heq])
      simp [Page.seize, hcontroller, (h.aborted old hold).mpr hnot]
  refine ⟨?_, ?_, ?_, ?_, ?_, ?_, ?_, h.listening⟩
  · show List.Pairwise _ (p.requests.map _)
    rw [List.pairwise_map]
    refine h.runs.imp fun {r r'} hne => ?_
    split <;> split <;> exact hne
  · intro r hr
    obtain ⟨old, hold, hr, ht, -⟩ := habort r hr
    rw [hr, ht]
    exact ⟨Nat.le_succ_of_le (h.below old hold).1, (h.below old hold).2⟩
  · refine iff_of_false (by simp [Page.seize, Page.abort]) ?_
    rintro ⟨r, hr, heq⟩
    obtain ⟨old, hold, hr, -⟩ := habort r hr
    exact hrun old hold (hr ▸ heq)
  · rfl
  · intro r hr
    obtain ⟨old, hold, hr, -, habort⟩ := habort r hr
    exact iff_of_true habort (hr ▸ hrun old hold)
  · exact fun hq => nomatch hq
  · exact fun hf => nomatch hf

theorem Ok.reset (h : p.Ok) : p.reset.Ok := by
  have hdropped := h.invalidate.abort
  unfold Page.reset
  refine Ok.refresh (Ok.syncStream ?_) false
  exact hdropped.same rfl

theorem Ok.stop (h : p.Ok) : p.stop.Ok := by
  have hdropped := h.invalidate.abort
  exact ⟨hdropped.runs, hdropped.below, hdropped.live, hdropped.held, hdropped.aborted,
    hdropped.queued, by rintro ⟨⟩, by rintro ⟨⟩⟩

theorem Ok.start (h : p.Ok) : p.start.Ok := by
  unfold Page.start
  split
  · exact h
  · refine Ok.refresh (Ok.syncStream ?_) false
    exact ⟨h.runs, h.below, h.live, h.held, h.aborted, h.queued, fun _ => rfl, fun _ => rfl⟩

theorem Ok.onVisibilityChange (h : p.Ok) : p.onVisibilityChange.Ok := by
  unfold Page.onVisibilityChange
  split
  · exact h.same rfl
  · exact h.syncStream.refresh true

theorem Ok.handle (h : p.Ok) (signal : Option Signal) : (p.handle signal).Ok := by
  rcases signal with _ | signal
  · exact h
  · cases signal with
    | onConnected event =>
        refine Ok.refresh (p := { p with notificationsAvailable := event.notifications }) ?_ true
        exact h.same rfl
    | onChanged reason => exact h.refresh true
    | onUnauthorized =>
        refine Ok.refresh (p := Page.dropRevokedState _) ?_ true
        exact h.invalidate.same rfl

theorem Ok.acceptInfo (h : p.Ok) (data : UserInfo) : (p.acceptInfo data).Ok := by
  refine Ok.schedule ?_
  exact h.invalidate.same rfl

/-- The page after the promise of the live request settled, before the queued
read or the timer. -/
theorem Ok.settled (h : p.Ok) {r : Request} (hr : r ∈ p.requests) (hrun : r.run = p.run)
    (info : Option UserInfo) (error : Option PublicApiError) (retrying : Bool)
    (loaded : Option Int) :
    Ok { p with
      requests := p.requests.erase r
      info := info, error := error, retrying := retrying, lastLoadedAt := loaded
      inFlight := false, controller := none, refreshing := false, loading := false
      queued := false } where
  runs := h.runs.sublist List.erase_sublist
  below := fun x hx => h.below x (List.mem_of_mem_erase hx)
  live := by
    refine iff_of_false (by simp) ?_
    rintro ⟨x, hx, hxrun⟩
    -- a second request of this run would be the same one
    have hperm := (List.perm_cons_erase hr).pairwise_iff (fun {_ _} hne => hne.symm) |>.mp h.runs
    exact (List.pairwise_cons.mp hperm).1 x hx (hrun.trans hxrun.symm)
  held := rfl
  aborted := fun x hx => h.aborted x (List.mem_of_mem_erase hx)
  queued := by simp
  started := by simp
  listening := h.listening

theorem settle_of_superseded {r : Request} (hrun : r.run ≠ p.run) (outcome : Outcome) :
    p.settle r outcome = { p with requests := p.requests.erase r } := by
  have hcounts : ¬Counts { p with requests := p.requests.erase r } r := fun h => hrun h.1
  unfold settle
  rw [receive_of_not_counts _ hcounts]
  exact if_neg hrun

theorem Ok.settle (h : p.Ok) {r : Request} (hr : r ∈ p.requests) (outcome : Outcome) :
    (p.settle r outcome).Ok := by
  by_cases hrun : r.run = p.run
  · obtain ⟨info, error, retrying, loaded, heq⟩ :=
      ({ p with requests := p.requests.erase r } : Page).receive_eq r outcome
    have hsettled := h.settled hr hrun info error retrying loaded
    have hstarted : p.started = true := h.started (h.live.mpr ⟨r, hr, hrun⟩)
    unfold Page.settle
    rw [heq]
    unfold finish
    rw [if_pos hrun]
    dsimp only
    rw [if_neg (by simp [hstarted])]
    split
    · exact hsettled.refresh true
    · next hqueued =>
      have hqueued : p.queued = false := by simpa using hqueued
      exact Ok.schedule (hsettled.same (by simp [ownership, hqueued]))
  · rw [settle_of_superseded hrun]
    refine ⟨h.runs.sublist List.erase_sublist, fun x hx => h.below x (List.mem_of_mem_erase hx),
      ?_, h.held, fun x hx => h.aborted x (List.mem_of_mem_erase hx), h.queued, h.started,
      h.listening⟩
    refine h.live.trans ⟨fun ⟨x, hx, hxrun⟩ => ⟨x, ?_, hxrun⟩, fun ⟨x, hx, hxrun⟩ =>
      ⟨x, List.mem_of_mem_erase hx, hxrun⟩⟩
    have hne : x ≠ r := fun heq => hrun (heq ▸ hxrun)
    exact (List.mem_erase_of_ne hne).mpr hx

theorem Ok.step (h : p.Ok) {p' : Page} {e : Event} (hstep : p.step e = some p') : p'.Ok := by
  cases e with
  | start => exact Option.some.inj hstep ▸ h.start
  | stop => exact Option.some.inj hstep ▸ h.stop
  | reset => exact Option.some.inj hstep ▸ h.reset
  | refresh silent => exact Option.some.inj hstep ▸ h.refresh silent
  | acceptInfo data => exact Option.some.inj hstep ▸ h.acceptInfo data
  | invalidate => exact Option.some.inj hstep ▸ h.invalidate
  | visibility hidden =>
      have hshown : Ok { p with hidden } := h.same rfl
      rw [← Option.some.inj hstep]
      dsimp only
      split
      · exact hshown.onVisibilityChange
      · exact hshown
  | setToken token =>
      rw [← Option.some.inj hstep]
      exact h.same rfl
  | frame generation frame =>
      simp only [Page.step] at hstep
      split at hstep
      · exact Option.some.inj hstep ▸ h
      · obtain ⟨-, hstep⟩ := Option.ite_none_right_eq_some.mp hstep
        rw [← Option.some.inj hstep]
        refine Ok.handle (p := { p with stream := (p.stream.receive frame).1 }) ?_ _
        exact h.same rfl
  | retryTimer =>
      obtain ⟨-, hstep⟩ := Option.ite_none_right_eq_some.mp hstep
      rw [← Option.some.inj hstep]
      exact h.same rfl
  | pollTimer =>
      obtain ⟨-, hstep⟩ := Option.ite_none_right_eq_some.mp hstep
      rw [← Option.some.inj hstep]
      refine Ok.refresh (p := { p with timer := none }) ?_ true
      exact h.same rfl
  | settle request outcome =>
      obtain ⟨⟨hr, -⟩, hstep⟩ := Option.ite_none_right_eq_some.mp hstep
      exact Option.some.inj hstep ▸ h.settle hr outcome
  | clock now =>
      rw [← Option.some.inj hstep]
      exact h.same rfl

end Page

theorem userPage_ok {token : Token} {hidden : Bool} {p : Page}
    (h : (userPage token hidden).Reachable p) : p.Ok :=
  h.invariant (Page.ok_init token hidden) fun _ _ _ hok _ hstep => hok.step hstep

end VpnPanel.UserPage
