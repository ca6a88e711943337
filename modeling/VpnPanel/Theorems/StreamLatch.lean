import VpnPanel.UserPage.EventSources

/-!
# Closing and rejection of the change stream

At most one source is open, a dropped one is not heard, and nothing connects
after `close`. A token the server refused is latched, but only `open` with no
source up looks at the latch: the retry timer and an `open` that replaces
another token's source connect the latched token.
-/

namespace VpnPanel.Theorems

open VpnPanel.Lib VpnPanel.UserPage

variable {c d : Channel} {e : StreamEvent}

/-- What closing and rejection promise of the sources so far. -/
structure Respects (c : Channel) : Prop where
  single : (c.sources.filter fun s => !s.closed).length ≤ 1
  dropped : ∀ s ∈ c.sources, s.closed = true → ∀ frame, c.receive s.generation frame = c
  quiet : ∀ s ∈ c.sources, s.shut = false
  latch : ∀ s ∈ c.sources, s.rejected ≠ some s.token

/-- The event connects the token that is latched: the retry timer is due, or
`open` replaces the source of another token. -/
def ConnectsLatched (c : Channel) : StreamEvent → Prop
  | .open => c.token ≠ "" ∧ c.stream.rejectedToken = some c.token ∧
      c.stream.source ≠ none ∧ c.stream.connectedToken ≠ some c.token
  | .retry => c.token ≠ "" ∧ c.stream.rejectedToken = some c.token
  | _ => False

instance (c : Channel) (e : StreamEvent) : Decidable (ConnectsLatched c e) := by
  unfold ConnectsLatched
  split
  · infer_instance
  · infer_instance
  · infer_instance

/-- Two sources that are open have one generation. -/
theorem single_of_ok (h : c.Ok) : (c.sources.filter fun s => !s.closed).length ≤ 1 := by
  have hopen : ∀ s ∈ c.sources.filter fun s => !s.closed,
      s.generation = c.stream.generation := by
    intro s hs
    obtain ⟨hs, hclosed⟩ := List.mem_filter.mp hs
    exact h.current _ (h.unclosed s hs (by simpa using hclosed))
  have hnodup : ((c.sources.filter fun s => !s.closed).map EventSource.generation).Nodup :=
    h.distinct.sublist (List.filter_sublist.map _)
  rcases hsources : c.sources.filter fun s => !s.closed with _ | ⟨s, _ | ⟨t, rest⟩⟩
  · rw [hsources]
    exact Nat.zero_le 1
  · rw [hsources]
    exact Nat.le_refl 1
  · -- two open sources would be one
    rw [hsources] at hopen hnodup
    have hs := hopen s (by simp)
    have ht := hopen t (by simp)
    simp [hs, ht] at hnodup

/-- A state in order whose sources kept the latch. -/
def InOrder (c : Channel) : Prop := c.Ok ∧ ∀ s ∈ c.sources, s.rejected ≠ some s.token

theorem InOrder.respects (h : InOrder c) : Respects c where
  single := single_of_ok h.1
  dropped := fun _ hs hclosed frame => h.1.receive_dropped hs hclosed frame
  quiet := h.1.quiet
  latch := h.2

/-- Closing a source changes neither its token nor what was latched. -/
theorem latch_closeSource {sources : List EventSource} (previous : Option Nat)
    (h : ∀ s ∈ sources, s.rejected ≠ some s.token) :
    ∀ s ∈ closeSource previous sources, s.rejected ≠ some s.token := by
  intro s hs
  obtain ⟨old, hold, -, htoken, hrejected, -⟩ := mem_closeSource hs
  rw [htoken, hrejected]
  exact h old hold

theorem latch_connect (h : ∀ s ∈ c.sources, s.rejected ≠ some s.token)
    (hlatch : c.token ≠ "" → c.stream.rejectedToken ≠ some c.token) :
    ∀ s ∈ c.connect.sources, s.rejected ≠ some s.token := by
  unfold Channel.connect
  split
  · exact h
  · next htoken =>
    intro s hs
    rcases List.mem_append.mp hs with hs | hs
    · exact h s hs
    · rw [List.mem_singleton.mp hs]
      exact hlatch htoken

/-- The source just created for a latched token. -/
theorem not_latch_connect (htoken : c.token ≠ "") (hlatch : c.stream.rejectedToken = some c.token) :
    ∃ s ∈ c.connect.sources, s.rejected = some s.token := by
  unfold Channel.connect
  rw [if_neg htoken]
  exact ⟨_, List.mem_append_right _ (List.mem_singleton_self _), hlatch⟩

/-- **Step.** Only the events named connect a latched token. -/
theorem InOrder.step (h : InOrder c) (hkeeps : ¬ConnectsLatched c e)
    (hstep : c.step e = some d) : InOrder d := by
  refine ⟨h.1.step hstep, ?_⟩
  cases e with
  | «open» =>
      cases hstep
      unfold Channel.openFor
      dsimp only
      split
      · exact latch_closeSource _ h.2
      · next htoken =>
        split
        · exact h.2
        · next hcurrent =>
          split
          · exact h.2
          · next hrejected =>
            refine latch_connect (latch_closeSource _ h.2) fun _ hlatch => ?_
            have hsource : c.stream.source ≠ none := fun hnone => hrejected ⟨hnone, hlatch⟩
            exact hkeeps ⟨htoken, hlatch, hsource, fun htok => hcurrent ⟨hsource, htok⟩⟩
  | close =>
      cases hstep
      exact latch_closeSource _ h.2
  | setToken token =>
      cases hstep
      exact h.2
  | frame generation frame =>
      unfold Channel.step at hstep
      dsimp only at hstep
      split at hstep
      · cases hstep
        unfold Channel.receive
        split
        · exact h.2
        · dsimp only
          split
          · exact latch_closeSource _ h.2
          · exact h.2
      · cases hstep
  | retry =>
      unfold Channel.step at hstep
      dsimp only at hstep
      split at hstep
      · cases hstep
        exact latch_connect h.2 fun htoken hlatch => hkeeps ⟨htoken, hlatch⟩
      · cases hstep

/-- Each of those events leaves a source of a latched token. -/
theorem not_respects_of_connectsLatched (hbad : ConnectsLatched c e)
    (hstep : c.step e = some d) : ¬Respects d := by
  suffices h : ∃ s ∈ d.sources, s.rejected = some s.token by
    obtain ⟨s, hs, hlatched⟩ := h
    exact fun hrespects => hrespects.latch s hs hlatched
  cases e with
  | «open» =>
      cases hstep
      obtain ⟨htoken, hlatch, hsource, hother⟩ := hbad
      unfold Channel.openFor
      dsimp only
      rw [if_neg htoken, if_neg (fun h => hother h.2), if_neg (fun h => hsource h.1)]
      exact not_latch_connect htoken hlatch
  | close => exact hbad.elim
  | setToken token => exact hbad.elim
  | frame generation frame => exact hbad.elim
  | retry =>
      unfold Channel.step at hstep
      dsimp only at hstep
      split at hstep
      · cases hstep
        exact not_latch_connect hbad.1 hbad.2
      · cases hstep

/-- **Run.** The promises hold all along a run exactly when no retry fires and
no source is replaced while the token is the latched one. -/
theorem stream_respects_iff {token : Token} {steps : List (Channel × StreamEvent)}
    (h : (eventStream token).Trace (eventStream token).init steps c) :
    (∀ x ∈ TSys.statesOf steps c, Respects x) ↔ ∀ x ∈ steps, ¬ConnectsLatched x.1 x.2 := by
  have hinit : InOrder (eventStream token).init := ⟨Channel.Ok.init token, nofun⟩
  refine h.forall_states_iff (I := InOrder) (A := fun _ _ => True) (fun s hs => hs.respects)
    (fun s e s' hs _ hkeeps hstep => hs.step hkeeps hstep)
    (fun s e s' _ _ hbad hstep => not_respects_of_connectsLatched hbad hstep)
    (fun _ _ => trivial) hinit

/-- A link is revoked; the next one is refused, retried and closed. -/
theorem stream_respects_revoked : ∃ steps c,
    (eventStream "A").Trace (eventStream "A").init steps c ∧
      c.stream.rejectedToken = some "A" ∧ c.sources.length = 3 ∧
      ∀ x ∈ TSys.statesOf steps c, Respects x := by
  let evs : List StreamEvent := [.open, .frame 2 (.connected none), .frame 2 .unauthorized,
    .open, .setToken "B", .open, .frame 5 (.error true), .retry, .frame 5 (.changed none),
    .close, .setToken "A", .open]
  have hrun : ((eventStream "A").replay evs).any (fun c =>
      c.stream.rejectedToken = some "A" ∧ c.sources.length = 3) = true := by decide
  obtain ⟨c, hc, hcheck⟩ := TSys.replay_any hrun
  have hok : (eventStream "A").ReplayOk (fun c e => ¬ConnectsLatched c e)
      (eventStream "A").init evs := by decide
  obtain ⟨steps, htrace, hsteps⟩ := TSys.Trace.of_replayOk evs hok hc
  obtain ⟨hlatched, hcount⟩ := of_decide_eq_true hcheck
  exact ⟨steps, c, htrace, hlatched, hcount, (stream_respects_iff htrace).mpr hsteps⟩

/-- A link is revoked, another one is refused, and the page is back at the first
when the retry fires. -/
theorem stream_connects_revoked :
    ¬∀ (token : Token) (c : Channel), (eventStream token).Reachable c → Respects c := by
  intro hall
  have hrun : ((eventStream "A").replay [.open, .frame 2 .unauthorized, .setToken "B", .open,
      .frame 5 (.error true), .setToken "A", .open, .retry]).any
      (fun c => c.sources.any fun s => s.rejected = some s.token) = true := by decide
  obtain ⟨c, hc, hlatched⟩ := TSys.replay_any hrun
  obtain ⟨s, hs, hlatched⟩ := List.any_eq_true.mp hlatched
  exact (hall "A" c (TSys.replay_reachable hc)).latch s hs (of_decide_eq_true hlatched)

end VpnPanel.Theorems
