import VpnPanel.Events.Stream

/-!
# Notifications and the stream's slot

A notification is dropped on a full slot, because an unread one makes the
client read the state that includes it. A slot may also be full of the mark of
the stream's own timer, which the stream was woken for and has not read yet:
the notification is then lost. Nothing else loses one.
-/

namespace VpnPanel.Theorems

open VpnPanel.Lib VpnPanel.Events

/-- Until its stream has read a reason after the last notification, the slot
holds a reason or the end of the stream. -/
def WakeUpKept (s : Server) : Prop :=
  ∀ id, s.phase id ≠ .ended → s.hub.owed id = true →
    (∃ text, s.hub.slots id = some (.reason text)) ∨ s.hub.slots id = some .terminated

/-- The fanout whose streams an event notifies. -/
def delivered? (cfg : HubConfig) (s : Server) : Event → Option Fanout
  | .notify userId reason =>
      (s.hub.fanoutOf? userId).filter fun fanout => s.hub.immediate cfg fanout reason
  | .runHandle handle => Rows.get? Fanout.id s.hub.fanouts handle.fanout
  | _ => none

/-- An open stream is notified while its slot holds an unread timer mark. -/
def MeetsTimerMark (cfg : HubConfig) (s : Server) (e : Event) : Prop :=
  ∃ fanout ∈ delivered? cfg s e, ∃ subscription ∈ fanout.subscriptions,
    s.phase subscription.id ≠ .ended ∧ s.hub.slots subscription.id = some .timer

instance (cfg : HubConfig) (s : Server) (e : Event) : Decidable (MeetsTimerMark cfg s e) := by
  unfold MeetsTimerMark
  infer_instance

section Step

variable {cfg : HubConfig} {s s' : Server} {e : Event}

theorem kept_deliver (hkept : WakeUpKept s) {hub : Hub} {fanout : Fanout} {reason : String}
    (hslots : hub.slots = s.hub.slots) (howed : hub.owed = s.hub.owed)
    (hmark : ∀ subscription ∈ fanout.subscriptions, s.phase subscription.id ≠ .ended →
      s.hub.slots subscription.id ≠ some .timer) :
    WakeUpKept { s with hub := hub.deliver fanout reason } := by
  intro id hopen hnow
  have hnow : s.hub.owed id = true ∨
      ∃ subscription ∈ fanout.subscriptions, subscription.id = id := by
    rw [← howed]
    simpa [Hub.deliver] using hnow
  show (∃ text, Hub.offerAll (.reason reason) fanout.subscriptions hub.slots id = _) ∨
    Hub.offerAll (.reason reason) fanout.subscriptions hub.slots id = _
  rw [hslots]
  by_cases hempty : s.hub.slots id = none
  · -- the stream was notified: nothing was owed to an empty slot
    rcases hnow with hold | hcall
    · rcases hkept id hopen hold with ⟨text, h⟩ | h <;> simp [hempty] at h
    · exact .inl ⟨reason, Hub.offerAll_of_empty _ hempty hcall⟩
  · rw [Hub.offerAll_of_full _ hempty]
    rcases hnow with hold | ⟨subscription, hsub, rfl⟩
    · exact hkept id hopen hold
    · have hno := hmark subscription hsub hopen
      cases hslot : s.hub.slots subscription.id with
      | none => exact absurd hslot hempty
      | some item => cases item <;> simp_all

theorem kept_close (hkept : WakeUpKept s) (subscription : Subscription) :
    WakeUpKept (s.close subscription) := by
  obtain ⟨hslots, howed⟩ := Hub.unsubscribe_frame (h := s.hub) subscription
  intro id hopen hnow
  have hne : id ≠ subscription.id := by
    rintro rfl
    exact hopen (by simp [Server.close])
  have hopen : s.phase id ≠ .ended := by simpa [Server.close, hne] using hopen
  show (∃ text, (s.hub.unsubscribe subscription).slots id = _) ∨
    (s.hub.unsubscribe subscription).slots id = _
  rw [hslots]
  exact hkept id hopen (by rw [← howed]; exact hnow)

theorem kept_read (hkept : WakeUpKept s) {subscription : Subscription} {item : Item}
    (hphase : s.phase subscription.id ≠ .ended)
    (hslot : s.hub.slots subscription.id = some item) : WakeUpKept (s.read subscription item) := by
  have hother : ∀ {id}, id ≠ subscription.id → s.phase id ≠ .ended → s.hub.owed id = true →
      (∃ text, Function.update s.hub.slots subscription.id none id = some (.reason text)) ∨
        Function.update s.hub.slots subscription.id none id = some .terminated := by
    intro id hne hopen hnow
    rw [Function.update_of_ne hne]
    exact hkept id hopen hnow
  cases item with
  | terminated =>
      intro id hopen hnow
      have hne : id ≠ subscription.id := by
        rintro rfl
        exact hopen (by simp [Server.read, Server.close])
      let emptied : Hub :=
        { s.hub with slots := Function.update s.hub.slots subscription.id none }
      obtain ⟨hslots, howed⟩ := Hub.unsubscribe_frame (h := emptied) subscription
      have hopen : s.phase id ≠ .ended := by simpa [Server.read, Server.close, hne] using hopen
      show (∃ text, (emptied.unsubscribe subscription).slots id = _) ∨
        (emptied.unsubscribe subscription).slots id = _
      rw [hslots]
      exact hother hne hopen (by rw [← show _ = s.hub.owed from howed]; exact hnow)
  | timer =>
      intro id hopen hnow
      by_cases hid : id = subscription.id
      · -- a timer mark is no reason, so nothing was owed
        subst hid
        rcases hkept _ hphase hnow with ⟨text, h⟩ | h <;> simp [hslot] at h
      · simp only [Server.read, Function.update_of_ne hid] at hopen
        exact hother hid hopen hnow
  | reason text =>
      intro id hopen hnow
      by_cases hid : id = subscription.id
      · simp [Server.read, hid] at hnow
      · simp only [Server.read, Function.update_of_ne hid] at hopen hnow
        exact hother hid hopen hnow

theorem kept_step (hkept : WakeUpKept s) (hmark : ¬MeetsTimerMark cfg s e)
    (h : (server cfg).step s e = some s') : WakeUpKept s' := by
  have hdoes := server_step h
  cases e with
  | subscribe userId =>
      obtain ⟨subscription, hub, hsub, rfl⟩ := hdoes
      obtain ⟨hslots, howed⟩ := Hub.subscribe_frame hsub
      intro id hopen hnow
      dsimp only at hopen hnow ⊢
      by_cases hid : id = subscription.id
      · simp [howed, hid] at hnow
      · rw [howed, Function.update_of_ne hid] at hnow
        rw [Function.update_of_ne hid] at hopen
        rw [hslots, Function.update_of_ne hid]
        exact hkept id hopen hnow
  | wait id =>
      obtain ⟨hbusy, rfl⟩ := hdoes
      intro other hopen hnow
      refine hkept other ?_ hnow
      by_cases hid : other = id
      · simp [hid, hbusy]
      · simpa [hid] using hopen
  | tick id =>
      obtain ⟨hwaiting, rfl⟩ := hdoes
      intro other hopen hnow
      have hopen : s.phase other ≠ .ended := by
        by_cases hid : other = id
        · simp [hid, hwaiting]
        · simpa [hid] using hopen
      have hreal := hkept other hopen hnow
      have hfull : s.hub.slots other ≠ none := by
        rcases hreal with ⟨text, h⟩ | h <;> simp [h]
      dsimp only
      rw [Hub.offer_of_full hfull]
      exact hreal
  | take subscription =>
      obtain ⟨ticking, item, hphase, hslot, rfl⟩ := hdoes
      exact kept_read hkept (by simp [hphase]) hslot
  | unsubscribe subscription =>
      cases hdoes
      exact kept_close hkept subscription
  | notify userId reason =>
      cases hdoes
      show WakeUpKept { s with hub := Hub.fanOut cfg s.hub userId reason }
      unfold Hub.fanOut
      cases hfan : s.hub.fanoutOf? userId with
      | none => exact hkept
      | some fanout =>
          dsimp only
          split
          · next himm =>
              refine kept_deliver hkept rfl rfl fun subscription hsub hopen hslot => hmark ?_
              exact ⟨fanout, by simp [delivered?, hfan, himm], subscription, hsub, hopen, hslot⟩
          · intro id hopen hnow
            obtain ⟨hslots, howed⟩ := Hub.suppress_frame (h := s.hub) fanout
              (cfg.coalesceSeconds - (s.hub.clock - fanout.lastDeliveredAt.getD s.hub.clock)) reason
            dsimp only at hnow ⊢
            rw [howed] at hnow
            rw [hslots]
            exact hkept id hopen hnow
  | runHandle handle =>
      obtain ⟨-, -, rfl⟩ := hdoes
      unfold Hub.runHandle
      cases hfan : Rows.get? Fanout.id s.hub.fanouts handle.fanout with
      | none => exact hkept
      | some fanout =>
          refine kept_deliver hkept rfl rfl fun subscription hsub hopen hslot => hmark ?_
          exact ⟨fanout, hfan, subscription, hsub, hopen, hslot⟩
  | advance clock =>
      obtain ⟨-, rfl⟩ := hdoes
      exact hkept
  | stop =>
      cases hdoes
      intro id hopen hnow
      have hnow : s.hub.owed id = true := by
        rw [← Hub.stop_owed]
        exact hnow
      show (∃ text, Hub.terminateAll _ s.hub.slots id = _) ∨ Hub.terminateAll _ s.hub.slots id = _
      have hends := Hub.terminateAll_cases (s.hub.fanouts.flatMap (·.subscriptions)) id s.hub.slots
      rcases hends with h | h
      · rw [h]
        exact hkept id hopen hnow
      · exact .inr h

/-- A notification that meets a timer mark is lost at once. -/
theorem lost_step (hmark : MeetsTimerMark cfg s e) (h : (server cfg).step s e = some s') :
    ¬WakeUpKept s' := by
  obtain ⟨fanout, hfan, subscription, hsub, hopen, hslot⟩ := hmark
  have hfull : s.hub.slots subscription.id ≠ none := by simp [hslot]
  have hlost : ∀ (hub : Hub) (reason : String), hub.slots = s.hub.slots →
      ¬WakeUpKept { s with hub := hub.deliver fanout reason } := by
    intro hub reason hslots hkept
    have howed : (hub.deliver fanout reason).owed subscription.id = true := by
      simp only [Hub.deliver, Bool.or_eq_true, List.any_eq_true, decide_eq_true_eq]
      exact .inr ⟨subscription, hsub, rfl⟩
    have hafter : (hub.deliver fanout reason).slots subscription.id = some .timer := by
      show Hub.offerAll (.reason reason) fanout.subscriptions hub.slots subscription.id = _
      rw [hslots, Hub.offerAll_of_full _ hfull, hslot]
    rcases hkept subscription.id hopen howed with ⟨text, h⟩ | h <;>
      simp [hafter] at h
  have hdoes := server_step h
  cases e with
  | notify userId reason =>
      cases hdoes
      obtain ⟨hof, himm⟩ := Option.filter_eq_some_iff.mp hfan
      show ¬WakeUpKept { s with hub := Hub.fanOut cfg s.hub userId reason }
      unfold Hub.fanOut
      rw [hof]
      dsimp only
      rw [if_pos himm]
      exact hlost s.hub reason rfl
  | runHandle handle =>
      obtain ⟨-, -, rfl⟩ := hdoes
      unfold Hub.runHandle
      rw [show Rows.get? Fanout.id s.hub.fanouts handle.fanout = some fanout from hfan]
      exact hlost _ handle.reason rfl
  | _ => cases hfan

end Step

/-- **No wake-up is lost, but on a timer mark.** Along every run, a stream that
was notified keeps a reason or its end in the slot until it reads one, exactly
when no open stream is notified while its slot holds an unread timer mark. -/
theorem wake_up_kept_iff (cfg : HubConfig) {t : Server} {steps : List (Server × Event)}
    (h : (server cfg).Trace (server cfg).init steps t) :
    (∀ s ∈ TSys.statesOf steps t, WakeUpKept s) ↔ ∀ x ∈ steps, ¬MeetsTimerMark cfg x.1 x.2 := by
  refine TSys.Trace.forall_states_iff (I := WakeUpKept) (A := fun _ _ => True)
    (fun _ hs => hs) ?_ ?_ h (fun _ _ => trivial) ?_
  · exact fun s e s' hkept _ hmark hstep => kept_step hkept hmark hstep
  · exact fun s e s' _ _ hmark hstep => lost_step hmark hstep
  · intro id hopen
    exact absurd rfl hopen

/-- The defaults: a window of two seconds, a thousand streams. -/
def defaultHub : HubConfig := ⟨2000000, 1000⟩

/-- A stream that waits is notified and reads the reason; its ticker goes off in
the next wait, and it reads that mark too before the account is notified again. -/
theorem wake_up_kept_between_marks : ∃ steps t,
    (server defaultHub).Trace (server defaultHub).init steps t ∧ t.hub.log.length = 2 ∧
      ∀ s ∈ TSys.statesOf steps t, WakeUpKept s := by
  let evs : List Event := [.subscribe 1, .wait 0, .notify 1 "device.created", .take ⟨0, 1⟩,
    .wait 0, .tick 0, .take ⟨0, 1⟩, .wait 0, .notify 1 "node.sync"]
  have hrun : ((server defaultHub).replay evs).any (fun t => t.hub.log.length = 2) = true := by
    decide
  obtain ⟨t, ht, hlog⟩ := TSys.replay_any hrun
  have hok : (server defaultHub).ReplayOk (fun s e => ¬MeetsTimerMark defaultHub s e)
      (server defaultHub).init evs := by decide
  obtain ⟨steps, htrace, hsteps⟩ := TSys.Trace.of_replayOk evs hok ht
  exact ⟨steps, t, htrace, by simpa using hlog, (wake_up_kept_iff defaultHub htrace).mpr hsteps⟩

/-- The ticker fires, and a device is created before the stream runs again: the
slot keeps the timer mark and the notification is gone. -/
theorem wake_up_lost : ∃ t, (server defaultHub).Reachable t ∧ ¬WakeUpKept t := by
  have hrun : ((server defaultHub).replay [.subscribe 1, .wait 0, .tick 0,
      .notify 1 "device.created"]).any (fun t =>
        t.phase 0 ≠ .ended ∧ t.hub.owed 0 = true ∧ t.hub.slots 0 = some .timer) = true := by decide
  obtain ⟨t, ht, hcheck⟩ := TSys.replay_any hrun
  simp only [ne_eq, decide_eq_true_eq] at hcheck
  obtain ⟨hopen, howed, hslot⟩ := hcheck
  refine ⟨t, TSys.replay_reachable ht, fun hkept => ?_⟩
  rcases hkept 0 hopen howed with ⟨text, h⟩ | h <;> simp [hslot] at h

end VpnPanel.Theorems
