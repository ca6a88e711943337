import VpnPanel.Events.Coalescing

/-!
# What coalescing holds back

A heartbeat that comes too early is delivered when its window is over, any other
notification at once, and no timer outlives the streams it was booked for.
-/

namespace VpnPanel.Theorems

open VpnPanel.Lib VpnPanel.Backend VpnPanel.Events

variable {cfg : HubConfig} {s s' : Server}

/-- What a notification with any other reason does. -/
theorem notify_uncoalesced (hok : s.hub.Ok cfg) {userId : UserId} {f : Fanout} {reason : String}
    (hfan : s.hub.fanoutOf? userId = some f) (hreason : reason ∉ coalescedReasons)
    (h : (server cfg).step s (.notify userId reason) = some s') :
    s'.hub.log = ⟨f.id, reason, s.hub.clock⟩ :: s.hub.log ∧
      (∀ x ∈ f.subscriptions, s'.hub.slots x.id ≠ none) ∧
      ∀ t ∈ s'.hub.handles, t.fanout ≠ f.id := by
  have hdoes := server_step h
  have hs : s'.hub = s.hub.deliver f reason := by
    cases hdoes
    show s.hub.fanOut cfg userId reason = _
    unfold Hub.fanOut
    rw [hfan]
    exact if_pos (by simp [Hub.immediate, hreason])
  rw [hs]
  refine ⟨rfl, fun x hx => ?_, fun t ht => ?_⟩
  · show Hub.offerAll (.reason reason) f.subscriptions s.hub.slots x.id ≠ none
    by_cases hempty : s.hub.slots x.id = none
    · simp [Hub.offerAll_of_empty _ hempty ⟨x, hx, rfl⟩]
    · rwa [Hub.offerAll_of_full _ hempty]
  · have ht : t ∈ (s.hub.cancelTrailing f).handles := ht
    rw [hok.cancelTrailing_handles (Rows.mem_of_get? hfan)] at ht
    simpa using (List.mem_filter.mp ht).2

end VpnPanel.Theorems
