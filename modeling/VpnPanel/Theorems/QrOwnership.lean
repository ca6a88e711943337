import VpnPanel.UserPage.QrCache

/-!
# QR codes stay with their device, node and link

What the cache holds for a device and a node was fetched for them, after the
last change of the link, and the device is on the page.
-/

namespace VpnPanel.Theorems

open VpnPanel.Lib VpnPanel.UserPage

variable {s t : VpnQrChunks} {e : QrEvent}

/-- What the cache and the composable agree on. -/
structure Owns (s : VpnQrChunks) : Prop where
  known : ∀ d, d ∈ s.cache.known ↔ d ∈ s.knownDevices
  generation : s.cache.generation = s.resets
  fetches : ∀ f ∈ s.fetches, f.generation = f.origin.resets
  entries : ∀ x ∈ s.cache.entries,
    x.1 = nodeCacheKey x.2.origin.deviceId.text x.2.origin.nodeId.text ∧
      x.2.origin.deviceId ∈ s.cache.known ∧ x.2.origin.resets = s.resets

/-- The cache knows the devices on the page. -/
def Tracks (s : VpnQrChunks) : Prop := ∀ d, d ∈ s.cache.known ↔ d ∈ s.listed

theorem Owns.abort (h : Owns s) (which : Text → Bool) : Owns (s.abort which) where
  known := h.known
  generation := h.generation
  entries := h.entries
  fetches := fun f hf => by
    obtain ⟨g, hg, rfl⟩ := List.mem_map.mp hf
    split
    · exact h.fetches g hg
    · exact h.fetches g hg

theorem Owns.forgetDevice (h : Owns s) (d : KeyId) : Owns (s.forgetDevice d) where
  known := fun x => by
    show x ∈ List.filter _ s.cache.known ↔ x ∈ List.filter _ s.knownDevices
    rw [List.mem_filter, List.mem_filter, h.known]
  generation := h.generation
  fetches := (h.abort (keyOfDevice d)).fetches
  entries := fun x hx => by
    obtain ⟨hx, hother⟩ := List.mem_filter.mp hx
    obtain ⟨hkey, hknown, hresets⟩ := h.entries x hx
    refine ⟨hkey, List.mem_filter.mpr ⟨hknown, ?_⟩, hresets⟩
    -- an entry of the device would have gone with it
    rw [hkey] at hother
    have : ¬x.2.origin.deviceId = d := by
      intro hd
      rw [(keyOfDevice_iff _ _ _).mpr hd] at hother
      cases hother
    simpa using this

theorem forgetDevice_known (s : VpnQrChunks) (d x : KeyId) :
    x ∈ (s.forgetDevice d).cache.known ↔ x ∈ s.cache.known ∧ x ≠ d := by
  show x ∈ List.filter _ s.cache.known ↔ _
  simp [List.mem_filter]

/-- The loop that drops the devices that left the list. -/
theorem Owns.forgetAll (gone : List KeyId) : ∀ {s : VpnQrChunks}, Owns s →
    Owns (gone.foldl VpnQrChunks.forgetDevice s) ∧
      (∀ x, x ∈ (gone.foldl VpnQrChunks.forgetDevice s).cache.known ↔
        x ∈ s.cache.known ∧ x ∉ gone) ∧
      (gone.foldl VpnQrChunks.forgetDevice s).resets = s.resets := by
  induction gone with
  | nil =>
      intro s h
      exact ⟨h, fun x => by simp, rfl⟩
  | cons d gone ih =>
      intro s h
      obtain ⟨howns, hknown, hresets⟩ := ih (h.forgetDevice d)
      refine ⟨howns, fun x => ?_, hresets⟩
      rw [List.foldl_cons, hknown, forgetDevice_known, List.mem_cons, not_or, and_assoc]

theorem trackDevice_known (h : Owns s) (d x : KeyId) :
    x ∈ (s.trackDevice d).cache.known ↔ x ∈ s.cache.known ∨ x = d := by
  unfold VpnQrChunks.trackDevice
  split
  · next hmem =>
    have hd : d ∈ s.cache.known := (h.known d).mpr (by simpa using hmem)
    constructor
    · exact .inl
    · rintro (hx | rfl)
      · exact hx
      · exact hd
  · show x ∈ List.insert d s.cache.known ↔ _
    rw [List.mem_insert_iff, or_comm]

theorem Owns.trackDevice (h : Owns s) (d : KeyId) : Owns (s.trackDevice d) := by
  unfold VpnQrChunks.trackDevice
  split
  · exact h
  · refine ⟨fun x => ?_, h.generation, h.fetches, fun x hx => ?_⟩
    · show x ∈ List.insert d s.cache.known ↔ x ∈ List.insert d s.knownDevices
      rw [List.mem_insert_iff, List.mem_insert_iff, h.known]
    · obtain ⟨hkey, hknown, hresets⟩ := h.entries x hx
      exact ⟨hkey, List.mem_insert_of_mem hknown, hresets⟩

/-- The loop that tracks the devices of the list. -/
theorem Owns.trackAll (live : List KeyId) : ∀ {s : VpnQrChunks}, Owns s →
    Owns (live.foldl VpnQrChunks.trackDevice s) ∧
      (∀ x, x ∈ (live.foldl VpnQrChunks.trackDevice s).cache.known ↔
        x ∈ s.cache.known ∨ x ∈ live) ∧
      (live.foldl VpnQrChunks.trackDevice s).listed = s.listed := by
  induction live with
  | nil =>
      intro s h
      exact ⟨h, fun x => by simp, rfl⟩
  | cons d live ih =>
      intro s h
      obtain ⟨howns, hknown, hlisted⟩ := ih (h.trackDevice d)
      refine ⟨howns, fun x => ?_, hlisted.trans ?_⟩
      · rw [List.foldl_cons, hknown, trackDevice_known h, List.mem_cons, or_assoc]
      · unfold VpnQrChunks.trackDevice
        split
        · rfl
        · rfl

/-- After a list update the cache knows exactly the devices of the list. -/
theorem Owns.syncDevices (h : Owns s) (live : List KeyId) :
    Owns (s.syncDevices live) ∧ Tracks (s.syncDevices live) := by
  obtain ⟨hleft, hkept, -⟩ := h.forgetAll (s.knownDevices.filter (!live.contains ·))
  obtain ⟨howns, hknown, hlisted⟩ := Owns.trackAll live (s := { List.foldl
      VpnQrChunks.forgetDevice s (s.knownDevices.filter (!live.contains ·)) with listed := live })
    ⟨hleft.known, hleft.generation, hleft.fetches, hleft.entries⟩
  refine ⟨howns, fun d => ?_⟩
  unfold VpnQrChunks.syncDevices
  rw [hknown, hlisted]
  dsimp only
  rw [hkept, h.known, List.mem_filter]
  by_cases hd : d ∈ live
  · simp [hd]
  · simp [hd]

/-- A stored state belongs to the request it is stored for. -/
theorem Owns.set (h : Owns s) {origin : Origin} {state : QrLoadState} {generation : Nat}
    (hresets : origin.resets = s.resets) :
    ∀ x ∈ (s.cache.set origin state generation).entries,
      x.1 = nodeCacheKey x.2.origin.deviceId.text x.2.origin.nodeId.text ∧
        x.2.origin.deviceId ∈ s.cache.known ∧ x.2.origin.resets = s.resets := by
  intro x hx
  rcases DeviceQrCache.mem_set hx with hx | ⟨hknown, horigin, hkey⟩
  · exact h.entries x hx
  · rw [horigin]
    exact ⟨hkey, hknown, hresets⟩

theorem Owns.loadChunks (h : Owns s) (d : KeyId) (node : UserNode) :
    Owns (s.loadChunks d node) := by
  unfold VpnQrChunks.loadChunks
  split
  · exact h
  · split
    · exact h
    · refine ⟨fun x => ?_, ?_, fun f hf => ?_, fun x hx => ?_⟩
      · dsimp only
        rw [DeviceQrCache.set_known]
        exact h.known x
      · dsimp only
        rw [DeviceQrCache.set_generation]
        exact h.generation
      · rcases List.mem_append.mp hf with hf | hf
        · exact h.fetches f hf
        · rw [List.mem_singleton.mp hf]
          exact h.generation
      · dsimp only
        rw [DeviceQrCache.set_known]
        exact h.set rfl x hx

/-- A late answer is stored only for a known device and the current link. -/
theorem Owns.settle (h : Owns s) {f : Fetch} (hf : f ∈ s.fetches) (data : VpnQrData) :
    Owns (s.settle f data) := by
  have hfetches : ∀ g ∈ s.fetches.erase f, g.generation = g.origin.resets :=
    fun g hg => h.fetches g (List.mem_of_mem_erase hg)
  unfold VpnQrChunks.settle
  rcases data.state? with _ | state
  · exact ⟨h.known, h.generation, hfetches, h.entries⟩
  · dsimp only
    unfold DeviceQrCache.setIfLive
    split
    · next haccepts =>
      have hgeneration : f.generation = s.cache.generation := by
        simp only [DeviceQrCache.accepts, Bool.and_eq_true, decide_eq_true_eq] at haccepts
        exact haccepts.1
      have hresets : f.origin.resets = s.resets := by
        rw [← h.fetches f hf, hgeneration, h.generation]
      refine ⟨fun x => ?_, ?_, hfetches, fun x hx => ?_⟩
      · dsimp only
        rw [DeviceQrCache.set_known]
        exact h.known x
      · dsimp only
        rw [DeviceQrCache.set_generation]
        exact h.generation
      · dsimp only
        rw [DeviceQrCache.set_known]
        exact h.set hresets x hx
    · exact ⟨h.known, h.generation, hfetches, h.entries⟩

theorem Owns.rotate (h : Owns s) : Owns { s with cache := s.cache.rotate } where
  known := h.known
  generation := h.generation
  fetches := h.fetches
  entries := fun x hx => by
    obtain ⟨y, hy, rfl⟩ := List.mem_map.mp hx
    exact h.entries y hy

theorem Owns.reset (h : Owns s) : Owns s.reset where
  known := fun d => by
    show d ∈ [] ↔ d ∈ []
    rfl
  generation := congrArg Nat.succ h.generation
  fetches := (h.abort fun _ => true).fetches
  entries := fun x hx => nomatch hx

/-- **Step.** -/
theorem owns_step (h : Owns s ∧ Tracks s) (hstep : s.step e = some t) : Owns t ∧ Tracks t := by
  obtain ⟨howns, htracks⟩ := h
  cases e with
  | sync devices =>
      cases hstep
      exact howns.syncDevices devices
  | forget d =>
      cases hstep
      refine ⟨howns.forgetDevice d, fun x => ?_⟩
      rw [forgetDevice_known, htracks]
      show _ ↔ x ∈ List.filter _ s.listed
      simp [List.mem_filter]
  | load d node =>
      cases hstep
      refine ⟨howns.loadChunks d node, fun x => ?_⟩
      unfold VpnQrChunks.loadChunks
      split
      · exact htracks x
      · split
        · exact htracks x
        · dsimp only
          rw [DeviceQrCache.set_known]
          exact htracks x
  | settle f data =>
      obtain ⟨⟨hf, -⟩, hstep⟩ := Option.ite_none_right_eq_some.mp hstep
      cases hstep
      refine ⟨howns.settle hf data, fun x => ?_⟩
      unfold VpnQrChunks.settle
      rcases data.state? with _ | state
      · exact htracks x
      · dsimp only
        unfold DeviceQrCache.setIfLive
        split
        · rw [DeviceQrCache.set_known]
          exact htracks x
        · exact htracks x
  | rotate =>
      cases hstep
      exact ⟨howns.rotate, htracks⟩
  | reset =>
      cases hstep
      refine ⟨howns.reset, fun x => ?_⟩
      show x ∈ [] ↔ x ∈ []
      rfl

end VpnPanel.Theorems
