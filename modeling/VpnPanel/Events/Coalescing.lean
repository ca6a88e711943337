import VpnPanel.Events.Stream

/-!
# The coalescing state of a hub

A fanout and the timer that the loop holds for it tell the same story: the
timer is the fanout's trailing one, and its deadline is one window after the
last delivery. Every method of the hub keeps this.
-/

namespace VpnPanel.Events

open VpnPanel.Lib VpnPanel.Backend

/-- A heartbeat delivery keeps its distance from an earlier one of its fanout. -/
def Spaced (cfg : HubConfig) (d earlier : Delivery) : Prop :=
  d.fanout = earlier.fanout → d.reason ∈ coalescedReasons →
    earlier.at_ + cfg.coalesceSeconds ≤ d.at_

namespace Hub

structure Ok (cfg : HubConfig) (h : Hub) : Prop where
  ids : Rows.Distinct Fanout.id h.fanouts
  users : Rows.Distinct Fanout.userId h.fanouts
  below : Rows.Below Fanout.id h.fanouts h.nextId
  streams : ∀ f ∈ h.fanouts, f.subscriptions ≠ []
  handles : Rows.Distinct TimerHandle.id h.handles
  handlesBelow : Rows.Below TimerHandle.id h.handles h.nextId
  cancelledBelow : ∀ id ∈ h.cancelled, id < h.nextId
  armed : ∀ t ∈ h.handles, ∃ f ∈ h.fanouts, f.id = t.fanout ∧ f.trailing = some t.id ∧
    f.lastDeliveredAt.map (· + cfg.coalesceSeconds) = some t.deadline
  trailing : ∀ f ∈ h.fanouts, ∀ id, f.trailing = some id →
    id ∉ h.cancelled ∧ ∃ t ∈ h.handles, t.id = id ∧ t.fanout = f.id
  suppressed : ∀ f ∈ h.fanouts, h.suppressed f.id = true → f.trailing ≠ none
  unsuppressed : ∀ id, h.nextId ≤ id → h.suppressed id = false
  logBelow : ∀ d ∈ h.log, d.fanout < h.nextId ∧ d.at_ ≤ h.clock
  last : ∀ f ∈ h.fanouts, ∀ d ∈ h.log, d.fanout = f.id →
    ∃ last, f.lastDeliveredAt = some last ∧ d.at_ ≤ last
  latest : ∀ f ∈ h.fanouts,
    f.lastDeliveredAt = (h.log.find? (·.fanout = f.id)).map (·.at_)
  spaced : h.log.Pairwise (Spaced cfg)
  stopped : h.stopping = true → h.fanouts = []

variable {cfg : HubConfig} {h : Hub} {f : Fanout} {reason : String}

theorem ok_init (cfg : HubConfig) : Ok cfg {} where
  ids := List.nodup_nil
  users := List.nodup_nil
  below := by simp [Rows.Below]
  streams := by simp
  handles := List.nodup_nil
  handlesBelow := by simp [Rows.Below]
  cancelledBelow := by simp
  armed := by simp
  trailing := by simp
  suppressed := by simp
  unsuppressed := by simp
  logBelow := by simp
  last := by simp
  latest := by simp
  spaced := List.Pairwise.nil
  stopped := fun _ => rfl

/-! ## Timers -/

/-- Cancelling the trailing timer of a fanout takes exactly its handles out of
the loop. -/
theorem Ok.cancelTrailing_handles (hok : Ok cfg h) (hf : f ∈ h.fanouts) :
    (h.cancelTrailing f).handles = h.handles.filter (·.fanout ≠ f.id) := by
  have hsame : ∀ t ∈ h.handles, t.fanout = f.id → f.trailing = some t.id := by
    intro t ht hfan
    obtain ⟨g, hg, hid, htrail, -⟩ := hok.armed t ht
    rw [← hok.ids.eq_of_key hg hf (hid.trans hfan)]
    exact htrail
  unfold cancelTrailing
  cases htrail : f.trailing with
  | none =>
      symm
      rw [List.filter_eq_self]
      intro t ht
      have := hsame t ht
      simp only [htrail] at this
      simpa using this
  | some id =>
      obtain ⟨-, mine, hmine, rfl, hfan⟩ := hok.trailing f hf id htrail
      apply List.filter_congr
      intro t ht
      by_cases hid : t.id = mine.id
      · have : t = mine := hok.handles.eq_of_key ht hmine hid
        simp [this, hfan]
      · have hne : t.fanout ≠ f.id := by
          intro heq
          have := hsame t ht heq
          rw [htrail] at this
          exact hid (Option.some.inj this).symm
        simp [hid, hne]

theorem cancelTrailing_cancelled {id : HandleId} :
    id ∈ (h.cancelTrailing f).cancelled ↔ id ∈ h.cancelled ∨ f.trailing = some id := by
  unfold cancelTrailing
  cases f.trailing with
  | none => simp
  | some other => simp [cancel, or_comm, eq_comm]

theorem Ok.cancelled_lt (hok : Ok cfg h) (hf : f ∈ h.fanouts) :
    ∀ id ∈ (h.cancelTrailing f).cancelled, id < h.nextId := by
  intro id hid
  rcases cancelTrailing_cancelled.mp hid with hid | hid
  · exact hok.cancelledBelow id hid
  · obtain ⟨-, t, ht, rfl, -⟩ := hok.trailing f hf id hid
    exact hok.handlesBelow t ht

/-- A timer of another fanout survives, and is not cancelled. -/
theorem Ok.trailing_of_ne (hok : Ok cfg h) (hf : f ∈ h.fanouts) {g : Fanout} (hg : g ∈ h.fanouts)
    (hne : g.id ≠ f.id) {id : HandleId} (htrail : g.trailing = some id) :
    id ∉ (h.cancelTrailing f).cancelled ∧
      ∃ t ∈ (h.cancelTrailing f).handles, t.id = id ∧ t.fanout = g.id := by
  obtain ⟨hlive, t, ht, rfl, hfan⟩ := hok.trailing g hg id htrail
  refine ⟨fun hid => ?_, t, ?_, rfl, hfan⟩
  · rcases cancelTrailing_cancelled.mp hid with hid | hid
    · exact hlive hid
    · obtain ⟨-, mine, hmine, hid', hfan'⟩ := hok.trailing f hf t.id hid
      have : mine = t := hok.handles.eq_of_key hmine ht hid'
      rw [this, hfan] at hfan'
      exact hne hfan'
  · rw [hok.cancelTrailing_handles hf]
    simp [ht, hfan, hne]

/-- The timers that are left are those of other fanouts. -/
theorem Ok.armed_of_ne (hok : Ok cfg h) {t : TimerHandle}
    (ht : t ∈ h.handles.filter (·.fanout ≠ f.id)) :
    ∃ g ∈ h.fanouts, g.id ≠ f.id ∧ g.id = t.fanout ∧ g.trailing = some t.id ∧
      g.lastDeliveredAt.map (· + cfg.coalesceSeconds) = some t.deadline := by
  obtain ⟨hmem, hne⟩ := List.mem_filter.mp ht
  obtain ⟨g, hg, hid, hrest⟩ := hok.armed t hmem
  exact ⟨g, hg, by simpa [hid] using hne, hid, hrest⟩

/-! ## A fanout written back -/

theorem Ok.userIds_save (hok : Ok cfg h) (hf : f ∈ h.fanouts) {f' : Fanout} (hid : f'.id = f.id)
    (huser : f'.userId = f.userId) :
    (Rows.save Fanout.id f' h.fanouts).map (·.userId) = h.fanouts.map (·.userId) := by
  unfold Rows.save
  rw [List.map_map]
  refine List.map_congr_left fun g hg => ?_
  by_cases hkey : g.id = f'.id
  · have : g = f := hok.ids.eq_of_key hg hf (hkey.trans hid)
    subst this
    simp [hkey, huser]
  · simp [hkey]

theorem mem_save (hf : f ∈ h.fanouts) {f' g : Fanout} (hid : f'.id = f.id) :
    g ∈ Rows.save Fanout.id f' h.fanouts ↔ g = f' ∨ (g ∈ h.fanouts ∧ g.id ≠ f.id) := by
  rw [Rows.mem_save, hid]
  constructor
  · rintro (⟨rfl, -⟩ | h)
    · exact .inl rfl
    · exact .inr h
  · rintro (rfl | h)
    · exact .inl ⟨rfl, f, hf, rfl⟩
    · exact .inr h

theorem Ok.below_save (hok : Ok cfg h) (hf : f ∈ h.fanouts) {f' : Fanout} (hid : f'.id = f.id) :
    Rows.Below Fanout.id (Rows.save Fanout.id f' h.fanouts) h.nextId := by
  intro g hg
  rcases (mem_save hf hid).mp hg with rfl | ⟨hg, -⟩
  · rw [hid]
    exact hok.below f hf
  · exact hok.below g hg

theorem Ok.streams_save (hok : Ok cfg h) (hf : f ∈ h.fanouts) {f' : Fanout} (hid : f'.id = f.id)
    (hopen : f'.subscriptions ≠ []) :
    ∀ g ∈ Rows.save Fanout.id f' h.fanouts, g.subscriptions ≠ [] := by
  intro g hg
  rcases (mem_save hf hid).mp hg with rfl | ⟨hg, -⟩
  · exact hopen
  · exact hok.streams g hg

/-! ## Deliveries -/

/-- A delivery cancels the fanout's timer, and is due if it is a heartbeat. -/
theorem Ok.deliver (hok : Ok cfg h) (hf : f ∈ h.fanouts)
    (hdue : reason ∈ coalescedReasons → ∀ last, f.lastDeliveredAt = some last →
      last + cfg.coalesceSeconds ≤ h.clock) : Ok cfg (h.deliver f reason) := by
  let f' : Fanout := { f with trailing := none, lastDeliveredAt := some h.clock }
  have hmem : ∀ {g}, g ∈ (h.deliver f reason).fanouts ↔ g = f' ∨ (g ∈ h.fanouts ∧ g.id ≠ f.id) :=
    mem_save hf (show f'.id = f.id from rfl)
  have hhandles : (h.deliver f reason).handles = h.handles.filter (·.fanout ≠ f.id) :=
    hok.cancelTrailing_handles hf
  have hnext : (h.deliver f reason).nextId = h.nextId := by
    unfold Hub.deliver cancelTrailing
    cases f.trailing <;> rfl
  have hclock : (h.deliver f reason).clock = h.clock := by
    unfold Hub.deliver cancelTrailing
    cases f.trailing <;> rfl
  have hstopping : (h.deliver f reason).stopping = h.stopping := by
    unfold Hub.deliver cancelTrailing
    cases f.trailing <;> rfl
  have hlt : f.id < h.nextId := hok.below f hf
  refine {
    ids := hok.ids.save
    users := ?_
    below := ?_
    streams := hok.streams_save hf rfl (hok.streams f hf)
    handles := ?_
    handlesBelow := ?_
    cancelledBelow := ?_
    armed := ?_
    trailing := ?_
    suppressed := ?_
    unsuppressed := ?_
    logBelow := ?_
    last := ?_
    latest := ?_
    spaced := List.pairwise_cons.mpr ⟨?_, hok.spaced⟩
    stopped := ?_ }
  · show ((Rows.save Fanout.id f' h.fanouts).map (·.userId)).Nodup
    rw [hok.userIds_save hf (show f'.id = f.id from rfl) rfl]
    exact hok.users
  · rw [hnext]
    exact hok.below_save hf rfl
  · rw [hhandles]
    exact hok.handles.filter _
  · rw [hhandles, hnext]
    exact hok.handlesBelow.filter _
  · rw [hnext]
    exact hok.cancelled_lt hf
  · intro t ht
    rw [hhandles] at ht
    obtain ⟨g, hg, hne, hrest⟩ := hok.armed_of_ne ht
    exact ⟨g, hmem.mpr (.inr ⟨hg, hne⟩), hrest⟩
  · intro g hg id htrail
    rcases hmem.mp hg with rfl | ⟨hg, hne⟩
    · cases htrail
    · exact hok.trailing_of_ne hf hg hne htrail
  · intro g hg hsup
    rcases hmem.mp hg with rfl | ⟨hg, hne⟩
    · simp [Hub.deliver, f'] at hsup
    · exact hok.suppressed g hg (by simpa [Hub.deliver, hne] using hsup)
  · intro id hid
    rw [hnext] at hid
    have hne : id ≠ f.id := by grind
    simpa [Hub.deliver, hne] using hok.unsuppressed id hid
  · intro d hd
    rw [hnext, hclock]
    rcases List.mem_cons.mp hd with rfl | hd
    · exact ⟨hlt, Int.le_refl _⟩
    · exact hok.logBelow d hd
  · intro g hg d hd hfan
    rcases hmem.mp hg with rfl | ⟨hg, hne⟩
    · refine ⟨h.clock, rfl, ?_⟩
      rcases List.mem_cons.mp hd with rfl | hd
      · exact Int.le_refl _
      · exact (hok.logBelow d hd).2
    · rcases List.mem_cons.mp hd with rfl | hd
      · exact absurd hfan.symm hne
      · exact hok.last g hg d hd hfan
  · intro g hg
    rcases hmem.mp hg with rfl | ⟨hg, hne⟩
    · simp [Hub.deliver, f']
    · rw [hok.latest g hg]
      simp [Hub.deliver, Ne.symm hne]
  · intro d hd hfan hreason
    obtain ⟨last, hlast, hle⟩ := hok.last f hf d hd hfan.symm
    have := hdue hreason last hlast
    show d.at_ + cfg.coalesceSeconds ≤ h.clock
    grind
  · intro hstop
    have hnone : h.fanouts = [] := hok.stopped (by rwa [hstopping] at hstop)
    rw [hnone] at hf
    cases hf

/-- Running a handle is the delivery that its fanout booked. -/
theorem Ok.runHandle (hok : Ok cfg h) {t : TimerHandle} (ht : t ∈ h.handles)
    (hdue : t.deadline ≤ h.clock) : Ok cfg (h.runHandle t) := by
  obtain ⟨f, hf, hid, htrail, hlast⟩ := hok.armed t ht
  have hget : Rows.get? Fanout.id h.fanouts t.fanout = some f := by
    rw [← hid]
    exact hok.ids.get?_eq_some hf
  have hsame : h.runHandle t = h.deliver f t.reason := by
    unfold Hub.runHandle Hub.deliver cancelTrailing
    rw [hget]
    simp [htrail, cancel]
  rw [hsame]
  refine hok.deliver hf fun _ last hl => ?_
  rw [hl] at hlast
  have hbooked : last + cfg.coalesceSeconds = t.deadline := by simpa using hlast
  rw [hbooked]
  exact hdue

/-! ## Notifications held back -/

/-- A heartbeat that is held back books a timer one window after the last
delivery, unless one is booked already. -/
theorem Ok.suppress (hok : Ok cfg h) (hf : f ∈ h.fanouts) {last : Time}
    (hlast : f.lastDeliveredAt = some last) :
    Ok cfg (h.suppress f (cfg.coalesceSeconds - (h.clock - last)) reason) := by
  have hlt : f.id < h.nextId := hok.below f hf
  have hfresh : ∀ id, h.nextId ≤ id → Function.update h.suppressed f.id true id = false := by
    intro id hid
    have hne : id ≠ f.id := by grind
    simpa [hne] using hok.unsuppressed id hid
  unfold Hub.suppress
  dsimp only
  split
  · next hnone =>
      -- a timer that the fanout still has is not cancelled, so it has none
      have htrail : f.trailing = none := by
        cases htrail : f.trailing with
        | none => rfl
        | some id =>
            rw [htrail] at hnone
            exact absurd (by simpa using hnone) (hok.trailing f hf id htrail).1
      let f' : Fanout := { f with trailing := some h.nextId }
      have hmem : ∀ {g}, g ∈ Rows.save Fanout.id f' h.fanouts ↔
          g = f' ∨ (g ∈ h.fanouts ∧ g.id ≠ f.id) := mem_save hf rfl
      have hold : ∀ t ∈ h.handles, t.fanout ≠ f.id := by
        intro t ht hfan
        obtain ⟨g, hg, hid, hg', -⟩ := hok.armed t ht
        rw [hok.ids.eq_of_key hg hf (hid.trans hfan), htrail] at hg'
        cases hg'
      refine {
        ids := hok.ids.save
        users := ?_
        below := (hok.below_save hf (show f'.id = f.id from rfl)).succ
        streams := hok.streams_save hf rfl (hok.streams f hf)
        handles := hok.handles.append (hok.handlesBelow.ne rfl)
        handlesBelow := hok.handlesBelow.append rfl
        cancelledBelow := fun id hid => Nat.lt_succ_of_lt (hok.cancelledBelow id hid)
        armed := ?_
        trailing := ?_
        suppressed := ?_
        unsuppressed := fun id hid => hfresh id (Nat.le_of_succ_le hid)
        logBelow := fun d hd => ⟨Nat.lt_succ_of_lt (hok.logBelow d hd).1, (hok.logBelow d hd).2⟩
        last := ?_
        latest := ?_
        spaced := hok.spaced
        stopped := ?_ }
      · show ((Rows.save Fanout.id f' h.fanouts).map (·.userId)).Nodup
        rw [hok.userIds_save hf (show f'.id = f.id from rfl) rfl]
        exact hok.users
      · intro t ht
        rcases List.mem_append.mp ht with ht | ht
        · obtain ⟨g, hg, hid, hrest⟩ := hok.armed t ht
          exact ⟨g, hmem.mpr (.inr ⟨hg, by rw [hid]; exact hold t ht⟩), hid, hrest⟩
        · rw [List.mem_singleton.mp ht]
          refine ⟨f', hmem.mpr (.inl rfl), rfl, rfl, ?_⟩
          show f.lastDeliveredAt.map _ = _
          rw [hlast]
          simp only [Option.map_some, Option.some.injEq]
          grind
      · intro g hg id hid
        rcases hmem.mp hg with rfl | ⟨hg, hne⟩
        · cases hid
          refine ⟨fun hc => ?_, _, List.mem_append_right _ List.mem_cons_self, rfl, rfl⟩
          exact absurd (hok.cancelledBelow _ hc) (Nat.lt_irrefl _)
        · obtain ⟨hlive, t, ht, hrest⟩ := hok.trailing g hg id hid
          exact ⟨hlive, t, List.mem_append_left _ ht, hrest⟩
      · intro g hg hsup
        rcases hmem.mp hg with rfl | ⟨hg, hne⟩
        · exact Option.some_ne_none _
        · exact hok.suppressed g hg (by simpa [hne] using hsup)
      · intro g hg d hd hfan
        rcases hmem.mp hg with rfl | ⟨hg, -⟩
        · exact hok.last f hf d hd hfan
        · exact hok.last g hg d hd hfan
      · intro g hg
        rcases hmem.mp hg with rfl | ⟨hg, -⟩
        · exact hok.latest f hf
        · exact hok.latest g hg
      · intro hstop
        rw [hok.stopped hstop] at hf
        cases hf
  · next hsome =>
      refine { hok with suppressed := ?_, unsuppressed := hfresh }
      intro g hg hsup
      by_cases hid : g.id = f.id
      · rw [hok.ids.eq_of_key hg hf hid]
        intro htrail
        exact hsome (by simp [htrail])
      · exact hok.suppressed g hg (by simpa [hid] using hsup)

theorem Ok.fanOut (hok : Ok cfg h) (userId : UserId) (reason : String) :
    Ok cfg (h.fanOut cfg userId reason) := by
  unfold Hub.fanOut
  cases hfan : h.fanoutOf? userId with
  | none => exact hok
  | some f =>
      have hf : f ∈ h.fanouts := Rows.mem_of_get? hfan
      dsimp only
      split
      · next himm =>
          refine hok.deliver hf fun hreason last hlast => ?_
          have : cfg.coalesceSeconds ≤ h.clock - last := by
            simpa [immediate, hreason, hlast] using himm
          grind
      · next hheld =>
          -- only a fanout that has delivered holds a heartbeat back
          cases hlast : f.lastDeliveredAt with
          | none => simp [immediate, hlast] at hheld
          | some last => exact hok.suppress hf hlast

/-! ## Streams come and go -/

/-- What the invariant does not speak of may change, and time may pass. -/
theorem Ok.frame (hok : Ok cfg h) {g : Hub} (hfanouts : g.fanouts = h.fanouts)
    (hhandles : g.handles = h.handles) (hcancelled : g.cancelled = h.cancelled)
    (hnext : g.nextId = h.nextId) (hlog : g.log = h.log) (hsup : g.suppressed = h.suppressed)
    (hstop : g.stopping = h.stopping) (hclock : h.clock ≤ g.clock) : Ok cfg g where
  ids := hfanouts ▸ hok.ids
  users := hfanouts ▸ hok.users
  below := by rw [hfanouts, hnext]; exact hok.below
  streams := hfanouts ▸ hok.streams
  handles := hhandles ▸ hok.handles
  handlesBelow := by rw [hhandles, hnext]; exact hok.handlesBelow
  cancelledBelow := by rw [hcancelled, hnext]; exact hok.cancelledBelow
  armed := by rw [hhandles, hfanouts]; exact hok.armed
  trailing := by rw [hfanouts, hcancelled, hhandles]; exact hok.trailing
  suppressed := by rw [hfanouts, hsup]; exact hok.suppressed
  unsuppressed := by rw [hnext, hsup]; exact hok.unsuppressed
  logBelow := by
    rw [hlog, hnext]
    exact fun d hd => ⟨(hok.logBelow d hd).1, Int.le_trans (hok.logBelow d hd).2 hclock⟩
  last := by rw [hfanouts, hlog]; exact hok.last
  latest := by rw [hfanouts, hlog]; exact hok.latest
  spaced := hlog ▸ hok.spaced
  stopped := by rw [hstop, hfanouts]; exact hok.stopped

/-- A fanout whose streams changed, but that keeps one. -/
theorem Ok.saveStreams (hok : Ok cfg h) (hf : f ∈ h.fanouts) {subscriptions : List Subscription}
    (hopen : subscriptions ≠ []) :
    Ok cfg { h with fanouts := Rows.save Fanout.id { f with subscriptions } h.fanouts } := by
  have hmem : ∀ {g}, g ∈ Rows.save Fanout.id { f with subscriptions } h.fanouts ↔
      g = { f with subscriptions } ∨ (g ∈ h.fanouts ∧ g.id ≠ f.id) := mem_save hf rfl
  refine { hok with
    ids := hok.ids.save
    users := ?_
    below := hok.below_save hf rfl
    streams := hok.streams_save hf rfl hopen
    armed := ?_
    trailing := ?_
    suppressed := ?_
    last := ?_
    latest := ?_
    stopped := ?_ }
  · show (List.map (·.userId) (Rows.save Fanout.id { f with subscriptions } h.fanouts)).Nodup
    rw [hok.userIds_save hf (show ({ f with subscriptions } : Fanout).id = f.id from rfl) rfl]
    exact hok.users
  · intro t ht
    obtain ⟨g, hg, hid, hrest⟩ := hok.armed t ht
    by_cases hne : g.id = f.id
    · rw [hok.ids.eq_of_key hg hf hne] at hid hrest
      exact ⟨_, hmem.mpr (.inl rfl), hid, hrest⟩
    · exact ⟨g, hmem.mpr (.inr ⟨hg, hne⟩), hid, hrest⟩
  · intro g hg
    rcases hmem.mp hg with rfl | ⟨hg, -⟩
    · exact hok.trailing f hf
    · exact hok.trailing g hg
  · intro g hg
    rcases hmem.mp hg with rfl | ⟨hg, -⟩
    · exact hok.suppressed f hf
    · exact hok.suppressed g hg
  · intro g hg
    rcases hmem.mp hg with rfl | ⟨hg, -⟩
    · exact hok.last f hf
    · exact hok.last g hg
  · intro g hg
    rcases hmem.mp hg with rfl | ⟨hg, -⟩
    · exact hok.latest f hf
    · exact hok.latest g hg
  · intro hstop
    rw [hok.stopped hstop] at hf
    cases hf

/-- Ids may be drawn that nothing uses. -/
theorem Ok.supply (hok : Ok cfg h) {n : Nat} (hn : h.nextId ≤ n) : Ok cfg { h with nextId := n } :=
  { hok with
    below := fun f hf => Nat.lt_of_lt_of_le (hok.below f hf) hn
    handlesBelow := fun t ht => Nat.lt_of_lt_of_le (hok.handlesBelow t ht) hn
    cancelledBelow := fun id hid => Nat.lt_of_lt_of_le (hok.cancelledBelow id hid) hn
    unsuppressed := fun id hid => hok.unsuppressed id (Nat.le_trans hn hid)
    logBelow := fun d hd =>
      ⟨Nat.lt_of_lt_of_le (hok.logBelow d hd).1 hn, (hok.logBelow d hd).2⟩ }

/-- A user's first stream opens a fanout without history. -/
theorem Ok.newFanout (hok : Ok cfg h) (hrunning : h.stopping = false) {userId : UserId}
    (hnone : h.fanoutOf? userId = none) (subscription : Subscription) :
    Ok cfg { h with
      fanouts := h.fanouts ++ [{ id := h.nextId, userId, subscriptions := [subscription] }]
      nextId := h.nextId + 1 } := by
  have husers : ∀ f ∈ h.fanouts, f.userId ≠ userId := Rows.get?_eq_none.mp hnone
  refine {
    ids := hok.ids.append (hok.below.ne rfl)
    users := hok.users.append husers
    below := hok.below.append rfl
    streams := ?_
    handles := hok.handles
    handlesBelow := hok.handlesBelow.succ
    cancelledBelow := fun id hid => Nat.lt_succ_of_lt (hok.cancelledBelow id hid)
    armed := ?_
    trailing := ?_
    suppressed := ?_
    unsuppressed := fun id hid => hok.unsuppressed id (Nat.le_of_succ_le hid)
    logBelow := fun d hd => ⟨Nat.lt_succ_of_lt (hok.logBelow d hd).1, (hok.logBelow d hd).2⟩
    last := ?_
    latest := ?_
    spaced := hok.spaced
    stopped := ?_ }
  · intro f hf
    rcases List.mem_append.mp hf with hf | hf
    · exact hok.streams f hf
    · simp [List.mem_singleton.mp hf]
  · intro t ht
    obtain ⟨f, hf, hrest⟩ := hok.armed t ht
    exact ⟨f, List.mem_append_left _ hf, hrest⟩
  · intro f hf id htrail
    rcases List.mem_append.mp hf with hf | hf
    · exact hok.trailing f hf id htrail
    · simp [List.mem_singleton.mp hf] at htrail
  · intro f hf hsup
    rcases List.mem_append.mp hf with hf | hf
    · exact hok.suppressed f hf hsup
    · rw [List.mem_singleton.mp hf] at hsup
      simp [hok.unsuppressed h.nextId (Nat.le_refl _)] at hsup
  · intro f hf d hd hfan
    rcases List.mem_append.mp hf with hf | hf
    · exact hok.last f hf d hd hfan
    · rw [List.mem_singleton.mp hf] at hfan
      exact absurd hfan (Nat.ne_of_lt (hok.logBelow d hd).1)
  · intro f hf
    rcases List.mem_append.mp hf with hf | hf
    · exact hok.latest f hf
    · have hnever : h.log.find? (·.fanout = h.nextId) = none := by
        rw [List.find?_eq_none]
        intro d hd
        simpa using Nat.ne_of_lt (hok.logBelow d hd).1
      simp [List.mem_singleton.mp hf, hnever]
  · intro hstop
    rw [show h.stopping = true from hstop] at hrunning
    cases hrunning

theorem Ok.subscribe (hok : Ok cfg h) {userId : UserId} {subscription : Subscription} {hub : Hub}
    (hs : h.subscribe cfg userId = some (subscription, hub)) : Ok cfg hub := by
  unfold Hub.subscribe at hs
  split at hs
  · cases hs
  · next hrunning =>
      have hrunning : h.stopping = false := by simpa using hrunning
      split at hs
      · cases hs
      · dsimp only at hs
        split at hs
        · next f hfan =>
            cases hs
            have hopen : f.subscriptions ++ [⟨h.nextId, userId⟩] ≠ [] := by simp
            have hsaved := hok.saveStreams (Rows.mem_of_get? hfan) hopen
            exact (hsaved.supply (Nat.le_succ _)).frame rfl rfl rfl rfl rfl rfl rfl (Int.le_refl _)
        · next hnone =>
            cases hs
            have hnew := (hok.supply (n := h.nextId + 1) (Nat.le_succ _)).newFanout hrunning hnone
              ⟨h.nextId, userId⟩
            exact hnew.frame rfl rfl rfl rfl rfl rfl rfl (Int.le_refl _)

/-- The last stream of a user takes the fanout and its timer with it. -/
theorem Ok.dropFanout (hok : Ok cfg h) (hf : f ∈ h.fanouts) :
    Ok cfg { h.cancelTrailing f with fanouts := h.fanouts.filter (·.userId ≠ f.userId) } := by
  have hmem : ∀ {g}, g ∈ h.fanouts.filter (·.userId ≠ f.userId) ↔ g ∈ h.fanouts ∧ g.id ≠ f.id := by
    intro g
    simp only [List.mem_filter, ne_eq, decide_not, Bool.not_eq_eq_eq_not, Bool.not_true,
      decide_eq_false_iff_not]
    refine and_congr_right fun hg => not_congr ⟨fun heq => ?_, fun heq => ?_⟩
    · rw [hok.users.eq_of_key hg hf heq]
    · rw [hok.ids.eq_of_key hg hf heq]
  have hhandles := hok.cancelTrailing_handles hf
  have hrest : (h.cancelTrailing f).nextId = h.nextId ∧ (h.cancelTrailing f).log = h.log ∧
      (h.cancelTrailing f).suppressed = h.suppressed ∧ (h.cancelTrailing f).clock = h.clock ∧
      (h.cancelTrailing f).stopping = h.stopping := by
    unfold cancelTrailing
    cases f.trailing <;> exact ⟨rfl, rfl, rfl, rfl, rfl⟩
  obtain ⟨hnext, hlog, hsup, hclock, hstopping⟩ := hrest
  refine {
    ids := hok.ids.filter _
    users := hok.users.filter _
    below := ?_
    streams := fun g hg => hok.streams g (hmem.mp hg).1
    handles := ?_
    handlesBelow := ?_
    cancelledBelow := ?_
    armed := ?_
    trailing := fun g hg id htrail => hok.trailing_of_ne hf (hmem.mp hg).1 (hmem.mp hg).2 htrail
    suppressed := ?_
    unsuppressed := ?_
    logBelow := ?_
    last := ?_
    latest := ?_
    spaced := ?_
    stopped := ?_ }
  · rw [hnext]
    exact hok.below.filter _
  · rw [hhandles]
    exact hok.handles.filter _
  · rw [hhandles, hnext]
    exact hok.handlesBelow.filter _
  · rw [hnext]
    exact hok.cancelled_lt hf
  · intro t ht
    rw [hhandles] at ht
    obtain ⟨g, hg, hne, hrest⟩ := hok.armed_of_ne ht
    exact ⟨g, hmem.mpr ⟨hg, hne⟩, hrest⟩
  · rw [hsup]
    exact fun g hg => hok.suppressed g (hmem.mp hg).1
  · rw [hnext, hsup]
    exact hok.unsuppressed
  · rw [hlog, hnext, hclock]
    exact hok.logBelow
  · rw [hlog]
    exact fun g hg => hok.last g (hmem.mp hg).1
  · rw [hlog]
    exact fun g hg => hok.latest g (hmem.mp hg).1
  · rw [hlog]
    exact hok.spaced
  · intro hstop
    rw [hok.stopped (hstopping ▸ hstop)] at hf
    cases hf

theorem Ok.unsubscribe (hok : Ok cfg h) (subscription : Subscription) :
    Ok cfg (h.unsubscribe subscription) := by
  unfold Hub.unsubscribe
  cases hfan : h.fanoutOf? subscription.userId with
  | none => exact hok
  | some f =>
      have hf : f ∈ h.fanouts := Rows.mem_of_get? hfan
      have huser : f.userId = subscription.userId := Rows.key_of_get? hfan
      dsimp only
      split
      · rw [← huser]
        exact hok.dropFanout hf
      · next hopen => exact hok.saveStreams hf hopen

/-! ## Shutdown -/

/-- Cancelling the timers of some fanouts leaves the others' handles. -/
theorem cancelAll (fanouts : List Fanout) : ∀ h : Hub,
    (fanouts.foldl cancelTrailing h).handles =
      h.handles.filter (fun t => fanouts.all fun f => f.trailing ≠ some t.id) ∧
    (fanouts.foldl cancelTrailing h).log = h.log ∧
    (fanouts.foldl cancelTrailing h).nextId = h.nextId ∧
    (fanouts.foldl cancelTrailing h).clock = h.clock ∧
    (fanouts.foldl cancelTrailing h).suppressed = h.suppressed ∧
    ∀ id ∈ (fanouts.foldl cancelTrailing h).cancelled,
      id ∈ h.cancelled ∨ ∃ f ∈ fanouts, f.trailing = some id := by
  induction fanouts with
  | nil =>
      intro h
      exact ⟨by simp, rfl, rfl, rfl, rfl, fun id hid => .inl hid⟩
  | cons first rest ih =>
      intro h
      obtain ⟨hhandles, hlog, hnext, hclock, hsup, hcancelled⟩ := ih (h.cancelTrailing first)
      have hone : (h.cancelTrailing first).handles =
          h.handles.filter (fun t => first.trailing ≠ some t.id) := by
        unfold cancelTrailing
        cases first.trailing with
        | none => simp
        | some id => simp [cancel, eq_comm]
      rw [List.foldl_cons]
      refine ⟨?_, ?_, ?_, ?_, ?_, fun id hid => ?_⟩
      · rw [hhandles, hone, List.filter_filter]
        apply List.filter_congr
        intro t _
        simp [Bool.and_comm]
      · rw [hlog]
        unfold cancelTrailing
        cases first.trailing <;> rfl
      · rw [hnext]
        unfold cancelTrailing
        cases first.trailing <;> rfl
      · rw [hclock]
        unfold cancelTrailing
        cases first.trailing <;> rfl
      · rw [hsup]
        unfold cancelTrailing
        cases first.trailing <;> rfl
      · rcases hcancelled id hid with hid | ⟨f, hf, htrail⟩
        · rcases cancelTrailing_cancelled.mp hid with hid | htrail
          · exact .inl hid
          · exact .inr ⟨first, List.mem_cons_self, htrail⟩
        · exact .inr ⟨f, List.mem_cons_of_mem _ hf, htrail⟩

/-- A stopped hub has no timer left in the loop. -/
theorem Ok.stop_handles (hok : Ok cfg h) : h.stop.handles = [] := by
  show (h.fanouts.foldl cancelTrailing h).handles = []
  rw [(cancelAll h.fanouts h).1, List.filter_eq_nil_iff]
  intro t ht hall
  obtain ⟨f, hf, -, htrail, -⟩ := hok.armed t ht
  exact absurd htrail (by simpa using List.all_eq_true.mp hall f hf)

theorem Ok.stop (hok : Ok cfg h) : Ok cfg h.stop := by
  obtain ⟨-, hlog, hnext, hclock, hsup, hcancelled⟩ := cancelAll h.fanouts h
  have hnone : ∀ {f}, f ∉ h.stop.fanouts := List.not_mem_nil
  refine {
    ids := List.nodup_nil
    users := List.nodup_nil
    below := fun f hf => absurd hf hnone
    streams := fun f hf => absurd hf hnone
    handles := ?_
    handlesBelow := ?_
    cancelledBelow := ?_
    armed := ?_
    trailing := fun f hf => absurd hf hnone
    suppressed := fun f hf => absurd hf hnone
    unsuppressed := ?_
    logBelow := ?_
    last := fun f hf => absurd hf hnone
    latest := fun f hf => absurd hf hnone
    spaced := ?_
    stopped := fun _ => rfl }
  · rw [hok.stop_handles]
    exact List.nodup_nil
  · rw [hok.stop_handles]
    simp [Rows.Below]
  · intro id hid
    show id < (h.fanouts.foldl cancelTrailing h).nextId
    rw [hnext]
    rcases hcancelled id hid with hid | ⟨f, hf, htrail⟩
    · exact hok.cancelledBelow id hid
    · obtain ⟨-, t, ht, rfl, -⟩ := hok.trailing f hf id htrail
      exact hok.handlesBelow t ht
  · rw [hok.stop_handles]
    simp
  · show ∀ id, (h.fanouts.foldl cancelTrailing h).nextId ≤ id →
      (h.fanouts.foldl cancelTrailing h).suppressed id = false
    rw [hnext, hsup]
    exact hok.unsuppressed
  · show ∀ d ∈ (h.fanouts.foldl cancelTrailing h).log,
      d.fanout < (h.fanouts.foldl cancelTrailing h).nextId ∧
        d.at_ ≤ (h.fanouts.foldl cancelTrailing h).clock
    rw [hlog, hnext, hclock]
    exact hok.logBelow
  · show (h.fanouts.foldl cancelTrailing h).log.Pairwise (Spaced cfg)
    rw [hlog]
    exact hok.spaced

end Hub

/-! ## Every reachable hub -/

theorem Hub.Ok.close {cfg : HubConfig} {s : Server} (hok : s.hub.Ok cfg)
    (subscription : Subscription) : (s.close subscription).hub.Ok cfg :=
  hok.unsubscribe subscription

theorem server_ok {cfg : HubConfig} {s : Server} (h : (server cfg).Reachable s) : s.hub.Ok cfg := by
  refine TSys.Reaches.invariant (P := fun s : Server => s.hub.Ok cfg) (Hub.ok_init cfg) ?_ h
  intro s e s' hok _ hstep
  have hdoes := server_step hstep
  have hslots : ∀ slots owed, Hub.Ok cfg { s.hub with slots, owed } :=
    fun _ _ => hok.frame rfl rfl rfl rfl rfl rfl rfl (Int.le_refl _)
  cases e with
  | subscribe userId =>
      obtain ⟨subscription, hub, hsub, rfl⟩ := hdoes
      exact hok.subscribe hsub
  | wait id =>
      obtain ⟨-, rfl⟩ := hdoes
      exact hok
  | tick id =>
      obtain ⟨-, rfl⟩ := hdoes
      exact hslots _ _
  | take subscription =>
      obtain ⟨ticking, item, -, -, rfl⟩ := hdoes
      cases item with
      | terminated => exact (hslots _ _).unsubscribe subscription
      | timer => exact hslots _ _
      | reason text => exact hslots _ _
  | unsubscribe subscription =>
      cases hdoes
      exact hok.unsubscribe subscription
  | notify userId reason =>
      cases hdoes
      exact hok.fanOut userId reason
  | runHandle handle =>
      obtain ⟨hmem, hdue, rfl⟩ := hdoes
      exact hok.runHandle hmem hdue
  | advance clock =>
      obtain ⟨hle, rfl⟩ := hdoes
      exact hok.frame rfl rfl rfl rfl rfl rfl rfl hle
  | stop =>
      cases hdoes
      exact hok.stop

end VpnPanel.Events
