import Mathlib.Data.List.Chain
import Mathlib.Data.List.Destutter
import Mathlib.Order.Lattice

/-!
# Timelines

A value is looked at again and again, and what is seen is kept as spans: a
value, and when it was first and last seen. In a timeline the spans come one
after another, and they name what was seen without its repetitions. A sighting
keeps a timeline if it opens a span of another value, or stays with the last
one, extended or not.
-/

namespace VpnPanel.Lib

/-! ## Repetitions -/

section Repetitions

variable {α : Type} [DecidableEq α]

theorem destutter'_concat (x : α) (l : List α) :
    ∀ a, (l ++ [x]).destutter' (· ≠ ·) a =
      if (l.destutter' (· ≠ ·) a).getLast? = some x then l.destutter' (· ≠ ·) a
      else l.destutter' (· ≠ ·) a ++ [x] := by
  induction l with
  | nil =>
      intro a
      by_cases hx : a = x <;> simp [hx]
  | cons b l ih =>
      intro a
      rw [List.cons_append]
      by_cases hb : a ≠ b
      · rw [List.destutter'_cons_pos _ hb, List.destutter'_cons_pos _ hb, ih b,
          List.getLast?_cons_of_ne_nil (List.destutter'_ne_nil l _)]
        split <;> rfl
      · rw [List.destutter'_cons_neg _ hb, List.destutter'_cons_neg _ hb, ih a]

/-- One more element is a repetition of the last one, or it is kept. -/
theorem destutter_concat (l : List α) (x : α) :
    (l ++ [x]).destutter (· ≠ ·) =
      if (l.destutter (· ≠ ·)).getLast? = some x then l.destutter (· ≠ ·)
      else l.destutter (· ≠ ·) ++ [x] := by
  cases l with
  | nil => rfl
  | cons a l => exact destutter'_concat x l a

end Repetitions

/-! ## The last of several rows -/

section Latest

variable {β τ : Type} [LinearOrder τ] {key : β → τ} {rows : List β}

/-- The better of the best row so far and the next one. -/
def later (key : β → τ) (best : Option β) (row : β) : Option β :=
  match best with
  | none => some row
  | some b => if key b < key row then some row else some b

/-- The row of the greatest key; of several, the first. -/
def latest (key : β → τ) (rows : List β) : Option β := rows.foldl (later key) none

theorem latest_concat (row : β) :
    latest key (rows ++ [row]) = later key (latest key rows) row := by
  unfold latest
  rw [List.foldl_append]
  rfl

theorem latest_mem {r : β} (h : latest key rows = some r) : r ∈ rows := by
  induction rows using List.reverseRecOn with
  | nil => cases h
  | append_singleton rows row ih =>
      rw [latest_concat] at h
      unfold later at h
      split at h
      · rw [← Option.some.inj h]
        exact List.mem_append_right _ List.mem_cons_self
      · next b hbest =>
          split at h
          · rw [← Option.some.inj h]
            exact List.mem_append_right _ List.mem_cons_self
          · exact List.mem_append_left _ (ih (hbest.trans h))

theorem latest_of_increasing (h : rows.Pairwise (key · < key ·)) :
    latest key rows = rows.getLast? := by
  induction rows using List.reverseRecOn with
  | nil => rfl
  | append_singleton rows row ih =>
      obtain ⟨hrows, -, hbelow⟩ := List.pairwise_append.mp h
      rw [latest_concat, ih hrows, List.getLast?_concat]
      cases hlast : rows.getLast? with
      | none => rfl
      | some b => exact if_pos (hbelow b (List.mem_of_getLast? hlast) row List.mem_cons_self)

end Latest

/-! ## Spans -/

/-- A value, seen at a time. -/
structure Sighting (α τ : Type) where
  value : α
  time : τ

/-- A value, with the times at which it was first and last seen. -/
structure Span (α τ : Type) where
  value : α
  first : τ
  last : τ

/-- The spans of what was seen, oldest first. -/
structure Timeline {α τ : Type} [DecidableEq α] [LinearOrder τ] (seen : List (Sighting α τ))
    (spans : List (Span α τ)) : Prop where
  within : ∀ s ∈ spans, s.first ≤ s.last
  apart : spans.Pairwise fun s t => s.last < t.first
  sighted : ∀ s ∈ spans, ∃ x ∈ seen, x.time = s.last
  values : spans.map (·.value) = (seen.map (·.value)).destutter (· ≠ ·)

namespace Timeline

variable {α τ : Type} [DecidableEq α] [LinearOrder τ] {seen : List (Sighting α τ)}
  {spans : List (Span α τ)} {s : Span α τ} {x : α} {time : τ}

theorem nil : Timeline ([] : List (Sighting α τ)) [] where
  within _ h := absurd h List.not_mem_nil
  apart := .nil
  sighted _ h := absurd h List.not_mem_nil
  values := rfl

theorem increasing (h : Timeline seen spans) : spans.Pairwise fun s t => s.last < t.last :=
  h.apart.imp_of_mem fun _ ht hst => hst.trans_le (h.within _ ht)

theorem differ (h : Timeline seen spans) : (spans.map (·.value)).IsChain (· ≠ ·) := by
  rw [h.values]
  exact List.isChain_destutter _ _

omit [DecidableEq α] [LinearOrder τ] in
/-- One more span, last seen at one more sighting. -/
theorem sighted_concat (h : ∀ s ∈ spans, ∃ y ∈ seen, y.time = s.last) (hlast : s.last = time) :
    ∀ t ∈ spans ++ [s], ∃ y ∈ seen ++ [⟨x, time⟩], y.time = t.last := by
  intro t ht
  rcases List.mem_append.mp ht with hold | hnew
  · obtain ⟨y, hy, hseen⟩ := h t hold
    exact ⟨y, List.mem_append_left _ hy, hseen⟩
  · rw [List.mem_singleton.mp hnew, hlast]
    exact ⟨_, List.mem_append_right _ List.mem_cons_self, rfl⟩

/-- A span begins at the sighting of another value than the last one. -/
theorem opened (h : Timeline seen spans) (hlater : ∀ y ∈ seen, y.time < time)
    (hother : ∀ s, spans.getLast? = some s → s.value ≠ x) :
    Timeline (seen ++ [⟨x, time⟩]) (spans ++ [⟨x, time, time⟩]) where
  within t ht := by
    rcases List.mem_append.mp ht with hold | hnew
    · exact h.within t hold
    · rw [List.mem_singleton.mp hnew]
  apart := by
    refine List.pairwise_append.mpr ⟨h.apart, List.pairwise_singleton _ _, fun s hs t ht => ?_⟩
    obtain ⟨y, hy, hlast⟩ := h.sighted s hs
    rw [List.mem_singleton.mp ht, ← hlast]
    exact hlater y hy
  sighted := sighted_concat h.sighted rfl
  values := by
    have hnew : ((seen.map (·.value)).destutter (· ≠ ·)).getLast? ≠ some x := by
      rw [← h.values, List.getLast?_map]
      intro hlast
      obtain ⟨s, hs, hx⟩ := Option.map_eq_some_iff.mp hlast
      exact hother s hs hx
    rw [List.map_append, List.map_append, h.values]
    exact (destutter_concat _ x ▸ if_neg hnew).symm

/-- The value seen last, seen again, is a repetition. -/
theorem repeated (h : Timeline seen (spans ++ [s])) :
    (seen.map (·.value) ++ [s.value]).destutter (· ≠ ·) = (spans ++ [s]).map (·.value) := by
  have hlast : ((seen.map (·.value)).destutter (· ≠ ·)).getLast? = some s.value := by
    rw [← h.values, List.map_append]
    exact List.getLast?_concat
  rw [h.values]
  exact destutter_concat _ s.value ▸ if_pos hlast

theorem kept (h : Timeline seen (spans ++ [s])) (time : τ) :
    Timeline (seen ++ [⟨s.value, time⟩]) (spans ++ [s]) where
  within := h.within
  apart := h.apart
  sighted t ht := by
    obtain ⟨y, hy, hlast⟩ := h.sighted t ht
    exact ⟨y, List.mem_append_left _ hy, hlast⟩
  values := by
    simpa only [List.map_append, List.map_cons, List.map_nil] using h.repeated.symm

theorem extended (h : Timeline seen (spans ++ [s])) (hlater : ∀ y ∈ seen, y.time < time) :
    Timeline (seen ++ [⟨s.value, time⟩]) (spans ++ [{ s with last := time }]) where
  within t ht := by
    rcases List.mem_append.mp ht with hold | hnew
    · exact h.within t (List.mem_append_left _ hold)
    · -- the span goes on from where it ended
      rw [List.mem_singleton.mp hnew]
      obtain ⟨y, hy, hlast⟩ := h.sighted s (List.mem_append_right _ List.mem_cons_self)
      have hspan := h.within s (List.mem_append_right _ List.mem_cons_self)
      exact (hspan.trans_lt (hlast ▸ hlater y hy)).le
  apart := by
    obtain ⟨hspans, -, hbefore⟩ := List.pairwise_append.mp h.apart
    refine List.pairwise_append.mpr ⟨hspans, List.pairwise_singleton _ _, fun r hr t ht => ?_⟩
    rw [List.mem_singleton.mp ht]
    exact hbefore r hr s List.mem_cons_self
  sighted := sighted_concat (fun t ht => h.sighted t (List.mem_append_left _ ht)) rfl
  values := by
    have hspans : (spans ++ [{ s with last := time }]).map Span.value =
        (spans ++ [s]).map Span.value := by
      rw [List.map_append, List.map_append]
      rfl
    rw [hspans]
    exact (h.kept time).values

end Timeline

end VpnPanel.Lib
