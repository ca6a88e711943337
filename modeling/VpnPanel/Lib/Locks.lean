import Mathlib.Logic.Relation
import Mathlib.Order.Basic

/-!
# Wait-for graphs

Parties that hold resources and wait for more of them. A deadlock is a cycle of
parties, each waiting for a resource the next one holds. Where every party waits
only above the contended resources it holds, in some rank, no cycle closes.
-/

namespace VpnPanel.Lib

structure WaitGraph (T R : Type) where
  holds : T → R → Prop
  awaits : T → R → Prop

namespace WaitGraph

variable {T R α : Type} (g : WaitGraph T R)

/-- `t` waits for a resource that `t'` holds. -/
def Waits (t t' : T) : Prop := ∃ r, g.awaits t r ∧ g.holds t' r

/-- Some party waits, through others, for itself. -/
def Deadlocked : Prop := ∃ t, Relation.TransGen g.Waits t t

/-- A party that holds what another waits for waits only for what ranks
higher. -/
def Rising [LT α] (rank : R → α) : Prop :=
  ∀ t t' r r', g.awaits t r → g.holds t' r → g.awaits t' r' → rank r < rank r'

variable {g}

/-- Two parties that wait for each other. -/
theorem Waits.deadlocked {t t' : T} (h : g.Waits t t') (h' : g.Waits t' t) : g.Deadlocked :=
  ⟨t, .tail (.single h) h'⟩

/-- Along a chain of waiting parties the ranks rise. -/
theorem Rising.chain [Preorder α] {rank : R → α} (h : g.Rising rank) {t t' : T}
    (hchain : Relation.TransGen g.Waits t t') :
    ∃ r, g.awaits t r ∧ ∀ r', g.awaits t' r' → rank r < rank r' := by
  induction hchain with
  | single hwaits =>
      obtain ⟨r, hr, hheld⟩ := hwaits
      exact ⟨r, hr, fun r' => h _ _ r r' hr hheld⟩
  | tail _ hwaits ih =>
      obtain ⟨r, hr, hbelow⟩ := ih
      obtain ⟨mid, hmid, hheld⟩ := hwaits
      refine ⟨r, hr, fun r' hr' => ?_⟩
      calc rank r < rank mid := hbelow mid hmid
        _ < rank r' := h _ _ mid r' hmid hheld hr'

/-- **No deadlock.** A rising graph has no cycle. -/
theorem Rising.not_deadlocked [Preorder α] {rank : R → α} (h : g.Rising rank) :
    ¬g.Deadlocked := by
  rintro ⟨t, hcycle⟩
  obtain ⟨r, hr, habove⟩ := h.chain hcycle
  exact lt_irrefl _ (habove r hr)

end WaitGraph

end VpnPanel.Lib
