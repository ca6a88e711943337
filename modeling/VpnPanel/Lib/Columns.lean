import VpnPanel.Lib.Rows
import Mathlib.Data.List.Dedup
import Mathlib.Data.List.Pairwise

/-!
# Unique nullable columns

A `UNIQUE` constraint of SQL on a nullable column: any number of rows may hold
NULL, no two rows hold one value. `shared` is the query that looks for values
that break it.
-/

namespace VpnPanel.Lib.Columns

variable {α β κ : Type} {col : α → Option β} {key : α → κ} {rows : List α} {row : α}

/-- No two rows hold one value of the column. -/
def Unique (col : α → Option β) (rows : List α) : Prop :=
  rows.Pairwise fun x y => col x ≠ none → col x ≠ col y

theorem Unique.sublist {some : List α} (h : Unique col rows) (hs : some.Sublist rows) :
    Unique col some := List.Pairwise.sublist hs h

/-- Only the values of the column count. -/
theorem unique_values : Unique id (rows.map col) ↔ Unique col rows := List.pairwise_map

/-- A row may be added whose value no row holds. -/
theorem unique_concat : Unique col (rows ++ [row]) ↔
    Unique col rows ∧ ∀ r ∈ rows, col r ≠ none → col r ≠ col row := by
  unfold Unique
  rw [List.pairwise_append]
  constructor
  · rintro ⟨hrows, -, hnew⟩
    exact ⟨hrows, fun r hr => hnew r hr row (List.mem_singleton_self row)⟩
  · rintro ⟨hrows, hnew⟩
    refine ⟨hrows, List.pairwise_singleton _ _, fun r hr s hs => ?_⟩
    rw [List.mem_singleton.mp hs]
    exact hnew r hr

/-- The rows that hold a value, read off as values. -/
theorem unique_iff_nodup : Unique col rows ↔ (rows.filterMap col).Nodup := by
  unfold Unique List.Nodup
  rw [List.pairwise_filterMap]
  constructor
  · intro h
    refine h.imp fun hxy v hv w hw hvw => ?_
    exact hxy (hv ▸ Option.some_ne_none v) (hv.trans (hvw ▸ hw.symm))
  · intro h
    refine h.imp fun {x y} hxy hx heq => ?_
    obtain ⟨v, hv⟩ := Option.ne_none_iff_exists'.mp hx
    exact hxy v hv v (heq ▸ hv) rfl

/-- A value that breaks the constraint is held by two rows of different keys. -/
theorem not_unique_iff (hkeys : Rows.Distinct key rows) : ¬Unique col rows ↔
    ∃ x ∈ rows, ∃ y ∈ rows, key x ≠ key y ∧ col x = col y ∧ col x ≠ none := by
  constructor
  · intro h
    by_contra hnone
    have hdistinct : rows.Pairwise fun x y => key x ≠ key y := List.pairwise_map.mp hkeys
    refine h (hdistinct.imp_of_mem fun hx hy hxy hvalue heq => ?_)
    exact hnone ⟨_, hx, _, hy, hxy, heq, hvalue⟩
  · rintro ⟨x, hx, y, hy, hxy, heq, hvalue⟩ hunique
    have hsymm : Std.Symm fun x y => col x ≠ none → col x ≠ col y :=
      ⟨fun a b hab hb hba => hab (fun hnone => hb (hba.trans hnone)) hba.symm⟩
    exact List.Pairwise.forall hunique hx hy (fun h => hxy (congrArg key h)) hvalue heq

variable [DecidableEq β]

/-- `SELECT col, COUNT(*) … WHERE col IS NOT NULL GROUP BY col HAVING COUNT(*) > 1`. -/
def shared (col : α → Option β) (rows : List α) : List (β × Nat) :=
  let values := rows.filterMap col
  (values.dedup.map fun v => (v, values.count v)).filter fun group => group.2 > 1

theorem shared_eq_nil : shared col rows = [] ↔ Unique col rows := by
  rw [unique_iff_nodup, List.nodup_iff_count_le_one]
  unfold shared
  rw [List.filter_eq_nil_iff]
  constructor
  · intro h v
    by_cases hv : v ∈ rows.filterMap col
    · have := h (v, _) (List.mem_map.mpr ⟨v, List.mem_dedup.mpr hv, rfl⟩)
      simpa using this
    · rw [List.count_eq_zero_of_not_mem hv]
      exact Nat.zero_le 1
  · intro h group hgroup
    obtain ⟨v, -, rfl⟩ := List.mem_map.mp hgroup
    have := h v
    simpa using this

end VpnPanel.Lib.Columns
