import Mathlib.Data.List.Dedup
import Mathlib.Data.List.Sort
import VpnPanel.Lib.Rows

/-!
# Ordered groups

`GROUP BY key ORDER BY key` lists each key of a table once, in order. A table
with one row for each key, listed in the order of the keys, lists the same
keys; two such listings are equal as soon as they have the same keys.
-/

namespace VpnPanel.Lib.Grouping

variable {α κ : Type} [LinearOrder κ] {key : α → κ} {rows : List α}

/-- The keys of the rows, each once, in order. -/
def groupKeys (key : α → κ) (rows : List α) : List κ :=
  (rows.map key).dedup.insertionSort (· ≤ ·)

theorem mem_groupKeys {k : κ} : k ∈ groupKeys key rows ↔ ∃ r ∈ rows, key r = k := by
  unfold groupKeys
  rw [List.mem_insertionSort, List.mem_dedup, List.mem_map]

/-- Distinct keys in order are strictly ordered. -/
theorem pairwise_lt {l : List κ} (hle : l.Pairwise (· ≤ ·)) (hne : l.Nodup) :
    l.Pairwise (· < ·) := (hle.and hne).imp fun h => lt_of_le_of_ne h.1 h.2

theorem groupKeys_pairwise (key : α → κ) (rows : List α) :
    (groupKeys key rows).Pairwise (· < ·) :=
  pairwise_lt (List.pairwise_insertionSort _ _)
    ((List.perm_insertionSort _ _).nodup_iff.mpr (List.nodup_dedup _))

/-- The keys of a table with distinct keys, sorted by key. -/
theorem pairwise_lt_sorted (h : Rows.Distinct key rows) :
    ((rows.insertionSort fun r r' => key r ≤ key r').map key).Pairwise (· < ·) := by
  have hsorted := List.pairwise_insertionSort (fun r r' => key r ≤ key r') rows
  have hperm := List.perm_insertionSort (fun r r' => key r ≤ key r') rows
  exact pairwise_lt (List.pairwise_map.mpr hsorted) ((hperm.map key).nodup_iff.mpr h)

/-- Two strictly ordered listings of the same keys are the same. -/
theorem eq_of_pairwise_lt {l m : List κ} (hl : l.Pairwise (· < ·)) (hm : m.Pairwise (· < ·))
    (hmem : ∀ k, k ∈ l ↔ k ∈ m) : l = m := by
  have hperm : l.Perm m :=
    (List.perm_ext_iff_of_nodup (hl.imp ne_of_lt) (hm.imp ne_of_lt)).mpr hmem
  exact hperm.eq_of_pairwise' (hl.imp le_of_lt) (hm.imp le_of_lt)

end VpnPanel.Lib.Grouping
