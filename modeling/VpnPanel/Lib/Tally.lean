import Mathlib.Algebra.BigOperators.Group.List.Basic
import Mathlib.Algebra.GroupWithZero.Nat
import VpnPanel.Lib.Rows

/-!
# Sums over keyed rows

`tally key col p rows` is the sum of the column `col` over the rows whose key
meets `p`. Tables that are kept by find-or-insert steps and trimmed by key
conserve such sums: a step adds its increment to the tallies that select its
key and to no other, and trimming narrows the selection.
-/

namespace VpnPanel.Lib

variable {α κ : Type}

/-- The sum of `col` over the rows whose key meets `p`. -/
def tally (key : α → κ) (col : α → Nat) (p : κ → Bool) (rows : List α) : Nat :=
  ((rows.filter fun r => p (key r)).map col).sum

namespace Tally

variable {key : α → κ} {col : α → Nat} {p q : κ → Bool} {rows : List α} {row : α}

@[simp] theorem tally_nil : tally key col p [] = 0 := rfl

theorem tally_cons : tally key col p (row :: rows) =
    (if p (key row) then col row else 0) + tally key col p rows := by
  unfold tally
  by_cases h : p (key row) = true
  · simp [h]
  · simp [h]

theorem tally_append : tally key col p (rows ++ [row]) =
    tally key col p rows + if p (key row) then col row else 0 := by
  induction rows with
  | nil => simp [tally_cons]
  | cons r rest ih =>
      rw [List.cons_append, tally_cons, tally_cons, ih]
      omega

/-- Only the selection of the keys present matters. -/
theorem tally_congr (h : ∀ r ∈ rows, p (key r) = q (key r)) :
    tally key col p rows = tally key col q rows := by
  unfold tally
  rw [List.filter_congr h]

theorem tally_eq_zero (h : ∀ r ∈ rows, p (key r) = false) : tally key col p rows = 0 := by
  rw [tally_congr (q := fun _ => false) h]
  simp [tally]

/-- Trimming a table by key narrows the selection. -/
theorem tally_filter (q : κ → Bool) :
    tally key col p (rows.filter fun r => q (key r)) =
      tally key col (fun k => p k && q k) rows := by
  unfold tally
  rw [List.filter_filter]

/-- Trimming away rows that are not selected changes nothing. -/
theorem tally_filter_of_imp (h : ∀ k, p k → q k) :
    tally key col p (rows.filter fun r => q (key r)) = tally key col p rows := by
  rw [tally_filter]
  refine tally_congr fun r _ => ?_
  cases hp : p (key r) with
  | false => rfl
  | true => simpa using h _ hp

section Saved

variable [DecidableEq κ] {old : α}

/-- A row written back changes a tally by the difference of the two rows. -/
theorem tally_save (h : Rows.Distinct key rows) (hold : old ∈ rows) (hkey : key old = key row) :
    tally key col p (Rows.save key row rows) + (if p (key row) then col old else 0) =
      tally key col p rows + if p (key row) then col row else 0 := by
  induction rows with
  | nil => cases hold
  | cons r rest ih =>
      have hcons : Rows.save key row (r :: rest) =
          (if key r = key row then row else r) :: Rows.save key row rest := rfl
      have hdistinct := h
      unfold Rows.Distinct at hdistinct
      rw [List.map_cons, List.nodup_cons] at hdistinct
      rw [hcons, tally_cons, tally_cons]
      rcases List.mem_cons.mp hold with rfl | hmem
      · -- the row is at the head, and no later row has its key
        have hrest : Rows.save key row rest = rest := by
          unfold Rows.save
          conv_rhs => rw [← List.map_id rest]
          refine List.map_congr_left fun x hx => ?_
          rw [if_neg]
          · rfl
          · intro heq
            exact hdistinct.1 (List.mem_map.mpr ⟨x, hx, heq.trans hkey.symm⟩)
        rw [if_pos hkey, hrest, hkey]
        split <;> omega
      · have hne : key r ≠ key row := by
          intro heq
          exact hdistinct.1 (List.mem_map.mpr ⟨old, hmem, hkey.trans heq.symm⟩)
        have := ih hdistinct.2 hmem
        rw [if_neg hne]
        omega

/-- The tally of one key is the value of its row; a missing row counts as
zero. -/
theorem tally_single (h : Rows.Distinct key rows) (k : κ) :
    tally key col (fun x => x = k) rows = ((Rows.get? key rows k).map col).getD 0 := by
  induction rows with
  | nil => rfl
  | cons r rest ih =>
      have hdistinct := h
      unfold Rows.Distinct at hdistinct
      rw [List.map_cons, List.nodup_cons] at hdistinct
      rw [tally_cons]
      unfold Rows.get?
      by_cases hk : key r = k
      · have hrest : tally key col (fun x => x = k) rest = 0 := by
          refine tally_eq_zero fun x hx => ?_
          simp only [decide_eq_false_iff_not]
          intro heq
          exact hdistinct.1 (List.mem_map.mpr ⟨x, hx, heq.trans hk.symm⟩)
        rw [hrest, List.find?_cons_of_pos (by simpa using hk)]
        simp [hk]
      · rw [List.find?_cons_of_neg (by simpa using hk), ih hdistinct.2]
        simp [hk, Rows.get?]

end Saved

end Tally

end VpnPanel.Lib
