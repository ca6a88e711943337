import Mathlib.Data.List.Nodup
import Mathlib.Data.List.Perm.Subperm

/-!
# Free candidates

The search for the first of infinitely many candidates that is not in use. Where
they are pairwise distinct it takes at most one round more than there are names
in use.
-/

namespace VpnPanel.Lib

variable {α : Type} [DecidableEq α]

/-- `while candidate in used: counter += 1`, in at most `fuel` rounds. -/
def firstFree (candidate : Nat → α) (used : List α) : Nat → Nat → Option α
  | 0, _ => none
  | fuel + 1, counter =>
      if candidate counter ∈ used then firstFree candidate used fuel (counter + 1)
      else some (candidate counter)

variable {candidate : Nat → α} {used : List α} {fuel counter : Nat} {name : α}

theorem firstFree_some (h : firstFree candidate used fuel counter = some name) :
    name ∉ used ∧ ∃ n, name = candidate n := by
  induction fuel generalizing counter with
  | zero => cases h
  | succ fuel ih =>
      rw [firstFree] at h
      split at h
      · exact ih h
      · next hfree =>
          cases h
          exact ⟨hfree, counter, rfl⟩

theorem firstFree_none (h : firstFree candidate used fuel counter = none) :
    ∀ i < fuel, candidate (counter + i) ∈ used := by
  induction fuel generalizing counter with
  | zero => exact fun i hi => absurd hi (Nat.not_lt_zero i)
  | succ fuel ih =>
      rw [firstFree] at h
      split at h
      · next hused =>
          intro i hi
          cases i with
          | zero => exact hused
          | succ i =>
              have hlater := ih h i (Nat.lt_of_succ_lt_succ hi)
              rwa [Nat.add_right_comm, Nat.add_assoc] at hlater
      · cases h

/-- More rounds find the same candidate. -/
theorem firstFree_mono (h : firstFree candidate used fuel counter = some name) {more : Nat}
    (hmore : fuel ≤ more) : firstFree candidate used more counter = some name := by
  induction fuel generalizing counter more with
  | zero => cases h
  | succ fuel ih =>
      cases more with
      | zero => exact absurd hmore (Nat.not_succ_le_zero fuel)
      | succ more =>
          rw [firstFree] at h ⊢
          split at h
          · next hused =>
              rw [if_pos hused]
              exact ih h (Nat.le_of_succ_le_succ hmore)
          · next hfree =>
              rw [if_neg hfree]
              exact h

/-- **The search ends.** Of more distinct candidates than names one is free. -/
theorem isSome_firstFree (hinj : Function.Injective candidate) (hfuel : used.length < fuel) :
    (firstFree candidate used fuel counter).isSome = true := by
  cases hsearch : firstFree candidate used fuel counter with
  | some name => rfl
  | none =>
      have hall := firstFree_none hsearch
      have hdistinct : ((List.range fuel).map fun i => candidate (counter + i)).Nodup :=
        (List.nodup_range).map fun i j hij => Nat.add_left_cancel (hinj hij)
      have hsub : ((List.range fuel).map fun i => candidate (counter + i)) ⊆ used := by
        intro name hname
        obtain ⟨i, hi, rfl⟩ := List.mem_map.mp hname
        exact hall i (List.mem_range.mp hi)
      have hlength := (List.subperm_of_subset hdistinct hsub).length_le
      rw [List.length_map, List.length_range] at hlength
      exact absurd hlength (Nat.not_le.mpr hfuel)

end VpnPanel.Lib
