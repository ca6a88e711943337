import Mathlib.Data.List.Basic
import Mathlib.Tactic.Common

/-!
# Metering a counter from its readings

A meter sees readings of a counter, one after another, and adds what each is
above the last one. A smaller reading is taken for a counter that restarted
from zero. What that adds up to is compared with two truths: the growth of a
counter that never restarts but whose readings come in any order, and the
traffic of a counter that restarts between the installations it is read in.
-/

namespace VpnPanel.Lib.Counter

/-- What a reading adds; the first one only sets the mark. -/
def delta (previous : Option ℕ) (current : ℕ) : ℕ :=
  match previous with
  | none => 0
  | some previous => if current < previous then current else current - previous

/-- The metered total of readings that follow `previous`. -/
def metered (previous : Option ℕ) : List ℕ → ℕ
  | [] => 0
  | r :: rest => delta previous r + metered (some r) rest

/-- The mark after readings that follow `previous`. -/
def mark (previous : Option ℕ) (readings : List ℕ) : Option ℕ := readings.getLast?.or previous

@[simp] theorem mark_nil (previous : Option ℕ) : mark previous [] = previous := rfl

@[simp] theorem mark_cons (previous : Option ℕ) (r : ℕ) (rest : List ℕ) :
    mark previous (r :: rest) = mark (some r) rest := by
  unfold mark
  cases rest with
  | nil => rfl
  | cons x xs =>
      rw [List.getLast?_cons_cons, List.getLast?_cons]
      rfl

theorem metered_append (l m : List ℕ) :
    ∀ previous, metered previous (l ++ m) = metered previous l + metered (mark previous l) m := by
  induction l with
  | nil =>
      intro previous
      simp [metered]
  | cons r rest ih =>
      intro previous
      rw [List.cons_append, metered, metered, ih, mark_cons, Nat.add_assoc]

/-! ## Readings of a growing counter, in any order -/

/-- The highest of the readings. -/
def highest (readings : List ℕ) : ℕ := readings.foldr max 0

/-- A reading below the one before it is zero, and so are all later ones. -/
def lateAreZero : List ℕ → Bool
  | a :: b :: rest => if b < a then (b :: rest).all (· = 0) else lateAreZero (b :: rest)
  | _ => true

theorem highest_eq_zero {readings : List ℕ} :
    highest readings = 0 ↔ readings.all (· = 0) = true := by
  induction readings with
  | nil => simp [highest]
  | cons r rest ih =>
      have hmax : highest (r :: rest) = max r (highest rest) := rfl
      rw [hmax, List.all_cons, Bool.and_eq_true, ← ih, decide_eq_true_eq]
      omega

/-- From a mark the meter covers everything up to the highest reading. -/
theorem highest_le_metered (rest : List ℕ) :
    ∀ r, highest (r :: rest) ≤ r + metered (some r) rest := by
  induction rest with
  | nil =>
      intro r
      simp [highest, metered]
  | cons s rest ih =>
      intro r
      have hmax : highest (r :: s :: rest) = max r (highest (s :: rest)) := rfl
      have htail := ih s
      rw [hmax, metered, delta]
      split <;> omega

theorem metered_of_zero {rest : List ℕ} :
    rest.all (· = 0) = true → metered (some 0) rest = 0 := by
  induction rest with
  | nil =>
      intro _
      rfl
  | cons r rest ih =>
      intro h
      rw [List.all_cons, Bool.and_eq_true, decide_eq_true_eq] at h
      obtain ⟨rfl, h⟩ := h
      rw [metered, ih h]
      rfl

/-- **Late readings.** The meter stays within the growth it was shown exactly
when no reading came late, zeros at the end apart. -/
theorem metered_le_iff (rest : List ℕ) :
    ∀ r, metered (some r) rest ≤ highest (r :: rest) - r ↔ lateAreZero (r :: rest) = true := by
  induction rest with
  | nil =>
      intro r
      simp [metered, lateAreZero]
  | cons s rest ih =>
      intro r
      have hmax : highest (r :: s :: rest) = max r (highest (s :: rest)) := rfl
      have hcover := highest_le_metered rest s
      rw [hmax, metered, delta, lateAreZero]
      by_cases hlate : s < r
      · -- taken for a restart: the late reading is counted a second time
        rw [if_pos hlate, if_pos hlate, ← highest_eq_zero]
        constructor
        · intro hle
          omega
        · intro hzero
          have hall := highest_eq_zero.mp hzero
          rw [List.all_cons, Bool.and_eq_true, decide_eq_true_eq] at hall
          obtain ⟨rfl, hall⟩ := hall
          rw [metered_of_zero hall]
          omega
      · have hs : s ≤ highest (s :: rest) := by
          show s ≤ max s (highest rest)
          omega
        rw [if_neg hlate, if_neg hlate, ← ih s]
        omega

/-! ## Readings in order, over several installations -/

/-- The traffic of the installations a counter is read in: each restarts from
zero, and only the very first reading is not counted from zero. -/
def transferred (previous : Option ℕ) : List (List ℕ) → ℕ
  | [] => 0
  | [] :: rest => transferred previous rest
  | (r :: seg) :: rest =>
      (seg.getLast?.getD r - if previous.isNone then r else 0) +
        transferred (some (seg.getLast?.getD r)) rest

/-- The first reading of each installation is below the mark the one before it
left, or that mark is zero. -/
def restartsSeen (previous : Option ℕ) : List (List ℕ) → Bool
  | [] => true
  | [] :: rest => restartsSeen previous rest
  | (r :: seg) :: rest =>
      (previous.all fun mark => r < mark || mark = 0) &&
        restartsSeen (some (seg.getLast?.getD r)) rest

/-- Within an installation the meter follows the counter. -/
theorem metered_sorted (seg : List ℕ) :
    ∀ r, (r :: seg).Pairwise (· ≤ ·) → r ≤ seg.getLast?.getD r ∧
      metered (some r) seg = seg.getLast?.getD r - r := by
  induction seg with
  | nil =>
      intro r _
      simp [metered]
  | cons s seg ih =>
      intro r hsorted
      obtain ⟨hr, htail⟩ := List.pairwise_cons.mp hsorted
      have hrs : r ≤ s := hr s List.mem_cons_self
      obtain ⟨hle, heq⟩ := ih s htail
      have hlast : (s :: seg).getLast?.getD r = seg.getLast?.getD s := by
        rw [List.getLast?_cons, Option.getD_some]
      rw [hlast, metered, heq, delta, if_neg (Nat.not_lt.mpr hrs)]
      omega

/-- The meter never counts more than the traffic, and counts all of it exactly
when every restart shows. -/
theorem metered_eq_iff (segs : List (List ℕ)) :
    ∀ previous, (∀ seg ∈ segs, seg.Pairwise (· ≤ ·)) →
      metered previous segs.flatten ≤ transferred previous segs ∧
      (metered previous segs.flatten = transferred previous segs ↔
        restartsSeen previous segs = true) := by
  induction segs with
  | nil =>
      intro previous _
      simp [metered, transferred, restartsSeen]
  | cons seg rest ih =>
      intro previous hsorted
      have hrest : ∀ seg ∈ rest, seg.Pairwise (· ≤ ·) :=
        fun s hs => hsorted s (List.mem_cons_of_mem _ hs)
      cases seg with
      | nil => exact ih previous hrest
      | cons r seg =>
          obtain ⟨hle, heq⟩ := metered_sorted seg r (hsorted _ List.mem_cons_self)
          obtain ⟨hbound, hexact⟩ := ih (some (seg.getLast?.getD r)) hrest
          have hmark : mark (some r) seg = some (seg.getLast?.getD r) := by
            unfold mark
            cases seg.getLast? <;> rfl
          have hsplit : metered previous (((r :: seg) :: rest).flatten) =
              delta previous r + (seg.getLast?.getD r - r) +
                metered (some (seg.getLast?.getD r)) rest.flatten := by
            rw [List.flatten_cons, metered_append, metered, heq, mark_cons, hmark]
          rw [hsplit, transferred, restartsSeen, Bool.and_eq_true, ← hexact]
          cases previous with
          | none =>
              simp only [delta, Option.isNone_none, if_true, Option.all_none, true_and]
              omega
          | some m =>
              simp only [delta, Option.isNone_some, Option.all_some, Bool.or_eq_true,
                decide_eq_true_eq, Bool.false_eq_true, if_false]
              split <;> omega

end VpnPanel.Lib.Counter
