import Mathlib.Data.List.Basic

/-!
# Sessions

A request as the statements of one database session. The session works on its
own view of the store; a commit publishes that view and gives every row lock
back. A failure after any number of statements drops the view, so what survives
it is `committed`.

`Atomic` and `HoldsLocks` say that the program is one transaction. A program
whose only commit is its last statement meets both; at the first commit of any
other program the locks are gone and a part of the writes is durable.
-/

namespace VpnPanel.Lib

inductive Statement (S R : Type)
  | lock (rows : S → List R)
  | write (f : S → S)
  | commit

structure Session (S R : Type) where
  committed : S
  working : S
  locked : List R := []

namespace Session

variable {S R V : Type}

/-- A session that has just opened. -/
def start (store : S) : Session S R := { committed := store, working := store }

def exec (s : Session S R) : Statement S R → Session S R
  | .lock rows => { s with locked := s.locked ++ rows s.working }
  | .write f => { s with working := f s.working }
  | .commit => { committed := s.working, working := s.working }

def run (program : List (Statement S R)) (s : Session S R) : Session S R := program.foldl exec s

/-- What the writes of a program make of a store. -/
def effect (program : List (Statement S R)) (store : S) : S :=
  program.foldl (fun store statement =>
    match statement with
    | .write f => f store
    | _ => store) store

/-- At every point of failure the durable store shows, through `view`, either
nothing of the program or all of it. -/
def Atomic (view : S → V) (program : List (Statement S R)) (s : Session S R) : Prop :=
  ∀ n, view (run (program.take n) s).committed = view s.committed ∨
    view (run (program.take n) s).committed = view (run program s).committed

/-- The rows locked by the first `k` statements are locked until the last
statement. -/
def HoldsLocks (k : Nat) (program : List (Statement S R)) (s : Session S R) : Prop :=
  ∀ n, k ≤ n → n < program.length →
    ∀ row ∈ (run (program.take k) s).locked, row ∈ (run (program.take n) s).locked

/-- A statement that is no commit. -/
def Quiet : Statement S R → Prop
  | .commit => False
  | _ => True

theorem run_append (p q : List (Statement S R)) (s : Session S R) :
    run (p ++ q) s = run q (run p s) := List.foldl_append

theorem effect_append (p q : List (Statement S R)) (store : S) :
    effect (p ++ q) store = effect q (effect p store) := List.foldl_append

/-- The view of a session is the effect of its statements, commits or not. -/
theorem run_working (p : List (Statement S R)) :
    ∀ s : Session S R, (run p s).working = effect p s.working := by
  induction p with
  | nil =>
      intro s
      rfl
  | cons statement rest ih =>
      intro s
      show (run rest (s.exec statement)).working = effect rest _
      rw [ih]
      cases statement <;> rfl

/-- Without a commit nothing becomes durable and no lock is given back. -/
theorem run_quiet (p : List (Statement S R)) : (∀ x ∈ p, Quiet x) → ∀ s : Session S R,
    (run p s).committed = s.committed ∧ ∀ row ∈ s.locked, row ∈ (run p s).locked := by
  induction p with
  | nil =>
      intro _ s
      exact ⟨rfl, fun _ h => h⟩
  | cons statement rest ih =>
      intro hquiet s
      have hrest := ih (fun x hx => hquiet x (List.mem_cons_of_mem _ hx)) (s.exec statement)
      have hhead := hquiet statement List.mem_cons_self
      cases statement with
      | commit => exact hhead.elim
      | write f => exact hrest
      | lock rows =>
          exact ⟨hrest.1, fun row h => hrest.2 row (List.mem_append_left _ h)⟩

/-- Whatever a program committed before, its closing commit publishes the whole
view. -/
theorem run_commit (p : List (Statement S R)) (s : Session S R) :
    (run (p ++ [.commit]) s).committed = effect p s.working := by
  rw [run_append, ← run_working]
  rfl

/-- What every write keeps holds of the durable store at every point of
failure. -/
theorem run_keeps {P : S → Prop} (p : List (Statement S R)) :
    (∀ f, .write f ∈ p → ∀ store, P store → P (f store)) → ∀ s : Session S R,
      P s.committed → P s.working → P (run p s).committed ∧ P (run p s).working := by
  induction p with
  | nil =>
      intro _ s hc hw
      exact ⟨hc, hw⟩
  | cons statement rest ih =>
      intro hkeep s hc hw
      have hrest := ih (fun f hf => hkeep f (List.mem_cons_of_mem _ hf)) (s.exec statement)
      cases statement with
      | lock rows => exact hrest hc hw
      | write f => exact hrest hc (hkeep f List.mem_cons_self s.working hw)
      | commit => exact hrest hw hw

section Single

variable {p : List (Statement S R)} {s : Session S R}

/-- **One commit, at the end.** Such a program is atomic in every view. -/
theorem atomic_of_quiet (hquiet : ∀ x ∈ p, Quiet x) (view : S → V) :
    Atomic view (p ++ [.commit]) s := by
  intro n
  by_cases hn : n ≤ p.length
  · -- the closing commit has not run
    left
    rw [List.take_append_of_le_length hn]
    have hprefix : ∀ x ∈ p.take n, Quiet x := fun x hx => hquiet x (List.mem_of_mem_take hx)
    rw [(run_quiet _ hprefix s).1]
  · right
    rw [List.take_of_length_le]
    simp only [List.length_append, List.length_singleton]
    omega

theorem holdsLocks_of_quiet (hquiet : ∀ x ∈ p, Quiet x) (k : Nat) :
    HoldsLocks k (p ++ [.commit]) s := by
  intro n hk hn row hrow
  simp only [List.length_append, List.length_singleton] at hn
  rw [List.take_append_of_le_length (by omega)] at hrow ⊢
  -- the first `n` statements are the first `k` and some more
  obtain ⟨m, rfl⟩ := Nat.exists_eq_add_of_le hk
  rw [List.take_add, run_append]
  have hmore : ∀ x ∈ (p.drop k).take m, Quiet x :=
    fun x hx => hquiet x (List.mem_of_mem_drop (List.mem_of_mem_take hx))
  exact (run_quiet _ hmore _).2 row hrow

/-- The session right after the first commit of a program. -/
theorem run_take_commit (rest : List (Statement S R)) :
    run ((p ++ .commit :: rest).take (p.length + 1)) s =
      { committed := effect p s.working, working := effect p s.working } := by
  have htake : (p ++ .commit :: rest).take (p.length + 1) = p ++ [.commit] := by
    rw [List.take_append, List.take_of_length_le (by omega)]
    simp
  rw [htake, run_append, ← run_working]
  rfl

/-- A commit before the last statement that publishes neither nothing nor
everything. -/
theorem not_atomic_of_commit {rest : List (Statement S R)} {view : S → V}
    (hsome : view (effect p s.working) ≠ view s.committed)
    (hall : view (effect p s.working) ≠ view (run (p ++ .commit :: rest) s).committed) :
    ¬Atomic view (p ++ .commit :: rest) s := by
  intro hatomic
  have hpoint := hatomic (p.length + 1)
  rw [run_take_commit] at hpoint
  rcases hpoint with h | h
  · exact hsome h
  · exact hall h

/-- A commit before the last statement gives the locks back. -/
theorem not_holdsLocks_of_commit {rest : List (Statement S R)} {k : Nat} (hk : k ≤ p.length)
    (hrest : rest ≠ []) {row : R} (hrow : row ∈ (run (p.take k) s).locked) :
    ¬HoldsLocks k (p ++ .commit :: rest) s := by
  intro hholds
  have hlength : 0 < rest.length := List.length_pos_iff.mpr hrest
  have hpoint := hholds (p.length + 1) (by omega)
    (by simp only [List.length_append, List.length_cons]; omega) row
  rw [run_take_commit, List.take_append_of_le_length hk] at hpoint
  exact absurd (hpoint hrow) List.not_mem_nil

end Single

end Session

end VpnPanel.Lib
