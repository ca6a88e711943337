import VpnPanel.Worker.Handlers

/-!
# Retries

A job that fails is to be executed three times and its command then put into
the poison queue. What the worker does is another matter: `handle` turns the
failure into a result, the queue's wrapper drops the result, and the message is
acknowledged.
-/

namespace VpnPanel.Theorems

open VpnPanel.Lib VpnPanel.Backend VpnPanel.Worker

def JobOutcome.Fails : JobOutcome → Prop
  | .raised _ => True
  | .returned _ => False

/-- The retry rule for one message: a job that fails on each of its three
attempts leaves one copy of its command in the poison queue; a job that first
succeeds on attempt `k + 1` is not attempted again and leaves none. -/
structure Retried (job : Nat → JobOutcome) (command : WorkerCommand) (poison : List Message)
    (runs : Nat) : Prop where
  exhausted : (∀ k < 3, JobOutcome.Fails (job k)) → runs = 3 ∧ poison.map (·.command) = [command]
  succeeded : ∀ k < 3, (∀ j < k, JobOutcome.Fails (job j)) → ¬JobOutcome.Fails (job k) →
    runs = k + 1 ∧ poison = []

/-- A single execution and an empty poison queue meet the rule only for a job
that succeeds at once. -/
theorem retried_once_iff (job : Nat → JobOutcome) (command : WorkerCommand) :
    Retried job command [] 1 ↔ ¬JobOutcome.Fails (job 0) := by
  constructor
  · intro h hfails
    -- the first attempt that succeeds, if any, is a later one
    by_cases hone : JobOutcome.Fails (job 1)
    · by_cases htwo : JobOutcome.Fails (job 2)
      · have hall : ∀ k < 3, JobOutcome.Fails (job k) := by
          intro k hk
          match k, hk with
          | 0, _ => exact hfails
          | 1, _ => exact hone
          | 2, _ => exact htwo
        exact absurd (h.exhausted hall).1 (by decide)
      · have hbefore : ∀ j < 2, JobOutcome.Fails (job j) := by
          intro j hj
          match j, hj with
          | 0, _ => exact hfails
          | 1, _ => exact hone
        exact absurd (h.succeeded 2 (by decide) hbefore htwo).1 (by decide)
    · have hbefore : ∀ j < 1, JobOutcome.Fails (job j) := by
        intro j hj
        rw [Nat.lt_one_iff.mp hj]
        exact hfails
      exact absurd (h.succeeded 1 (by decide) hbefore hone).1 (by decide)
  · intro hok
    refine ⟨fun hall => absurd (hall 0 (by decide)) hok, fun k _ hbefore _ => ?_⟩
    cases k with
    | zero => exact ⟨rfl, rfl⟩
    | succ k => exact absurd (hbefore 0 (Nat.succ_pos k)) hok

/-- **Retries.** With a backend whose status routes accept the operation of a
tracked command, the retry rule holds of a message exactly when its job
succeeds on the first attempt. -/
theorem retried_iff (job : Nat → JobOutcome) (command : WorkerCommand) (clock : Nat → Time)
    (operations : List AsyncOperation) (h : Ready ⟨operations, 0⟩ command) :
    Retried job command (consume job {} clock ⟨operations, 0⟩ { command }).1
        (consume job {} clock ⟨operations, 0⟩ { command }).2.runs ↔
      ¬JobOutcome.Fails (job 0) := by
  obtain ⟨w, hconsume, hruns⟩ := consume_once job h {} clock
  rw [hconsume]
  dsimp only
  rw [hruns]
  exact retried_once_iff job command

/-- The command of a tracked sync and its row. -/
def syncOperation : AsyncOperation := newOperation ⟨.syncAll, some .all, none⟩ 0 1 0
def syncCommand : WorkerCommand := operationCommand syncOperation 0

theorem ready_syncCommand : Ready ⟨[syncOperation], 0⟩ syncCommand :=
  fun _ => ⟨syncOperation, rfl, List.mem_cons_self⟩

theorem retried_syncCommand :
    Retried (fun _ => .returned none) syncCommand
      (consume (fun _ => .returned none) {} (fun _ => 0) ⟨[syncOperation], 0⟩ ⟨syncCommand, 0⟩).1
      (consume (fun _ => .returned none) {} (fun _ => 0)
        ⟨[syncOperation], 0⟩ ⟨syncCommand, 0⟩).2.runs :=
  (retried_iff (fun _ => .returned none) syncCommand (fun _ => 0) [syncOperation]
    ready_syncCommand).mpr fun h => h

/-- A sync that fails every time is attempted once and reaches no poison
queue. -/
theorem failing_job_attempted_once :
    ∃ w, consume (fun _ => .raised "node unreachable") {} (fun _ => 0)
        ⟨[syncOperation], 0⟩ ⟨syncCommand, 0⟩ = ([], w) ∧ w.runs = 1 ∧
      ¬Retried (fun _ => .raised "node unreachable") syncCommand [] 1 := by
  obtain ⟨w, hconsume, hruns⟩ :=
    consume_once (fun _ => .raised "node unreachable") ready_syncCommand {} (fun _ => 0)
  refine ⟨w, hconsume, hruns, fun hretried => ?_⟩
  exact (retried_once_iff _ syncCommand).mp hretried trivial

end VpnPanel.Theorems
