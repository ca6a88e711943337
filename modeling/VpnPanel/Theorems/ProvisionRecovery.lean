import VpnPanel.Backend.ProvisionRecovery
import VpnPanel.Worker.Jobs

/-!
# Provision recovery and operations that are under way

The route looks at the latest operation of a node by its update time. An older
one can still be under way.
-/

namespace VpnPanel.Theorems

open VpnPanel.Lib VpnPanel.Backend VpnPanel.Worker

section Recovery

variable {createdAt : NodeId → Time} {query : RecoveryQuery} {nodes : List Node}
  {operations : List AsyncOperation} {nextId : Nat}

theorem nodeText_inj {x y : NodeId} (h : nodeText x = nodeText y) : x = y := by
  have hdigits : Nat.toDigits 10 x = Nat.toDigits 10 y := String.ofList_injective h
  rw [← Nat.ofDigitChars_ten_toDigits (n := x), hdigits, Nat.ofDigitChars_ten_toDigits]

/-- The node is due for a new operation. -/
def Due (query : RecoveryQuery) (operations : List AsyncOperation) (node : Node) : Bool :=
  provisionRetryDue query node (latestProvisionOperation operations node.id)

/-- The loop adds one operation for each node that is due. -/
theorem recoverNodes_eq (hkeys : Rows.Distinct Node.id nodes) :
    recoverNodes query nodes operations nextId =
      newOperations ((nodes.filter (Due query operations)).map fun node => provisionJob node.id)
        nextId query.observedAt := by
  induction nodes generalizing operations nextId with
  | nil => rfl
  | cons node rest ih =>
      obtain ⟨hnew, hrest⟩ := List.nodup_cons.mp hkeys
      have hstep : recoverNodes query (node :: rest) operations nextId =
          if Due query operations node then
            newOperation (provisionJob node.id) nextId (nextId + 1) query.observedAt ::
              recoverNodes query rest (operations ++
                [newOperation (provisionJob node.id) nextId (nextId + 1) query.observedAt])
                (nextId + 2)
          else recoverNodes query rest operations nextId := rfl
      rw [hstep]
      by_cases hdue : Due query operations node = true
      · rw [if_pos hdue, ih hrest, List.filter_cons_of_pos hdue]
        have hsame : rest.filter (Due query (operations ++
              [newOperation (provisionJob node.id) nextId (nextId + 1) query.observedAt])) =
            rest.filter (Due query operations) := by
          refine List.filter_congr fun other hother => ?_
          have hne : other.id ≠ node.id := fun heq =>
            hnew (List.mem_map.mpr ⟨other, hother, heq⟩)
          unfold Due
          rw [latestProvisionOperation_append]
          rintro ⟨-, -, htarget⟩
          exact hne (nodeText_inj (Option.some.inj htarget)).symm
        rw [hsame]
        rfl
      · rw [if_neg hdue, ih hrest, List.filter_cons_of_neg hdue]

theorem map_retryJob_newOperations (jobs : List Job) (id : Nat) (now : Time) :
    (newOperations jobs id now).map retryJob = jobs := by
  induction jobs generalizing id with
  | nil => rfl
  | cons job rest ih =>
      rw [newOperations, List.map_cons, ih]
      rfl

theorem provisions_iff {nodeId : NodeId} {x : AsyncOperation} :
    Provisions nodeId x ↔ retryJob x = provisionJob nodeId := by
  unfold Provisions retryJob provisionJob Command.job
  rw [Job.mk.injEq]

/-- The nodes the route looks at are nodes that are pending or failed. -/
theorem recoveryNodes_distinct (hkeys : Rows.Distinct Node.id nodes) (limit : Nat) :
    Rows.Distinct Node.id (recoveryNodes createdAt nodes limit) := by
  have hperm := List.perm_insertionSort (fun x y : Node => createdAt x.id ≤ createdAt y.id)
    (nodes.filter fun node => node.provisionStatus ∈ [.pending, .failed])
  have hsorted : Rows.Distinct Node.id
      ((nodes.filter fun node => node.provisionStatus ∈ [.pending, .failed]).insertionSort
        fun x y => createdAt x.id ≤ createdAt y.id) :=
    (hperm.map Node.id).nodup_iff.mpr (hkeys.filter _)
  exact hsorted.sublist ((List.take_sublist limit _).map Node.id)

/-- No operation for a node that has one under way, and one a node at most. -/
structure NotDoubled (operations created : List AsyncOperation) : Prop where
  idle : ∀ new ∈ created, ∀ x ∈ operations, retryJob x = retryJob new →
    x.status ∉ ACTIVE_OPERATION_STATUSES
  once : (created.map (·.targetId)).Nodup

/-- Where an operation of the node is under way, the latest one is, or it was
updated too short a time ago. -/
def Guarded (query : RecoveryQuery) (operations : List AsyncOperation) (node : Node) : Prop :=
  (∃ x ∈ operations, Provisions node.id x ∧ x.status ∈ ACTIVE_OPERATION_STATUSES) →
    ∃ latest, latestProvisionOperation operations node.id = some latest ∧
      (latest.status ∈ ACTIVE_OPERATION_STATUSES ∨
        (node.provisionStatus = .pending → query.pendingCutoff < latest.updatedAt) ∧
          (node.provisionStatus = .failed → query.failedCutoff < latest.updatedAt))

theorem not_due_iff {latest : AsyncOperation} {node : Node} :
    provisionRetryDue query node (some latest) = false ↔
      latest.status ∈ ACTIVE_OPERATION_STATUSES ∨
        (node.provisionStatus = .pending → query.pendingCutoff < latest.updatedAt) ∧
          (node.provisionStatus = .failed → query.failedCutoff < latest.updatedAt) := by
  unfold provisionRetryDue
  dsimp only
  by_cases hactive : latest.status ∈ ACTIVE_OPERATION_STATUSES
  · simp [hactive]
  · cases hstatus : node.provisionStatus with
    | pending => simp [hactive]
    | succeeded => simp [hactive]
    | failed => simp [hactive]

theorem guarded_iff {node : Node} : Guarded query operations node ↔
    (Due query operations node = true →
      ∀ x ∈ operations, Provisions node.id x → x.status ∉ ACTIVE_OPERATION_STATUSES) := by
  unfold Guarded Due
  constructor
  · rintro hguarded hdue x hx hprovisions hactive
    obtain ⟨latest, hlatest, hnot⟩ := hguarded ⟨x, hx, hprovisions, hactive⟩
    rw [hlatest, not_due_iff.mpr hnot] at hdue
    cases hdue
  · rintro hidle ⟨x, hx, hprovisions, hactive⟩
    cases hlatest : latestProvisionOperation operations node.id with
    | none => exact absurd hprovisions (latestProvisionOperation_eq_none.mp hlatest x hx)
    | some latest =>
        refine ⟨latest, rfl, not_due_iff.mp ?_⟩
        by_contra hdue
        rw [hlatest] at hidle
        exact hidle (eq_true_of_ne_false hdue) x hx hprovisions hactive

/-- **When provision recovery doubles no work.** One operation a node is added in
any case, and none beside one that is under way exactly where every node it looks
at is guarded. -/
theorem provision_recovery_iff (createdAt : NodeId → Time) (query : RecoveryQuery)
    (operations : List AsyncOperation) (nextId : Nat) (hkeys : Rows.Distinct Node.id nodes) :
    NotDoubled operations (nodeProvisionRecovery createdAt query nodes operations nextId) ↔
      ∀ node ∈ recoveryNodes createdAt nodes query.limit, Guarded query operations node := by
  have hdistinct : Rows.Distinct Node.id (recoveryNodes createdAt nodes query.limit) :=
    recoveryNodes_distinct hkeys query.limit
  unfold nodeProvisionRecovery
  rw [recoverNodes_eq hdistinct]
  let due := (recoveryNodes createdAt nodes query.limit).filter (Due query operations)
  have hjobs := map_retryJob_newOperations (due.map fun node => provisionJob node.id) nextId
    query.observedAt
  simp only [guarded_iff]
  constructor
  · rintro ⟨hidle, -⟩ node hnode hdue x hx hprovisions
    have hjob : provisionJob node.id ∈ due.map fun node => provisionJob node.id :=
      List.mem_map.mpr ⟨node, List.mem_filter.mpr ⟨hnode, hdue⟩, rfl⟩
    rw [← hjobs] at hjob
    obtain ⟨new, hnew, hnewJob⟩ := List.mem_map.mp hjob
    exact hidle new hnew x hx ((provisions_iff.mp hprovisions).trans hnewJob.symm)
  · intro hguarded
    refine ⟨fun new hnew x hx hsame => ?_, ?_⟩
    · have hjob := List.mem_map_of_mem (f := retryJob) hnew
      rw [hjobs] at hjob
      obtain ⟨node, hnode, hnodeJob⟩ := List.mem_map.mp hjob
      obtain ⟨hmem, hdue⟩ := List.mem_filter.mp hnode
      exact hguarded node hmem hdue x hx (provisions_iff.mpr (hsame.trans hnodeJob.symm))
    · have htargets : (newOperations (due.map fun node => provisionJob node.id) nextId
          query.observedAt).map (·.targetId) = due.map fun node => some (nodeText node.id) := by
        have hmap := congrArg (List.map Job.targetId) hjobs
        rw [List.map_map, List.map_map] at hmap
        exact hmap
      show ((newOperations (due.map fun node => provisionJob node.id) nextId
        query.observedAt).map (·.targetId)).Nodup
      rw [htargets]
      refine List.Nodup.map_on (fun x hx y hy hxy => ?_) ?_
      · exact (hdistinct.filter _).eq_of_key hx hy (nodeText_inj (Option.some.inj hxy))
      · exact (hdistinct.filter _).of_map

end Recovery

section Examples

def recoveryNode (id : NodeId) (provisionStatus : JobStatus) : Node where
  id
  name := s!"node-{id}"
  url := "http://node:8000"
  token := "token"
  provisionStatus

/-- A provision operation of a node. -/
def provisionRow (nodeId id : Nat) (status : OperationStatus) (updatedAt : Time) :
    AsyncOperation :=
  { newOperation (provisionJob nodeId) id (id + 1) updatedAt with status }

/-- One node has an operation under way, the other one failed long ago. -/
theorem provision_recovery_two_nodes :
    NotDoubled [provisionRow 0 10 .failed 0, provisionRow 0 12 .running 1000000,
        provisionRow 1 14 .failed 0]
      (nodeProvisionRecovery (fun _ => 0) { observedAt := 600000000 }
        [recoveryNode 0 .pending, recoveryNode 1 .failed]
        [provisionRow 0 10 .failed 0, provisionRow 0 12 .running 1000000,
          provisionRow 1 14 .failed 0] 16) := by
  refine (provision_recovery_iff (fun _ => 0) { observedAt := 600000000 } _ 16 (by decide)).mpr ?_
  simp only [guarded_iff]
  decide +kernel

/-- The first operation of a node waits in the queue. The publish of a second one
is refused. -/
def queuedThenRefused : List JobEvent := [
  ⟨0, .request (.addNode { name := "a", url := "http://a", token := "t" })⟩,
  ⟨1, .advance 0 .accepted⟩, ⟨2, .advance 0 .accepted⟩, ⟨3, .provisionNode 0⟩,
  ⟨4, .advance 1 .accepted⟩, ⟨5, .advance 1 (.refused "connection lost")⟩,
  ⟨6, .advance 1 .accepted⟩]

theorem provision_recovery_doubles : ∃ s, (jobs exampleConfig {}).Reachable s ∧
    ¬NotDoubled s.operations (nodeProvisionRecovery (fun _ => 0) { observedAt := 600000000 }
      s.db.nodes s.operations s.nextId) := by
  have hrun : ((jobs exampleConfig {}).replay queuedThenRefused).any (fun s =>
      (nodeProvisionRecovery (fun _ => 0) { observedAt := 600000000 } s.db.nodes s.operations
        s.nextId).any fun new => s.operations.any fun x =>
          retryJob x = retryJob new ∧ x.status = .queued) = true := by decide +kernel
  obtain ⟨s, hs, hdoubled⟩ := TSys.replay_any hrun
  refine ⟨s, TSys.replay_reachable hs, fun hnot => ?_⟩
  obtain ⟨new, hnew, hx⟩ := List.any_eq_true.mp hdoubled
  obtain ⟨x, hx, hsame⟩ := List.any_eq_true.mp hx
  obtain ⟨hsame, hqueued⟩ := of_decide_eq_true hsame
  exact hnot.idle new hnew x hx hsame (by rw [hqueued]; decide)

end Examples

end VpnPanel.Theorems
