import VpnPanel.Backend.Operations

/-!
# Provision recovery

`node_provision_recovery` of `internal_worker_parts/nodes.py`: which nodes it
takes, which of their operations it looks at, and the operations it adds. The
order of the rows stands for the order in which the database answers with equal
times, and `createdAt` is the creation column of the nodes.
-/

namespace VpnPanel.Backend

open VpnPanel.Lib

def ACTIVE_OPERATION_STATUSES : List OperationStatus := [.queued, .pending, .running]

/-- The operation provisions the node. -/
def Provisions (nodeId : NodeId) (operation : AsyncOperation) : Prop :=
  operation.kind = .provisionNode ∧ operation.targetType = some .node ∧
    operation.targetId = some (nodeText nodeId)

instance (nodeId : NodeId) : DecidablePred (Provisions nodeId) := fun operation => by
  unfold Provisions
  infer_instance

/-- `_latest_provision_operation` -/
def latestProvisionOperation (operations : List AsyncOperation) (nodeId : NodeId) :
    Option AsyncOperation :=
  ((operations.filter fun operation => Provisions nodeId operation).insertionSort
    fun x y => y.updatedAt ≤ x.updatedAt).head?

/-- The query parameters, and the clock. -/
structure RecoveryQuery where
  observedAt : Time
  pendingAfterSeconds : Nat := 60
  failedAfterSeconds : Nat := 300
  limit : Nat := 50

namespace RecoveryQuery

def pendingCutoff (query : RecoveryQuery) : Time :=
  query.observedAt - 1000000 * query.pendingAfterSeconds

def failedCutoff (query : RecoveryQuery) : Time :=
  query.observedAt - 1000000 * query.failedAfterSeconds

end RecoveryQuery

/-- `_provision_retry_due` -/
def provisionRetryDue (query : RecoveryQuery) (node : Node)
    (latestOperation : Option AsyncOperation) : Bool :=
  match latestOperation with
  | none => true
  | some operation =>
      if operation.status ∈ ACTIVE_OPERATION_STATUSES then false
      else match node.provisionStatus with
      | .pending => operation.updatedAt ≤ query.pendingCutoff
      | .failed => operation.updatedAt ≤ query.failedCutoff
      | .succeeded => false

/-- The nodes of the first query. -/
def recoveryNodes (createdAt : NodeId → Time) (nodes : List Node) (limit : Nat) : List Node :=
  ((nodes.filter fun node => node.provisionStatus ∈ [.pending, .failed]).insertionSort
    fun x y => createdAt x.id ≤ createdAt y.id).take limit

/-- The loop over the nodes; each query sees the rows added before it. -/
def recoverNodes (query : RecoveryQuery) : List Node → List AsyncOperation → Nat →
    List AsyncOperation
  | [], _, _ => []
  | node :: rest, operations, nextId =>
      if provisionRetryDue query node (latestProvisionOperation operations node.id) then
        let operation := newOperation (provisionJob node.id) nextId (nextId + 1) query.observedAt
        operation :: recoverNodes query rest (operations ++ [operation]) (nextId + 2)
      else recoverNodes query rest operations nextId

/-- The operations that `node_provision_recovery` adds. -/
def nodeProvisionRecovery (createdAt : NodeId → Time) (query : RecoveryQuery) (nodes : List Node)
    (operations : List AsyncOperation) (nextId : Nat) : List AsyncOperation :=
  recoverNodes query (recoveryNodes createdAt nodes query.limit) operations nextId

/-! ## The latest operation -/

section

variable {operations : List AsyncOperation} {nodeId : NodeId} {operation : AsyncOperation}

theorem latestProvisionOperation_eq_none :
    latestProvisionOperation operations nodeId = none ↔
      ∀ x ∈ operations, ¬Provisions nodeId x := by
  have hnil : ∀ xs : List AsyncOperation,
      xs.insertionSort (fun x y => y.updatedAt ≤ x.updatedAt) = [] ↔ xs = [] := fun xs => by
    rw [← List.length_eq_zero_iff, List.length_insertionSort, List.length_eq_zero_iff]
  unfold latestProvisionOperation
  rw [List.head?_eq_none_iff, hnil, List.filter_eq_nil_iff]
  simp only [decide_eq_true_eq]

theorem latestProvisionOperation_eq_some
    (h : latestProvisionOperation operations nodeId = some operation) :
    operation ∈ operations ∧ Provisions nodeId operation ∧
      ∀ x ∈ operations, Provisions nodeId x → x.updatedAt ≤ operation.updatedAt := by
  unfold latestProvisionOperation at h
  have hperm := List.perm_insertionSort (fun x y : AsyncOperation => y.updatedAt ≤ x.updatedAt)
    (operations.filter fun operation => Provisions nodeId operation)
  have hsorted := List.pairwise_insertionSort
    (fun x y : AsyncOperation => y.updatedAt ≤ x.updatedAt)
    (operations.filter fun operation => Provisions nodeId operation)
  cases hlist : (operations.filter fun operation => Provisions nodeId operation).insertionSort
      (fun x y => y.updatedAt ≤ x.updatedAt) with
  | nil => rw [hlist] at h; cases h
  | cons first rest =>
      rw [hlist] at h hperm hsorted
      obtain rfl := Option.some.inj h
      obtain ⟨hmem, hprovisions⟩ := List.mem_filter.mp (hperm.subset List.mem_cons_self)
      refine ⟨hmem, of_decide_eq_true hprovisions, fun x hx hpx => ?_⟩
      have hx' := hperm.symm.subset (List.mem_filter.mpr ⟨hx, decide_eq_true hpx⟩)
      rcases List.mem_cons.mp hx' with rfl | hrest
      · exact le_rfl
      · exact (List.pairwise_cons.mp hsorted).1 x hrest

/-- Rows of other nodes do not count. -/
theorem latestProvisionOperation_append (h : ¬Provisions nodeId operation) :
    latestProvisionOperation (operations ++ [operation]) nodeId =
      latestProvisionOperation operations nodeId := by
  unfold latestProvisionOperation
  rw [List.filter_append, List.filter_cons_of_neg (by simpa using h), List.filter_nil,
    List.append_nil]

end

end VpnPanel.Backend
