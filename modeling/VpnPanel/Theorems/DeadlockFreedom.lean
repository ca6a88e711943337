import VpnPanel.Backend.LockOrder

/-!
# Deadlock freedom

A transaction locks its rows in the documented order as long as a further owner
round finds no owner below one it already holds. Two transactions that come to
share peer rows must both take them in ascending order. Runs that keep to this
never close a cycle of waiting transactions; the first late owner may.
-/

namespace VpnPanel.Theorems

open VpnPanel.Lib VpnPanel.Backend

/-! ## The condition on a step -/

/-- A further round finds owners above the held ones only. -/
def OwnersRise (db : Db) (tx : Tx) (ids : List Nat) (st : LockStatement) : Prop :=
  st.isRound = true → ∀ r ∈ st.rows db tx.held ids, ∀ h ∈ tx.held, h.Before r

/-- Where the statement comes to peer rows of another transaction, both take
their peers in ascending order. -/
def PeersMeetInOrder (s : Locking) (tx : Tx) (ids : List Nat) (st : LockStatement) : Prop :=
  ∀ r ∈ st.rows s.db tx.held ids, r.isPeer = true → ∀ t ∈ s.txs, t.id ≠ tx.id → r ∈ t.rows →
    PeersAscend (st.rows s.db tx.held ids) ∧ PeersAscend t.rows

def Orderly (s : Locking) : LockEvent → Prop
  | .next id ids => ∀ tx ∈ s.tx? id, ∀ st ∈ tx.script.head?,
      OwnersRise s.db tx ids st ∧ PeersMeetInOrder s tx ids st
  | _ => True

instance (db : Db) (tx : Tx) (ids : List Nat) (st : LockStatement) :
    Decidable (OwnersRise db tx ids st) := inferInstanceAs (Decidable (_ → _))

instance (s : Locking) (tx : Tx) (ids : List Nat) (st : LockStatement) :
    Decidable (PeersMeetInOrder s tx ids st) :=
  inferInstanceAs (Decidable (∀ r ∈ st.rows s.db tx.held ids, r.isPeer = true → ∀ t ∈ s.txs,
    t.id ≠ tx.id → r ∈ t.rows → PeersAscend (st.rows s.db tx.held ids) ∧ PeersAscend t.rows))

instance (s : Locking) (e : LockEvent) : Decidable (Orderly s e) :=
  match e with
  | .next id ids => inferInstanceAs (Decidable (∀ tx ∈ s.tx? id, ∀ st ∈ tx.script.head?,
      OwnersRise s.db tx ids st ∧ PeersMeetInOrder s tx ids st))
  | .begin .. | .lock _ | .enqueue .. | .commit .. | .rollback _ | .other _ => isTrue trivial

/-! ## One transaction -/

/-- The rows so far stand in the documented order, and what is still to run
comes after them. -/
structure Ordered (tx : Tx) : Prop where
  rows : tx.rows.Pairwise RowLock.Before
  after : ∀ r ∈ tx.rows, ∀ st ∈ tx.script, st.After r.level
  script : tx.script.Pairwise fun a b => b.After a.level

section Transaction

variable {tx : Tx} {st : LockStatement} {script : List LockStatement} {ids : List Nat} {db : Db}

theorem Ordered.begin (id : Nat) (request : Request) (db : Db) :
    Ordered { id, request, script := lockScript db request } :=
  ⟨List.Pairwise.nil, fun _ hr => absurd hr List.not_mem_nil, lockScript_after db request⟩

theorem Ordered.restart (hplan : tx.plan = []) : Ordered tx.restart := by
  have hrows := Tx.restart_rows hplan
  refine ⟨hrows ▸ List.Pairwise.nil, fun r hr => ?_, ?_⟩
  · rw [hrows] at hr
    exact absurd hr List.not_mem_nil
  · unfold Tx.restart
    dsimp only
    split
    · exact List.Pairwise.nil
    · exact List.pairwise_singleton _ _

theorem Ordered.take (h : Ordered tx) {r : RowLock} {plan : List RowLock}
    (hplan : tx.plan = r :: plan) (db : Db) : Ordered (tx.take db r plan) := by
  have hsub := Tx.take_rows hplan db
  exact ⟨h.rows.sublist hsub, fun r hr => h.after r (hsub.subset hr), h.script⟩

/-- The rows once the next statement runs: those it held, and those of the
statement it did not. -/
theorem advance_rows (script : List LockStatement) (hadmits : st.admits db tx.held ids = true) :
    (tx.advance db ids st script).rows = tx.held ∧ st = .releaseDevices ∨
      st ≠ .releaseDevices ∧ ∃ new, (tx.advance db ids st script).rows = tx.held ++ new ∧
        new.Sublist (st.rows db tx.held ids) := by
  by_cases hst : st = .releaseDevices
  · subst hst
    refine .inl ⟨?_, rfl⟩
    show tx.held ++ (LockStatement.releaseDevices.rows db tx.held ids).filter (· ∉ tx.held) = _
    rw [LockStatement.releaseDevices_held hadmits, List.append_nil]
  · exact .inr ⟨hst, _, rfl, List.filter_sublist⟩

/-- **The next statement.** Its rows come after the held ones. -/
theorem Ordered.advance (h : Ordered tx) (hplan : tx.plan = []) (hscript : tx.script = st :: script)
    (hadmits : st.admits db tx.held ids = true) (hrise : OwnersRise db tx ids st) :
    Ordered (tx.advance db ids st script) := by
  have hheld := Tx.rows_eq_held hplan
  obtain ⟨hrows, hafter, hpair⟩ := h
  rw [hheld] at hrows hafter
  rw [hscript] at hafter hpair
  obtain ⟨hlast, hpair⟩ := List.pairwise_cons.mp hpair
  have hrest : (tx.advance db ids st script).script.Sublist script := st.rest_sublist script
  have hheldAfter : ∀ r ∈ tx.held, ∀ st' ∈ script, st'.After r.level :=
    fun r hr st' hst' => hafter r hr st' (List.mem_cons_of_mem _ hst')
  rcases advance_rows script hadmits with ⟨hsame, -⟩ | ⟨hst, new, hnew, hsub⟩
  · refine ⟨by rwa [hsame], fun r hr st' hst' => ?_, hpair.sublist hrest⟩
    rw [hsame] at hr
    exact hheldAfter r hr st' (hrest.subset hst')
  · have hlevel : ∀ r ∈ new, r.level = st.level :=
      fun r hr => LockStatement.level_of_mem_rows (hsub.subset hr) hst
    refine ⟨?_, fun r hr st' hst' => ?_, hpair.sublist hrest⟩
    · rw [hnew]
      refine List.pairwise_append.mpr ⟨hrows, LockStatement.rows_before.sublist hsub, ?_⟩
      intro r hr r' hr'
      rcases hafter r hr st List.mem_cons_self with hbelow | ⟨-, hround⟩
      · exact .inl (by rwa [hlevel r' hr'])
      · exact hrise hround r' (hsub.subset hr') r hr
    · rw [hnew] at hr
      have hst' := hrest.subset hst'
      rcases List.mem_append.mp hr with hr | hr
      · exact hheldAfter r hr st' hst'
      · rw [hlevel r hr]
        exact hlast st' hst'

end Transaction

/-! ## The transactions together -/

/-- Every transaction is in order, and two that come to one peer row both take
their peers ascending. -/
structure Orders (txs : List Tx) : Prop where
  ids : Rows.Distinct Tx.id txs
  ordered : ∀ tx ∈ txs, Ordered tx
  shared : ∀ t ∈ txs, ∀ t' ∈ txs, t.id ≠ t'.id → ∀ r, r.isPeer = true → r ∈ t.rows → r ∈ t'.rows →
    PeersAscend t.rows

namespace Orders

variable {txs : List Tx} {s s' : Locking} {e : LockEvent}

theorem filter (h : Orders txs) (p : Tx → Bool) : Orders (txs.filter p) := by
  refine ⟨h.ids.filter p, fun tx htx => h.ordered tx (List.mem_filter.mp htx).1, ?_⟩
  intro t ht t' ht'
  exact h.shared t (List.mem_filter.mp ht).1 t' (List.mem_filter.mp ht').1

/-- A transaction without rows joins. -/
theorem append (h : Orders txs) {tx : Tx} (hnew : ∀ t ∈ txs, t.id ≠ tx.id) (htx : Ordered tx)
    (hrows : tx.rows = []) : Orders (txs ++ [tx]) := by
  have hnone : ∀ r, r ∉ tx.rows := fun r hr => absurd (hrows ▸ hr) List.not_mem_nil
  refine ⟨h.ids.append hnew, fun t ht => ?_, ?_⟩
  · rcases List.mem_append.mp ht with ht | ht
    · exact h.ordered t ht
    · rwa [List.mem_singleton.mp ht]
  · intro t ht t' ht' hne r hpeer hr hr'
    rcases List.mem_append.mp ht with ht | ht
    · rcases List.mem_append.mp ht' with ht' | ht'
      · exact h.shared t ht t' ht' hne r hpeer hr hr'
      · exact absurd (List.mem_singleton.mp ht' ▸ hr') (hnone r)
    · exact absurd (List.mem_singleton.mp ht ▸ hr) (hnone r)

/-- A transaction moves on; where it comes to a peer row of another, both are
ascending. -/
theorem save (h : Orders txs) {tx : Tx} (htx : Ordered tx)
    (hmeet : ∀ t ∈ txs, t.id ≠ tx.id → ∀ r, r.isPeer = true → r ∈ tx.rows → r ∈ t.rows →
      PeersAscend tx.rows ∧ PeersAscend t.rows) : Orders (Rows.save Tx.id tx txs) := by
  refine ⟨h.ids.save, fun t ht => ?_, ?_⟩
  · rcases Rows.mem_save.mp ht with ⟨rfl, -⟩ | ⟨ht, -⟩
    · exact htx
    · exact h.ordered t ht
  · intro t ht t' ht' hne r hpeer hr hr'
    rcases Rows.mem_save.mp ht with ⟨heq, -⟩ | ⟨hmem, hother⟩
    · rcases Rows.mem_save.mp ht' with ⟨heq', -⟩ | ⟨hmem', hother'⟩
      · exact absurd (by rw [heq, heq']) hne
      · rw [heq] at hr ⊢
        exact (hmeet t' hmem' hother' r hpeer hr hr').1
    · rcases Rows.mem_save.mp ht' with ⟨heq', -⟩ | ⟨hmem', -⟩
      · rw [heq'] at hr'
        exact (hmeet t hmem hother r hpeer hr' hr).2
      · exact h.shared t hmem t' hmem' hne r hpeer hr hr'

/-- A transaction whose rows only get fewer. -/
theorem shrink (h : Orders txs) {tx tx' : Tx} (htx : tx ∈ txs) (hid : tx'.id = tx.id)
    (htx' : Ordered tx') (hsub : tx'.rows.Sublist tx.rows) :
    Orders (Rows.save Tx.id tx' txs) := by
  refine h.save htx' fun t ht hne r hpeer hr hr' => ?_
  rw [hid] at hne
  have hmem := hsub.subset hr
  exact ⟨(h.shared tx htx t ht hne.symm r hpeer hmem hr').sublist hsub,
    h.shared t ht tx htx hne r hpeer hr' hmem⟩

/-- **The next statement**, among the other transactions. -/
theorem advance (h : Orders s.txs) {tx : Tx} {ids : List Nat} {st : LockStatement}
    {script : List LockStatement} (htx : tx ∈ s.txs) (hplan : tx.plan = [])
    (hscript : tx.script = st :: script) (hadmits : st.admits s.db tx.held ids = true)
    (hrise : OwnersRise s.db tx ids st) (hmeet : PeersMeetInOrder s tx ids st) :
    Orders (Rows.save Tx.id (tx.advance s.db ids st script) s.txs) := by
  have hord := h.ordered tx htx
  have hheld := Tx.rows_eq_held hplan
  have hnext := hord.advance hplan hscript hadmits hrise
  rcases advance_rows script hadmits with ⟨hsame, -⟩ | ⟨hst, new, hnew, hsub⟩
  · exact h.shrink htx rfl hnext (by rw [hsame, hheld])
  · -- no peer row is held before a statement that still locks rows
    have hnopeer : ∀ r ∈ tx.held, r.isPeer = false := by
      intro r hr
      have hafter := hord.after r (hheld ▸ hr) st (hscript ▸ List.mem_cons_self)
      have hle := LockStatement.level_le_two hst
      by_contra hpeer
      have hlevel := RowLock.isPeer_iff.mp (by simpa using hpeer)
      rcases hafter with hbelow | ⟨hzero, -⟩
      · omega
      · omega
    refine h.save hnext fun t ht hne r hpeer hr hr' => ?_
    rw [hnew] at hr ⊢
    have hmem : r ∈ new := by
      rcases List.mem_append.mp hr with hr | hr
      · exact absurd hpeer (by simp [hnopeer r hr])
      · exact hr
    obtain ⟨hasc, hother⟩ := hmeet r (hsub.subset hmem) hpeer t ht hne hr'
    refine ⟨List.pairwise_append.mpr ⟨?_, hasc.sublist hsub, ?_⟩, hother⟩
    · refine List.Pairwise.imp_of_mem (fun {a b} ha _ _ hpa => ?_) (hheld ▸ hord.rows)
      rw [hnopeer a ha] at hpa
      cases hpa
    · intro a ha b _ hpa
      rw [hnopeer a ha] at hpa
      cases hpa

/-- **One step.** -/
theorem step (h : Orders s.txs) (hok : Orderly s e) (hstep : locking.step s e = some s') :
    Orders s'.txs := by
  have hmove := Locking.move_of_step hstep
  generalize s'.txs = txs at hmove ⊢
  cases hmove with
  | begin hfree => exact h.append hfree (.begin _ _ _) rfl
  | next htx hplan hscript hadmits =>
      obtain ⟨hrise, hmeet⟩ := hok _ htx _ (congrArg List.head? hscript)
      exact h.advance (Rows.mem_of_get? htx) hplan hscript hadmits hrise hmeet
  | lock htx hplan _ =>
      have hmem := Rows.mem_of_get? htx
      exact h.shrink hmem rfl ((h.ordered _ hmem).take hplan s.db) (Tx.take_rows hplan s.db)
  | enqueue htx hplan =>
      refine h.shrink (Rows.mem_of_get? htx) rfl (.restart hplan) ?_
      rw [Tx.restart_rows hplan]
      exact List.nil_sublist _
  | commit => exact h.filter _
  | rollback => exact h.filter _
  | other => exact h

/-- **Waiting goes upwards.** A transaction that another waits for waits for a
higher row than the one it holds against it. -/
theorem rising (h : Orders s.txs) : s.graph.Rising RowLock.rank := by
  rintro t t' r r' ⟨tx, htx, hid, hhead, hfree⟩ ⟨tx', htx', hid', hheld⟩
    ⟨tx'', htx'', hid'', hhead', -⟩
  obtain rfl := h.ids.eq_of_key htx'' htx' (hid''.trans hid'.symm)
  have hplan : r' ∈ tx''.plan := List.mem_of_head? hhead'
  have hbefore : r.Before r' :=
    (List.pairwise_append.mp (h.ordered _ htx').rows).2.2 r hheld r' hplan
  rcases hbefore with hlevel | ⟨hlevel, hpeer | hlt⟩
  · exact RowLock.rank_lt (.inl hlevel)
  · -- both are peers, and the two transactions share the one waited for
    have hpeer' : r.isPeer = true :=
      RowLock.isPeer_iff.mpr (hlevel.trans (RowLock.isPeer_iff.mp hpeer))
    have hne : tx''.id ≠ tx.id := by
      intro heq
      exact hfree (h.ids.eq_of_key htx' htx heq ▸ hheld)
    have hasc := h.shared _ htx' tx htx hne r hpeer' (List.mem_append_left _ hheld)
      (List.mem_append_right _ (List.mem_of_head? hhead))
    exact RowLock.rank_lt
      (.inr ⟨hlevel, (List.pairwise_append.mp hasc).2.2 r hheld r' hplan hpeer' hpeer⟩)
  · exact RowLock.rank_lt (.inr ⟨hlevel, hlt⟩)

end Orders

/-- **Deadlock freedom.** In every state of a run whose steps are orderly, each
transaction has locked its rows users before devices before peers, users and
devices by ascending id, and no cycle of transactions waits for each other's
rows. -/
theorem deadlock_free (s : Locking) (hs : locking.Reaches Orderly s) :
    (∀ tx ∈ s.txs, tx.held.Pairwise RowLock.Before) ∧ ¬s.graph.Deadlocked := by
  have horders : Orders s.txs := by
    refine TSys.Reaches.invariant (P := fun s : Locking => Orders s.txs) ?_ ?_ hs
    · constructor <;> simp [locking, Rows.Distinct]
    · exact fun _ _ _ h hok hstep => h.step hok hstep
  refine ⟨fun tx htx => ?_, horders.rising.not_deadlocked⟩
  exact (List.pairwise_append.mp (horders.ordered tx htx).rows).1

/-! ## Runs -/

/-- The tables after the requests. -/
def tablesAfter (calls : List Call) : Db :=
  (((panel exampleConfig).replay calls).map (·.db)).getD {}

/-- A node and two accounts: node `0`, users `1` and `2`. -/
def twoAccounts : List Call := [
  ⟨0, .addNode { name := "a", url := "http://a", token := "t" }⟩,
  ⟨1, .addUser "alice" 0⟩,
  ⟨2, .addUser "bob" 0⟩]

/-- A device of the second account. -/
def bobsPhone : List Call := twoAccounts ++ [⟨3, .addDevice 2 "phone"⟩]

/-- The first account gets its device a moment later. -/
def alicesLaptop : List Call := bobsPhone ++ [⟨4, .addDevice 1 "laptop"⟩]

/-- A result has its rows while a deletion of the device waits for the owner. -/
def deletionWaits : List LockEvent := [
  .other (tablesAfter bobsPhone),
  .begin 0 (.syncResult 0 {}), .next 0 [], .lock 0, .next 0 [], .next 0 [], .lock 0,
  .next 0 [4], .lock 0,
  .begin 1 (.deleteDevice 2 3), .next 1 []]

/-- The device is created between two rounds of a result: the second round
finds user `1` while user `2` is locked. -/
def lateOwner : List LockEvent := [
  .other (tablesAfter bobsPhone),
  .begin 0 (.heartbeatResult 0 {}), .next 0 [], .lock 0,
  .begin 1 (.addDevice 1 "laptop"), .next 1 [], .lock 1, .commit 1 (tablesAfter alicesLaptop),
  .next 0 []]

/-- Another result has locked user `1` before, and waits for user `2`. -/
def lateOwnerCrossed : List LockEvent :=
  lateOwner ++ [.begin 2 (.syncResult 0 {}), .next 2 [], .lock 2]

/-- Two results come to two peers, one of them in descending order. The first
had read the devices of the node before either peer was there. -/
def unorderedPeers : List LockEvent := [
  .other (tablesAfter twoAccounts),
  .begin 0 (.syncResult 0 {}), .next 0 [], .next 0 [],
  .begin 1 (.addDevice 2 "phone"), .next 1 [], .lock 1, .commit 1 (tablesAfter bobsPhone),
  .begin 2 (.addDevice 1 "laptop"), .next 2 [], .lock 2, .commit 2 (tablesAfter alicesLaptop),
  .begin 3 (.heartbeatResult 0 {}), .next 3 [], .lock 3, .lock 3, .next 3 [], .next 3 [],
  .lock 3, .lock 3, .next 3 [6, 4], .lock 3,
  .next 0 [4, 6], .lock 0]

/-- The deletion waits for the result, and nothing waits for the deletion. -/
theorem deadlock_free_deletion :
    ∃ s, locking.replay deletionWaits = some s ∧ s.graph.Waits 1 0 ∧
      (∀ tx ∈ s.txs, tx.held.Pairwise RowLock.Before) ∧ ¬s.graph.Deadlocked := by
  have hrun : (locking.replay deletionWaits).any (fun s => s.graph.Waits 1 0) = true := by
    decide +kernel
  have hok : locking.ReplayOk Orderly {} deletionWaits := by decide +kernel
  obtain ⟨s, hs, hwaits⟩ := TSys.replay_any hrun
  exact ⟨s, hs, of_decide_eq_true hwaits, deadlock_free s (TSys.replay_reaches hok hs)⟩

/-- A late owner is locked below one already held, or closes a cycle of two
results; so do peers taken in the order of a scan. -/
theorem late_owner_deadlocks :
    (∃ s, locking.replay (lateOwner ++ [.lock 0]) = some s ∧
        ∃ tx ∈ s.txs, ¬tx.held.Pairwise RowLock.Before) ∧
      (∃ s, locking.replay lateOwnerCrossed = some s ∧ s.graph.Deadlocked) ∧
      ∃ s, locking.replay unorderedPeers = some s ∧ s.graph.Deadlocked := by
  have horder : (locking.replay (lateOwner ++ [.lock 0])).any (fun s =>
      ∃ tx ∈ s.txs, ¬tx.held.Pairwise RowLock.Before) = true := by decide +kernel
  have hcross : (locking.replay lateOwnerCrossed).any (fun s =>
      s.graph.Waits 0 2 ∧ s.graph.Waits 2 0) = true := by decide +kernel
  have hpeers : (locking.replay unorderedPeers).any (fun s =>
      s.graph.Waits 0 3 ∧ s.graph.Waits 3 0) = true := by decide +kernel
  obtain ⟨s₁, hs₁, hbroken⟩ := TSys.replay_any horder
  obtain ⟨s₂, hs₂, hcycle⟩ := TSys.replay_any hcross
  obtain ⟨s₃, hs₃, hcycle'⟩ := TSys.replay_any hpeers
  rw [decide_eq_true_eq] at hbroken hcycle hcycle'
  exact ⟨⟨s₁, hs₁, hbroken⟩, ⟨s₂, hs₂, hcycle.1.deadlocked hcycle.2⟩,
    ⟨s₃, hs₃, hcycle'.1.deadlocked hcycle'.2⟩⟩

end VpnPanel.Theorems
