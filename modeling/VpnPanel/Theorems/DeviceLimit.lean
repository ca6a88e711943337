import VpnPanel.Backend.OwnerRequests

/-!
# The device limit

A creation that has passed the limit check still has room when it commits: it
holds the owner row all the while, and only the holder of that row adds a device
of the owner or moves its limit. A request that ends in a refusal is as if it
had never been made.
-/

namespace VpnPanel.Theorems

open VpnPanel.Lib VpnPanel.Backend

variable {cfg : Config} {db db' : Db} {u : UserId} {now : Time} {draw : Nat}

/-! ## Limits and counts -/

/-- The limit of an account is no other, and it has no more live devices. -/
structure KeepsBudget (u : UserId) (db db' : Db) : Prop where
  limit : effectiveDeviceLimit db' u = effectiveDeviceLimit db u
  live : countLiveDevices db' u ≤ countLiveDevices db u

/-- One more live device stays within the limit. -/
def Room (db : Db) (u : UserId) : Prop :=
  ∀ limit ∈ effectiveDeviceLimit db u, countLiveDevices db u < limit

theorem Room.keeps (h : Room db u) (hkeep : KeepsBudget u db db') : Room db' u := by
  intro limit hlimit
  rw [hkeep.limit] at hlimit
  exact lt_of_le_of_lt hkeep.live (h limit hlimit)

/-- The limit as a function of the columns it reads. -/
theorem effectiveDeviceLimit_budget : effectiveDeviceLimit db u =
    (Rows.get? Prod.fst db.budget.1 u).bind fun user =>
      let profile := Rows.get? Prod.fst db.budget.2.1 u
      resolveEffectiveDeviceLimit user.2 (profile.bind (·.2)) profile.isSome := by
  have husers : Rows.get? Prod.fst db.budget.1 u =
      (db.user? u).map fun user => (user.id, user.deviceLimit) :=
    Rows.get?_projected fun _ => rfl
  have hprofiles : Rows.get? Prod.fst db.budget.2.1 u =
      (db.profileOf? u).map fun row => (row.userId, row.hwidDeviceLimit) :=
    Rows.get?_projected fun _ => rfl
  rw [husers, hprofiles]
  unfold effectiveDeviceLimit
  cases db.user? u with
  | none => rfl
  | some user => cases db.profileOf? u <;> rfl

theorem countLiveDevices_budget : countLiveDevices db u =
    (db.budget.2.2.filter fun d => d.2.1 = u && d.2.2.isNone).length := by
  unfold countLiveDevices Db.budget
  rw [List.filter_map, List.length_map]
  rfl

theorem keepsBudget_other (h : db'.budget = db.budget) : KeepsBudget u db db' where
  limit := by rw [effectiveDeviceLimit_budget, effectiveDeviceLimit_budget, h]
  live := by rw [countLiveDevices_budget, countLiveDevices_budget, h]

/-- Rows that a rewriting brings into a selection were in it before. -/
theorem length_filter_map_le {α : Type} {p : α → Bool} {f : α → α} (rows : List α)
    (h : ∀ r, p (f r) = true → p r = true) :
    ((rows.map f).filter p).length ≤ (rows.filter p).length := by
  rw [List.filter_map, List.length_map]
  exact (List.monotone_filter_right rows h).length_le

theorem keepsBudget_tombstoneLoaded (db : Db) (loaded : Device) (now : Time) :
    KeepsBudget u db (tombstoneLoaded db loaded now).2 where
  limit := rfl
  live := by
    refine length_filter_map_le db.devices fun device hlive => ?_
    by_cases hid : device.id = loaded.id
    · rw [if_pos hid] at hlive
      cases hloaded : loaded.deletedAt <;> simp_all
    · rwa [if_neg hid] at hlive

theorem keepsBudget_newDevice {device : Device} (hne : device.userId ≠ u) (peers : List Peer) :
    KeepsBudget u db
      { db with devices := db.devices ++ [device], peers := db.peers ++ peers } where
  limit := rfl
  live := by
    unfold countLiveDevices
    rw [List.filter_append, List.filter_cons_of_neg (by simp [hne])]
    simp

theorem keepsBudget_newLimit {userId : UserId} {deviceLimit : Nat} (hne : userId ≠ u) :
    KeepsBudget u db { db with
      users := db.users.map fun user =>
        if user.id = userId then { user with deviceLimit } else user } where
  limit := by
    unfold effectiveDeviceLimit
    have huser : Db.user? { db with
        users := db.users.map fun user =>
          if user.id = userId then { user with deviceLimit } else user } u = db.user? u := by
      refine Rows.get?_map_of_key (fun user => ?_) fun user hid => if_neg ?_
      · split <;> rfl
      · intro heq
        exact hne (heq.symm.trans hid)
    rw [huser]
    rfl
  live := le_refl _

/-- A new device takes one place. -/
theorem countLiveDevices_newDevice {device : Device} (hlive : device.deletedAt = none)
    (peers : List Peer) :
    countLiveDevices { db with devices := db.devices ++ [device], peers := db.peers ++ peers }
      device.userId = countLiveDevices db device.userId + 1 := by
  unfold countLiveDevices
  rw [List.filter_append, List.length_append,
    List.filter_cons_of_pos (by simp [hlive]), List.filter_nil, List.length_singleton]

/-! ## What a transaction knows -/

/-- What the statements so far have found out, as long as the owner row is
locked. -/
def Stage.Sound (db : Db) : Stage → Prop
  | .creating userId _ (.countDevices limit) => effectiveDeviceLimit db userId = some limit
  | .creating userId _ (.allocate _ _) | .creating userId _ (.insert _ _ _) => Room db userId
  | .creating userId _ (.listNodes device) | .creating userId _ (.pendingPeers device _ _ _) =>
      Room db userId ∧ device.userId = userId ∧ device.deletedAt = none
  | _ => True

theorem Stage.Sound.keeps {stage : Stage} (h : Stage.Sound db stage)
    (hkeep : ∀ u, stage.owner? = some u → KeepsBudget u db db') : Stage.Sound db' stage := by
  cases stage with
  | creating userId name at_ =>
      have howner := hkeep userId rfl
      cases at_ with
      | countDevices limit => exact howner.limit.trans h
      | allocate _ _ => exact Room.keeps h howner
      | insert _ _ _ => exact Room.keeps h howner
      | listNodes device => exact ⟨h.1.keeps howner, h.2⟩
      | pendingPeers device _ _ _ => exact ⟨h.1.keeps howner, h.2⟩
      | requireActive => trivial
      | readLimit => trivial
  | guard _ => trivial
  | lockToCreate _ _ => trivial
  | lockToDelete _ => trivial
  | lockToLimit _ _ => trivial
  | lockDevice _ => trivial
  | tombstone _ => trivial
  | limiting _ _ => trivial

theorem room_of_unlimited (h : effectiveDeviceLimit db u = none) : Room db u := by
  intro limit hlimit
  rw [h] at hlimit
  cases hlimit

/-! ## One statement -/

/-- A statement that goes on: what it has found out, and whose row it holds. -/
structure GoesOn (db : Db) (stage next : Stage) : Prop where
  sound : Stage.Sound db next
  owner : next.owner? = stage.owner? ∨ stage.owner? = none ∧ next.owner? = stage.wants?

theorem guardRequest_goes {request : OwnerRequest} {next : Stage}
    (h : guardRequest db now request = .goes next) : GoesOn db (.guard request) next := by
  have hnext : next.owner? = none ∧ Stage.Sound db next := by
    unfold guardRequest at h
    split at h
    · split at h
      · cases h
      · split at h
        · cases h
        · cases h
          exact ⟨rfl, trivial⟩
    · split at h
      · split at h
        · cases h
        · cases h
          exact ⟨rfl, trivial⟩
      · cases h
    · cases h
      exact ⟨rfl, trivial⟩
  exact ⟨hnext.2, .inl hnext.1⟩

theorem guardRequest_commits {request : OwnerRequest} {queued : List Command} {ending : Ending} :
    guardRequest db now request ≠ .commits db' queued ending := by
  intro h
  unfold guardRequest at h
  split at h
  · split at h
    · cases h
    · split at h <;> cases h
  · split at h
    · split at h <;> cases h
    · cases h
  · cases h

theorem createStep_goes {name : String} {at_ : Creation} {next : Stage}
    (hsound : Stage.Sound db (.creating u name at_))
    (h : createStep cfg db ((Stage.creating u name at_).view db draw) u name now at_ =
      .goes next) : GoesOn db (.creating u name at_) next := by
  have hnext : next.owner? = some u ∧ Stage.Sound db next := by
    unfold createStep at h
    cases at_ with
    | requireActive =>
        simp only at h
        split at h
        · cases h
        · cases h
          exact ⟨rfl, trivial⟩
    | readLimit =>
        simp only at h
        split at h
        · next hlimit =>
            cases h
            exact ⟨rfl, room_of_unlimited hlimit⟩
        · next limit hlimit =>
            cases h
            exact ⟨rfl, hlimit⟩
    | countDevices limit =>
        simp only at h
        split at h
        · cases h
        · next hfree =>
            cases h
            -- a transaction that has inserted nothing counts the committed devices
            have hview : countLiveDevices
                ((Stage.creating u name (.countDevices limit)).view db draw) u =
                  countLiveDevices db u := by
              simp [countLiveDevices, Stage.view, Stage.devices]
            refine ⟨rfl, fun bound hbound => ?_⟩
            have hbound : some limit = some bound := hsound.symm.trans hbound
            cases hbound
            omega
    | allocate keypair attempts =>
        cases attempts with
        | zero => cases h
        | succ attempts =>
            simp only at h
            split at h
            · cases h
            · cases h
              exact ⟨rfl, hsound⟩
    | insert keypair attempts vpnIp =>
        simp only at h
        split at h
        · cases h
          exact ⟨rfl, hsound, rfl, rfl⟩
        · cases h
          exact ⟨rfl, hsound⟩
        · cases h
    | listNodes device =>
        cases h
        exact ⟨rfl, hsound⟩
    | pendingPeers device peers created todo =>
        cases todo with
        | nil => cases h
        | cons nodeId todo =>
            simp only at h
            split at h
            · cases h
              exact ⟨rfl, hsound⟩
            · cases h
              exact ⟨rfl, hsound⟩
  exact ⟨hnext.2, .inl hnext.1⟩

theorem createStep_commits {name : String} {at_ : Creation} {view : Db} {queued : List Command}
    {ending : Ending} (h : createStep cfg db view u name now at_ = .commits db' queued ending) :
    ∃ device peers created, at_ = .pendingPeers device peers created [] ∧
      ending = .created device ∧
      db' = { db with devices := db.devices ++ [device], peers := db.peers ++ peers } := by
  unfold createStep at h
  cases at_ with
  | pendingPeers device peers created todo =>
      cases todo with
      | nil =>
          cases h
          exact ⟨device, peers, created, rfl, rfl, rfl⟩
      | cons nodeId todo =>
          simp only at h
          split at h <;> cases h
  | requireActive =>
      simp only at h
      split at h <;> cases h
  | readLimit =>
      simp only at h
      split at h <;> cases h
  | countDevices limit =>
      simp only at h
      split at h <;> cases h
  | allocate keypair attempts =>
      cases attempts with
      | zero => cases h
      | succ attempts =>
          simp only at h
          split at h <;> cases h
  | insert keypair attempts vpnIp =>
      simp only at h
      split at h <;> cases h
  | listNodes device => cases h

theorem step_goes {stage next : Stage} (hsound : Stage.Sound db stage)
    (h : stage.step cfg db now draw = .goes next) : GoesOn db stage next := by
  cases stage with
  | guard request => exact guardRequest_goes h
  | lockToCreate userId name =>
      simp only [Stage.step] at h
      split at h
      · cases h
      · cases h
        exact ⟨trivial, .inr ⟨rfl, rfl⟩⟩
  | lockToDelete loaded =>
      cases h
      exact ⟨trivial, .inr ⟨rfl, rfl⟩⟩
  | lockToLimit userId deviceLimit =>
      simp only [Stage.step] at h
      split at h
      · cases h
      · cases h
        exact ⟨trivial, .inr ⟨rfl, rfl⟩⟩
  | creating userId name at_ => exact createStep_goes hsound h
  | lockDevice loaded =>
      simp only [Stage.step] at h
      split at h
      · cases h
      · cases h
        exact ⟨trivial, .inl rfl⟩
  | tombstone loaded => cases h
  | limiting userId deviceLimit => cases h

/-- A statement that commits. -/
inductive CommitStep (db : Db) (now : Time) : Stage → Db → Ending → Prop
  | created {userId : UserId} {name : String} {device : Device} {peers : List Peer}
      {created : List NodeId} :
      CommitStep db now (.creating userId name (.pendingPeers device peers created []))
        { db with devices := db.devices ++ [device], peers := db.peers ++ peers }
        (.created device)
  | gone {loaded : Device} : CommitStep db now (.lockDevice loaded) db (.deleted loaded.id)
  | tombstone {loaded : Device} :
      CommitStep db now (.tombstone loaded) (tombstoneLoaded db loaded now).2 (.deleted loaded.id)
  | limited {userId : UserId} {deviceLimit : Nat} :
      CommitStep db now (.limiting userId deviceLimit)
        { db with
          users := db.users.map fun user =>
            if user.id = userId then { user with deviceLimit } else user }
        (.limited userId)

theorem commitStep_of_step {stage : Stage} {queued : List Command} {ending : Ending}
    (h : stage.step cfg db now draw = .commits db' queued ending) :
    CommitStep db now stage db' ending := by
  cases stage with
  | guard request => exact absurd h guardRequest_commits
  | lockToCreate userId name =>
      simp only [Stage.step] at h
      split at h <;> cases h
  | lockToDelete loaded => cases h
  | lockToLimit userId deviceLimit =>
      simp only [Stage.step] at h
      split at h <;> cases h
  | creating userId name at_ =>
      obtain ⟨device, peers, created, rfl, rfl, rfl⟩ := createStep_commits h
      exact .created
  | lockDevice loaded =>
      simp only [Stage.step] at h
      split at h
      · cases h
        exact .gone
      · cases h
  | tombstone loaded =>
      cases h
      exact .tombstone
  | limiting userId deviceLimit =>
      cases h
      exact .limited

/-- The budgets of the other owners, and what the ending stands for. -/
structure Commits (stage : Stage) (db db' : Db) (ending : Ending) : Prop where
  others : ∀ u, stage.owner? ≠ some u → KeepsBudget u db db'
  created : ∀ device, ending = .created device → device ∈ db'.devices ∧
    ∀ limit ∈ effectiveDeviceLimit db' device.userId, countLiveDevices db' device.userId ≤ limit
  limited : ∀ u, ending = .limited u → db'.devices = db.devices ∧ db'.peers = db.peers

theorem CommitStep.commits {stage : Stage} {ending : Ending} (hsound : Stage.Sound db stage)
    (h : CommitStep db now stage db' ending) : Commits stage db db' ending := by
  cases h with
  | @created userId name device peers created =>
      obtain ⟨hroom, rfl, hlive⟩ := hsound
      refine ⟨fun u hu => keepsBudget_newDevice (fun heq => hu (congrArg some heq)) peers,
        fun other hother => ?_, fun _ hlimited => nomatch hlimited⟩
      cases hother
      refine ⟨List.mem_append_right _ List.mem_cons_self, fun limit hlimit => ?_⟩
      rw [countLiveDevices_newDevice hlive]
      exact hroom limit hlimit
  | gone =>
      exact ⟨fun u _ => keepsBudget_other rfl, (fun _ hcreated => nomatch hcreated),
        fun _ hlimited => nomatch hlimited⟩
  | @tombstone loaded =>
      exact ⟨fun u _ => keepsBudget_tombstoneLoaded db loaded now,
        (fun _ hcreated => nomatch hcreated), fun _ hlimited => nomatch hlimited⟩
  | limited =>
      exact ⟨fun u hu => keepsBudget_newLimit fun heq => hu (congrArg some heq),
        (fun _ hcreated => nomatch hcreated), fun _ _ => ⟨rfl, rfl⟩⟩

theorem CommitStep.committed {stage : Stage} {ending : Ending}
    (h : CommitStep db now stage db' ending) : ending.committed = true := by
  cases h <;> rfl

/-! ## One event -/

variable {s s' : OwnerRows} {e : OwnerEvent}

inductive OwnerMove (cfg : Config) (s : OwnerRows) : OwnerEvent → OwnerRows → Prop
  | begin {id : Nat} {request : OwnerRequest} : (∀ tx ∈ s.txs, tx.id ≠ id) →
      (∀ x ∈ s.ended, x.1 ≠ id) →
      OwnerMove cfg s (.begin id request)
        { s with txs := s.txs ++ [{ id, stage := .guard request }] }
  | next {tx : OwnerTx} {now : Time} {draw : Nat} : s.tx? tx.id = some tx →
      s.waits tx = false → s.fresh draw = true →
      OwnerMove cfg s (.next tx.id now draw)
        (s.progress tx (tx.stage.step cfg s.db now draw))
  | abort {tx : OwnerTx} : s.tx? tx.id = some tx →
      OwnerMove cfg s (.abort tx.id) (s.finish tx.id .aborted)
  | other {db : Db} {operations : List Command} : db.budget = s.db.budget →
      OwnerMove cfg s (.other db operations)
        { s with db, operations := s.operations ++ operations }

theorem ownerMove_of_act (h : s.act cfg e = some s') : OwnerMove cfg s e s' := by
  cases e with
  | begin id request =>
      simp only [OwnerRows.act] at h
      split at h
      · cases h
      · next hfree =>
          cases h
          simp only [Bool.or_eq_true, not_or, Bool.not_eq_true, Option.isSome_eq_false_iff,
            Option.isNone_iff_eq_none, List.any_eq_false, decide_eq_true_eq] at hfree
          exact .begin (Rows.get?_eq_none.mp hfree.1) hfree.2
  | next id now draw =>
      simp only [OwnerRows.act] at h
      obtain ⟨tx, htx, hact⟩ := Option.bind_eq_some_iff.mp h
      obtain rfl : tx.id = id := Rows.key_of_get? htx
      split at hact
      · cases hact
      · next hgo =>
          cases hact
          simp only [Bool.or_eq_true, not_or, Bool.not_eq_true, Bool.not_eq_false'] at hgo
          exact .next htx hgo.1 hgo.2
  | abort id =>
      simp only [OwnerRows.act] at h
      obtain ⟨tx, htx, rfl⟩ := Option.map_eq_some_iff.mp h
      obtain rfl : tx.id = id := Rows.key_of_get? htx
      exact .abort htx
  | other db operations =>
      simp only [OwnerRows.act] at h
      split at h
      · next hbudget =>
          cases h
          exact .other hbudget
      · cases h

theorem act_of_ownerMove (h : OwnerMove cfg s e s') : s.act cfg e = some s' := by
  cases h with
  | @begin id request htxs hended =>
      have htx : s.tx? id = none := Rows.get?_eq_none.mpr htxs
      have hfree : s.ended.any (·.1 = id) = false := by simpa using hended
      simp only [OwnerRows.act, htx, hfree]
      rfl
  | next htx hwaits hfresh =>
      simp only [OwnerRows.act, htx, Option.bind_some, hwaits, hfresh]
      rfl
  | abort htx => simp only [OwnerRows.act, htx, Option.map_some]
  | other hbudget => simp only [OwnerRows.act, if_pos hbudget]

/-! ## Every reachable state -/

/-- Transactions are told apart by their ids, none of them holds another's owner
row, and each still stands on what it has found out. -/
structure Serialized (s : OwnerRows) : Prop where
  distinct : Rows.Distinct OwnerTx.id s.txs
  once : Rows.Distinct Prod.fst s.ended
  gone : ∀ x ∈ s.ended, ∀ tx ∈ s.txs, tx.id ≠ x.1
  exclusive : ∀ tx ∈ s.txs, ∀ other ∈ s.txs, ∀ u, tx.stage.owner? = some u →
    other.stage.owner? = some u → tx.id = other.id
  sound : ∀ tx ∈ s.txs, Stage.Sound s.db tx.stage

theorem Serialized.init (db : Db) (operations : List Command) :
    Serialized { db, operations } := by
  constructor <;> simp [Rows.Distinct]

theorem free_of_waits {tx other : OwnerTx} (h : s.waits tx = false)
    (hwants : tx.stage.wants? = some u) (hother : other ∈ s.txs) (hne : other.id ≠ tx.id) :
    other.stage.owner? ≠ some u := by
  intro hholds
  have hmem : other ∈ s.others tx.id := List.mem_filter.mpr ⟨hother, by simpa using hne⟩
  have hall := List.any_eq_false.mp h other hmem
  simp [hwants, hholds] at hall

theorem Serialized.finish (h : Serialized s) {tx : OwnerTx} (htx : s.tx? tx.id = some tx)
    (ending : Ending) : Serialized (s.finish tx.id ending) where
  distinct := h.distinct.filter _
  once := by
    refine List.nodup_cons.mpr ⟨fun hmem => ?_, h.once⟩
    obtain ⟨x, hx, hid⟩ := List.mem_map.mp hmem
    exact h.gone x hx tx (Rows.mem_of_get? htx) hid.symm
  gone := by
    intro x hx other hother
    obtain ⟨hmem, hne⟩ := List.mem_filter.mp hother
    rcases List.mem_cons.mp hx with rfl | hx
    · simpa using hne
    · exact h.gone x hx other hmem
  exclusive := fun a ha b hb => h.exclusive a (List.mem_filter.mp ha).1 b (List.mem_filter.mp hb).1
  sound := fun other hother => h.sound other (List.mem_filter.mp hother).1

theorem Serialized.goes (h : Serialized s) {tx : OwnerTx} (htx : s.tx? tx.id = some tx)
    (hwaits : s.waits tx = false) {stage : Stage} (hgoes : GoesOn s.db tx.stage stage) :
    Serialized { s with txs := Rows.save OwnerTx.id { tx with stage } s.txs } := by
  have hmem := Rows.mem_of_get? htx
  -- another transaction does not hold the row this one holds now
  have hfree : ∀ other ∈ s.txs, other.id ≠ tx.id → ∀ u, stage.owner? = some u →
      other.stage.owner? ≠ some u := by
    intro other hother hne u hu hholds
    rcases hgoes.owner with hsame | ⟨-, hwanted⟩
    · exact hne (h.exclusive other hother tx hmem u hholds (hsame.symm.trans hu))
    · exact free_of_waits hwaits (hwanted.symm.trans hu) hother hne hholds
  refine ⟨h.distinct.save, h.once, ?_, ?_, ?_⟩
  · intro x hx other hother
    rcases Rows.mem_save.mp hother with ⟨rfl, -⟩ | ⟨hother, -⟩
    · exact h.gone x hx tx hmem
    · exact h.gone x hx other hother
  · intro a ha b hb u hua hub
    rcases Rows.mem_save.mp ha with ⟨rfl, -⟩ | ⟨ha, hane⟩
    · rcases Rows.mem_save.mp hb with ⟨rfl, -⟩ | ⟨hb, hbne⟩
      · rfl
      · exact absurd hub (hfree b hb hbne u hua)
    · rcases Rows.mem_save.mp hb with ⟨rfl, -⟩ | ⟨hb, hbne⟩
      · exact absurd hua (hfree a ha hane u hub)
      · exact h.exclusive a ha b hb u hua hub
  · intro other hother
    rcases Rows.mem_save.mp hother with ⟨rfl, -⟩ | ⟨hother, -⟩
    · exact hgoes.sound
    · exact h.sound other hother

theorem Serialized.commits (h : Serialized s) {tx : OwnerTx} (htx : s.tx? tx.id = some tx)
    {db' : Db} {operations : List Command} {ending : Ending}
    (hcommits : Commits tx.stage s.db db' ending) :
    Serialized { s.finish tx.id ending with db := db', operations } := by
  have hdone := h.finish htx ending
  refine ⟨hdone.distinct, hdone.once, hdone.gone, hdone.exclusive, fun other hother => ?_⟩
  obtain ⟨hmem, hne⟩ := List.mem_filter.mp hother
  -- what the others rely on belongs to owners they hold themselves
  refine (h.sound other hmem).keeps fun u hu => hcommits.others u fun hheld => ?_
  exact absurd (h.exclusive other hmem tx (Rows.mem_of_get? htx) u hu hheld) (by simpa using hne)

theorem Serialized.act (h : Serialized s) (hact : s.act cfg e = some s') : Serialized s' := by
  cases ownerMove_of_act hact with
  | @begin id request htxs hended =>
      have hnew : ∀ tx ∈ s.txs ++ [{ id, stage := .guard request }],
          tx ∈ s.txs ∨ tx = { id, stage := .guard request } := fun tx htx => by simpa using htx
      refine ⟨h.distinct.append htxs, h.once, ?_, ?_, ?_⟩
      · intro x hx tx htx
        rcases hnew tx htx with htx | rfl
        · exact h.gone x hx tx htx
        · exact (hended x hx).symm
      · intro a ha b hb u hua hub
        rcases hnew a ha with ha | rfl
        · rcases hnew b hb with hb | rfl
          · exact h.exclusive a ha b hb u hua hub
          · cases hub
        · cases hua
      · intro tx htx
        rcases hnew tx htx with htx | rfl
        · exact h.sound tx htx
        · trivial
  | @next tx now draw htx hwaits hfresh =>
      have hsound := h.sound tx (Rows.mem_of_get? htx)
      cases hstep : tx.stage.step cfg s.db now draw with
      | goes stage => exact h.goes htx hwaits (step_goes hsound hstep)
      | refuses error => exact h.finish htx _
      | commits db' operations ending =>
          exact h.commits htx ((commitStep_of_step hstep).commits hsound)
  | abort htx => exact h.finish htx _
  | other hbudget =>
      refine ⟨h.distinct, h.once, h.gone, h.exclusive, fun tx htx => ?_⟩
      exact (h.sound tx htx).keeps fun u _ => keepsBudget_other hbudget

theorem ownerRows_inv {operations : List Command}
    (h : (ownerRequests cfg db operations).Reachable s) : Serialized s :=
  TSys.Reaches.invariant (Serialized.init db operations) (fun _ _ _ hinv _ hact => hinv.act hact) h

/-! ## Without a transaction -/

/-- The state as it is without the transaction. -/
def OwnerRows.without (s : OwnerRows) (id : Nat) : OwnerRows :=
  { s with txs := s.others id, ended := s.ended.filter (·.1 ≠ id) }

variable {id : Nat}

theorem waits_without {tx : OwnerTx} (h : s.waits tx = false) :
    (OwnerRows.without s id).waits tx = false := by
  refine List.any_eq_false.mpr fun other hother => ?_
  obtain ⟨hmem, hne⟩ := List.mem_filter.mp hother
  exact List.any_eq_false.mp h other (List.mem_filter.mpr ⟨(List.mem_filter.mp hmem).1, hne⟩)

theorem fresh_without {draw : Nat} (h : s.fresh draw = true) :
    (OwnerRows.without s id).fresh draw = true := by
  have hsub : ∀ {α : Type} (f : OwnerTx → List α) (x : α),
      x ∈ (s.others id).flatMap f → x ∈ s.txs.flatMap f := by
    intro α f x hx
    obtain ⟨tx, htx, hmem⟩ := List.mem_flatMap.mp hx
    exact List.mem_flatMap.mpr ⟨tx, (List.mem_filter.mp htx).1, hmem⟩
  obtain ⟨hdevices, hpeers⟩ := Bool.and_eq_true_iff.mp h
  refine Bool.and_eq_true_iff.mpr ⟨List.all_eq_true.mpr fun x hx => ?_,
    List.all_eq_true.mpr fun x hx => ?_⟩
  · refine List.all_eq_true.mp hdevices x ?_
    rcases List.mem_append.mp hx with hx | hx
    · exact List.mem_append_left _ hx
    · exact List.mem_append_right _ (hsub _ x hx)
  · refine List.all_eq_true.mp hpeers x ?_
    rcases List.mem_append.mp hx with hx | hx
    · exact List.mem_append_left _ hx
    · exact List.mem_append_right _ (hsub _ x hx)

theorem others_comm (other : Nat) : (s.others other).filter (·.id ≠ id) =
    (s.others id).filter (·.id ≠ other) := by
  unfold OwnerRows.others
  rw [List.filter_filter, List.filter_filter]
  exact List.filter_congr fun tx _ => Bool.and_comm _ _

theorem finish_without {other : Nat} (hne : other ≠ id) (ending : Ending) :
    OwnerRows.without (s.finish other ending) id =
      (OwnerRows.without s id).finish other ending := by
  unfold OwnerRows.without OwnerRows.finish OwnerRows.others
  rw [List.filter_cons_of_pos (by simpa using hne)]
  congr 1
  exact others_comm other

theorem finish_without_self (ending : Ending) :
    OwnerRows.without (s.finish id ending) id = OwnerRows.without s id := by
  unfold OwnerRows.without OwnerRows.finish OwnerRows.others
  rw [List.filter_cons_of_neg (by simp), List.filter_filter]
  simp

theorem progress_without {tx : OwnerTx} (hne : tx.id ≠ id) (p : Progress) :
    OwnerRows.without (s.progress tx p) id = (OwnerRows.without s id).progress tx p := by
  cases p with
  | goes stage =>
      have hsave : (Rows.save OwnerTx.id { tx with stage } s.txs).filter (·.id ≠ id) =
          Rows.save OwnerTx.id { tx with stage } (s.txs.filter (·.id ≠ id)) := Rows.filter_save id
      exact congrArg (fun txs => { s with txs, ended := s.ended.filter (·.1 ≠ id) }) hsave
  | refuses error => exact finish_without hne _
  | commits db operations ending =>
      have hfinish := finish_without (s := s) hne ending
      exact congrArg (fun t : OwnerRows => { t with db, operations := s.operations ++ operations })
        hfinish

/-- An event of another transaction needs nothing of this one. -/
theorem act_without (hother : e.tx? ≠ some id) (h : s.act cfg e = some s') :
    (OwnerRows.without s id).act cfg e = some (OwnerRows.without s' id) := by
  cases ownerMove_of_act h with
  | @begin other request htxs hended =>
      have hne : other ≠ id := fun heq => hother (congrArg some heq)
      have hnew : OwnerRows.without
          { s with txs := s.txs ++ [{ id := other, stage := .guard request }] } id =
          { OwnerRows.without s id with
            txs := s.others id ++ [{ id := other, stage := .guard request }] } := by
        unfold OwnerRows.without OwnerRows.others
        rw [List.filter_append]
        simp [hne]
      rw [hnew]
      exact act_of_ownerMove (.begin (fun tx htx => htxs tx (List.mem_filter.mp htx).1)
        fun x hx => hended x (List.mem_filter.mp hx).1)
  | @next tx now draw htx hwaits hfresh =>
      have hne : tx.id ≠ id := fun heq => hother (congrArg some heq)
      rw [progress_without hne]
      refine act_of_ownerMove (.next ?_ (waits_without hwaits) (fresh_without hfresh))
      exact (Rows.get?_filter fun r _ hr => by simpa [hr] using hne).trans htx
  | @abort tx htx =>
      have hne : tx.id ≠ id := fun heq => hother (congrArg some heq)
      rw [finish_without hne]
      refine act_of_ownerMove (.abort ?_)
      exact (Rows.get?_filter fun r _ hr => by simpa [hr] using hne).trans htx
  | other hbudget => exact act_of_ownerMove (.other hbudget)

/-- The transaction has not committed. -/
def Uncommitted (id : Nat) (s : OwnerRows) : Prop :=
  ∀ x ∈ s.ended, x.1 = id → x.2.committed = false

theorem ended_of_act (h : s.act cfg e = some s') : ∀ x ∈ s.ended, x ∈ s'.ended := by
  cases ownerMove_of_act h with
  | begin _ _ => exact fun x hx => hx
  | @next tx now draw _ _ _ =>
      intro x hx
      cases tx.stage.step cfg s.db now draw with
      | goes stage => exact hx
      | refuses error => exact List.mem_cons_of_mem _ hx
      | commits db operations ending => exact List.mem_cons_of_mem _ hx
  | abort _ => exact fun x hx => List.mem_cons_of_mem _ hx
  | other _ => exact fun x hx => hx

/-- Short of its commit, a transaction changes nothing but itself. -/
theorem act_of_own (huncommitted : Uncommitted id s') (hown : e.tx? = some id)
    (h : s.act cfg e = some s') : OwnerRows.without s' id = OwnerRows.without s id := by
  cases ownerMove_of_act h with
  | @begin other request htxs hended =>
      cases hown
      unfold OwnerRows.without OwnerRows.others
      rw [List.filter_append]
      simp
  | @next tx now draw htx hwaits hfresh =>
      cases hown
      cases hstep : tx.stage.step cfg s.db now draw with
      | goes stage =>
          have hsame : (Rows.save OwnerTx.id { tx with stage } s.txs).filter (·.id ≠ tx.id) =
              s.txs.filter (·.id ≠ tx.id) :=
            @Rows.filter_save_self _ _ _ OwnerTx.id s.txs { tx with stage }
          exact congrArg (fun txs => { s with txs, ended := s.ended.filter (·.1 ≠ tx.id) }) hsame
      | refuses error => exact finish_without_self _
      | commits db operations ending =>
          rw [hstep] at huncommitted
          have hfalse := huncommitted (tx.id, ending) List.mem_cons_self rfl
          exact absurd ((commitStep_of_step hstep).committed.symm.trans hfalse) (by decide)
  | @abort tx htx =>
      cases hown
      exact finish_without_self _
  | other _ => cases hown

/-- A run without the events of a transaction that has not committed. -/
theorem replay_without {operations : List Command} {evs : List OwnerEvent} {t : OwnerRows}
    (h : (ownerRequests cfg db operations).replay evs = some t) (huncommitted : Uncommitted id t) :
    (ownerRequests cfg db operations).replay (evs.filter fun e => !decide (e.tx? = some id)) =
      some (OwnerRows.without t id) := by
  have hback : ∀ s e s', (ownerRequests cfg db operations).step s e = some s' →
      Uncommitted id s' → Uncommitted id s :=
    fun _ _ _ hact hdone x hx => hdone x (ended_of_act hact x hx)
  have hown : ∀ s e s', Uncommitted id s' → decide (e.tx? = some id) = true →
      (ownerRequests cfg db operations).step s e = some s' →
      OwnerRows.without s' id = OwnerRows.without s id :=
    fun _ _ _ hdone hown hact => act_of_own hdone (of_decide_eq_true hown) hact
  have hother : ∀ s e s', decide (e.tx? = some id) = false →
      (ownerRequests cfg db operations).step s e = some s' →
      (ownerRequests cfg db operations).step (OwnerRows.without s id) e =
        some (OwnerRows.without s' id) :=
    fun _ _ _ hother hact => act_without (of_decide_eq_false hother) hact
  exact (TSys.replayFrom_erase hback hown hother evs h huncommitted).2

/-! ## The claim of the row lock -/

theorem uncommitted_of_refused (hinv : Serialized s) {error : HttpError}
    (h : (id, Ending.refused error) ∈ s.ended) : Uncommitted id s := by
  intro x hx hid
  rw [hinv.once.eq_of_key hx h hid]
  rfl

/-- The event that adds a commit to the endings is the statement that commits. -/
theorem commit_of_ended {ending : Ending} (hinv : Serialized s) (h : s.act cfg e = some s')
    (hended : s'.ended = (id, ending) :: s.ended) (hcommitted : ending.committed = true) :
    ∃ (stage : Stage) (now : Time) (draw : Nat) (queued : List Command),
      Stage.Sound s.db stage ∧ stage.step cfg s.db now draw = .commits s'.db queued ending := by
  have hnot : ∀ x : Nat × Ending, s.ended ≠ x :: s.ended :=
    fun x heq => absurd (congrArg List.length heq) (by simp)
  cases ownerMove_of_act h with
  | begin _ _ => exact absurd hended (hnot _)
  | @next tx now draw htx hwaits hfresh =>
      have hsound := hinv.sound tx (Rows.mem_of_get? htx)
      cases hstep : tx.stage.step cfg s.db now draw with
      | goes stage =>
          rw [hstep] at hended
          exact absurd hended (hnot _)
      | refuses error =>
          rw [hstep] at hended
          cases hended
          cases hcommitted
      | commits db' queued other =>
          rw [hstep] at hended
          obtain rfl : other = ending := congrArg Prod.snd (List.cons.inj hended).1
          exact ⟨tx.stage, now, draw, queued, hsound, hstep⟩
  | abort _ =>
      cases hended
      cases hcommitted
  | other _ => exact absurd hended (hnot _)

/-- **The device limit.** A creation that commits leaves its owner within the
limit, a new limit leaves every device and peer where it is, and without a
request that was refused the same run ends in the same rows. -/
theorem device_limit_holds (cfg : Config) (db : Db) (operations : List Command) :
    (∀ s e s' id device, (ownerRequests cfg db operations).Reachable s →
      (ownerRequests cfg db operations).step s e = some s' →
      s'.ended = (id, .created device) :: s.ended →
      device ∈ s'.db.devices ∧ ∀ limit ∈ effectiveDeviceLimit s'.db device.userId,
        countLiveDevices s'.db device.userId ≤ limit) ∧
    (∀ s e s' id userId, (ownerRequests cfg db operations).Reachable s →
      (ownerRequests cfg db operations).step s e = some s' →
      s'.ended = (id, .limited userId) :: s.ended →
      s'.db.devices = s.db.devices ∧ s'.db.peers = s.db.peers) ∧
    (∀ evs t id error, (ownerRequests cfg db operations).replay evs = some t →
      (id, .refused error) ∈ t.ended →
      ∃ t', (ownerRequests cfg db operations).replay
          (evs.filter fun e => !decide (e.tx? = some id)) = some t' ∧
        t'.db = t.db ∧ t'.operations = t.operations) := by
  refine ⟨?_, ?_, ?_⟩
  · intro s e s' id device hs hact hended
    obtain ⟨stage, now, draw, queued, hsound, hstep⟩ :=
      commit_of_ended (ownerRows_inv hs) hact hended rfl
    exact ((commitStep_of_step hstep).commits hsound).created device rfl
  · intro s e s' id userId hs hact hended
    obtain ⟨stage, now, draw, queued, hsound, hstep⟩ :=
      commit_of_ended (ownerRows_inv hs) hact hended rfl
    exact ((commitStep_of_step hstep).commits hsound).limited userId rfl
  · intro evs t id error hreplay hrefused
    have hinv := ownerRows_inv (TSys.replay_reachable hreplay)
    exact ⟨_, replay_without hreplay (uncommitted_of_refused hinv hrefused), rfl, rfl⟩

/-- One account with room for one device, and one node. -/
def lastSlotDb : Db where
  nodes := [{ id := 0, name := "a", url := "http://a", token := "t", interface := fun _ => none }]
  users := [{ id := 1, name := "alice", deviceLimit := 1 }]

def lastSlotDevice : Device where
  id := 2
  userId := 1
  name := "laptop"
  publicKey := some "public-2"
  privateKey := some "private-2"
  vpnIp := some "10.8.0.2"
  createdAt := 0

/-- Two creations begin; the first has inserted its device and its peer. -/
def lastSlotInserted : List OwnerEvent :=
  [.begin 10 (.createDevice 1 "laptop"), .begin 11 (.createDevice 1 "phone"), .next 11 0 2,
    .next 10 0 2, .next 10 0 2, .next 10 0 2, .next 10 0 2, .next 10 0 2, .next 10 0 2,
    .next 10 0 2, .next 10 0 3, .next 10 0 3]

/-- It commits, the second finds no room, and a new limit waits for its commit. -/
def lastSlotRefused : List OwnerEvent :=
  lastSlotInserted ++
    [.next 10 0 4, .next 11 0 4, .next 11 0 4, .next 11 0 4, .next 11 0 4,
      .begin 12 (.updateDeviceLimit 1 3), .next 12 0 4, .next 12 0 4]

theorem device_limit_holds_last_slot :
    (∃ s' : OwnerRows, s'.ended = [(10, .created lastSlotDevice)] ∧ lastSlotDevice ∈ s'.db.devices ∧
      ∀ limit ∈ effectiveDeviceLimit s'.db 1, countLiveDevices s'.db 1 ≤ limit) ∧
    (∃ s s' : OwnerRows, s'.ended = (12, .limited 1) :: s.ended ∧ s'.db.devices = s.db.devices ∧
      s'.db.peers = s.db.peers) ∧
    (∃ t t' : OwnerRows, (11, .refused ⟨409, "Device limit 1 reached"⟩) ∈ t.ended ∧
      (ownerRequests exampleConfig lastSlotDb []).replay
        (lastSlotRefused.filter fun e => !decide (e.tx? = some 11)) = some t' ∧
      t'.db = t.db ∧ t'.operations = t.operations) := by
  have hall := device_limit_holds exampleConfig lastSlotDb []
  refine ⟨?_, ?_, ?_⟩
  · have hrun : ((ownerRequests exampleConfig lastSlotDb []).replay lastSlotInserted).any
        (fun s => s.ended = [] && (s.act exampleConfig (.next 10 0 4)).any
          fun s' => s'.ended = [(10, .created lastSlotDevice)]) = true := by decide +kernel
    obtain ⟨s, hs, hstep⟩ := TSys.replay_any hrun
    simp only [Bool.and_eq_true, decide_eq_true_eq, Option.any_eq_true] at hstep
    obtain ⟨hnone, s', hact, hended⟩ := hstep
    refine ⟨s', hended, hall.1 s (.next 10 0 4) s' 10 lastSlotDevice
      (TSys.replay_reachable hs) hact ?_⟩
    rw [hended, hnone]
  · have hrun : ((ownerRequests exampleConfig lastSlotDb []).replay lastSlotRefused).any
        (fun s => (s.act exampleConfig (.next 12 0 4)).any
          fun s' => s'.ended = (12, .limited 1) :: s.ended) = true := by decide +kernel
    obtain ⟨s, hs, hstep⟩ := TSys.replay_any hrun
    simp only [decide_eq_true_eq, Option.any_eq_true] at hstep
    obtain ⟨s', hact, hended⟩ := hstep
    exact ⟨s, s', hended, hall.2.1 s (.next 12 0 4) s' 12 1 (TSys.replay_reachable hs) hact
      hended⟩
  · have hrun : ((ownerRequests exampleConfig lastSlotDb []).replay lastSlotRefused).any
        (fun s => (11, .refused ⟨409, "Device limit 1 reached"⟩) ∈ s.ended) = true := by
      decide +kernel
    obtain ⟨t, ht, hrefused⟩ := TSys.replay_any hrun
    have hrefused := of_decide_eq_true hrefused
    obtain ⟨t', hreplay, hrows⟩ := hall.2.2 lastSlotRefused t 11 _ ht hrefused
    exact ⟨t, t', hrefused, hreplay, hrows⟩

end VpnPanel.Theorems
