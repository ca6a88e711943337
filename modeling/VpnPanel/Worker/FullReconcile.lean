import VpnPanel.Lib.Paging
import VpnPanel.Backend.Departures
import VpnPanel.Backend.ImportBatch

/-!
# The full reconcile

`_remnawave_full_reconcile` of the worker, against a Remnawave panel whose user
list changes while it is read. A pass fetches the list in pages of 25, hands
each page to the backend and, after the last one, reports the uuids it saw;
the backend then marks every other profile stale and blocks its account.
Between any two of these steps users are created and deleted remotely, other
jobs fetch and import single users, and other requests reach the backend.

A remote user is the normalised payload. A page is a slice of the list at the
time of the fetch; a new user may be placed anywhere in the list, and its uuid
was never used before.
-/

namespace VpnPanel.Worker

open VpnPanel.Lib VpnPanel.Backend

/-- `PAGE_SIZE`. -/
def pageSize : Nat := 25

/-- Where a pass stands. `seen` are the uuids collected so far. -/
inductive ReconcilePass
  | idle
  | fetching (start : Nat) (seen : List String)
  | upserting (start : Nat) (seen : List String) (users : List RemnawaveUserIn) (total : Option Nat)
  | completing (seen : List String)

/-- The total of a page, where the panel sends one: `total` is read with `or`,
so a zero counts as missing. -/
def reportedTotal (sent : Bool) (remote : List RemnawaveUserIn) : Option Nat :=
  if sent ∧ remote.length ≠ 0 then some remote.length else none

/-- The pass after a page was fetched; an empty one ends the loop. -/
def ReconcilePass.fetched (remote : List RemnawaveUserIn) (start : Nat) (seen : List String)
    (total : Option Nat) : ReconcilePass :=
  let users := Paging.page remote start pageSize
  if users.isEmpty then .completing seen
  else .upserting start (seen ++ users.map (·.uuid)) users total

/-- The pass after a page was imported; the loop ends at the reported total. -/
def ReconcilePass.upserted (start : Nat) (seen : List String) (users : List RemnawaveUserIn)
    (total : Option Nat) : ReconcilePass :=
  let start := start + users.length
  if total.any (· ≤ start) then .completing seen else .fetching start seen

/-! ## The system -/

/-- A completed reconcile: the profiles it marked, and the users that existed
remotely. -/
structure Completion where
  marked : List String
  remote : List String
  deriving DecidableEq, Repr

structure Mirror where
  remote : List RemnawaveUserIn := []
  /-- The uuids ever given to a remote user. -/
  drawn : List String := []
  panel : Panel := {}
  pass : ReconcilePass := .idle
  /-- The single users fetched and still to be imported. -/
  fetched : List RemnawaveUserIn := []
  completions : List Completion := []

inductive MirrorEvent
  | create (index : Nat) (user : RemnawaveUserIn)
  | delete (index : Nat)
  | start
  | fetchPage (sendsTotal : Bool)
  | upsertPage (now : Time)
  | complete (now : Time)
  | abandon
  | fetchUser (uuid : String)
  | upsertUser (index : Nat) (now : Time)
  | request (call : Call)

/-- The requests only the import jobs make. -/
def isImport : Request → Bool
  | .upsert _ => true
  | .reconcileComplete _ => true
  | _ => false

/-- The profiles `reconcile_missing_remnawave_users` selects, by uuid. -/
def missingUuids (db : Db) (seen : List String) : List String :=
  (db.profiles.filter (·.remnawaveUuid ∉ seen)).map (·.remnawaveUuid)

/-- The next state; `none` when the event is not enabled. -/
def Mirror.step (cfg : Config) (s : Mirror) : MirrorEvent → Option Mirror
  | .create index user =>
      if index ≤ s.remote.length ∧ user.uuid ∉ s.drawn then
        some { s with remote := s.remote.insertIdx index user, drawn := user.uuid :: s.drawn }
      else none
  | .delete index =>
      if index < s.remote.length then some { s with remote := s.remote.eraseIdx index } else none
  | .start =>
      match s.pass with
      | .idle => some { s with pass := .fetching 0 [] }
      | _ => none
  | .fetchPage sendsTotal =>
      match s.pass with
      | .fetching start seen =>
          some { s with pass := .fetched s.remote start seen (reportedTotal sendsTotal s.remote) }
      | _ => none
  | .upsertPage now =>
      match s.pass with
      | .upserting start seen users total =>
          ((Backend.panel cfg).step s.panel ⟨now, .upsert users⟩).map fun panel =>
            { s with
              panel
              -- a refused page fails the job
              pass := match handle cfg s.panel.db now (.upsert users) with
                | .error _ => .idle
                | .ok _ => .upserted start seen users total }
      | _ => none
  | .complete now =>
      match s.pass with
      | .completing seen =>
          ((Backend.panel cfg).step s.panel ⟨now, .reconcileComplete seen⟩).map fun panel =>
            { s with
              panel
              pass := .idle
              completions := s.completions ++
                [⟨missingUuids s.panel.db seen, s.remote.map (·.uuid)⟩] }
      | _ => none
  | .abandon => some { s with pass := .idle }
  | .fetchUser uuid =>
      (s.remote.find? (·.uuid = uuid)).map fun user => { s with fetched := s.fetched ++ [user] }
  | .upsertUser index now =>
      match s.fetched[index]? with
      | none => none
      | some user =>
          ((Backend.panel cfg).step s.panel ⟨now, .upsert [user]⟩).map fun panel =>
            { s with panel, fetched := s.fetched.eraseIdx index }
  | .request call =>
      if isImport call.request then none
      else ((Backend.panel cfg).step s.panel call).map fun panel => { s with panel }

def mirror (cfg : Config) : TSys Mirror MirrorEvent where
  init := {}
  step := Mirror.step cfg

/-! ## Imported profiles -/

variable {cfg : Config} {db db' : Db}

/-- Every profile carries a uuid that was stored before. -/
def NoNewUuid (db db' : Db) : Prop :=
  ∀ r ∈ db'.profiles, ∃ old ∈ db.profiles, old.remnawaveUuid = r.remnawaveUuid

/-- Any write but a new import. -/
def StoredProfiles (_ : Db) : Write → Prop
  | .newImport _ _ => False
  | _ => True

theorem noNewUuid_of_writes (h : Writes StoredProfiles db db') : NoNewUuid db db' := by
  refine h.relates (R := NoNewUuid) (fun _ r hr => ⟨r, hr, rfl⟩) ?_ ?_
  · intro a b c hab hbc r hr
    obtain ⟨r', hr', huuid'⟩ := hbc r hr
    obtain ⟨old, hold, huuid⟩ := hab r' hr'
    exact ⟨old, hold, huuid.trans huuid'⟩
  · intro db w hw hok
    cases w with
    | profile row =>
        intro r hr
        rcases Rows.mem_save.mp hr with ⟨rfl, -⟩ | ⟨hr, -⟩
        · obtain ⟨old, hold, -, huuid⟩ := hok
          exact ⟨old, hold, huuid⟩
        · exact ⟨r, hr, rfl⟩
    | newImport row imported => exact hw.elim
    | deleteUser id => exact fun r hr => ⟨r, (List.mem_filter.mp hr).1, rfl⟩
    | reading row data now =>
        intro r hr
        have hprofiles : (Write.apply db (.reading row data now)).profiles = db.profiles := by
          show (applyPeerResult db row data now).2.profiles = _
          rw [applyPeerResult_db]
        rw [hprofiles] at hr
        exact ⟨r, hr, rfl⟩
    | _ => exact fun r hr => ⟨r, hr, rfl⟩

theorem stored_of_writes {P : Db → Write → Prop}
    (hP : ∀ db user imported, ¬P db (.newImport user imported)) (h : Writes P db db') :
    Writes StoredProfiles db db' := by
  refine h.mono fun db w hw => ?_
  cases w with
  | newImport user imported => exact hP db user imported hw
  | _ => trivial

theorem ofOwner_stored {u : UserId} (h : Writes (OfOwner u) db db') :
    Writes StoredProfiles db db' := stored_of_writes (fun _ _ _ hw => hw) h

theorem releases_stored (h : Writes Releases db db') : Writes StoredProfiles db db' :=
  stored_of_writes (fun _ _ _ hw => hw) h

/-- Every request but an import writes stored profiles only. -/
theorem handle_stored {now : Time} {request : Request} {e : Effect} (hwf : db.WF)
    (hreq : isImport request = false) (h : handle cfg db now request = .ok e) :
    Writes StoredProfiles db e.db := by
  cases request with
  | addUser name limit =>
      rw [apiAddUser_ok h]
      exact Writes.single (.newUser { id := db.nextId, name, deviceLimit := limit }) trivial
        ⟨rfl, rfl⟩
  | updateDeviceLimit u limit =>
      obtain ⟨user, hu, he⟩ := apiUpdateDeviceLimit_ok h
      rw [he]
      exact Writes.single (.user { user with deviceLimit := limit }) trivial
        ⟨user, Rows.mem_of_get? (localUser_ok hu).1, rfl, rfl⟩
  | blockUser u =>
      obtain ⟨user, hu, rfl⟩ := apiBlockUser_ok h
      exact ofOwner_stored (commitLifecycle_writes hwf { user with lifecycleStatus := .blocked }
        (Rows.mem_of_get? (localUser_ok hu).1) rfl rfl _ _)
  | unblockUser u =>
      obtain ⟨user, hu, -, rfl⟩ := apiUnblockUser_ok h
      exact ofOwner_stored (commitLifecycle_writes hwf { user with lifecycleStatus := .active }
        (Rows.mem_of_get? (localUser_ok hu).1) rfl rfl _ _)
  | updateLocalLifecycle u data =>
      obtain ⟨user, hu, rfl⟩ := apiUpdateLocalLifecycle_ok h
      exact ofOwner_stored (commitLifecycle_writes hwf (data.apply user)
        (Rows.mem_of_get? (localUser_ok hu).1) rfl rfl _ _)
  | resetLocalTraffic u =>
      obtain ⟨user, hu, -, rfl⟩ := apiResetLocalTraffic_ok h
      have hmem : user ∈ db.users := Rows.mem_of_get? (localUser_ok hu).1
      have hreset : Writes StoredProfiles db (resetLocalTrafficUsage db user now).2 :=
        Writes.single (.resetTraffic user now) trivial ⟨user, hmem, rfl⟩
      have hstamped : (resetLocalTrafficUsage db user now).1 ∈
          (resetLocalTrafficUsage db user now).2.users :=
        Rows.mem_save.mpr (.inl ⟨rfl, user, hmem, rfl⟩)
      exact hreset.trans (ofOwner_stored
        (commitLifecycle_writes (hreset.wf hwf) _ hstamped rfl rfl _ _))
  | deleteUser u =>
      obtain ⟨user, -, he, -⟩ := apiDeleteUser_ok h
      rw [he]
      exact Writes.single (.deleteUser user.id) trivial trivial
  | addNode data =>
      cases h
      exact stored_of_writes (fun _ _ _ hw => hw) (addNode_writes rfl)
  | updateNode nodeId data =>
      obtain ⟨node, hn, he⟩ := apiUpdateNode_ok h
      rw [he]
      exact saveNode_writes (fun _ => trivial) (Rows.mem_of_get? hn) rfl
  | deleteNode nodeId =>
      obtain ⟨node, -, he⟩ := apiDeleteNode_ok h
      rw [he]
      have hdel : Writes StoredProfiles db (db.deleteNode nodeId) :=
        Writes.single (.deleteNode nodeId) trivial trivial
      exact hdel.trans (releases_stored (releaseDeviceIps_writes (hwf.delete_node nodeId) _ now))
  | addDevice u name =>
      obtain ⟨user, device, ids, -, hc, -⟩ := pubAddDevice_ok h
      exact stored_of_writes (fun _ _ _ hw => hw) (createDevice_writes hc)
  | deleteDevice u deviceId =>
      obtain ⟨device, hd, -, he⟩ := pubDeleteDevice_ok h
      have hmem : device ∈ db.devices := Rows.mem_of_get? hd
      have htomb : Writes StoredProfiles db
          (Write.apply db (.tombstone (device.tombstonedAt now))) :=
        Writes.single (.tombstone (device.tombstonedAt now)) trivial (tombstoneOk hmem now)
      rw [he, deleteDevice_db hd]
      exact htomb.trans (releases_stored (releaseDeviceIp_writes (mem_tombstone hmem now) now))
  | upsert data => cases hreq
  | markDeleted uuid =>
      rcases markRemnawaveUserDeleted_ok h with he | ⟨row, hr, -, user, hu, he⟩
      · rw [he]
        exact .refl db
      · rw [he]
        have hsave : Writes StoredProfiles db (db.saveProfile (row.deleteRequested now)) :=
          Writes.single (.profile (row.deleteRequested now)) trivial ⟨row, hr, rfl, rfl⟩
        exact hsave.trans (ofOwner_stored (requestRemnawaveDelete_ofOwner hu now))
  | reconcileComplete seen => cases hreq
  | syncResult nodeId data =>
      obtain ⟨node, hn, ⟨-, he⟩ | ⟨-, he⟩⟩ := nodeSyncResult_ok h
      · rw [he]
        exact saveNode_writes (fun _ => trivial) (Rows.mem_of_get? hn) rfl
      · rw [he]
        have hconf := (syncConfirmed_writes hwf (Rows.mem_of_get? hn) data now : Writes _ db
          (confirmRemovals cfg (db.saveNode (syncedNode node data now)) node.id data now).db)
        have hstored := stored_of_writes (fun _ _ _ hw => hw) hconf
        exact (hstored.trans (releases_stored (releaseDeviceIps_writes (hconf.wf hwf) _ now))).trans
          (stored_of_writes (fun _ _ _ hw => hw) (purgeConfirmedRemnawaveDeletes_writes _))
  | heartbeatResult nodeId data =>
      obtain ⟨node, hn, he⟩ := nodeHeartbeatResult_ok h
      rw [he]
      refine stored_of_writes ?_ (applyHeartbeatResult_writes hwf (Rows.mem_of_get? hn) data now)
      rintro _ _ _ ⟨_, hw⟩
      exact hw

theorem request_noNewUuid {s s' : Panel} {call : Call} (hwf : s.db.WF)
    (hreq : isImport call.request = false) (hstep : (Backend.panel cfg).step s call = some s') :
    NoNewUuid s.db s'.db := by
  obtain ⟨-, rfl⟩ := panel_step hstep
  show NoNewUuid s.db (afterRequest cfg s.db call.now call.request)
  unfold afterRequest
  cases hans : handle cfg s.db call.now call.request with
  | error err => exact fun r hr => ⟨r, hr, rfl⟩
  | ok e => exact noNewUuid_of_writes (handle_stored hwf hreq hans)

theorem complete_noNewUuid {s s' : Panel} {now : Time} {seen : List String} (hwf : s.db.WF)
    (hstep : (Backend.panel cfg).step s ⟨now, .reconcileComplete seen⟩ = some s') :
    NoNewUuid s.db s'.db := by
  obtain ⟨-, rfl⟩ := panel_step hstep
  intro r hr
  have hwf' := (reconcileMissingRemnawaveUsers_writes hwf seen).wf hwf
  obtain ⟨hr, -⟩ := (mem_purge_profiles hwf').mp hr
  obtain ⟨old, hold, -, huuid, -⟩ := reconcileMissing_profile hwf hr
  exact ⟨old, hold, huuid⟩

/-- The tail of an item stores no new uuid. -/
theorem finish_noNewUuid (hwf : db.WF) {row : RemnawaveUser} (hr : row ∈ db.profiles)
    (st : UpsertState) (loaded : List PeerId) (created : List NodeId) (item : RemnawaveUserIn)
    (now : Time) : NoNewUuid db (finishUpsert st db row loaded created item now).db := by
  let row' := applyRemnawaveProfile row item now
  have hsave : Writes StoredProfiles db (db.saveProfile row') :=
    Writes.single (.profile row') trivial ⟨row, hr, rfl, rfl⟩
  exact noNewUuid_of_writes (hsave.trans
    (ofOwner_stored (enforceRemnawaveCombinedLimit_writes (hsave.wf hwf) row')))

/-- An item stores at most its own uuid. -/
theorem item_uuids {st st' : UpsertState} (hwf : st.db.WF) (hheld : st.HeldOk)
    {item : RemnawaveUserIn} {now : Time} (h : upsertItem cfg st item now = some st') :
    ∀ r ∈ st'.db.profiles, (∃ old ∈ st.db.profiles, old.remnawaveUuid = r.remnawaveUuid) ∨
      item.uuid = r.remnawaveUuid := by
  cases upsertItem_step hwf hheld h with
  | @created user row _ huuid hok _ =>
      obtain ⟨hw, hmem⟩ := newImport_writes hok
      intro r hr
      obtain ⟨old, hold, holdid⟩ := finish_noNewUuid (hw.wf hwf) hmem _ _ _ _ _ r hr
      rcases List.mem_append.mp hold with hold | hold
      · exact .inl ⟨old, hold, holdid⟩
      · rw [List.mem_singleton.mp hold] at holdid
        exact .inr (huuid.symm.trans holdid)
  | @updated user row hr _ hu hown =>
      have hlife := hown.lifecycle_writes cfg hu item now
      have hr' := hlife.stored_profile hr
      intro r hrfin
      obtain ⟨old, hold, holdid⟩ := finish_noNewUuid (hlife.wf hwf) hr' _ _ _ _ _ r hrfin
      rw [hlife.ownerFrame.profiles] at hold
      exact .inl ⟨old, hold, holdid⟩

theorem items_uuids {now : Time} (items : List RemnawaveUserIn) :
    ∀ {st st' : UpsertState}, st.db.WF → st.HeldOk → upsertItems cfg now items st = some st' →
      ∀ r ∈ st'.db.profiles, (∃ old ∈ st.db.profiles, old.remnawaveUuid = r.remnawaveUuid) ∨
        ∃ item ∈ items, item.uuid = r.remnawaveUuid := by
  intro st st' hwf hheld h
  refine upsertItems_keeps (I := fun st' => ∀ r ∈ st'.db.profiles,
    (∃ old ∈ st.db.profiles, old.remnawaveUuid = r.remnawaveUuid) ∨
      ∃ item ∈ items, item.uuid = r.remnawaveUuid) items ?_ hwf hheld
    (fun r hr => .inl ⟨r, hr, rfl⟩) h
  intro item hmem st₁ st₂ hwf₁ hheld₁ hknown hitem r hr
  rcases item_uuids hwf₁ hheld₁ hitem r hr with ⟨mid, hmid, hid⟩ | hown
  · have hbefore := hknown mid hmid
    rwa [hid] at hbefore
  · exact .inr ⟨item, hmem, hown⟩

/-- A profile after an import was stored before, or is one of the imported
users. -/
theorem upsert_uuids {s s' : Panel} {now : Time} {items : List RemnawaveUserIn} (hwf : s.db.WF)
    (hstep : (Backend.panel cfg).step s ⟨now, .upsert items⟩ = some s') :
    ∀ r ∈ s'.db.profiles, (∃ old ∈ s.db.profiles, old.remnawaveUuid = r.remnawaveUuid) ∨
      ∃ item ∈ items, item.uuid = r.remnawaveUuid := by
  obtain ⟨-, rfl⟩ := panel_step hstep
  show ∀ r ∈ (afterRequest cfg s.db now (.upsert items)).profiles, _
  unfold afterRequest
  cases hans : handle cfg s.db now (.upsert items) with
  | error err => exact fun r hr => .inl ⟨r, hr, rfl⟩
  | ok e =>
      obtain ⟨st, hst, he⟩ := upsertRemnawaveUsers_ok hans
      show ∀ r ∈ e.db.profiles, _
      rw [he]
      exact items_uuids items hwf (UpsertState.heldOk_start _) hst

end VpnPanel.Worker
