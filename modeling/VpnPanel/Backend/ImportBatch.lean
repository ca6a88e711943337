import VpnPanel.Backend.Agreement

/-!
# A batch of imported profiles

The loop of `_upsert_remnawave_users` keeps the agreement of every account as
long as no entry moves a block flag over a peer collection that lacks peers the
batch created. Which batches do that can be told from the batch and the tables
before it (`staleFlip`).
-/

namespace VpnPanel.Backend

open VpnPanel.Lib

/-! ## Flips on an older collection -/

/-- Some usable device of the profile's account has no peer on some node. -/
def missesPeer (db : Db) (uuid : String) : Bool :=
  (db.profiles.find? (·.remnawaveUuid = uuid)).any fun row =>
    db.devices.any fun d =>
      d.userId = row.userId && d.deletedAt.isNone && truthy d.publicKey && truthy d.vpnIp &&
        db.nodes.any fun n => !db.peers.any fun p => p.nodeId = n.id && p.deviceId = d.id

/-- The entry takes the account over its combined limit. -/
def importLimits (db : Db) (now : Time) (item : RemnawaveUserIn) : Bool :=
  (db.profiles.find? (·.remnawaveUuid = item.uuid)).any fun row =>
    remnawaveCombinedLimited (applyRemnawaveProfile row item now)
      (loadLocalTotalBytes db row.userId)

/-- Entries of one profile in a row: whether one of them lifts its block, and
the block flag after the last of them. -/
structure Segment where
  uuid : String
  lifted : Bool
  flag : Bool

/-- The segment after one more entry. -/
def Segment.next (db : Db) (now : Time) (seg : Option Segment) (item : RemnawaveUserIn) :
    Segment where
  uuid := item.uuid
  lifted := (seg.any fun s => s.uuid = item.uuid && s.lifted) ||
    !remnawaveBlocked item.status item.expireAt now
  flag := remnawaveBlocked item.status item.expireAt now || importLimits db now item

/-- The profiles that earlier segments lifted, once the entry ends the present
segment or not. -/
def restoredBefore (restored : List String) (seg : Option Segment) (item : RemnawaveUserIn) :
    List String :=
  match seg with
  | none => restored
  | some s => if s.uuid ≠ item.uuid ∧ s.lifted then s.uuid :: restored else restored

/-- Whether some entry of the batch, directly behind others of its profile,
moves the block flag back after they lifted it and thereby gave the account
peers it was missing. -/
def staleFlip (db : Db) (now : Time) (restored : List String) (seg : Option Segment) :
    List RemnawaveUserIn → Bool
  | [] => false
  | item :: rest =>
      (missesPeer db item.uuid && item.uuid ∉ restored && seg.any fun s =>
        s.uuid = item.uuid && s.lifted &&
          s.flag ≠ remnawaveBlocked item.status item.expireAt now) ||
      staleFlip db now (restoredBefore restored seg item) (some (Segment.next db now seg item)) rest

/-! ## What the import writes leave -/

section Frame

variable {cfg : Config} {u : UserId} {db db' db'' : Db}

/-- The rows the import routes do not write, and peers that only change state. -/
structure ImportFrame (db db' : Db) : Prop where
  devices : db'.devices = db.devices
  nodes : db'.nodes = db.nodes
  traffic : db'.traffic = db.traffic
  peers : ∀ p ∈ db.peers, ∃ q ∈ db'.peers, p.Same q

theorem ImportFrame.refl (db : Db) : ImportFrame db db :=
  ⟨rfl, rfl, rfl, fun p hp => ⟨p, hp, .refl p⟩⟩

theorem ImportFrame.trans (h : ImportFrame db db') (h' : ImportFrame db' db'') :
    ImportFrame db db'' := by
  refine ⟨h'.devices.trans h.devices, h'.nodes.trans h.nodes, h'.traffic.trans h.traffic,
    fun p hp => ?_⟩
  obtain ⟨q, hq, hsame⟩ := h.peers p hp
  obtain ⟨r, hr, hsame'⟩ := h'.peers q hq
  exact ⟨r, hr, hsame.trans hsame'⟩

theorem Writes.importFrame (h : Writes Imports db db') : ImportFrame db db' := by
  refine h.relates ImportFrame.refl (fun _ _ _ => ImportFrame.trans) ?_
  intro b w hw hok
  cases w with
  | peers f =>
      exact ⟨rfl, rfl, rfl, fun p hp => ⟨f p, List.mem_map_of_mem hp, hok.same p hp⟩⟩
  | newPeer row =>
      exact ⟨rfl, rfl, rfl, fun p hp => ⟨p, List.mem_append_left _ hp, .refl p⟩⟩
  | profile row => exact ⟨rfl, rfl, rfl, fun p hp => ⟨p, hp, .refl p⟩⟩
  | newImport row imported => exact ⟨rfl, rfl, rfl, fun p hp => ⟨p, hp, .refl p⟩⟩
  | user row => exact ⟨rfl, rfl, rfl, fun p hp => ⟨p, hp, .refl p⟩⟩
  | _ =>
      obtain ⟨_, _, h⟩ := hw
      exact h.elim

theorem ImportFrame.provisioned (h : ImportFrame db db') (hp : db.Provisioned u) :
    db'.Provisioned u := by
  intro d hd hu huse n hn
  rw [h.devices] at hd
  rw [h.nodes] at hn
  obtain ⟨p, hp, hpn, hpd⟩ := hp d hd hu huse n hn
  obtain ⟨q, hq, hsame⟩ := h.peers p hp
  exact ⟨q, hq, hsame.nodeId.trans hpn, hsame.deviceId.trans hpd⟩

theorem ImportFrame.total (h : ImportFrame db db') (v : UserId) :
    loadLocalTotalBytes db' v = loadLocalTotalBytes db v :=
  loadLocalTotalBytes_of_traffic h.traffic v

/-- No peer was created. -/
def SamePeers (db db' : Db) : Prop := ∀ q ∈ db'.peers, ∃ p ∈ db.peers, p.Same q

theorem SamePeers.refl (db : Db) : SamePeers db db := fun p hp => ⟨p, hp, .refl p⟩

theorem SamePeers.trans (h : SamePeers db db') (h' : SamePeers db' db'') : SamePeers db db'' := by
  intro r hr
  obtain ⟨q, hq, hsame'⟩ := h' r hr
  obtain ⟨p, hp, hsame⟩ := h q hq
  exact ⟨p, hp, hsame.trans hsame'⟩

theorem samePeers_transition (db : Db) (loaded : List PeerId) (b : Bool) :
    SamePeers db (transitionPeers db loaded b).2 := by
  intro q hq
  obtain ⟨p, hp, -, hsame⟩ := mem_transitionPeers hq
  exact ⟨p, hp, hsame⟩

theorem SamePeers.complete (h : SamePeers db db') {loaded : List PeerId}
    (hc : Complete u loaded db) : Complete u loaded db' := by
  intro q hq hu
  obtain ⟨p, hp, hsame⟩ := h q hq
  rw [hsame.id]
  exact hc p hp (hsame.userId.symm.trans hu)

/-! ## A restore with nothing to restore -/

theorem createPendingPeer_of_has {nodeId : NodeId} {d : Device}
    (h : d.Usable → ∃ p ∈ db.peers, p.nodeId = nodeId ∧ p.deviceId = d.id) :
    (createPendingPeer cfg db nodeId d).2 = db := by
  unfold createPendingPeer
  split
  · rfl
  next hlive =>
    split
    · rfl
    next hnone =>
      split
      · rfl
      next huse =>
        exfalso
        simp only [Bool.or_eq_true, Bool.not_eq_true', not_or, Bool.not_eq_false] at huse
        obtain ⟨p, hp, hboth⟩ := h ⟨by simpa using hlive, huse.1, huse.2⟩
        exact hnone (List.any_eq_true.mpr ⟨p, hp, by simpa using hboth⟩)

theorem createPendingPeersOn_of_has {d : Device} (ids : List NodeId)
    (h : d.Usable → ∀ id ∈ ids, ∃ p ∈ db.peers, p.nodeId = id ∧ p.deviceId = d.id) :
    (createPendingPeersOn cfg d ids db).2 = db := by
  induction ids with
  | nil => rfl
  | cons first rest ih =>
      show (createPendingPeersOn cfg d rest (createPendingPeer cfg db first d).2).2 = db
      rw [createPendingPeer_of_has fun huse => h huse first List.mem_cons_self]
      exact ih fun huse id hid => h huse id (List.mem_cons_of_mem _ hid)

theorem restoreMissingPeersOf_of_provisioned (hp : db.Provisioned u) (devices : List Device)
    (hd : ∀ d ∈ devices, d ∈ db.devices ∧ d.userId = u) :
    (restoreMissingPeersOf cfg devices db).2 = db := by
  induction devices with
  | nil => rfl
  | cons first rest ih =>
      show (restoreMissingPeersOf cfg rest (createPendingPeersForDevice cfg db first).2).2 = db
      obtain ⟨hmem, hu⟩ := hd first List.mem_cons_self
      have hone : (createPendingPeersForDevice cfg db first).2 = db := by
        apply createPendingPeersOn_of_has
        intro huse id hid
        obtain ⟨n, hn, rfl⟩ := List.mem_map.mp hid
        exact hp first hmem hu huse n hn
      rw [hone]
      exact ih fun d hd' => hd d (List.mem_cons_of_mem _ hd')

theorem restoreMissingPeersForUser_of_provisioned (hp : db.Provisioned u) :
    (restoreMissingPeersForUser cfg db u).2 = db := by
  apply restoreMissingPeersOf_of_provisioned hp
  intro d hd
  obtain ⟨hd, hu, -⟩ := mem_listLiveDevices.mp hd
  exact ⟨hd, hu⟩

end Frame

/-! ## One entry -/

section Entry

variable {cfg : Config} {u : UserId} {db db' : Db}

/-- What an import of the block flag leaves, on a collection that is complete
wherever the flag moves. -/
structure LifecycleSpec (u : UserId) (blocks : Bool) (db db' : Db) : Prop where
  agrees : db'.Agrees
  flag : db'.flag? u = some blocks
  same : blocks = true ∨ db.Provisioned u → SamePeers db db'
  provisioned : blocks = false → db'.Provisioned u

theorem applyRemnawaveLifecycle_spec (hwf : db.WF) (h : db.Agrees) {user : User}
    (hu : db.user? user.id = some user) {loaded : List PeerId}
    (hown : ∀ p ∈ db.peers, p.id ∈ loaded → p.userId = user.id) (item : RemnawaveUserIn)
    (now : Time)
    (hc : user.isBlocked = remnawaveBlocked item.status item.expireAt now ∨
      Complete user.id loaded db) :
    LifecycleSpec user.id (remnawaveBlocked item.status item.expireAt now) db
      (applyRemnawaveLifecycle cfg db user loaded item now).2 := by
  have hwrites := (applyRemnawaveLifecycle_writes (updates_of_user? hu) hown item now :
    Writes _ db (applyRemnawaveLifecycle cfg db user loaded item now).2)
  have hstored : db.flag? user.id = some user.isBlocked := by
    unfold Db.flag?
    rw [hu]
    rfl
  unfold applyRemnawaveLifecycle at hwrites ⊢
  generalize remnawaveBlocked item.status item.expireAt now = blocks at hc hwrites ⊢
  by_cases heq : user.isBlocked = blocks
  · dsimp only
    rw [if_pos heq]
    rw [heq] at hstored
    refine ⟨h, hstored, fun _ => .refl db, ?_⟩
    rintro rfl
    exact (h user.id).provisioned hstored
  · have hcomplete := hc.resolve_left heq
    dsimp only at hwrites ⊢
    rw [if_neg heq] at hwrites ⊢
    let saved := db.saveUser { user with isBlocked := blocks }
    have hnew : saved.flag? user.id = some blocks :=
      flag?_save { user with isBlocked := blocks } hu
    have hsaved : Complete user.id loaded saved := hcomplete
    cases blocks with
    | true =>
        rw [if_neg (by simp)] at hwrites ⊢
        exact ⟨h.of_owner hwf hwrites (agrees_block hnew hsaved), hnew,
          fun _ => samePeers_transition saved loaded true, fun hf => by cases hf⟩
    | false =>
        rw [if_pos (by simp)] at hwrites ⊢
        let moved := (transitionPeers saved loaded false).2
        have hadds : Adds user.id moved (restoreMissingPeersForUser cfg moved user.id).2 :=
          (restoreMissingPeersForUser_writes moved user.id).adds
        refine ⟨h.of_owner hwf hwrites (agrees_restore hnew hsaved),
          (hadds.flag? user.id).trans hnew, ?_, fun _ => provisioned_restore cfg moved user.id⟩
        rintro (hf | hprov)
        · cases hf
        · have hprov' : saved.Provisioned user.id := hprov
          have hnone : (restoreMissingPeersForUser cfg moved user.id).2 = moved :=
            restoreMissingPeersForUser_of_provisioned (provisioned_transition hprov')
          show SamePeers db (restoreMissingPeersForUser cfg moved user.id).2
          rw [hnone]
          exact samePeers_transition saved loaded false

theorem combinedLimit_flag? (row : RemnawaveUser) {b : Bool}
    (hf : db.flag? row.userId = some b) :
    (enforceRemnawaveCombinedLimit db row).2.flag? row.userId =
      some (b || remnawaveCombinedLimited row (loadLocalTotalBytes db row.userId)) := by
  unfold enforceRemnawaveCombinedLimit
  cases hlim : remnawaveCombinedLimited row (loadLocalTotalBytes db row.userId) with
  | false => simpa using hf
  | true =>
      obtain ⟨user, hu, -⟩ := Option.map_eq_some_iff.mp hf
      rw [hu]
      have hid : user.id = row.userId := Rows.key_of_get? hu
      rw [← hid] at hu ⊢
      rw [Bool.or_true]
      exact flag?_save { user with isBlocked := true } hu

/-- The profiles to disable remotely. -/
theorem enforceCombined_uuids (db : Db) (row : RemnawaveUser) :
    (enforceRemnawaveCombinedLimit db row).1.2 =
      if remnawaveCombinedLimited row (loadLocalTotalBytes db row.userId) = true ∧
        row.status ≠ "DISABLED" then [row.remnawaveUuid] else [] := by
  unfold enforceRemnawaveCombinedLimit
  cases remnawaveCombinedLimited row (loadLocalTotalBytes db row.userId) with
  | false => simp
  | true => cases db.user? row.userId <;> simp

theorem samePeers_combinedLimit (db : Db) (row : RemnawaveUser) :
    SamePeers db (enforceRemnawaveCombinedLimit db row).2 := by
  unfold enforceRemnawaveCombinedLimit
  split
  · exact .refl db
  cases db.user? row.userId with
  | none => exact .refl db
  | some user =>
      exact samePeers_transition (db.saveUser { user with isBlocked := true }) _ true

theorem samePeers_finish (st : UpsertState) (db : Db) (row : RemnawaveUser) (loaded : List PeerId)
    (created : List NodeId) (item : RemnawaveUserIn) (now : Time) :
    SamePeers db (finishUpsert st db row loaded created item now).db := by
  have hsaved : SamePeers db (db.saveProfile (applyRemnawaveProfile row item now)) := .refl db
  exact hsaved.trans (samePeers_combinedLimit _ _)

theorem agrees_finish (hwf : db.WF) (h : db.Agrees) {row : RemnawaveUser}
    (hr : row ∈ db.profiles) (st : UpsertState) (loaded : List PeerId) (created : List NodeId)
    (item : RemnawaveUserIn) (now : Time) :
    (finishUpsert st db row loaded created item now).db.Agrees := by
  have hsave : Writes Imports db (db.saveProfile (applyRemnawaveProfile row item now)) :=
    Writes.single (.profile _) trivial ⟨row, hr, rfl, rfl⟩
  exact (h.saveProfile hwf _).combinedLimit (hsave.wf hwf) _

/-- The flag an entry leaves. -/
theorem finish_flag? (st : UpsertState) (row : RemnawaveUser) (loaded : List PeerId)
    (created : List NodeId) (item : RemnawaveUserIn) (now : Time) {b : Bool}
    (hf : db.flag? row.userId = some b) :
    (finishUpsert st db row loaded created item now).db.flag? row.userId =
      some (b || remnawaveCombinedLimited (applyRemnawaveProfile row item now)
        (loadLocalTotalBytes db row.userId)) :=
  combinedLimit_flag? (applyRemnawaveProfile row item now) hf

end Entry

/-! ## The loop -/

section Loop

variable {cfg : Config} {base : Db} {now : Time} {restored : List String} {seg : Option Segment}
  {st st' : UpsertState}

/-- What `staleFlip` knows about the profile `uuid`: its account misses no
peer. -/
def Settled (base : Db) (restored : List String) (seg : Option Segment) (uuid : String) : Prop :=
  missesPeer base uuid = false ∨ uuid ∈ restored ∨
    (seg.any fun s => s.uuid = uuid && s.lifted) = true

/-- `staleFlip`, run on the batch so far, follows the loop from `base` to `st`. -/
structure Tracks (base : Db) (restored : List String) (seg : Option Segment) (st : UpsertState) :
    Prop where
  frame : ImportFrame base st.db
  kept : ∀ r ∈ base.profiles, ∃ q ∈ st.db.profiles, q.userId = r.userId ∧
    q.remnawaveUuid = r.remnawaveUuid
  settled : ∀ row ∈ st.db.profiles, Settled base restored seg row.remnawaveUuid →
    st.db.Provisioned row.userId
  held : ∀ uuid loaded, st.held = some (uuid, loaded) → ∃ s, seg = some s ∧ s.uuid = uuid
  flag : ∀ s, seg = some s → missesPeer base s.uuid = true → ∀ row ∈ st.db.profiles,
    row.remnawaveUuid = s.uuid → st.db.flag? row.userId = some s.flag
  complete : ∀ s loaded, seg = some s → st.held = some (s.uuid, loaded) →
    (missesPeer base s.uuid = false ∨ s.uuid ∈ restored ∨ s.lifted = false) →
    ∀ row ∈ st.db.profiles, row.remnawaveUuid = s.uuid → Complete row.userId loaded st.db

theorem find?_profile {db : Db} (hwf : db.WF) {row : RemnawaveUser} (hr : row ∈ db.profiles) :
    db.profiles.find? (·.remnawaveUuid = row.remnawaveUuid) = some row :=
  hwf.profileUuids.get?_eq_some hr

theorem provisioned_of_missesPeer {db : Db} (hwf : db.WF) {row : RemnawaveUser}
    (hr : row ∈ db.profiles) (h : missesPeer db row.remnawaveUuid = false) :
    db.Provisioned row.userId := by
  unfold missesPeer at h
  rw [find?_profile hwf hr] at h
  intro d hd hu huse n hn
  by_contra hnone
  refine Bool.eq_false_iff.mp h (List.any_eq_true.mpr ⟨d, hd, ?_⟩)
  have hany : (db.nodes.any fun n => !db.peers.any fun p => p.nodeId = n.id && p.deviceId = d.id) =
      true := by
    refine List.any_eq_true.mpr ⟨n, hn, ?_⟩
    rw [Bool.not_eq_true', List.any_eq_false]
    intro p hp hboth
    exact hnone ⟨p, hp, by simpa using hboth⟩
  rw [hany]
  simp [hu, huse.live, huse.key, huse.ip]

theorem Tracks.start (hwf : base.WF) : Tracks base [] none { db := base } := by
  refine ⟨.refl base, fun r hr => ⟨r, hr, rfl, rfl⟩, ?_, ?_, ?_, ?_⟩
  · intro row hr hset
    rcases hset with hmiss | hmem | hseg
    · exact provisioned_of_missesPeer hwf hr hmiss
    · cases hmem
    · cases hseg
  · intro uuid loaded hheld
    cases hheld
  · intro s hs
    cases hs
  · intro s loaded hs
    cases hs

/-- A profile that is missing a peer was there before the batch. -/
theorem Tracks.known (h : Tracks base restored seg st) {uuid : String}
    (hmiss : missesPeer base uuid = true) : ∃ q ∈ st.db.profiles, q.remnawaveUuid = uuid := by
  obtain ⟨r, hr, -⟩ := (Option.any_eq_true _ _).mp hmiss
  obtain ⟨q, hq, -, huuid⟩ := h.kept r (List.mem_of_find?_eq_some hr)
  exact ⟨q, hq, huuid.trans (by simpa using List.find?_some hr)⟩

/-- What is settled for the next entry was settled before it, unless the entry
itself lifts the profile's block. -/
theorem settled_of_next {item : RemnawaveUserIn} {uuid : String}
    (h : Settled base (restoredBefore restored seg item) (some (Segment.next base now seg item))
      uuid) :
    Settled base restored seg uuid ∨
      (uuid = item.uuid ∧ remnawaveBlocked item.status item.expireAt now = false) := by
  rcases h with hmiss | hmem | hseg
  · exact .inl (.inl hmiss)
  · unfold restoredBefore at hmem
    split at hmem
    · exact .inl (.inr (.inl hmem))
    · next s =>
        split at hmem
        · next hclosed =>
            rcases List.mem_cons.mp hmem with rfl | hmem
            · exact .inl (.inr (.inr (by simp [hclosed.2])))
            · exact .inl (.inr (.inl hmem))
        · exact .inl (.inr (.inl hmem))
  · simp only [Segment.next, Option.any_some, Bool.and_eq_true, decide_eq_true_eq,
      Bool.or_eq_true, Bool.not_eq_true'] at hseg
    obtain ⟨rfl, hlift | hfree⟩ := hseg
    · exact .inl (.inr (.inr hlift))
    · exact .inr ⟨rfl, hfree⟩

/-- A profile of the tables after import writes was there before, or its
account is new and has no devices. -/
theorem profiles_back {db db' : Db} (hwf : db.WF) (h : Writes Imports db db') :
    ∀ q ∈ db'.profiles, (∃ r ∈ db.profiles, r.userId = q.userId ∧
      r.remnawaveUuid = q.remnawaveUuid) ∨ ∀ d ∈ db.devices, d.userId ≠ q.userId := by
  let I : Db → Prop := fun b => b.WF ∧ b.devices = db.devices ∧
    ∀ q ∈ b.profiles, (∃ r ∈ db.profiles, r.userId = q.userId ∧
      r.remnawaveUuid = q.remnawaveUuid) ∨ ∀ d ∈ db.devices, d.userId ≠ q.userId
  have hstep : ∀ b w, Imports b w → w.Ok b → I b → I (w.apply b) := by
    rintro b w hP hok ⟨hb, hdev, hback⟩
    have hwf' := Write.apply_wf hb w hok
    cases w with
    | profile row =>
        refine ⟨hwf', hdev, fun q hq => ?_⟩
        rcases Rows.mem_save.mp hq with ⟨rfl, -⟩ | ⟨hq, -⟩
        · obtain ⟨old, hold, huser, huuid⟩ := hok
          rw [← huser, ← huuid]
          exact hback old hold
        · exact hback q hq
    | newImport row imported =>
        refine ⟨hwf', hdev, fun q hq => ?_⟩
        rcases List.mem_append.mp hq with hq | hq
        · exact hback q hq
        · right
          rw [List.mem_singleton.mp hq, hok.2.1, ← hdev]
          intro d hd heq
          obtain ⟨v, hv, hvid⟩ := hb.deviceOwner d hd
          exact hb.userFresh.ne hok.1.id v hv (hvid.trans heq)
    | user row => exact ⟨hwf', hdev, hback⟩
    | peers f => exact ⟨hwf', hdev, hback⟩
    | newPeer row => exact ⟨hwf', hdev, hback⟩
    | _ =>
        obtain ⟨_, _, h⟩ := hP
        exact h.elim
  exact (h.keeps hstep ⟨hwf, rfl, fun q hq => .inl ⟨q, hq, rfl, rfl⟩⟩).2.2

/-- The next state is tracked once its own profile is. -/
theorem Tracks.next (hwf : st.db.WF) (h : Tracks base restored seg st) {item : RemnawaveUserIn}
    {loaded : List PeerId} {row : RemnawaveUser} (hw : Writes Imports st.db st'.db)
    (hrow : row ∈ st'.db.profiles) (huuid : row.remnawaveUuid = item.uuid)
    (hheld : st'.held = some (item.uuid, loaded))
    (hlift : remnawaveBlocked item.status item.expireAt now = false →
      st'.db.Provisioned row.userId)
    (hflag : missesPeer base item.uuid = true →
      st'.db.flag? row.userId = some (Segment.next base now seg item).flag)
    (hcomplete : (missesPeer base item.uuid = false ∨
        item.uuid ∈ restoredBefore restored seg item ∨
        (Segment.next base now seg item).lifted = false) →
      Complete row.userId loaded st'.db) :
    Tracks base (restoredBefore restored seg item) (some (Segment.next base now seg item)) st' := by
  have hwf' := hw.wf hwf
  have honly : ∀ q ∈ st'.db.profiles, q.remnawaveUuid = item.uuid → q = row :=
    fun q hq hqu => hwf'.profileUuids.eq_of_key hq hrow (hqu.trans huuid.symm)
  refine ⟨h.frame.trans hw.importFrame, ?_, ?_, ?_, ?_, ?_⟩
  · intro r hr
    obtain ⟨q, hq, hqu, hquuid⟩ := h.kept r hr
    obtain ⟨q', hq', hqu', hquuid'⟩ := profile_kept hwf ⟨q, hq, rfl, rfl⟩ hw
    exact ⟨q', hq', hqu'.trans hqu, hquuid'.trans hquuid⟩
  · intro q hq hset
    rcases settled_of_next hset with hset | ⟨hqu, hfree⟩
    · rcases profiles_back hwf hw q hq with ⟨r, hr, hru, hruuid⟩ | hnew
      · rw [← hru]
        rw [← hruuid] at hset
        exact hw.importFrame.provisioned (h.settled r hr hset)
      · intro d hd hdu
        rw [hw.importFrame.devices] at hd
        exact absurd hdu (hnew d hd)
    · rw [honly q hq hqu]
      exact hlift hfree
  · intro uuid loaded' hh
    rw [hheld] at hh
    cases hh
    exact ⟨_, rfl, rfl⟩
  · intro s hs hmiss q hq hqu
    cases hs
    rw [honly q hq hqu]
    exact hflag hmiss
  · intro s loaded' hs hh hor q hq hqu
    cases hs
    rw [hheld] at hh
    cases hh
    rw [honly q hq hqu]
    exact hcomplete hor

theorem mem_of_restoredBefore {item : RemnawaveUserIn}
    (h : item.uuid ∈ restoredBefore restored seg item) : item.uuid ∈ restored := by
  unfold restoredBefore at h
  split at h
  · exact h
  · split at h
    · next hclosed => exact (List.mem_cons.mp h).resolve_left fun heq => hclosed.1 heq.symm
    · exact h

/-- The collection an entry works on is complete, unless its segment already
gave the account peers it was missing. -/
theorem Tracks.loaded_complete (hwf : st.db.WF) (h : Tracks base restored seg st)
    {row : RemnawaveUser} (hr : row ∈ st.db.profiles)
    (hcond : missesPeer base row.remnawaveUuid = false ∨ row.remnawaveUuid ∈ restored ∨
      (seg.any fun s => s.uuid = row.remnawaveUuid && s.lifted) = false) :
    Complete row.userId (st.loadedPeers row.remnawaveUuid row.userId) st.db := by
  unfold UpsertState.loadedPeers
  cases hheld : st.held with
  | none => exact complete_loadPeers hwf row.userId
  | some pair =>
      obtain ⟨uuid, loaded⟩ := pair
      show Complete row.userId (if uuid = row.remnawaveUuid then loaded else _) st.db
      split
      · next heq =>
          subst heq
          obtain ⟨s, hs, hsu⟩ := h.held _ loaded hheld
          rw [← hsu] at hheld hcond
          refine h.complete s loaded hs hheld ?_ row hr hsu.symm
          rw [hs] at hcond
          simpa using hcond
      · exact complete_loadPeers hwf row.userId

/-- The entry leaves the flag alone, or its collection is complete. -/
theorem Tracks.flip_complete (hwf : st.db.WF) (h : Tracks base restored seg st)
    {row : RemnawaveUser} (hr : row ∈ st.db.profiles) {blocks : Bool} {user : User}
    (hu : st.db.user? row.userId = some user)
    (hstale : (missesPeer base row.remnawaveUuid && row.remnawaveUuid ∉ restored && seg.any fun s =>
      s.uuid = row.remnawaveUuid && s.lifted && s.flag ≠ blocks) = false) :
    user.isBlocked = blocks ∨
      Complete row.userId (st.loadedPeers row.remnawaveUuid row.userId) st.db := by
  by_cases hcond : missesPeer base row.remnawaveUuid = false ∨ row.remnawaveUuid ∈ restored ∨
      (seg.any fun s => s.uuid = row.remnawaveUuid && s.lifted) = false
  · exact .inr (h.loaded_complete hwf hr hcond)
  · simp only [not_or, Bool.not_eq_false] at hcond
    obtain ⟨hmiss, hnot, hseg⟩ := hcond
    obtain ⟨s, rfl, hboth⟩ := (Option.any_eq_true _ _).mp hseg
    simp only [Bool.and_eq_true, decide_eq_true_eq] at hboth
    obtain ⟨hsu, hlift⟩ := hboth
    have hflag := h.flag s rfl (by rw [hsu]; exact hmiss) row hr hsu.symm
    unfold Db.flag? at hflag
    rw [hu] at hflag
    left
    have heq : s.flag = blocks := by simpa [hmiss, hnot, hsu, hlift] using hstale
    exact (Option.some.inj hflag).trans heq

/-- One entry of the batch. -/
theorem upsertItem_agrees (hwf : st.db.WF) (hheld : st.HeldOk) (h : Tracks base restored seg st)
    (hag : st.db.Agrees) {item : RemnawaveUserIn} (hok : upsertItem cfg st item now = some st')
    (hstale : (missesPeer base item.uuid && item.uuid ∉ restored && seg.any fun s =>
      s.uuid = item.uuid && s.lifted &&
        s.flag ≠ remnawaveBlocked item.status item.expireAt now) = false) :
    st'.db.Agrees ∧ Tracks base (restoredBefore restored seg item)
      (some (Segment.next base now seg item)) st' := by
  have hwrites := (upsertItem_writes hwf hheld hok).1
  cases upsertItem_step hwf hheld hok with
  | @created user row hp huuid hnew _ =>
      obtain ⟨hw, hmem⟩ := newImport_writes hnew
      have hwf₁ := hw.wf hwf
      have hag₁ : (Write.apply st.db (.newImport user row)).Agrees :=
        fun v => Keeps.apply (w := .newImport user row) hwf (hag v) trivial hnew
      refine ⟨agrees_finish hwf₁ hag₁ hmem st _ _ item now, h.next hwf hwrites
        (finishUpsert_mem hwf₁ hmem st _ _ item now) huuid rfl ?_ ?_ ?_⟩
      · -- the account is new: it has no devices
        intro _ d hd hdu
        rw [hwrites.importFrame.devices] at hd
        obtain ⟨v, hv, hvid⟩ := hwf.deviceOwner d hd
        exact absurd (hvid.trans (hdu.trans hnew.2.1)) (hwf.userFresh.ne hnew.1.id v hv)
      · intro hmiss
        obtain ⟨q, hq, hqu⟩ := h.known hmiss
        exact absurd hqu (by simpa using List.find?_eq_none.mp hp q hq)
      · intro _
        exact (samePeers_finish st _ row _ _ item now).complete
          (complete_loadPeers hwf₁ row.userId)
  | @updated user row hr huuid hu hown =>
      have hid : user.id = row.userId := Rows.key_of_get? hu
      rw [← huuid] at hstale
      have hcond := h.flip_complete hwf hr hu hstale
      rw [huuid] at hcond
      generalize hloaded : st.loadedPeers item.uuid row.userId = loaded at *
      have hlife := Writes.imports ⟨row, hr, hid.symm⟩ (hown.lifecycle_writes cfg hu item now)
      have hspec : LifecycleSpec row.userId (remnawaveBlocked item.status item.expireAt now) st.db
          (applyRemnawaveLifecycle cfg st.db user loaded item now).2 := by
        rw [← hid] at hu hcond hown ⊢
        exact applyRemnawaveLifecycle_spec hwf hag hu hown.1 item now hcond
      have hwf₁ := hlife.1.wf hwf
      have hr₁ : row ∈ (applyRemnawaveLifecycle cfg st.db user loaded item now).2.profiles := by
        rw [hlife.2]
        exact hr
      have hfinish := finishUpsert_writes hwf₁ hr₁ st loaded
        (applyRemnawaveLifecycle cfg st.db user loaded item now).1 item now
      refine ⟨agrees_finish hwf₁ hspec.agrees hr₁ st _ _ item now, h.next hwf hwrites
        (finishUpsert_mem hwf₁ hr₁ st _ _ item now) huuid rfl ?_ ?_ ?_⟩
      · exact fun hfree => hfinish.importFrame.provisioned (hspec.provisioned hfree)
      · intro hmiss
        obtain ⟨r₀, hr₀, -⟩ := (Option.any_eq_true _ _).mp hmiss
        obtain ⟨q, hq, hqu, hquuid⟩ := h.kept r₀ (List.mem_of_find?_eq_some hr₀)
        have hr₀uuid : r₀.remnawaveUuid = item.uuid := by simpa using List.find?_some hr₀
        have hqrow : q = row :=
          hwf.profileUuids.eq_of_key hq hr (hquuid.trans (hr₀uuid.trans huuid.symm))
        rw [hqrow] at hqu
        have hlimits : importLimits base now item =
            remnawaveCombinedLimited (applyRemnawaveProfile row item now)
              (loadLocalTotalBytes (applyRemnawaveLifecycle cfg st.db user loaded item now).2
                row.userId) := by
          unfold importLimits
          rw [hr₀, Option.any_some, hlife.1.importFrame.total, h.frame.total, hqu]
          rfl
        have hflag := finish_flag? st row loaded
          (applyRemnawaveLifecycle cfg st.db user loaded item now).1 item now hspec.flag
        rw [← hlimits] at hflag
        exact hflag
      · intro hor
        have hcomplete : Complete row.userId loaded st.db := by
          rw [← hloaded, ← huuid]
          refine h.loaded_complete hwf hr ?_
          rw [huuid]
          rcases hor with hmiss | hmem | hlift
          · exact .inl hmiss
          · exact .inr (.inl (mem_of_restoredBefore hmem))
          · exact .inr (.inr (Bool.or_eq_false_iff.mp hlift).1)
        refine ((hspec.same ?_).trans (samePeers_finish st _ row _ _ item now)).complete hcomplete
        rcases hor with hmiss | hmem | hlift
        · exact .inr (h.settled row hr (.inl (huuid ▸ hmiss)))
        · exact .inr (h.settled row hr (.inr (.inl (huuid ▸ mem_of_restoredBefore hmem))))
        · exact .inl (by simpa using (Bool.or_eq_false_iff.mp hlift).2)

/-- A batch without a stale flip keeps the agreement. -/
theorem upsertItems_agrees (items : List RemnawaveUserIn) :
    ∀ {restored : List String} {seg : Option Segment} {st st' : UpsertState}, st.db.WF →
      st.HeldOk → Tracks base restored seg st → st.db.Agrees →
      upsertItems cfg now items st = some st' → staleFlip base now restored seg items = false →
      st'.db.Agrees := by
  induction items with
  | nil =>
      intro restored seg st st' _ _ _ hag hok _
      cases hok
      exact hag
  | cons item rest ih =>
      intro restored seg st st' hwf hheld h hag hok hstale
      obtain ⟨st₁, h₁, hok⟩ := Option.bind_eq_some_iff.mp hok
      obtain ⟨hnow, hlater⟩ := Bool.or_eq_false_iff.mp hstale
      obtain ⟨hw, hheld₁⟩ := upsertItem_writes hwf hheld h₁
      obtain ⟨hag₁, htracks⟩ := upsertItem_agrees hwf hheld h hag h₁ hnow
      exact ih (hw.wf hwf) hheld₁ htracks hag₁ hok hlater

end Loop

end VpnPanel.Backend
