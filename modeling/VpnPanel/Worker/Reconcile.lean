import VpnPanel.Backend.Tables

/-!
# Applying a snapshot

`_apply_snapshot` and its helpers of `worker/app/handlers.py`: the split of a
snapshot into wanted and unwanted peers, the comparison with what the agent
reports, and the requests that follow. The agent's peer table is changed by
`PUT /peers` and `DELETE /peers` as `awg set` does.
-/

namespace VpnPanel.Worker

open VpnPanel.Lib VpnPanel.Backend

/-! ## The snapshot -/

/-- The rows behind a snapshot entry. -/
theorem mem_nodeSnapshot {db : Db} (hwf : db.WF) {node : Node} {x : PeerPayload} :
    x ∈ (nodeSnapshot db node).peers ↔
      ∃ p ∈ db.peers, p.nodeId = node.id ∧ ∃ u ∈ db.users, u.id = p.userId ∧
        ∃ d ∈ db.devices, d.id = p.deviceId ∧ d.userId = p.userId ∧
          d.publicKey = some x.publicKey ∧ x.publicKey ≠ "" ∧ d.vpnIp = some x.allowedIp ∧
          x.allowedIp ≠ "" ∧ x = {
            peerId := p.id, userId := u.id, userName := u.name, deviceId := d.id,
            deviceName := d.name, publicKey := x.publicKey, allowedIp := x.allowedIp,
            pskKey := p.pskKey.getD "", status := p.status, isBlocked := u.isBlocked } := by
  show x ∈ (db.peersOfNode node.id).filterMap (peerPayload db) ↔ _
  rw [List.mem_filterMap]
  constructor
  · rintro ⟨p, hp, hx⟩
    obtain ⟨hp, hnode⟩ := List.mem_filter.mp hp
    unfold peerPayload at hx
    obtain ⟨u, hu, hx⟩ := Option.bind_eq_some_iff.mp hx
    obtain ⟨d, hd, hx⟩ := Option.bind_eq_some_iff.mp hx
    split at hx
    · next hready =>
        rw [Bool.and_eq_true] at hready
        obtain ⟨k, hk, hkne⟩ := truthy_iff.mp hready.1
        obtain ⟨a, ha, hane⟩ := truthy_iff.mp hready.2
        have hdid : d.id = p.deviceId := Rows.key_of_get? hd
        have hdmem : d ∈ db.devices := Rows.mem_of_get? hd
        obtain ⟨d', hd', hd'id, hd'user⟩ := hwf.peerDevice p hp
        have : d' = d := hwf.device_eq hd' hdmem (hd'id.trans hdid.symm)
        subst this
        cases hx
        refine ⟨p, hp, by simpa using hnode, u, Rows.mem_of_get? hu, Rows.key_of_get? hu, d', hd',
          hd'id, hd'user, ?_, ?_, ?_, ?_, rfl⟩
        · simp [hk]
        · simpa [hk] using hkne
        · simp [ha]
        · simpa [ha] using hane
    · cases hx
  · rintro ⟨p, hp, hnode, u, hu, huid, d, hd, hdid, -, hk, hkne, ha, hane, hx⟩
    refine ⟨p, List.mem_filter.mpr ⟨hp, by simpa using hnode⟩, ?_⟩
    have hu' : db.user? p.userId = some u := huid ▸ hwf.userIds.get?_eq_some hu
    have hd' : db.device? p.deviceId = some d := hdid ▸ hwf.device?_of_mem hd
    have hready : (truthy d.publicKey && truthy d.vpnIp) = true := by
      rw [Bool.and_eq_true]
      exact ⟨truthy_iff.mpr ⟨_, hk, hkne⟩, truthy_iff.mpr ⟨_, ha, hane⟩⟩
    unfold peerPayload
    rw [hu', Option.bind_some, hd', Option.bind_some, if_pos hready, hk, ha]
    exact congrArg some hx.symm

/-! ## Split -/

/-- An entry of `active_peers`. -/
structure DesiredPeer where
  publicKey : String
  allowedIp : String
  pskKey : String
  name : String
  deriving DecidableEq, Repr

/-- The wanted peer of a payload. -/
def desiredPeer (peer : PeerPayload) : DesiredPeer where
  publicKey := peer.publicKey
  allowedIp := peer.allowedIp
  pskKey := peer.pskKey
  name := if peer.userName ≠ "" then peer.userName else s!"{peer.userId}"

/-- The condition under which `_split_peers` lists a key for removal. -/
def unwanted (peer : PeerPayload) : Bool := peer.status = .pendingDelete || peer.isBlocked

/-- `_split_peers`: the wanted peers and the keys to delete. -/
def splitPeers : List PeerPayload → List DesiredPeer × List String
  | [] => ([], [])
  | peer :: rest =>
      let (active, delete) := splitPeers rest
      if peer.publicKey = "" then (active, delete)
      else if unwanted peer then (active, peer.publicKey :: delete)
      else (desiredPeer peer :: active, delete)

theorem mem_splitPeers_active {peers : List PeerPayload} {x : DesiredPeer} :
    x ∈ (splitPeers peers).1 ↔
      ∃ p ∈ peers, p.publicKey ≠ "" ∧ unwanted p = false ∧ x = desiredPeer p := by
  induction peers with
  | nil => simp [splitPeers]
  | cons p rest ih =>
      unfold splitPeers
      dsimp only
      split
      · next hkey =>
          rw [ih]
          simp [hkey]
      · next hkey =>
          split
          · next hun =>
              rw [ih]
              simp [hun]
          · next hun =>
              rw [List.mem_cons, ih]
              simp [hkey, hun]

theorem mem_splitPeers_delete {peers : List PeerPayload} {key : String} :
    key ∈ (splitPeers peers).2 ↔
      ∃ p ∈ peers, p.publicKey ≠ "" ∧ unwanted p = true ∧ key = p.publicKey := by
  induction peers with
  | nil => simp [splitPeers]
  | cons p rest ih =>
      unfold splitPeers
      dsimp only
      split
      · next hkey =>
          rw [ih]
          simp [hkey]
      · next hkey =>
          split
          · next hun =>
              rw [List.mem_cons, ih]
              simp [hkey, hun]
          · next hun =>
              rw [ih]
              simp [hun]

/-! ## Compare with the agent -/

/-- A peer as the agent's `/status` reports it. -/
structure CurrentPeer where
  publicKey : String
  allowedIps : List String := []
  pskKey : String := ""
  deriving DecidableEq, Repr

/-- `current_peers.get(key)`; the last entry of a key wins. -/
def currentPeer? (status : List CurrentPeer) (key : String) : Option CurrentPeer :=
  (status.filter (·.publicKey ≠ "")).reverse.find? (·.publicKey = key)

/-- The white space `str.strip` removes. -/
def isSpace (c : Char) : Bool :=
  let n := c.toNat
  (9 ≤ n && n ≤ 13) || (28 ≤ n && n ≤ 32) || n = 0x85 || n = 0xa0 || n = 0x1680 ||
    (0x2000 ≤ n && n ≤ 0x200a) || n = 0x2028 || n = 0x2029 || n = 0x202f || n = 0x205f ||
    n = 0x3000

/-- `str.strip`. -/
def strip (text : String) : String :=
  String.ofList ((text.toList.dropWhile isSpace).reverse.dropWhile isSpace).reverse

/-- `_desired_allowed_ips`. -/
def desiredAllowedIps (desired : DesiredPeer) : List String :=
  let allowedIp := strip desired.allowedIp
  if allowedIp = "" then [] else [s!"{allowedIp}/32"]

/-- `_peer_matches_current`. -/
def peerMatchesCurrent (desired : DesiredPeer) (current : Option CurrentPeer) : Bool :=
  match current with
  | none => false
  | some current =>
      current.allowedIps.insertionSort (· ≤ ·) = desiredAllowedIps desired &&
        current.pskKey = desired.pskKey

/-- `_reconcile_peers`: the peers to put and the keys to delete now. -/
def reconcilePeers (active : List DesiredPeer) (delete : List String)
    (status : List CurrentPeer) : List DesiredPeer × List String :=
  (active.filter fun peer => !peerMatchesCurrent peer (currentPeer? status peer.publicKey),
    delete.filter fun key => (currentPeer? status key).isSome)

/-- What one application of `peers` asks of an agent that reports `status`. -/
def plan (peers : List PeerPayload) (status : List CurrentPeer) : List DesiredPeer × List String :=
  let (active, delete) := splitPeers peers
  reconcilePeers active delete status

/-- An agent that reports nothing is sent every wanted peer. -/
theorem plan_nil (peers : List PeerPayload) : (plan peers []).1 = (splitPeers peers).1 := by
  unfold plan reconcilePeers
  dsimp only
  rw [List.filter_eq_self]
  intro x _
  rfl

theorem mem_plan_put {peers : List PeerPayload} {status : List CurrentPeer} {x : DesiredPeer}
    (h : x ∈ (plan peers status).1) : x ∈ (splitPeers peers).1 := (List.mem_filter.mp h).1

/-! ## The agent's table -/

/-- `PUT /peers`: the peer gets exactly this address, taken from any other. -/
def putPeer (table : List CurrentPeer) (desired : DesiredPeer) : List CurrentPeer :=
  let address := s!"{desired.allowedIp}/32"
  let row : CurrentPeer := ⟨desired.publicKey, [address], desired.pskKey⟩
  let table := table.map fun p =>
    if p.publicKey = desired.publicKey then row
    else { p with allowedIps := p.allowedIps.filter (· ≠ address) }
  if table.any (·.publicKey = desired.publicKey) then table else table ++ [row]

/-- `DELETE /peers/{key}`. -/
def deletePeer (table : List CurrentPeer) (key : String) : List CurrentPeer :=
  table.filter (·.publicKey ≠ key)

/-- The requests of one application, in order: the puts, then the deletes. -/
def runPlan (table : List CurrentPeer) (puts : List DesiredPeer) (deletes : List String) :
    List CurrentPeer :=
  deletes.foldl deletePeer (puts.foldl putPeer table)

/-- `_apply_snapshot` on an agent that answers every request. -/
def applySnapshot (table : List CurrentPeer) (peers : List PeerPayload) : List CurrentPeer :=
  let (puts, deletes) := plan peers table
  runPlan table puts deletes

/-- `_apply_snapshot` cut short after some of its requests. -/
def applyPartly (table : List CurrentPeer) (peers : List PeerPayload) (requests : Nat) :
    List CurrentPeer :=
  let (puts, deletes) := plan peers table
  runPlan table (puts.take requests) (deletes.take (requests - puts.length))

/-! ## What an application leaves on the node -/

/-- The node has the key. -/
def Installed (table : List CurrentPeer) (key : String) : Prop := ∃ x ∈ table, x.publicKey = key

/-- The node routes the address to the key. -/
def Routes (table : List CurrentPeer) (key ip : String) : Prop :=
  ∃ x ∈ table, x.publicKey = key ∧ ip ∈ x.allowedIps

instance (table : List CurrentPeer) (key : String) : Decidable (Installed table key) := by
  unfold Installed
  infer_instance

variable {table : List CurrentPeer} {key ip : String}

/-- The entries after a put: the peer's own, and the others less its address. -/
theorem mem_putPeer {y : DesiredPeer} {x : CurrentPeer} (h : x ∈ putPeer table y) :
    (x.publicKey = y.publicKey ∧ x.allowedIps = [s!"{y.allowedIp}/32"]) ∨
      ∃ old ∈ table, old.publicKey = x.publicKey ∧ ∀ ip ∈ x.allowedIps, ip ∈ old.allowedIps := by
  have hold : ∀ z ∈ table.map (fun p => if p.publicKey = y.publicKey then
      (⟨y.publicKey, [s!"{y.allowedIp}/32"], y.pskKey⟩ : CurrentPeer)
      else { p with allowedIps := p.allowedIps.filter (· ≠ s!"{y.allowedIp}/32") }),
      (z.publicKey = y.publicKey ∧ z.allowedIps = [s!"{y.allowedIp}/32"]) ∨
        ∃ old ∈ table, old.publicKey = z.publicKey ∧ ∀ ip ∈ z.allowedIps, ip ∈ old.allowedIps := by
    intro z hz
    obtain ⟨old, hold, rfl⟩ := List.mem_map.mp hz
    split
    · exact .inl ⟨rfl, rfl⟩
    · exact .inr ⟨old, hold, rfl, fun ip hip => (List.mem_filter.mp hip).1⟩
  unfold putPeer at h
  dsimp only at h
  split at h
  · exact hold x h
  · rcases List.mem_append.mp h with h | h
    · exact hold x h
    · rw [List.mem_singleton.mp h]
      exact .inl ⟨rfl, rfl⟩

theorem installed_putPeer {y : DesiredPeer} :
    Installed (putPeer table y) key ↔ Installed table key ∨ y.publicKey = key := by
  constructor
  · rintro ⟨x, hx, rfl⟩
    rcases mem_putPeer hx with ⟨hkey, -⟩ | ⟨old, hold, hkey, -⟩
    · exact .inr hkey.symm
    · exact .inl ⟨old, hold, hkey⟩
  · intro h
    unfold putPeer
    dsimp only
    rcases h with ⟨old, hold, rfl⟩ | rfl
    · -- an entry keeps its key in place
      have hkept : Installed (table.map fun p => if p.publicKey = y.publicKey then
          (⟨y.publicKey, [s!"{y.allowedIp}/32"], y.pskKey⟩ : CurrentPeer)
          else { p with allowedIps := p.allowedIps.filter (· ≠ s!"{y.allowedIp}/32") })
          old.publicKey := by
        refine ⟨_, List.mem_map_of_mem hold, ?_⟩
        split
        · next hkey => exact hkey.symm
        · rfl
      obtain ⟨x, hx, hkey⟩ := hkept
      split
      · exact ⟨x, hx, hkey⟩
      · exact ⟨x, List.mem_append_left _ hx, hkey⟩
    · split
      · next hany =>
          obtain ⟨x, hx, hkey⟩ := List.any_eq_true.mp hany
          exact ⟨x, hx, of_decide_eq_true hkey⟩
      · exact ⟨_, List.mem_append_right _ List.mem_cons_self, rfl⟩

theorem routes_putPeer {y : DesiredPeer} (h : Routes (putPeer table y) key ip) :
    Routes table key ip ∨ y.publicKey = key ∧ ip = s!"{y.allowedIp}/32" := by
  obtain ⟨x, hx, rfl, hip⟩ := h
  rcases mem_putPeer hx with ⟨hkey, hips⟩ | ⟨old, hold, hkey, hips⟩
  · rw [hips] at hip
    exact .inr ⟨hkey.symm, List.mem_singleton.mp hip⟩
  · exact .inl ⟨old, hold, hkey, hips ip hip⟩

theorem installed_runPlan {puts : List DesiredPeer} {deletes : List String} :
    Installed (runPlan table puts deletes) key ↔
      (Installed table key ∨ ∃ y ∈ puts, y.publicKey = key) ∧ key ∉ deletes := by
  have hdeletes : ∀ (deletes : List String) (table : List CurrentPeer),
      Installed (deletes.foldl deletePeer table) key ↔ Installed table key ∧ key ∉ deletes := by
    intro deletes
    induction deletes with
    | nil => simp
    | cons k rest ih =>
        intro table
        rw [List.foldl_cons, ih]
        simp only [Installed, deletePeer, List.mem_filter, decide_eq_true_eq, List.mem_cons]
        grind
  have hputs : ∀ (puts : List DesiredPeer) (table : List CurrentPeer),
      Installed (puts.foldl putPeer table) key ↔
        Installed table key ∨ ∃ y ∈ puts, y.publicKey = key := by
    intro puts
    induction puts with
    | nil => simp
    | cons y rest ih =>
        intro table
        rw [List.foldl_cons, ih, installed_putPeer]
        simp only [List.mem_cons]
        grind
  unfold runPlan
  rw [hdeletes, hputs]

theorem routes_runPlan {puts : List DesiredPeer} (deletes : List String)
    (h : Routes (runPlan table puts deletes) key ip) :
    Routes table key ip ∨ ∃ y ∈ puts, y.publicKey = key ∧ ip = s!"{y.allowedIp}/32" := by
  have hdeletes : ∀ (deletes : List String) (table : List CurrentPeer),
      Routes (deletes.foldl deletePeer table) key ip → Routes table key ip := by
    intro deletes
    induction deletes with
    | nil => exact fun _ h => h
    | cons k rest ih =>
        intro table h
        obtain ⟨x, hx, h⟩ := ih _ h
        exact ⟨x, (List.mem_filter.mp hx).1, h⟩
  have hputs : ∀ (puts : List DesiredPeer) (table : List CurrentPeer),
      Routes (puts.foldl putPeer table) key ip →
        Routes table key ip ∨ ∃ y ∈ puts, y.publicKey = key ∧ ip = s!"{y.allowedIp}/32" := by
    intro puts
    induction puts with
    | nil => exact fun _ h => .inl h
    | cons y rest ih =>
        intro table h
        rcases ih _ h with h | ⟨z, hz, h⟩
        · rcases routes_putPeer h with h | h
          · exact .inl h
          · exact .inr ⟨y, List.mem_cons_self, h⟩
        · exact .inr ⟨z, List.mem_cons_of_mem _ hz, h⟩
  exact hputs puts table (hdeletes deletes _ h)

/-- A partial application routes only what the node had and what the snapshot
wants; so does a complete one. -/
theorem routes_applyPartly {peers : List PeerPayload} {requests : Nat}
    (h : Routes (applyPartly table peers requests) key ip) :
    Routes table key ip ∨
      ∃ y ∈ (splitPeers peers).1, y.publicKey = key ∧ ip = s!"{y.allowedIp}/32" := by
  rcases routes_runPlan _ h with h | ⟨y, hy, h⟩
  · exact .inl h
  · exact .inr ⟨y, mem_plan_put (List.mem_of_mem_take hy), h⟩

theorem routes_applySnapshot {peers : List PeerPayload}
    (h : Routes (applySnapshot table peers) key ip) :
    Routes table key ip ∨
      ∃ y ∈ (splitPeers peers).1, y.publicKey = key ∧ ip = s!"{y.allowedIp}/32" := by
  rcases routes_runPlan _ h with h | ⟨y, hy, h⟩
  · exact .inl h
  · exact .inr ⟨y, mem_plan_put hy, h⟩

/-- Even a partial application leaves a key the snapshot does not remove. -/
theorem Installed.applyPartly {peers : List PeerPayload} (h : Installed table key)
    (hkeep : key ∉ (splitPeers peers).2) (requests : Nat) :
    Installed (applyPartly table peers requests) key := by
  refine installed_runPlan.mpr ⟨.inl h, fun hdel => hkeep ?_⟩
  exact (List.mem_filter.mp (List.mem_of_mem_take hdel)).1

theorem currentPeer?_isSome (hne : key ≠ "") :
    (currentPeer? table key).isSome ↔ Installed table key := by
  unfold currentPeer? Installed
  rw [List.find?_isSome]
  simp only [List.mem_reverse, List.mem_filter, decide_eq_true_eq]
  grind

/-- What a complete application leaves: an installed key goes exactly when the
snapshot lists it for removal, and a missing one comes when it is wanted. -/
theorem installed_applySnapshot {peers : List PeerPayload} :
    Installed (applySnapshot table peers) key ↔
      if Installed table key then key ∉ (splitPeers peers).2
      else ∃ y ∈ (splitPeers peers).1, y.publicKey = key := by
  have hdelete : key ∈ (plan peers table).2 ↔
      key ∈ (splitPeers peers).2 ∧ Installed table key := by
    refine List.mem_filter.trans (and_congr_right fun hkey => ?_)
    obtain ⟨p, -, hne, -, rfl⟩ := mem_splitPeers_delete.mp hkey
    exact currentPeer?_isSome hne
  show Installed (runPlan table (plan peers table).1 (plan peers table).2) key ↔ _
  rw [installed_runPlan, hdelete]
  split
  · next hin => simp [hin]
  · next hout =>
      have hputs : (∃ y ∈ (plan peers table).1, y.publicKey = key) ↔
          ∃ y ∈ (splitPeers peers).1, y.publicKey = key := by
        constructor
        · rintro ⟨y, hy, hkey⟩
          exact ⟨y, mem_plan_put hy, hkey⟩
        · rintro ⟨y, hy, rfl⟩
          refine ⟨y, List.mem_filter.mpr ⟨hy, ?_⟩, rfl⟩
          obtain ⟨p, -, hne, -, rfl⟩ := mem_splitPeers_active.mp hy
          have hnone : currentPeer? table (desiredPeer p).publicKey = none :=
            Option.not_isSome_iff_eq_none.mp fun h => hout ((currentPeer?_isSome hne).mp h)
          rw [hnone]
          rfl
      simp [hout, hputs]

end VpnPanel.Worker
