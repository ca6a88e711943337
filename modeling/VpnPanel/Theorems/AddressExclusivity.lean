import VpnPanel.Backend.Holding
import VpnPanel.Worker.World

/-!
# Address exclusivity

An address is recycled only after every node has confirmed the removal of the
device that held it. That a freed address is then routed to no old key rests on
one link: what is installed on a node, or wanted by a snapshot on its way to
it, has a peer row there whose removal is not confirmed. A snapshot that wants
a confirmed peer breaks the link, and the next release hands the address out
while the old key is back.
-/

namespace VpnPanel.Theorems

open VpnPanel.Lib VpnPanel.Backend VpnPanel.Worker

/-- A device's address is routed, on every managed node, to no key of another
device. -/
def AddressExclusive (w : World) : Prop :=
  ∀ d ∈ w.panel.db.devices, ∀ ip, d.vpnIp = some ip →
    ∀ node ∈ w.panel.db.nodes, ∀ x ∈ w.tables node.id, s!"{ip}/32" ∈ x.allowedIps →
      ∀ e ∈ w.panel.db.devices, e.publicKey = some x.publicKey → e.id = d.id

/-- The node's next snapshot wants a peer whose removal the node has confirmed:
its device still has a key and an address, and its owner is not blocked. -/
def WantsConfirmed (db : Db) (nodeId : NodeId) : Prop :=
  ∃ p ∈ db.peers, p.nodeId = nodeId ∧ p.status = .deleted ∧
    ∃ d ∈ db.devices, d.id = p.deviceId ∧ truthy d.publicKey ∧ truthy d.vpnIp ∧
      ∃ u ∈ db.users, u.id = p.userId ∧ u.isBlocked = false

instance (db : Db) (nodeId : NodeId) : Decidable (WantsConfirmed db nodeId) := by
  unfold WantsConfirmed
  infer_instance

/-- The deletion of an account or of a node by an administrator. -/
def deletesRows : Request → Bool
  | .deleteUser _ => true
  | .deleteNode _ => true
  | _ => false

/-- No account and no node is deleted, and no snapshot is fetched that wants a
confirmed peer. -/
def Recycles (w : World) : Event → Prop
  | .request call => deletesRows call.request = false
  | .fetchNode nodeId => ¬WantsConfirmed w.panel.db nodeId
  | .fetchAll => ∀ node ∈ w.panel.db.nodes, ¬WantsConfirmed w.panel.db node.id
  | _ => True

instance (w : World) (e : Event) : Decidable (Recycles w e) := by
  cases e <;> unfold Recycles <;> infer_instance

/-! ## The invariant -/

/-- What is installed or on its way is held, and the answer on its way lists
what is installed. -/
structure Linked (w : World) : Prop where
  installed : ∀ nodeId key ip, Routes (w.tables nodeId) key ip →
    key ≠ "" ∧ ∃ a, ip = s!"{a}/32" ∧ w.panel.db.Holds nodeId key a
  wanted : ∀ snapshot ∈ w.fetched, ∀ x ∈ (splitPeers snapshot.peers).1,
    x.publicKey ≠ "" ∧ w.panel.db.Holds snapshot.id x.publicKey x.allowedIp
  reported : ∀ nodeId data, w.result = some (nodeId, data) →
    (∀ entry ∈ data.peers, entry.status = some "active") ∧
      (data.ok → ∀ key, key ≠ "" → Installed (w.tables nodeId) key →
        key ∈ data.peers.map (·.publicKey))
  heartbeats : ∀ x ∈ w.heartbeats, ∀ entry ∈ x.2.peers, entry.status = some "active"

variable {cfg : Config} {w w' : World}

theorem Linked.exclusive (hwf : w.panel.db.WF) (h : Linked w) : AddressExclusive w := by
  intro d hd ip hip node _ x hx hroute e he hkey
  obtain ⟨-, a, ha, p, -, -, -, d', hd', -, hkey', hip'⟩ :=
    h.installed node.id x.publicKey _ ⟨x, hx, rfl, hroute⟩
  have hsame : ip = a := by
    have htext : (toString ip).toList = (toString a).toList := by
      simpa [String.toList_append] using congrArg String.toList ha
    exact String.toList_inj.mp htext
  subst hsame
  have hdd : d'.id = d.id := hwf.deviceIp d' hd' d hd (by rw [hip']; rfl) (hip'.trans hip.symm)
  have hed : e.id = d'.id := hwf.deviceKey e he d' hd' (by rw [hkey]; rfl) (hkey.trans hkey'.symm)
  exact hed.trans hdd

/-- A wanted entry of a fresh snapshot is held, unless its removal was
confirmed. -/
theorem holds_of_wanted {db : Db} (hwf : db.WF) {node : Node} (hsafe : ¬WantsConfirmed db node.id)
    {x : DesiredPeer} (hx : x ∈ (splitPeers (nodeSnapshot db node).peers).1) :
    x.publicKey ≠ "" ∧ db.Holds node.id x.publicKey x.allowedIp := by
  obtain ⟨y, hy, hkey, hwanted, rfl⟩ := mem_splitPeers_active.mp hx
  obtain ⟨p, hp, hnode, u, hu, huid, d, hd, hdid, hduser, hk, hkne, ha, hane, hyeq⟩ :=
    (mem_nodeSnapshot hwf).mp hy
  refine ⟨hkey, p, hp, hnode, fun hdel => hsafe ?_, d, hd, hdid, hk, ha⟩
  have hblocked : y.isBlocked = u.isBlocked := by rw [hyeq]
  unfold unwanted at hwanted
  rw [Bool.or_eq_false_iff, hblocked] at hwanted
  exact ⟨p, hp, hnode, hdel, d, hd, hdid, truthy_iff.mpr ⟨_, hk, hkne⟩,
    truthy_iff.mpr ⟨_, ha, hane⟩, u, hu, huid, hwanted.2⟩

/-- Tables that keep every holding keep the link. -/
theorem Linked.panel (h : Linked w) (next : Panel)
    (hkeep : ∀ nodeId key ip, key ≠ "" → Installed (w.tables nodeId) key ∨
      nodeId ∈ w.fetched.map (·.id) → w.panel.db.Holds nodeId key ip →
        next.db.Holds nodeId key ip) : Linked { w with panel := next } where
  installed := by
    intro nodeId key ip hroute
    obtain ⟨hne, a, ha, hold⟩ := h.installed nodeId key ip hroute
    obtain ⟨x, hx, hxkey, -⟩ := hroute
    exact ⟨hne, a, ha, hkeep nodeId key a hne (.inl ⟨x, hx, hxkey⟩) hold⟩
  wanted := by
    intro snapshot hs x hx
    obtain ⟨hne, hold⟩ := h.wanted snapshot hs x hx
    exact ⟨hne, hkeep _ _ _ hne (.inr (List.mem_map_of_mem hs)) hold⟩
  reported := h.reported
  heartbeats := h.heartbeats

/-- An application routes what was installed and what its snapshot wants. -/
theorem Linked.tables (h : Linked w) {snapshot : NodeSnapshot} (hs : snapshot ∈ w.fetched)
    {table : List CurrentPeer}
    (htable : ∀ key ip, Routes table key ip → Routes (w.tables snapshot.id) key ip ∨
      ∃ y ∈ (splitPeers snapshot.peers).1, y.publicKey = key ∧ ip = s!"{y.allowedIp}/32") :
    ∀ nodeId key ip, Routes (Function.update w.tables snapshot.id table nodeId) key ip →
      key ≠ "" ∧ ∃ a, ip = s!"{a}/32" ∧ w.panel.db.Holds nodeId key a := by
  intro nodeId key ip hroute
  by_cases hid : nodeId = snapshot.id
  · subst hid
    rw [Function.update_self] at hroute
    rcases htable key ip hroute with hold | ⟨y, hy, rfl, rfl⟩
    · exact h.installed _ key ip hold
    · obtain ⟨hne, hold⟩ := h.wanted snapshot hs y hy
      exact ⟨hne, _, rfl, hold⟩
  · rw [Function.update_of_ne hid] at hroute
    exact h.installed nodeId key ip hroute

theorem Linked.init : Linked (world cfg).init where
  installed := by
    rintro nodeId key ip ⟨x, hx, -⟩
    cases hx
  wanted := fun _ hs => by cases hs
  reported := fun _ _ hres => by cases hres
  heartbeats := fun _ hx => by cases hx

/-- **Step.** Every step keeps the link, except a fetch that wants a confirmed
peer and the deletion of an account or a node. -/
theorem Linked.step (hwf : w.panel.db.WF) (hjob : OneJob w) (h : Linked w) {e : Event}
    (hok : Recycles w e) (hstep : (world cfg).step w e = some w') : Linked w' := by
  have hdoes := world_step hstep
  cases e with
  | request call =>
      obtain ⟨hres, next, hnext, rfl⟩ := hdoes
      refine h.panel next fun nodeId key ip _ _ hold => hold.panel_step hwf hnext ?_
      have hdel : deletesRows call.request = false := hok
      cases hreq : call.request <;> rw [hreq] at hres hdel <;> trivial
  | fetchNode nodeId =>
      obtain ⟨hidle, node, hn, rfl, rfl⟩ := hdoes
      refine ⟨h.installed, ?_, h.reported, h.heartbeats⟩
      intro snapshot hs x hx
      rw [List.mem_singleton.mp hs] at hx ⊢
      exact holds_of_wanted hwf hok hx
  | fetchAll =>
      obtain ⟨hidle, rfl⟩ := hdoes
      refine ⟨h.installed, ?_, h.reported, h.heartbeats⟩
      intro snapshot hs x hx
      obtain ⟨node, hn, rfl⟩ := List.mem_map.mp hs
      exact holds_of_wanted hwf (hok node hn) hx
  | apply interface readings =>
      obtain ⟨snapshot, rest, hfetched, hresult, rfl⟩ := hdoes
      have hs : snapshot ∈ w.fetched := hfetched ▸ List.mem_cons_self
      refine ⟨h.tables hs fun _ _ => routes_applySnapshot, ?_, ?_, h.heartbeats⟩
      · intro other hother
        exact h.wanted other (hfetched ▸ List.mem_cons_of_mem _ hother)
      · intro nodeId data hres
        cases hres
        refine ⟨peerResults_active, fun _ key hne hin => mem_peerResults hne ?_⟩
        dsimp only at hin
        rwa [Function.update_self] at hin
  | applyFails requests error =>
      obtain ⟨snapshot, rest, hfetched, hresult, rfl⟩ := hdoes
      have hs : snapshot ∈ w.fetched := hfetched ▸ List.mem_cons_self
      refine ⟨h.tables hs fun _ _ => routes_applyPartly, nofun, ?_, h.heartbeats⟩
      intro nodeId data hres
      cases hres
      exact ⟨fun _ hentry => (List.not_mem_nil hentry).elim, fun hgood => by cases hgood⟩
  | report now =>
      obtain ⟨nodeId, data, hresult, next, hnext, rfl⟩ := hdoes
      obtain ⟨hactive, hlisted⟩ := h.reported nodeId data hresult
      have hkeep := h.panel next fun other key ip hne hwhere hold => by
        refine hold.panel_step hwf hnext ⟨hactive, fun hgood heq => ?_⟩
        subst heq
        -- a snapshot of the reported node is not on its way
        rcases hwhere with hin | hflight
        · exact hlisted hgood key hne hin
        · exact absurd hflight (hjob.reported _ data hresult)
      refine ⟨hkeep.installed, ?_, nofun, h.heartbeats⟩
      dsimp only
      split
      · exact hkeep.wanted
      · exact nofun
  | abandon =>
      cases hdoes
      exact ⟨h.installed, nofun, nofun, h.heartbeats⟩
  | heartbeat nodeId readings =>
      cases hdoes
      refine ⟨h.installed, h.wanted, h.reported, fun x hx => ?_⟩
      rcases List.mem_append.mp hx with hx | hx
      · exact h.heartbeats x hx
      · rw [List.mem_singleton.mp hx]
        exact peerResults_active
  | heartbeatFails nodeId error =>
      cases hdoes
      refine ⟨h.installed, h.wanted, h.reported, fun x hx => ?_⟩
      rcases List.mem_append.mp hx with hx | hx
      · exact h.heartbeats x hx
      · rw [List.mem_singleton.mp hx]
        exact fun _ hentry => (List.not_mem_nil hentry).elim
  | reportHeartbeat index now =>
      obtain ⟨nodeId, data, hmem, next, hnext, rfl⟩ := hdoes
      have hkeep := h.panel next fun _ _ _ _ _ hold =>
        hold.panel_step hwf hnext (h.heartbeats _ hmem)
      refine ⟨hkeep.installed, hkeep.wanted, hkeep.reported, fun x hx => ?_⟩
      exact h.heartbeats x (List.mem_of_mem_eraseIdx hx)

theorem linked_of_reaches (h : (world cfg).Reaches Recycles w) : Linked w := by
  refine TSys.Reaches.invariant_with (Q := fun w => w.panel.db.WF ∧ OneJob w)
    (fun _ hw => ⟨world_wf hw, world_oneJob hw⟩) Linked.init ?_ h
  intro w e w' hQ hw hok hstep
  exact hw.step hQ.1 hQ.2 hok hstep

/-- **Address exclusivity.** In every run that deletes no account and no node
and fetches no snapshot wanting a confirmed peer, every state routes a device's
address to no other device's key. -/
theorem address_exclusive (cfg : Config) (w : World) (h : (world cfg).Reaches Recycles w) :
    AddressExclusive w :=
  (linked_of_reaches h).exclusive (world_wf h.reachable)

/-- A sync job of one node that runs to its end. -/
def syncJob (nodeId : NodeId) (now : Time) : List Event :=
  [.fetchNode nodeId, .apply none fun _ => {}, .report now]

/-- One node: a device is installed, deleted and confirmed, and its address goes
to a second device, which is installed. -/
def recycled : List Event :=
  oneDevice.map .request ++ syncJob 0 4 ++ [.request ⟨5, .deleteDevice 1 2⟩] ++ syncJob 0 6 ++
    [.request ⟨7, .addDevice 1 "tablet"⟩] ++ syncJob 0 8

theorem address_exclusive_recycled :
    ∃ w, (world exampleConfig).replay recycled = some w ∧ AddressExclusive w ∧
      w.tables 0 = [⟨"public-4", ["10.8.0.2/32"], "psk-5"⟩] := by
  have hrun : ((world exampleConfig).replay recycled).any (fun w =>
      w.tables 0 = [⟨"public-4", ["10.8.0.2/32"], "psk-5"⟩]) = true := by decide +kernel
  have hok : (world exampleConfig).ReplayOk Recycles (world exampleConfig).init recycled := by
    decide +kernel
  obtain ⟨w, hw, htable⟩ := TSys.replay_any hrun
  exact ⟨w, hw, address_exclusive exampleConfig w (TSys.replay_reaches hok hw),
    of_decide_eq_true htable⟩

/-- Two nodes: after the first has confirmed the removal of the device, a sync
of it puts the key back; the second then confirms, the address is released and
given to a second device. -/
def recycledTooEarly : List Event :=
  [.request ⟨0, .addNode { name := "a", url := "http://a", token := "t" }⟩,
    .request ⟨1, .addNode { name := "b", url := "http://b", token := "t" }⟩,
    .request ⟨2, .addUser "alice" 0⟩,
    .request ⟨3, .addDevice 2 "phone"⟩] ++ syncJob 0 4 ++ syncJob 1 5 ++
    [.request ⟨6, .deleteDevice 2 3⟩] ++ syncJob 0 7 ++ syncJob 0 8 ++ syncJob 1 9 ++
    [.request ⟨10, .addDevice 2 "tablet"⟩]

/-- The second device then holds an address that the first node still routes to
the deleted device's key. -/
theorem recycled_address_shared :
    ∃ w, (world exampleConfig).replay recycledTooEarly = some w ∧ ¬AddressExclusive w := by
  have hrun : ((world exampleConfig).replay recycledTooEarly).any (fun w =>
      decide (∃ d ∈ w.panel.db.devices, d.vpnIp = some "10.8.0.2" ∧
        ∃ node ∈ w.panel.db.nodes, ∃ x ∈ w.tables node.id, "10.8.0.2/32" ∈ x.allowedIps ∧
          ∃ e ∈ w.panel.db.devices, e.publicKey = some x.publicKey ∧ e.id ≠ d.id)) = true := by
    decide +kernel
  obtain ⟨w, hw, hbad⟩ := TSys.replay_any hrun
  obtain ⟨d, hd, hip, node, hn, x, hx, hroute, e, he, hkey, hne⟩ := of_decide_eq_true hbad
  refine ⟨w, hw, fun hall => ?_⟩
  exact hne (hall d hd "10.8.0.2" hip node hn x hx hroute e he hkey)

end VpnPanel.Theorems
