import VpnPanel.Backend.Refine
import VpnPanel.Worker.Reconcile

/-!
# Revoked keys

Which keys the worker may put on a node. A snapshot entry keeps the peer's own
status, and the split treats `deleted` as wanted: a deleted device whose removal
this node has confirmed, while another node has not, still holds its address
and is put back.
-/

namespace VpnPanel.Theorems

open VpnPanel.Lib VpnPanel.Backend VpnPanel.Worker

/-- The key of a tombstoned device, or of a device of a blocked owner. -/
def Revoked (db : Db) (key : String) : Prop :=
  ∃ d ∈ db.devices, d.publicKey = some key ∧
    (d.deletedAt.isSome ∨ ∃ u ∈ db.users, u.id = d.userId ∧ u.isBlocked = true)

/-- Whatever the agent of `node` reports, no revoked key is put on it. -/
def PutsNoRevokedKey (db : Db) (node : Node) : Prop :=
  ∀ reported : List CurrentPeer, ∀ x ∈ (plan (nodeSnapshot db node).peers reported).1,
    ¬Revoked db x.publicKey

/-- A removal that `node` confirmed of a deleted device still holding its
address, under an owner who is not blocked. -/
def ConfirmedButReserved (db : Db) (node : Node) : Prop :=
  ∃ p ∈ db.peers, p.nodeId = node.id ∧ p.status = .deleted ∧
    ∃ d ∈ db.devices, d.id = p.deviceId ∧ d.deletedAt.isSome ∧ truthy d.publicKey ∧
      truthy d.vpnIp ∧ ∃ u ∈ db.users, u.id = p.userId ∧ u.isBlocked = false

/-- On well-formed tables, a wanted entry has a revoked key only through a
confirmed removal. -/
theorem confirmedButReserved_of_revoked {db : Db} (hwf : db.WF) {node : Node} {x : DesiredPeer}
    (hx : x ∈ (splitPeers (nodeSnapshot db node).peers).1) (hrev : Revoked db x.publicKey) :
    ConfirmedButReserved db node := by
  obtain ⟨y, hy, hkey, hwanted, rfl⟩ := mem_splitPeers_active.mp hx
  obtain ⟨p, hp, hnode, u, hu, huid, d, hd, hdid, hduser, hk, hkne, ha, hane, hyeq⟩ :=
    (mem_nodeSnapshot hwf).mp hy
  obtain ⟨d', hd', hk', hwhy⟩ := hrev
  -- the key names one device, the one of this entry
  have : d' = d := by
    apply hwf.device_eq hd' hd
    exact hwf.deviceKey d' hd' d hd (by rw [hk']; rfl) (hk'.trans hk.symm)
  subst this
  have hstatus : y.status = p.status := by rw [hyeq]
  have hblocked : y.isBlocked = u.isBlocked := by rw [hyeq]
  unfold unwanted at hwanted
  rw [Bool.or_eq_false_iff, hstatus, hblocked] at hwanted
  have hnotblocked : ∀ v ∈ db.users, v.id = d'.userId → v.isBlocked = false := by
    intro v hv hvid
    rw [hwf.userIds.eq_of_key hv hu (hvid.trans (hduser.trans huid.symm))]
    exact hwanted.2
  have hdel : d'.deletedAt.isSome := by
    rcases hwhy with h | ⟨v, hv, hvid, hvb⟩
    · exact h
    · rw [hnotblocked v hv hvid] at hvb
      cases hvb
  -- a peer of a tombstoned device is going or gone, and this one is not going
  have hgone : p.status = .deleted := by
    have hlive := hwf.tombstones p hp ⟨d', hd', hdid, hdel⟩
    have hne := hwanted.1
    cases hs : p.status <;> simp [hs, PeerStatus.live] at hlive hne ⊢
  exact ⟨p, hp, hnode, hgone, d', hd', hdid, hdel, truthy_iff.mpr ⟨_, hk, hkne⟩,
    truthy_iff.mpr ⟨_, ha, hane⟩, u, hu, huid, hwanted.2⟩

/-- A confirmed removal of a device that still holds its address is a wanted
entry of the next snapshot. -/
theorem revoked_of_confirmedButReserved {db : Db} (hwf : db.WF) {node : Node}
    (h : ConfirmedButReserved db node) :
    ∃ x ∈ (splitPeers (nodeSnapshot db node).peers).1, Revoked db x.publicKey := by
  obtain ⟨p, hp, hnode, hst, d, hd, hdid, hdel, hkey, hip, u, hu, huid, hub⟩ := h
  obtain ⟨k, hk, hkne⟩ := truthy_iff.mp hkey
  obtain ⟨a, ha, hane⟩ := truthy_iff.mp hip
  obtain ⟨d', hd', hd'id, hduser⟩ := hwf.peerDevice p hp
  have : d' = d := hwf.device_eq hd' hd (hd'id.trans hdid.symm)
  subst this
  let y : PeerPayload := {
    peerId := p.id, userId := u.id, userName := u.name, deviceId := d'.id,
    deviceName := d'.name, publicKey := k, allowedIp := a,
    pskKey := p.pskKey.getD "", status := p.status, isBlocked := u.isBlocked }
  have hy : y ∈ (nodeSnapshot db node).peers :=
    (mem_nodeSnapshot hwf).mpr
      ⟨p, hp, hnode, u, hu, huid, d', hd', hdid, hduser, hk, hkne, ha, hane, rfl⟩
  refine ⟨desiredPeer y, mem_splitPeers_active.mpr ⟨y, hy, hkne, ?_, rfl⟩,
    d', hd', hk, .inl hdel⟩
  simp [unwanted, y, hst, hub]

/-- **Revoked keys.** In every reachable state and for every node, no revoked
key is put on the node, whatever its agent reports, exactly when the node has
not confirmed the removal of a deleted device that still holds its address. -/
theorem puts_no_revoked_key_iff (cfg : Config) (s : Panel) (h : (panel cfg).Reachable s)
    (node : Node) :
    PutsNoRevokedKey s.db node ↔ ¬ConfirmedButReserved s.db node := by
  have hwf := panel_wf h
  constructor
  · intro hputs hbad
    obtain ⟨x, hx, hrev⟩ := revoked_of_confirmedButReserved hwf hbad
    refine hputs [] x ?_ hrev
    rw [plan_nil]
    exact hx
  · intro hgood reported x hx hrev
    exact hgood (confirmedButReserved_of_revoked hwf (mem_plan_put hx) hrev)

/-- Two nodes, one account with one device, installed on both; the device is
deleted, and only the first node has confirmed its removal. -/
def partlyConfirmed : List Call := [
  ⟨0, .addNode { name := "a", url := "http://a", token := "t" }⟩,
  ⟨1, .addNode { name := "b", url := "http://b", token := "t" }⟩,
  ⟨2, .addUser "alice" 0⟩,
  ⟨3, .addDevice 2 "phone"⟩,
  ⟨4, .syncResult 0 { peers := [{ publicKey := "public-3", status := some "active" }] }⟩,
  ⟨5, .syncResult 1 { peers := [{ publicKey := "public-3", status := some "active" }] }⟩,
  ⟨6, .deleteDevice 2 3⟩,
  ⟨7, .syncResult 0 {}⟩]

instance (db : Db) (node : Node) : Decidable (ConfirmedButReserved db node) := by
  unfold ConfirmedButReserved
  infer_instance

/-- After the device is deleted and before any confirmation, both nodes are
sent no revoked key. -/
theorem puts_no_revoked_key_before_confirmation :
    ∃ s, (panel exampleConfig).replay (partlyConfirmed.take 7) = some s ∧
      s.db.nodes.length = 2 ∧ ∀ node ∈ s.db.nodes, PutsNoRevokedKey s.db node := by
  have hrun : ((panel exampleConfig).replay (partlyConfirmed.take 7)).any (fun s =>
      s.db.nodes.length = 2 ∧ ∀ node ∈ s.db.nodes, ¬ConfirmedButReserved s.db node) = true := by
    decide +kernel
  obtain ⟨s, hs, hgood⟩ := TSys.replay_any hrun
  rw [decide_eq_true_eq] at hgood
  refine ⟨s, hs, hgood.1, fun node hnode => ?_⟩
  exact (puts_no_revoked_key_iff exampleConfig s (TSys.replay_reachable hs) node).mpr
    (hgood.2 node hnode)

/-- Once only the first node has confirmed, a node is sent a revoked key. -/
theorem partly_confirmed_key_put_back :
    ∃ s, (panel exampleConfig).replay partlyConfirmed = some s ∧
      ∃ node ∈ s.db.nodes, ¬PutsNoRevokedKey s.db node := by
  have hrun : ((panel exampleConfig).replay partlyConfirmed).any (fun s =>
      ∃ node ∈ s.db.nodes, ConfirmedButReserved s.db node) = true := by decide +kernel
  obtain ⟨s, hs, hbad⟩ := TSys.replay_any hrun
  rw [decide_eq_true_eq] at hbad
  obtain ⟨node, hnode, hbad⟩ := hbad
  refine ⟨s, hs, node, hnode, fun hputs => ?_⟩
  obtain ⟨x, hx, hrev⟩ := revoked_of_confirmedButReserved
    (panel_wf (TSys.replay_reachable hs)) hbad
  refine hputs [] x ?_ hrev
  rw [plan_nil]
  exact hx

end VpnPanel.Theorems
