import VpnPanel.Backend.Refine

/-!
# Addresses held on a node

While a node has not confirmed the removal of a device's peer, the device keeps
its row, its key and its address: a release needs every peer of the device to
be confirmed, and so does a purge. Only the node's own answer, by leaving the
key out, and the deletion of the account or of the node end it.
-/

namespace VpnPanel.Backend

open VpnPanel.Lib

/-- A device with this key and address has a peer on the node whose removal is
not confirmed. -/
def Db.Holds (db : Db) (nodeId : NodeId) (key ip : String) : Prop :=
  ∃ p ∈ db.peers, p.nodeId = nodeId ∧ p.status ≠ .deleted ∧
    ∃ d ∈ db.devices, d.id = p.deviceId ∧ d.publicKey = some key ∧ d.vpnIp = some ip

/-- A write that confirms no removal of the key on the node. -/
def Retains (nodeId : NodeId) (key : String) (db : Db) : Write → Prop
  | .peers f => ∀ p ∈ db.peers, p.nodeId = nodeId → devicePublicKey db p = some key →
      (f p).status = .deleted → p.status = .deleted
  | .reading _ data _ => data.status = some "active"
  | .deleteUser id => ∀ p ∈ db.peers, p.userId = id → p.status = .deleted
  | .deleteNode _ => False
  | _ => True

/-- An entry that reports `active` confirms nothing. -/
theorem stored_of_active_deleted {stored : PeerStatus} {deviceTombstone : Bool}
    (h : peerResultStatus stored deviceTombstone (some "active") = .deleted) :
    stored = .deleted := by
  cases stored <;> cases deviceTombstone <;> first | rfl | cases h

variable {db : Db} {nodeId : NodeId} {key ip : String}

theorem Db.Holds.apply (hwf : db.WF) (h : db.Holds nodeId key ip) {w : Write}
    (hw : Retains nodeId key db w) (hok : w.Ok db) : (w.apply db).Holds nodeId key ip := by
  obtain ⟨p, hp, hnode, hst, d, hd, hid, hkey, hip⟩ := h
  have hdevkey : devicePublicKey db p = some key := by
    unfold devicePublicKey
    rw [← hid, hwf.device?_of_mem hd]
    exact hkey
  cases w with
  | newDevice row =>
      exact ⟨p, hp, hnode, hst, d, List.mem_append_left _ hd, hid, hkey, hip⟩
  | tombstone row =>
      obtain ⟨old, hold, at_, rfl⟩ := hok
      refine ⟨deletedDevicePeer old.id p, List.mem_map_of_mem hp, ?_, ?_,
        if d.id = old.id then { old with deletedAt := old.deletedAt.or (some at_) } else d,
        List.mem_map_of_mem hd, ?_⟩
      · unfold deletedDevicePeer
        split <;> exact hnode
      · unfold deletedDevicePeer
        split
        · simp
        · exact hst
      · have hdev : (deletedDevicePeer old.id p).deviceId = p.deviceId := by
          unfold deletedDevicePeer
          split <;> rfl
        rw [hdev]
        split
        · next heq =>
            rw [hwf.device_eq hold hd heq.symm]
            exact ⟨hid, hkey, hip⟩
        · exact ⟨hid, hkey, hip⟩
  | release row at_ =>
      -- the released row is another device: this one has an unconfirmed peer
      have hne : d.id ≠ row.id := fun heq => hst (hok.confirmed p hp (hid.symm.trans heq))
      exact ⟨p, hp, hnode, hst, d, Rows.mem_save.mpr (.inr ⟨hd, hne⟩), hid, hkey, hip⟩
  | peers f =>
      have hsame := hok.same p hp
      exact ⟨f p, List.mem_map_of_mem hp, hsame.nodeId.trans hnode,
        fun hdel => hst (hw p hp hnode hdevkey hdel), d, hd, hid.trans hsame.deviceId.symm, hkey,
        hip⟩
  | newPeer row =>
      exact ⟨p, List.mem_append_left _ hp, hnode, hst, d, hd, hid, hkey, hip⟩
  | reading row data now =>
      show ((applyPeerResult db row data now).2).Holds nodeId key ip
      rw [applyPeerResult_db]
      by_cases hrow : p.id = row.id
      · have heq : p = row := hwf.peer_eq hp hok hrow
        subst heq
        have hsame := peerAfterResult_same db p data
        refine ⟨peerAfterResult db p data, Rows.mem_save.mpr (.inl ⟨rfl, p, hp, hsame.id.symm⟩),
          hsame.nodeId.trans hnode, ?_, d, hd, hid.trans hsame.deviceId.symm, hkey, hip⟩
        rw [peerAfterResult_status, show data.status = some "active" from hw]
        exact fun hdel => hst (stored_of_active_deleted hdel)
      · refine ⟨p, Rows.mem_save.mpr (.inr ⟨hp, ?_⟩), hnode, hst, d, hd, hid, hkey, hip⟩
        rw [peerAfterResult_id]
        exact hrow
  | deleteUser id =>
      have hne : p.userId ≠ id := fun heq => hst (hw p hp heq)
      obtain ⟨e, he, heid, heuser⟩ := hwf.peerDevice p hp
      have : e = d := hwf.device_eq he hd (heid.trans hid.symm)
      subst this
      exact ⟨p, List.mem_filter.mpr ⟨hp, by simpa using hne⟩, hnode, hst, e,
        List.mem_filter.mpr ⟨hd, by simpa [heuser] using hne⟩, hid, hkey, hip⟩
  | deleteNode id => exact hw.elim
  | _ => exact ⟨p, hp, hnode, hst, d, hd, hid, hkey, hip⟩

theorem Db.Holds.writes {P : Db → Write → Prop} {db' : Db} (hwf : db.WF)
    (h : db.Holds nodeId key ip) (hP : ∀ db w, P db w → Retains nodeId key db w)
    (hw : Writes P db db') : db'.Holds nodeId key ip := by
  have hboth : db'.WF ∧ db'.Holds nodeId key ip :=
    hw.keeps (I := fun db => db.WF ∧ db.Holds nodeId key ip)
      (fun db w hPw hok hI => ⟨Write.apply_wf hI.1 w hok, hI.2.apply hI.1 (hP db w hPw) hok⟩)
      ⟨hwf, h⟩
  exact hboth.2

/-- A request that ends no holding of the key on the node: it deletes no
account and no node, its entries report `active`, and an answer of this node
lists the key. -/
def Request.Retains (nodeId : NodeId) (key : String) : Request → Prop
  | .deleteUser _ => False
  | .deleteNode _ => False
  | .syncResult node data => (∀ entry ∈ data.peers, entry.status = some "active") ∧
      (data.ok → node = nodeId → key ∈ data.peers.map (·.publicKey))
  | .heartbeatResult _ data => ∀ entry ∈ data.peers, entry.status = some "active"
  | _ => True

theorem Ordinary.retains {cfg : Config} {now : Time} {request : Request}
    (hreq : request.Retains nodeId key) {w : Write} (hw : Ordinary cfg ⟨now, request⟩ db w) :
    Backend.Retains nodeId key db w := by
  cases w with
  | peers f =>
      intro p hp hnode hkey hdel
      rcases hw p hp hdel with h | h
      · exact h
      · cases request with
        | syncResult node data =>
            obtain ⟨hgood, hconf⟩ := h
            unfold removalConfirmed at hconf
            simp only [Bool.and_eq_true, decide_eq_true_eq, hkey, Option.any_some,
              Bool.not_eq_true', decide_eq_false_iff_not] at hconf
            exact absurd (hreq.2 hgood (hconf.1.1.symm.trans hnode)) hconf.2
        | _ => exact h.elim
  | reading row data now =>
      cases request with
      | syncResult node result => exact hreq.1 data hw.1
      | heartbeatResult node result => exact hreq data hw.1
      | _ => exact absurd hw.1 List.not_mem_nil
  | deleteUser id =>
      cases hw
      exact hreq.elim
  | deleteNode id =>
      cases hw
      exact hreq.elim
  | _ => trivial

/-- **Holding.** Every other request leaves the address with its device. -/
theorem Db.Holds.panel_step {cfg : Config} {s s' : Panel} {call : Call} (hwf : s.db.WF)
    (h : s.db.Holds nodeId key ip) (hstep : (panel cfg).step s call = some s')
    (hreq : call.request.Retains nodeId key) : s'.db.Holds nodeId key ip := by
  obtain ⟨db₁, db₂, h₁, h₂, h₃⟩ := panel_step_phases hwf hstep
  have hwf₁ := h₁.wf hwf
  have hold₁ := h.writes hwf (fun _ _ hw => Ordinary.retains hreq hw) h₁
  have hold₂ := hold₁.writes hwf₁ (fun _ w hw => by
    cases w <;> first | exact hw.elim | trivial) h₂
  exact hold₂.writes (h₂.wf hwf₁) (fun _ w hw => by
    cases w <;> first | exact hw.elim | exact hw) h₃

end VpnPanel.Backend
