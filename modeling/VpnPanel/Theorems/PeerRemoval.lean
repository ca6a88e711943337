import VpnPanel.Node.DeletePeer
import VpnPanel.Theorems.ConfigFile

/-!
# Which keys a peer removal reaches

A key whose base64 holds a slash makes a path of more segments than the agent's
route has, and the worker takes the 404 for an absent peer.
-/

namespace VpnPanel.Theorems

open VpnPanel.Lib VpnPanel.Node

variable {key : PublicKey} {agent : Agent}

/-- The removal of a key does what it is for, on every agent. -/
structure Removes (key : PublicKey) : Prop where
  routed : Agent.route (deletePath key.text) = some key.text
  decoded : Agent.decodePubkey key.text = .ok key.raw
  found : ∀ agent : Agent, (agent.delete (deletePath key.text)).1 ≠ 404
  removed : ∀ agent : Agent, Node.agent.Reaches (fun _ call => Acceptable call) agent.file →
    ∃ after, deletePeerIfPresent agent key.text = .ok after ∧
      key.text ∉ after.interface ∧ configuredPeers after.file key.text = none

theorem text_ne_nil (key : PublicKey) : key.text ≠ [] := by
  have hlength := Base64.length_encode key.raw
  rw [key.length] at hlength
  intro hnil
  rw [show Base64.encode key.raw = [] from hnil] at hlength
  cases hlength

/-- The path is routed exactly where the key is one segment. -/
theorem route_deletePath (key : PublicKey) :
    Agent.route (deletePath key.text) = if '/' ∈ key.text then none else some key.text := by
  have hpath : Agent.peersPath.isPrefixOf (deletePath key.text) = true := by
    rw [List.isPrefixOf_iff_prefix]
    exact List.prefix_append _ _
  have hdrop : (deletePath key.text).drop Agent.peersPath.length = key.text := List.drop_left
  unfold Agent.route
  rw [if_pos hpath]
  dsimp only
  rw [hdrop]
  by_cases hslash : '/' ∈ key.text
  · rw [if_neg (fun h => h.2 hslash), if_pos hslash]
  · rw [if_pos ⟨text_ne_nil key, hslash⟩, if_neg hslash]

/-- What reaches the handler is decoded to the key. -/
theorem decodePubkey_text (key : PublicKey) : Agent.decodePubkey key.text = .ok key.raw := by
  have hascii : ¬(key.text.any fun c => c.toNat ≥ 128) = true := by
    rw [List.any_eq_true]
    rintro ⟨c, hc, hbig⟩
    have hsmall := (Base64.mem_encode hc).2.2
    have hbig : 128 ≤ c.toNat := of_decide_eq_true hbig
    omega
  have hpad : (4 - key.text.length % 4) % 4 = 0 := by
    have hlength := Base64.length_encode key.raw
    have htext : key.text.length = (Base64.encode key.raw).length := rfl
    omega
  unfold Agent.decodePubkey
  rw [if_neg hascii, hpad, List.replicate_zero]
  dsimp only
  rw [List.append_nil,
    show Base64.urlsafeDecode key.text = some key.raw from Base64.urlsafeDecode_encode key.raw]
  exact if_neg (not_not.mpr key.length)

theorem delete_of_no_slash (h : '/' ∉ key.text) (agent : Agent) :
    agent.delete (deletePath key.text) = (200,
      { interface := agent.interface.filter (· ≠ key.text),
        file := unpersistPeer key.text agent.file }) := by
  unfold Agent.delete
  rw [route_deletePath, if_neg h]
  show agent.deletePeer key.text = _
  unfold Agent.deletePeer
  rw [decodePubkey_text]
  rfl

/-- A request without a route leaves the agent as it is. -/
theorem delete_of_slash (h : '/' ∈ key.text) (agent : Agent) :
    agent.delete (deletePath key.text) = (404, agent) := by
  unfold Agent.delete
  rw [route_deletePath, if_pos h]

end VpnPanel.Theorems
