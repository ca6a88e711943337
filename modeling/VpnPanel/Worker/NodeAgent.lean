import VpnPanel.Node.Config
import VpnPanel.Worker.SyncAll

/-!
# A node's agent

The agent of one node with both of its sources: the peers of the live interface,
as `awg set` changes them and `awg show` lists them, and the config file. A
request here is one that succeeded.
-/

namespace VpnPanel.Worker

open VpnPanel.Lib VpnPanel.Backend

/-- A peer of the live interface. -/
structure LivePeer where
  publicKey : String
  allowedIps : List String
  presharedKey : String
  deriving DecidableEq, Repr

structure NodeAgent where
  live : List LivePeer := []
  file : Node.ConfigFile := none

/-! ## The live interface -/

namespace LivePeer

/-- An address goes to another peer. -/
def drop (peer : LivePeer) (address : String) : LivePeer :=
  { peer with allowedIps := peer.allowedIps.filter (· ≠ address) }

/-- What `awg set` makes of a peer that is there. Without a PSK the old one stays. -/
def set (publicKey address : String) (presharedKey : Option String) (peer : LivePeer) : LivePeer :=
  if peer.publicKey = publicKey then
    { peer with allowedIps := [address], presharedKey := presharedKey.getD peer.presharedKey }
  else peer.drop address

@[simp] theorem set_publicKey (publicKey address : String) (presharedKey : Option String)
    (peer : LivePeer) : (peer.set publicKey address presharedKey).publicKey = peer.publicKey := by
  unfold set
  split
  · rfl
  · rfl

end LivePeer

/-- `awg set <interface> peer <key> [preshared-key <file>] allowed-ips <address>`:
the peer gets exactly this address, and no other peer keeps it. -/
def awgSet (live : List LivePeer) (publicKey address : String) (presharedKey : Option String) :
    List LivePeer :=
  let set := live.map (LivePeer.set publicKey address presharedKey)
  if live.any (·.publicKey = publicKey) then set
  else set ++ [⟨publicKey, [address], presharedKey.getD ""⟩]

/-- `awg set <interface> peer <key> remove`. -/
def awgRemove (live : List LivePeer) (publicKey : String) : List LivePeer :=
  live.filter (·.publicKey ≠ publicKey)

/-- The addresses as `awg show` prints them. -/
def shownIps (allowedIps : List String) : List String :=
  if allowedIps = [] then ["(none)"] else allowedIps

/-! ## Requests -/

namespace NodeAgent

/-- The `psk_key` the config file has for a peer. -/
def configuredPsk (agent : NodeAgent) (publicKey : String) : String :=
  match Node.configuredPeers agent.file publicKey.toList with
  | none => ""
  | some entry => String.ofList entry.pskKey

/-- `GET /status`: the live addresses, and the PSKs of the config file. -/
def status (agent : NodeAgent) : List CurrentPeer :=
  agent.live.map fun peer =>
    { publicKey := peer.publicKey
      allowedIps := shownIps peer.allowedIps
      pskKey := agent.configuredPsk peer.publicKey }

/-- `PUT /interface`. -/
def configure (agent : NodeAgent) (cfg : Node.InterfaceConfig) : NodeAgent :=
  { agent with file := Node.configureInterface cfg agent.file }

/-- `PUT /peers`. -/
def syncPeer (agent : NodeAgent) (peer : DesiredPeer) : NodeAgent where
  live := awgSet agent.live peer.publicKey s!"{peer.allowedIp}/32"
    (if peer.pskKey ≠ "" then some peer.pskKey else none)
  file := Node.persistPeer peer.publicKey.toList peer.allowedIp.toList peer.pskKey.toList agent.file

/-- `DELETE /peers/{pubkey_b64}`, of the key the path decodes to. -/
def deletePeer (agent : NodeAgent) (publicKey : String) : NodeAgent where
  live := awgRemove agent.live publicKey
  file := Node.unpersistPeer publicKey.toList agent.file

end NodeAgent

/-- A request that changes the agent. -/
inductive AgentChange
  | interface
  | putPeer (publicKey : String)
  | deletePeer (publicKey : String)
  deriving DecidableEq, Repr

/-- The agent, and the requests that changed it. -/
structure AgentRun where
  agent : NodeAgent := {}
  changes : List AgentChange := []

namespace AgentRun

def configure (cfg : Node.InterfaceConfig) (run : AgentRun) : AgentRun :=
  ⟨run.agent.configure cfg, run.changes ++ [.interface]⟩

def syncPeer (run : AgentRun) (peer : DesiredPeer) : AgentRun :=
  ⟨run.agent.syncPeer peer, run.changes ++ [.putPeer peer.publicKey]⟩

def deletePeer (run : AgentRun) (publicKey : String) : AgentRun :=
  ⟨run.agent.deletePeer publicKey, run.changes ++ [.deletePeer publicKey]⟩

end AgentRun

/-- The client of a node whose requests all succeed. `parse` is the body of
`PUT /interface` as the agent reads it, `readings` what a dump says of a key. -/
def nodeClient (parse : InterfaceResult → Node.InterfaceConfig)
    (readings : String → PeerReading) : NodeClient AgentRun where
  health _ := pure ()
  putInterface _ interface := do
    modify (·.configure (parse interface))
    return fun _ => none
  status _ := do
    let run ← get
    return { peers := run.agent.status }
  putPeer _ peer := modify (·.syncPeer peer)
  deletePeer _ key := modify (·.deletePeer key)
  dump _ := do
    let run ← get
    return { peers := peerResults run.agent.status readings }

theorem nodeClient_serves (parse : InterfaceResult → Node.InterfaceConfig)
    (readings : String → PeerReading) (endpoint : Endpoint) :
    (nodeClient parse readings).Serves endpoint
      (fun interface run => run.configure (parse interface))
      (fun run => { peers := run.agent.status }) AgentRun.syncPeer AgentRun.deletePeer
      (fun run => { peers := peerResults run.agent.status readings }) :=
  ⟨fun _ _ => ⟨_, rfl⟩, fun _ => rfl, fun _ _ => rfl, fun _ _ => rfl, fun _ => rfl⟩

end VpnPanel.Worker
