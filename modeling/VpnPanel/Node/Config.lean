import Mathlib.Logic.Function.Basic
import VpnPanel.Lib.TSys
import VpnPanel.Lib.Text

/-!
# The agent's config file

The parts of `agent.py` that write, edit and read the interface's config file.
`none` is a file that does not exist. The `awg` command itself is outside: a
request carries whether its command succeeded.
-/

namespace VpnPanel.Node

open VpnPanel.Lib VpnPanel.Lib.Text

abbrev ConfigFile := Option Text

/-- The text of the file as Python reads it. -/
def readText (text : Text) : Text := universalNewlines text

/-! ## Reading -/

/-- What `_configured_peers` collects for a peer. -/
structure PeerEntry where
  pskKey : Text := []
  allowedIps : List Text := []
  deriving DecidableEq, Repr

abbrev PeerMap := Text → Option PeerEntry

structure Current where
  publicKey : Text := []
  entry : PeerEntry := {}
  deriving DecidableEq, Repr

structure Reader where
  peers : PeerMap := fun _ => none
  current : Option Current := none

namespace Reader

/-- `peers[current['public_key']] = current`, if there is one with a key. -/
def store (r : Reader) : PeerMap :=
  match r.current with
  | some current =>
      if current.publicKey ≠ [] then
        Function.update r.peers current.publicKey (some current.entry)
      else r.peers
  | none => r.peers

/-- `[ip.strip() for ip in value.split(',') if ip.strip()]` -/
def addresses (value : Text) : List Text := ((value.splitOn ',').map strip).filter (· ≠ [])

/-- `str.lower`; every key the agent writes is ASCII. -/
def lower (t : Text) : Text := t.map Char.toLower

def assign (current : Current) (key value : Text) : Current :=
  if key = "publickey".toList then { current with publicKey := value }
  else if key = "presharedkey".toList then
    { current with entry := { current.entry with pskKey := value } }
  else if key = "allowedips".toList then
    { current with entry := { current.entry with allowedIps := addresses value } }
  else current

def line (r : Reader) (raw : Text) : Reader :=
  let line := strip raw
  if line = [] then r
  else if line = "[Peer]".toList then { peers := r.store, current := some {} }
  else match r.current, partition ['='] line with
    | some current, some (key, value) =>
        { r with current := some (assign current (lower (strip key)) (strip value)) }
    | _, _ => r

end Reader

def configuredPeers : ConfigFile → PeerMap
  | none => fun _ => none
  | some text => ((lines (readText text)).foldl Reader.line {}).store

/-- The `key = value` lines before the first peer. -/
def interfaceAssignments : ConfigFile → List Text
  | none => []
  | some text =>
      ((lines (readText text)).takeWhile fun line => strip line ≠ "[Peer]".toList).filter ('=' ∈ ·)

/-! ## Writing a peer -/

/-- `f'{key} = {value}'` -/
def setting (key : String) (value : Text) : Text := key.toList ++ " = ".toList ++ value

def peerBlock (pubkey allowedIp pskKey : Text) : List Text :=
  ["\n[Peer]\n".toList, setting "PublicKey" pubkey ++ ['\n']] ++
    (if pskKey ≠ [] then [setting "PresharedKey" pskKey ++ ['\n']] else []) ++
    [setting "AllowedIPs" (allowedIp ++ "/32".toList) ++ ['\n']]

/-- The variables of the two scanners that edit the file. -/
structure Scan where
  newLines : List Text := []
  peerBuffer : List Text := []
  peerPubkey : Option Text := none
  replaced : Bool := false
  deriving DecidableEq, Repr

namespace Scan

/-- `stripped.split('=', 1)[1].strip()`, for a line that has a `=`. -/
def assigned (stripped : Text) : Text :=
  match partition ['='] stripped with
  | some (_, value) => strip value
  | none => []

def flushPeerBuffer (pubkey : Text) (block : List Text) (s : Scan) : Scan :=
  if s.peerBuffer = [] then s
  else if s.peerPubkey = some pubkey then
    { newLines := s.newLines ++ block, peerBuffer := [], peerPubkey := none, replaced := true }
  else { s with newLines := s.newLines ++ s.peerBuffer, peerBuffer := [], peerPubkey := none }

/-- A line that begins no peer. -/
def keep (s : Scan) (line : Text) : Scan :=
  if s.peerBuffer ≠ [] then
    { s with
      peerBuffer := s.peerBuffer ++ [line]
      peerPubkey :=
        if "PublicKey = ".toList.isPrefixOf (strip line) then some (assigned (strip line))
        else s.peerPubkey }
  else { s with newLines := s.newLines ++ [line] }

/-- One line of `_persist_peer`. -/
def persistLine (pubkey : Text) (block : List Text) (s : Scan) (line : Text) : Scan :=
  if "[Peer]".toList.isPrefixOf (strip line) then
    { s.flushPeerBuffer pubkey block with peerBuffer := [line] }
  else s.keep line

/-- One line of `_unpersist_peer`. -/
def unpersistLine (pubkey : Text) (s : Scan) (line : Text) : Scan :=
  if "[Peer]".toList.isPrefixOf (strip line) then
    { s with
      newLines :=
        if s.peerBuffer ≠ [] ∧ s.peerPubkey ≠ some pubkey then s.newLines ++ s.peerBuffer
        else s.newLines
      peerBuffer := [line], peerPubkey := none }
  else s.keep line

end Scan

def persistPeer (pubkey allowedIp pskKey : Text) : ConfigFile → ConfigFile
  | none => some (peerBlock pubkey allowedIp pskKey).flatten
  | some text =>
      let block := peerBlock pubkey allowedIp pskKey
      let scanned := (splitlines (readText text)).foldl (Scan.persistLine pubkey block) {}
      let scanned := scanned.flushPeerBuffer pubkey block
      let newLines := if scanned.replaced then scanned.newLines else scanned.newLines ++ block
      some newLines.flatten

/-- Opening a missing file raises, and nothing is written. -/
def unpersistPeer (pubkey : Text) : ConfigFile → ConfigFile
  | none => none
  | some text =>
      let scanned := (readlines (readText text)).foldl (Scan.unpersistLine pubkey) {}
      let newLines :=
        if scanned.peerBuffer ≠ [] ∧ scanned.peerPubkey ≠ some pubkey then
          scanned.newLines ++ scanned.peerBuffer
        else scanned.newLines
      some newLines.flatten

/-! ## Writing the interface -/

structure InterfaceConfig where
  privateKey : Text
  address : Text := "10.8.0.1/24".toList
  listenPort : Int := 51820
  jc : Int := 4
  jmin : Int := 40
  jmax : Int := 70
  s1 : Int := 0
  s2 : Int := 0
  s3 : Int := 0
  s4 : Int := 0
  h1 : Text := "1".toList
  h2 : Text := "2".toList
  h3 : Text := "3".toList
  h4 : Text := "4".toList
  i1 : Text := []
  i2 : Text := []
  i3 : Text := []
  i4 : Text := []
  i5 : Text := []
  postUp : Text := []
  postDown : Text := []
  deriving DecidableEq, Repr

namespace InterfaceConfig

/-- The lines that are always written. -/
def fixed (cfg : InterfaceConfig) : List (String × Text) :=
  [("PrivateKey", cfg.privateKey), ("Address", cfg.address),
    ("ListenPort", decimal cfg.listenPort), ("Jc", decimal cfg.jc), ("Jmin", decimal cfg.jmin),
    ("Jmax", decimal cfg.jmax), ("S1", decimal cfg.s1), ("S2", decimal cfg.s2),
    ("S3", decimal cfg.s3), ("S4", decimal cfg.s4), ("H1", cfg.h1), ("H2", cfg.h2),
    ("H3", cfg.h3), ("H4", cfg.h4)]

/-- The lines that are written where they have a value. -/
def optional (cfg : InterfaceConfig) : List (String × Text) :=
  [("I1", cfg.i1), ("I2", cfg.i2), ("I3", cfg.i3), ("I4", cfg.i4), ("I5", cfg.i5),
    ("PostUp", cfg.postUp), ("PostDown", cfg.postDown)].filter (·.2 ≠ [])

end InterfaceConfig

def buildInterfaceBlock (cfg : InterfaceConfig) : Text :=
  "[Interface]\n".toList ++
    (cfg.fixed ++ cfg.optional).flatMap fun (key, value) => setting key value ++ ['\n']

def splitConfigSections (configText : Text) : Text × Text :=
  match partition "[Peer]".toList configText with
  | none => (configText, [])
  | some (interfacePart, peerPart) => (interfacePart, '\n' :: "[Peer]".toList ++ peerPart)

def configureInterface (cfg : InterfaceConfig) (file : ConfigFile) : ConfigFile :=
  let existing := (file.map readText).getD []
  let peerTail := match file with
    | none => []
    | some _ => (splitConfigSections existing).2
  let desired := buildInterfaceBlock cfg ++ peerTail
  if existing = desired then file else some desired

/-! ## The requests -/

inductive Request
  | putInterface (cfg : InterfaceConfig)
  | putPeer (publicKey allowedIp : Text) (pskKey : Option Text)
  /-- The key as it was decoded and encoded again. -/
  | deletePeer (pubStd : Text)
  deriving DecidableEq, Repr

/-- A request, and whether the `awg` command that comes before its change of the
file succeeded. -/
structure Call where
  request : Request
  awgOk : Bool
  deriving DecidableEq, Repr

def Call.serve (file : ConfigFile) (call : Call) : ConfigFile :=
  match call.request with
  | .putInterface cfg => configureInterface cfg file
  | .putPeer publicKey allowedIp pskKey =>
      if call.awgOk then persistPeer publicKey allowedIp (pskKey.getD []) file else file
  | .deletePeer pubStd => if call.awgOk then unpersistPeer pubStd file else file

/-- The agent, from the moment there is no config file. -/
def agent : TSys ConfigFile Call where
  init := none
  step file call := some (call.serve file)

end VpnPanel.Node
