import VpnPanel.Backend.Devices

/-!
# Client configurations

`services/node_config.py` and the text half of `crypto.py`: what a client
configuration is made of, from a device, a node and a PSK, and the text of an
AmneziaWG configuration.
-/

namespace VpnPanel.Backend

structure AWGClientConfig where
  privateKey : String
  vpnIp : String
  nodePublicKey : String
  nodeEndpoint : String
  publicKey : String := ""
  jc : Int := 4
  jmin : Int := 40
  jmax : Int := 70
  s1 : Int := 0
  s2 : Int := 0
  s3 : Int := 0
  s4 : Int := 0
  h1 : String := "1"
  h2 : String := "2"
  h3 : String := "3"
  h4 : String := "4"
  i1 : String := ""
  i2 : String := ""
  i3 : String := ""
  i4 : String := ""
  i5 : String := ""
  pskKey : String := ""
  dns : String := "1.1.1.1"
  mtu : String := "1376"
  description : String := "AmneziaVPN"
  deriving DecidableEq, Repr

/-- A number column of a node, `or` the default. -/
def Node.int (node : Node) (field : InterfaceField) (default : Int) : Int :=
  match node.interface field with
  | some (.int value) => if value = 0 then default else value
  | _ => default

/-- A text column of a node, `or` the default. -/
def Node.text (node : Node) (field : InterfaceField) (default : String) : String :=
  match node.interface field with
  | some (.text value) => if value = "" then default else value
  | _ => default

/-- `node_kwargs`, written into a configuration. -/
def nodeKwargs (node : Node) (config : AWGClientConfig) : AWGClientConfig :=
  { config with
    jc := node.int .jc 4
    jmin := node.int .jmin 40
    jmax := node.int .jmax 70
    s1 := node.int .s1 0
    s2 := node.int .s2 0
    s3 := node.int .s3 0
    s4 := node.int .s4 0
    h1 := node.text .h1 "1"
    h2 := node.text .h2 "2"
    h3 := node.text .h3 "3"
    h4 := node.text .h4 "4"
    i1 := node.text .i1 ""
    i2 := node.text .i2 ""
    i3 := node.text .i3 ""
    i4 := node.text .i4 ""
    i5 := node.text .i5 "" }

def nodeMtu (node : Node) : String := node.text .mtu "1376"

/-- The AmneziaWG configuration of `build_awg_client_config`, before its text. -/
def awgClientConfig (identity : Device) (node : Node) (pskKey : String) :
    Option AWGClientConfig :=
  let serverPublicKey := node.text .publicKey ""
  let serverEndpoint := node.text .endpoint ""
  let privateKey := identity.privateKey.getD ""
  let vpnIp := identity.vpnIp.getD ""
  if serverPublicKey = "" ∨ serverEndpoint = "" ∨ privateKey = "" ∨ vpnIp = "" then none
  else some (nodeKwargs node {
    privateKey, vpnIp, nodePublicKey := serverPublicKey, nodeEndpoint := serverEndpoint, pskKey })

def buildAmneziaClientConfig (identity : Device) (node : Node) (description pskKey : String) :
    Option AWGClientConfig :=
  let serverPublicKey := node.text .publicKey ""
  let serverEndpoint := node.text .endpoint ""
  let privateKey := identity.privateKey.getD ""
  let vpnIp := identity.vpnIp.getD ""
  if serverPublicKey = "" ∨ serverEndpoint = "" ∨ privateKey = "" ∨ vpnIp = "" then none
  else some (nodeKwargs node {
    privateKey, publicKey := identity.publicKey.getD "", vpnIp
    nodePublicKey := serverPublicKey, nodeEndpoint := serverEndpoint
    dns := "1.1.1.1", description, pskKey, mtu := nodeMtu node })

/-- A line `key = value`, where there is a value. -/
def optionalLine (key value : String) : List String :=
  if value = "" then [] else [key ++ " = " ++ value]

/-- The text of a client configuration; `dns` overrides its own. -/
def buildClientConfig (config : AWGClientConfig) (dns : Option String) : String :=
  let lines := [
    "[Interface]",
    s!"Address = {config.vpnIp}/32",
    s!"DNS = {dns.getD config.dns}",
    s!"PrivateKey = {config.privateKey}",
    s!"Jc = {config.jc}",
    s!"Jmin = {config.jmin}",
    s!"Jmax = {config.jmax}",
    s!"S1 = {config.s1}",
    s!"S2 = {config.s2}",
    s!"S3 = {config.s3}",
    s!"S4 = {config.s4}",
    s!"H1 = {config.h1}",
    s!"H2 = {config.h2}",
    s!"H3 = {config.h3}",
    s!"H4 = {config.h4}"] ++
    optionalLine "I1" config.i1 ++ optionalLine "I2" config.i2 ++ optionalLine "I3" config.i3 ++
    optionalLine "I4" config.i4 ++ optionalLine "I5" config.i5 ++
    ["", "[Peer]", s!"PublicKey = {config.nodePublicKey}"] ++
    optionalLine "PresharedKey" config.pskKey ++
    ["AllowedIPs = 0.0.0.0/0, ::/0", s!"Endpoint = {config.nodeEndpoint}",
      "PersistentKeepalive = 25"]
  "\n".intercalate lines ++ "\n"

def buildAwgClientConfig (identity : Device) (node : Node) (pskKey : String) : Option String :=
  (awgClientConfig identity node pskKey).map fun config => buildClientConfig config none

/-! ## What a configuration is built from -/

/-- The configuration holds the device's key and address and the PSK. -/
structure BuiltFrom (device : Device) (pskKey : String) (config : AWGClientConfig) : Prop where
  privateKey : device.privateKey = some config.privateKey
  vpnIp : device.vpnIp = some config.vpnIp
  publicKey : config.publicKey = "" ∨ config.publicKey = device.publicKey.getD ""
  pskKey : config.pskKey = pskKey

theorem some_getD_of_ne {text : Option String} (h : text.getD "" ≠ "") :
    text = some (text.getD "") := by
  cases text with
  | none => exact absurd rfl h
  | some value => rfl

theorem builtFrom_awg {device : Device} {node : Node} {pskKey : String}
    {config : AWGClientConfig} (h : awgClientConfig device node pskKey = some config) :
    BuiltFrom device pskKey config := by
  unfold awgClientConfig at h
  dsimp only at h
  split at h
  · cases h
  · next hready =>
    simp only [not_or] at hready
    cases h
    exact ⟨some_getD_of_ne hready.2.2.1, some_getD_of_ne hready.2.2.2, .inl rfl, rfl⟩

theorem builtFrom_amnezia {device : Device} {node : Node} {description pskKey : String}
    {config : AWGClientConfig}
    (h : buildAmneziaClientConfig device node description pskKey = some config) :
    BuiltFrom device pskKey config := by
  unfold buildAmneziaClientConfig at h
  dsimp only at h
  split at h
  · cases h
  · next hready =>
    simp only [not_or] at hready
    cases h
    exact ⟨some_getD_of_ne hready.2.2.1, some_getD_of_ne hready.2.2.2, .inr rfl, rfl⟩

end VpnPanel.Backend
