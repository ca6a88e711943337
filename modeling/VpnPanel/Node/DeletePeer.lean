import VpnPanel.Lib.Base64
import VpnPanel.Node.Config

/-!
# Removing a peer

`NodeClient.delete_peer` of the worker and `DELETE /peers/{pubkey_b64}` of the
agent. The characters of base64 are sent in a path as they are; a path parameter
is one nonempty segment, and a path without a route is answered with 404.
-/

namespace VpnPanel.Node

open VpnPanel.Lib

/-- An X25519 public key. -/
structure PublicKey where
  raw : List Byte
  length : raw.length = 32

/-- The text of a key, as `generate_keypair` writes it. -/
def PublicKey.text (key : PublicKey) : Text := Base64.encode key.raw

/-- The peers of the interface, and the config file. -/
structure Agent where
  interface : List Text
  file : ConfigFile

namespace Agent

variable (agent : Agent)

def peersPath : Text := "/peers/".toList

/-- The path parameter of `/peers/{pubkey_b64}`. -/
def route (path : Text) : Option Text :=
  if peersPath.isPrefixOf path then
    let segment := path.drop peersPath.length
    if segment ≠ [] ∧ '/' ∉ segment then some segment else none
  else none

def PUBKEY_LEN : Nat := 32

/-- The raw key of a path parameter, or the status of the refusal. A character
outside ASCII raises an error that the handler does not catch. -/
def decodePubkey (pubkeyB64 : Text) : Except Nat (List Byte) :=
  if pubkeyB64.any fun c => c.toNat ≥ 128 then .error 500
  else
    let padding := List.replicate ((4 - pubkeyB64.length % 4) % 4) '='
    match Base64.urlsafeDecode (pubkeyB64 ++ padding) with
    | none => .error 400
    | some raw => if raw.length ≠ PUBKEY_LEN then .error 400 else .ok raw

/-- The handler: the status, and the agent after it. -/
def deletePeer (pubkeyB64 : Text) : Nat × Agent :=
  match decodePubkey pubkeyB64 with
  | .error status => (status, agent)
  | .ok raw =>
      let pubStd := Base64.encode raw
      (200, {
        interface := agent.interface.filter (· ≠ pubStd)
        file := unpersistPeer pubStd agent.file })

/-- A `DELETE` request of a path. -/
def delete (path : Text) : Nat × Agent :=
  match route path with
  | none => (404, agent)
  | some pubkeyB64 => agent.deletePeer pubkeyB64

end Agent

/-- The path of `NodeClient.delete_peer`. -/
def deletePath (publicKey : Text) : Text := Agent.peersPath ++ publicKey

/-- `_delete_peer_if_present` of the worker: the agent after it, or the status
it raises on. -/
def deletePeerIfPresent (agent : Agent) (publicKey : Text) : Except Nat Agent :=
  let (status, agent) := agent.delete (deletePath publicKey)
  if 200 ≤ status ∧ status < 300 then .ok agent
  else if status = 404 then .ok agent
  else .error status

end VpnPanel.Node
