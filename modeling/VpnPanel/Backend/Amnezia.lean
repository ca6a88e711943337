import VpnPanel.Backend.ClientConfig
import VpnPanel.Lib.Json
import VpnPanel.Lib.Pack

/-!
# Amnezia share formats

The second half of `crypto.py`: the JSON of a configuration, the `vpn://` text
and the packets of the QR codes. `zlib.compress` is a parameter, and so is what
Python knows of the digits of other scripts. Nothing is the result where a
function raises.
-/

namespace VpnPanel.Backend

open VpnPanel.Lib VpnPanel.Lib.Text

/-! ## The port -/

/-- The digits of `str.isdigit`, and the ones `int` reads. -/
structure Numerals where
  isDigit : Char → Bool
  decimal? : Char → Option Nat

namespace Numerals

variable (numerals : Numerals)

/-- `str.isdigit` -/
def allDigits (t : Text) : Bool := t ≠ [] && t.all numerals.isDigit

/-- `int(t)` of digits, of which it takes 4300. -/
def int? (t : Text) : Option Nat :=
  if t.length > 4300 then none
  else (t.mapM numerals.decimal?).map (·.foldl (fun n digit => n * 10 + digit) 0)

/-- `int(port_str) if port_str.isdigit() else 51820` -/
def port? (portStr : Text) : Option Nat :=
  if numerals.allDigits portStr then numerals.int? portStr else some 51820

end Numerals

/-- The host and the port text of `node_endpoint.rpartition(':')`. -/
def hostAndPort (config : AWGClientConfig) : Text × Text :=
  let (host, _, portStr) := rpartition ':' config.nodeEndpoint.toList
  (host, portStr)

/-! ## The JSON -/

def textField (key value : String) : Text × JsonValue := (key.toList, .text value.toList)

def numberField (key : String) (value : Int) : Text × JsonValue :=
  (key.toList, .text (decimal value))

/-- The entries that both dictionaries have. -/
def awgFields (config : AWGClientConfig) : List (Text × JsonValue) :=
  [textField "H1" config.h1, textField "H2" config.h2, textField "H3" config.h3,
    textField "H4" config.h4, textField "I1" config.i1, textField "I2" config.i2,
    textField "I3" config.i3, textField "I4" config.i4, textField "I5" config.i5,
    numberField "Jc" config.jc, numberField "Jmax" config.jmax, numberField "Jmin" config.jmin,
    numberField "S1" config.s1, numberField "S2" config.s2, numberField "S3" config.s3,
    numberField "S4" config.s4]

def lastConfig (config : AWGClientConfig) (port : Nat) : JsonValue :=
  .object (awgFields config ++
    [("allowed_ips".toList, .array [.text "0.0.0.0/0".toList, .text "::/0".toList]),
      textField "clientId" config.publicKey,
      textField "client_ip" config.vpnIp,
      textField "client_priv_key" config.privateKey,
      textField "client_pub_key" config.publicKey,
      textField "config" (buildClientConfig config (some "$PRIMARY_DNS, $SECONDARY_DNS")),
      ("hostName".toList, .text (hostAndPort config).1),
      textField "mtu" config.mtu,
      textField "persistent_keep_alive" "25",
      ("port".toList, .int port),
      textField "psk_key" config.pskKey,
      textField "server_pub_key" config.nodePublicKey])

/-- The first three parts of the address, and a zero. -/
def subnetAddress (vpnIp : Text) : Text :=
  ['.'].intercalate ((vpnIp.splitOn '.').take 3 ++ [['0']])

/-- The entries under `awg`; `last_config` is a JSON text of its own. -/
def awgContainer (config : AWGClientConfig) (port : Nat) (compact : Bool) :
    List (Text × JsonValue) :=
  awgFields config ++
    [("last_config".toList,
        .text (JsonValue.dumps (if compact then {} else JsonValue.indented)
          (lastConfig config port))),
      numberField "port" port,
      textField "protocol_version" "2",
      ("subnet_address".toList, .text (subnetAddress config.vpnIp.toList)),
      textField "transport_proto" "udp"]

/-- The document with its port read. -/
def amneziaConfig (config : AWGClientConfig) (port : Nat) (compact : Bool) : JsonValue :=
  .object
    [("containers".toList, .array [.object
        [("awg".toList, .object (awgContainer config port compact)),
          textField "container" "amnezia-awg2"]]),
      textField "defaultContainer" "amnezia-awg2",
      textField "description" config.description,
      textField "dns1" config.dns,
      textField "dns2" "1.0.0.1",
      ("hostName".toList, .text (hostAndPort config).1)]

/-- The bytes of `str.encode()`; the JSON is ASCII. -/
def ascii (t : Text) : List Byte := t.map fun c => Byte.ofNat c.toNat

def amneziaBytes (config : AWGClientConfig) (port : Nat) (compact : Bool) : List Byte :=
  ascii (JsonValue.dumps (if compact then JsonValue.compact else JsonValue.indented)
    (amneziaConfig config port compact))

section

variable (numerals : Numerals) (compress : List Byte → List Byte)

/-- `_build_amnezia_config_json` -/
def buildAmneziaConfigJson (config : AWGClientConfig) (compact : Bool) : Option (List Byte) :=
  (numerals.port? (hostAndPort config).2).map fun port => amneziaBytes config port compact

/-! ## The share formats -/

def amneziaQrMagic : Int := 1984
def amneziaQrChunkSize : Nat := 850

/-- `base64.urlsafe_b64encode(data).decode().rstrip('=')` -/
def base64Text (data : List Byte) : Text := Base64.stripPadding (Base64.urlsafeEncode data)

/-- The JSON behind its length, compressed. -/
def compressedJson (json : List Byte) : Option (List Byte) := do
  let length ← Pack.unsigned 4 json.length
  return length ++ compress json

def buildAmneziaVpnUri (config : AWGClientConfig) : Option Text := do
  let json ← buildAmneziaConfigJson numerals config false
  let data ← compressedJson compress json
  return "vpn://".toList ++ base64Text data

/-- `struct.pack('>hBBI', _AMNEZIA_QR_MAGIC, total, idx, len(chunk)) + chunk` -/
def qrPacket (total idx : Nat) (chunk : List Byte) : Option (List Byte) := do
  let magic ← Pack.signed 2 amneziaQrMagic
  let totalByte ← Pack.unsigned 1 total
  let idxByte ← Pack.unsigned 1 idx
  let length ← Pack.unsigned 4 chunk.length
  return magic ++ totalByte ++ idxByte ++ length ++ chunk

/-- The loop over the chunks. -/
def qrPackets (pieces : List (List Byte)) : Option (List Text) :=
  pieces.zipIdx.mapM fun (chunk, idx) => (qrPacket pieces.length idx chunk).map base64Text

def buildAmneziaQrChunks (config : AWGClientConfig) : Option (List Text) := do
  let json ← buildAmneziaConfigJson numerals config true
  let data ← compressedJson compress json
  qrPackets (chunks amneziaQrChunkSize data)

end

/-! ## Reading them -/

/-- A packet as the app reads it. -/
structure QrPacket where
  magic : Nat
  total : Nat
  index : Nat
  length : Nat
  data : List Byte
  deriving DecidableEq, Repr

def base64Bytes (t : Text) : Option (List Byte) := Base64.urlsafeDecode (Base64.pad t)

/-- A packet has a header of eight bytes. -/
def readQrPacket (t : Text) : Option QrPacket := do
  let bytes ← base64Bytes t
  if bytes.length < 8 then none
  else some {
    magic := Pack.number (bytes.take 2)
    total := Pack.number ((bytes.drop 2).take 1)
    index := Pack.number ((bytes.drop 3).take 1)
    length := Pack.number ((bytes.drop 4).take 4)
    data := bytes.drop 8 }

/-- The packets in the order of their indices, joined. -/
def joinPackets (packets : List QrPacket) : List Byte :=
  (packets.insertionSort fun x y => x.index ≤ y.index).flatMap QrPacket.data

/-! ## Packets -/

theorem base64Bytes_text (data : List Byte) : base64Bytes (base64Text data) = some data :=
  Base64.urlsafeDecode_stripped data

/-- The packet of a chunk, as it is read back. -/
def packetOf (total : Nat) (piece : List Byte × Nat) : QrPacket :=
  ⟨1984, total, piece.2, piece.1.length, piece.1⟩

section Packet

variable {total idx : Nat} {chunk packet : List Byte}

/-- The numbers fit the header. -/
structure HeaderFits (total idx : Nat) (chunk : List Byte) : Prop where
  total : total < 256 ^ 1
  idx : idx < 256 ^ 1
  length : chunk.length < 256 ^ 4

theorem qrPacket_eq_some : qrPacket total idx chunk = some packet ↔
    HeaderFits total idx chunk ∧ packet = Pack.bigEndian 2 1984 ++ Pack.bigEndian 1 total ++
      Pack.bigEndian 1 idx ++ Pack.bigEndian 4 chunk.length ++ chunk := by
  have hmagic : Pack.signed 2 amneziaQrMagic = some (Pack.bigEndian 2 1984) := rfl
  constructor
  · intro h
    unfold qrPacket at h
    simp only [hmagic, Option.bind_eq_bind, Option.bind_some, Option.bind_eq_some_iff,
      Pack.unsigned_eq_some] at h
    obtain ⟨_, ⟨htotal, rfl⟩, _, ⟨hidx, rfl⟩, _, ⟨hlength, rfl⟩, hpacket⟩ := h
    exact ⟨⟨htotal, hidx, hlength⟩, (Option.some.inj hpacket).symm⟩
  · rintro ⟨hfits, rfl⟩
    unfold qrPacket Pack.unsigned
    rw [hmagic, if_pos hfits.total, if_pos hfits.idx, if_pos hfits.length]
    rfl

theorem readQrPacket_eq (h : HeaderFits total idx chunk) :
    readQrPacket (base64Text (Pack.bigEndian 2 1984 ++ Pack.bigEndian 1 total ++
      Pack.bigEndian 1 idx ++ Pack.bigEndian 4 chunk.length ++ chunk)) =
        some (packetOf total (chunk, idx)) := by
  have hmagic := Pack.number_bigEndian (show 1984 < 256 ^ 2 by decide)
  have htotal := Pack.number_bigEndian h.total
  have hidx := Pack.number_bigEndian h.idx
  have hlength := Pack.number_bigEndian h.length
  unfold readQrPacket
  rw [base64Bytes_text, Option.bind_eq_bind, Option.bind_some, if_neg]
  · -- each number is where the header has it
    refine congrArg some ?_
    exact congr (congr (congr (congr (congrArg QrPacket.mk hmagic) htotal) hidx) hlength) rfl
  · simp only [List.length_append, Pack.length_bigEndian]
    omega

end Packet

end VpnPanel.Backend
