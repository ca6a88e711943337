import VpnPanel.Backend.ClientConfig
import VpnPanel.Backend.Operations

/-!
# Public device routes

The download routes of `routers/user_page.py`, device-scoped and legacy, and the
delete route. A route resolves the account from the URL, then the device, the
node, the account's standing and the peer, in this order, and builds its answer
from what it resolved.
-/

namespace VpnPanel.Backend

/-- What the routes read beside the tables of `Db`: the token column of
`users`, the display name of an account, and the serialisers of `crypto.py` and
`segno` (`none` where the QR code does not fit). -/
structure Site where
  publicToken : UserId → String
  publicUserName : User → Option RemnawaveUser → String
  amneziaConfigJson : AWGClientConfig → String
  amneziaQrChunks : AWGClientConfig → List String
  makeQrSvg : String → String → Option String

inductive Download
  | file (body filename mediaType : String)
  | svg (image : String)
  | chunks (images : List String)
  deriving DecidableEq, Repr

def PENDING_CONFIG_DETAIL : String := "Configuration not yet available"

def pendingConfig : HttpError := ⟨503, PENDING_CONFIG_DETAIL⟩

def userText (id : UserId) : String := toString id

/-! ## Resolving a request -/

/-- The accounts a URL segment names. -/
def publicUsers (site : Site) (db : Db) (tokenOrId : String) : List User :=
  db.users.filter fun u => site.publicToken u.id = tokenOrId ∨ userText u.id = tokenOrId

/-- `scalar_one_or_none`: two rows are an error. -/
def scalarOneOrNone {α : Type} : List α → Except HttpError (Option α)
  | [] => .ok none
  | [row] => .ok (some row)
  | _ => .error internalError

def resolvePublicUser (site : Site) (db : Db) (tokenOrId : String) :
    Except HttpError (Option User) := scalarOneOrNone (publicUsers site db tokenOrId)

/-- `get_device_peer`, `_peer_for_device`. -/
def getDevicePeer (db : Db) (deviceId : DeviceId) (nodeId : NodeId) :
    Except HttpError (Option Peer) :=
  scalarOneOrNone (db.peers.filter fun p => p.deviceId = deviceId ∧ p.nodeId = nodeId)

/-- `order_by(Device.created_at, Device.id)`. -/
def Device.before (d e : Device) : Prop :=
  d.createdAt < e.createdAt ∨ (d.createdAt = e.createdAt ∧ d.id ≤ e.id)

instance : DecidableRel Device.before := fun d e => by
  unfold Device.before
  infer_instance

def getLegacyDefaultDevice (db : Db) (userId : UserId) : Option Device :=
  ((db.devices.filter fun d => d.userId = userId ∧ d.isLegacyDefault).insertionSort
    Device.before).head?

/-- What a download is built from. -/
structure Resolved where
  user : User
  device : Device
  node : Node
  peer : Peer

/-- The peer of a device on a node, where it can be served. -/
def resolvePeer (db : Db) (user : User) (device : Device) (node : Node) :
    Except HttpError Resolved :=
  (getDevicePeer db device.id node.id).bind fun
    | none => .error pendingConfig
    | some peer =>
        if peerAvailable node device (some peer) then .ok ⟨user, device, node, peer⟩
        else .error pendingConfig

/-- A device of the account, by its id. -/
def deviceDownload (db : Db) (user : User) (deviceId : DeviceId) (nodeId : NodeId) (now : Time) :
    Except HttpError Resolved :=
  match db.device? deviceId with
  | none => .error pageNotFound
  | some device =>
      if device.userId ≠ user.id ∨ device.deletedAt ≠ none then .error pageNotFound
      else match db.node? nodeId with
      | none => .error pageNotFound
      | some node =>
          (guardActiveAccount db user now).bind fun _ => resolvePeer db user device node

/-- The migration device of the account. -/
def legacyDownload (db : Db) (user : User) (nodeId : NodeId) (now : Time) :
    Except HttpError Resolved :=
  match db.node? nodeId with
  | none => .error pageNotFound
  | some node =>
      match getLegacyDefaultDevice db user.id with
      | none => .error pageNotFound
      | some device =>
          if device.deletedAt ≠ none then .error pageNotFound
          else (guardActiveAccount db user now).bind fun _ => resolvePeer db user device node

/-- The account behind the URL, or `404`. -/
def withPublicUser {α : Type} (site : Site) (db : Db) (tokenOrId : String)
    (answer : User → Except HttpError α) : Except HttpError α :=
  (resolvePublicUser site db tokenOrId).bind fun
    | none => .error pageNotFound
    | some user => answer user

def resolveDeviceDownload (site : Site) (db : Db) (tokenOrId : String) (deviceId : DeviceId)
    (nodeId : NodeId) (now : Time) : Except HttpError Resolved :=
  withPublicUser site db tokenOrId fun user => deviceDownload db user deviceId nodeId now

def resolveLegacyDownload (site : Site) (db : Db) (tokenOrId : String) (nodeId : NodeId)
    (now : Time) : Except HttpError Resolved :=
  withPublicUser site db tokenOrId fun user => legacyDownload db user nodeId now

/-! ## Answers -/

def awgConfigResponse (r : Resolved) (filename : String) : Except HttpError Download :=
  match buildAwgClientConfig r.device r.node (r.peer.pskKey.getD "") with
  | none => .error pendingConfig
  | some config => .ok (.file config filename "text/plain")

def vpnConfigResponse (site : Site) (r : Resolved) (description filename : String) :
    Except HttpError Download :=
  match buildAmneziaClientConfig r.device r.node description (r.peer.pskKey.getD "") with
  | none => .error pendingConfig
  | some config =>
      .ok (.file (site.amneziaConfigJson config) filename "application/octet-stream")

def awgQrResponse (site : Site) (r : Resolved) : Except HttpError Download :=
  match buildAwgClientConfig r.device r.node (r.peer.pskKey.getD "") with
  | none => .error pendingConfig
  | some config =>
      if config = "" then .error pendingConfig
      else match site.makeQrSvg "m" config with
      | none => .error internalError
      | some svg => if svg = "" then .error pendingConfig else .ok (.svg svg)

/-- `_make_vpn_qr_svg`: any failure is `none`. -/
def makeVpnQrSvg (site : Site) (r : Resolved) (description : String) : Option String :=
  (buildAmneziaClientConfig r.device r.node description (r.peer.pskKey.getD "")).bind
    fun config => match site.amneziaQrChunks config with
      | [chunk] => site.makeQrSvg "l" chunk
      | _ => none

def vpnQrResponse (site : Site) (r : Resolved) (description : String) :
    Except HttpError Download :=
  match makeVpnQrSvg site r description with
  | none => .error ⟨503, "Configuration not available or too large for QR"⟩
  | some svg =>
      if svg = "" then .error ⟨503, "Configuration not available or too large for QR"⟩
      else .ok (.svg svg)

def vpnChunksResponse (site : Site) (r : Resolved) (description : String) :
    Except HttpError Download :=
  match buildAmneziaClientConfig r.device r.node description (r.peer.pskKey.getD "") with
  | none => .error pendingConfig
  | some config =>
      match (site.amneziaQrChunks config).mapM (site.makeQrSvg "l") with
      | none => .error internalError
      | some images => .ok (.chunks images)

/-! ## Routes -/

section Routes

variable (site : Site) (db : Db) (tokenOrId : String)

/-- `{public name} / {device} / {node}`. -/
def deviceDescription (r : Resolved) : String :=
  s!"{site.publicUserName r.user (db.profileOf? r.user.id)} / {r.device.name} / {r.node.name}"

/-- `{name} / {node}` of the legacy routes. -/
def legacyDescription (r : Resolved) : String := s!"{r.user.name} / {r.node.name}"

def configName (r : Resolved) (suffix : String) : String :=
  s!"{r.device.name}-{r.node.name}{suffix}"

def pubDeviceAwgConfig (deviceId : DeviceId) (nodeId : NodeId) (now : Time) :
    Except HttpError Download :=
  (resolveDeviceDownload site db tokenOrId deviceId nodeId now).bind fun r =>
    awgConfigResponse r (configName r ".conf")

def pubDeviceVpnConfig (deviceId : DeviceId) (nodeId : NodeId) (now : Time) :
    Except HttpError Download :=
  (resolveDeviceDownload site db tokenOrId deviceId nodeId now).bind fun r =>
    vpnConfigResponse site r (deviceDescription site db r) (configName r ".vpn")

def pubDeviceAwgQr (deviceId : DeviceId) (nodeId : NodeId) (now : Time) :
    Except HttpError Download :=
  (resolveDeviceDownload site db tokenOrId deviceId nodeId now).bind (awgQrResponse site)

def pubDeviceVpnQr (deviceId : DeviceId) (nodeId : NodeId) (now : Time) :
    Except HttpError Download :=
  (resolveDeviceDownload site db tokenOrId deviceId nodeId now).bind fun r =>
    vpnQrResponse site r (deviceDescription site db r)

def pubDeviceVpnQrChunks (deviceId : DeviceId) (nodeId : NodeId) (now : Time) :
    Except HttpError Download :=
  (resolveDeviceDownload site db tokenOrId deviceId nodeId now).bind fun r =>
    vpnChunksResponse site r (deviceDescription site db r)

def pubAwgQr (nodeId : NodeId) (now : Time) : Except HttpError Download :=
  (resolveLegacyDownload site db tokenOrId nodeId now).bind (awgQrResponse site)

def pubVpnQr (nodeId : NodeId) (now : Time) : Except HttpError Download :=
  (resolveLegacyDownload site db tokenOrId nodeId now).bind fun r =>
    vpnQrResponse site r (legacyDescription r)

def pubVpnQrChunks (nodeId : NodeId) (now : Time) : Except HttpError Download :=
  (resolveLegacyDownload site db tokenOrId nodeId now).bind fun r =>
    vpnChunksResponse site r (legacyDescription r)

def pubAwgConfig (nodeId : NodeId) (now : Time) : Except HttpError Download :=
  (resolveLegacyDownload site db tokenOrId nodeId now).bind fun r =>
    awgConfigResponse r (configName r ".conf")

def pubVpnConfig (nodeId : NodeId) (now : Time) : Except HttpError Download :=
  (resolveLegacyDownload site db tokenOrId nodeId now).bind fun r =>
    vpnConfigResponse site r (legacyDescription r) (configName r ".vpn")

/-- `pub_delete_device`, from the URL. -/
def pubDeleteDeviceRoute (deviceId : DeviceId) (now : Time) : Outcome :=
  withPublicUser site db tokenOrId fun user => pubDeleteDevice db user.id deviceId now

end Routes

inductive DownloadKind
  | awgConfig | vpnConfig | awgQr | vpnQr | vpnQrChunks
  deriving DecidableEq, Repr

/-- A download request: of a device, or through a legacy route. -/
structure DownloadRequest where
  kind : DownloadKind
  device : Option DeviceId
  node : NodeId
  deriving DecidableEq, Repr

def download (site : Site) (db : Db) (tokenOrId : String) (now : Time)
    (request : DownloadRequest) : Except HttpError Download :=
  match request.device, request.kind with
  | some deviceId, .awgConfig => pubDeviceAwgConfig site db tokenOrId deviceId request.node now
  | some deviceId, .vpnConfig => pubDeviceVpnConfig site db tokenOrId deviceId request.node now
  | some deviceId, .awgQr => pubDeviceAwgQr site db tokenOrId deviceId request.node now
  | some deviceId, .vpnQr => pubDeviceVpnQr site db tokenOrId deviceId request.node now
  | some deviceId, .vpnQrChunks =>
      pubDeviceVpnQrChunks site db tokenOrId deviceId request.node now
  | none, .awgConfig => pubAwgConfig site db tokenOrId request.node now
  | none, .vpnConfig => pubVpnConfig site db tokenOrId request.node now
  | none, .awgQr => pubAwgQr site db tokenOrId request.node now
  | none, .vpnQr => pubVpnQr site db tokenOrId request.node now
  | none, .vpnQrChunks => pubVpnQrChunks site db tokenOrId request.node now

end VpnPanel.Backend
