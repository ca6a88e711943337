import VpnPanel.Backend.Downloads
import VpnPanel.Backend.Tables

/-!
# Public device routes do not leak across accounts

Two databases that differ in other accounts' devices and peers give a caller
the same answers, and what is served is built from the caller's own live device
and that device's own active peer on the node.
-/

namespace VpnPanel.Theorems

open VpnPanel.Lib VpnPanel.Backend

variable {site : Site} {db db' : Db} {tokenOrId : String} {now : Time} {user : User}

/-- The keys of `devices` and the ownership reference of `peers`. -/
structure Referential (db : Db) : Prop where
  deviceIds : Rows.Distinct Device.id db.devices
  peerOwner : ∀ p ∈ db.peers, ∃ d ∈ db.devices, d.id = p.deviceId ∧ d.userId = p.userId

/-- The databases differ at most in devices and peers of accounts that the
segment does not name. -/
structure OthersDiffer (site : Site) (tokenOrId : String) (db db' : Db) : Prop where
  users : db'.users = db.users
  nodes : db'.nodes = db.nodes
  profiles : db'.profiles = db.profiles
  traffic : db'.traffic = db.traffic
  devices : ∀ u ∈ publicUsers site db tokenOrId,
    db'.devices.filter (·.userId = u.id) = db.devices.filter (·.userId = u.id)
  peers : ∀ u ∈ publicUsers site db tokenOrId, db'.peersOf u.id = db.peersOf u.id

/-- No device of the caller has this id. -/
def NotOwn (site : Site) (db : Db) (tokenOrId : String) (deviceId : DeviceId) : Prop :=
  ∀ u ∈ publicUsers site db tokenOrId, ∀ d ∈ db.devices, d.id = deviceId → d.userId ≠ u.id

/-! ## What a route reads -/

theorem scalarOneOrNone_some {α : Type} {rows : List α} {row : α}
    (h : scalarOneOrNone rows = .ok (some row)) : rows = [row] := by
  unfold scalarOneOrNone at h
  split at h
  · cases h
  · cases h
    rfl
  · cases h

theorem resolvePublicUser_mem (h : resolvePublicUser site db tokenOrId = .ok (some user)) :
    user ∈ publicUsers site db tokenOrId := by
  rw [show publicUsers site db tokenOrId = [user] from scalarOneOrNone_some h]
  exact List.mem_singleton_self user

theorem getLegacyDefaultDevice_own {userId : UserId} {device : Device}
    (h : getLegacyDefaultDevice db userId = some device) :
    device ∈ db.devices ∧ device.userId = userId := by
  have hmem := List.mem_of_mem_head? h
  rw [List.mem_insertionSort, List.mem_filter] at hmem
  simp only [Bool.decide_and, Bool.decide_eq_true, Bool.and_eq_true,
    decide_eq_true_eq] at hmem
  exact ⟨hmem.1, hmem.2.1⟩

theorem deviceDownload_foreign {deviceId : DeviceId} {nodeId : NodeId}
    (h : ∀ d, db.device? deviceId = some d → d.userId ≠ user.id) :
    deviceDownload db user deviceId nodeId now = .error pageNotFound := by
  unfold deviceDownload
  rcases hd : db.device? deviceId with _ | d
  · rfl
  · exact if_pos (.inl (h d hd))

namespace OthersDiffer

variable (h : OthersDiffer site tokenOrId db db')

include h

theorem publicUsers_eq : publicUsers site db' tokenOrId = publicUsers site db tokenOrId := by
  unfold publicUsers
  rw [h.users]

theorem resolvePublicUser_eq :
    resolvePublicUser site db' tokenOrId = resolvePublicUser site db tokenOrId := by
  unfold resolvePublicUser
  rw [h.publicUsers_eq]

theorem node?_eq (nodeId : NodeId) : db'.node? nodeId = db.node? nodeId := by
  unfold Db.node?
  rw [h.nodes]

theorem profileOf?_eq (userId : UserId) : db'.profileOf? userId = db.profileOf? userId := by
  unfold Db.profileOf?
  rw [h.profiles]

/-- The standing of an account is in its own rows and the traffic tables. -/
theorem guardActiveAccount_eq (user : User) :
    guardActiveAccount db' user now = guardActiveAccount db user now := by
  have hstatus : freshAccountStatus db' user now = freshAccountStatus db user now := by
    unfold freshAccountStatus loadLocalTotalBytes
    rw [h.profileOf?_eq, h.traffic]
  unfold guardActiveAccount
  rw [hstatus]

/-- A device of the caller is found in both databases. -/
theorem device?_own (hdb : Referential db) (hdb' : Referential db')
    (huser : user ∈ publicUsers site db tokenOrId) {deviceId : DeviceId} {d : Device}
    (howner : d.userId = user.id) :
    db'.device? deviceId = some d ↔ db.device? deviceId = some d := by
  have hmem : d ∈ db'.devices ↔ d ∈ db.devices := by
    have hiff : d ∈ db'.devices.filter (·.userId = user.id) ↔
        d ∈ db.devices.filter (·.userId = user.id) := by rw [h.devices user huser]
    simpa [List.mem_filter, howner] using hiff
  unfold Db.device?
  rw [hdb'.deviceIds.get?_iff, hdb.deviceIds.get?_iff, hmem]

theorem getLegacyDefaultDevice_eq (huser : user ∈ publicUsers site db tokenOrId) :
    getLegacyDefaultDevice db' user.id = getLegacyDefaultDevice db user.id := by
  have hsplit : ∀ db : Db, db.devices.filter (fun d => d.userId = user.id ∧ d.isLegacyDefault) =
      (db.devices.filter (·.userId = user.id)).filter (·.isLegacyDefault) := by
    intro db
    rw [List.filter_filter]
    exact List.filter_congr fun d _ => by simp [and_comm]
  unfold getLegacyDefaultDevice
  rw [hsplit, hsplit, h.devices user huser]

/-- The peers of a device are its owner's. -/
theorem getDevicePeer_eq (hdb : Referential db) (hdb' : Referential db')
    (huser : user ∈ publicUsers site db tokenOrId) {device : Device}
    (hdevice : device ∈ db.devices) (howner : device.userId = user.id) (nodeId : NodeId) :
    getDevicePeer db' device.id nodeId = getDevicePeer db device.id nodeId := by
  have hdevice' : device ∈ db'.devices := by
    have : device ∈ db.devices.filter (·.userId = user.id) := by simp [hdevice, howner]
    rw [← h.devices user huser] at this
    exact List.mem_of_mem_filter this
  have hsplit : ∀ x : Db, Referential x → device ∈ x.devices →
      x.peers.filter (fun p => p.deviceId = device.id ∧ p.nodeId = nodeId) =
        (x.peersOf user.id).filter (fun p => p.deviceId = device.id ∧ p.nodeId = nodeId) := by
    intro x hx hmem
    unfold Db.peersOf
    rw [List.filter_filter]
    refine List.filter_congr fun p hp => ?_
    by_cases hp' : p.deviceId = device.id
    · obtain ⟨d, hd, hid, huserId⟩ := hx.peerOwner p hp
      have : d = device := hx.deviceIds.eq_of_key hd hmem (hid.trans hp')
      simp [← huserId, this, howner]
    · simp [hp']
  unfold getDevicePeer
  rw [hsplit db' hdb' hdevice', hsplit db hdb hdevice, h.peers user huser]

theorem resolvePeer_eq (hdb : Referential db) (hdb' : Referential db')
    (huser : user ∈ publicUsers site db tokenOrId) {device : Device}
    (hdevice : device ∈ db.devices) (howner : device.userId = user.id) (node : Node) :
    resolvePeer db' user device node = resolvePeer db user device node := by
  unfold resolvePeer
  rw [h.getDevicePeer_eq hdb hdb' huser hdevice howner]

/-- A device the caller does not own is not told from a missing one. -/
theorem deviceDownload_eq (hdb : Referential db) (hdb' : Referential db')
    (huser : user ∈ publicUsers site db tokenOrId) (deviceId : DeviceId) (nodeId : NodeId) :
    deviceDownload db' user deviceId nodeId now = deviceDownload db user deviceId nodeId now := by
  by_cases hown : ∃ d, db.device? deviceId = some d ∧ d.userId = user.id
  · -- the caller's own device: both databases hold it
    obtain ⟨d, hd, howner⟩ := hown
    have hpeer := h.resolvePeer_eq hdb hdb' huser (Rows.mem_of_get? hd) howner
    unfold deviceDownload
    rw [(h.device?_own hdb hdb' huser howner).mpr hd, hd, h.node?_eq]
    simp only [h.guardActiveAccount_eq, hpeer]
  · rw [deviceDownload_foreign fun d hd howner => hown ⟨d, hd, howner⟩,
      deviceDownload_foreign fun d hd howner =>
        hown ⟨d, (h.device?_own hdb hdb' huser howner).mp hd, howner⟩]

theorem legacyDownload_eq (hdb : Referential db) (hdb' : Referential db')
    (huser : user ∈ publicUsers site db tokenOrId) (nodeId : NodeId) :
    legacyDownload db' user nodeId now = legacyDownload db user nodeId now := by
  unfold legacyDownload
  rw [h.node?_eq, h.getLegacyDefaultDevice_eq huser]
  rcases hlegacy : getLegacyDefaultDevice db user.id with _ | device
  · rfl
  · obtain ⟨hdevice, howner⟩ := getLegacyDefaultDevice_own hlegacy
    simp only [h.guardActiveAccount_eq, h.resolvePeer_eq hdb hdb' huser hdevice howner]

/-- The account is the same, so answers that agree on it agree. -/
theorem withPublicUser_eq {α : Type} {answer answer' : User → Except HttpError α}
    (hanswer : ∀ u ∈ publicUsers site db tokenOrId, answer' u = answer u) :
    withPublicUser site db' tokenOrId answer' = withPublicUser site db tokenOrId answer := by
  unfold withPublicUser
  rw [h.resolvePublicUser_eq]
  rcases hresolved : resolvePublicUser site db tokenOrId with failure | user?
  · rfl
  · rcases user? with _ | user
    · rfl
    · exact hanswer user (resolvePublicUser_mem hresolved)

theorem resolveDeviceDownload_eq (hdb : Referential db) (hdb' : Referential db')
    (deviceId : DeviceId) (nodeId : NodeId) :
    resolveDeviceDownload site db' tokenOrId deviceId nodeId now =
      resolveDeviceDownload site db tokenOrId deviceId nodeId now :=
  h.withPublicUser_eq fun _ huser => h.deviceDownload_eq hdb hdb' huser deviceId nodeId

theorem resolveLegacyDownload_eq (hdb : Referential db) (hdb' : Referential db')
    (nodeId : NodeId) :
    resolveLegacyDownload site db' tokenOrId nodeId now =
      resolveLegacyDownload site db tokenOrId nodeId now :=
  h.withPublicUser_eq fun _ huser => h.legacyDownload_eq hdb hdb' huser nodeId

theorem deviceDescription_eq (r : Resolved) :
    deviceDescription site db' r = deviceDescription site db r := by
  unfold deviceDescription
  rw [h.profileOf?_eq]

/-- No download answer depends on another account's devices and peers. -/
theorem download_eq (hdb : Referential db) (hdb' : Referential db')
    (request : DownloadRequest) :
    download site db' tokenOrId now request = download site db tokenOrId now request := by
  have hdevice : ∀ deviceId nodeId,
      resolveDeviceDownload site db' tokenOrId deviceId nodeId now =
        resolveDeviceDownload site db tokenOrId deviceId nodeId now :=
    h.resolveDeviceDownload_eq hdb hdb'
  have hlegacy : ∀ nodeId, resolveLegacyDownload site db' tokenOrId nodeId now =
      resolveLegacyDownload site db tokenOrId nodeId now :=
    h.resolveLegacyDownload_eq hdb hdb'
  have hname : deviceDescription site db' = deviceDescription site db :=
    funext h.deviceDescription_eq
  obtain ⟨kind, device, node⟩ := request
  rcases device with _ | deviceId <;> cases kind <;>
    simp only [download, pubAwgConfig, pubVpnConfig, pubAwgQr, pubVpnQr, pubVpnQrChunks,
      pubDeviceAwgConfig, pubDeviceVpnConfig, pubDeviceAwgQr, pubDeviceVpnQr,
      pubDeviceVpnQrChunks, hdevice, hlegacy, hname]

end OthersDiffer

/-- The delete route answers for a foreign device as for a missing one. -/
theorem pubDeleteDevice_foreign {deviceId : DeviceId} (userId : UserId)
    (h : ∀ d ∈ db.devices, d.id = deviceId → d.userId ≠ userId) :
    pubDeleteDevice db userId deviceId now = .error pageNotFound := by
  unfold pubDeleteDevice
  rcases hu : db.user? userId with _ | u
  · rfl
  · rcases hd : db.device? deviceId with _ | d
    · rfl
    · have hid : u.id = userId := Rows.key_of_get? hu
      exact if_pos (hid ▸ h d (Rows.mem_of_get? hd) (Rows.key_of_get? hd))

theorem pubDeleteDeviceRoute_foreign {deviceId : DeviceId}
    (hnone : NotOwn site db tokenOrId deviceId) :
    pubDeleteDeviceRoute site db tokenOrId deviceId now =
      withPublicUser site db tokenOrId fun _ => .error pageNotFound := by
  unfold pubDeleteDeviceRoute withPublicUser
  rcases hresolved : resolvePublicUser site db tokenOrId with failure | user?
  · rfl
  · rcases user? with _ | user
    · rfl
    · exact pubDeleteDevice_foreign user.id (hnone user (resolvePublicUser_mem hresolved))

theorem withPublicUser_error (failure : HttpError) : ∃ e,
    (withPublicUser site db tokenOrId fun _ => .error failure : Outcome) = .error e := by
  unfold withPublicUser
  rcases resolvePublicUser site db tokenOrId with e | user?
  · exact ⟨e, rfl⟩
  · rcases user? with _ | user
    · exact ⟨pageNotFound, rfl⟩
    · exact ⟨failure, rfl⟩

/-! ## What is served -/

/-- What the download routes resolve: the caller's own live device and its
active peer on the node. -/
structure Serves (site : Site) (db : Db) (tokenOrId : String) (request : DownloadRequest)
    (r : Resolved) : Prop where
  user : r.user ∈ publicUsers site db tokenOrId
  device : r.device ∈ db.devices
  deviceId : ∀ id ∈ request.device, r.device.id = id
  owner : r.device.userId = r.user.id
  live : r.device.deletedAt = none
  peer : r.peer ∈ db.peers
  peerDevice : r.peer.deviceId = r.device.id
  peerNode : r.peer.nodeId = request.node
  active : r.peer.status = .active

/-- The answer shows this configuration. -/
def Renders (site : Site) (config : AWGClientConfig) : Download → Prop
  | .file body _ _ => body = buildClientConfig config none ∨ body = site.amneziaConfigJson config
  | .svg image => site.makeQrSvg "m" (buildClientConfig config none) = some image ∨
      ∃ chunk, site.amneziaQrChunks config = [chunk] ∧ site.makeQrSvg "l" chunk = some image
  | .chunks images => (site.amneziaQrChunks config).mapM (site.makeQrSvg "l") = some images

theorem resolvePeer_ok {device : Device} {node : Node} {r : Resolved}
    (h : resolvePeer db user device node = .ok r) :
    r.user = user ∧ r.device = device ∧ r.peer ∈ db.peers ∧ r.peer.deviceId = device.id ∧
      r.peer.nodeId = node.id ∧ r.peer.status = .active := by
  unfold resolvePeer at h
  rcases hpeer : getDevicePeer db device.id node.id with failure | peer?
  · rw [hpeer] at h
    cases h
  · rw [hpeer] at h
    rcases peer? with _ | peer
    · cases h
    · have hrow : peer ∈ db.peers.filter fun p => p.deviceId = device.id ∧ p.nodeId = node.id := by
        rw [scalarOneOrNone_some hpeer]
        exact List.mem_singleton_self peer
      obtain ⟨hmem, hkey⟩ := List.mem_filter.mp hrow
      obtain ⟨hdevice, hnode⟩ := of_decide_eq_true hkey
      dsimp only [Except.bind] at h
      split at h
      · next havailable =>
        cases h
        have hactive : peer.status = .active := by
          simp only [peerAvailable, Bool.and_eq_true, Option.any_some,
            decide_eq_true_eq] at havailable
          exact havailable.1.1.2
        exact ⟨rfl, rfl, hmem, hdevice, hnode, hactive⟩
      · cases h

theorem deviceDownload_ok {deviceId : DeviceId} {nodeId : NodeId} {r : Resolved}
    (huser : user ∈ publicUsers site db tokenOrId)
    (h : deviceDownload db user deviceId nodeId now = .ok r) (kind : DownloadKind) :
    Serves site db tokenOrId ⟨kind, some deviceId, nodeId⟩ r := by
  unfold deviceDownload at h
  rcases hd : db.device? deviceId with _ | device
  · rw [hd] at h
    cases h
  · rw [hd] at h
    dsimp only at h
    split at h
    · cases h
    · next hown =>
      rcases hn : db.node? nodeId with _ | node
      · rw [hn] at h
        cases h
      · rw [hn] at h
        obtain ⟨_, -, hpeer⟩ := bind_ok h
        obtain ⟨hu, hdev, hmem, hid, hnode, hactive⟩ := resolvePeer_ok hpeer
        simp only [not_or, not_not] at hown
        have hnodeId : node.id = nodeId := Rows.key_of_get? hn
        refine ⟨hu ▸ huser, hdev ▸ Rows.mem_of_get? hd, fun id hid' => ?_, ?_, ?_, hmem,
          hdev ▸ hid, hnode.trans hnodeId, hactive⟩
        · rw [hdev, ← Option.some.inj hid']
          exact Rows.key_of_get? hd
        · rw [hdev, hu]
          exact hown.1
        · rw [hdev]
          exact hown.2

theorem legacyDownload_ok {nodeId : NodeId} {r : Resolved}
    (huser : user ∈ publicUsers site db tokenOrId)
    (h : legacyDownload db user nodeId now = .ok r) (kind : DownloadKind) :
    Serves site db tokenOrId ⟨kind, none, nodeId⟩ r := by
  unfold legacyDownload at h
  rcases hn : db.node? nodeId with _ | node
  · rw [hn] at h
    cases h
  · rw [hn] at h
    rcases hlegacy : getLegacyDefaultDevice db user.id with _ | device
    · rw [hlegacy] at h
      cases h
    · rw [hlegacy] at h
      obtain ⟨hdevice, howner⟩ := getLegacyDefaultDevice_own hlegacy
      dsimp only at h
      split at h
      · cases h
      · next hlive =>
        obtain ⟨_, -, hpeer⟩ := bind_ok h
        obtain ⟨hu, hdev, hmem, hid, hnode, hactive⟩ := resolvePeer_ok hpeer
        have hnodeId : node.id = nodeId := Rows.key_of_get? hn
        refine ⟨hu ▸ huser, hdev ▸ hdevice, nofun, ?_, ?_, hmem, hdev ▸ hid,
          hnode.trans hnodeId, hactive⟩
        · rw [hdev, hu]
          exact howner
        · rw [hdev]
          exact not_not.mp hlive

/-- The configuration is built from what was resolved. -/
def ShowsOwn (site : Site) (r : Resolved) (answer : Download) : Prop :=
  ∃ config, BuiltFrom r.device (r.peer.pskKey.getD "") config ∧ Renders site config answer

section Responses

variable {r : Resolved} {answer : Download}

theorem awgConfig_of_text {device : Device} {node : Node} {pskKey text : String}
    (h : buildAwgClientConfig device node pskKey = some text) :
    ∃ config, BuiltFrom device pskKey config ∧ text = buildClientConfig config none := by
  obtain ⟨config, hconfig, rfl⟩ := Option.map_eq_some_iff.mp h
  exact ⟨config, builtFrom_awg hconfig, rfl⟩

theorem awgConfigResponse_ok {filename : String} (h : awgConfigResponse r filename = .ok answer) :
    ShowsOwn site r answer := by
  unfold awgConfigResponse at h
  split at h
  · cases h
  · next text htext =>
    cases h
    obtain ⟨config, hbuilt, rfl⟩ := awgConfig_of_text htext
    exact ⟨config, hbuilt, .inl rfl⟩

theorem vpnConfigResponse_ok {description filename : String}
    (h : vpnConfigResponse site r description filename = .ok answer) : ShowsOwn site r answer := by
  unfold vpnConfigResponse at h
  split at h
  · cases h
  · next config hconfig =>
    cases h
    exact ⟨config, builtFrom_amnezia hconfig, .inr rfl⟩

theorem awgQrResponse_ok (h : awgQrResponse site r = .ok answer) : ShowsOwn site r answer := by
  unfold awgQrResponse at h
  split at h
  · cases h
  · next text htext =>
    obtain ⟨config, hbuilt, rfl⟩ := awgConfig_of_text htext
    split at h
    · cases h
    · split at h
      · cases h
      · next svg hsvg =>
        split at h
        · cases h
        · cases h
          exact ⟨config, hbuilt, .inl hsvg⟩

theorem vpnQrResponse_ok {description : String}
    (h : vpnQrResponse site r description = .ok answer) : ShowsOwn site r answer := by
  unfold vpnQrResponse at h
  split at h
  · cases h
  · next svg hsvg =>
    obtain ⟨config, hconfig, hchunk⟩ := Option.bind_eq_some_iff.mp hsvg
    split at h
    · cases h
    · cases h
      split at hchunk
      · next chunk hchunks =>
        exact ⟨config, builtFrom_amnezia hconfig, .inr ⟨chunk, hchunks, hchunk⟩⟩
      · cases hchunk

theorem vpnChunksResponse_ok {description : String}
    (h : vpnChunksResponse site r description = .ok answer) : ShowsOwn site r answer := by
  unfold vpnChunksResponse at h
  split at h
  · cases h
  · next config hconfig =>
    split at h
    · cases h
    · next images himages =>
      cases h
      exact ⟨config, builtFrom_amnezia hconfig, himages⟩

end Responses

theorem withPublicUser_ok {α : Type} {answer : User → Except HttpError α} {a : α}
    (h : withPublicUser site db tokenOrId answer = .ok a) :
    ∃ u ∈ publicUsers site db tokenOrId, answer u = .ok a := by
  obtain ⟨user?, huser, hanswer⟩ := bind_ok h
  rcases user? with _ | user
  · cases hanswer
  · exact ⟨user, resolvePublicUser_mem huser, hanswer⟩

/-- A device-scoped download is resolved, then built. -/
theorem deviceRoute_ok {deviceId : DeviceId} {nodeId : NodeId} {kind : DownloadKind}
    {build : Resolved → Except HttpError Download} {answer : Download}
    (hbuild : ∀ r, build r = .ok answer → ShowsOwn site r answer)
    (h : (resolveDeviceDownload site db tokenOrId deviceId nodeId now).bind build = .ok answer) :
    ∃ r, Serves site db tokenOrId ⟨kind, some deviceId, nodeId⟩ r ∧ ShowsOwn site r answer := by
  obtain ⟨r, hr, hanswer⟩ := bind_ok h
  obtain ⟨u, hu, hdownload⟩ := withPublicUser_ok hr
  exact ⟨r, deviceDownload_ok hu hdownload kind, hbuild r hanswer⟩

theorem legacyRoute_ok {nodeId : NodeId} {kind : DownloadKind}
    {build : Resolved → Except HttpError Download} {answer : Download}
    (hbuild : ∀ r, build r = .ok answer → ShowsOwn site r answer)
    (h : (resolveLegacyDownload site db tokenOrId nodeId now).bind build = .ok answer) :
    ∃ r, Serves site db tokenOrId ⟨kind, none, nodeId⟩ r ∧ ShowsOwn site r answer := by
  obtain ⟨r, hr, hanswer⟩ := bind_ok h
  obtain ⟨u, hu, hdownload⟩ := withPublicUser_ok hr
  exact ⟨r, legacyDownload_ok hu hdownload kind, hbuild r hanswer⟩

/-- Whatever is served shows the caller's own device and its own peer. -/
theorem download_ok {request : DownloadRequest} {answer : Download}
    (h : download site db tokenOrId now request = .ok answer) :
    ∃ r, Serves site db tokenOrId request r ∧ ShowsOwn site r answer := by
  obtain ⟨kind, device, node⟩ := request
  rcases device with _ | deviceId
  · cases kind with
    | awgConfig => exact legacyRoute_ok (fun _ hr => awgConfigResponse_ok hr) h
    | vpnConfig => exact legacyRoute_ok (fun _ hr => vpnConfigResponse_ok hr) h
    | awgQr => exact legacyRoute_ok (fun _ hr => awgQrResponse_ok hr) h
    | vpnQr => exact legacyRoute_ok (fun _ hr => vpnQrResponse_ok hr) h
    | vpnQrChunks => exact legacyRoute_ok (fun _ hr => vpnChunksResponse_ok hr) h
  · cases kind with
    | awgConfig => exact deviceRoute_ok (fun _ hr => awgConfigResponse_ok hr) h
    | vpnConfig => exact deviceRoute_ok (fun _ hr => vpnConfigResponse_ok hr) h
    | awgQr => exact deviceRoute_ok (fun _ hr => awgQrResponse_ok hr) h
    | vpnQr => exact deviceRoute_ok (fun _ hr => vpnQrResponse_ok hr) h
    | vpnQrChunks => exact deviceRoute_ok (fun _ hr => vpnChunksResponse_ok hr) h

/-- **Isolation.** In two databases that differ in other accounts' devices and
peers every download answers alike, and a delete of a device that is not the
caller's is refused alike, with nothing written. What is served is built from
the key and address of a live device of the caller and the PSK of that device's
own active peer on the node. -/
theorem downloads_isolated (site : Site) (db db' : Db) (tokenOrId : String) (now : Time)
    (hdb : Referential db) (hdb' : Referential db')
    (h : OthersDiffer site tokenOrId db db') :
    (∀ request, download site db' tokenOrId now request =
      download site db tokenOrId now request) ∧
    (∀ deviceId, NotOwn site db tokenOrId deviceId →
      ∃ e, pubDeleteDeviceRoute site db tokenOrId deviceId now = .error e ∧
        pubDeleteDeviceRoute site db' tokenOrId deviceId now = .error e) ∧
    ∀ request answer, download site db tokenOrId now request = .ok answer →
      ∃ r, Serves site db tokenOrId request r ∧ r.peer.userId = r.user.id ∧
        ShowsOwn site r answer := by
  refine ⟨h.download_eq hdb hdb', fun deviceId hnone => ?_, fun request answer hanswer => ?_⟩
  · have hnone' : NotOwn site db' tokenOrId deviceId := by
      intro u hu d hd hid howner
      rw [h.publicUsers_eq] at hu
      have hmem : d ∈ db'.devices.filter (·.userId = u.id) := by simp [hd, howner]
      rw [h.devices u hu] at hmem
      exact hnone u hu d (List.mem_of_mem_filter hmem) hid howner
    obtain ⟨e, he⟩ : ∃ e, (withPublicUser site db tokenOrId fun _ => .error pageNotFound :
        Outcome) = .error e := withPublicUser_error pageNotFound
    refine ⟨e, (pubDeleteDeviceRoute_foreign hnone).trans he, ?_⟩
    rw [pubDeleteDeviceRoute_foreign hnone', h.withPublicUser_eq fun _ _ => rfl]
    exact he
  · obtain ⟨r, hserves, hshows⟩ := download_ok hanswer
    refine ⟨r, hserves, ?_, hshows⟩
    -- the reference keeps a peer with the owner of its device
    obtain ⟨d, hd, hid, hu⟩ := hdb.peerOwner r.peer hserves.peer
    have heq : d = r.device :=
      hdb.deviceIds.eq_of_key hd hserves.device (hid.trans hserves.peerDevice)
    rw [← hu, heq, hserves.owner]

def exampleSite : Site where
  publicToken id := if id = 1 then "alice" else "bob"
  publicUserName user _ := user.name
  amneziaConfigJson config := config.privateKey ++ config.pskKey
  amneziaQrChunks config := [config.privateKey, config.pskKey]
  makeQrSvg error data := some (error ++ data)

/-- Alice's device on a node that can serve it; Bob has an account only. -/
def aliceDevice : Db where
  nodes := [{
    id := 0, name := "n", url := "", token := ""
    interface := fun
      | .publicKey => some (.text "node-key")
      | .endpoint => some (.text "host:51820")
      | _ => none }]
  users := [{ id := 1, name := "Alice" }, { id := 2, name := "Bob" }]
  devices := [{ id := 3, userId := 1, name := "phone", publicKey := some "pub",
                privateKey := some "priv", vpnIp := some "10.8.0.2", createdAt := 0 }]
  peers := [{ id := 4, nodeId := 0, userId := 1, deviceId := 3, status := .active,
              pskKey := some "psk" }]

/-- Bob has a device and a peer on the same node as well. -/
def bobDevice : Db where
  nodes := aliceDevice.nodes
  users := aliceDevice.users
  devices := aliceDevice.devices ++
    [{ id := 5, userId := 2, name := "laptop", publicKey := some "pub2",
       privateKey := some "priv2", vpnIp := some "10.8.0.3", createdAt := 1 }]
  peers := aliceDevice.peers ++
    [{ id := 6, nodeId := 0, userId := 2, deviceId := 5, status := .active,
       pskKey := some "psk2" }]

theorem downloads_isolated_bob :
    download exampleSite bobDevice "alice" 7 ⟨.vpnConfig, some 3, 0⟩ =
      .ok (.file "privpsk" "phone-n.vpn" "application/octet-stream") ∧
    download exampleSite bobDevice "alice" 7 ⟨.vpnConfig, some 5, 0⟩ =
      download exampleSite aliceDevice "alice" 7 ⟨.vpnConfig, some 5, 0⟩ ∧
    ∃ e, pubDeleteDeviceRoute exampleSite aliceDevice "alice" 5 7 = .error e ∧
      pubDeleteDeviceRoute exampleSite bobDevice "alice" 5 7 = .error e := by
  have hdiffer : OthersDiffer exampleSite "alice" aliceDevice bobDevice :=
    ⟨rfl, rfl, rfl, rfl, by decide, by decide⟩
  have hisolated := downloads_isolated exampleSite aliceDevice bobDevice "alice" 7
    ⟨by decide, by decide⟩ ⟨by decide, by decide⟩ hdiffer
  have hserved : download exampleSite aliceDevice "alice" 7 ⟨.vpnConfig, some 3, 0⟩ =
      .ok (.file "privpsk" "phone-n.vpn" "application/octet-stream") := by decide
  refine ⟨(hisolated.1 _).trans hserved, hisolated.1 _, hisolated.2.1 5 ?_⟩
  intro u _ d hd hid
  simp only [aliceDevice, List.mem_singleton] at hd
  rw [hd] at hid
  cases hid

end VpnPanel.Theorems
