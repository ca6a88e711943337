import VpnPanel.Node.AwgShow
import VpnPanel.Worker.NodeAgent

/-!
# An agent behind its texts

The worker's exchange with an agent that has nothing but the texts of the `awg`
command and its config file: `GET /status` and `GET /dump` parse what `awg`
prints of the live interface, and the worker reads the answers. What `awg`
prints beside the keys and addresses, and what pydantic makes of a number as a
time or of a text as a number, is left open.
-/

namespace VpnPanel.Worker

open VpnPanel.Lib VpnPanel.Lib.Text VpnPanel.Backend
open VpnPanel.Node (ShowDict ShowValue)

/-! ## What `awg` prints -/

/-- The columns of a peer in the dump, its key apart. -/
structure Meter where
  psk : Text
  endpoint : Option Text
  allowedIps : Text
  lastHandshake : Nat
  rxBytes : Nat
  txBytes : Nat
  keepalive : Text
  columns : ∀ t ∈ [psk, endpoint.getD [], allowedIps, keepalive], NoBreaks t ∧ '\t' ∉ t
  observed : endpoint ≠ some "(none)".toList
  sized : ∀ n ∈ [lastHandshake, rxBytes, txBytes], n < UInt64.size

/-- A line of a peer that names neither its key nor its addresses. -/
structure Note (L : Lowering) (f : Labelled) : Prop where
  untitled : Node.Untitled f
  other : Node.fieldKey L f.label ∉ ["public_key", "allowed_ips", "psk_key"].map String.toList

/-- A line of the interface: a number stands where the parser wants one, and the
port is labelled `listening port`. -/
structure Setting (L : Lowering) (f : Labelled) : Prop where
  untitled : Node.Untitled f
  number : Node.fieldKey L f.label ∈ Node.interfaceIntKeys → ∃ n : Int,
    f.value = decimal n ∧ (Nat.toDigits 10 n.natAbs).length ≤ 4300
  other : Node.fieldKey L f.label ≠ "listen_port".toList

/-- How the `awg` command of a node prints. -/
structure Awg (L : Lowering) where
  name : Text
  settings : NodeAgent → List Labelled
  before : LivePeer → List Labelled
  after : LivePeer → List Labelled
  head : NodeAgent → Text
  meter : LivePeer → Meter
  titled : Node.Titled name
  settingsOk : ∀ agent, ∀ f ∈ settings agent, Setting L f
  beforeOk : ∀ peer, ∀ f ∈ before peer, Note L f
  afterOk : ∀ peer, ∀ f ∈ after peer, Note L f
  headLine : ∀ agent, NoBreaks (head agent)

namespace Awg

variable {L : Lowering} (awg : Awg L)

/-- The lines of a peer in `awg show`. -/
def peerLines (peer : LivePeer) : List Text :=
  [] :: ("peer: ".toList ++ peer.publicKey.toList) :: (awg.before peer).map Labelled.text ++
    ("  allowed ips: ".toList ++ commas ((shownIps peer.allowedIps).map String.toList)) ::
      (awg.after peer).map Labelled.text

/-- `awg show <interface>`. -/
def showText (agent : NodeAgent) : Text :=
  render (("interface: ".toList ++ awg.name) :: (awg.settings agent).map Labelled.text ++
    agent.live.flatMap awg.peerLines)

/-- A row of `awg show <interface> dump`. -/
def dumpRow (peer : LivePeer) : Text :=
  let meter := awg.meter peer
  ['\t'].intercalate [peer.publicKey.toList, meter.psk, meter.endpoint.getD "(none)".toList,
    meter.allowedIps, decimal meter.lastHandshake, decimal meter.rxBytes, decimal meter.txBytes,
    meter.keepalive]

/-- `awg show <interface> dump`. -/
def showDump (agent : NodeAgent) : Text := render (awg.head agent :: agent.live.map awg.dumpRow)

end Awg

/-! ## What the worker reads -/

/-- An entry of `current_peers`. -/
def readCurrentPeer (dict : ShowDict) : CurrentPeer where
  publicKey := String.ofList (dict.textOf "public_key")
  allowedIps := match dict "allowed_ips".toList with
    | some (.texts ips) => ips.map String.ofList
    | _ => []
  pskKey := String.ofList (dict.textOf "psk_key")

/-- The name of a field of `InterfaceResult`. -/
def fieldName : InterfaceField → String
  | .publicKey => "public_key"
  | .endpoint => "endpoint"
  | .listenPort => "listen_port"
  | .jc => "jc"
  | .jmin => "jmin"
  | .jmax => "jmax"
  | .s1 => "s1"
  | .s2 => "s2"
  | .s3 => "s3"
  | .s4 => "s4"
  | .h1 => "h1"
  | .h2 => "h2"
  | .h3 => "h3"
  | .h4 => "h4"
  | .i1 => "i1"
  | .i2 => "i2"
  | .i3 => "i3"
  | .i4 => "i4"
  | .i5 => "i5"
  | .mtu => "mtu"

/-- What the backend reads from outside: a text as a number, and a number of
seconds as a time. -/
structure Pydantic where
  number? : Text → Option Int
  time : Int → Time

section Reading

variable (P : Pydantic)

/-- A field of `InterfaceResult`; a number is a text nowhere. -/
def fieldValue (field : InterfaceField) : ShowValue → Option InterfaceValue
  | .int n => some (.int n)
  | .text t =>
      if field ∈ [.listenPort, .jc, .jmin, .jmax, .s1, .s2, .s3, .s4] then
        (P.number? t).map .int
      else some (.text (String.ofList t))
  | _ => none

/-- `InterfaceResult` of the dictionary; an empty one has no field. -/
def readInterface (dict : ShowDict) : InterfaceResult :=
  fun field => (dict (fieldName field).toList).bind (fieldValue P field)

/-- `_normalize_last_handshake` -/
def normalizeLastHandshake (value : Int) : Option Time :=
  if value ≤ 0 then none else some (P.time value)

/-- An entry of a dump; a negative counter is refused. -/
def readDumpedPeer (peer : Node.DumpedPeer) : Option PeerSyncResult :=
  if peer.rxBytes < 0 ∨ peer.txBytes < 0 then none
  else some {
    publicKey := String.ofList peer.publicKey
    endpoint := some (peer.endpoint.map String.ofList)
    rxBytes := some peer.rxBytes.toNat
    txBytes := some peer.txBytes.toNat
    lastHandshake := normalizeLastHandshake P peer.lastHandshake }

end Reading

/-- An unhandled error of the agent. -/
def internalError : Fault where
  text := "Internal server error. Details were written to the server log."
  statusCode := some 500

section Client

variable {L : Lowering} (D : Digits) (P : Pydantic) (awg : Awg L)

def statusAnswer (agent : NodeAgent) : Option StatusAnswer :=
  (Node.status L D agent.file (awg.showText agent)).map fun result =>
    { interface := some (readInterface P result.interface)
      peers := result.peers.map readCurrentPeer }

/-- A dump that the backend would refuse is an error here already. -/
def dumpAnswer (agent : NodeAgent) : Option DumpAnswer :=
  ((Node.dump D (awg.showDump agent)).bind (·.mapM (readDumpedPeer P))).map fun peers => { peers }

def answerWith {σ α : Type} : Option α → AgentM σ α
  | none => throw internalError
  | some answer => pure answer

/-- The client of an agent that answers from the texts. -/
def textClient (parse : InterfaceResult → Node.InterfaceConfig) : NodeClient AgentRun where
  health _ := pure ()
  putInterface _ interface := do
    modify (·.configure (parse interface))
    return fun _ => none
  status _ := do
    let run ← get
    answerWith (statusAnswer D P awg run.agent)
  putPeer _ peer := modify (·.syncPeer peer)
  deletePeer _ key := modify (·.deletePeer key)
  dump _ := do
    let run ← get
    answerWith (dumpAnswer D P awg run.agent)

end Client

/-! ## Reading back -/

section ReadBack

variable {L : Lowering} {D : Digits} {P : Pydantic} {awg : Awg L}

/-- A live peer whose key and addresses stand in the texts as they are. -/
structure PlainLive (peer : LivePeer) : Prop where
  key : Node.Titled peer.publicKey.toList
  column : '\t' ∉ peer.publicKey.toList
  ips : ∀ ip ∈ peer.allowedIps, Item ip.toList

theorem PlainLive.shown {peer : LivePeer} (h : PlainLive peer) :
    ∀ t ∈ (shownIps peer.allowedIps).map String.toList, Item t := by
  intro t ht
  obtain ⟨ip, hip, rfl⟩ := List.mem_map.mp ht
  unfold shownIps at hip
  split at hip
  · rw [List.mem_singleton.mp hip]
    exact ⟨by decide, by decide, by decide, by decide⟩
  · exact h.ips ip hip

theorem shownIps_ne_nil (allowedIps : List String) :
    (shownIps allowedIps).map String.toList ≠ [] := by
  unfold shownIps
  split
  · simp
  · next hne => simpa using hne

def ipsLine (peer : LivePeer) (h : PlainLive peer) : Labelled where
  label := "allowed ips".toList
  value := commas ((shownIps peer.allowedIps).map String.toList)
  named := by decide
  labelTrimmed := by decide
  unsplit := by decide
  labelLine := by decide
  valueTrimmed := (strip_commas (shownIps_ne_nil _) h.shown).1
  valueLine := noBreaks_commas h.shown

theorem fieldKey_ips : Node.fieldKey L "allowed ips".toList = "allowed_ips".toList := by
  unfold Node.fieldKey
  have hstrip : Text.strip "allowed ips".toList = "allowed ips".toList := by decide
  have hascii : ("allowed ips".toList.all fun c => decide (c.toNat < 128)) = true := by decide
  rw [hstrip, L.lower_ascii fun c hc => of_decide_eq_true (List.all_eq_true.mp hascii c hc)]
  decide

def Awg.shownPeer (awg : Awg L) (peer : LivePeer) (h : PlainLive peer) : Node.ShownPeer where
  publicKey := peer.publicKey.toList
  fields := awg.before peer ++ ipsLine peer h :: awg.after peer
  titled := h.key
  untitled f hf := by
    rcases List.mem_append.mp hf with hf | hf
    · exact (awg.beforeOk peer f hf).untitled
    · rcases List.mem_cons.mp hf with rfl | hf
      · have hlabel : "allowed ips".toList ≠ "interface".toList ∧
            "allowed ips".toList ≠ "peer".toList := by decide
        exact hlabel
      · exact (awg.afterOk peer f hf).untitled

theorem shownPeer_lines (peer : LivePeer) (h : PlainLive peer) :
    (awg.shownPeer peer h).lines = awg.peerLines peer := by
  unfold Node.ShownPeer.lines Awg.peerLines Awg.shownPeer
  rw [List.map_append]
  rfl

/-- A line of a peer sets its own key, or the two of a transfer. -/
theorem setPeer_other {dict : ShowDict} {label value key : Text} (h : Node.fieldKey L label ≠ key)
    (hrx : key ≠ "transfer_rx".toList) (htx : key ≠ "transfer_tx".toList) :
    Node.setPeer L dict label value key = dict key := by
  unfold Node.setPeer ShowDict.set
  split
  · cases Node.parseTransfer value with
    | none => rfl
    | some transferData =>
        dsimp only
        rw [Function.update_of_ne htx, Function.update_of_ne hrx]
  · split
    · exact Function.update_of_ne h.symm _ _
    · exact Function.update_of_ne h.symm _ _

/-- Notes leave the key, the addresses and the PSK of a peer alone. -/
theorem foldl_notes {notes : List Labelled} (h : ∀ f ∈ notes, Note L f) {key : Text}
    (hkey : key ∈ ["public_key", "allowed_ips", "psk_key"].map String.toList) :
    ∀ dict : ShowDict,
      notes.foldl (fun dict f => Node.setPeer L dict f.label f.value) dict key = dict key := by
  have htransfer : key ≠ "transfer_rx".toList ∧ key ≠ "transfer_tx".toList := by
    constructor <;> rintro rfl <;> exact absurd hkey (by decide)
  induction notes with
  | nil => exact fun _ => rfl
  | cons f rest ih =>
      intro dict
      have hne : Node.fieldKey L f.label ≠ key := fun heq =>
        (h f List.mem_cons_self).other (heq ▸ hkey)
      rw [List.foldl_cons, ih (fun x hx => h x (List.mem_cons_of_mem _ hx)),
        setPeer_other hne htransfer.1 htransfer.2]

/-- The three entries of a shown peer that the worker reads. -/
theorem shownPeer_dict (awg : Awg L) (peer : LivePeer) (h : PlainLive peer) :
    (awg.shownPeer peer h).dict L "public_key".toList = some (.text peer.publicKey.toList) ∧
      (awg.shownPeer peer h).dict L "allowed_ips".toList =
        some (.texts ((shownIps peer.allowedIps).map String.toList)) ∧
      (awg.shownPeer peer h).dict L "psk_key".toList = none := by
  let fresh := Node.freshPeer peer.publicKey.toList
  let noted := (awg.before peer).foldl (fun dict f => Node.setPeer L dict f.label f.value) fresh
  have hips : Node.setPeer L noted "allowed ips".toList
      (commas ((shownIps peer.allowedIps).map String.toList)) =
        noted.set "allowed_ips".toList (.texts ((shownIps peer.allowedIps).map String.toList)) := by
    unfold Node.setPeer
    rw [fieldKey_ips, if_neg (by decide), if_pos rfl,
      (splitCommas_commas (shownIps_ne_nil _) h.shown).1]
  have hdict : ∀ key ∈ ["public_key", "allowed_ips", "psk_key"].map String.toList,
      (awg.shownPeer peer h).dict L key =
        noted.set "allowed_ips".toList (.texts ((shownIps peer.allowedIps).map String.toList))
          key := by
    intro key hkey
    unfold Node.ShownPeer.dict Awg.shownPeer
    rw [List.foldl_append, List.foldl_cons, foldl_notes (awg.afterOk peer) hkey]
    exact congrFun hips key
  have hnoted : ∀ key ∈ ["public_key", "allowed_ips", "psk_key"].map String.toList,
      noted key = fresh key := fun key hkey => foldl_notes (awg.beforeOk peer) hkey fresh
  refine ⟨?_, ?_, ?_⟩
  · rw [hdict _ (by decide)]
    exact (Function.update_of_ne (by decide) _ _).trans (hnoted _ (by decide))
  · rw [hdict _ (by decide)]
    exact Function.update_self _ _ _
  · rw [hdict _ (by decide)]
    exact (Function.update_of_ne (by decide) _ _).trans (hnoted _ (by decide))

/-- The peers of `GET /status`, as the worker reads them. -/
theorem readCurrentPeer_shown (agent : NodeAgent) {peer : LivePeer} (h : PlainLive peer) :
    readCurrentPeer (Node.withConfiguredPsk agent.file ((awg.shownPeer peer h).dict L)) =
      { publicKey := peer.publicKey
        allowedIps := shownIps peer.allowedIps
        pskKey := agent.configuredPsk peer.publicKey } := by
  obtain ⟨hkey, hips, hpsk⟩ := shownPeer_dict awg peer h
  generalize (awg.shownPeer peer h).dict L = dict at hkey hips hpsk
  have hname : dict.textOf "public_key" = peer.publicKey.toList := by
    unfold ShowDict.textOf
    rw [hkey]
  have hread : ∀ psk : Option Text,
      readCurrentPeer (psk.elim dict fun t => dict.set "psk_key".toList (.text t)) =
        ⟨peer.publicKey, shownIps peer.allowedIps, String.ofList (psk.getD [])⟩ := by
    intro psk
    have hsame : ∀ key : String, key ≠ "psk_key" →
        psk.elim dict (fun t => dict.set "psk_key".toList (.text t)) key.toList =
          dict key.toList := by
      intro key hne
      cases psk with
      | none => rfl
      | some t => exact Function.update_of_ne (fun heq => hne (String.toList_injective heq)) _ _
    unfold readCurrentPeer ShowDict.textOf
    rw [hsame "public_key" (by decide), hsame "allowed_ips" (by decide), hkey, hips]
    cases psk with
    | none =>
        simp only [Option.elim_none, hpsk]
        simp
    | some t => simp [ShowDict.set]
  unfold Node.withConfiguredPsk NodeAgent.configuredPsk
  rw [hname]
  cases Node.configuredPeers agent.file peer.publicKey.toList with
  | none => exact hread none
  | some entry => exact hread (some entry.pskKey)

/-- The value a line of the interface is read as. -/
def settingValue (L : Lowering) (D : Digits) (f : Labelled) : ShowValue :=
  (Node.interfaceValue D (Node.fieldKey L f.label) f.value).getD .null

/-- The last line under a key. -/
def lastSetting (L : Lowering) (settings : List Labelled) (key : Text) : Option Labelled :=
  settings.reverse.find? fun f => Node.fieldKey L f.label = key

/-- What the node's row gets of the interface. -/
def Awg.reported (awg : Awg L) (D : Digits) (P : Pydantic) (agent : NodeAgent) : InterfaceResult :=
  fun field => ((lastSetting L (awg.settings agent) (fieldName field).toList).map
    (settingValue L D)).bind (fieldValue P field)

theorem foldlM_setInterface {settings : List Labelled} : ∀ start : ShowDict,
    (∀ f ∈ settings, Setting L f) → ∃ dict,
      settings.foldlM (fun dict f => Node.setInterface L D dict f.label f.value) start =
          some dict ∧
        ∀ key, dict key = ((lastSetting L settings key).map (settingValue L D)).or (start key) := by
  induction settings with
  | nil => exact fun start _ => ⟨start, rfl, fun _ => rfl⟩
  | cons f rest ih =>
      intro start hok
      have hf := hok f List.mem_cons_self
      have hvalue : Node.interfaceValue D (Node.fieldKey L f.label) f.value =
          some (settingValue L D f) := by
        have hread : ∃ v, Node.interfaceValue D (Node.fieldKey L f.label) f.value = some v := by
          unfold Node.interfaceValue
          split
          · next hint =>
              obtain ⟨n, hn, hlength⟩ := hf.number (List.contains_iff_mem.mp hint)
              rw [hn, Digits.int?_decimal hlength]
              exact ⟨_, rfl⟩
          · exact ⟨_, rfl⟩
        obtain ⟨v, hv⟩ := hread
        unfold settingValue
        rw [hv]
        rfl
      obtain ⟨dict, hdict, hkeys⟩ := ih
        (start.set (Node.fieldKey L f.label) (settingValue L D f))
        fun x hx => hok x (List.mem_cons_of_mem _ hx)
      refine ⟨dict, ?_, fun key => (hkeys key).trans ?_⟩
      · rw [List.foldlM_cons]
        unfold Node.setInterface
        rw [hvalue]
        exact hdict
      · unfold lastSetting
        rw [List.reverse_cons, List.find?_append]
        cases hlast : rest.reverse.find? fun f => Node.fieldKey L f.label = key with
        | some g => rfl
        | none =>
            by_cases hkey : Node.fieldKey L f.label = key
            · subst hkey
              simp [ShowDict.set]
            · rw [ShowDict.set, Function.update_of_ne (Ne.symm hkey)]
              simp [hkey]

theorem pmap_eq {α β : Type} {p : α → Prop} {f : ∀ a, p a → β} {g : α → β}
    (hfg : ∀ a ha, f a ha = g a) {l : List α} (h : ∀ a ∈ l, p a) : l.pmap f h = l.map g := by
  have hsame : l.pmap f h = l.pmap (fun a _ => g a) h :=
    List.pmap_congr_left l fun a _ ha _ => hfg a ha
  exact hsame.trans (List.pmap_eq_map h)

/-- **Status.** -/
theorem status_showText (awg : Awg L) (agent : NodeAgent)
    (h : ∀ peer ∈ agent.live, PlainLive peer) :
    ∃ result, Node.status L D agent.file (awg.showText agent) = some result ∧
      readInterface P result.interface = awg.reported D P agent ∧
      result.peers.map readCurrentPeer = agent.status := by
  let shown : Node.Shown := {
    name := awg.name
    settings := awg.settings agent
    peers := agent.live.pmap awg.shownPeer h
    titled := awg.titled
    untitled := fun f hf => (awg.settingsOk agent f hf).untitled }
  have htext : awg.showText agent = shown.text := by
    have hlines : (agent.live.pmap awg.shownPeer h).map Node.ShownPeer.lines =
        agent.live.map awg.peerLines := by
      rw [List.map_pmap]
      exact pmap_eq shownPeer_lines h
    unfold Awg.showText Node.Shown.text
    rw [List.flatMap_def, List.flatMap_def]
    show render (_ ++ (agent.live.map awg.peerLines).flatten) = render (_ ++ List.flatten _)
    rw [← hlines]
  obtain ⟨dict, hdict, hkeys⟩ := foldlM_setInterface (L := L) (D := D)
    (fun _ => none) (awg.settingsOk agent)
  have hparse : Node.parseAwgShow L D (awg.showText agent) =
      some ⟨dict, shown.peers.map (Node.ShownPeer.dict L)⟩ := by
    rw [htext, Node.parseAwgShow_text]
    show Option.map _ (List.foldlM _ _ (awg.settings agent)) = _
    rw [hdict]
    rfl
  refine ⟨⟨dict, (shown.peers.map (Node.ShownPeer.dict L)).map
    (Node.withConfiguredPsk agent.file)⟩, ?_, ?_, ?_⟩
  · unfold Node.status
    rw [hparse]
    rfl
  · funext field
    unfold readInterface Awg.reported
    dsimp only
    rw [hkeys, Option.or_none]
  · show ((((agent.live.pmap awg.shownPeer h).map (Node.ShownPeer.dict L)).map
      (Node.withConfiguredPsk agent.file)).map readCurrentPeer) = _
    rw [List.map_map, List.map_map, List.map_pmap]
    exact pmap_eq (fun _ hp => readCurrentPeer_shown agent hp) h

/-- What a dump says of a live peer. -/
def Awg.reading (awg : Awg L) (P : Pydantic) (peer : LivePeer) : PeerSyncResult where
  publicKey := peer.publicKey
  endpoint := some ((awg.meter peer).endpoint.map String.ofList)
  rxBytes := some (awg.meter peer).rxBytes
  txBytes := some (awg.meter peer).txBytes
  lastHandshake := normalizeLastHandshake P (awg.meter peer).lastHandshake

/-- **Dump.** -/
theorem dump_showDump (agent : NodeAgent) (h : ∀ peer ∈ agent.live, PlainLive peer) :
    (Node.dump D (awg.showDump agent)).bind (·.mapM (readDumpedPeer P)) =
      some (agent.live.map (awg.reading P)) := by
  let row (peer : LivePeer) (hp : PlainLive peer) : Node.DumpRow := { awg.meter peer with
    publicKey := peer.publicKey.toList
    columns := fun t ht => by
      rcases List.mem_cons.mp ht with rfl | ht
      · exact ⟨hp.key.line, hp.column⟩
      · exact (awg.meter peer).columns t ht
    observed := (awg.meter peer).observed
    sized := (awg.meter peer).sized }
  have hrows : agent.live.map awg.dumpRow = (agent.live.pmap row h).map Node.DumpRow.text := by
    rw [List.map_pmap]
    have hrow : ∀ peer hp, (row peer hp).text = awg.dumpRow peer := fun _ _ => rfl
    exact (pmap_eq hrow h).symm
  have hread : ∀ rows : List Node.DumpRow,
      (rows.map Node.DumpRow.peer).mapM (readDumpedPeer P) = some (rows.map fun r => {
        publicKey := String.ofList r.publicKey
        endpoint := some (r.endpoint.map String.ofList)
        rxBytes := some r.rxBytes
        txBytes := some r.txBytes
        lastHandshake := normalizeLastHandshake P r.lastHandshake }) := by
    intro rows
    induction rows with
    | nil => rfl
    | cons r rest ih =>
        rw [List.map_cons, List.mapM_cons, ih]
        rfl
  unfold Awg.showDump
  rw [hrows, Node.dump_text (awg.headLine agent), Option.bind_some, hread, List.map_pmap]
  refine congrArg some (pmap_eq (fun peer hp => ?_) h)
  simp only [row, Awg.reading, String.ofList_toList]

end ReadBack

/-! ## Clients that serve some states -/

/-- Every request to the endpoint returns where `I` holds, keeps `I`, and
changes the agents as the functions say. -/
structure NodeClient.ServesIn {σ : Type} (client : NodeClient σ) (endpoint : Endpoint)
    (I : σ → Prop) (takes : DesiredPeer → Prop) (configure : InterfaceResult → σ → σ)
    (status : σ → StatusAnswer) (put : σ → DesiredPeer → σ) (delete : σ → String → σ)
    (dump : σ → DumpAnswer) : Prop where
  putInterface : ∀ interface agents, I agents → I (configure interface agents) ∧ ∃ answer,
    attempt (client.putInterface endpoint interface) agents =
      (.ok answer, configure interface agents)
  status : ∀ agents, I agents →
    attempt (client.status endpoint) agents = (.ok (status agents), agents)
  putPeer : ∀ agents peer, I agents → takes peer → I (put agents peer) ∧
    attempt (client.putPeer endpoint peer) agents = (.ok ⟨⟩, put agents peer)
  deletePeer : ∀ agents key, I agents → I (delete agents key) ∧
    attempt (client.deletePeerIfPresent endpoint key) agents = (.ok ⟨⟩, delete agents key)
  dump : ∀ agents, I agents → attempt (client.dump endpoint) agents = (.ok (dump agents), agents)

section

variable {σ β : Type} {I : σ → Prop}

/-- Calls that all return from such states, in the order of a list. -/
theorem attempt_forM_in {call : β → AgentM σ PUnit} {change : σ → β → σ} {takes : β → Prop}
    (h : ∀ agents x, I agents → takes x →
      I (change agents x) ∧ attempt (call x) agents = (.ok ⟨⟩, change agents x))
    (xs : List β) (hxs : ∀ x ∈ xs, takes x) {agents : σ} (hI : I agents) :
    I (xs.foldl change agents) ∧
      attempt (xs.forM call) agents = (.ok ⟨⟩, xs.foldl change agents) := by
  induction xs generalizing agents with
  | nil => exact ⟨hI, rfl⟩
  | cons x rest ih =>
      obtain ⟨hnext, hcall⟩ := h agents x hI (hxs x List.mem_cons_self)
      obtain ⟨hlast, hrest⟩ := ih (fun y hy => hxs y (List.mem_cons_of_mem _ hy)) hnext
      refine ⟨hlast, ?_⟩
      show attempt (call x >>= fun _ => rest.forM call) agents = _
      rw [attempt_bind_ok hcall]
      exact hrest

variable {client : NodeClient σ} {snapshot : NodeSnapshot} {takes : DesiredPeer → Prop}
  {configure : InterfaceResult → σ → σ} {status : σ → StatusAnswer}
  {put : σ → DesiredPeer → σ} {delete : σ → String → σ} {dump : σ → DumpAnswer}

/-- The agents after an application: the interface, then the plan for what is
reported. -/
def appliedTo (snapshot : NodeSnapshot) (configure : InterfaceResult → σ → σ)
    (status : σ → StatusAnswer) (put : σ → DesiredPeer → σ) (delete : σ → String → σ)
    (agents : σ) : σ :=
  let configured := configure snapshot.interface agents
  let peers := plan snapshot.peers (status configured).peers
  peers.2.foldl delete (peers.1.foldl put configured)

theorem NodeClient.ServesIn.applySnapshot
    (h : client.ServesIn (snapshotEndpoint snapshot) I takes configure status put delete dump)
    (htakes : ∀ y ∈ (splitPeers snapshot.peers).1, takes y) {agents : σ} (hI : I agents) :
    ∃ after answer, after = appliedTo snapshot configure status put delete agents ∧ I after ∧
      attempt (client.applySnapshot snapshot) agents = (.ok {
        ok := true
        interface := some (interfaceResult answer (status after) (dump after))
        peers := dumpResults (dump after) }, after) := by
  let after := appliedTo snapshot configure status put delete agents
  obtain ⟨hconfigured, answer, hinterface⟩ := h.putInterface snapshot.interface agents hI
  obtain ⟨hput, hputs⟩ := attempt_forM_in h.putPeer
    (plan snapshot.peers (status (configure snapshot.interface agents)).peers).1
    (fun y hy => htakes y (mem_plan_put hy)) hconfigured
  obtain ⟨hafter, hdeletes⟩ := attempt_forM_in
    (fun agents key hI (_ : True) => h.deletePeer agents key hI)
    (plan snapshot.peers (status (configure snapshot.interface agents)).peers).2
    (fun _ _ => trivial) hput
  have hexchange : attempt (client.exchange snapshot) agents =
      (.ok (answer, status after, dump after), after) := by
    refine (attempt_bind_ok hinterface).trans ?_
    refine (attempt_bind_ok (h.status _ hconfigured)).trans ?_
    refine (attempt_bind_ok hputs).trans ?_
    refine (attempt_bind_ok hdeletes).trans ?_
    refine (attempt_bind_ok (h.status _ hafter)).trans ?_
    exact attempt_bind_ok (h.dump _ hafter)
  refine ⟨after, answer, rfl, hafter, ?_⟩
  unfold NodeClient.applySnapshot
  rw [attempt_map, hexchange]
  rfl

end

end VpnPanel.Worker
