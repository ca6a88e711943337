import VpnPanel.Theorems.ConfigFile
import VpnPanel.Worker.NodeAgent

/-!
# A snapshot converges

A put installs one peer in both sources of the agent and takes its address from
the others, so puts of distinct keys and addresses do not undo one another. What
the plan leaves out is installed already. Once every wanted peer is installed the
plan is empty.
-/

namespace VpnPanel.Theorems

open VpnPanel.Lib VpnPanel.Backend VpnPanel.Worker

/-! ## The live interface -/

section Live

variable {live : List LivePeer} {publicKey address other : String} {psk : Option String}

/-- The entry of a key. -/
abbrev livePeer? (live : List LivePeer) (publicKey : String) : Option LivePeer :=
  Rows.get? LivePeer.publicKey live publicKey

theorem livePeer?_set : livePeer? (live.map (LivePeer.set publicKey address psk)) other =
    (livePeer? live other).map (LivePeer.set publicKey address psk) :=
  Rows.get?_map fun peer => LivePeer.set_publicKey _ _ _ peer

theorem livePeer?_eq_none_of_any (h : ¬live.any (·.publicKey = publicKey) = true) :
    livePeer? live publicKey = none := by
  rw [Rows.get?_eq_none]
  intro peer hpeer hkey
  exact h (List.any_eq_true.mpr ⟨peer, hpeer, by simpa using hkey⟩)

theorem awgSet_distinct (h : Rows.Distinct LivePeer.publicKey live) :
    Rows.Distinct LivePeer.publicKey (awgSet live publicKey address psk) := by
  have hset := h.map (f := LivePeer.set publicKey address psk) fun peer _ =>
    LivePeer.set_publicKey _ _ _ peer
  unfold awgSet
  dsimp only
  split
  · exact hset
  · next hnew =>
    have hnone := Rows.get?_eq_none.mp (livePeer?_eq_none_of_any hnew)
    refine hset.append fun peer hpeer => ?_
    obtain ⟨old, hold, rfl⟩ := List.mem_map.mp hpeer
    rw [LivePeer.set_publicKey]
    exact hnone old hold

theorem livePeer?_awgSet_self (value : String) :
    livePeer? (awgSet live publicKey address (some value)) publicKey =
      some ⟨publicKey, [address], value⟩ := by
  unfold awgSet
  dsimp only
  split
  · next hany =>
    obtain ⟨old, hold⟩ : ∃ old, livePeer? live publicKey = some old :=
      Option.isSome_iff_exists.mp (Rows.isSome_get?.mpr (by simpa using hany))
    have hkey : old.publicKey = publicKey := Rows.key_of_get? hold
    rw [livePeer?_set, hold, Option.map_some]
    simp [LivePeer.set, hkey]
  · next hnew =>
    have hnone : livePeer? (live.map (LivePeer.set publicKey address (some value))) publicKey =
        none := by
      rw [livePeer?_set, livePeer?_eq_none_of_any hnew, Option.map_none]
    unfold livePeer? Rows.get? at hnone ⊢
    rw [List.find?_append, hnone]
    simp

theorem livePeer?_awgSet_of_ne (h : publicKey ≠ other) :
    livePeer? (awgSet live publicKey address psk) other =
      (livePeer? live other).map (·.drop address) := by
  have hset : livePeer? (live.map (LivePeer.set publicKey address psk)) other =
      (livePeer? live other).map (·.drop address) := by
    rw [livePeer?_set]
    cases hother : livePeer? live other with
    | none => rfl
    | some peer =>
        have hkey : peer.publicKey ≠ publicKey := fun heq =>
          h (heq.symm.trans (Rows.key_of_get? hother))
        rw [Option.map_some, Option.map_some, LivePeer.set, if_neg hkey]
  unfold awgSet
  dsimp only
  split
  · exact hset
  · rw [livePeer?, Rows.get?_append_of_ne h]
    exact hset

theorem livePeer?_awgRemove_self : livePeer? (awgRemove live publicKey) publicKey = none :=
  Rows.get?_filter_eq_none fun peer _ hkey => by simpa using hkey

theorem livePeer?_awgRemove_of_ne (h : other ≠ publicKey) :
    livePeer? (awgRemove live publicKey) other = livePeer? live other :=
  Rows.get?_filter fun peer _ hkey => by simpa [hkey] using h

theorem drop_eq_self {peer : LivePeer} (h : address ∉ peer.allowedIps) :
    peer.drop address = peer := by
  have hfilter : peer.allowedIps.filter (· ≠ address) = peer.allowedIps :=
    List.filter_eq_self.mpr fun ip hip => decide_eq_true fun heq => h (heq ▸ hip)
  unfold LivePeer.drop
  rw [hfilter]

end Live

/-! ## Both sources -/

/-- The request for a peer, as the config file gets it. -/
def filePeer (y : DesiredPeer) : Node.Peer :=
  ⟨y.publicKey.toList, y.pskKey.toList, y.allowedIp.toList⟩

/-- The address `PUT /peers` sets. -/
def address (y : DesiredPeer) : String := s!"{y.allowedIp}/32"

/-- What the agent's requests keep: one live peer for each key, a config file with
a layout, and no PSK in it that is not the live one. -/
structure AgentOk (agent : NodeAgent) : Prop where
  keys : Rows.Distinct LivePeer.publicKey agent.live
  named : ∀ peer ∈ agent.live, peer.publicKey ≠ ""
  laid : Laid agent.file
  truthful : ∀ peer ∈ agent.live, agent.configuredPsk peer.publicKey ≠ "" →
    agent.configuredPsk peer.publicKey = peer.presharedKey

section Agent

variable {agent : NodeAgent} {y : DesiredPeer} {k : String}

theorem configuredPsk_configure (h : Laid agent.file) {cfg : Node.InterfaceConfig}
    (hcfg : ValidInterface cfg) :
    (agent.configure cfg).configuredPsk k = agent.configuredPsk k := by
  unfold NodeAgent.configuredPsk NodeAgent.configure
  dsimp only
  rw [configure_keeps h hcfg]

theorem syncPeer_file : (agent.syncPeer y).file =
    Node.persistPeer (filePeer y).key (filePeer y).ip (filePeer y).psk agent.file := rfl

theorem publicKey_ne (hy : (filePeer y).Ok) : y.publicKey ≠ "" := by
  intro hempty
  apply hy.named
  show y.publicKey.toList = []
  rw [hempty]
  exact String.toList_empty

theorem configuredPeers_syncPeer (h : Laid agent.file) (hy : (filePeer y).Ok) :
    Node.configuredPeers (agent.syncPeer y).file = Function.update
      (Node.configuredPeers agent.file) y.publicKey.toList (some (filePeer y).entry) :=
  (persist_updates h hy).1

theorem configuredPsk_syncPeer_self (h : Laid agent.file) (hy : (filePeer y).Ok) :
    (agent.syncPeer y).configuredPsk y.publicKey = y.pskKey := by
  unfold NodeAgent.configuredPsk
  rw [configuredPeers_syncPeer h hy, Function.update_self]
  exact String.ofList_toList

theorem configuredPsk_syncPeer_of_ne (h : Laid agent.file) (hy : (filePeer y).Ok)
    (hk : k ≠ y.publicKey) : (agent.syncPeer y).configuredPsk k = agent.configuredPsk k := by
  have hne : k.toList ≠ y.publicKey.toList := fun heq => hk (String.toList_inj.mp heq)
  unfold NodeAgent.configuredPsk
  rw [configuredPeers_syncPeer h hy, Function.update_of_ne hne]

theorem configuredPsk_deletePeer_of_ne (h : Laid agent.file) {key : String} (hk : k ≠ key) :
    (agent.deletePeer key).configuredPsk k = agent.configuredPsk k := by
  have hne : k.toList ≠ key.toList := fun heq => hk (String.toList_inj.mp heq)
  unfold NodeAgent.configuredPsk NodeAgent.deletePeer
  dsimp only
  rw [(unpersist_erases h _).1, Function.update_of_ne hne]

theorem livePeer?_syncPeer_self (hpsk : y.pskKey ≠ "") :
    livePeer? (agent.syncPeer y).live y.publicKey =
      some ⟨y.publicKey, [address y], y.pskKey⟩ := by
  show livePeer? (awgSet agent.live y.publicKey (address y) _) y.publicKey = _
  rw [if_pos hpsk]
  exact livePeer?_awgSet_self y.pskKey

theorem livePeer?_syncPeer_of_ne (hk : y.publicKey ≠ k) :
    livePeer? (agent.syncPeer y).live k = (livePeer? agent.live k).map (·.drop (address y)) :=
  livePeer?_awgSet_of_ne hk

namespace AgentOk

/-- Any peers may be there before the agent wrote its first file. -/
theorem unwritten {live : List LivePeer} (hkeys : Rows.Distinct LivePeer.publicKey live)
    (hnamed : ∀ peer ∈ live, peer.publicKey ≠ "") : AgentOk ⟨live, none⟩ where
  keys := hkeys
  named := hnamed
  laid := .inl rfl
  truthful _ _ hwritten := absurd rfl hwritten

theorem configure (h : AgentOk agent) {cfg : Node.InterfaceConfig} (hcfg : ValidInterface cfg) :
    AgentOk (agent.configure cfg) where
  keys := h.keys
  named := h.named
  laid := laid_configure h.laid hcfg
  truthful peer hpeer := by
    rw [configuredPsk_configure h.laid hcfg]
    exact h.truthful peer hpeer

/-- A live peer after a put is the one put, or one that was there less the address. -/
theorem mem_syncPeer (h : AgentOk agent) (hpsk : y.pskKey ≠ "") {peer : LivePeer}
    (hpeer : peer ∈ (agent.syncPeer y).live) :
    peer = ⟨y.publicKey, [address y], y.pskKey⟩ ∨
      peer.publicKey ≠ y.publicKey ∧ ∃ old ∈ agent.live, peer = old.drop (address y) := by
  have hget : livePeer? (agent.syncPeer y).live peer.publicKey = some peer :=
    Rows.Distinct.get?_eq_some (awgSet_distinct h.keys) hpeer
  by_cases hkey : peer.publicKey = y.publicKey
  · rw [hkey, livePeer?_syncPeer_self hpsk] at hget
    exact .inl (Option.some.inj hget).symm
  · rw [livePeer?_syncPeer_of_ne (Ne.symm hkey)] at hget
    obtain ⟨old, hold, heq⟩ := Option.map_eq_some_iff.mp hget
    exact .inr ⟨hkey, old, Rows.mem_of_get? hold, heq.symm⟩

theorem syncPeer (h : AgentOk agent) (hy : (filePeer y).Ok) (hpsk : y.pskKey ≠ "") :
    AgentOk (agent.syncPeer y) where
  keys := awgSet_distinct h.keys
  named peer hpeer := by
    rcases h.mem_syncPeer hpsk hpeer with rfl | ⟨-, old, hold, rfl⟩
    · exact publicKey_ne hy
    · exact h.named old hold
  laid := by
    rw [syncPeer_file]
    exact laid_persist h.laid hy
  truthful peer hpeer := by
    rcases h.mem_syncPeer hpsk hpeer with rfl | ⟨hkey, old, hold, rfl⟩
    · exact fun _ => configuredPsk_syncPeer_self h.laid hy
    · rw [configuredPsk_syncPeer_of_ne h.laid hy hkey]
      exact h.truthful old hold

theorem deletePeer (h : AgentOk agent) (key : String) : AgentOk (agent.deletePeer key) where
  keys := h.keys.filter _
  named peer hpeer := h.named peer (List.mem_filter.mp hpeer).1
  laid := laid_unpersist h.laid _
  truthful peer hpeer := by
    obtain ⟨hpeer, hne⟩ := List.mem_filter.mp hpeer
    rw [configuredPsk_deletePeer_of_ne h.laid (by simpa using hne)]
    exact h.truthful peer hpeer

end AgentOk

/-! ## What one request does to a peer -/

/-- The peer is there as it is wanted. -/
structure InPlace (y : DesiredPeer) (agent : NodeAgent) : Prop where
  live : livePeer? agent.live y.publicKey = some ⟨y.publicKey, [address y], y.pskKey⟩
  configured : agent.configuredPsk y.publicKey = y.pskKey

/-- A request of the plan that succeeds. -/
structure Accepted (y : DesiredPeer) : Prop where
  file : (filePeer y).Ok
  psk : y.pskKey ≠ ""

section Step

variable {x : DesiredPeer}

theorem inPlace_syncPeer (h : AgentOk agent) (hy : Accepted y) :
    InPlace y (agent.syncPeer y) where
  live := livePeer?_syncPeer_self hy.psk
  configured := configuredPsk_syncPeer_self h.laid hy.file

theorem InPlace.syncPeer (hplace : InPlace y agent) (h : AgentOk agent)
    (hx : Accepted x) (hkey : x.publicKey ≠ y.publicKey) (haddress : address x ≠ address y) :
    InPlace y (agent.syncPeer x) where
  live := by
    rw [livePeer?_syncPeer_of_ne hkey, hplace.live, Option.map_some, drop_eq_self]
    simpa using haddress
  configured := by
    rw [configuredPsk_syncPeer_of_ne h.laid hx.file hkey.symm]
    exact hplace.configured

theorem InPlace.deletePeer (hplace : InPlace y agent) (h : AgentOk agent) {key : String}
    (hkey : y.publicKey ≠ key) : InPlace y (agent.deletePeer key) where
  live := (livePeer?_awgRemove_of_ne hkey).trans hplace.live
  configured := (configuredPsk_deletePeer_of_ne h.laid hkey).trans hplace.configured

theorem InPlace.configure (hplace : InPlace y agent) (h : AgentOk agent)
    {cfg : Node.InterfaceConfig} (hcfg : ValidInterface cfg) :
    InPlace y (agent.configure cfg) where
  live := hplace.live
  configured := (configuredPsk_configure h.laid hcfg).trans hplace.configured

theorem absent_syncPeer (hk : y.publicKey ≠ k) :
    livePeer? (agent.syncPeer y).live k = none ↔ livePeer? agent.live k = none := by
  rw [livePeer?_syncPeer_of_ne hk, Option.map_eq_none_iff]

end Step

/-! ## Many requests -/

/-- Puts of peers that do not take each other's key or address leave all of them
installed. -/
theorem puts_run {wanted : List DesiredPeer} (haccepted : ∀ y ∈ wanted, Accepted y)
    (hapart : ∀ x ∈ wanted, ∀ y ∈ wanted, x ≠ y →
      x.publicKey ≠ y.publicKey ∧ address x ≠ address y) :
    ∀ (puts : List DesiredPeer) (agent : NodeAgent), AgentOk agent → (∀ x ∈ puts, x ∈ wanted) →
      (∀ y ∈ wanted, y ∈ puts ∨ InPlace y agent) →
      AgentOk (puts.foldl NodeAgent.syncPeer agent) ∧
        (∀ y ∈ wanted, InPlace y (puts.foldl NodeAgent.syncPeer agent)) ∧
        ∀ k, (∀ y ∈ wanted, y.publicKey ≠ k) →
          (livePeer? (puts.foldl NodeAgent.syncPeer agent).live k = none ↔
            livePeer? agent.live k = none) := by
  intro puts
  induction puts with
  | nil =>
      intro agent h _ hcover
      refine ⟨h, fun y hy => ?_, fun k _ => Iff.rfl⟩
      rcases hcover y hy with hmem | hplace
      · cases hmem
      · exact hplace
  | cons x rest ih =>
      intro agent h hsub hcover
      have hx := hsub x List.mem_cons_self
      have hok := haccepted x hx
      have hcover' : ∀ y ∈ wanted, y ∈ rest ∨ InPlace y (agent.syncPeer x) := by
        intro y hy
        by_cases hxy : x = y
        · subst hxy
          exact .inr (inPlace_syncPeer h hok)
        obtain ⟨hkey, haddress⟩ := hapart x hx y hy hxy
        rcases hcover y hy with hmem | hplace
        · rcases List.mem_cons.mp hmem with rfl | hrest
          · exact absurd rfl hxy
          · exact .inl hrest
        · exact .inr (hplace.syncPeer h hok hkey haddress)
      obtain ⟨hend, hplace, hothers⟩ := ih (agent.syncPeer x) (h.syncPeer hok.file hok.psk)
        (fun y hy => hsub y (List.mem_cons_of_mem x hy)) hcover'
      exact ⟨hend, hplace, fun k hk => (hothers k hk).trans (absent_syncPeer (hk x hx))⟩

/-- Removals leave everything else in place. -/
theorem deletes_run : ∀ (keys : List String) (agent : NodeAgent), AgentOk agent →
    AgentOk (keys.foldl NodeAgent.deletePeer agent) ∧
      (∀ y, InPlace y agent → y.publicKey ∉ keys →
        InPlace y (keys.foldl NodeAgent.deletePeer agent)) ∧
      ∀ k, livePeer? (keys.foldl NodeAgent.deletePeer agent).live k =
        if k ∈ keys then none else livePeer? agent.live k := by
  intro keys
  induction keys with
  | nil => exact fun agent h => ⟨h, fun y hy _ => hy, fun k => rfl⟩
  | cons key rest ih =>
      intro agent h
      obtain ⟨hend, hplace, hlive⟩ := ih (agent.deletePeer key) (h.deletePeer key)
      refine ⟨hend, fun y hy hnot => ?_, fun k => ?_⟩
      · obtain ⟨hkey, hrest⟩ := not_or.mp (mt List.mem_cons.mpr hnot)
        exact hplace y (hy.deletePeer h hkey) hrest
      · show livePeer? (rest.foldl NodeAgent.deletePeer (agent.deletePeer key)).live k = _
        rw [hlive k]
        by_cases hkey : k = key
        · subst hkey
          have hgone : livePeer? (agent.deletePeer k).live k = none := livePeer?_awgRemove_self
          rw [hgone, ite_self, if_pos List.mem_cons_self]
        · have hkept : livePeer? (agent.deletePeer key).live k = livePeer? agent.live k :=
            livePeer?_awgRemove_of_ne hkey
          rw [hkept]
          simp only [List.mem_cons, hkey, false_or]

end Agent

/-! ## The plan -/

theorem isSpace_eq (c : Char) : Worker.isSpace c = Text.isSpace c := by
  have hchar : ∀ d : Char, c = d ↔ c.toNat = d.toNat := fun d => Char.toNat_inj.symm
  unfold Worker.isSpace Text.isSpace Text.isLineBreak
  rw [Bool.eq_iff_iff]
  simp only [List.mem_cons, List.not_mem_nil, or_false, hchar, Bool.or_eq_true, Bool.and_eq_true,
    decide_eq_true_eq, Char.reduceToNat]
  omega

theorem strip_eq (s : String) : Worker.strip s = String.ofList (Text.strip s.toList) := by
  have hspace : Worker.isSpace = Text.isSpace := funext isSpace_eq
  unfold Worker.strip Text.strip
  rw [hspace]
  rfl

section Matching

variable {agent : NodeAgent} {y : DesiredPeer} {k : String}

/-- What `GET /status` says of a peer. -/
def report (agent : NodeAgent) (peer : LivePeer) : CurrentPeer where
  publicKey := peer.publicKey
  allowedIps := shownIps peer.allowedIps
  pskKey := agent.configuredPsk peer.publicKey

theorem currentPeer?_status (h : AgentOk agent) :
    currentPeer? agent.status k = (livePeer? agent.live k).map (report agent) := by
  have hnamed : agent.status.filter (·.publicKey ≠ "") = agent.live.map (report agent) := by
    apply List.filter_eq_self.mpr
    intro current hcurrent
    obtain ⟨peer, hpeer, rfl⟩ := List.mem_map.mp hcurrent
    exact decide_eq_true (h.named peer hpeer)
  have hkeys : Rows.Distinct LivePeer.publicKey agent.live.reverse := by
    unfold Rows.Distinct
    rw [List.map_reverse]
    exact List.nodup_reverse.mpr h.keys
  have hreverse : livePeer? agent.live.reverse k = livePeer? agent.live k := by
    apply Option.ext
    intro peer
    rw [hkeys.get?_iff, h.keys.get?_iff, List.mem_reverse]
  unfold currentPeer?
  rw [hnamed, ← List.map_reverse, List.find?_map, ← hreverse]
  rfl

theorem reported_iff (h : AgentOk agent) :
    (currentPeer? agent.status k).isSome = true ↔ livePeer? agent.live k ≠ none := by
  rw [currentPeer?_status h, Option.isSome_map, Option.isSome_iff_ne_none]

theorem desiredAllowedIps_eq (hy : Accepted y) (hip : y.allowedIp ≠ "") :
    desiredAllowedIps y = [address y] := by
  have htrimmed : Worker.strip y.allowedIp = y.allowedIp := by
    rw [strip_eq]
    have hplain : Text.strip y.allowedIp.toList = y.allowedIp.toList := hy.file.ip.trimmed
    rw [hplain, String.ofList_toList]
  unfold desiredAllowedIps
  dsimp only
  rw [htrimmed, if_neg hip]
  rfl

theorem address_toList : (address y).toList = y.allowedIp.toList ++ ['/', '3', '2'] :=
  String.toList_append

/-- An address that was asked for is not the text for no address. -/
theorem none_ne_address : "(none)" ≠ address y := by
  intro heq
  have hlast := congrArg (fun s : String => s.toList.getLast?) heq
  have hend : (address y).toList.getLast? = some '2' := by
    rw [address_toList, List.getLast?_append]
    rfl
  exact absurd (hlast.trans hend) (by decide)

theorem shownIps_iff {ips : List String} : shownIps ips = [address y] ↔ ips = [address y] := by
  unfold shownIps
  split
  · next hnone =>
    rw [hnone]
    simp [none_ne_address]
  · rfl

/-- The plan leaves out a wanted peer exactly where it is in place. -/
theorem peerMatches_iff (h : AgentOk agent) (hy : Accepted y) (hip : y.allowedIp ≠ "") :
    peerMatchesCurrent y (currentPeer? agent.status y.publicKey) = true ↔ InPlace y agent := by
  rw [currentPeer?_status h]
  cases hlive : livePeer? agent.live y.publicKey with
  | none =>
      refine ⟨fun hmatch => absurd hmatch Bool.false_ne_true, fun hplace => ?_⟩
      exact absurd (hlive.symm.trans hplace.live) (by simp)
  | some peer =>
      have hkey : peer.publicKey = y.publicKey := Rows.key_of_get? hlive
      have hsort : (shownIps peer.allowedIps).insertionSort (· ≤ ·) = [address y] ↔
          peer.allowedIps = [address y] := by
        refine Iff.trans ?_ shownIps_iff
        constructor
        · intro hsorted
          have hperm := List.perm_insertionSort (· ≤ ·) (shownIps peer.allowedIps)
          rw [hsorted] at hperm
          exact List.perm_singleton.mp hperm.symm
        · intro hshown
          rw [hshown]
          rfl
      show (decide ((shownIps peer.allowedIps).insertionSort (· ≤ ·) = desiredAllowedIps y) &&
        decide (agent.configuredPsk peer.publicKey = y.pskKey)) = true ↔ _
      rw [Bool.and_eq_true, decide_eq_true_eq, decide_eq_true_eq, desiredAllowedIps_eq hy hip,
        hsort]
      constructor
      · rintro ⟨hips, hpsk⟩
        have hlisted := h.truthful peer (Rows.mem_of_get? hlive) (hpsk ▸ hy.psk)
        refine ⟨hlive.trans (congrArg some ?_), hkey ▸ hpsk⟩
        cases peer
        exact congr (congr (congrArg LivePeer.mk hkey) hips) (hlisted.symm.trans hpsk)
      · intro hplace
        have hpeer := Option.some.inj (hlive.symm.trans hplace.live)
        exact ⟨by rw [hpeer], by rw [hkey]; exact hplace.configured⟩

end Matching

/-! ## The snapshot -/

/-- The snapshot tells its peers apart, and the agent takes its requests. -/
structure Convergent (parse : InterfaceResult → Node.InterfaceConfig) (snapshot : NodeSnapshot) :
    Prop where
  keys : (snapshot.peers.map (·.publicKey)).Nodup
  addresses : (snapshot.peers.map (·.allowedIp)).Nodup
  addressed : ∀ p ∈ snapshot.peers, p.allowedIp ≠ ""
  psks : ∀ p ∈ snapshot.peers, p.pskKey ≠ ""
  peers : ∀ y ∈ (splitPeers snapshot.peers).1, (filePeer y).Ok
  interface : ValidInterface (parse snapshot.interface)

section Snapshot

variable {parse : InterfaceResult → Node.InterfaceConfig} {snapshot : NodeSnapshot}
  {agent : NodeAgent}

theorem Convergent.accepted (hs : Convergent parse snapshot) {y : DesiredPeer}
    (hy : y ∈ (splitPeers snapshot.peers).1) : Accepted y ∧ y.allowedIp ≠ "" := by
  obtain ⟨p, hp, -, -, rfl⟩ := mem_splitPeers_active.mp hy
  exact ⟨⟨hs.peers _ hy, hs.psks p hp⟩, hs.addressed p hp⟩

theorem address_inj {x y : DesiredPeer} (h : address x = address y) :
    x.allowedIp = y.allowedIp := by
  have hlist := congrArg String.toList h
  rw [address_toList, address_toList] at hlist
  exact String.toList_inj.mp (List.append_cancel_right hlist)

theorem Convergent.apart (hs : Convergent parse snapshot) :
    ∀ x ∈ (splitPeers snapshot.peers).1, ∀ y ∈ (splitPeers snapshot.peers).1, x ≠ y →
      x.publicKey ≠ y.publicKey ∧ address x ≠ address y := by
  intro x hx y hy hne
  obtain ⟨p, hp, -, -, rfl⟩ := mem_splitPeers_active.mp hx
  obtain ⟨q, hq, -, -, rfl⟩ := mem_splitPeers_active.mp hy
  refine ⟨fun hkey => hne ?_, fun hip => hne ?_⟩
  · rw [List.inj_on_of_nodup_map hs.keys hp hq hkey]
  · rw [List.inj_on_of_nodup_map hs.addresses hp hq (address_inj hip)]

/-- A key is wanted or to go, not both. -/
theorem Convergent.not_both (hs : Convergent parse snapshot) {y : DesiredPeer}
    (hy : y ∈ (splitPeers snapshot.peers).1) : y.publicKey ∉ (splitPeers snapshot.peers).2 := by
  intro hkey
  obtain ⟨p, hp, -, hwanted, rfl⟩ := mem_splitPeers_active.mp hy
  obtain ⟨q, hq, -, hun, heq⟩ := mem_splitPeers_delete.mp hkey
  rw [List.inj_on_of_nodup_map hs.keys hp hq heq, hun] at hwanted
  cases hwanted

/-- The plan, carried out. -/
def carriedOut (snapshot : NodeSnapshot) (agent : NodeAgent) : NodeAgent :=
  let peers := plan snapshot.peers agent.status
  peers.2.foldl NodeAgent.deletePeer (peers.1.foldl NodeAgent.syncPeer agent)

theorem carriedOut_places (h : AgentOk agent) (hs : Convergent parse snapshot) :
    AgentOk (carriedOut snapshot agent) ∧
      (∀ y ∈ (splitPeers snapshot.peers).1, InPlace y (carriedOut snapshot agent)) ∧
      (∀ key ∈ (splitPeers snapshot.peers).2,
        livePeer? (carriedOut snapshot agent).live key = none) ∧
      ∀ key, (∀ p ∈ snapshot.peers, p.publicKey ≠ key) →
        (livePeer? (carriedOut snapshot agent).live key = none ↔
          livePeer? agent.live key = none) := by
  have hcover : ∀ y ∈ (splitPeers snapshot.peers).1,
      y ∈ (plan snapshot.peers agent.status).1 ∨ InPlace y agent := by
    intro y hy
    obtain ⟨hok, hip⟩ := hs.accepted hy
    cases hmatch : peerMatchesCurrent y (currentPeer? agent.status y.publicKey) with
    | true => exact .inr ((peerMatches_iff h hok hip).mp hmatch)
    | false => exact .inl (List.mem_filter.mpr ⟨hy, by rw [hmatch]; rfl⟩)
  obtain ⟨hput, hplaced, hothers⟩ := puts_run (fun y hy => (hs.accepted hy).1) hs.apart
    (plan snapshot.peers agent.status).1 agent h (fun x hx => (List.mem_filter.mp hx).1) hcover
  obtain ⟨hend, hkept, hlive⟩ := deletes_run (plan snapshot.peers agent.status).2 _ hput
  have hdeleted : ∀ key, key ∈ (plan snapshot.peers agent.status).2 ↔
      key ∈ (splitPeers snapshot.peers).2 ∧ livePeer? agent.live key ≠ none := fun key => by
    rw [← reported_iff h]
    exact List.mem_filter
  refine ⟨hend, fun y hy => ?_, fun key hkey => ?_, fun key hkey => ?_⟩
  · exact hkept y (hplaced y hy) fun hmem => hs.not_both hy ((hdeleted _).mp hmem).1
  · refine (hlive key).trans ?_
    split
    · rfl
    · next hnot =>
      -- The key was not there, and no put is of it.
      have hmissing : livePeer? agent.live key = none := by
        by_contra hthere
        exact hnot ((hdeleted key).mpr ⟨hkey, hthere⟩)
      exact (hothers key fun y hy heq => hs.not_both hy (heq ▸ hkey)).mpr hmissing
  · have hwanted : ∀ y ∈ (splitPeers snapshot.peers).1, y.publicKey ≠ key := by
      intro y hy
      obtain ⟨p, hp, -, -, rfl⟩ := mem_splitPeers_active.mp hy
      exact hkey p hp
    have hnot : key ∉ (plan snapshot.peers agent.status).2 := by
      intro hmem
      obtain ⟨p, hp, -, -, rfl⟩ := mem_splitPeers_delete.mp ((hdeleted key).mp hmem).1
      exact hkey p hp rfl
    refine Iff.trans ?_ (hothers key hwanted)
    exact Iff.of_eq (congrArg (· = none) ((hlive key).trans (if_neg hnot)))

/-- Nothing is left to do where everything is in place. -/
theorem plan_empty (h : AgentOk agent) (hs : Convergent parse snapshot)
    (hplaced : ∀ y ∈ (splitPeers snapshot.peers).1, InPlace y agent)
    (hgone : ∀ key ∈ (splitPeers snapshot.peers).2, livePeer? agent.live key = none) :
    plan snapshot.peers agent.status = ([], []) := by
  have hputs : (plan snapshot.peers agent.status).1 = [] := by
    refine List.filter_eq_nil_iff.mpr fun y hy => ?_
    obtain ⟨hok, hip⟩ := hs.accepted hy
    rw [(peerMatches_iff h hok hip).mpr (hplaced y hy)]
    decide
  have hdeletes : (plan snapshot.peers agent.status).2 = [] := by
    refine List.filter_eq_nil_iff.mpr fun key hkey hreported => ?_
    exact (reported_iff h).mp hreported (hgone key hkey)
  exact Prod.ext hputs hdeletes

/-! ## The application of a snapshot -/

theorem foldl_syncPeer (puts : List DesiredPeer) (run : AgentRun) :
    puts.foldl AgentRun.syncPeer run = ⟨puts.foldl NodeAgent.syncPeer run.agent,
      run.changes ++ puts.map fun y => .putPeer y.publicKey⟩ := by
  induction puts generalizing run with
  | nil => simp
  | cons x rest ih =>
      rw [List.foldl_cons, ih]
      simp [AgentRun.syncPeer]

theorem foldl_deletePeer (keys : List String) (run : AgentRun) :
    keys.foldl AgentRun.deletePeer run = ⟨keys.foldl NodeAgent.deletePeer run.agent,
      run.changes ++ keys.map .deletePeer⟩ := by
  induction keys generalizing run with
  | nil => simp
  | cons key rest ih =>
      rw [List.foldl_cons, ih]
      simp [AgentRun.deletePeer]

/-- The requests of an application of the snapshot. -/
def planned (snapshot : NodeSnapshot) (agent : NodeAgent) : List AgentChange :=
  let peers := plan snapshot.peers agent.status
  peers.1.map (fun y => .putPeer y.publicKey) ++ peers.2.map .deletePeer

theorem applySnapshot_run (parse : InterfaceResult → Node.InterfaceConfig)
    (readings : String → PeerReading) (snapshot : NodeSnapshot) (run : AgentRun) :
    let configured := run.agent.configure (parse snapshot.interface)
    ∃ result, attempt ((nodeClient parse readings).applySnapshot snapshot) run =
      (.ok result, ⟨carriedOut snapshot configured,
        run.changes ++ .interface :: planned snapshot configured⟩) := by
  intro configured
  obtain ⟨result, hresult⟩ :=
    (nodeClient_serves parse readings (snapshotEndpoint snapshot)).applySnapshot run
  refine ⟨result, hresult.trans (congrArg (Prod.mk _) ?_)⟩
  rw [foldl_syncPeer, foldl_deletePeer]
  simp only [carriedOut, planned, AgentRun.configure, List.append_assoc, List.cons_append,
    List.nil_append]
  rfl

end Snapshot

section Examples

def swapPeer (key ip : String) (status : PeerStatus) : PeerPayload :=
  ⟨0, 0, "alice", 0, "phone", key, ip, "cHNr", status, false⟩

/-- Two peers exchange their addresses, a third one goes. -/
def swapSnapshot : NodeSnapshot where
  id := 0
  name := "node"
  url := "http://node:8000"
  token := "token"
  provisionStatus := .succeeded
  interface := fun _ => none
  peers := [swapPeer "A=" "10.8.0.3" .active, swapPeer "B=" "10.8.0.2" .active,
    swapPeer "C=" "10.8.0.4" .pendingDelete]

/-- A fourth peer is not in the snapshot. -/
def swapLive : List LivePeer :=
  [⟨"A=", ["10.8.0.2/32"], "cHNr"⟩, ⟨"B=", ["10.8.0.3/32"], "cHNr"⟩,
    ⟨"C=", ["10.8.0.4/32"], "cHNr"⟩, ⟨"D=", ["10.8.0.9/32"], ""⟩]

def swapInterface : Node.InterfaceConfig := { privateKey := "a2V5".toList }

theorem swap_valid : ValidInterface swapInterface where
  fields value hvalue := by
    have hplain : ∀ value ∈ ["a2V5".toList, "10.8.0.1/24".toList, "1".toList, "2".toList,
        "3".toList, "4".toList, [], [], [], [], [], [], []],
        Text.NoBreaks value ∧ Text.strip value = value ∧ ¬Node.header <:+: value := by decide
    obtain ⟨hbreaks, htrimmed, hunmarked⟩ := hplain value hvalue
    exact ⟨hbreaks, htrimmed, hunmarked⟩

theorem swap_convergent : Convergent (fun _ => swapInterface) swapSnapshot where
  keys := by decide
  addresses := by decide
  addressed := by decide
  psks := by decide
  peers := by
    simp only [show (splitPeers swapSnapshot.peers).1 =
      [⟨"A=", "10.8.0.3", "cHNr", "alice"⟩, ⟨"B=", "10.8.0.2", "cHNr", "alice"⟩] from rfl,
      List.forall_mem_cons, List.not_mem_nil, false_implies, implies_true, and_true]
    exact ⟨⟨⟨by decide, by decide, by decide⟩, ⟨by decide, by decide, by decide⟩,
        ⟨by decide, by decide, by decide⟩, by decide⟩,
      ⟨⟨by decide, by decide, by decide⟩, ⟨by decide, by decide, by decide⟩,
        ⟨by decide, by decide, by decide⟩, by decide⟩⟩
  interface := swap_valid

end Examples

end VpnPanel.Theorems
