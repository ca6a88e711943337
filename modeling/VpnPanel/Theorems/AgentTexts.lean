import VpnPanel.Worker.AgentTexts

/-!
# Synchronising over texts

An application of a snapshot through the texts of the `awg` command ends in the
same peers as one against the agent itself, and reports of every installed peer
exactly its counters.
-/

namespace VpnPanel.Theorems

open VpnPanel.Lib VpnPanel.Lib.Text VpnPanel.Backend VpnPanel.Worker

section Sync

variable {L : Lowering} {D : Digits} {P : Pydantic} {awg : Awg L}
  {parse : InterfaceResult → Node.InterfaceConfig} {endpoint : Endpoint}

/-- Every live peer of the agent can stand in the texts. -/
def PlainRun (run : AgentRun) : Prop := ∀ peer ∈ run.agent.live, PlainLive peer

/-- A wanted peer that can. -/
def PlainPeer (peer : DesiredPeer) : Prop :=
  PlainLive ⟨peer.publicKey, [s!"{peer.allowedIp}/32"], peer.pskKey⟩

theorem plainLive_drop {peer : LivePeer} (h : PlainLive peer) (address : String) :
    PlainLive (peer.drop address) :=
  ⟨h.key, h.column, fun ip hip => h.ips ip (List.mem_of_mem_filter hip)⟩

theorem PlainRun.syncPeer {run : AgentRun} (h : PlainRun run) {peer : DesiredPeer}
    (hpeer : PlainPeer peer) : PlainRun (run.syncPeer peer) := by
  have hset : ∀ (psk : Option String) (live : LivePeer), PlainLive live →
      PlainLive (LivePeer.set peer.publicKey s!"{peer.allowedIp}/32" psk live) := by
    intro psk live hlive
    unfold LivePeer.set
    split
    · exact ⟨hlive.key, hlive.column, hpeer.ips⟩
    · exact plainLive_drop hlive _
  have hawg : ∀ psk, ∀ live ∈ awgSet run.agent.live peer.publicKey s!"{peer.allowedIp}/32" psk,
      PlainLive live := by
    intro psk live hlive
    have hold : ∀ x ∈ run.agent.live.map
        (LivePeer.set peer.publicKey s!"{peer.allowedIp}/32" psk), PlainLive x := by
      intro x hx
      obtain ⟨old, hmem, rfl⟩ := List.mem_map.mp hx
      exact hset psk old (h old hmem)
    unfold awgSet at hlive
    dsimp only at hlive
    split at hlive
    · exact hold live hlive
    · rcases List.mem_append.mp hlive with hlive | hlive
      · exact hold live hlive
      · rw [List.mem_singleton.mp hlive]
        exact ⟨hpeer.key, hpeer.column, hpeer.ips⟩
  exact hawg _

theorem PlainRun.deletePeer {run : AgentRun} (h : PlainRun run) (key : String) :
    PlainRun (run.deletePeer key) :=
  fun peer hpeer => h peer (List.mem_of_mem_filter hpeer)

/-- The agent behind the texts answers as the agent itself does. -/
theorem textClient_servesIn (awg : Awg L) (parse : InterfaceResult → Node.InterfaceConfig)
    (endpoint : Endpoint) :
    (textClient D P awg parse).ServesIn endpoint PlainRun PlainPeer
      (fun interface run => run.configure (parse interface))
      (fun run => {
        interface := some (awg.reported D P run.agent), peers := run.agent.status })
      AgentRun.syncPeer AgentRun.deletePeer
      (fun run => { peers := run.agent.live.map (awg.reading P) }) where
  putInterface _ _ h := ⟨h, _, rfl⟩
  status run h := by
    obtain ⟨result, hresult, hinterface, hpeers⟩ :=
      status_showText (D := D) (P := P) awg run.agent h
    have hanswer : statusAnswer D P awg run.agent = some {
        interface := some (awg.reported D P run.agent), peers := run.agent.status } := by
      unfold statusAnswer
      rw [hresult, Option.map_some, hinterface, hpeers]
    show attempt (answerWith (statusAnswer D P awg run.agent)) run = _
    rw [hanswer]
    rfl
  putPeer _ _ h hpeer := ⟨h.syncPeer hpeer, rfl⟩
  deletePeer _ _ h := ⟨h.deletePeer _, rfl⟩
  dump run h := by
    have hanswer : dumpAnswer D P awg run.agent =
        some { peers := run.agent.live.map (awg.reading P) } := by
      unfold dumpAnswer
      rw [dump_showDump run.agent h, Option.map_some]
    show attempt (answerWith (dumpAnswer D P awg run.agent)) run = _
    rw [hanswer]
    rfl

/-- What the report has of a live peer. -/
def counted (awg : Awg L) (P : Pydantic) (peer : LivePeer) : PeerSyncResult :=
  { awg.reading P peer with status := some "active" }

theorem listenPort_unreported (awg : Awg L) (agent : NodeAgent) :
    awg.reported D P agent .listenPort = none := by
  have hnone : lastSetting L (awg.settings agent) "listen_port".toList = none := by
    refine List.find?_eq_none.mpr fun f hf heq => ?_
    exact (awg.settingsOk agent f (List.mem_reverse.mp hf)).other (of_decide_eq_true heq)
  unfold Awg.reported
  show Option.bind (Option.map _ (lastSetting L _ "listen_port".toList)) _ = none
  rw [hnone]
  rfl

/-- **Sync over texts.** Where the keys and addresses of the peers can stand in
the texts, an application of a snapshot leaves the same agent as one that needs
no texts. It reports the counters of exactly the peers installed after it, and
of the interface all that `awg` prints, which is never the port. -/
theorem sync_over_texts (awg : Awg L) (parse : InterfaceResult → Node.InterfaceConfig)
    {snapshot : NodeSnapshot} {run : AgentRun} (hrun : PlainRun run)
    (hsnapshot : ∀ y ∈ (splitPeers snapshot.peers).1, PlainPeer y) :
    ∃ after, attempt ((textClient D P awg parse).applySnapshot snapshot) run = (.ok {
          ok := true
          interface := some (awg.reported D P after.agent)
          peers := after.agent.live.map (counted awg P) }, after) ∧
      (∀ readings, ∃ result,
        attempt ((nodeClient parse readings).applySnapshot snapshot) run = (.ok result, after)) ∧
      awg.reported D P after.agent .listenPort = none := by
  obtain ⟨after, answer, hplanned, hafter, hresult⟩ :=
    (textClient_servesIn (D := D) (P := P) awg parse (snapshotEndpoint snapshot)).applySnapshot
      hsnapshot hrun
  have hdump : dumpResults { peers := after.agent.live.map (awg.reading P) } =
      after.agent.live.map (counted awg P) := by
    have hnamed : ∀ x ∈ after.agent.live.map (awg.reading P),
        decide (x.publicKey ≠ "") = true := by
      intro x hx
      obtain ⟨peer, hpeer, rfl⟩ := List.mem_map.mp hx
      refine decide_eq_true fun hempty => (hafter peer hpeer).key.named ?_
      exact (congrArg String.toList hempty).trans String.toList_empty
    unfold dumpResults
    rw [List.filter_eq_self.mpr hnamed, List.map_map]
    rfl
  rw [hdump] at hresult
  refine ⟨after, hresult, fun readings => ?_, listenPort_unreported awg _⟩
  rw [hplanned]
  exact (nodeClient_serves parse readings (snapshotEndpoint snapshot)).applySnapshot run

end Sync

section Examples

def exampleSettings : List Labelled := [
  ⟨"public key".toList, "c2VydmVy".toList, by decide, by decide, by decide, by decide, by decide,
    by decide⟩,
  ⟨"listening port".toList, "51820".toList, by decide, by decide, by decide, by decide, by decide,
    by decide⟩,
  ⟨"jc".toList, "4".toList, by decide, by decide, by decide, by decide, by decide, by decide⟩]

def exampleNotes : List Labelled := [
  ⟨"endpoint".toList, "203.0.113.7:51820".toList, by decide, by decide, by decide, by decide,
    by decide, by decide⟩,
  ⟨"transfer".toList, "1.15 GiB received, 941.90 MiB sent".toList, by decide, by decide,
    by decide, by decide, by decide, by decide⟩]

theorem exampleSettings_ok : ∀ f ∈ exampleSettings, Setting Lowering.asciiOnly f := by
  have hnumber : ∀ (f : Labelled) (n : Int), f.value = decimal n →
      (Nat.toDigits 10 n.natAbs).length ≤ 4300 → ∃ n : Int,
        f.value = decimal n ∧ (Nat.toDigits 10 n.natAbs).length ≤ 4300 :=
    fun _ n hvalue hlength => ⟨n, hvalue, hlength⟩
  simp only [exampleSettings, List.forall_mem_cons, List.not_mem_nil, false_implies, implies_true,
    and_true]
  refine ⟨⟨by constructor <;> decide, fun h => absurd h (by decide), by decide⟩,
    ⟨by constructor <;> decide, fun _ => hnumber _ 51820 (by decide) (by decide), by decide⟩,
    ⟨by constructor <;> decide, fun _ => hnumber _ 4 (by decide) (by decide), by decide⟩⟩

theorem exampleNotes_ok : ∀ f ∈ exampleNotes, Note Lowering.asciiOnly f := by
  simp only [exampleNotes, List.forall_mem_cons, List.not_mem_nil, false_implies, implies_true,
    and_true]
  exact ⟨⟨by constructor <;> decide, by decide⟩, ⟨by constructor <;> decide, by decide⟩⟩

theorem exampleColumns : ∀ t ∈ ["(none)".toList, "203.0.113.7:51820".toList,
    "10.8.0.2/32".toList, "off".toList], NoBreaks t ∧ '\t' ∉ t := by decide

/-- A node whose `awg` shows an endpoint and the transfer of every peer. -/
def exampleAwg : Awg Lowering.asciiOnly where
  name := "awg0".toList
  settings _ := exampleSettings
  before _ := exampleNotes
  after _ := []
  head _ := "c2VydmVy\t51820\toff".toList
  meter _ := {
    psk := "(none)".toList
    endpoint := some "203.0.113.7:51820".toList
    allowedIps := "10.8.0.2/32".toList
    lastHandshake := 1715200000
    rxBytes := 1234567890
    txBytes := 987654321
    keepalive := "off".toList
    columns := exampleColumns
    observed := by decide
    sized := by decide }
  titled := ⟨by decide, by decide, by decide⟩
  settingsOk _ := exampleSettings_ok
  beforeOk _ := exampleNotes_ok
  afterOk _ _ hf := absurd hf List.not_mem_nil
  headLine _ := by decide

def examplePydantic : Pydantic where
  number? _ := none
  time seconds := seconds * 1000000

/-- A device goes, and another one gets its address. -/
def handoverSnapshot : NodeSnapshot where
  id := 0
  name := "node"
  url := "http://node:8000"
  token := "token"
  provisionStatus := .succeeded
  interface := fun _ => none
  peers := [⟨0, 0, "alice", 0, "phone", "A=", "10.8.0.2", "cHNr", .active, false⟩,
    ⟨1, 0, "alice", 1, "laptop", "B=", "10.8.0.2", "cHNr", .pendingDelete, false⟩]

def handoverRun : AgentRun := ⟨⟨[⟨"B=", ["10.8.0.2/32"], "cHNr"⟩], none⟩, []⟩

def handoverParse (_ : InterfaceResult) : Node.InterfaceConfig := { privateKey := "a2V5".toList }

theorem sync_over_texts_handover : ∃ after : AgentRun,
    attempt ((textClient Digits.asciiOnly examplePydantic exampleAwg handoverParse).applySnapshot
      handoverSnapshot) handoverRun = (.ok {
        ok := true
        interface := some (exampleAwg.reported Digits.asciiOnly examplePydantic after.agent)
        peers := [{
          publicKey := "A="
          status := some "active"
          endpoint := some (some "203.0.113.7:51820")
          rxBytes := some 1234567890
          txBytes := some 987654321
          lastHandshake := some 1715200000000000 }] }, after) ∧
      after.agent.live = [⟨"A=", ["10.8.0.2/32"], "cHNr"⟩] := by
  have hrun : PlainRun handoverRun := by
    simp only [PlainRun, handoverRun, List.forall_mem_cons, List.not_mem_nil, false_implies,
      implies_true, and_true]
    refine ⟨⟨by decide, by decide, by decide⟩, by decide, ?_⟩
    simp only [List.forall_mem_cons, List.not_mem_nil, false_implies, implies_true, and_true]
    exact ⟨by decide, by decide, by decide, by decide⟩
  have hwanted : (splitPeers handoverSnapshot.peers).1 = [⟨"A=", "10.8.0.2", "cHNr", "alice"⟩] :=
    rfl
  have hsnapshot : ∀ y ∈ (splitPeers handoverSnapshot.peers).1, PlainPeer y := by
    rw [hwanted]
    simp only [List.forall_mem_cons, List.not_mem_nil, false_implies, implies_true, and_true]
    refine ⟨⟨by decide, by decide, by decide⟩, by decide, ?_⟩
    simp only [List.forall_mem_cons, List.not_mem_nil, false_implies, implies_true, and_true]
    exact ⟨by decide, by decide, by decide, by decide⟩
  obtain ⟨after, hafter, hsame, -⟩ := sync_over_texts (D := Digits.asciiOnly)
    (P := examplePydantic) exampleAwg handoverParse hrun hsnapshot
  obtain ⟨result, hresult⟩ := hsame fun _ => {}
  have hlive : after.agent.live = [⟨"A=", ["10.8.0.2/32"], "cHNr"⟩] := by
    rw [← congrArg (fun r => r.2.agent.live) hresult]
    decide +kernel
  refine ⟨after, hafter.trans ?_, hlive⟩
  rw [hlive]
  rfl

end Examples

end VpnPanel.Theorems
