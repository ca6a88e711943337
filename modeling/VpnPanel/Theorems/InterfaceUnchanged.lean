import VpnPanel.Node.Interface
import VpnPanel.Theorems.ConfigFile

/-!
# An unchanged interface

The file is the interface's block, blank lines and the peers' sections. The
block comes back as it was written; `configure_interface` expects one blank line
before the first section and none where there is no section. The requests that
edit peers only ever add to these lines, so a file that once has one too many
keeps it.
-/

namespace VpnPanel.Theorems

open VpnPanel.Lib VpnPanel.Lib.Text VpnPanel.Node

/-! ## The file behind its front -/

/-- A front, blank lines and the sections of these peers. -/
def Framed (front : Text) (blanks : Nat) (peers : List Peer) (file : ConfigFile) : Prop :=
  ∃ sections : List Section, (∀ s ∈ sections, s.Ok) ∧ sections.map Section.peer = peers ∧
    file = some (front ++ Layout.text ⟨List.replicate blanks [], sections⟩)

theorem margin_ok {sections : List Section} (h : ∀ s ∈ sections, s.Ok) (blanks : Nat) :
    Layout.Ok ⟨List.replicate blanks [], sections⟩ where
  interface := by
    intro line hline
    rw [List.eq_of_mem_replicate hline]
    exact ⟨by decide, unmarked_of_notMem (by simp)⟩
  sections := h

theorem margin_returns {sections : List Section} (h : ∀ s ∈ sections, s.Ok) (blanks : Nat) :
    '\r' ∉ Layout.text ⟨List.replicate blanks [], sections⟩ :=
  return_notMem_render (margin_ok h blanks).breaks

/-- The blank lines a written peer adds before the first section. -/
def putBlanks (key : Text) (peers : List Peer) : Nat :=
  if peers = [] ∨ peers.head?.any (·.key = key) then 1 else 0

theorem addedBlank_eq (key : Text) (sections : List Section) :
    addedBlank key sections = List.replicate (putBlanks key (sections.map Section.peer)) [] := by
  cases sections with
  | nil => rfl
  | cons s sections =>
      unfold addedBlank putBlanks
      rw [if_neg (by simp), leadingBlank_cons]
      by_cases hkey : s.peer.key = key
      · simp [hkey]
      · simp [hkey]

/-- The peers after a put. -/
def putPeers (p : Peer) (peers : List Peer) : List Peer :=
  if peers.any (·.key = p.key) then written p peers else peers ++ [p]

section Requests

variable {front : Text} {blanks : Nat} {peers : List Peer} {file : ConfigFile}

theorem framed_persist (hfront : Front front) (h : Framed front blanks peers file) {p : Peer}
    (hp : p.Ok) : Framed front (blanks + putBlanks p.key peers) (putPeers p peers)
      (persistPeer p.key p.ip p.psk file) := by
  obtain ⟨sections, hok, rfl, rfl⟩ := h
  obtain ⟨l', hl', heq, hinterface, hpeers⟩ := persist_layout (margin_ok hok blanks) hp
  refine ⟨l'.sections, hl'.sections, ?_, ?_⟩
  · rw [hpeers]
    simp [putPeers, List.any_map, Function.comp_def]
  · rw [persistPeer_front hfront (margin_returns hok blanks), heq, Option.map_some]
    dsimp only at hinterface
    rw [addedBlank_eq, ← List.replicate_add] at hinterface
    rw [← hinterface]

theorem framed_unpersist (hfront : Front front) (h : Framed front blanks peers file) (k : Text) :
    Framed front blanks (peers.filter (·.key ≠ k)) (unpersistPeer k file) := by
  obtain ⟨sections, hok, rfl, rfl⟩ := h
  obtain ⟨l', hl', heq, hinterface, hsections⟩ := unpersist_layout (margin_ok hok blanks) k
  refine ⟨l'.sections, hl'.sections, ?_, ?_⟩
  · rw [hsections, List.filter_map]
    rfl
  · rw [unpersistPeer_front hfront (margin_returns hok blanks), heq, Option.map_some]
    dsimp only at hinterface
    rw [← hinterface]

/-! ## The interface -/

/-- The lines `configure_interface` leaves before the first section. -/
def expectedBlanks (peers : List Peer) : Nat := if peers = [] then 0 else 1

/-- Neither a carriage return nor a mark in the text of the interface. -/
structure Clean (cfg : InterfaceConfig) : Prop where
  returns : '\r' ∉ buildInterfaceBlock cfg
  unmarked : ¬header <:+: buildInterfaceBlock cfg

theorem Clean.asFront {cfg : InterfaceConfig} (h : Clean cfg) :
    Front (buildInterfaceBlock cfg) where
  unmarked := h.unmarked
  returns := h.returns
  closed := by
    right
    rw [buildInterfaceBlock_eq]
    unfold interfaceLines
    generalize (cfg.fixed ++ cfg.optional).map _ = settings
    rcases List.eq_nil_or_concat settings with rfl | ⟨before, last, rfl⟩
    · exact ⟨"[Interface]".toList, by simp⟩
    · rw [List.concat_eq_append]
      exact ⟨render ("[Interface]".toList :: before) ++ last, by simp⟩

theorem split_framed (hfront : Front front) (h : Framed front blanks peers file) :
    ∃ sections : List Section, (∀ s ∈ sections, s.Ok) ∧ sections.map Section.peer = peers ∧
      ∃ text, file = some text ∧ readText text = text ∧
        text = front ++ Layout.text ⟨List.replicate blanks [], sections⟩ ∧
        (splitConfigSections text).2 =
          Layout.text ⟨List.replicate (expectedBlanks peers) [], sections⟩ := by
  obtain ⟨sections, hok, rfl, rfl⟩ := h
  refine ⟨sections, hok, rfl, _, rfl, hfront.readText (margin_returns hok blanks), rfl, ?_⟩
  rw [hfront.split, split_layout (margin_ok hok blanks)]
  unfold expectedBlanks Layout.text Layout.lines
  cases sections with
  | nil => rfl
  | cons s sections => rfl

theorem framed_configure (hfront : Front front) (h : Framed front blanks peers file)
    (cfg : InterfaceConfig) :
    Framed (buildInterfaceBlock cfg) (expectedBlanks peers) peers
      (configureInterface cfg file) := by
  obtain ⟨sections, hok, hpeers, text, rfl, hread, -, htail⟩ := split_framed hfront h
  refine ⟨sections, hok, hpeers, ?_⟩
  unfold configureInterface
  simp only [Option.map_some, Option.getD_some, hread, htail]
  split
  · next hsame => rw [← hsame]
  · rfl

/-- Blank lines cannot make up for one another. -/
theorem margin_inj {sections : List Section} {a b : Nat}
    (h : Layout.text ⟨List.replicate a [], sections⟩ =
      Layout.text ⟨List.replicate b [], sections⟩) : a = b := by
  have hlength : ∀ n, (render (List.replicate n [])).length = n := by
    intro n
    induction n with
    | zero => rfl
    | succ n ih => simp [List.replicate_succ, ih]
  have h := congrArg List.length h
  simp only [Layout.text, Layout.lines, render_append, List.length_append, hlength] at h
  omega

/-- Behind its own block the interface is unchanged where the blank lines are the
expected ones. -/
theorem unchanged_iff_blanks (names : LiveNames) {cfg : InterfaceConfig} (hcfg : Clean cfg)
    (h : Framed (buildInterfaceBlock cfg) blanks peers file) :
    interfaceChange names cfg file = none ↔ blanks = expectedBlanks peers := by
  obtain ⟨sections, -, -, text, rfl, hread, htext, htail⟩ := split_framed hcfg.asFront h
  unfold interfaceChange
  simp only [Option.map_some, Option.getD_some, hread, htail]
  constructor
  · intro hnone
    split at hnone
    · next hsame =>
      rw [htext] at hsame
      exact margin_inj (List.append_cancel_left hsame)
    · cases hnone
  · rintro rfl
    rw [if_pos htext]

end Requests

theorem buildInterfaceBlock_ne_nil (cfg : InterfaceConfig) : buildInterfaceBlock cfg ≠ [] := by
  unfold buildInterfaceBlock
  exact List.append_ne_nil_of_left_ne_nil (by simp) _

/-- No text with a mark or a carriage return is ever found unchanged. -/
theorem clean_of_unchanged {names : LiveNames} {cfg : InterfaceConfig} {file : ConfigFile}
    (h : interfaceChange names cfg file = none) : Clean cfg := by
  unfold interfaceChange at h
  cases file with
  | none =>
      dsimp only at h
      split at h
      · next hsame =>
        exact absurd (List.append_eq_nil_iff.mp hsame.symm).1 (buildInterfaceBlock_ne_nil cfg)
      · cases h
  | some text =>
      simp only [Option.map_some, Option.getD_some] at h
      split at h
      · next hsame =>
        refine ⟨fun hreturn => ?_, ?_⟩
        · have hmem : '\r' ∈ readText text := hsame ▸ List.mem_append_left _ hreturn
          exact return_notMem_universalNewlines text hmem
        · rintro ⟨before, after, hblock⟩
          -- the file is parted within the block, and what follows would be longer than it is
          have htext : readText text = before ++ (header ++ (after ++
              (splitConfigSections (readText text)).2)) := by
            rw [← List.append_assoc header, ← List.append_assoc before, ← List.append_assoc before,
              hblock]
            exact hsame
          have hheader : header ≠ [] := by simp
          obtain ⟨first, rest, hpart, hlength⟩ := partition_found hheader before
            (after ++ (splitConfigSections (readText text)).2)
          rw [← htext] at hpart
          have hparted := congrArg List.length (partition_eq hpart)
          have htail : (splitConfigSections (readText text)).2 = '\n' :: header ++ rest := by
            unfold splitConfigSections
            rw [hpart]
          have hwhole := congrArg List.length htext
          rw [htail] at hwhole
          simp only [List.length_append, List.length_cons] at hparted hwhole
          omega
      · cases h

/-! ## Requests on peers -/

/-- The key a line names. -/
def lineKey (line : Text) : Option Text :=
  if "PublicKey = ".toList.isPrefixOf (strip line) then some (Scan.assigned (strip line)) else none

/-- The public keys below the marks of the file, in order. -/
def peerKeys : ConfigFile → List Text
  | none => []
  | some text => ((lines (readText text)).dropWhile (strip · ≠ header)).filterMap lineKey

theorem lineKey_settings {p : Peer} (h : p.Ok) : p.settings.filterMap lineKey = [p.key] := by
  have hkey : lineKey (setting "PublicKey" p.key) = some p.key := by
    unfold lineKey
    rw [strip_setting (by simp) h.named h.key.trimmed, if_pos, assigned_publicKey h.key.trimmed]
    simp [setting]
  have hpsk : p.psk ≠ [] → lineKey (setting "PresharedKey" p.psk) = none := by
    intro hne
    unfold lineKey
    rw [strip_setting (by simp) hne h.psk.trimmed, if_neg]
    simp [setting]
  have hip : lineKey (setting "AllowedIPs" (p.ip ++ "/32".toList)) = none := by
    unfold lineKey
    rw [strip_setting (by simp) (by simp) h.ip.address, if_neg]
    simp [setting]
  unfold Peer.settings
  rw [List.filterMap_append, List.filterMap_append, List.filterMap_cons_some hkey,
    List.filterMap_cons_none hip]
  split
  · next hne => simp [hpsk hne]
  · simp

theorem lineKey_section {s : Section} (h : s.Ok) : s.lines.filterMap lineKey = [s.peer.key] := by
  have hblank : ∀ rest : List Text,
      (rest.filter (· ≠ [])).filterMap lineKey = rest.filterMap lineKey := by
    intro rest
    induction rest with
    | nil => rfl
    | cons line rest ih =>
        by_cases hline : line = []
        · subst hline
          exact ih
        · rw [List.filter_cons_of_pos (by simpa using hline), List.filterMap_cons,
            List.filterMap_cons, ih]
  unfold Section.lines
  rw [List.filterMap_cons_none (show lineKey header = none by decide), ← hblank, h.settings]
  exact lineKey_settings h.peer

theorem peerKeys_framed {front : Text} {blanks : Nat} {peers : List Peer} {file : ConfigFile}
    (hfront : Front front) (h : Framed front blanks peers file) :
    peerKeys file = peers.map (·.key) := by
  obtain ⟨sections, hok, rfl, rfl⟩ := h
  have hlines : lines (front ++ Layout.text ⟨List.replicate blanks [], sections⟩) =
      lines front ++ (List.replicate blanks [] ++ sections.flatMap Section.lines) := by
    have htail := lines_render (margin_ok hok blanks).breaks
    unfold lines at htail ⊢
    rw [hfront.splitlines, List.map_append]
    exact congrArg _ htail
  have hpassed : ∀ line ∈ lines front, decide (strip line ≠ header) = true := by
    intro line hline
    obtain ⟨raw, hraw, rfl⟩ := List.mem_map.mp hline
    have hin := (List.rdropWhile_prefix isLineBreak raw).isInfix
    exact decide_eq_true (strip_ne_header fun hmark =>
      hfront.unmarked_splitlines hraw (hmark.trans hin))
  have hmargin : ∀ line ∈ List.replicate blanks ([] : Text),
      decide (strip line ≠ header) = true := by
    intro line hline
    rw [List.eq_of_mem_replicate hline]
    decide
  have hsections : (sections.flatMap Section.lines).dropWhile (strip · ≠ header) =
      sections.flatMap Section.lines := by
    cases sections with
    | nil => rfl
    | cons s sections =>
        rw [List.flatMap_cons, Section.lines, List.cons_append, List.dropWhile_cons_of_neg]
        decide
  have hkeys : ∀ sections : List Section, (∀ s ∈ sections, s.Ok) →
      (sections.flatMap Section.lines).filterMap lineKey =
        sections.map fun s => s.peer.key := by
    intro sections
    induction sections with
    | nil => exact fun _ => rfl
    | cons s sections ih =>
        intro hok
        rw [List.flatMap_cons, List.filterMap_append, lineKey_section (hok s List.mem_cons_self),
          ih fun x hx => hok x (List.mem_cons_of_mem _ hx)]
        rfl
  unfold peerKeys
  dsimp only
  rw [hfront.readText (margin_returns hok blanks), hlines, List.dropWhile_append_of_pos hpassed,
    List.dropWhile_append_of_pos hmargin, hsections, hkeys sections hok, List.map_map]
  rfl

/-! ## Runs -/

/-- The texts of a request can stand in the file; `awg` takes no other peer. -/
def Sound (call : Call) : Prop :=
  match call.request with
  | .putInterface cfg => Clean cfg
  | .putPeer publicKey allowedIp pskKey =>
      call.awgOk = true → Peer.Ok ⟨publicKey, pskKey.getD [], allowedIp⟩
  | .deletePeer _ => True

/-- A request on a peer. -/
def OnPeer (call : Call) : Prop :=
  match call.request with
  | .putInterface _ => False
  | .putPeer _ _ _ => True
  | .deletePeer _ => True

/-- A put is not of the first peer of the file, and a removal leaves a peer. -/
def KeepsMargin (file : ConfigFile) : Request → Prop
  | .putInterface _ => True
  | .putPeer publicKey _ _ => (peerKeys file).head? ≠ some publicKey
  | .deletePeer pubStd => peerKeys file = [] ∨ ∃ other ∈ peerKeys file, other ≠ pubStd

instance (file : ConfigFile) : ∀ request, Decidable (KeepsMargin file request)
  | .putInterface _ => inferInstanceAs (Decidable True)
  | .putPeer _ _ _ => inferInstanceAs (Decidable (_ ≠ _))
  | .deletePeer _ => inferInstanceAs (Decidable (_ ∨ _))

/-- A request whose command failed leaves the file alone. -/
def CallKeepsMargin (file : ConfigFile) (call : Call) : Prop :=
  call.awgOk = true → KeepsMargin file call.request

instance (file : ConfigFile) (call : Call) : Decidable (CallKeepsMargin file call) :=
  inferInstanceAs (Decidable (_ → _))

/-- Every request keeps the margin when it is served. -/
def RunKeepsMargin : ConfigFile → List Call → Prop
  | _, [] => True
  | file, call :: rest => CallKeepsMargin file call ∧ RunKeepsMargin (call.serve file) rest

instance decidableRunKeepsMargin : ∀ (file : ConfigFile) (calls : List Call),
    Decidable (RunKeepsMargin file calls)
  | _, [] => isTrue trivial
  | file, call :: rest =>
      have := decidableRunKeepsMargin (call.serve file) rest
      inferInstanceAs
        (Decidable (CallKeepsMargin file call ∧ RunKeepsMargin (call.serve file) rest))

theorem putPeers_ne_nil (p : Peer) (peers : List Peer) : putPeers p peers ≠ [] := by
  unfold putPeers
  split
  · next hany =>
    rintro hnil
    rw [List.map_eq_nil_iff.mp hnil] at hany
    cases hany
  · simp

section Run

variable {front : Text} {blanks : Nat} {peers : List Peer} {file : ConfigFile} {call : Call}

/-- A request on a peer never takes a blank line away; it adds one, or removes the
last section, exactly where it does not keep the margin. -/
theorem framed_serve (hfront : Front front) (h : Framed front blanks peers file)
    (hpeer : OnPeer call) (hsound : Sound call) (hblanks : expectedBlanks peers ≤ blanks) :
    ∃ blanks' peers', Framed front blanks' peers' (call.serve file) ∧
      expectedBlanks peers' ≤ blanks' ∧
      (blanks' = expectedBlanks peers' ↔
        blanks = expectedBlanks peers ∧ CallKeepsMargin file call) := by
  have hkeys := peerKeys_framed hfront h
  unfold OnPeer at hpeer
  unfold Sound at hsound
  unfold CallKeepsMargin Call.serve
  cases hrequest : call.request with
  | putInterface cfg =>
      rw [hrequest] at hpeer
      exact hpeer.elim
  | putPeer publicKey allowedIp pskKey =>
      rw [hrequest] at hsound
      dsimp only [KeepsMargin] at hsound ⊢
      rw [hkeys]
      by_cases hok : call.awgOk = true
      · have hput := framed_persist hfront h (hsound hok)
        refine ⟨_, _, by rw [if_pos hok]; exact hput, ?_⟩
        have hexpected : ∀ p : Peer, expectedBlanks (putPeers p peers) = 1 := fun p =>
          if_neg (putPeers_ne_nil p peers)
        rw [hexpected]
        unfold putBlanks expectedBlanks at *
        cases peers with
        | nil =>
            simp [hok]
        | cons q peers =>
            by_cases hkey : q.key = publicKey
            · simp [hok, hkey]
              simp at hblanks
              omega
            · simp [hok, hkey]
              simpa using hblanks
      · exact ⟨blanks, peers, by rw [if_neg hok]; exact h, hblanks, by simp [hok]⟩
  | deletePeer pubStd =>
      dsimp only [KeepsMargin]
      rw [hkeys]
      by_cases hok : call.awgOk = true
      · refine ⟨_, _, by rw [if_pos hok]; exact framed_unpersist hfront h pubStd, ?_⟩
        cases peers with
        | nil => simp [expectedBlanks, hok]
        | cons q peers =>
            have hone : expectedBlanks (q :: peers) = 1 := if_neg (by simp)
            rw [hone] at hblanks ⊢
            by_cases hleft : ∃ p ∈ q :: peers, p.key ≠ pubStd
            · obtain ⟨p, hp, hkey⟩ := hleft
              have hsome : (q :: peers).filter (·.key ≠ pubStd) ≠ [] :=
                List.ne_nil_of_mem (List.mem_filter.mpr ⟨hp, by simpa using hkey⟩)
              have hone' : expectedBlanks ((q :: peers).filter (·.key ≠ pubStd)) = 1 :=
                if_neg hsome
              rw [hone']
              exact ⟨hblanks, fun heq => ⟨heq, fun _ => .inr ⟨p.key, List.mem_map_of_mem hp, hkey⟩⟩,
                And.left⟩
            · have hnone : (q :: peers).filter (·.key ≠ pubStd) = [] := by
                refine List.filter_eq_nil_iff.mpr fun p hp => ?_
                simpa using fun hkey => hleft ⟨p, hp, hkey⟩
              rw [hnone]
              refine ⟨Nat.zero_le _, fun heq => ?_, fun ⟨_, hkeeps⟩ => ?_⟩
              · have hzero : blanks = 0 := heq
                omega
              · rcases hkeeps hok with hnil | ⟨other, hother, hkey⟩
                · simp at hnil
                · obtain ⟨p, hp, rfl⟩ := List.mem_map.mp hother
                  exact absurd ⟨p, hp, hkey⟩ hleft
      · exact ⟨blanks, peers, by rw [if_neg hok]; exact h, hblanks, by simp [hok]⟩

/-- After any requests on peers the interface is unchanged exactly where the blank
lines were right and every request kept the margin. -/
theorem unchanged_run (names : LiveNames) {cfg : InterfaceConfig} (hcfg : Clean cfg)
    (calls : List Call) : ∀ {blanks : Nat} {peers : List Peer} {file : ConfigFile},
    Framed (buildInterfaceBlock cfg) blanks peers file → expectedBlanks peers ≤ blanks →
    (∀ call ∈ calls, OnPeer call ∧ Sound call) →
    (interfaceChange names cfg (calls.foldl Call.serve file) = none ↔
      blanks = expectedBlanks peers ∧ RunKeepsMargin file calls) := by
  induction calls with
  | nil =>
      intro blanks peers file h _ _
      rw [List.foldl_nil, unchanged_iff_blanks names hcfg h, RunKeepsMargin, and_true]
  | cons call rest ih =>
      intro blanks peers file h hblanks hcalls
      obtain ⟨hpeer, hsound⟩ := hcalls call List.mem_cons_self
      obtain ⟨blanks', peers', h', hblanks', hkeeps⟩ :=
        framed_serve hcfg.asFront h hpeer hsound hblanks
      rw [List.foldl_cons, ih h' hblanks' fun c hc => hcalls c (List.mem_cons_of_mem _ hc),
        hkeeps, RunKeepsMargin, and_assoc]

theorem framed_new (cfg : InterfaceConfig) :
    Framed (buildInterfaceBlock cfg) 0 [] (configureInterface cfg none) := by
  refine ⟨[], by simp, rfl, ?_⟩
  unfold configureInterface
  simp only [Option.map_none, Option.getD_none, List.append_nil]
  rw [if_neg (Ne.symm (buildInterfaceBlock_ne_nil cfg))]
  simp [Layout.text, Layout.lines]

/-- The file is missing, or framed with no blank line too few. -/
def FramedFile (file : ConfigFile) : Prop :=
  file = none ∨ ∃ front blanks peers, Front front ∧ Framed front blanks peers file ∧
    expectedBlanks peers ≤ blanks

theorem framed_missing (hsound : Sound call) : FramedFile (call.serve none) := by
  unfold Sound at hsound
  unfold Call.serve
  cases hrequest : call.request with
  | putInterface cfg =>
      rw [hrequest] at hsound
      exact .inr ⟨_, 0, [], Clean.asFront hsound, framed_new cfg, le_rfl⟩
  | putPeer publicKey allowedIp pskKey =>
      rw [hrequest] at hsound
      dsimp only
      split
      · next hok =>
        refine .inr ⟨[], 1, [⟨publicKey, pskKey.getD [], allowedIp⟩], .nil, ?_, le_rfl⟩
        refine ⟨[writtenSection ⟨publicKey, pskKey.getD [], allowedIp⟩], ?_, rfl, ?_⟩
        · simpa using written_ok (hsound hok)
        · have hblock := peerBlock_flatten ⟨publicKey, pskKey.getD [], allowedIp⟩
          unfold persistPeer
          dsimp only at hblock ⊢
          rw [hblock]
          simp [Layout.text, Layout.lines]
      · exact .inl rfl
  | deletePeer pubStd =>
      left
      dsimp only
      split
      · rfl
      · rfl

/-- Every file that sound requests made is missing or framed. -/
theorem framed_reaches (h : agent.Reaches (fun _ call => Sound call) file) : FramedFile file := by
  refine h.invariant (.inl rfl) fun file call file' hfile hsound hstep => ?_
  obtain rfl := Option.some.inj hstep
  rcases hfile with rfl | ⟨front, blanks, peers, hfront, hframed, hblanks⟩
  · exact framed_missing hsound
  · by_cases hpeer : OnPeer call
    · obtain ⟨blanks', peers', hframed', hblanks', -⟩ :=
        framed_serve hfront hframed hpeer hsound hblanks
      exact .inr ⟨front, blanks', peers', hfront, hframed', hblanks'⟩
    · unfold OnPeer at hpeer
      unfold Sound at hsound
      unfold Call.serve
      cases hrequest : call.request with
      | putInterface cfg =>
          rw [hrequest] at hsound
          exact .inr
            ⟨_, _, peers, Clean.asFront hsound, framed_configure hfront hframed cfg, le_rfl⟩
      | putPeer publicKey allowedIp pskKey =>
          rw [hrequest] at hpeer
          exact absurd trivial hpeer
      | deletePeer pubStd =>
          rw [hrequest] at hpeer
          exact absurd trivial hpeer

/-- Right after it was written the interface is framed as expected. -/
theorem framed_written (h : agent.Reaches (fun _ call => Sound call) file)
    (cfg : InterfaceConfig) : ∃ peers,
      Framed (buildInterfaceBlock cfg) (expectedBlanks peers) peers
        (configureInterface cfg file) := by
  rcases framed_reaches h with rfl | ⟨front, blanks, peers, hfront, hframed, -⟩
  · exact ⟨[], framed_new cfg⟩
  · exact ⟨peers, framed_configure hfront hframed cfg⟩

end Run

/-- **Where the interface is recognised.** After the interface was written and any
requests on peers, the same interface is unchanged exactly where its text holds
neither a carriage return nor a mark, no put was of the first peer of the file,
and no removal took the last one. -/
theorem interface_unchanged_iff {file : ConfigFile}
    (h : agent.Reaches (fun _ call => Sound call) file) (names : LiveNames)
    (cfg : InterfaceConfig) {calls : List Call}
    (hcalls : ∀ call ∈ calls, OnPeer call ∧ Sound call) :
    interfaceChange names cfg (calls.foldl Call.serve (configureInterface cfg file)) = none ↔
      Clean cfg ∧ RunKeepsMargin (configureInterface cfg file) calls := by
  obtain ⟨peers, hframed⟩ := framed_written h cfg
  constructor
  · intro hunchanged
    have hcfg := clean_of_unchanged hunchanged
    exact ⟨hcfg, ((unchanged_run names hcfg calls hframed le_rfl hcalls).mp hunchanged).2⟩
  · rintro ⟨hcfg, hkeeps⟩
    exact (unchanged_run names hcfg calls hframed le_rfl hcalls).mpr ⟨rfl, hkeeps⟩

section Examples

def exampleInterface : InterfaceConfig := { privateKey := "a2V5".toList }

def exampleNames : LiveNames := { privateKeyPath := "/tmp/x.key".toList }

def putFirst : Call := ⟨.putPeer "A=".toList "10.8.0.2".toList (some "cHNr".toList), true⟩
def putSecond : Call := ⟨.putPeer "B=".toList "10.8.0.3".toList (some "cHNr".toList), true⟩
def deleteFirst : Call := ⟨.deletePeer "A=".toList, true⟩

theorem example_peer_ok {key ip : Text} (hkey : key ∈ ["A=".toList, "B=".toList])
    (hip : ip ∈ ["10.8.0.2".toList, "10.8.0.3".toList]) : Peer.Ok ⟨key, "cHNr".toList, ip⟩ := by
  have hplain : ∀ value ∈ ["A=".toList, "B=".toList, "cHNr".toList, "10.8.0.2".toList,
      "10.8.0.3".toList], NoBreaks value ∧ strip value = value ∧ ¬header <:+: value := by decide
  have hvalue : ∀ value ∈ ["A=".toList, "B=".toList, "cHNr".toList, "10.8.0.2".toList,
      "10.8.0.3".toList], Plain value := fun value hmem =>
    ⟨(hplain value hmem).1, (hplain value hmem).2.1, (hplain value hmem).2.2⟩
  refine ⟨hvalue key ?_, hvalue _ (by simp), hvalue ip ?_, ?_⟩
  · exact List.mem_append_left ["cHNr".toList, "10.8.0.2".toList, "10.8.0.3".toList] hkey
  · exact List.mem_append_right ["A=".toList, "B=".toList, "cHNr".toList] hip
  · rintro rfl
    simp at hkey

/-- The second peer comes, the first one goes. -/
theorem interface_unchanged_two_peers :
    interfaceChange exampleNames exampleInterface
      ([putFirst, putSecond, putSecond, deleteFirst].foldl Call.serve
        (configureInterface exampleInterface none)) = none := by
  have hcalls : ∀ call ∈ [putFirst, putSecond, putSecond, deleteFirst],
      OnPeer call ∧ Sound call := by
    have hfirst : Sound putFirst := fun _ => example_peer_ok (by simp) (by simp)
    have hsecond : Sound putSecond := fun _ => example_peer_ok (by simp) (by simp)
    simp only [List.forall_mem_cons, List.not_mem_nil, false_implies, implies_true, and_true]
    exact ⟨⟨trivial, hfirst⟩, ⟨trivial, hsecond⟩, ⟨trivial, hsecond⟩, trivial, trivial⟩
  exact (interface_unchanged_iff .init exampleNames exampleInterface hcalls).mpr
    ⟨⟨by decide +kernel, by decide +kernel⟩, by decide +kernel⟩

/-- The only peer is removed: the same interface is written and applied again. -/
theorem interface_changed_last_peer :
    (interfaceChange exampleNames exampleInterface
      ([putFirst, deleteFirst].foldl Call.serve
        (configureInterface exampleInterface none))).isSome = true := by decide +kernel

end Examples

end VpnPanel.Theorems
