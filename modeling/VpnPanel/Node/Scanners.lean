import VpnPanel.Node.Layout

/-!
# The line scanners on a file with a layout

Each scanner is followed through the interface lines, over one section, and from
that over all of them.
-/

namespace VpnPanel.Node

open VpnPanel.Lib VpnPanel.Lib.Text

/-! ## The settings of a section -/

theorem assigned_publicKey {value : Text} (h : strip value = value) :
    Scan.assigned (setting "PublicKey" value) = value := by
  have hpart : partition ['='] (setting "PublicKey" value) =
      some ("PublicKey ".toList, ' ' :: value) := by
    have hsplit := partition_char (c := '=') (l := "PublicKey ".toList) (t := ' ' :: value)
      (by decide)
    simpa [setting] using hsplit
  unfold Scan.assigned
  rw [hpart]
  exact (strip_cons (by decide)).trans h

/-- The key a section's lines name, from the one named before. -/
def namedKey (before : Option Text) (line : Text) : Option Text :=
  if "PublicKey = ".toList.isPrefixOf (strip line) then some (Scan.assigned (strip line))
  else before

theorem namedKey_settings {p : Peer} (h : p.Ok) (before : Option Text) :
    p.settings.foldl namedKey before = some p.key := by
  have hkey : namedKey before (setting "PublicKey" p.key) = some p.key := by
    unfold namedKey
    rw [strip_setting (by simp) h.named h.key.trimmed, if_pos, assigned_publicKey h.key.trimmed]
    simp [setting]
  have hpsk : ∀ before, p.psk ≠ [] → namedKey before (setting "PresharedKey" p.psk) = before := by
    intro before hpsk
    unfold namedKey
    rw [strip_setting (by simp) hpsk h.psk.trimmed, if_neg]
    simp [setting]
  have hip : ∀ before, namedKey before (setting "AllowedIPs" (p.ip ++ "/32".toList)) = before := by
    intro before
    unfold namedKey
    rw [strip_setting (by simp) (by simp) h.ip.address, if_neg]
    simp [setting]
  unfold Peer.settings
  split
  · next hne =>
    simp only [List.cons_append, List.nil_append, List.foldl_cons, List.foldl_nil]
    rw [hkey, hpsk _ hne, hip]
  · simp only [List.cons_append, List.nil_append, List.append_nil, List.foldl_cons, List.foldl_nil]
    rw [hkey, hip]

theorem Section.Ok.namedKey {s : Section} (h : s.Ok) (before : Option Text) :
    s.rest.foldl namedKey before = some s.peer.key := by
  have hblank : ∀ (rest : List Text) (before : Option Text),
      (rest.filter (· ≠ [])).foldl Node.namedKey before = rest.foldl Node.namedKey before := by
    intro rest
    induction rest with
    | nil => exact fun _ => rfl
    | cons line rest ih =>
        intro before
        by_cases hline : line = []
        · subst hline
          exact ih before
        · rw [List.filter_cons_of_pos (by simpa using hline)]
          exact ih _
  rw [← hblank, h.settings]
  exact namedKey_settings h.peer before

/-! ## Editing -/

namespace Scan

variable {pubkey : Text} {block : List Text}

theorem foldl_keep (rest : List Text) : ∀ {s : Scan}, s.peerBuffer ≠ [] →
    (∀ line ∈ rest, ¬header <:+: line) →
    (rest.map (· ++ ['\n'])).foldl (persistLine pubkey block) s =
      { s with
        peerBuffer := s.peerBuffer ++ rest.map (· ++ ['\n'])
        peerPubkey := rest.foldl namedKey s.peerPubkey } := by
  induction rest with
  | nil =>
      intro s _ _
      simp
  | cons line rest ih =>
      intro s hbuffer hrest
      have hline : ¬header.isPrefixOf (strip (line ++ ['\n'])) = true := by
        rw [strip_newline]
        exact not_header (hrest line List.mem_cons_self)
      have hstep : persistLine pubkey block s (line ++ ['\n']) =
          { s with
            peerBuffer := s.peerBuffer ++ [line ++ ['\n']]
            peerPubkey := namedKey s.peerPubkey line } := by
        unfold persistLine keep namedKey
        rw [if_neg hline, if_pos hbuffer, strip_newline]
      rw [List.map_cons, List.foldl_cons, hstep,
        ih (by simp) fun x hx => hrest x (List.mem_cons_of_mem _ hx)]
      simp

/-- A section ends the one before and is buffered whole. -/
theorem foldl_section {s : Section} (h : s.Ok) (scan : Scan) :
    (s.lines.map (· ++ ['\n'])).foldl (persistLine pubkey block) scan =
      { scan.flushPeerBuffer pubkey block with
        peerBuffer := s.lines.map (· ++ ['\n']), peerPubkey := some s.peer.key } := by
  have hheader : header.isPrefixOf (strip (header ++ ['\n'])) = true := by decide
  have hstep : persistLine pubkey block scan (header ++ ['\n']) =
      { scan.flushPeerBuffer pubkey block with peerBuffer := [header ++ ['\n']] } := by
    unfold persistLine
    rw [if_pos hheader]
  unfold Section.lines
  rw [List.map_cons, List.foldl_cons, hstep, foldl_keep _ (by simp) fun line hline =>
    (h.line_ok hline).2, h.namedKey]
  simp

/-- Over all sections, those of the key are replaced by the block. -/
theorem foldl_sections (pubkey : Text) (block : List Text) (sections : List Section) :
    ∀ (scan : Scan),
    (∀ s ∈ sections, s.Ok) →
    let scanned := (((sections.flatMap Section.lines).map (· ++ ['\n'])).foldl
      (persistLine pubkey block) scan).flushPeerBuffer pubkey block
    scanned.newLines = (scan.flushPeerBuffer pubkey block).newLines ++
        sections.flatMap (fun s =>
          if s.peer.key = pubkey then block else s.lines.map (· ++ ['\n'])) ∧
      scanned.replaced = ((scan.flushPeerBuffer pubkey block).replaced ||
        sections.any fun s => s.peer.key = pubkey) := by
  induction sections with
  | nil =>
      intro scan _
      simp
  | cons s sections ih =>
      intro scan hok
      have hs := hok s List.mem_cons_self
      have hflush : ∀ scan : Scan,
          Scan.flushPeerBuffer pubkey block { scan with
            peerBuffer := s.lines.map (· ++ ['\n']), peerPubkey := some s.peer.key } =
          { newLines := scan.newLines ++
              if s.peer.key = pubkey then block else s.lines.map (· ++ ['\n'])
            peerBuffer := [], peerPubkey := none
            replaced := scan.replaced || decide (s.peer.key = pubkey) } := by
        intro scan
        by_cases hkey : s.peer.key = pubkey
        · simp [flushPeerBuffer, Section.lines, hkey]
        · simp [flushPeerBuffer, Section.lines, hkey]
      have hrest := ih { scan.flushPeerBuffer pubkey block with
        peerBuffer := s.lines.map (· ++ ['\n']), peerPubkey := some s.peer.key }
        fun x hx => hok x (List.mem_cons_of_mem _ hx)
      dsimp only at hrest ⊢
      rw [hflush] at hrest
      rw [List.flatMap_cons, List.map_append, List.foldl_append, foldl_section hs, hrest.1, hrest.2]
      refine ⟨?_, ?_⟩
      · simp [List.append_assoc]
      · simp [Bool.or_assoc]

/-- Lines without a mark are passed on while no section is open. -/
theorem foldl_passed (ls : List Text) : ∀ {s : Scan}, s.peerBuffer = [] →
    (∀ line ∈ ls, ¬header <:+: line) →
    ls.foldl (persistLine pubkey block) s = { s with newLines := s.newLines ++ ls } := by
  induction ls with
  | nil =>
      intro s _ _
      simp
  | cons line ls ih =>
      intro s hbuffer hls
      have hstep : persistLine pubkey block s line =
          { s with newLines := s.newLines ++ [line] } := by
        unfold persistLine keep
        rw [if_neg (not_header (hls line List.mem_cons_self)), if_neg (by simp [hbuffer])]
      have hrest := ih (s := { s with newLines := s.newLines ++ [line] }) hbuffer
        fun x hx => hls x (List.mem_cons_of_mem _ hx)
      rw [List.foldl_cons, hstep, hrest]
      simp

/-- Before the first mark the lines are passed on. -/
theorem foldl_interface (ls : List Text) {s : Scan} (hbuffer : s.peerBuffer = [])
    (hls : ∀ line ∈ ls, ¬header <:+: line) :
    (ls.map (· ++ ['\n'])).foldl (persistLine pubkey block) s =
      { s with newLines := s.newLines ++ ls.map (· ++ ['\n']) } := by
  refine foldl_passed _ hbuffer fun line hline => ?_
  obtain ⟨l, hl, rfl⟩ := List.mem_map.mp hline
  exact unmarked_suffix (by decide) (hls l hl)

/-- What `_persist_peer` has at the end of a file with a layout. -/
theorem scan_layout (pubkey : Text) (block : List Text) {l : Layout} (h : l.Ok) :
    let scanned := ((l.lines.map (· ++ ['\n'])).foldl (persistLine pubkey block) {}).flushPeerBuffer
      pubkey block
    scanned.newLines = l.interface.map (· ++ ['\n']) ++ l.sections.flatMap (fun s =>
        if s.peer.key = pubkey then block else s.lines.map (· ++ ['\n'])) ∧
      scanned.replaced = l.sections.any fun s => s.peer.key = pubkey := by
  have hall := foldl_sections pubkey block l.sections
    { newLines := l.interface.map (· ++ ['\n']) } h.sections
  unfold Layout.lines
  rw [List.map_append, List.foldl_append,
    foldl_interface _ rfl fun line hline => (h.interface line hline).2]
  simpa [flushPeerBuffer] using hall

/-- One line of `_unpersist_peer` is one of `_persist_peer` with nothing to put
in, but for the mark that something was replaced. -/
theorem persistLine_nil (pubkey : Text) {s : Scan} (hs : s.peerBuffer = [] → s.peerPubkey = none)
    (line : Text) (replaced : Bool) :
    ∃ after, persistLine pubkey [] { s with replaced := replaced } line =
      { unpersistLine pubkey s line with replaced := after } := by
  unfold persistLine unpersistLine
  by_cases hheader : header.isPrefixOf (strip line) = true
  · rw [if_pos hheader, if_pos hheader]
    unfold flushPeerBuffer
    by_cases hbuffer : s.peerBuffer = []
    · refine ⟨replaced, ?_⟩
      rw [if_pos hbuffer, if_neg (by simp [hbuffer]), hs hbuffer]
    · by_cases hkey : s.peerPubkey = some pubkey
      · refine ⟨true, ?_⟩
        rw [if_neg hbuffer, if_pos hkey, if_neg (by simp [hkey]), List.append_nil]
      · refine ⟨replaced, ?_⟩
        rw [if_neg hbuffer, if_neg hkey, if_pos ⟨hbuffer, hkey⟩]
  · rw [if_neg hheader, if_neg hheader]
    refine ⟨replaced, ?_⟩
    unfold keep
    by_cases hbuffer : s.peerBuffer = []
    · rw [if_neg (by simp [hbuffer]), if_neg (by simp [hbuffer])]
    · rw [if_pos hbuffer, if_pos hbuffer]

theorem unpersistLine_keyed {s : Scan} (hs : s.peerBuffer = [] → s.peerPubkey = none)
    (line : Text) :
    (unpersistLine pubkey s line).peerBuffer = [] →
      (unpersistLine pubkey s line).peerPubkey = none := by
  unfold unpersistLine
  split
  · exact fun _ => rfl
  · unfold keep
    split
    · exact fun hnil => absurd hnil (by simp)
    · exact hs

theorem foldl_unpersist (pubkey : Text) (ls : List Text) : ∀ {s : Scan} (replaced : Bool),
    (s.peerBuffer = [] → s.peerPubkey = none) →
    ∃ after, ls.foldl (persistLine pubkey []) { s with replaced := replaced } =
      { ls.foldl (unpersistLine pubkey) s with replaced := after } := by
  induction ls with
  | nil => exact fun replaced _ => ⟨replaced, rfl⟩
  | cons line ls ih =>
      intro s replaced hs
      obtain ⟨after, hstep⟩ := persistLine_nil pubkey hs line replaced
      rw [List.foldl_cons, List.foldl_cons, hstep]
      exact ih after (unpersistLine_keyed hs line)

end Scan

/-! ## Reading -/

theorem assign_setting (name : String) {value : Text} {current : Current} {r : Reader}
    (hname : name ∈ ["PublicKey", "PresharedKey", "AllowedIPs"]) (hne : value ≠ [])
    (h : strip value = value) (hcurrent : r.current = some current) :
    r.line (setting name value) =
      { r with current := some (Reader.assign current (Reader.lower name.toList) value) } := by
  have hpart : ∀ l : Text, '=' ∉ l → partition ['='] (l ++ "= ".toList ++ value) =
      some (l, ' ' :: value) := by
    intro l hl
    have hsplit := partition_char (c := '=') (l := l) (t := ' ' :: value) hl
    simpa using hsplit
  have hvalue : strip (' ' :: value) = value := (strip_cons (by decide)).trans h
  have hstrip := strip_setting hname hne h
  have hnonempty : setting name value ≠ [] := by simp [setting]
  have hheader : setting name value ≠ "[Peer]".toList := by
    simp only [List.mem_cons, List.not_mem_nil, or_false] at hname
    rcases hname with rfl | rfl | rfl <;> simp [setting]
  unfold Reader.line
  dsimp only
  rw [hstrip, if_neg hnonempty, if_neg hheader, hcurrent]
  simp only [List.mem_cons, List.not_mem_nil, or_false] at hname
  rcases hname with rfl | rfl | rfl
  · have := hpart "PublicKey ".toList (by decide)
    rw [show setting "PublicKey" value = "PublicKey ".toList ++ "= ".toList ++ value from rfl, this]
    dsimp only
    rw [hvalue, show strip "PublicKey ".toList = "PublicKey".toList by decide]
  · have := hpart "PresharedKey ".toList (by decide)
    rw [show setting "PresharedKey" value = "PresharedKey ".toList ++ "= ".toList ++ value from rfl,
      this]
    dsimp only
    rw [hvalue, show strip "PresharedKey ".toList = "PresharedKey".toList by decide]
  · have := hpart "AllowedIPs ".toList (by decide)
    have hline : setting "AllowedIPs" value = "AllowedIPs ".toList ++ "= ".toList ++ value := rfl
    rw [hline, this]
    dsimp only
    rw [hvalue, show strip "AllowedIPs ".toList = "AllowedIPs".toList by decide]

namespace Reader

theorem line_header (r : Reader) : r.line header = { peers := r.store, current := some {} } := by
  unfold line
  dsimp only
  rw [show strip header = header by decide, if_neg (by decide), if_pos rfl]

/-- The settings of a peer fill a fresh record. -/
theorem foldl_settings {p : Peer} (h : p.Ok) (peers : PeerMap) :
    p.settings.foldl line { peers, current := some {} } =
      { peers, current := some ⟨p.key, p.entry⟩ } := by
  have hkey := fun (r : Reader) (current : Current) (hr : r.current = some current) =>
    assign_setting "PublicKey" (by simp) h.named h.key.trimmed hr
  have hpsk := fun (hne : p.psk ≠ []) (r : Reader) (current : Current)
      (hr : r.current = some current) =>
    assign_setting "PresharedKey" (by simp) hne h.psk.trimmed hr
  have hip := fun (r : Reader) (current : Current) (hr : r.current = some current) =>
    assign_setting "AllowedIPs" (by simp) (by simp) h.ip.address hr
  unfold Peer.settings Peer.entry
  split
  · next hne =>
    simp only [List.cons_append, List.nil_append, List.foldl_cons, List.foldl_nil]
    rw [hkey _ _ rfl, hpsk hne _ _ rfl, hip _ _ rfl]
    simp [assign, lower]
  · next hempty =>
    have hempty : p.psk = [] := by simpa using hempty
    simp only [List.cons_append, List.nil_append, List.append_nil, List.foldl_cons, List.foldl_nil]
    rw [hkey _ _ rfl, hip _ _ rfl]
    simp [assign, lower, hempty]

theorem foldl_section {s : Section} (h : s.Ok) (r : Reader) :
    s.lines.foldl line r = { peers := r.store, current := some ⟨s.peer.key, s.peer.entry⟩ } := by
  have hblank : ∀ (rest : List Text) (r : Reader),
      (rest.filter (· ≠ [])).foldl line r = rest.foldl line r := by
    intro rest
    induction rest with
    | nil => exact fun _ => rfl
    | cons x rest ih =>
        intro r
        by_cases hx : x = []
        · subst hx
          exact ih r
        · rw [List.filter_cons_of_pos (by simpa using hx)]
          exact ih _
  unfold Section.lines
  rw [List.foldl_cons, line_header, ← hblank, h.settings]
  exact foldl_settings h.peer r.store

/-- Storing a peer's record over an earlier one. -/
def put (peers : PeerMap) (p : Peer) : PeerMap := Function.update peers p.key (some p.entry)

theorem store_sections (sections : List Section) : ∀ {r : Reader}, (∀ s ∈ sections, s.Ok) →
    ((sections.flatMap Section.lines).foldl line r).store =
      (sections.map Section.peer).foldl put r.store := by
  induction sections with
  | nil => exact fun _ => rfl
  | cons s sections ih =>
      intro r hok
      have hs := hok s List.mem_cons_self
      rw [List.flatMap_cons, List.foldl_append, foldl_section hs,
        ih fun x hx => hok x (List.mem_cons_of_mem _ hx), List.map_cons, List.foldl_cons]
      congr 1
      exact if_pos hs.peer.named

/-- Nothing is read before the first mark. -/
theorem foldl_interface (ls : List Text) (h : ∀ line ∈ ls, ¬header <:+: line) :
    ls.foldl line {} = {} := by
  induction ls with
  | nil => rfl
  | cons x ls ih =>
      have hx : line {} x = {} := by
        unfold line
        dsimp only
        split
        · rfl
        · rw [if_neg (strip_ne_header (h x List.mem_cons_self))]
      rw [List.foldl_cons, hx]
      exact ih fun y hy => h y (List.mem_cons_of_mem _ hy)

end Reader

/-- The peers of a file with a layout. -/
theorem configuredPeers_layout {l : Layout} (h : l.Ok) :
    configuredPeers (some l.text) =
      (l.sections.map Section.peer).foldl Reader.put fun _ => none := by
  unfold configuredPeers
  dsimp only
  rw [h.readText, Layout.text, lines_render h.breaks, Layout.lines, List.foldl_append,
    Reader.foldl_interface _ fun line hline => (h.interface line hline).2,
    Reader.store_sections _ h.sections]
  rfl

/-- The assignments of the interface of a file with a layout. -/
theorem interfaceAssignments_layout {l : Layout} (h : l.Ok) :
    interfaceAssignments (some l.text) = l.interface.filter ('=' ∈ ·) := by
  unfold interfaceAssignments
  dsimp only
  rw [h.readText, Layout.text, lines_render h.breaks, Layout.lines]
  congr 1
  rw [List.takeWhile_append_of_pos fun line hline =>
    decide_eq_true (strip_ne_header (h.interface line hline).2)]
  have hnone : (l.sections.flatMap Section.lines).takeWhile
      (fun line => decide (strip line ≠ header)) = [] := by
    cases l.sections with
    | nil => rfl
    | cons s sections =>
        rw [List.flatMap_cons, Section.lines, List.cons_append, List.takeWhile_cons_of_neg]
        decide
  rw [hnone, List.append_nil]

end VpnPanel.Node
