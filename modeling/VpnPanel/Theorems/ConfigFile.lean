import VpnPanel.Node.Scanners

/-!
# The config file as a map of peers

A file that the agent made keeps its layout under every request. What is read
back from it is a map from public keys, which the requests update at one key.
-/

namespace VpnPanel.Theorems

open VpnPanel.Lib VpnPanel.Lib.Text VpnPanel.Node

/-- The file is missing, or it has a layout. -/
def Laid (file : ConfigFile) : Prop := file = none ∨ ∃ l : Layout, l.Ok ∧ file = some l.text

/-- A section as it is written. -/
def writtenSection (p : Peer) : Section := ⟨p, p.settings⟩

theorem written_ok {p : Peer} (h : p.Ok) : (writtenSection p).Ok where
  peer := h
  settings := by
    refine List.filter_eq_self.mpr fun line hline => ?_
    obtain ⟨name, -, value, rfl, -⟩ := h.mem_settings hline
    simp [setting]

theorem peerBlock_flatten (p : Peer) :
    (peerBlock p.key p.ip p.psk).flatten = render ([] :: (writtenSection p).lines) := by
  unfold peerBlock writtenSection Section.lines Peer.settings
  split
  · simp [header]
  · simp [header]

theorem flatten_sections {f g : Section → List Text} (h : ∀ s, (f s).flatten = render (g s))
    (sections : List Section) :
    (sections.flatMap f).flatten = render (sections.flatMap g) := by
  induction sections with
  | nil => rfl
  | cons s sections ih => simp [h, ih]

/-! ## Writing a peer -/

/-- The peers after `p` was written. -/
def written (p : Peer) (peers : List Peer) : List Peer :=
  peers.map fun q => if q.key = p.key then p else q

/-- The blank line before the first section, where it is the one replaced. -/
def leadingBlank (key : Text) (sections : List Section) : List Text :=
  if sections.head?.any (·.peer.key = key) then [[]] else []

theorem leadingBlank_cons (key : Text) (s : Section) (sections : List Section) :
    leadingBlank key (s :: sections) = if s.peer.key = key then [[]] else [] := by
  simp [leadingBlank]

theorem leadingBlank_blank (key : Text) (sections : List Section) :
    ∀ line ∈ leadingBlank key sections, line = [] := by
  unfold leadingBlank
  split
  · simp
  · simp

/-- Where sections are replaced, the blank line before a new one ends the part
before it. -/
theorem regroup {p : Peer} (hp : p.Ok) (sections : List Section) : (∀ s ∈ sections, s.Ok) →
    ∃ sections' : List Section,
      sections.flatMap (fun s =>
          if s.peer.key = p.key then [] :: (writtenSection p).lines else s.lines) =
        leadingBlank p.key sections ++ sections'.flatMap Section.lines ∧
      (∀ s ∈ sections', s.Ok) ∧
      sections'.map Section.peer = written p (sections.map Section.peer) := by
  induction sections with
  | nil => exact fun _ => ⟨[], rfl, by simp, rfl⟩
  | cons s sections ih =>
      intro hok
      obtain ⟨sections', heq, hok', hpeers⟩ := ih fun x hx => hok x (List.mem_cons_of_mem _ hx)
      have hblank := leadingBlank_blank p.key sections
      generalize leadingBlank p.key sections = blank at heq hblank
      -- the blanks found below end this section
      have hextend : ∀ t : Section, t.Ok → Section.Ok { t with rest := t.rest ++ blank } := by
        intro t ht
        refine ⟨ht.peer, ?_⟩
        have hnone : blank.filter (· ≠ []) = [] :=
          List.filter_eq_nil_iff.mpr fun line hline => by simp [hblank line hline]
        rw [List.filter_append, hnone, List.append_nil]
        exact ht.settings
      rw [List.flatMap_cons, heq, leadingBlank_cons]
      by_cases hkey : s.peer.key = p.key
      · refine ⟨{ writtenSection p with rest := (writtenSection p).rest ++ blank } :: sections',
          ?_, ?_, ?_⟩
        · rw [if_pos hkey, if_pos hkey]
          simp [Section.lines, List.append_assoc]
        · intro x hx
          rcases List.mem_cons.mp hx with rfl | hx
          · exact hextend _ (written_ok hp)
          · exact hok' x hx
        · simp [written, hkey, hpeers, writtenSection]
      · refine ⟨{ s with rest := s.rest ++ blank } :: sections', ?_, ?_, ?_⟩
        · rw [if_neg hkey, if_neg hkey]
          simp [Section.lines, List.append_assoc]
        · intro x hx
          rcases List.mem_cons.mp hx with rfl | hx
          · exact hextend _ (hok s List.mem_cons_self)
          · exact hok' x hx
        · simp [written, hkey, hpeers]

/-- Blank lines after the interface assign nothing. -/
theorem interface_blank {interface blank : List Text}
    (h : ∀ line ∈ interface, NoBreaks line ∧ ¬header <:+: line)
    (hblank : ∀ line ∈ blank, line = []) :
    (∀ line ∈ interface ++ blank, NoBreaks line ∧ ¬header <:+: line) ∧
      (interface ++ blank).filter ('=' ∈ ·) = interface.filter ('=' ∈ ·) := by
  refine ⟨fun line hline => ?_, ?_⟩
  · rcases List.mem_append.mp hline with hline | hline
    · exact h line hline
    · rw [hblank line hline]
      exact ⟨by decide, unmarked_of_notMem (by simp)⟩
  · have hnone : blank.filter ('=' ∈ ·) = [] :=
      List.filter_eq_nil_iff.mpr fun line hline => by simp [hblank line hline]
    rw [List.filter_append, hnone, List.append_nil]

/-- A blank line at the end of a file with a layout. -/
theorem layout_blank {l : Layout} (h : l.Ok) : ∃ l' : Layout, l'.Ok ∧
    l'.lines = l.lines ++ [[]] ∧ l'.sections.map Section.peer = l.sections.map Section.peer ∧
    l'.interface = l.interface ++ if l.sections = [] then [[]] else [] := by
  rcases List.eq_nil_or_concat l.sections with hnil | ⟨sections, last, hlast⟩
  · have hblank : ∀ line ∈ [([] : Text)], line = [] := by simp
    obtain ⟨hok, -⟩ := interface_blank h.interface hblank
    refine ⟨⟨l.interface ++ [[]], []⟩, ⟨hok, by simp⟩, ?_, by simp [hnil], by simp [hnil]⟩
    simp [Layout.lines, hnil]
  · have hok : last.Ok := h.sections last (by simp [hlast])
    refine ⟨⟨l.interface, sections ++ [{ last with rest := last.rest ++ [[]] }]⟩,
      ⟨h.interface, fun s hs => ?_⟩, ?_, by simp [hlast], by simp [hlast]⟩
    · rcases List.mem_append.mp hs with hs | hs
      · exact h.sections s (by simp [hlast, hs])
      · rw [List.mem_singleton.mp hs]
        refine ⟨hok.peer, ?_⟩
        rw [List.filter_append]
        simpa using hok.settings
    · simp [Layout.lines, hlast, Section.lines]

/-- The blank line a written peer leaves before the first section. -/
def addedBlank (key : Text) (sections : List Section) : List Text :=
  if sections = [] then [[]] else leadingBlank key sections

theorem addedBlank_blank (key : Text) (sections : List Section) :
    ∀ line ∈ addedBlank key sections, line = [] := by
  unfold addedBlank
  split
  · simp
  · exact leadingBlank_blank key sections

/-- Where no section is of the key, only an empty file gets a blank line. -/
theorem addedBlank_of_any_false {key : Text} {sections : List Section}
    (h : ¬sections.any (fun s => s.peer.key = key) = true) :
    addedBlank key sections = if sections = [] then [[]] else [] := by
  unfold addedBlank leadingBlank
  cases sections with
  | nil => rfl
  | cons s sections =>
      have hs : s.peer.key ≠ key := by
        intro hkey
        exact h (by simp [hkey])
      simp [hs]

theorem persist_layout {l : Layout} (h : l.Ok) {p : Peer} (hp : p.Ok) : ∃ l' : Layout, l'.Ok ∧
    persistPeer p.key p.ip p.psk (some l.text) = some l'.text ∧
    l'.interface = l.interface ++ addedBlank p.key l.sections ∧
    l'.sections.map Section.peer =
      if l.sections.any (fun s => s.peer.key = p.key) then written p (l.sections.map Section.peer)
      else l.sections.map Section.peer ++ [p] := by
  obtain ⟨hlines, hreplaced⟩ :=
    Scan.scan_layout p.key (peerBlock p.key p.ip p.psk) h
  have hsplit : splitlines (readText l.text) = l.lines.map (· ++ ['\n']) := by
    rw [h.readText]
    exact splitlines_render h.breaks
  have hwritten : ∀ s : Section,
      (if s.peer.key = p.key then peerBlock p.key p.ip p.psk
        else s.lines.map (· ++ ['\n'])).flatten =
      render (if s.peer.key = p.key then [] :: (writtenSection p).lines else s.lines) := by
    intro s
    split
    · exact peerBlock_flatten p
    · exact render_eq_flatten.symm
  have htext : (l.interface.map (· ++ ['\n']) ++ l.sections.flatMap (fun s =>
        if s.peer.key = p.key then peerBlock p.key p.ip p.psk
        else s.lines.map (· ++ ['\n']))).flatten =
      render (l.interface ++ l.sections.flatMap fun s =>
        if s.peer.key = p.key then [] :: (writtenSection p).lines else s.lines) := by
    rw [List.flatten_append, flatten_sections hwritten, render_append, ← render_eq_flatten]
  unfold persistPeer
  dsimp only
  rw [hsplit, hreplaced, hlines]
  by_cases hany : l.sections.any (fun s => s.peer.key = p.key) = true
  · obtain ⟨sections', heq, hok', hpeers⟩ := regroup hp l.sections h.sections
    have hadded : addedBlank p.key l.sections = leadingBlank p.key l.sections := by
      refine if_neg fun hnil => ?_
      simp [hnil] at hany
    rw [← hadded] at heq
    obtain ⟨hinterface, -⟩ := interface_blank h.interface (addedBlank_blank p.key _)
    refine ⟨⟨l.interface ++ addedBlank p.key l.sections, sections'⟩, ⟨hinterface, hok'⟩, ?_, rfl,
      ?_⟩
    · rw [if_pos hany, htext, heq]
      simp [Layout.text, Layout.lines]
    · rw [if_pos hany]
      exact hpeers
  · -- no section of this key: a new one ends the file
    have hnone : ∀ s ∈ l.sections, s.peer.key ≠ p.key := by simpa using hany
    have hrest : l.sections.flatMap (fun s =>
        if s.peer.key = p.key then [] :: (writtenSection p).lines else s.lines) =
          l.sections.flatMap Section.lines :=
      List.flatMap_congr fun s hs => if_neg (hnone s hs)
    obtain ⟨l', hok', hlines', hpeers, hsame⟩ := layout_blank h
    rw [← addedBlank_of_any_false hany] at hsame
    refine ⟨⟨l'.interface, l'.sections ++ [writtenSection p]⟩,
      ⟨hok'.interface, fun s hs => ?_⟩, ?_, hsame, ?_⟩
    · rcases List.mem_append.mp hs with hs | hs
      · exact hok'.sections s hs
      · rw [List.mem_singleton.mp hs]
        exact written_ok hp
    · have hnew : Layout.text ⟨l'.interface, l'.sections ++ [writtenSection p]⟩ =
          render (l'.lines ++ (writtenSection p).lines) := by
        simp [Layout.text, Layout.lines]
      rw [if_neg hany, List.flatten_append, htext, hrest, peerBlock_flatten, ← render_append, hnew,
        hlines']
      simp [Layout.lines]
    · rw [if_neg hany, List.map_append, hpeers]
      rfl

theorem persist_missing {p : Peer} (hp : p.Ok) : ∃ l : Layout, l.Ok ∧
    persistPeer p.key p.ip p.psk none = some l.text ∧ l.interface.filter ('=' ∈ ·) = [] ∧
    l.sections.map Section.peer = [p] := by
  refine ⟨⟨[[]], [writtenSection p]⟩, ⟨?_, ?_⟩, ?_, by simp, rfl⟩
  · intro line hline
    rw [List.mem_singleton.mp hline]
    exact ⟨by decide, unmarked_of_notMem (by simp)⟩
  · simpa using written_ok hp
  · unfold persistPeer
    rw [peerBlock_flatten]
    simp [Layout.text, Layout.lines]

/-! ## Removing a peer -/

theorem unpersist_layout {l : Layout} (h : l.Ok) (pubkey : Text) : ∃ l' : Layout, l'.Ok ∧
    unpersistPeer pubkey (some l.text) = some l'.text ∧ l'.interface = l.interface ∧
    l'.sections = l.sections.filter fun s => s.peer.key ≠ pubkey := by
  obtain ⟨hlines, -⟩ := Scan.scan_layout pubkey [] h
  obtain ⟨replaced, hfold⟩ := Scan.foldl_unpersist pubkey
    (l.lines.map (· ++ ['\n'])) (s := {}) false fun _ => rfl
  have hread : readlines (readText l.text) = l.lines.map (· ++ ['\n']) := by
    rw [h.readText]
    exact readlines_render h.breaks
  rw [show ({ ({} : Scan) with replaced := false } : Scan) = {} from rfl] at hfold
  refine ⟨⟨l.interface, l.sections.filter fun s => s.peer.key ≠ pubkey⟩,
    ⟨h.interface, fun s hs => h.sections s (List.mem_filter.mp hs).1⟩, ?_, rfl, rfl⟩
  have hkept : ∀ sections : List Section,
      (sections.flatMap fun s => if s.peer.key = pubkey then []
        else s.lines.map (· ++ ['\n'])).flatten =
      render ((sections.filter fun s => s.peer.key ≠ pubkey).flatMap Section.lines) := by
    intro sections
    induction sections with
    | nil => rfl
    | cons s sections ih =>
        by_cases hkey : s.peer.key = pubkey
        · simpa [hkey] using ih
        · simp only [ne_eq, decide_not] at ih
          simp [hkey, ih, ← render_eq_flatten]
  unfold unpersistPeer
  dsimp only
  rw [hread]
  rw [hfold] at hlines
  generalize (l.lines.map (· ++ ['\n'])).foldl (Scan.unpersistLine pubkey) {} = scanned at hlines
  have hlast : (if scanned.peerBuffer ≠ [] ∧ scanned.peerPubkey ≠ some pubkey then
      scanned.newLines ++ scanned.peerBuffer else scanned.newLines) =
      (Scan.flushPeerBuffer pubkey [] { scanned with replaced := replaced }).newLines := by
    unfold Scan.flushPeerBuffer
    by_cases hbuffer : scanned.peerBuffer = []
    · rw [if_neg (by simp [hbuffer]), if_pos hbuffer]
    · by_cases hkey : scanned.peerPubkey = some pubkey
      · rw [if_neg (by simp [hkey]), if_neg hbuffer, if_pos hkey, List.append_nil]
      · rw [if_pos ⟨hbuffer, hkey⟩, if_neg hbuffer, if_neg hkey]
  rw [hlast, hlines, List.flatten_append, hkept, ← render_eq_flatten, ← render_append]
  rfl

/-! ## Writing the interface -/

/-- The texts of the request can stand in lines. -/
structure ValidInterface (cfg : InterfaceConfig) : Prop where
  fields : ∀ value ∈ [cfg.privateKey, cfg.address, cfg.h1, cfg.h2, cfg.h3, cfg.h4, cfg.i1, cfg.i2,
    cfg.i3, cfg.i4, cfg.i5, cfg.postUp, cfg.postDown], Plain value

def interfaceLines (cfg : InterfaceConfig) : List Text :=
  "[Interface]".toList :: (cfg.fixed ++ cfg.optional).map fun (key, value) => setting key value

theorem buildInterfaceBlock_eq (cfg : InterfaceConfig) :
    buildInterfaceBlock cfg = render (interfaceLines cfg) := by
  have hlines : ∀ settings : List (String × Text),
      (settings.flatMap fun (key, value) => setting key value ++ ['\n']) =
        render (settings.map fun (key, value) => setting key value) := by
    intro settings
    induction settings with
    | nil => rfl
    | cons x settings ih => simp [ih]
  unfold buildInterfaceBlock interfaceLines
  rw [hlines, render_cons]
  rfl

/-- The names of the settings have neither line breaks nor brackets. -/
theorem interface_names {cfg : InterfaceConfig} {x : String × Text}
    (hx : x ∈ cfg.fixed ++ cfg.optional) : NoBreaks x.1.toList ∧ '[' ∉ x.1.toList := by
  have hall : ∀ name ∈ ["PrivateKey", "Address", "ListenPort", "Jc", "Jmin", "Jmax", "S1", "S2",
      "S3", "S4", "H1", "H2", "H3", "H4", "I1", "I2", "I3", "I4", "I5", "PostUp", "PostDown"],
      NoBreaks name.toList ∧ '[' ∉ name.toList := by decide
  refine hall x.1 ?_
  rcases List.mem_append.mp hx with hx | hx
  · have hname : x.1 ∈ cfg.fixed.map Prod.fst := List.mem_map_of_mem hx
    rw [show cfg.fixed.map Prod.fst = ["PrivateKey", "Address", "ListenPort", "Jc", "Jmin", "Jmax",
      "S1", "S2", "S3", "S4", "H1", "H2", "H3", "H4"] from rfl] at hname
    exact List.mem_append.mpr (.inl hname)
  · have hname : x.1 ∈ [("I1", cfg.i1), ("I2", cfg.i2), ("I3", cfg.i3), ("I4", cfg.i4),
        ("I5", cfg.i5), ("PostUp", cfg.postUp), ("PostDown", cfg.postDown)].map Prod.fst :=
      List.mem_map_of_mem (List.mem_filter.mp hx).1
    exact List.mem_append_right ["PrivateKey", "Address", "ListenPort", "Jc", "Jmin", "Jmax",
      "S1", "S2", "S3", "S4", "H1", "H2", "H3", "H4"] hname

theorem interface_values {cfg : InterfaceConfig} (h : ValidInterface cfg) {x : String × Text}
    (hx : x ∈ cfg.fixed ++ cfg.optional) : NoBreaks x.2 ∧ ¬header <:+: x.2 := by
  have hfields : ∀ value ∈ [cfg.privateKey, cfg.address, cfg.h1, cfg.h2, cfg.h3, cfg.h4, cfg.i1,
      cfg.i2, cfg.i3, cfg.i4, cfg.i5, cfg.postUp, cfg.postDown],
      NoBreaks value ∧ ¬header <:+: value :=
    fun value hvalue => ⟨(h.fields value hvalue).breaks, (h.fields value hvalue).unmarked⟩
  simp only [List.mem_cons, List.not_mem_nil, or_false, forall_eq_or_imp, forall_eq] at hfields
  obtain ⟨hkey, haddress, hh1, hh2, hh3, hh4, hi1, hi2, hi3, hi4, hi5, hup, hdown⟩ := hfields
  rcases List.mem_append.mp hx with hx | hx
  · simp only [InterfaceConfig.fixed, List.mem_cons, List.not_mem_nil, or_false] at hx
    rcases hx with rfl | rfl | rfl | rfl | rfl | rfl | rfl | rfl | rfl | rfl | rfl | rfl | rfl | rfl
    all_goals first
      | exact decimal_ok _
      | assumption
  · have hx := (List.mem_filter.mp hx).1
    simp only [List.mem_cons, List.not_mem_nil, or_false] at hx
    rcases hx with rfl | rfl | rfl | rfl | rfl | rfl | rfl <;> assumption

theorem interfaceLines_ok {cfg : InterfaceConfig} (h : ValidInterface cfg) :
    ∀ line ∈ interfaceLines cfg, NoBreaks line ∧ ¬header <:+: line := by
  intro line hline
  rcases List.mem_cons.mp hline with rfl | hline
  · exact ⟨by decide, by decide⟩
  · obtain ⟨x, hx, rfl⟩ := List.mem_map.mp hline
    obtain ⟨hname, hbracket⟩ := interface_names hx
    obtain ⟨hbreaks, hunmarked⟩ := interface_values h hx
    exact ⟨noBreaks_setting hname hbreaks, unmarked_setting hbracket hunmarked⟩

/-- The sections of a file with a layout come back after the new interface, with
one blank line before them. -/
theorem split_layout {l : Layout} (h : l.Ok) : (splitConfigSections l.text).2 =
    render ((if l.sections = [] then [] else [[]]) ++ l.sections.flatMap Section.lines) := by
  have hmarks : ∀ line ∈ l.interface, ¬header <:+: line := fun line hline =>
    (h.interface line hline).2
  unfold splitConfigSections Layout.text Layout.lines
  cases hsections : l.sections with
  | nil =>
      have hpart := partition_render (t := []) (by simp) (by decide) hmarks
      rw [List.append_nil, show partition header [] = none from rfl] at hpart
      rw [List.flatMap_nil, List.append_nil, hpart]
      rfl
  | cons s sections =>
      have hpart := partition_render
        (t := header ++ '\n' :: render (s.rest ++ sections.flatMap Section.lines)) (by simp)
        (by decide) hmarks
      rw [partition_self (by simp)] at hpart
      have htext : render (l.interface ++ (s :: sections).flatMap Section.lines) =
          render l.interface ++
            (header ++ '\n' :: render (s.rest ++ sections.flatMap Section.lines)) := by
        simp [Section.lines]
      rw [htext, hpart]
      rfl

theorem splitBlank_blank (sections : List Section) :
    ∀ line ∈ if sections = [] then ([] : List Text) else [[]], line = [] := by
  split
  · simp
  · simp

theorem configure_layout {l : Layout} (h : l.Ok) {cfg : InterfaceConfig}
    (hcfg : ValidInterface cfg) : ∃ l' : Layout, l'.Ok ∧
    configureInterface cfg (some l.text) = some l'.text ∧ l'.sections = l.sections := by
  have htail := split_layout h
  obtain ⟨hinterface, -⟩ := interface_blank (interfaceLines_ok hcfg) (splitBlank_blank l.sections)
  generalize (if l.sections = [] then ([] : List Text) else [[]]) = blank at htail hinterface
  have hdesired : buildInterfaceBlock cfg ++ (splitConfigSections l.text).2 =
      Layout.text ⟨interfaceLines cfg ++ blank, l.sections⟩ := by
    rw [buildInterfaceBlock_eq, htail, ← render_append, ← List.append_assoc]
    rfl
  have hwritten : configureInterface cfg (some l.text) =
      some (Layout.text ⟨interfaceLines cfg ++ blank, l.sections⟩) := by
    unfold configureInterface
    rw [show (Option.map readText (some l.text)).getD [] = l.text from h.readText]
    dsimp only
    rw [hdesired]
    split
    · next hsame => rw [← hsame]
    · rfl
  exact ⟨⟨interfaceLines cfg ++ blank, l.sections⟩, ⟨hinterface, h.sections⟩, hwritten, rfl⟩

theorem configure_missing {cfg : InterfaceConfig} (hcfg : ValidInterface cfg) : ∃ l : Layout, l.Ok ∧
    configureInterface cfg none = some l.text ∧ l.sections = [] := by
  refine ⟨⟨interfaceLines cfg, []⟩, ⟨interfaceLines_ok hcfg, by simp⟩, ?_, rfl⟩
  unfold configureInterface
  rw [buildInterfaceBlock_eq]
  simp [Layout.text, Layout.lines, interfaceLines]

/-! ## Runs -/

/-- The texts of a request can stand in lines, and `awg` takes no empty key. -/
def Acceptable (call : Call) : Prop :=
  match call.request with
  | .putInterface cfg => ValidInterface cfg
  | .putPeer publicKey allowedIp pskKey =>
      Plain publicKey ∧ Plain allowedIp ∧ Plain (pskKey.getD []) ∧
        (call.awgOk = true → publicKey ≠ [])
  | .deletePeer _ => True

theorem laid_persist {file : ConfigFile} (h : Laid file) {p : Peer} (hp : p.Ok) :
    Laid (persistPeer p.key p.ip p.psk file) := by
  rcases h with rfl | ⟨l, hl, rfl⟩
  · obtain ⟨l', hl', heq, -⟩ := persist_missing hp
    exact .inr ⟨l', hl', heq⟩
  · obtain ⟨l', hl', heq, -⟩ := persist_layout hl hp
    exact .inr ⟨l', hl', heq⟩

theorem laid_configure {file : ConfigFile} (h : Laid file) {cfg : InterfaceConfig}
    (hcfg : ValidInterface cfg) : Laid (configureInterface cfg file) := by
  rcases h with rfl | ⟨l, hl, rfl⟩
  · obtain ⟨l', hl', heq, -⟩ := configure_missing hcfg
    exact .inr ⟨l', hl', heq⟩
  · obtain ⟨l', hl', heq, -⟩ := configure_layout hl hcfg
    exact .inr ⟨l', hl', heq⟩

theorem laid_unpersist {file : ConfigFile} (h : Laid file) (pubkey : Text) :
    Laid (unpersistPeer pubkey file) := by
  rcases h with rfl | ⟨l, hl, rfl⟩
  · exact .inl rfl
  · obtain ⟨l', hl', heq, -⟩ := unpersist_layout hl pubkey
    exact .inr ⟨l', hl', heq⟩

theorem laid_serve {file : ConfigFile} {call : Call} (h : Laid file) (hcall : Acceptable call) :
    Laid (call.serve file) := by
  unfold Acceptable at hcall
  unfold Call.serve
  cases hrequest : call.request with
  | putInterface cfg =>
      rw [hrequest] at hcall
      exact laid_configure h hcall
  | putPeer publicKey allowedIp pskKey =>
      rw [hrequest] at hcall
      obtain ⟨hkey, hip, hpsk, hnamed⟩ := hcall
      dsimp only
      split
      · next hok => exact laid_persist (p := ⟨_, _, _⟩) h ⟨hkey, hpsk, hip, hnamed hok⟩
      · exact h
  | deletePeer pubStd =>
      dsimp only
      split
      · exact laid_unpersist h pubStd
      · exact h

theorem laid_run {file : ConfigFile} (h : agent.Reaches (fun _ call => Acceptable call) file) :
    Laid file := by
  refine h.invariant (.inl rfl) fun file call file' hlaid hcall hstep => ?_
  rw [← Option.some.inj hstep]
  exact laid_serve hlaid hcall

/-! ## The map -/

section Map

variable {k : Text}

/-- Writing a peer over the ones of its key is one update of the map. -/
theorem foldl_written (p : Peer) (peers : List Peer) : ∀ m : PeerMap,
    (written p peers).foldl Reader.put (Reader.put m p) =
      Reader.put (peers.foldl Reader.put m) p := by
  induction peers with
  | nil => exact fun _ => rfl
  | cons q peers ih =>
      intro m
      by_cases hkey : q.key = p.key
      · have hover : Reader.put (Reader.put m p) p = Reader.put (Reader.put m q) p := by
          simp [Reader.put, hkey, Function.update_idem]
        have hcons : written p (q :: peers) = p :: written p peers := by simp [written, hkey]
        rw [hcons, List.foldl_cons, List.foldl_cons, hover]
        exact ih _
      · have hswap : Reader.put (Reader.put m p) q = Reader.put (Reader.put m q) p :=
          Function.update_comm (Ne.symm hkey) _ _ _
        have hcons : written p (q :: peers) = q :: written p peers := by simp [written, hkey]
        rw [hcons, List.foldl_cons, List.foldl_cons, hswap]
        exact ih _

/-- One that was there before does not matter. -/
theorem foldl_written_of_any (p : Peer) (peers : List Peer) : ∀ m : PeerMap,
    (∃ q ∈ peers, q.key = p.key) →
    (written p peers).foldl Reader.put m = (written p peers).foldl Reader.put (Reader.put m p) := by
  induction peers with
  | nil =>
      rintro m ⟨q, hq, -⟩
      cases hq
  | cons q peers ih =>
      rintro m ⟨x, hx, hxkey⟩
      by_cases hkey : q.key = p.key
      · have hcons : written p (q :: peers) = p :: written p peers := by simp [written, hkey]
        rw [hcons, List.foldl_cons, List.foldl_cons]
        simp [Reader.put, Function.update_idem]
      · have hx : x ∈ peers := by
          rcases List.mem_cons.mp hx with rfl | hx
          · exact absurd hxkey hkey
          · exact hx
        have hswap : Reader.put (Reader.put m p) q = Reader.put (Reader.put m q) p :=
          Function.update_comm (Ne.symm hkey) _ _ _
        have hcons : written p (q :: peers) = q :: written p peers := by simp [written, hkey]
        rw [hcons, List.foldl_cons, List.foldl_cons, hswap]
        exact ih _ ⟨x, hx, hxkey⟩

theorem foldl_removed (peers : List Peer) : ∀ m : PeerMap,
    (peers.filter fun q => q.key ≠ k).foldl Reader.put (Function.update m k none) =
      Function.update (peers.foldl Reader.put m) k none := by
  induction peers with
  | nil => exact fun _ => rfl
  | cons q peers ih =>
      intro m
      by_cases hkey : q.key = k
      · have hover : Function.update m k none = Function.update (Reader.put m q) k none := by
          simp [Reader.put, hkey, Function.update_idem]
        rw [List.filter_cons_of_neg (by simpa using hkey), hover]
        exact ih _
      · have hswap : Reader.put (Function.update m k none) q =
            Function.update (Reader.put m q) k none :=
          Function.update_comm (Ne.symm hkey) _ _ _
        rw [List.filter_cons_of_pos (by simpa using hkey), List.foldl_cons, hswap]
        exact ih _

end Map

theorem persist_updates {file : ConfigFile} (h : Laid file) {p : Peer} (hp : p.Ok) :
    configuredPeers (persistPeer p.key p.ip p.psk file) =
        Function.update (configuredPeers file) p.key (some p.entry) ∧
      interfaceAssignments (persistPeer p.key p.ip p.psk file) = interfaceAssignments file := by
  rcases h with rfl | ⟨l, hl, rfl⟩
  · obtain ⟨l', hl', heq, hsame, hpeers⟩ := persist_missing hp
    rw [heq, configuredPeers_layout hl', interfaceAssignments_layout hl', hpeers]
    exact ⟨rfl, hsame⟩
  · obtain ⟨l', hl', heq, hinterface, hpeers⟩ := persist_layout hl hp
    rw [heq, configuredPeers_layout hl', configuredPeers_layout hl,
      interfaceAssignments_layout hl', interfaceAssignments_layout hl, hpeers, hinterface]
    refine ⟨?_, (interface_blank hl.interface (addedBlank_blank _ _)).2⟩
    split
    · next hany =>
      obtain ⟨s, hs, hkey⟩ := List.any_eq_true.mp hany
      rw [foldl_written_of_any p _ _ ⟨s.peer, List.mem_map_of_mem hs, by simpa using hkey⟩]
      exact foldl_written p _ _
    · rw [List.foldl_append]
      rfl

theorem unpersist_erases {file : ConfigFile} (h : Laid file) (k : Text) :
    configuredPeers (unpersistPeer k file) = Function.update (configuredPeers file) k none ∧
      interfaceAssignments (unpersistPeer k file) = interfaceAssignments file := by
  have hempty : Function.update (fun _ => none : PeerMap) k none = fun _ => none :=
    Function.update_eq_self k _
  rcases h with rfl | ⟨l, hl, rfl⟩
  · exact ⟨hempty.symm, rfl⟩
  · obtain ⟨l', hl', heq, hinterface, hsections⟩ := unpersist_layout hl k
    rw [heq, configuredPeers_layout hl', configuredPeers_layout hl,
      interfaceAssignments_layout hl', interfaceAssignments_layout hl, hinterface, hsections]
    refine ⟨?_, rfl⟩
    have hmap : (l.sections.filter fun s => s.peer.key ≠ k).map Section.peer =
        (l.sections.map Section.peer).filter fun q => q.key ≠ k := by
      rw [List.filter_map]
      rfl
    rw [hmap, ← foldl_removed, hempty]

theorem configure_keeps {file : ConfigFile} (h : Laid file) {cfg : InterfaceConfig}
    (hcfg : ValidInterface cfg) :
    configuredPeers (configureInterface cfg file) = configuredPeers file := by
  rcases h with rfl | ⟨l, hl, rfl⟩
  · obtain ⟨l', hl', heq, hnone⟩ := configure_missing hcfg
    rw [heq, configuredPeers_layout hl', hnone]
    rfl
  · obtain ⟨l', hl', heq, hsame⟩ := configure_layout hl hcfg
    rw [heq, configuredPeers_layout hl', configuredPeers_layout hl, hsame]

/-- An address without a comma is read back as it is. -/
theorem addresses_single {ip : Text} (hip : Plain ip) (hcomma : ',' ∉ ip) :
    Reader.addresses (ip ++ "/32".toList) = [ip ++ "/32".toList] := by
  have hsplit : (ip ++ "/32".toList).splitOn ',' = [ip ++ "/32".toList] := by
    refine List.splitOnP_eq_singleton fun c hc => ?_
    rcases List.mem_append.mp hc with hc | hc
    · exact beq_eq_false_iff_ne.mpr fun heq => hcomma (heq ▸ hc)
    · have hall : "/32".toList.any (· == ',') = false := by decide
      simpa using List.any_eq_false.mp hall c hc
  unfold Reader.addresses
  rw [hsplit, List.map_singleton, hip.address]
  simp

/-- **The config file is a map from public keys.** Of every file that requests
made from nothing, `_configured_peers` reads a map in which a written peer
replaces the entry of its key and no other, a removed one is erased, and a new
interface changes nothing; and writing or removing a peer leaves the assignments
of the interface alone. -/
theorem config_file_is_map {file : ConfigFile}
    (h : agent.Reaches (fun _ call => Acceptable call) file) :
    (∀ k ip psk, Plain k → k ≠ [] → Plain ip → Plain psk →
      configuredPeers (persistPeer k ip psk file) = Function.update (configuredPeers file) k
        (some ⟨psk, Reader.addresses (ip ++ "/32".toList)⟩) ∧
      (',' ∉ ip → Reader.addresses (ip ++ "/32".toList) = [ip ++ "/32".toList]) ∧
      interfaceAssignments (persistPeer k ip psk file) = interfaceAssignments file) ∧
    (∀ k, configuredPeers (unpersistPeer k file) = Function.update (configuredPeers file) k none ∧
      interfaceAssignments (unpersistPeer k file) = interfaceAssignments file) ∧
    ∀ cfg, ValidInterface cfg →
      configuredPeers (configureInterface cfg file) = configuredPeers file := by
  have hlaid := laid_run h
  refine ⟨fun k ip psk hk hne hip hpsk => ?_, unpersist_erases hlaid,
    fun cfg hcfg => configure_keeps hlaid hcfg⟩
  obtain ⟨hmap, hassign⟩ := persist_updates hlaid (p := ⟨k, psk, ip⟩) ⟨hk, hpsk, hip, hne⟩
  exact ⟨hmap, addresses_single hip, hassign⟩

theorem persistPeer_ne_none (k ip psk : Text) (file : ConfigFile) :
    persistPeer k ip psk file ≠ none := by
  cases file with
  | none => simp [persistPeer]
  | some text => simp [persistPeer]

/-- An interface and one peer are there when a second peer is written. -/
theorem config_file_is_map_second_peer : ∃ file,
    agent.Reaches (fun _ call => Acceptable call) file ∧ file ≠ none ∧
      configuredPeers (persistPeer "B=".toList "10.8.0.3".toList [] file) =
        Function.update (configuredPeers file) "B=".toList
          (some ⟨[], ["10.8.0.3/32".toList]⟩) := by
  let interface : Call := ⟨.putInterface { privateKey := "a2V5".toList }, true⟩
  let first : Call :=
    ⟨.putPeer "A=".toList "10.8.0.2".toList (some "cHNr".toList), true⟩
  have hinterface : Acceptable interface := by
    refine ⟨fun value hvalue => ?_⟩
    have hall : ∀ value ∈ ["a2V5".toList, "10.8.0.1/24".toList, "1".toList, "2".toList,
        "3".toList, "4".toList, [], [], [], [], [], [], []],
        NoBreaks value ∧ strip value = value ∧ ¬header <:+: value := by decide
    obtain ⟨hbreaks, htrimmed, hunmarked⟩ := hall value hvalue
    exact ⟨hbreaks, htrimmed, hunmarked⟩
  have hfirst : Acceptable first :=
    ⟨⟨by decide, by decide, by decide⟩, ⟨by decide, by decide, by decide⟩,
      ⟨by decide, by decide, by decide⟩, fun _ => by decide⟩
  have hreach : agent.Reaches (fun _ call => Acceptable call)
      (first.serve (interface.serve none)) :=
    .step (.step .init hinterface rfl) hfirst rfl
  have hserved : first.serve (interface.serve none) =
      persistPeer "A=".toList "10.8.0.2".toList "cHNr".toList (interface.serve none) := rfl
  refine ⟨_, hreach, hserved ▸ persistPeer_ne_none _ _ _ _, ?_⟩
  obtain ⟨hmap, hsingle, -⟩ := (config_file_is_map hreach).1 "B=".toList "10.8.0.3".toList []
    ⟨by decide, by decide, by decide⟩ (by decide) ⟨by decide, by decide, by decide⟩
    ⟨by decide, by decide, by decide⟩
  rw [hmap, hsingle (by decide)]
  rfl

end VpnPanel.Theorems
