import VpnPanel.Lib.Integer
import VpnPanel.Lib.Labelled
import VpnPanel.Lib.Lowering
import VpnPanel.Node.Config

/-!
# The output of `awg show`

What `agent.py` makes of the two outputs of the `awg` command: `parse_awg_show`
of the labelled one, for `GET /status`, and the columns of `awg show … dump`,
for `GET /dump`. Nothing is the result where a request ends in an error. The
outputs themselves, in the form `awg` prints them, are `Shown` and `DumpRow`.
-/

namespace VpnPanel.Node

open VpnPanel.Lib VpnPanel.Lib.Text

/-! ## Labelled output -/

/-- A value of the dictionaries. -/
inductive ShowValue
  | null
  | text (t : Text)
  | int (n : Int)
  | texts (ts : List Text)
  deriving DecidableEq, Repr

abbrev ShowDict := Text → Option ShowValue

def ShowDict.set (dict : ShowDict) (key : Text) (value : ShowValue) : ShowDict :=
  Function.update dict key (some value)

structure TransferData where
  received : Text
  sent : Text
  deriving DecidableEq, Repr

/-- The matches of `(.+?)` before `sep`, the shortest first: the match and the
text after `sep`. -/
def lazySplits (sep t : Text) : List (Text × Text) :=
  (List.range t.length).filterMap fun i =>
    if sep.isPrefixOf (t.drop (i + 1)) then some (t.take (i + 1), t.drop (i + 1 + sep.length))
    else none

/-- `_parse_transfer`: the first match of `(.+?) received,\s*(.+?) sent`, where
`\s*` takes as many blanks as it can. -/
def parseTransfer (value : Text) : Option TransferData :=
  (lazySplits " received,".toList value).findSome? fun (received, rest) =>
    let blanks := (rest.takeWhile isSpace).length
    ((List.range (blanks + 1)).reverse.findSome? fun skipped =>
      (lazySplits " sent".toList (rest.drop skipped)).head?).map fun (sent, _) =>
        ⟨received, sent⟩

section Parser

variable (L : Lowering) (D : Digits)

/-- `key.strip().lower().replace(' ', '_')` -/
def fieldKey (label : Text) : Text :=
  (L.lower (strip label)).map fun c => if c = ' ' then '_' else c

/-- `_INTERFACE_PARSERS`: these keys are read as numbers. -/
def interfaceIntKeys : List Text :=
  ["listening_port", "jc", "jmin", "jmax", "s1", "s2", "s3", "s4"].map String.toList

def interfaceValue (key value : Text) : Option ShowValue :=
  if interfaceIntKeys.contains key then (D.int? value).map .int else some (.text value)

/-- A new `current_peer`. -/
def freshPeer (publicKey : Text) : ShowDict := fun key =>
  [("public_key".toList, ShowValue.text publicKey), ("allowed_ips".toList, .texts []),
    ("endpoint".toList, .null), ("latest_handshake".toList, .null),
    ("transfer_rx".toList, .null), ("transfer_tx".toList, .null)].lookup key

/-- A line of the interface. -/
def setInterface (dict : ShowDict) (label value : Text) : Option ShowDict :=
  (interfaceValue D (fieldKey L label) value).map (dict.set (fieldKey L label))

/-- A line of a peer. -/
def setPeer (dict : ShowDict) (label value : Text) : ShowDict :=
  let key := fieldKey L label
  if key = "transfer".toList then
    match parseTransfer value with
    | some transferData =>
        (dict.set "transfer_rx".toList (.text transferData.received)).set "transfer_tx".toList
          (.text transferData.sent)
    | none => dict
  else if key = "allowed_ips".toList then dict.set key (.texts (splitCommas value))
  else dict.set key (.text value)

/-- The variables of `parse_awg_show`. -/
structure ShowState where
  interface : ShowDict := fun _ => none
  peers : List ShowDict := []
  currentPeer : Option ShowDict := none

/-- One line; a second interface drops the peer before it. -/
def showLine (s : ShowState) (raw : Text) : Option ShowState :=
  let line := strip raw
  if line = [] then some s
  else if "interface:".toList.isPrefixOf line then some { s with currentPeer := none }
  else if "peer:".toList.isPrefixOf line then
    some { s with
      peers := s.peers ++ s.currentPeer.toList
      currentPeer := some (freshPeer (strip (line.drop "peer:".length))) }
  else match partition [':'] line with
    | none => some s
    | some (label, value) =>
        match s.currentPeer with
        | none =>
            (setInterface L D s.interface label (strip value)).map fun interface =>
              { s with interface }
        | some peer => some { s with currentPeer := some (setPeer L peer label (strip value)) }

/-- What `parse_awg_show` returns. -/
structure ShowResult where
  interface : ShowDict
  peers : List ShowDict

def ShowState.result (s : ShowState) : ShowResult := ⟨s.interface, s.peers ++ s.currentPeer.toList⟩

def parseAwgShow (output : Text) : Option ShowResult :=
  ((lines output).foldlM (showLine L D) {}).map ShowState.result

/-- The text under a key. -/
def ShowDict.textOf (dict : ShowDict) (key : String) : Text :=
  match dict key.toList with
  | some (.text t) => t
  | _ => []

/-- `GET /status`: a peer of the config file gets its PSK. -/
def withConfiguredPsk (file : ConfigFile) (peer : ShowDict) : ShowDict :=
  match configuredPeers file (peer.textOf "public_key") with
  | none => peer
  | some configured => peer.set "psk_key".toList (.text configured.pskKey)

def status (file : ConfigFile) (output : Text) : Option ShowResult :=
  (parseAwgShow L D output).map fun result =>
    { result with peers := result.peers.map (withConfiguredPsk file) }

end Parser

/-! ## Dump -/

structure DumpedPeer where
  publicKey : Text
  endpoint : Option Text
  lastHandshake : Int
  rxBytes : Int
  txBytes : Int
  deriving DecidableEq, Repr

/-- A row with fewer columns is skipped, one with more does not unpack. -/
def dumpLine (D : Digits) (line : Text) : Option (Option DumpedPeer) :=
  match line.splitOn '\t' with
  | [pubkey, _psk, endpoint, _allowedIps, lastHs, rx, tx, _keepalive] => do
      let lastHandshake ← D.int? lastHs
      let rxBytes ← D.int? rx
      let txBytes ← D.int? tx
      return some {
        publicKey := pubkey
        endpoint := if endpoint ≠ "(none)".toList then some endpoint else none
        lastHandshake, rxBytes, txBytes }
  | parts => if parts.length < 8 then some none else none

def dump (D : Digits) (output : Text) : Option (List DumpedPeer) :=
  (((lines output).drop 1).mapM (dumpLine D)).map (·.filterMap id)

/-! ## What `awg` prints -/

/-- A name or a key on a line of its own. -/
structure Titled (t : Text) : Prop where
  named : t ≠ []
  trimmed : strip t = t
  line : NoBreaks t

/-- A line that begins neither an interface nor a peer. -/
def Untitled (f : Labelled) : Prop := f.label ≠ "interface".toList ∧ f.label ≠ "peer".toList

structure ShownPeer where
  publicKey : Text
  fields : List Labelled
  titled : Titled publicKey
  untitled : ∀ f ∈ fields, Untitled f

structure Shown where
  name : Text
  settings : List Labelled
  peers : List ShownPeer
  titled : Titled name
  untitled : ∀ f ∈ settings, Untitled f

def ShownPeer.lines (p : ShownPeer) : List Text :=
  [] :: ("peer: ".toList ++ p.publicKey) :: p.fields.map Labelled.text

def Shown.text (s : Shown) : Text :=
  render (("interface: ".toList ++ s.name) :: s.settings.map Labelled.text ++
    s.peers.flatMap ShownPeer.lines)

/-- A row of the dump; the numbers have 64 bits. -/
structure DumpRow where
  publicKey : Text
  psk : Text
  endpoint : Option Text
  allowedIps : Text
  lastHandshake : Nat
  rxBytes : Nat
  txBytes : Nat
  keepalive : Text
  columns : ∀ t ∈ [publicKey, psk, endpoint.getD [], allowedIps, keepalive],
    NoBreaks t ∧ '\t' ∉ t
  observed : endpoint ≠ some "(none)".toList
  sized : ∀ n ∈ [lastHandshake, rxBytes, txBytes], n < UInt64.size

namespace DumpRow

def fields (row : DumpRow) : List Text :=
  [row.publicKey, row.psk, row.endpoint.getD "(none)".toList, row.allowedIps,
    decimal row.lastHandshake, decimal row.rxBytes, decimal row.txBytes, row.keepalive]

def text (row : DumpRow) : Text := ['\t'].intercalate row.fields

def peer (row : DumpRow) : DumpedPeer where
  publicKey := row.publicKey
  endpoint := row.endpoint
  lastHandshake := row.lastHandshake
  rxBytes := row.rxBytes
  txBytes := row.txBytes

end DumpRow

/-! ## Reading back -/

section ReadBack

variable {L : Lowering} {D : Digits}

/-- A titled line, and the title `strip` gives back. -/
theorem Titled.strip_line {t : Text} (h : Titled t) (mark : Text) {c : Char}
    (hc : isSpace c = false) : strip (c :: (mark ++ [' '] ++ t)) = c :: (mark ++ [' '] ++ t) ∧
      strip (' ' :: t) = t :=
  ⟨strip_eq_self hc h.trimmed h.named, (strip_cons (by decide)).trans h.trimmed⟩

theorem showLine_interface {name : Text} (h : Titled name) (s : ShowState) :
    showLine L D s ("interface: ".toList ++ name) = some { s with currentPeer := none } := by
  obtain ⟨hline, -⟩ := h.strip_line "nterface:".toList (c := 'i') (by decide)
  have htext : "interface: ".toList ++ name = 'i' :: ("nterface:".toList ++ [' '] ++ name) := rfl
  have hmark : "interface:".toList.isPrefixOf ('i' :: ("nterface:".toList ++ [' '] ++ name)) =
      true := List.isPrefixOf_iff_prefix.mpr ⟨' ' :: name, rfl⟩
  unfold showLine
  dsimp only
  rw [htext, hline, if_neg (List.cons_ne_nil _ _), if_pos hmark]

theorem showLine_peer {publicKey : Text} (h : Titled publicKey) (s : ShowState) :
    showLine L D s ("peer: ".toList ++ publicKey) = some { s with
      peers := s.peers ++ s.currentPeer.toList, currentPeer := some (freshPeer publicKey) } := by
  obtain ⟨hline, hkey⟩ := h.strip_line "eer:".toList (c := 'p') (by decide)
  have htext : "peer: ".toList ++ publicKey = 'p' :: ("eer:".toList ++ [' '] ++ publicKey) := rfl
  have hmark : "peer:".toList.isPrefixOf ('p' :: ("eer:".toList ++ [' '] ++ publicKey)) = true :=
    List.isPrefixOf_iff_prefix.mpr ⟨' ' :: publicKey, rfl⟩
  have hother : ¬"interface:".toList.isPrefixOf ('p' :: ("eer:".toList ++ [' '] ++ publicKey)) =
      true := by
    intro hprefix
    exact absurd (List.isPrefixOf_iff_prefix.mp hprefix) (by simp)
  have hdrop : ('p' :: ("eer:".toList ++ [' '] ++ publicKey)).drop "peer:".length =
      ' ' :: publicKey := rfl
  unfold showLine
  dsimp only
  rw [htext, hline, if_neg (List.cons_ne_nil _ _), if_neg hother, if_pos hmark, hdrop, hkey]

theorem showLine_blank (s : ShowState) : showLine L D s [] = some s := rfl

/-- A labelled line goes to the interface or to the current peer. -/
theorem showLine_field {f : Labelled} (h : Untitled f) (s : ShowState) :
    (s.currentPeer = none → showLine L D s f.text =
        (setInterface L D s.interface f.label f.value).map fun interface =>
          { s with interface }) ∧
      ∀ peer, s.currentPeer = some peer → showLine L D s f.text =
        some { s with currentPeer := some (setPeer L peer f.label f.value) } := by
  obtain ⟨rest, hpart, hvalue⟩ := f.partition_text
  have hinterface : ("interface:".toList.isPrefixOf (strip f.text)) = false :=
    f.not_prefix "interface".toList (by decide) h.1
  have hpeer : ("peer:".toList.isPrefixOf (strip f.text)) = false :=
    f.not_prefix "peer".toList (by decide) h.2
  unfold showLine
  dsimp only
  rw [if_neg f.strip_text_ne_nil, hinterface, hpeer, hpart]
  refine ⟨fun hnone => ?_, fun peer hsome => ?_⟩
  · simp only [Bool.false_eq_true, if_false, hnone, hvalue]
  · simp only [Bool.false_eq_true, if_false, hsome, hvalue]

theorem foldlM_settings {settings : List Labelled} : ∀ {s : ShowState}, s.currentPeer = none →
    (∀ f ∈ settings, Untitled f) →
    (settings.map Labelled.text).foldlM (showLine L D) s =
      (settings.foldlM (fun dict f => setInterface L D dict f.label f.value) s.interface).map
        fun interface => { s with interface } := by
  induction settings with
  | nil => exact fun _ _ => rfl
  | cons f rest ih =>
      intro s hnone huntitled
      have hline := (showLine_field (L := L) (D := D) (huntitled f List.mem_cons_self) s).1 hnone
      rw [List.map_cons, List.foldlM_cons, List.foldlM_cons, hline]
      cases hset : setInterface L D s.interface f.label f.value with
      | none => rfl
      | some interface =>
          exact ih (s := { s with interface }) hnone
            fun x hx => huntitled x (List.mem_cons_of_mem _ hx)

/-- The dictionary of a shown peer. -/
def ShownPeer.dict (L : Lowering) (p : ShownPeer) : ShowDict :=
  p.fields.foldl (fun dict f => setPeer L dict f.label f.value) (freshPeer p.publicKey)

theorem foldlM_fields {fields : List Labelled} : ∀ {s : ShowState} {peer : ShowDict},
    s.currentPeer = some peer → (∀ f ∈ fields, Untitled f) →
    (fields.map Labelled.text).foldlM (showLine L D) s = some { s with
      currentPeer := some (fields.foldl (fun dict f => setPeer L dict f.label f.value) peer) } := by
  induction fields with
  | nil =>
      intro s peer hsome _
      exact congrArg some (hsome ▸ rfl)
  | cons f rest ih =>
      intro s peer hsome huntitled
      have hline := (showLine_field (L := L) (D := D) (huntitled f List.mem_cons_self) s).2 _ hsome
      rw [List.map_cons, List.foldlM_cons, hline]
      exact ih (s := { s with currentPeer := some (setPeer L peer f.label f.value) }) rfl
        fun x hx => huntitled x (List.mem_cons_of_mem _ hx)

theorem foldlM_peers (peers : List ShownPeer) : ∀ s : ShowState, ∃ t : ShowState,
    (peers.flatMap ShownPeer.lines).foldlM (showLine L D) s = some t ∧
      t.result = ⟨s.interface, s.result.peers ++ peers.map (ShownPeer.dict L)⟩ := by
  induction peers with
  | nil => exact fun s => ⟨s, rfl, by rw [List.map_nil, List.append_nil]; rfl⟩
  | cons p rest ih =>
      intro s
      let next : ShowState := { s with
        peers := s.peers ++ s.currentPeer.toList, currentPeer := some (p.dict L) }
      have hpeer : p.lines.foldlM (showLine L D) s = some next := by
        unfold ShownPeer.lines
        rw [List.foldlM_cons, showLine_blank]
        show List.foldlM (showLine L D) s _ = _
        rw [List.foldlM_cons, showLine_peer p.titled]
        exact foldlM_fields rfl p.untitled
      obtain ⟨t, ht, hresult⟩ := ih next
      refine ⟨t, ?_, ?_⟩
      · rw [List.flatMap_cons, List.foldlM_append, hpeer]
        exact ht
      · rw [hresult, List.map_cons]
        exact congrArg (ShowResult.mk s.interface) (List.append_cons _ _ _).symm

theorem Shown.noBreaks_lines (s : Shown) : ∀ line ∈ ("interface: ".toList ++ s.name) ::
    s.settings.map Labelled.text ++ s.peers.flatMap ShownPeer.lines, NoBreaks line := by
  have htitle : ∀ {mark t : Text}, NoBreaks mark → Titled t → NoBreaks (mark ++ t) :=
    fun hmark ht => hmark.append ht.line
  intro line hline
  rcases List.mem_append.mp hline with hline | hline
  · rcases List.mem_cons.mp hline with rfl | hline
    · exact htitle (by decide) s.titled
    · obtain ⟨f, -, rfl⟩ := List.mem_map.mp hline
      exact f.noBreaks_text
  · obtain ⟨p, -, hline⟩ := List.mem_flatMap.mp hline
    rcases List.mem_cons.mp hline with rfl | hline
    · exact nofun
    · rcases List.mem_cons.mp hline with rfl | hline
      · exact htitle (by decide) p.titled
      · obtain ⟨f, -, rfl⟩ := List.mem_map.mp hline
        exact f.noBreaks_text

/-- **Read back.** The settings of the interface in their order, and every peer
with its lines. -/
theorem parseAwgShow_text (s : Shown) : parseAwgShow L D s.text =
    (s.settings.foldlM (fun dict f => setInterface L D dict f.label f.value) fun _ => none).map
      fun interface => ⟨interface, s.peers.map (ShownPeer.dict L)⟩ := by
  unfold parseAwgShow Shown.text
  rw [lines_render s.noBreaks_lines, List.cons_append, List.foldlM_cons,
    showLine_interface s.titled]
  show Option.map _ (List.foldlM (showLine L D) _ _) = _
  rw [List.foldlM_append, foldlM_settings rfl s.untitled]
  cases s.settings.foldlM (fun dict f => setInterface L D dict f.label f.value)
      (ShowState.interface {}) with
  | none => rfl
  | some interface =>
      obtain ⟨t, ht, hresult⟩ := foldlM_peers (L := L) (D := D) s.peers
        { interface := interface }
      show Option.map _ (List.foldlM (showLine L D) _ _) = _
      rw [ht, Option.map_some, hresult]
      rfl

end ReadBack

namespace DumpRow

variable {D : Digits} (row : DumpRow)

theorem decimal_column (n : Nat) : NoBreaks (decimal n) ∧ '\t' ∉ decimal n := by
  have hdigit : ∀ c ∈ decimal n, c.isDigit = true ∨ c = '-' := fun c hc => mem_decimal hc
  refine ⟨fun c hc => ?_, fun hc => absurd (hdigit '\t' hc) (by decide)⟩
  rcases hdigit c hc with h | rfl
  · have hspace := Digits.isSpace_of_isDigit h
    unfold isSpace at hspace
    simp only [Bool.or_eq_false_iff] at hspace
    exact hspace.1.1
  · decide

theorem fields_ok : ∀ t ∈ row.fields, NoBreaks t ∧ '\t' ∉ t := by
  have hcolumns := row.columns
  simp only [List.forall_mem_cons, List.not_mem_nil, false_implies, implies_true, and_true]
    at hcolumns
  obtain ⟨hkey, hpsk, hendpoint, hips, hkeepalive⟩ := hcolumns
  have hshown : NoBreaks (row.endpoint.getD "(none)".toList) ∧
      '\t' ∉ row.endpoint.getD "(none)".toList := by
    cases hrow : row.endpoint with
    | none => decide
    | some endpoint =>
        rw [hrow] at hendpoint
        exact hendpoint
  unfold fields
  simp only [List.forall_mem_cons, List.not_mem_nil, false_implies, implies_true, and_true]
  exact ⟨hkey, hpsk, hshown, hips, decimal_column _, decimal_column _, decimal_column _,
    hkeepalive⟩

theorem splitOn_text : row.text.splitOn '\t' = row.fields :=
  List.splitOn_intercalate '\t' (fun t ht => (row.fields_ok t ht).2) (List.cons_ne_nil _ _)

theorem noBreaks_text : NoBreaks row.text := by
  unfold text
  have hsep : NoBreaks ['\t'] := by decide
  have hall : ∀ l : List Text, (∀ t ∈ l, NoBreaks t) → NoBreaks (['\t'].intercalate l) := by
    intro l
    induction l with
    | nil => exact fun _ => nofun
    | cons t rest ih =>
        intro hl
        have hrest := ih fun x hx => hl x (List.mem_cons_of_mem _ hx)
        cases rest with
        | nil => simpa [List.intercalate] using hl t List.mem_cons_self
        | cons next rest =>
            have hcons : ['\t'].intercalate (t :: next :: rest) =
                t ++ (['\t'] ++ ['\t'].intercalate (next :: rest)) := by
              simp [List.intercalate]
            rw [hcons]
            exact (hl t List.mem_cons_self).append (hsep.append hrest)
  exact hall _ fun t ht => (row.fields_ok t ht).1

theorem dumpLine_text : dumpLine D row.text = some (some row.peer) := by
  have hnumber : ∀ n ∈ [row.lastHandshake, row.rxBytes, row.txBytes],
      D.int? (decimal (n : Int)) = some (n : Int) := by
    intro n hn
    have hsmall : n < 10 ^ 20 := (row.sized n hn).trans (by decide)
    have hlength : (Nat.toDigits 10 n).length ≤ 20 :=
      (Nat.length_toDigits_le_iff (by decide) (by decide)).mpr hsmall
    exact Digits.int?_decimal (hlength.trans (by decide))
  have hendpoint : (if row.endpoint.getD "(none)".toList ≠ "(none)".toList then
      some (row.endpoint.getD "(none)".toList) else none) = row.endpoint := by
    cases hrow : row.endpoint with
    | none => rfl
    | some endpoint =>
        exact if_pos fun heq => row.observed (hrow.trans (congrArg some heq))
  unfold dumpLine
  rw [splitOn_text]
  unfold fields
  dsimp only
  rw [hnumber _ (by simp), hnumber _ (by simp), hnumber _ (by simp)]
  show some (some (DumpedPeer.mk _ _ _ _ _)) = _
  rw [hendpoint]
  rfl

end DumpRow

/-- **Read back.** One peer for every row. -/
theorem dump_text {D : Digits} {head : Text} (hhead : NoBreaks head) (rows : List DumpRow) :
    dump D (render (head :: rows.map DumpRow.text)) = some (rows.map DumpRow.peer) := by
  have hbreaks : ∀ line ∈ head :: rows.map DumpRow.text, NoBreaks line := by
    intro line hline
    rcases List.mem_cons.mp hline with rfl | hline
    · exact hhead
    · obtain ⟨row, -, rfl⟩ := List.mem_map.mp hline
      exact row.noBreaks_text
  have hrows : (rows.map DumpRow.text).mapM (dumpLine D) =
      some (rows.map fun row => some row.peer) := by
    induction rows with
    | nil => rfl
    | cons row rest ih =>
        rw [List.map_cons, List.mapM_cons, row.dumpLine_text, ih fun line hline => ?_]
        · rfl
        · rcases List.mem_cons.mp hline with rfl | hline
          · exact hhead
          · exact hbreaks line (List.mem_cons_of_mem _ (List.mem_cons_of_mem _ hline))
  unfold dump
  rw [lines_render hbreaks, List.drop_one, List.tail_cons, hrows, Option.map_some]
  refine congrArg some ?_
  rw [List.filterMap_map]
  exact congrFun (List.filterMap_eq_map (f := DumpRow.peer)) rows

end VpnPanel.Node
