import VpnPanel.Node.Scanners

/-!
# Applying the interface

What `configure_interface` writes and applies live, and the path on which it does
neither. A text before the peers is out of the scanners' reach: a request that
edits a peer edits what follows it.
-/

namespace VpnPanel.Node

open VpnPanel.Lib VpnPanel.Lib.Text

/-! ## The live command -/

/-- `^key\s*=.*$` at the start of a line. -/
def keyAt (key text : Text) : Bool :=
  key.isPrefixOf text && ((text.drop key.length).dropWhile isSpace).head? = some '='

/-- The search of `keyAt` at every line start from here on. -/
def searchKey (key : Text) (lineStart : Bool) : Text → Bool
  | [] => false
  | c :: rest => lineStart && keyAt key (c :: rest) || searchKey key (c = '\n') rest

def interfaceHasKey (interfaceText key : Text) : Bool := searchKey key true interfaceText

/-- The settings that `awg set` always gets. -/
def InterfaceConfig.liveFixed (cfg : InterfaceConfig) : List (String × Text) :=
  [("listen-port", decimal cfg.listenPort), ("jc", decimal cfg.jc), ("jmin", decimal cfg.jmin),
    ("jmax", decimal cfg.jmax), ("s1", decimal cfg.s1), ("s2", decimal cfg.s2),
    ("s3", decimal cfg.s3), ("s4", decimal cfg.s4), ("h1", cfg.h1), ("h2", cfg.h2),
    ("h3", cfg.h3), ("h4", cfg.h4)]

/-- The settings it gets where they have a value or the interface had one. -/
def InterfaceConfig.liveOptional (cfg : InterfaceConfig) (previousInterfaceText : Text) :
    List (String × Text) :=
  [("i1", cfg.i1), ("i2", cfg.i2), ("i3", cfg.i3), ("i4", cfg.i4), ("i5", cfg.i5)].filter
    fun (key, val) =>
      val ≠ [] || interfaceHasKey previousInterfaceText (key.toList.map Char.toUpper)

/-- The name of the interface and of the temporary file with the private key. -/
structure LiveNames where
  interface : Text := "awg0".toList
  privateKeyPath : Text

def liveInterfaceSetArgs (names : LiveNames) (cfg : InterfaceConfig)
    (previousInterfaceText : Text) : List Text :=
  ["awg".toList, "set".toList, names.interface, "private-key".toList, names.privateKeyPath] ++
    (cfg.liveFixed ++ cfg.liveOptional previousInterfaceText).flatMap fun (key, val) =>
      [key.toList, val]

/-- The text that is written and the command that is run. -/
structure InterfaceChange where
  desired : Text
  live : List Text
  deriving DecidableEq, Repr

/-- What `configure_interface` does; nothing on the path that logs 'unchanged'. -/
def interfaceChange (names : LiveNames) (cfg : InterfaceConfig) (file : ConfigFile) :
    Option InterfaceChange :=
  let existing := (file.map readText).getD []
  let (existingInterface, peerTail) := match file with
    | none => ([], [])
    | some _ => splitConfigSections existing
  let desired := buildInterfaceBlock cfg ++ peerTail
  if existing = desired then none
  else some { desired, live := liveInterfaceSetArgs names cfg existingInterface }

/-- The file is written where the interface is applied, and only there. -/
theorem configureInterface_eq (names : LiveNames) (cfg : InterfaceConfig) (file : ConfigFile) :
    configureInterface cfg file =
      match interfaceChange names cfg file with
      | none => file
      | some change => some change.desired := by
  unfold configureInterface interfaceChange
  cases file with
  | none =>
      dsimp only
      split <;> rfl
  | some text =>
      dsimp only
      split <;> rfl

/-! ## What stands before the peers -/

/-- Whole lines without a mark, as a file is read. -/
structure Front (front : Text) : Prop where
  unmarked : ¬header <:+: front
  returns : '\r' ∉ front
  closed : front = [] ∨ ∃ l, front = l ++ ['\n']

namespace Front

variable {front tail : Text}

theorem nil : Front [] where
  unmarked := by simp [header]
  returns := by simp
  closed := .inl rfl

theorem readText (h : Front front) (htail : '\r' ∉ tail) :
    readText (front ++ tail) = front ++ tail := by
  refine universalNewlines_of_notMem ?_
  rw [List.mem_append, not_or]
  exact ⟨h.returns, htail⟩

theorem splitlines (h : Front front) :
    splitlines (front ++ tail) = splitlines front ++ splitlines tail := by
  rcases h.closed with rfl | ⟨l, rfl⟩
  · rfl
  · have hreturns : '\r' ∉ l := fun hmem => h.returns (List.mem_append_left _ hmem)
    rw [List.append_assoc]
    exact splitlines_newline hreturns

theorem readlines (h : Front front) :
    readlines (front ++ tail) = readlines front ++ readlines tail := by
  rcases h.closed with rfl | ⟨l, rfl⟩
  · rfl
  · rw [List.append_assoc]
    exact readlines_newline

theorem unmarked_splitlines (h : Front front) {line : Text}
    (hline : line ∈ Text.splitlines front) : ¬header <:+: line := by
  intro hin
  have hline := infix_flatten hline
  rw [flatten_splitlines] at hline
  exact h.unmarked (hin.trans hline)

theorem unmarked_readlines (h : Front front) {line : Text}
    (hline : line ∈ Text.readlines front) : ¬header <:+: line := by
  intro hin
  have hline := infix_flatten hline
  rw [flatten_readlines] at hline
  exact h.unmarked (hin.trans hline)

theorem partition (h : Front front) : partition header (front ++ tail) =
    (partition header tail).map fun (before, after) => (front ++ before, after) := by
  rcases h.closed with rfl | ⟨l, rfl⟩
  · rw [List.nil_append]
    cases Text.partition header tail with
    | none => rfl
    | some parts => rfl
  · have hl : ¬header <:+: l := fun hin =>
      h.unmarked (hin.trans (List.prefix_append l ['\n']).isInfix)
    rw [List.append_assoc, List.singleton_append, partition_line (by simp) (by decide) hl]
    simp

/-- The peers of a file do not depend on what stands before them. -/
theorem split (h : Front front) :
    (splitConfigSections (front ++ tail)).2 = (splitConfigSections tail).2 := by
  unfold splitConfigSections
  rw [h.partition]
  cases Text.partition header tail with
  | none => rfl
  | some parts => rfl

end Front

/-! ## Editing behind a front -/

namespace Scan

variable {pubkey : Text} {block : List Text}

/-- The scan, with lines passed on before it began. -/
def behind (s : Scan) (passed : List Text) : Scan := { s with newLines := passed ++ s.newLines }

@[simp] theorem behind_newLines (s : Scan) (passed : List Text) :
    (s.behind passed).newLines = passed ++ s.newLines := rfl
@[simp] theorem behind_peerBuffer (s : Scan) (passed : List Text) :
    (s.behind passed).peerBuffer = s.peerBuffer := rfl
@[simp] theorem behind_peerPubkey (s : Scan) (passed : List Text) :
    (s.behind passed).peerPubkey = s.peerPubkey := rfl
@[simp] theorem behind_replaced (s : Scan) (passed : List Text) :
    (s.behind passed).replaced = s.replaced := rfl

theorem flush_behind (s : Scan) (passed : List Text) :
    (s.behind passed).flushPeerBuffer pubkey block =
      (s.flushPeerBuffer pubkey block).behind passed := by
  unfold flushPeerBuffer
  rw [behind_peerBuffer, behind_peerPubkey]
  by_cases hbuffer : s.peerBuffer = []
  · rw [if_pos hbuffer, if_pos hbuffer]
  · rw [if_neg hbuffer, if_neg hbuffer]
    by_cases hkey : s.peerPubkey = some pubkey
    · rw [if_pos hkey, if_pos hkey]
      simp only [behind, List.append_assoc]
    · rw [if_neg hkey, if_neg hkey]
      simp only [behind, List.append_assoc]

theorem keep_behind (s : Scan) (passed : List Text) (line : Text) :
    (s.behind passed).keep line = (s.keep line).behind passed := by
  unfold keep
  rw [behind_peerBuffer, behind_peerPubkey]
  by_cases hbuffer : s.peerBuffer = []
  · rw [if_neg (by simp [hbuffer]), if_neg (by simp [hbuffer])]
    simp only [behind, List.append_assoc]
  · rw [if_pos hbuffer, if_pos hbuffer]
    simp only [behind]

theorem persistLine_behind (s : Scan) (passed : List Text) (line : Text) :
    persistLine pubkey block (s.behind passed) line =
      (persistLine pubkey block s line).behind passed := by
  unfold persistLine
  split
  · rw [flush_behind]
    rfl
  · exact keep_behind s passed line

theorem unpersistLine_behind (s : Scan) (passed : List Text) (line : Text) :
    unpersistLine pubkey (s.behind passed) line = (unpersistLine pubkey s line).behind passed := by
  unfold unpersistLine
  split
  · by_cases hkept : s.peerBuffer ≠ [] ∧ s.peerPubkey ≠ some pubkey
    · simp [behind, hkept]
    · simp [behind, hkept]
  · exact keep_behind s passed line

theorem foldl_persist_behind (ls passed : List Text) : ∀ s : Scan,
    ls.foldl (persistLine pubkey block) (s.behind passed) =
      (ls.foldl (persistLine pubkey block) s).behind passed := by
  induction ls with
  | nil => exact fun _ => rfl
  | cons line ls ih =>
      intro s
      rw [List.foldl_cons, List.foldl_cons, persistLine_behind, ih]

theorem foldl_unpersist_behind (ls passed : List Text) : ∀ s : Scan,
    ls.foldl (unpersistLine pubkey) (s.behind passed) =
      (ls.foldl (unpersistLine pubkey) s).behind passed := by
  induction ls with
  | nil => exact fun _ => rfl
  | cons line ls ih =>
      intro s
      rw [List.foldl_cons, List.foldl_cons, unpersistLine_behind, ih]

/-- Outside of a section both scanners pass a line without a mark on. -/
theorem foldl_unpersist_passed (ls : List Text) (h : ∀ line ∈ ls, ¬header <:+: line) :
    ls.foldl (unpersistLine pubkey) {} = Scan.behind {} ls := by
  induction ls using List.reverseRecOn with
  | nil => rfl
  | append_singleton ls line ih =>
      have hline : ¬header.isPrefixOf (strip line) = true := not_header (h line (by simp))
      rw [List.foldl_append, ih fun x hx => h x (List.mem_append_left _ hx)]
      simp only [List.foldl_cons, List.foldl_nil]
      unfold unpersistLine keep
      rw [if_neg hline]
      simp [behind]

end Scan

section Behind

variable {front tail : Text}

theorem persistPeer_front (h : Front front) (htail : '\r' ∉ tail) (pubkey ip psk : Text) :
    persistPeer pubkey ip psk (some (front ++ tail)) =
      (persistPeer pubkey ip psk (some tail)).map (front ++ ·) := by
  have hpassed : (splitlines front).foldl (Scan.persistLine pubkey (peerBlock pubkey ip psk)) {} =
      Scan.behind {} (splitlines front) := by
    rw [Scan.foldl_passed _ rfl fun line hline => h.unmarked_splitlines hline]
    simp [Scan.behind]
  have htext : readText tail = tail := universalNewlines_of_notMem htail
  unfold persistPeer
  dsimp only
  rw [h.readText htail, h.splitlines, List.foldl_append, hpassed, Scan.foldl_persist_behind,
    Scan.flush_behind, htext]
  generalize ((splitlines tail).foldl (Scan.persistLine pubkey (peerBlock pubkey ip psk))
    {}).flushPeerBuffer pubkey (peerBlock pubkey ip psk) = scanned
  cases hreplaced : scanned.replaced with
  | true => simp [hreplaced, flatten_splitlines]
  | false => simp [hreplaced, flatten_splitlines]

theorem unpersistPeer_front (h : Front front) (htail : '\r' ∉ tail) (pubkey : Text) :
    unpersistPeer pubkey (some (front ++ tail)) =
      (unpersistPeer pubkey (some tail)).map (front ++ ·) := by
  have htext : readText tail = tail := universalNewlines_of_notMem htail
  unfold unpersistPeer
  dsimp only
  rw [h.readText htail, h.readlines, List.foldl_append,
    Scan.foldl_unpersist_passed _ fun line hline => h.unmarked_readlines hline,
    Scan.foldl_unpersist_behind, htext]
  generalize (readlines tail).foldl (Scan.unpersistLine pubkey) {} = scanned
  by_cases hkept : scanned.peerBuffer ≠ [] ∧ scanned.peerPubkey ≠ some pubkey
  · simp [hkept, flatten_readlines]
  · simp [hkept, flatten_readlines]

end Behind

end VpnPanel.Node
