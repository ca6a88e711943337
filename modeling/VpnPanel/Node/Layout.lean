import VpnPanel.Node.Config

/-!
# The layout of the config file

The file is the lines of the interface and one section for each peer. Blank
lines come and go at the end of each part. The three line scanners and the
substring split see the same parts.
-/

namespace VpnPanel.Node

open VpnPanel.Lib VpnPanel.Lib.Text

/-- The mark of a peer's section. -/
abbrev header : Text := "[Peer]".toList

/-- A value that can stand in a line: no line break, no surrounding blanks, no
mark of a peer. -/
structure Plain (value : Text) : Prop where
  breaks : NoBreaks value
  trimmed : strip value = value
  unmarked : ¬header <:+: value

/-- A peer as it was asked for. -/
structure Peer where
  key : Text
  psk : Text
  ip : Text
  deriving DecidableEq, Repr

namespace Peer

structure Ok (p : Peer) : Prop where
  key : Plain p.key
  psk : Plain p.psk
  ip : Plain p.ip
  named : p.key ≠ []

/-- What the reader makes of it. -/
def entry (p : Peer) : PeerEntry := ⟨p.psk, Reader.addresses (p.ip ++ "/32".toList)⟩

/-- The lines below the mark. -/
def settings (p : Peer) : List Text :=
  [setting "PublicKey" p.key] ++
    (if p.psk ≠ [] then [setting "PresharedKey" p.psk] else []) ++
    [setting "AllowedIPs" (p.ip ++ "/32".toList)]

end Peer

/-- A peer's part of the file, up to the next mark. -/
structure Section where
  peer : Peer
  rest : List Text

namespace Section

def lines (s : Section) : List Text := header :: s.rest

structure Ok (s : Section) : Prop where
  peer : s.peer.Ok
  settings : s.rest.filter (· ≠ []) = s.peer.settings

end Section

/-- The file, apart at its first mark. -/
structure Layout where
  interface : List Text
  sections : List Section

namespace Layout

def lines (l : Layout) : List Text := l.interface ++ l.sections.flatMap Section.lines

def text (l : Layout) : Text := render l.lines

structure Ok (l : Layout) : Prop where
  interface : ∀ line ∈ l.interface, NoBreaks line ∧ ¬header <:+: line
  sections : ∀ s ∈ l.sections, s.Ok

end Layout

/-! ## Lines -/

/-- The mark is not found where a name without a bracket comes first. -/
theorem unmarked_append {name value : Text} (hname : '[' ∉ name) (h : ¬header <:+: value) :
    ¬header <:+: name ++ value := by
  induction name with
  | nil => exact h
  | cons c name ih =>
      rw [List.mem_cons, not_or] at hname
      intro hin
      rcases List.infix_cons_iff.mp hin with hprefix | hin
      · exact hname.1 (List.cons_prefix_cons.mp hprefix).1
      · exact ih hname.2 hin

theorem unmarked_of_notMem {value : Text} (h : '[' ∉ value) : ¬header <:+: value :=
  fun hin => h (hin.subset (by decide))

/-- Nor where a suffix without a bracket comes after. -/
theorem unmarked_suffix {value suffix : Text} (hsuffix : ']' ∉ suffix) (h : ¬header <:+: value) :
    ¬header <:+: value ++ suffix := by
  induction suffix using List.reverseRecOn with
  | nil => simpa using h
  | append_singleton suffix c ih =>
      rw [List.mem_append, not_or, List.mem_singleton] at hsuffix
      rintro ⟨before, after, heq⟩
      rw [← List.append_assoc value] at heq
      rcases List.eq_nil_or_concat after with rfl | ⟨after, d, rfl⟩
      · have hlast : ']' = c := by
          have h := congrArg List.getLast? heq
          simpa [header, List.getLast?_append] using h
        exact hsuffix.2 hlast
      · rw [List.concat_eq_append, ← List.append_assoc] at heq
        exact ih hsuffix.1 ⟨before, after, (List.append_inj' heq rfl).1⟩

theorem noBreaks_setting {key : String} (hkey : NoBreaks key.toList) {value : Text}
    (h : NoBreaks value) : NoBreaks (setting key value) :=
  (hkey.append (by decide)).append h

theorem unmarked_setting {key : String} (hkey : '[' ∉ key.toList) {value : Text}
    (h : ¬header <:+: value) : ¬header <:+: setting key value := by
  refine unmarked_append ?_ h
  rw [List.mem_append, not_or]
  exact ⟨hkey, by decide⟩

theorem isDigit_not_break {c : Char} (h : c.isDigit = true) : isLineBreak c = false := by
  have hnone : ['\n', '\r', '\x0b', '\x0c', '\x1c', '\x1d', '\x1e', '\u0085', '\u2028',
      '\u2029'].any Char.isDigit = false := by decide
  refine decide_eq_false fun hmem => ?_
  exact absurd h (List.any_eq_false.mp hnone c hmem)

theorem decimal_ok (n : Int) : NoBreaks (decimal n) ∧ ¬header <:+: decimal n := by
  refine ⟨fun c hc => ?_, unmarked_of_notMem fun hc => ?_⟩
  · rcases mem_decimal hc with h | rfl
    · exact isDigit_not_break h
    · decide
  · rcases mem_decimal hc with h | h
    · exact absurd h (by decide)
    · exact absurd h (by decide)

theorem Plain.address {ip : Text} (h : Plain ip) :
    strip (ip ++ "/32".toList) = ip ++ "/32".toList := by
  cases ip with
  | nil => decide
  | cons c ip =>
      have hfirst : isSpace c = false := by
        by_contra hspace
        have hspace : isSpace c = true := by simpa using hspace
        have hlen := (strip_inside ip).length_le
        rw [← strip_cons hspace, h.trimmed, List.length_cons] at hlen
        omega
      exact strip_eq_self (l := ip) hfirst (t := "/32".toList) (by decide) (by decide)

namespace Peer.Ok

variable {p : Peer}

/-- Each line below the mark is a name and a value without blanks. -/
theorem mem_settings (h : p.Ok) {line : Text} (hline : line ∈ p.settings) :
    ∃ name ∈ ["PublicKey", "PresharedKey", "AllowedIPs"], ∃ value,
      line = setting name value ∧ value ≠ [] ∧ NoBreaks value ∧ strip value = value ∧
        ¬header <:+: value := by
  simp only [Peer.settings, List.mem_append, List.mem_singleton] at hline
  rcases hline with (rfl | hline) | rfl
  · exact ⟨_, by simp, _, rfl, h.named, h.key.breaks, h.key.trimmed, h.key.unmarked⟩
  · split at hline
    · next hpsk =>
      rw [List.mem_singleton.mp hline]
      exact ⟨_, by simp, _, rfl, hpsk, h.psk.breaks, h.psk.trimmed, h.psk.unmarked⟩
    · simp at hline
  · refine ⟨_, by simp, _, rfl, by simp, h.ip.breaks.append (by decide), h.ip.address,
      unmarked_suffix (by decide) h.ip.unmarked⟩

end Peer.Ok

/-- A name and a value without blanks are a line without blanks. -/
theorem strip_setting {name : String}
    (hname : name ∈ ["PublicKey", "PresharedKey", "AllowedIPs"]) {value : Text}
    (hne : value ≠ []) (h : strip value = value) :
    strip (setting name value) = setting name value := by
  simp only [List.mem_cons, List.not_mem_nil, or_false] at hname
  rcases hname with rfl | rfl | rfl
  · exact strip_eq_self (c := 'P') (l := "ublicKey = ".toList) (by decide) h hne
  · exact strip_eq_self (c := 'P') (l := "resharedKey = ".toList) (by decide) h hne
  · exact strip_eq_self (c := 'A') (l := "llowedIPs = ".toList) (by decide) h hne

/-- A line of a section is blank or one of its settings. -/
theorem Section.Ok.mem_rest {s : Section} (h : s.Ok) {line : Text} (hline : line ∈ s.rest) :
    line = [] ∨ line ∈ s.peer.settings := by
  by_cases hblank : line = []
  · exact .inl hblank
  · right
    rw [← h.settings]
    exact List.mem_filter.mpr ⟨hline, by simpa using hblank⟩

theorem Section.Ok.line_ok {s : Section} (h : s.Ok) {line : Text} (hline : line ∈ s.rest) :
    NoBreaks line ∧ ¬header <:+: line := by
  rcases h.mem_rest hline with rfl | hline
  · exact ⟨by decide, unmarked_of_notMem (by simp)⟩
  · obtain ⟨name, hname, value, rfl, -, hbreaks, -, hunmarked⟩ := h.peer.mem_settings hline
    simp only [List.mem_cons, List.not_mem_nil, or_false] at hname
    rcases hname with rfl | rfl | rfl
    · exact ⟨noBreaks_setting (by decide) hbreaks, unmarked_setting (by decide) hunmarked⟩
    · exact ⟨noBreaks_setting (by decide) hbreaks, unmarked_setting (by decide) hunmarked⟩
    · exact ⟨noBreaks_setting (by decide) hbreaks, unmarked_setting (by decide) hunmarked⟩

theorem Layout.Ok.breaks {l : Layout} (h : l.Ok) : ∀ line ∈ l.lines, NoBreaks line := by
  intro line hline
  rcases List.mem_append.mp hline with hline | hline
  · exact (h.interface line hline).1
  · obtain ⟨s, hs, hline⟩ := List.mem_flatMap.mp hline
    rcases List.mem_cons.mp hline with rfl | hline
    · decide
    · exact ((h.sections s hs).line_ok hline).1

theorem Layout.Ok.readText {l : Layout} (h : l.Ok) : readText l.text = l.text :=
  universalNewlines_of_notMem (return_notMem_render h.breaks)

/-- A line without the mark is not taken for one. -/
theorem strip_ne_header {line : Text} (h : ¬header <:+: line) : strip line ≠ header :=
  fun heq => h (heq ▸ strip_inside line)

theorem not_header {line : Text} (h : ¬header <:+: line) :
    ¬header.isPrefixOf (strip line) = true := by
  rw [List.isPrefixOf_iff_prefix]
  intro hprefix
  have hin : header <:+: strip line := hprefix.isInfix
  exact h (hin.trans (strip_inside line))

end VpnPanel.Node
