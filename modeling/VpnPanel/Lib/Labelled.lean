import VpnPanel.Lib.Text

/-!
# Labelled lines

Texts made of indented `label: value` lines, and values that list items between
commas: what was written is read back by `partition`, `split` and `strip`.
-/

namespace VpnPanel.Lib

open Text

/-- A text without surrounding blanks does not begin with one. -/
theorem head_of_strip {c : Char} {t : Text} (h : strip (c :: t) = c :: t) : isSpace c = false := by
  by_contra hc
  rw [Bool.not_eq_false] at hc
  rw [strip_cons hc] at h
  have hshort := (strip_inside t).length_le
  rw [h] at hshort
  exact absurd hshort (Nat.not_succ_le_self _)

/-- One line, with a label that the first colon ends. -/
structure Labelled where
  label : Text
  value : Text
  named : label ≠ []
  labelTrimmed : strip label = label
  unsplit : ':' ∉ label
  labelLine : NoBreaks label
  valueTrimmed : strip value = value
  valueLine : NoBreaks value

namespace Labelled

def text (f : Labelled) : Text := "  ".toList ++ (f.label ++ ": ".toList ++ f.value)

variable (f : Labelled)

theorem noBreaks_text : NoBreaks f.text := by
  have hindent : NoBreaks "  ".toList := by decide
  have hcolon : NoBreaks ": ".toList := by decide
  exact hindent.append ((f.labelLine.append hcolon).append f.valueLine)

/-- The line without its indentation: the label, and a text that trims to the
value. -/
theorem strip_text : ∃ rest, strip f.text = f.label ++ ':' :: rest ∧ strip rest = f.value := by
  obtain ⟨c, label, hlabel⟩ := List.exists_cons_of_ne_nil f.named
  have hblank : isSpace c = false := head_of_strip (hlabel ▸ f.labelTrimmed)
  have hindent : strip f.text = strip (f.label ++ ": ".toList ++ f.value) :=
    (strip_cons (by decide)).trans (strip_cons (by decide))
  rw [hindent]
  by_cases hvalue : f.value = []
  · refine ⟨[], ?_, hvalue.symm ▸ rfl⟩
    have hlast : f.label ++ ": ".toList ++ f.value = f.label ++ [':'] ++ [' '] := by
      simp [hvalue]
    rw [hlast, strip_concat (by decide), hlabel]
    exact strip_eq_self hblank (by decide) (by decide)
  · refine ⟨' ' :: f.value, ?_, (strip_cons (by decide)).trans f.valueTrimmed⟩
    have hwhole : f.label ++ ": ".toList ++ f.value = c :: (label ++ ": ".toList ++ f.value) := by
      rw [hlabel]
      rfl
    rw [hwhole, strip_eq_self hblank f.valueTrimmed hvalue, hlabel]
    simp

/-- `line.partition(':')` of the stripped line. -/
theorem partition_text : ∃ rest, partition [':'] (strip f.text) = some (f.label, rest) ∧
    strip rest = f.value := by
  obtain ⟨rest, htext, hrest⟩ := f.strip_text
  exact ⟨rest, htext ▸ partition_char f.unsplit, hrest⟩

theorem strip_text_ne_nil : strip f.text ≠ [] := by
  obtain ⟨rest, htext, -⟩ := f.strip_text
  simp [htext]

/-- Another label at the front is not this line's. -/
theorem not_prefix (label : Text) (hcolon : ':' ∉ label) (hne : f.label ≠ label) :
    (label ++ [':']).isPrefixOf (strip f.text) = false := by
  obtain ⟨rest, htext, -⟩ := f.strip_text
  rw [← Bool.not_eq_true, List.isPrefixOf_iff_prefix, htext]
  rintro ⟨tail, htail⟩
  have hsame : partition [':'] (label ++ ':' :: tail) = partition [':'] (f.label ++ ':' :: rest) :=
    congrArg _ (by simpa using htail)
  rw [partition_char hcolon, partition_char f.unsplit] at hsame
  exact hne (congrArg Prod.fst (Option.some.inj hsame)).symm

end Labelled

/-! ## Items between commas -/

/-- An item of a list. -/
structure Item (t : Text) : Prop where
  named : t ≠ []
  trimmed : strip t = t
  unsplit : ',' ∉ t
  line : NoBreaks t

def commas (items : List Text) : Text := ", ".toList.intercalate items

theorem commas_one (item : Text) : commas [item] = item := by
  simp [commas, List.intercalate]

theorem commas_cons (item next : Text) (rest : List Text) :
    commas (item :: next :: rest) = item ++ ',' :: ' ' :: commas (next :: rest) := by
  simp [commas, List.intercalate]

/-- `[item.strip() for item in text.split(',')]` -/
def splitCommas (t : Text) : List Text := (t.splitOn ',').map strip

/-- A blank before the first item changes nothing. -/
theorem splitCommas_commas : ∀ {items : List Text}, items ≠ [] → (∀ t ∈ items, Item t) →
    splitCommas (commas items) = items ∧ splitCommas (' ' :: commas items) = items := by
  intro items hne hitems
  induction items with
  | nil => exact absurd rfl hne
  | cons item rest ih =>
      have hitem := hitems item List.mem_cons_self
      have hblank : ',' ∉ ' ' :: item := by
        rw [List.mem_cons, not_or]
        exact ⟨by decide, hitem.unsplit⟩
      have hstrip : strip (' ' :: item) = item := (strip_cons (by decide)).trans hitem.trimmed
      unfold splitCommas at ih ⊢
      cases rest with
      | nil =>
          rw [commas_one, List.splitOn_eq_singleton hitem.unsplit, List.splitOn_eq_singleton hblank]
          simp [hitem.trimmed, hstrip]
      | cons next rest =>
          obtain ⟨-, hrest⟩ := ih (by simp) fun t ht => hitems t (List.mem_cons_of_mem _ ht)
          rw [commas_cons, List.splitOn_append_cons_self_of_not_mem hitem.unsplit,
            ← List.cons_append, List.splitOn_append_cons_self_of_not_mem hblank,
            List.map_cons, List.map_cons, hrest, hitem.trimmed, hstrip]
          exact ⟨rfl, rfl⟩

theorem strip_commas : ∀ {items : List Text}, items ≠ [] → (∀ t ∈ items, Item t) →
    strip (commas items) = commas items ∧ commas items ≠ [] := by
  intro items hne hitems
  induction items with
  | nil => exact absurd rfl hne
  | cons item rest ih =>
      have hitem := hitems item List.mem_cons_self
      cases rest with
      | nil =>
          rw [commas_one]
          exact ⟨hitem.trimmed, hitem.named⟩
      | cons next rest =>
          obtain ⟨htrimmed, hnonempty⟩ :=
            ih (by simp) fun t ht => hitems t (List.mem_cons_of_mem _ ht)
          obtain ⟨c, tail, hcons⟩ := List.exists_cons_of_ne_nil hitem.named
          have htext : commas (item :: next :: rest) =
              c :: (tail ++ [',', ' '] ++ commas (next :: rest)) := by
            rw [commas_cons, hcons]
            simp
          rw [htext]
          exact ⟨strip_eq_self (head_of_strip (hcons ▸ hitem.trimmed)) htrimmed hnonempty,
            by simp⟩

theorem noBreaks_commas : ∀ {items : List Text}, (∀ t ∈ items, Item t) →
    NoBreaks (commas items)
  | [], _ => by decide
  | [item], hitems => by
      rw [commas_one]
      exact (hitems item List.mem_cons_self).line
  | item :: next :: rest, hitems => by
      have hsep : NoBreaks [',', ' '] := by decide
      have hrest := noBreaks_commas fun t ht => hitems t (List.mem_cons_of_mem item ht)
      rw [commas_cons]
      exact (hitems item List.mem_cons_self).line.append (hsep.append hrest)

end VpnPanel.Lib
