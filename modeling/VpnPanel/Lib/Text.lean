import Mathlib.Data.List.DropRight
import Mathlib.Data.List.Infix

/-!
# Text and its lines

Text as a list of characters, with the operations of Python's `str` that line
scanners use. `render` is the text of a list of lines, and what the operations
do on such a text is said line by line.
-/

namespace VpnPanel.Lib

abbrev Text := List Char

namespace Text

/-- The characters `str.splitlines` ends a line at. -/
def isLineBreak (c : Char) : Bool :=
  c ∈ ['\n', '\r', '\x0b', '\x0c', '\x1c', '\x1d', '\x1e', '\u0085', '\u2028', '\u2029']

/-- The characters `str.strip` removes. -/
def isSpace (c : Char) : Bool :=
  isLineBreak c || c ∈ ['\t', ' ', '\x1f', '\u00a0', '\u1680', '\u202f', '\u205f', '\u3000'] ||
    (0x2000 ≤ c.toNat && c.toNat ≤ 0x200a)

def strip (t : Text) : Text := (t.dropWhile isSpace).rdropWhile isSpace

/-- `str.splitlines(keepends=True)` -/
def splitlines : Text → List Text
  | [] => []
  | '\r' :: '\n' :: rest => ['\r', '\n'] :: splitlines rest
  | c :: rest =>
      if isLineBreak c then [c] :: splitlines rest
      else match splitlines rest with
        | [] => [[c]]
        | line :: lines => (c :: line) :: lines

/-- `str.splitlines()` -/
def lines (t : Text) : List Text := (splitlines t).map (List.rdropWhile isLineBreak)

/-- `readlines()` of a file opened as text. -/
def readlines : Text → List Text
  | [] => []
  | c :: rest =>
      if c = '\n' then [c] :: readlines rest
      else match readlines rest with
        | [] => [[c]]
        | line :: lines => (c :: line) :: lines

/-- What reading a file as text makes of its line ends. -/
def universalNewlines : Text → Text
  | [] => []
  | '\r' :: '\n' :: rest => '\n' :: universalNewlines rest
  | c :: rest => (if c = '\r' then '\n' else c) :: universalNewlines rest

/-- `str.partition`: the text before and after the first `sep`. -/
def partition (sep : Text) : Text → Option (Text × Text)
  | [] => none
  | c :: rest =>
      if sep.isPrefixOf (c :: rest) then some ([], (c :: rest).drop sep.length)
      else (partition sep rest).map fun (before, after) => (c :: before, after)

/-- `str.rpartition` at a character: the text before the last one, it, and the text
after it. Where there is none all of the text comes last. -/
def rpartition (c : Char) (t : Text) : Text × Text × Text :=
  if c ∈ t then ((t.rdropWhile (· ≠ c)).dropLast, [c], t.rtakeWhile (· ≠ c)) else ([], [], t)

/-- `str(n)` -/
def decimal : Int → Text
  | .ofNat n => Nat.toDigits 10 n
  | .negSucc n => '-' :: Nat.toDigits 10 (n + 1)

def NoBreaks (t : Text) : Prop := ∀ c ∈ t, isLineBreak c = false

instance (t : Text) : Decidable (NoBreaks t) :=
  List.decidableBAll (fun c => isLineBreak c = false) t

/-- The text of these lines, each ended by a newline. -/
def render (lines : List Text) : Text := lines.flatMap (· ++ ['\n'])

variable {l t sep : Text} {ls more : List Text}

@[simp] theorem render_nil : render [] = [] := rfl

@[simp] theorem render_cons : render (l :: ls) = l ++ '\n' :: render ls := by
  simp [render]

@[simp] theorem render_append : render (ls ++ more) = render ls ++ render more := by
  simp [render]

theorem render_eq_flatten : render ls = (ls.map (· ++ ['\n'])).flatten := by
  simp [render, List.flatMap]

/-! ## Lines -/

theorem NoBreaks.append (h : NoBreaks l) (h' : NoBreaks t) : NoBreaks (l ++ t) := by
  intro c hc
  rcases List.mem_append.mp hc with hc | hc
  · exact h c hc
  · exact h' c hc

theorem NoBreaks.newline_notMem (h : NoBreaks l) : '\n' ∉ l :=
  fun hc => absurd (h _ hc) (by decide)

theorem splitlines_line (h : NoBreaks l) :
    splitlines (l ++ '\n' :: t) = (l ++ ['\n']) :: splitlines t := by
  induction l with
  | nil => simp [splitlines, isLineBreak]
  | cons c l ih =>
      have hc : isLineBreak c = false := h c List.mem_cons_self
      have hne : c ≠ '\r' := by
        rintro rfl
        exact absurd hc (by decide)
      rw [List.cons_append, splitlines, if_neg (by simp [hc]),
        ih fun x hx => h x (List.mem_cons_of_mem _ hx)]
      · rfl
      · exact fun _ heq _ => hne heq

theorem splitlines_render (h : ∀ l ∈ ls, NoBreaks l) :
    splitlines (render ls) = ls.map (· ++ ['\n']) := by
  induction ls with
  | nil => rfl
  | cons l ls ih =>
      rw [render_cons, splitlines_line (h l List.mem_cons_self),
        ih fun x hx => h x (List.mem_cons_of_mem _ hx), List.map_cons]

theorem lines_render (h : ∀ l ∈ ls, NoBreaks l) : lines (render ls) = ls := by
  unfold lines
  rw [splitlines_render h, List.map_map]
  refine (List.map_congr_left fun l hl => ?_).trans (List.map_id ls)
  have hself : l.rdropWhile isLineBreak = l :=
    List.rdropWhile_eq_self_iff.mpr fun hne => by simp [h l hl _ (List.getLast_mem hne)]
  rw [Function.comp_apply, List.rdropWhile_concat_pos isLineBreak l '\n' (by decide), hself]
  rfl

theorem readlines_line (h : '\n' ∉ l) :
    readlines (l ++ '\n' :: t) = (l ++ ['\n']) :: readlines t := by
  induction l with
  | nil => simp [readlines]
  | cons c l ih =>
      rw [List.mem_cons, not_or] at h
      rw [List.cons_append, readlines, if_neg (Ne.symm h.1), ih h.2]
      rfl

/-- Where every line break is a newline the two ways of splitting agree. -/
theorem readlines_render (h : ∀ l ∈ ls, NoBreaks l) :
    readlines (render ls) = ls.map (· ++ ['\n']) := by
  induction ls with
  | nil => rfl
  | cons l ls ih =>
      rw [render_cons, readlines_line (h l List.mem_cons_self).newline_notMem,
        ih fun x hx => h x (List.mem_cons_of_mem _ hx), List.map_cons]

theorem splitlines_ne_nil (h : t ≠ []) : splitlines t ≠ [] := by
  fun_cases splitlines t with
  | case1 => exact absurd rfl h
  | case2 => simp
  | case3 => simp
  | case4 => simp
  | case5 => simp

theorem readlines_ne_nil (h : t ≠ []) : readlines t ≠ [] := by
  fun_cases readlines t with
  | case1 => exact absurd rfl h
  | case2 => simp
  | case3 => simp
  | case4 => simp

theorem flatten_splitlines (t : Text) : (splitlines t).flatten = t := by
  fun_induction splitlines t with
  | case1 => rfl
  | case2 rest ih => simp [ih]
  | case3 c rest _ _ ih => simp [ih]
  | case4 c rest _ _ hnil ih => simpa [hnil] using ih
  | case5 c rest _ _ line lines hcons ih => simpa [hcons] using ih

theorem flatten_readlines (t : Text) : (readlines t).flatten = t := by
  fun_induction readlines t with
  | case1 => rfl
  | case2 rest ih => simp [ih]
  | case3 c rest _ hnil ih => simpa [hnil] using ih
  | case4 c rest _ line lines hcons ih => simpa [hcons] using ih

/-- A line of a text lies in it. -/
theorem infix_flatten {line : Text} (h : line ∈ ls) : line <:+: ls.flatten := by
  obtain ⟨before, after, rfl⟩ := List.append_of_mem h
  exact ⟨before.flatten, after.flatten, by simp⟩

/-- A newline parts a text for both ways of splitting. -/
theorem splitlines_newline (h : '\r' ∉ l) :
    splitlines (l ++ '\n' :: t) = splitlines (l ++ ['\n']) ++ splitlines t := by
  induction l with
  | nil => simp [splitlines, isLineBreak]
  | cons c l ih =>
      rw [List.mem_cons, not_or] at h
      have hcons : ∀ rest : Text, splitlines (c :: rest) =
          if isLineBreak c then [c] :: splitlines rest
          else match splitlines rest with
            | [] => [[c]]
            | line :: lines => (c :: line) :: lines :=
        fun rest => splitlines.eq_3 c rest fun _ heq _ => h.1 heq.symm
      rw [List.cons_append, List.cons_append, hcons, hcons, ih h.2]
      split
      · rfl
      · cases hfirst : splitlines (l ++ ['\n']) with
        | nil => exact absurd hfirst (splitlines_ne_nil (by simp))
        | cons line lines => rfl

theorem readlines_newline :
    readlines (l ++ '\n' :: t) = readlines (l ++ ['\n']) ++ readlines t := by
  induction l with
  | nil => simp [readlines]
  | cons c l ih =>
      rw [List.cons_append, List.cons_append, readlines, readlines, ih]
      split
      · rfl
      · cases hfirst : readlines (l ++ ['\n']) with
        | nil => exact absurd hfirst (readlines_ne_nil (by simp))
        | cons line lines => rfl

theorem universalNewlines_of_notMem (h : '\r' ∉ t) : universalNewlines t = t := by
  induction t with
  | nil => rfl
  | cons c t ih =>
      rw [List.mem_cons, not_or] at h
      rw [universalNewlines, if_neg (Ne.symm h.1), ih h.2]
      exact fun _ heq _ => h.1 heq.symm

theorem return_notMem_universalNewlines (t : Text) : '\r' ∉ universalNewlines t := by
  fun_induction universalNewlines t with
  | case1 => simp
  | case2 rest ih => simpa using ih
  | case3 c rest _ ih =>
      rw [List.mem_cons, not_or]
      refine ⟨?_, ih⟩
      split
      · decide
      · next hne => exact Ne.symm hne

theorem return_notMem_render (h : ∀ l ∈ ls, NoBreaks l) : '\r' ∉ render ls := by
  intro hc
  obtain ⟨l, hl, hc⟩ := List.mem_flatMap.mp hc
  rcases List.mem_append.mp hc with hc | hc
  · exact absurd (h l hl _ hc) (by decide)
  · simp at hc

/-! ## Blanks -/

theorem strip_concat {c : Char} (h : isSpace c = true) : strip (l ++ [c]) = strip l := by
  unfold strip
  rw [List.dropWhile_append]
  split
  · next hall =>
    have hnil : l.dropWhile isSpace = [] := by simpa using hall
    simp [hnil, h]
  · exact List.rdropWhile_concat_pos isSpace _ c h

@[simp] theorem strip_newline : strip (l ++ ['\n']) = strip l := strip_concat (by decide)

theorem strip_cons {c : Char} (h : isSpace c = true) : strip (c :: l) = strip l := by
  unfold strip
  rw [List.dropWhile_cons_of_pos h]

/-- The last character of a text without surrounding blanks. -/
theorem last_of_strip (h : strip l = l) (hl : l ≠ []) : isSpace (l.getLast hl) = false := by
  have hne : (l.dropWhile isSpace).rdropWhile isSpace ≠ [] := by
    rw [show (l.dropWhile isSpace).rdropWhile isSpace = l from h]
    exact hl
  have hlast := List.rdropWhile_last_not isSpace _ hne
  have heq : ((l.dropWhile isSpace).rdropWhile isSpace).getLast hne = l.getLast hl := by
    congr 1
  rw [heq] at hlast
  simpa using hlast

/-- A text that begins with a letter and ends in one has no surrounding blanks. -/
theorem strip_eq_self {c : Char} (hc : isSpace c = false) (ht : strip t = t) (hne : t ≠ []) :
    strip (c :: (l ++ t)) = c :: (l ++ t) := by
  unfold strip
  rw [List.dropWhile_cons_of_neg (by simp [hc]), List.rdropWhile_eq_self_iff]
  intro hcons
  have hlast : (c :: (l ++ t)).getLast hcons = t.getLast hne :=
    List.getLast_append_of_ne_nil (l := c :: l) hcons hne
  rw [hlast, last_of_strip ht hne]
  simp

theorem strip_inside (l : Text) : strip l <:+: l :=
  (List.rdropWhile_prefix isSpace _).isInfix.trans (List.dropWhile_suffix isSpace).isInfix

/-! ## Partition -/

theorem partition_self (h : sep ≠ []) : partition sep (sep ++ t) = some ([], t) := by
  cases sep with
  | nil => exact absurd rfl h
  | cons c sep =>
      rw [List.cons_append, partition, if_pos]
      · simp
      · simp

/-- A separator within one line is not found across its end. -/
theorem partition_line (hsep : sep ≠ []) (hnewline : '\n' ∉ sep) (h : ¬sep <:+: l) :
    partition sep (l ++ '\n' :: t) =
      (partition sep t).map fun (before, after) => (l ++ '\n' :: before, after) := by
  induction l with
  | nil =>
      have hno : ¬sep.isPrefixOf ('\n' :: t) = true := by
        rw [List.isPrefixOf_iff_prefix]
        intro hprefix
        cases sep with
        | nil => exact hsep rfl
        | cons c sep => exact hnewline ((List.cons_prefix_cons.mp hprefix).1 ▸ List.mem_cons_self)
      rw [List.nil_append, partition, if_neg hno]
      rfl
  | cons c l ih =>
      have hno : ¬sep.isPrefixOf (c :: (l ++ '\n' :: t)) = true := by
        rw [List.isPrefixOf_iff_prefix, ← List.cons_append]
        intro hprefix
        by_cases hle : sep.length ≤ (c :: l).length
        · exact h (List.prefix_of_prefix_length_le hprefix (List.prefix_append _ _) hle).isInfix
        · -- the newline would lie inside the separator
          have hlonger : c :: l ++ ['\n'] <+: sep := by
            refine List.prefix_of_prefix_length_le ?_ hprefix ?_
            · exact ⟨t, by simp⟩
            · rw [List.length_append, List.length_singleton]
              omega
          exact hnewline (hlonger.subset (by simp))
      have htail : ¬sep <:+: l := fun hin => h (hin.trans (List.suffix_cons c l).isInfix)
      rw [List.cons_append, partition, if_neg hno, ih htail]
      cases partition sep t with
      | none => rfl
      | some parts => rfl

theorem partition_render (hsep : sep ≠ []) (hnewline : '\n' ∉ sep)
    (h : ∀ l ∈ ls, ¬sep <:+: l) :
    partition sep (render ls ++ t) =
      (partition sep t).map fun (before, after) => (render ls ++ before, after) := by
  induction ls with
  | nil =>
      cases hpart : partition sep t with
      | none => simpa using hpart
      | some parts => simpa using hpart
  | cons l ls ih =>
      rw [render_cons, List.append_assoc, List.cons_append,
        partition_line hsep hnewline (h l List.mem_cons_self),
        ih fun x hx => h x (List.mem_cons_of_mem _ hx)]
      cases partition sep t with
      | none => rfl
      | some parts => simp

/-- What comes out of a partition is the text again. -/
theorem partition_eq {before after : Text} (h : partition sep t = some (before, after)) :
    t = before ++ (sep ++ after) := by
  induction t generalizing before with
  | nil => cases h
  | cons c t ih =>
      rw [partition] at h
      split at h
      · next hprefix =>
        cases h
        have hprefix := List.isPrefixOf_iff_prefix.mp hprefix
        exact (List.prefix_append_drop hprefix)
      · obtain ⟨⟨first, rest⟩, hpart, heq⟩ := Option.map_eq_some_iff.mp h
        cases heq
        rw [ih hpart]
        rfl

/-- The separator is found where it stands, or before. -/
theorem partition_found (hsep : sep ≠ []) (before after : Text) :
    ∃ first rest, partition sep (before ++ (sep ++ after)) = some (first, rest) ∧
      first.length ≤ before.length := by
  induction before with
  | nil => exact ⟨[], after, partition_self hsep, le_rfl⟩
  | cons c before ih =>
      obtain ⟨first, rest, hpart, hlength⟩ := ih
      rw [List.cons_append, partition]
      split
      · exact ⟨_, _, rfl, Nat.zero_le _⟩
      · exact ⟨c :: first, rest, by rw [hpart]; rfl, Nat.succ_le_succ hlength⟩

/-- The first separator of one character. -/
theorem partition_char {c : Char} (h : c ∉ l) :
    partition [c] (l ++ c :: t) = some (l, t) := by
  induction l with
  | nil =>
      have hsep : [c] ≠ [] := by simp
      exact partition_self hsep
  | cons d l ih =>
      rw [List.mem_cons, not_or] at h
      have hno : ¬[c].isPrefixOf (d :: (l ++ c :: t)) = true := by
        rw [List.isPrefixOf_iff_prefix]
        exact fun hprefix => h.1 (List.cons_prefix_cons.mp hprefix).1
      rw [List.cons_append, partition, if_neg hno, ih h.2]
      rfl

theorem rpartition_of_notMem {c : Char} (h : c ∉ t) : rpartition c t = ([], [], t) := if_neg h

/-- The last separator. -/
theorem rpartition_last {c : Char} (h : c ∉ t) : rpartition c (l ++ c :: t) = (l, [c], t) := by
  have hother : ∀ d ∈ t.reverse, (decide (d ≠ c)) = true := fun d hd =>
    decide_eq_true fun heq => h (heq ▸ List.mem_reverse.mp hd)
  have hreverse : (l ++ c :: t).reverse = t.reverse ++ c :: l.reverse := by simp
  have hafter : (l ++ c :: t).rtakeWhile (· ≠ c) = t := by
    unfold List.rtakeWhile
    rw [hreverse, List.takeWhile_append_of_pos hother, List.takeWhile_cons_of_neg (by simp)]
    simp
  have hbefore : (l ++ c :: t).rdropWhile (· ≠ c) = l ++ [c] := by
    unfold List.rdropWhile
    rw [hreverse, List.dropWhile_append_of_pos hother, List.dropWhile_cons_of_neg (by simp)]
    simp
  unfold rpartition
  rw [if_pos (by simp), hafter, hbefore, List.dropLast_concat]

/-! ## Numbers -/

theorem mem_decimal {c : Char} {n : Int} (h : c ∈ decimal n) : c.isDigit = true ∨ c = '-' := by
  cases n with
  | ofNat n => exact .inl (Nat.isDigit_of_mem_toDigits (by decide) (by decide) h)
  | negSucc n =>
      rcases List.mem_cons.mp h with rfl | h
      · exact .inr rfl
      · exact .inl (Nat.isDigit_of_mem_toDigits (by decide) (by decide) h)

end Text

end VpnPanel.Lib
