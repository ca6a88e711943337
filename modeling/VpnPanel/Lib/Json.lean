import Mathlib.Data.Char
import Mathlib.Data.List.Lex
import Mathlib.Data.List.Sort
import VpnPanel.Lib.Text

/-!
# JSON

`json.dumps` with `sort_keys=True` and ASCII output, of values made of text,
numbers, lists and dictionaries.
-/

namespace VpnPanel.Lib

inductive JsonValue
  | text (value : Text)
  | int (value : Int)
  | array (items : List JsonValue)
  | object (fields : List (Text × JsonValue))

namespace JsonValue

open Text

/-- The separators, and the width of `indent`. -/
structure Format where
  item : Text := ", ".toList
  key : Text := ": ".toList
  indent : Option Nat := none

/-- `separators=(',', ':')` -/
def compact : Format where
  item := [',']
  key := [':']

/-- `indent=4` -/
def indented : Format where
  item := [',']
  indent := some 4

/-! ## Strings -/

def hexDigit (n : Nat) : Char := "0123456789abcdef".toList.getD n '0'

/-- `'\\u{0:04x}'.format(n)` -/
def unicodeEscape (n : Nat) : Text :=
  ['\\', 'u', hexDigit (n / 4096 % 16), hexDigit (n / 256 % 16), hexDigit (n / 16 % 16),
    hexDigit (n % 16)]

/-- What `py_encode_basestring_ascii` writes for a character. -/
def escape (c : Char) : Text :=
  match c with
  | '"' => ['\\', '"']
  | '\\' => ['\\', '\\']
  | '\n' => ['\\', 'n']
  | '\r' => ['\\', 'r']
  | '\t' => ['\\', 't']
  | '\x0c' => ['\\', 'f']
  | '\x08' => ['\\', 'b']
  | c =>
      if ' ' ≤ c ∧ c ≤ '~' then [c]
      else if c.toNat < 0x10000 then unicodeEscape c.toNat
      else
        -- a surrogate pair
        let n := c.toNat - 0x10000
        unicodeEscape (0xd800 + n / 0x400) ++ unicodeEscape (0xdc00 + n % 0x400)

def quote (t : Text) : Text := '"' :: t.flatMap escape ++ ['"']

/-! ## Values -/

def newline (format : Format) (depth : Nat) : Text :=
  match format.indent with
  | none => []
  | some width => '\n' :: List.replicate (width * depth) ' '

/-- The entries of a list or a dictionary between its brackets. -/
def block (format : Format) (depth : Nat) (opening closing : Char) (entries : List Text) : Text :=
  if entries = [] then [opening, closing]
  else opening :: newline format (depth + 1) ++
    (format.item ++ newline format (depth + 1)).intercalate entries ++
    newline format depth ++ [closing]

/-- `sorted(dct.items())`; the keys differ. -/
def sortKeys (fields : List (Text × Text)) : List (Text × Text) :=
  fields.insertionSort fun x y => x.1 ≤ y.1

def entry (format : Format) (field : Text × Text) : Text :=
  quote field.1 ++ format.key ++ field.2

mutual

def dumpsAt (format : Format) : JsonValue → Nat → Text
  | .text value, _ => quote value
  | .int value, _ => decimal value
  | .array items, depth => block format depth '[' ']' (dumpsItems format items (depth + 1))
  | .object fields, depth =>
      block format depth '{' '}'
        ((sortKeys (dumpsFields format fields (depth + 1))).map (entry format))

def dumpsItems (format : Format) : List JsonValue → Nat → List Text
  | [], _ => []
  | item :: rest, depth => dumpsAt format item depth :: dumpsItems format rest depth

def dumpsFields (format : Format) : List (Text × JsonValue) → Nat → List (Text × Text)
  | [], _ => []
  | (key, value) :: rest, depth =>
      (key, dumpsAt format value depth) :: dumpsFields format rest depth

end

/-- `json.dumps(value, sort_keys=True)` in a format. -/
def dumps (format : Format) (value : JsonValue) : Text := dumpsAt format value 0

/-! ## The text is ASCII -/

def IsAscii (t : Text) : Prop := ∀ c ∈ t, c.toNat < 128

theorem IsAscii.append {t t' : Text} (h : IsAscii t) (h' : IsAscii t') : IsAscii (t ++ t') := by
  intro c hc
  rcases List.mem_append.mp hc with hc | hc
  · exact h c hc
  · exact h' c hc

theorem IsAscii.cons {c : Char} {t : Text} (hc : c.toNat < 128) (h : IsAscii t) :
    IsAscii (c :: t) :=
  List.forall_mem_cons.mpr ⟨hc, h⟩

theorem hexDigit_ascii (n : Nat) : (hexDigit (n % 16)).toNat < 128 := by
  have hall : ∀ v : Fin 16, (hexDigit v.val).toNat < 128 := by decide +kernel
  exact hall ⟨n % 16, Nat.mod_lt _ (by decide)⟩

theorem unicodeEscape_ascii (n : Nat) : IsAscii (unicodeEscape n) := by
  unfold unicodeEscape
  refine .cons (by decide) (.cons (by decide) (.cons (hexDigit_ascii _) (.cons (hexDigit_ascii _)
    (.cons (hexDigit_ascii _) (.cons (hexDigit_ascii _) ?_)))))
  simp [IsAscii]

theorem escape_ascii (c : Char) : IsAscii (escape c) := by
  unfold escape
  split
  · simp [IsAscii]
  · simp [IsAscii]
  · simp [IsAscii]
  · simp [IsAscii]
  · simp [IsAscii]
  · simp [IsAscii]
  · simp [IsAscii]
  · split
    · next hplain =>
      have hlast : c.toNat ≤ '~'.toNat := hplain.2
      exact .cons (Nat.lt_of_le_of_lt hlast (by decide)) (by simp [IsAscii])
    · split
      · exact unicodeEscape_ascii _
      · exact (unicodeEscape_ascii _).append (unicodeEscape_ascii _)

theorem quote_ascii (t : Text) : IsAscii (quote t) := by
  refine IsAscii.append (.cons (by decide) fun c hc => ?_) (by simp [IsAscii])
  obtain ⟨d, -, hd⟩ := List.mem_flatMap.mp hc
  exact escape_ascii d c hd

theorem decimal_ascii (n : Int) : IsAscii (decimal n) := by
  intro c hc
  rcases mem_decimal hc with hdigit | rfl
  · have hlast : c.toNat ≤ '9'.toNat := by
      simp only [Char.isDigit, Bool.and_eq_true, decide_eq_true_eq] at hdigit
      exact hdigit.2
    exact Nat.lt_of_le_of_lt hlast (by decide)
  · decide

theorem intercalate_ascii {sep : Text} (hsep : IsAscii sep) :
    ∀ {entries : List Text}, (∀ t ∈ entries, IsAscii t) → IsAscii (sep.intercalate entries)
  | [], _ => by simp [IsAscii, List.intercalate]
  | [t], hentries => by simpa [List.intercalate] using hentries
  | t :: t' :: rest, hentries => by
      have hrest := intercalate_ascii hsep fun x hx => hentries x (List.mem_cons_of_mem t hx)
      have hcons : sep.intercalate (t :: t' :: rest) =
          t ++ (sep ++ sep.intercalate (t' :: rest)) := by
        simp [List.intercalate]
      rw [hcons]
      exact (hentries t List.mem_cons_self).append (hsep.append hrest)

/-- The separators are ASCII. -/
structure Format.Ascii (format : Format) : Prop where
  item : IsAscii format.item
  key : IsAscii format.key

section Ascii

variable {format : Format}

theorem newline_ascii (format : Format) (depth : Nat) : IsAscii (newline format depth) := by
  unfold newline
  split
  · simp [IsAscii]
  · refine .cons (by decide) fun c hc => ?_
    rw [List.eq_of_mem_replicate hc]
    decide

theorem block_ascii (h : format.Ascii) {depth : Nat} {opening closing : Char}
    (hopening : opening.toNat < 128) (hclosing : closing.toNat < 128) {entries : List Text}
    (hentries : ∀ t ∈ entries, IsAscii t) :
    IsAscii (block format depth opening closing entries) := by
  have hlast : IsAscii [closing] := .cons hclosing (by simp [IsAscii])
  have hnewline := newline_ascii format
  unfold block
  split
  · exact .cons hopening hlast
  · have hentries := intercalate_ascii (h.item.append (hnewline (depth + 1))) hentries
    exact (((IsAscii.cons hopening (hnewline _)).append hentries).append (hnewline _)).append hlast

mutual

theorem dumpsAt_ascii (h : format.Ascii) : ∀ (value : JsonValue) (depth : Nat),
    IsAscii (dumpsAt format value depth)
  | .text value, _ => by
      simp only [dumpsAt]
      exact quote_ascii value
  | .int value, _ => by
      simp only [dumpsAt]
      exact decimal_ascii value
  | .array items, depth => by
      simp only [dumpsAt]
      exact block_ascii h (by decide) (by decide) (dumpsItems_ascii h items (depth + 1))
  | .object fields, depth => by
      simp only [dumpsAt]
      refine block_ascii h (by decide) (by decide) fun t ht => ?_
      obtain ⟨field, hfield, rfl⟩ := List.mem_map.mp ht
      have hvalue := dumpsFields_ascii h fields (depth + 1) field
        ((List.perm_insertionSort _ _).subset hfield)
      exact ((quote_ascii _).append h.key).append hvalue

theorem dumpsItems_ascii (h : format.Ascii) : ∀ (items : List JsonValue) (depth : Nat),
    ∀ t ∈ dumpsItems format items depth, IsAscii t
  | [], _ => by simp [dumpsItems]
  | item :: rest, depth => by
      simp only [dumpsItems, List.forall_mem_cons]
      exact ⟨dumpsAt_ascii h item depth, dumpsItems_ascii h rest depth⟩

theorem dumpsFields_ascii (h : format.Ascii) : ∀ (fields : List (Text × JsonValue)) (depth : Nat),
    ∀ field ∈ dumpsFields format fields depth, IsAscii field.2
  | [], _ => by simp [dumpsFields]
  | (_, value) :: rest, depth => by
      simp only [dumpsFields, List.forall_mem_cons]
      exact ⟨dumpsAt_ascii h value depth, dumpsFields_ascii h rest depth⟩

end

end Ascii

/-! ## Where a text comes back

A text carries others if it begins, up to them, with what does not depend on
them. -/

def Carries {ι : Type} (text carried : ι → Text) : Prop :=
  ∃ front, ∀ i, ∃ rest, text i = front ++ (carried i ++ rest)

section Carries

variable {ι : Type} {text carried : ι → Text} {format : Format} {depth : Nat}

/-- Carried texts of one length are told apart. -/
theorem Carries.injective (h : Carries text carried) {length : Nat}
    (hlength : ∀ i, (carried i).length = length) (hcarried : Function.Injective carried) :
    Function.Injective text := by
  obtain ⟨front, hfront⟩ := h
  intro i j hij
  obtain ⟨rest, hi⟩ := hfront i
  obtain ⟨rest', hj⟩ := hfront j
  rw [hi, hj] at hij
  have hsame := List.append_cancel_left hij
  exact hcarried (List.append_inj hsame ((hlength i).trans (hlength j).symm)).1

theorem Carries.behind (h : Carries text carried) (front : Text) {whole : ι → Text}
    (hwhole : ∀ i, ∃ rest, whole i = front ++ (text i ++ rest)) : Carries whole carried := by
  obtain ⟨front', hfront'⟩ := h
  refine ⟨front ++ front', fun i => ?_⟩
  obtain ⟨rest, hrest⟩ := hfront' i
  obtain ⟨rest', hrest'⟩ := hwhole i
  exact ⟨rest ++ rest', by rw [hrest', hrest]; simp⟩

theorem carries_text (value : ι → Text) :
    Carries (fun i => dumpsAt format (.text (value i)) depth) fun i => (value i).flatMap escape :=
  ⟨['"'], fun i => ⟨['"'], by simp only [dumpsAt, quote, List.cons_append, List.nil_append]⟩⟩

theorem intercalate_split (sep : Text) (before : List Text) (entry : Text) (after : List Text) :
    ∃ rest, sep.intercalate (before ++ entry :: after) =
      before.flatMap (· ++ sep) ++ (entry ++ rest) := by
  unfold List.intercalate
  induction before with
  | nil =>
      cases after with
      | nil => exact ⟨[], by simp⟩
      | cons next after => exact ⟨sep ++ (List.intersperse sep (next :: after)).flatten, by simp⟩
  | cons first before ih =>
      obtain ⟨rest, hrest⟩ := ih
      refine ⟨rest, ?_⟩
      have hcons : (List.intersperse sep (first :: (before ++ entry :: after))).flatten =
          first ++ (sep ++ (List.intersperse sep (before ++ entry :: after)).flatten) := by
        cases before with
        | nil => simp
        | cons second before => simp
      rw [List.cons_append, hcons, hrest]
      simp

theorem carries_block (opening closing : Char) (before : List Text) (after : ι → List Text)
    (h : Carries text carried) : Carries (fun i =>
      block format depth opening closing (before ++ text i :: after i)) carried := by
  let sep := format.item ++ newline format (depth + 1)
  refine h.behind (opening :: newline format (depth + 1) ++ before.flatMap (· ++ sep)) fun i => ?_
  obtain ⟨rest, hrest⟩ := intercalate_split sep before (text i) (after i)
  refine ⟨rest ++ (newline format depth ++ [closing]), ?_⟩
  unfold block
  rw [if_neg (by simp), hrest]
  simp

/-- The first item of a list. -/
theorem carries_array {value : ι → JsonValue} (after : ι → List JsonValue)
    (h : Carries (fun i => dumpsAt format (value i) (depth + 1)) carried) :
    Carries (fun i => dumpsAt format (.array (value i :: after i)) depth) carried := by
  simp only [dumpsAt, dumpsItems]
  exact carries_block '[' ']' [] _ h

theorem dumpsFields_eq (fields : List (Text × JsonValue)) : dumpsFields format fields depth =
    fields.map fun field => (field.1, dumpsAt format field.2 depth) := by
  induction fields with
  | nil => rfl
  | cons field rest ih => rw [dumpsFields, ih]; rfl

/-- Keys in their order stay where they are. -/
theorem dumpsAt_object {fields : List (Text × JsonValue)}
    (h : (fields.map Prod.fst).Pairwise (· ≤ ·)) : dumpsAt format (.object fields) depth =
      block format depth '{' '}'
        (fields.map fun field => entry format (field.1, dumpsAt format field.2 (depth + 1))) := by
  have hsorted : (fields.map fun field => (field.1, dumpsAt format field.2 (depth + 1))).Pairwise
      fun x y => x.1 ≤ y.1 := by
    rw [List.pairwise_map] at h ⊢
    exact h
  rw [dumpsAt, dumpsFields_eq, sortKeys, hsorted.insertionSort_eq, List.map_map]
  rfl

/-- An entry behind ones that stay. -/
theorem carries_object (before : List (Text × JsonValue)) (key : Text) {value : ι → JsonValue}
    (after : ι → List (Text × JsonValue))
    (hkeys : ∀ i, ((before ++ (key, value i) :: after i).map Prod.fst).Pairwise (· ≤ ·))
    (h : Carries (fun i => dumpsAt format (value i) (depth + 1)) carried) :
    Carries (fun i => dumpsAt format (.object (before ++ (key, value i) :: after i)) depth)
      carried := by
  have hentry : Carries (fun i => entry format (key, dumpsAt format (value i) (depth + 1)))
      carried :=
    h.behind (quote key ++ format.key) fun i => ⟨[], by simp [entry]⟩
  let line := fun field : Text × JsonValue =>
    entry format (field.1, dumpsAt format field.2 (depth + 1))
  have hblock : Carries (fun i => block format depth '{' '}'
      (before.map line ++ line (key, value i) :: (after i).map line)) carried :=
    carries_block '{' '}' (before.map line) (fun i => (after i).map line) hentry
  have hdumps : (fun i => dumpsAt format (.object (before ++ (key, value i) :: after i)) depth) =
      fun i => block format depth '{' '}'
        (before.map line ++ line (key, value i) :: (after i).map line) := by
    funext i
    rw [dumpsAt_object (hkeys i), List.map_append, List.map_cons]
  rw [hdumps]
  exact hblock

end Carries

end JsonValue

end VpnPanel.Lib
