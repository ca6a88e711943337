import VpnPanel.Lib.Hex

/-!
# Query strings

`urllib.parse.quote` with no safe characters, `urlencode` over it, and the
reading of a query string. A query that was written is read back field by field,
whatever characters its names and values have.
-/

namespace VpnPanel.Lib.Percent

/-- `str.encode()`. -/
def utf8 (t : Text) : List UInt8 := t.flatMap String.utf8EncodeChar

/-- `bytes.decode()`; nothing where it raises. -/
def ofUtf8? (bytes : List UInt8) : Option Text := bytes.toByteArray.utf8Decode?.map Array.toList

/-- The characters `quote` never escapes. -/
def unreserved (c : Char) : Bool := c.isAlphanum || c ∈ ['_', '.', '-', '~']

def quoteByte (b : UInt8) : Text :=
  let c := Char.ofNat b.toNat
  if unreserved c then [c] else '%' :: Hex.pair Hex.upper b

def quote (t : Text) : Text := (utf8 t).flatMap quoteByte

/-- The number of a digit of either case. -/
def digit? (c : Char) : Option Nat := (Hex.value? Hex.upper c).or (Hex.value? Hex.lower c)

/-- The byte of an escape. -/
def escaped? (a b : Char) : Option UInt8 := do return UInt8.ofNat (16 * (← digit? a) + (← digit? b))

/-- `unquote_to_bytes`: what is no escape stands for itself. -/
def unquoteBytes : Text → List UInt8
  | [] => []
  | c :: rest =>
      if c = '%' then
        match rest with
        | a :: b :: tail =>
            match escaped? a b with
            | some byte => byte :: unquoteBytes tail
            | none => utf8 [c] ++ unquoteBytes (a :: b :: tail)
        | short => utf8 [c] ++ unquoteBytes short
      else utf8 [c] ++ unquoteBytes rest

def unquote (t : Text) : Option Text := ofUtf8? (unquoteBytes t)

/-- A name and a value. -/
abbrev Field := Text × Text

def writeField (field : Field) : Text := quote field.1 ++ '=' :: quote field.2

/-- `urlencode` with `quote_via=quote`. -/
def urlencode (fields : List Field) : Text := ['&'].intercalate (fields.map writeField)

def readField (t : Text) : Option Field := do
  let (name, value) ← Text.partition ['='] t
  return (← unquote name, ← unquote value)

/-- The fields of a query string. -/
def readQuery (t : Text) : Option (List Field) := (t.splitOn '&').mapM readField

/-! ## Bytes -/

theorem ofUtf8?_utf8 (t : Text) : ofUtf8? (utf8 t) = some t := by
  have h : (utf8 t).toByteArray.utf8Decode? = some t.toArray := List.utf8Decode?_utf8Encode
  unfold ofUtf8?
  rw [h]
  simp

theorem utf8_of_ofUtf8? {bytes : List UInt8} {t : Text} (h : ofUtf8? bytes = some t) :
    utf8 t = bytes := by
  obtain ⟨chars, hchars, rfl⟩ := Option.map_eq_some_iff.mp h
  have hsome : bytes.toByteArray.utf8Decode?.isSome = true := by rw [hchars]; rfl
  have hget : bytes.toByteArray.utf8Decode?.get hsome = chars := by simp [hchars]
  have hread := ByteArray.utf8Encode_get_utf8Decode? (b := bytes.toByteArray) (h := hsome)
  rw [hget] at hread
  exact List.toByteArray_inj.mp hread

theorem unreserved_ascii {c : Char} (h : unreserved c = true) : c.toNat < 128 ∧ c ≠ '%' := by
  change (((decide (c.val ≥ 'A'.val ∧ c.val ≤ 'Z'.val) ||
    (c.val ≥ 'a'.val && c.val ≤ 'z'.val)) || (c.val ≥ '0'.val && c.val ≤ '9'.val)) ||
    decide (c ∈ ['_', '.', '-', '~'])) = true at h
  simp only [Bool.or_eq_true, Bool.and_eq_true, decide_eq_true_eq, List.mem_cons,
    List.not_mem_nil, or_false] at h
  constructor
  · rcases h with ((h | h) | h) | h | h | h | h
    · exact Nat.lt_of_le_of_lt h.2 (by decide)
    · exact Nat.lt_of_le_of_lt h.2 (by decide)
    · exact Nat.lt_of_le_of_lt h.2 (by decide)
    all_goals
      subst h
      decide
  · rintro rfl
    revert h
    decide

theorem utf8_ascii {c : Char} (h : c.toNat < 128) : utf8 [c] = [UInt8.ofNat c.toNat] := by
  have hsize : c.utf8Size = 1 := Char.utf8Size_eq_one_iff.mpr (Nat.le_of_lt_succ h)
  show String.utf8EncodeChar c ++ [] = _
  rw [List.append_nil, String.utf8EncodeChar_eq_singleton hsize]
  rfl

theorem escaped?_pair (b : UInt8) :
    escaped? (Hex.digit Hex.upper (b.toNat / 16)) (Hex.digit Hex.upper (b.toNat % 16)) =
      some b := by
  have hb : b.toNat < 256 := b.toNat_lt
  have hsum : 16 * (b.toNat / 16) + b.toNat % 16 = b.toNat := Nat.div_add_mod b.toNat 16
  unfold escaped? digit?
  rw [Hex.value?_digit (by omega), Hex.value?_digit (by omega)]
  show some (UInt8.ofNat _) = some b
  rw [hsum, UInt8.ofNat_toNat]

/-- A written byte is read back. -/
theorem unquoteBytes_quoteByte (b : UInt8) (rest : Text) :
    unquoteBytes (quoteByte b ++ rest) = b :: unquoteBytes rest := by
  unfold quoteByte
  dsimp only
  split
  · next h =>
      obtain ⟨hascii, hne⟩ := unreserved_ascii h
      have hb : b.toNat < 256 := b.toNat_lt
      have hvalid : b.toNat.isValidChar := .inl (by omega)
      have hnat : (Char.ofNat b.toNat).toNat = b.toNat := by
        unfold Char.ofNat
        rw [dif_pos hvalid]
        rfl
      show unquoteBytes (Char.ofNat b.toNat :: rest) = _
      rw [unquoteBytes.eq_def]
      dsimp only
      rw [if_neg hne, utf8_ascii hascii, hnat, UInt8.ofNat_toNat]
      rfl
  · show unquoteBytes ('%' :: _ :: _ :: rest) = _
    rw [unquoteBytes.eq_def]
    dsimp only
    rw [if_pos rfl, escaped?_pair]

theorem unquoteBytes_quoted (bytes : List UInt8) :
    unquoteBytes (bytes.flatMap quoteByte) = bytes := by
  induction bytes with
  | nil => rfl
  | cons b bytes ih => rw [List.flatMap_cons, unquoteBytes_quoteByte, ih]

theorem unquote_quote (t : Text) : unquote (quote t) = some t := by
  unfold unquote quote
  rw [unquoteBytes_quoted, ofUtf8?_utf8]

/-! ## Fields -/

/-- Neither separator is left in a quoted text. -/
theorem mem_quote {t : Text} {c : Char} (h : c ∈ quote t) : unreserved c = true ∨ c = '%' := by
  obtain ⟨b, -, hc⟩ := List.mem_flatMap.mp h
  have hdigits : Hex.upper.chars.all unreserved = true := by decide
  have hb : b.toNat < 256 := b.toNat_lt
  unfold quoteByte at hc
  dsimp only at hc
  split at hc
  · next hu =>
      rw [List.mem_singleton.mp hc]
      exact .inl hu
  · rcases List.mem_cons.mp hc with rfl | hc
    · exact .inr rfl
    · have hmem : c ∈ Hex.encode Hex.upper [b] := by simpa [Hex.encode] using hc
      exact .inl (List.all_eq_true.mp hdigits c (Hex.mem_encode hmem))

theorem notMem_quote {t : Text} {c : Char} (h : unreserved c = false) (hne : c ≠ '%') :
    c ∉ quote t := by
  intro hc
  rcases mem_quote hc with hu | heq
  · rw [h] at hu
    cases hu
  · exact hne heq

theorem readField_writeField (field : Field) : readField (writeField field) = some field := by
  obtain ⟨name, value⟩ := field
  have hpart : Text.partition ['='] (writeField (name, value)) = some (quote name, quote value) :=
    Text.partition_char (notMem_quote (by decide) (by decide))
  unfold readField
  rw [hpart]
  simp [unquote_quote]

/-- **A query string is read back.** -/
theorem readQuery_urlencode {fields : List Field} (h : fields ≠ []) :
    readQuery (urlencode fields) = some fields := by
  have hsplit : (urlencode fields).splitOn '&' = fields.map writeField := by
    refine List.splitOn_intercalate '&' ?_ (by simpa using h)
    intro line hline
    obtain ⟨field, -, rfl⟩ := List.mem_map.mp hline
    have hquote : ∀ t : Text, '&' ∉ quote t := fun t => notMem_quote (by decide) (by decide)
    simp [writeField, hquote]
  unfold readQuery
  rw [hsplit]
  clear hsplit h
  induction fields with
  | nil => rfl
  | cons field fields ih =>
      rw [List.map_cons, List.mapM_cons, readField_writeField, ih]
      rfl

end VpnPanel.Lib.Percent
