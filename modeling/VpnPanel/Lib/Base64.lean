import VpnPanel.Lib.Text

/-!
# Base64

`base64.b64encode` and the lenient `base64.b64decode`, which skips characters
outside the alphabet and stops at a complete padding. The url-safe decoder reads
`-` and `_` as `+` and `/`, which it reads as well.
-/

namespace VpnPanel.Lib

abbrev Byte := Fin 256

/-- The last byte of a number. -/
def Byte.ofNat (n : Nat) : Byte := Fin.ofNat 256 n

namespace Base64

def alphabet : Text :=
  "ABCDEFGHIJKLMNOPQRSTUVWXYZabcdefghijklmnopqrstuvwxyz0123456789+/".toList

/-- The character of six bits. -/
def sextet (v : Nat) : Char := alphabet.getD v 'A'

/-- The six bits of a character. -/
def value? (c : Char) : Option Nat := alphabet.idxOf? c

def encode : List Byte → Text
  | [] => []
  | [a] => [sextet (a / 4), sextet (a % 4 * 16), '=', '=']
  | [a, b] => [sextet (a / 4), sextet (a % 4 * 16 + b / 16), sextet (b % 16 * 4), '=']
  | a :: b :: c :: rest =>
      sextet (a / 4) :: sextet (a % 4 * 16 + b / 16) :: sextet (b % 16 * 4 + c / 64) ::
        sextet (c % 64) :: encode rest

/-- `binascii.a2b_base64`: `quad` characters of the group were read, `left` bits
are over, `pads` paddings were seen in a row. -/
def a2b : Text → Nat → Nat → Nat → Option (List Byte)
  | [], quad, _, _ => if quad = 0 then some [] else none
  | c :: rest, quad, left, pads =>
      if c = '=' then
        if quad ≥ 2 then
          if quad + (pads + 1) ≥ 4 then some [] else a2b rest quad left (pads + 1)
        else a2b rest quad left pads
      else match value? c with
      | none => a2b rest quad left pads
      | some v =>
          match quad with
          | 0 => a2b rest 1 v 0
          | 1 => (a2b rest 2 (v % 16) 0).map (Fin.ofNat 256 (left * 4 + v / 16) :: ·)
          | 2 => (a2b rest 3 (v % 4) 0).map (Fin.ofNat 256 (left * 16 + v / 4) :: ·)
          | _ => (a2b rest 0 0 0).map (Fin.ofNat 256 (left * 64 + v) :: ·)

/-- `base64.b64decode`; nothing where it raises `binascii.Error`. -/
def decode (t : Text) : Option (List Byte) := a2b t 0 0 0

/-- `base64.urlsafe_b64decode`. -/
def urlsafeDecode (t : Text) : Option (List Byte) :=
  decode (t.map fun c => if c = '-' then '+' else if c = '_' then '/' else c)

/-- `base64.urlsafe_b64encode`. -/
def urlsafeEncode (bytes : List Byte) : Text :=
  (encode bytes).map fun c => if c = '+' then '-' else if c = '/' then '_' else c

/-- `str.rstrip('=')`. -/
def stripPadding (t : Text) : Text := t.rdropWhile (· = '=')

/-- The padding that makes the length a multiple of four. -/
def pad (t : Text) : Text := t ++ List.replicate ((4 - t.length % 4) % 4) '='

/-! ## Round trip -/

theorem value?_sextet {v : Nat} (h : v < 64) : value? (sextet v) = some v := by
  have hall : ∀ v : Fin 64, value? (sextet v) = some (v : Nat) := by decide +kernel
  exact hall ⟨v, h⟩

theorem sextet_ne {v : Nat} (h : v < 64) :
    sextet v ≠ '=' ∧ sextet v ≠ '-' ∧ sextet v ≠ '_' ∧ (sextet v).toNat < 128 := by
  have hall : ∀ v : Fin 64, sextet v ≠ '=' ∧ sextet v ≠ '-' ∧ sextet v ≠ '_' ∧
      (sextet v).toNat < 128 := by decide +kernel
  exact hall ⟨v, h⟩

/-! A character of the alphabet is read as its six bits. -/

section Read

variable {v : Nat} (h : v < 64) (rest : Text) (left pads : Nat)

include h

theorem a2b_first : a2b (sextet v :: rest) 0 left pads = a2b rest 1 v 0 := by
  rw [a2b, if_neg (sextet_ne h).1, value?_sextet h]
  rfl

theorem a2b_second : a2b (sextet v :: rest) 1 left pads =
    (a2b rest 2 (v % 16) 0).map (Fin.ofNat 256 (left * 4 + v / 16) :: ·) := by
  rw [a2b, if_neg (sextet_ne h).1, value?_sextet h]
  rfl

theorem a2b_third : a2b (sextet v :: rest) 2 left pads =
    (a2b rest 3 (v % 4) 0).map (Fin.ofNat 256 (left * 16 + v / 4) :: ·) := by
  rw [a2b, if_neg (sextet_ne h).1, value?_sextet h]
  rfl

theorem a2b_fourth : a2b (sextet v :: rest) 3 left pads =
    (a2b rest 0 0 0).map (Fin.ofNat 256 (left * 64 + v) :: ·) := by
  rw [a2b, if_neg (sextet_ne h).1, value?_sextet h]
  rfl

end Read

theorem ofNat_eq {n : Nat} {a : Byte} (h : n = a.val) : Fin.ofNat 256 n = a := by
  subst h
  exact Fin.ofNat_val_eq_self a

theorem decode_encode (bytes : List Byte) : decode (encode bytes) = some bytes := by
  unfold decode
  induction bytes using encode.induct with
  | case1 => rfl
  | case2 a =>
      have ha : Fin.ofNat 256 (a / 4 * 4 + a % 4 * 16 / 16) = a := ofNat_eq (by omega)
      rw [encode, a2b_first (by omega), a2b_second (by omega), ha]
      rfl
  | case3 a b =>
      have ha : Fin.ofNat 256 (a / 4 * 4 + (a % 4 * 16 + b / 16) / 16) = a := ofNat_eq (by omega)
      have hb : Fin.ofNat 256 ((a % 4 * 16 + b / 16) % 16 * 16 + b % 16 * 4 / 4) = b :=
        ofNat_eq (by omega)
      rw [encode, a2b_first (by omega), a2b_second (by omega), a2b_third (by omega), ha, hb]
      rfl
  | case4 a b c rest ih =>
      have ha : Fin.ofNat 256 (a / 4 * 4 + (a % 4 * 16 + b / 16) / 16) = a := ofNat_eq (by omega)
      have hb : Fin.ofNat 256 ((a % 4 * 16 + b / 16) % 16 * 16 + (b % 16 * 4 + c / 64) / 4) = b :=
        ofNat_eq (by omega)
      have hc : Fin.ofNat 256 ((b % 16 * 4 + c / 64) % 4 * 64 + c % 64) = c := ofNat_eq (by omega)
      rw [encode, a2b_first (by omega), a2b_second (by omega), a2b_third (by omega),
        a2b_fourth (by omega), ih, ha, hb, hc]
      rfl

/-- Standard base64 holds none of the characters that are translated. -/
theorem mem_encode {bytes : List Byte} {c : Char} (h : c ∈ encode bytes) :
    c ≠ '-' ∧ c ≠ '_' ∧ c.toNat < 128 := by
  induction bytes using encode.induct with
  | case1 => cases h
  | case2 a =>
      simp only [encode, List.mem_cons, List.not_mem_nil, or_false] at h
      rcases h with rfl | rfl | rfl | rfl
      · exact (sextet_ne (by omega)).2
      · exact (sextet_ne (by omega)).2
      · decide
      · decide
  | case3 a b =>
      simp only [encode, List.mem_cons, List.not_mem_nil, or_false] at h
      rcases h with rfl | rfl | rfl | rfl
      · exact (sextet_ne (by omega)).2
      · exact (sextet_ne (by omega)).2
      · exact (sextet_ne (by omega)).2
      · decide
  | case4 a b d rest ih =>
      simp only [encode, List.mem_cons] at h
      rcases h with rfl | rfl | rfl | rfl | h
      · exact (sextet_ne (by omega)).2
      · exact (sextet_ne (by omega)).2
      · exact (sextet_ne (by omega)).2
      · exact (sextet_ne (by omega)).2
      · exact ih h

theorem urlsafeDecode_encode (bytes : List Byte) : urlsafeDecode (encode bytes) = some bytes := by
  have hsame : (encode bytes).map (fun c => if c = '-' then '+' else if c = '_' then '/' else c) =
      encode bytes := by
    refine (List.map_congr_left fun c hc => ?_).trans (List.map_id _)
    obtain ⟨hminus, hscore, -⟩ := mem_encode hc
    rw [if_neg hminus, if_neg hscore]
    rfl
  unfold urlsafeDecode
  rw [hsame, decode_encode]

/-- What is left of an encoding without its padding tells how much that was. -/
theorem encode_padding (bytes : List Byte) : ∃ body : Text, encode bytes = pad body ∧
    ∀ c ∈ body, c ≠ '=' := by
  induction bytes using encode.induct with
  | case1 => exact ⟨[], rfl, by simp⟩
  | case2 a =>
      refine ⟨[sextet (a / 4), sextet (a % 4 * 16)], rfl, ?_⟩
      simp only [List.forall_mem_cons]
      exact ⟨(sextet_ne (by omega)).1, (sextet_ne (by omega)).1, by simp⟩
  | case3 a b =>
      refine ⟨[sextet (a / 4), sextet (a % 4 * 16 + b / 16), sextet (b % 16 * 4)], rfl, ?_⟩
      simp only [List.forall_mem_cons]
      exact ⟨(sextet_ne (by omega)).1, (sextet_ne (by omega)).1, (sextet_ne (by omega)).1, by simp⟩
  | case4 a b c rest ih =>
      obtain ⟨body, heq, hbody⟩ := ih
      refine ⟨sextet (a / 4) :: sextet (a % 4 * 16 + b / 16) :: sextet (b % 16 * 4 + c / 64) ::
        sextet (c % 64) :: body, ?_, ?_⟩
      · have hlength : (body.length + 1 + 1 + 1 + 1) % 4 = body.length % 4 := by omega
        rw [encode, heq]
        simp [pad, hlength]
      · simp only [List.forall_mem_cons]
        exact ⟨(sextet_ne (by omega)).1, (sextet_ne (by omega)).1, (sextet_ne (by omega)).1,
          (sextet_ne (by omega)).1, hbody⟩

theorem stripPadding_pad {t : Text} (h : ∀ c ∈ t, c ≠ '=') : stripPadding (pad t) = t := by
  unfold stripPadding pad List.rdropWhile
  rw [List.reverse_append, List.reverse_replicate, List.dropWhile_append_of_pos (by simp)]
  have hkeep : t.reverse.dropWhile (fun c => decide (c = '=')) = t.reverse := by
    rw [List.dropWhile_eq_self_iff]
    intro hpos
    simpa using h _ (List.mem_reverse.mp (List.getElem_mem hpos))
  rw [hkeep, List.reverse_reverse]

/-- **The padding can be left out.** -/
theorem urlsafeDecode_stripped (bytes : List Byte) :
    urlsafeDecode (pad (stripPadding (urlsafeEncode bytes))) = some bytes := by
  obtain ⟨body, hencode, hbody⟩ := encode_padding bytes
  have hpad : urlsafeEncode bytes =
      pad (body.map fun c => if c = '+' then '-' else if c = '/' then '_' else c) := by
    unfold urlsafeEncode
    rw [hencode]
    simp [pad]
  have hclean : ∀ c ∈ body.map (fun c => if c = '+' then '-' else if c = '/' then '_' else c),
      c ≠ '=' := by
    intro c hc
    obtain ⟨d, hd, rfl⟩ := List.mem_map.mp hc
    have hne := hbody d hd
    split
    · decide
    · split
      · decide
      · exact hne
  have hback : (urlsafeEncode bytes).map
      (fun c => if c = '-' then '+' else if c = '_' then '/' else c) = encode bytes := by
    unfold urlsafeEncode
    rw [List.map_map]
    refine (List.map_congr_left fun c hc => ?_).trans (List.map_id _)
    obtain ⟨hminus, hscore, -⟩ := mem_encode hc
    show (if (if c = '+' then '-' else if c = '/' then '_' else c) = '-' then '+' else _) = c
    by_cases hplus : c = '+'
    · simp [hplus]
    · by_cases hslash : c = '/'
      · simp [hslash]
      · simp [hplus, hslash, hminus, hscore]
  have hwhole : pad (stripPadding (urlsafeEncode bytes)) = urlsafeEncode bytes := by
    rw [hpad, stripPadding_pad hclean]
  unfold urlsafeDecode
  rw [hwhole, hback, decode_encode]

theorem length_encode (bytes : List Byte) :
    (encode bytes).length = 4 * ((bytes.length + 2) / 3) := by
  induction bytes using encode.induct with
  | case1 => rfl
  | case2 a => simp [encode]
  | case3 a b => simp [encode]
  | case4 a b c rest ih =>
      simp only [encode, List.length_cons, ih]
      omega

end Base64

end VpnPanel.Lib
