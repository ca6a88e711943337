import Mathlib.Data.List.GetD
import Mathlib.Data.List.Nodup
import VpnPanel.Lib.Text

/-!
# Hexadecimal text

Bytes written with two digits each, over an alphabet of sixteen distinct digits.
`encode` and `decode` are inverse to each other: a text of digits of even length
is the text of exactly one list of bytes.
-/

namespace VpnPanel.Lib.Hex

/-- Sixteen digits, all different. -/
structure Digits where
  chars : Text
  length : chars.length = 16
  nodup : chars.Nodup

/-- The digits of `bytes.hex()`. -/
def lower : Digits := ⟨"0123456789abcdef".toList, rfl, by decide⟩

/-- The digits of a percent escape. -/
def upper : Digits := ⟨"0123456789ABCDEF".toList, rfl, by decide⟩

variable (digits : Digits)

def digit (v : Nat) : Char := digits.chars.getD v '0'

/-- The number of a digit. -/
def value? (c : Char) : Option Nat :=
  if c ∈ digits.chars then some (digits.chars.idxOf c) else none

/-- The two digits of a byte. -/
def pair (b : UInt8) : Text := [digit digits (b.toNat / 16), digit digits (b.toNat % 16)]

def encode (bytes : List UInt8) : Text := bytes.flatMap (pair digits)

def decode : Text → Option (List UInt8)
  | [] => some []
  | [_] => none
  | a :: b :: rest =>
      match value? digits a, value? digits b with
      | some x, some y => (decode rest).map (UInt8.ofNat (16 * x + y) :: ·)
      | _, _ => none

/-! ## Digits -/

variable {digits}

theorem digit_mem {v : Nat} (h : v < 16) : digit digits v ∈ digits.chars := by
  have hlt : v < digits.chars.length := digits.length ▸ h
  unfold digit
  rw [List.getD_eq_getElem _ _ hlt]
  exact List.getElem_mem hlt

theorem value?_digit {v : Nat} (h : v < 16) : value? digits (digit digits v) = some v := by
  have hlt : v < digits.chars.length := digits.length ▸ h
  unfold value?
  rw [if_pos (digit_mem h)]
  unfold digit
  rw [List.getD_eq_getElem _ _ hlt]
  exact congrArg some (List.get_idxOf digits.nodup ⟨v, hlt⟩)

theorem digit_of_value? {c : Char} {v : Nat} (h : value? digits c = some v) :
    v < 16 ∧ digit digits v = c := by
  unfold value? at h
  split at h
  · next hc =>
      cases h
      have hlt := List.idxOf_lt_length_of_mem hc
      refine ⟨digits.length ▸ hlt, ?_⟩
      unfold digit
      rw [List.getD_eq_getElem _ _ hlt]
      exact List.getElem_idxOf hlt
  · cases h

/-- The two digits of a byte are read back. -/
theorem decode_pair (b : UInt8) (rest : Text) :
    decode digits (pair digits b ++ rest) = (decode digits rest).map (b :: ·) := by
  have hb : b.toNat < 256 := b.toNat_lt
  have hsum : 16 * (b.toNat / 16) + b.toNat % 16 = b.toNat := Nat.div_add_mod b.toNat 16
  unfold pair
  rw [List.cons_append, List.cons_append, List.nil_append, decode,
    value?_digit (by omega), value?_digit (by omega)]
  dsimp only
  rw [hsum, UInt8.ofNat_toNat]

/-! ## Round trips -/

theorem decode_encode (bytes : List UInt8) : decode digits (encode digits bytes) = some bytes := by
  induction bytes with
  | nil => rfl
  | cons b bytes ih =>
      show decode digits (pair digits b ++ encode digits bytes) = _
      rw [decode_pair, ih]
      rfl

theorem length_encode (bytes : List UInt8) :
    (encode digits bytes).length = 2 * bytes.length := by
  induction bytes with
  | nil => rfl
  | cons b bytes ih =>
      show (pair digits b ++ encode digits bytes).length = _
      rw [List.length_append, ih, List.length_cons]
      show 2 + 2 * bytes.length = _
      omega

theorem mem_encode {bytes : List UInt8} {c : Char} (h : c ∈ encode digits bytes) :
    c ∈ digits.chars := by
  obtain ⟨b, -, hc⟩ := List.mem_flatMap.mp h
  have hb : b.toNat < 256 := b.toNat_lt
  unfold pair at hc
  rcases List.mem_cons.mp hc with rfl | hc
  · exact digit_mem (by omega)
  · rw [List.mem_singleton.mp hc]
    exact digit_mem (by omega)

/-- A text of digits of even length is the text of its bytes. -/
theorem exists_encode : ∀ {t : Text} {n : Nat}, t.length = 2 * n →
    (∀ c ∈ t, c ∈ digits.chars) → ∃ bytes, bytes.length = n ∧ encode digits bytes = t
  | [], n, hlen, _ => ⟨[], by rw [List.length_nil] at hlen ⊢; omega, rfl⟩
  | [_], n, hlen, _ => by
      rw [List.length_singleton] at hlen
      omega
  | a :: b :: rest, n, hlen, h => by
      have hrest : rest.length = 2 * (n - 1) := by
        rw [List.length_cons, List.length_cons] at hlen
        omega
      obtain ⟨bytes, hn, rfl⟩ := exists_encode hrest
        fun c hc => h c (List.mem_cons_of_mem _ (List.mem_cons_of_mem _ hc))
      have hx : value? digits a = some _ := if_pos (h a List.mem_cons_self)
      have hy : value? digits b = some _ :=
        if_pos (h b (List.mem_cons_of_mem _ List.mem_cons_self))
      obtain ⟨hx16, hxa⟩ := digit_of_value? hx
      obtain ⟨hy16, hyb⟩ := digit_of_value? hy
      let byte := UInt8.ofNat (16 * digits.chars.idxOf a + digits.chars.idxOf b)
      have hbyte : byte.toNat = 16 * digits.chars.idxOf a + digits.chars.idxOf b := by
        show (UInt8.ofNat _).toNat = _
        rw [UInt8.toNat_ofNat']
        omega
      refine ⟨byte :: bytes, ?_, ?_⟩
      · rw [List.length_cons] at hlen ⊢
        rw [List.length_cons] at hlen
        omega
      · show pair digits byte ++ encode digits bytes = _
        have hhigh : byte.toNat / 16 = digits.chars.idxOf a := by omega
        have hlow : byte.toNat % 16 = digits.chars.idxOf b := by omega
        unfold pair
        rw [hhigh, hlow, hxa, hyb]
        rfl

end VpnPanel.Lib.Hex
