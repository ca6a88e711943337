import VpnPanel.Lib.Text

/-!
# Numbers in texts

Python's `int` of a text: blanks around it, a sign, and decimal digits of any
script with single underscores between them, 4300 at most. What the digits of
other scripts are is left open.
-/

namespace VpnPanel.Lib

open Text

/-- The digits that `int` reads. -/
structure Digits where
  value? : Char → Option Nat
  ascii : ∀ c, c.isDigit = true → value? c = some (c.toNat - '0'.toNat)
  other : ∀ c, c.toNat < 128 → c.isDigit = false → value? c = none

namespace Digits

/-- No script but ASCII. -/
def asciiOnly : Digits where
  value? c := if c.isDigit then some (c.toNat - '0'.toNat) else none
  ascii _ h := if_pos h
  other _ _ h := if_neg (by simp [h])

variable (D : Digits)

/-- The separators of ASCII are no blanks to `int`. -/
def isBlank (c : Char) : Bool := isSpace c && !(0x1c ≤ c.toNat && c.toNat ≤ 0x1f)

/-- The digits of a number. -/
def nat? (t : Text) : Option Nat :=
  let parts := t.splitOn '_'
  if parts.any List.isEmpty ∨ 4300 < parts.flatten.length then none
  else (parts.flatten.mapM D.value?).map (·.foldl (fun n digit => n * 10 + digit) 0)

/-- A number with its sign. -/
def signed? : Text → Option Int
  | '-' :: digits => (D.nat? digits).map fun n => -(n : Int)
  | '+' :: digits => (D.nat? digits).map Int.ofNat
  | digits => (D.nat? digits).map Int.ofNat

/-- `int(t)`; nothing is the result where it raises. -/
def int? (t : Text) : Option Int := D.signed? ((t.dropWhile isBlank).rdropWhile isBlank)

variable {D}

theorem mapM_ascii {t : Text} (h : ∀ c ∈ t, c.isDigit = true) :
    t.mapM D.value? = some (t.map fun c => c.toNat - '0'.toNat) := by
  induction t with
  | nil => rfl
  | cons c rest ih =>
      rw [List.mapM_cons, D.ascii c (h c List.mem_cons_self),
        ih fun d hd => h d (List.mem_cons_of_mem _ hd)]
      rfl

theorem nat?_toDigits {n : Nat} (h : (Nat.toDigits 10 n).length ≤ 4300) :
    D.nat? (Nat.toDigits 10 n) = some n := by
  have hdigits : ∀ c ∈ Nat.toDigits 10 n, c.isDigit = true :=
    fun c hc => Nat.isDigit_of_mem_toDigits (by decide) (by decide) hc
  have hwhole : (Nat.toDigits 10 n).splitOn '_' = [Nat.toDigits 10 n] :=
    List.splitOn_eq_singleton Nat.underscore_not_in_toDigits
  have hok : ¬([Nat.toDigits 10 n].any List.isEmpty = true ∨
      4300 < [Nat.toDigits 10 n].flatten.length) := by
    rintro (hempty | hlong)
    · rw [List.any_cons, List.any_nil, Bool.or_false, List.isEmpty_iff] at hempty
      exact Nat.toDigits_ne_nil hempty
    · rw [List.flatten_singleton] at hlong
      exact absurd h (not_le.mpr hlong)
  unfold nat?
  dsimp only
  rw [hwhole, if_neg hok, List.flatten_singleton, mapM_ascii hdigits, Option.map_some,
    List.foldl_map]
  refine congrArg some (Eq.trans ?_ (Nat.ofDigitChars_ten_toDigits (n := n)))
  rw [Nat.ofDigitChars_eq_foldl]
  simp only [Nat.mul_comm]

theorem isSpace_of_isDigit {c : Char} (h : c.isDigit = true) : isSpace c = false := by
  have hlow : c.toNat ≤ 57 := by
    unfold Char.isDigit at h
    rw [Bool.and_eq_true, decide_eq_true_eq, decide_eq_true_eq] at h
    exact UInt32.le_iff_toNat_le.mp h.2
  have hnot : ∀ l : Text, l.any Char.isDigit = false → decide (c ∈ l) = false := by
    refine fun l hl => decide_eq_false fun hmem => ?_
    exact Bool.false_ne_true (hl.symm.trans (List.any_eq_true.mpr ⟨c, hmem, h⟩))
  unfold isSpace isLineBreak
  rw [hnot ['\n', '\r', '\x0b', '\x0c', '\x1c', '\x1d', '\x1e', '\u0085', '\u2028', '\u2029']
      (by decide),
    hnot ['\t', ' ', '\x1f', '\u00a0', '\u1680', '\u202f', '\u205f', '\u3000'] (by decide)]
  simp only [Bool.false_or, Bool.and_eq_false_iff, decide_eq_false_iff_not, not_le]
  exact .inl (hlow.trans_lt (by decide))

theorem isBlank_of_isSpace {c : Char} (h : isSpace c = false) : isBlank c = false := by
  unfold isBlank
  rw [h, Bool.false_and]

/-- A text that neither starts nor ends with a blank is taken as it is. -/
theorem trimmed {t : Text} (h : ∀ c ∈ t, isBlank c = false) :
    (t.dropWhile isBlank).rdropWhile isBlank = t := by
  have hdrop : t.dropWhile isBlank = t := by
    cases t with
    | nil => rfl
    | cons c rest => exact List.dropWhile_cons_of_neg (by simp [h c List.mem_cons_self])
  rw [hdrop]
  refine (List.rdropWhile_eq_self_iff ..).mpr fun hne => ?_
  simp [h _ (List.getLast_mem hne)]

theorem isBlank_decimal (n : Int) : ∀ c ∈ decimal n, isBlank c = false := by
  intro c hc
  rcases mem_decimal hc with hdigit | rfl
  · exact isBlank_of_isSpace (isSpace_of_isDigit hdigit)
  · decide

/-- What `str` writes `int` reads back. -/
theorem int?_decimal {n : Int} (h : (Nat.toDigits 10 n.natAbs).length ≤ 4300) :
    D.int? (decimal n) = some n := by
  unfold int?
  rw [trimmed (isBlank_decimal n)]
  cases n with
  | ofNat n =>
      have hread : D.nat? (Nat.toDigits 10 n) = some n := nat?_toDigits h
      have hdigit : ∀ c ∈ Nat.toDigits 10 n, c.isDigit = true :=
        fun c hc => Nat.isDigit_of_mem_toDigits (by decide) (by decide) hc
      show D.signed? (Nat.toDigits 10 n) = _
      unfold signed?
      split
      · next heq => exact absurd (hdigit '-' (heq ▸ List.mem_cons_self)) (by decide)
      · next heq => exact absurd (hdigit '+' (heq ▸ List.mem_cons_self)) (by decide)
      · rw [hread]
        rfl
  | negSucc n =>
      have hread : D.nat? (Nat.toDigits 10 (n + 1)) = some (n + 1) := nat?_toDigits h
      show (D.nat? (Nat.toDigits 10 (n + 1))).map (fun n => -(n : Int)) = _
      rw [hread]
      rfl

end Digits

end VpnPanel.Lib
