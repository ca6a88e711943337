import VpnPanel.Lib.Text
import VpnPanel.Lib.Unicode

/-!
# Lower case

`str.lower` as the standard library documents it: every character is replaced in
its place, by a text that may depend on its neighbours. ASCII characters take
their lower-case form; any other one stays or becomes a text without blanks
whose only ASCII characters are lower-case letters. What a character becomes is
in lower case, so it stays. The table of the other characters is left open.
-/

namespace VpnPanel.Lib

open Text

structure Lowering where
  /-- What a character becomes between the text before it and the text after it. -/
  char : Text → Char → Text → Text
  ascii : ∀ before c after, c.toNat < 128 → char before c after = [c.toLower]
  nonempty : ∀ before c after, char before c after ≠ []
  other : ∀ before c after, 128 ≤ c.toNat → ∀ d ∈ char before c after,
    d = c ∨ (isSpace d = false ∧ (d.toNat < 128 → d.isLower = true))
  stable : ∀ before c after, ∀ d ∈ char before c after, ∀ before' after',
    char before' d after' = [d]

namespace Lowering

/-- What a capital of ASCII becomes; the others stay. -/
theorem toLower_cases (c : Char) : c.toLower = c ∨
    (c.toLower.toNat = c.toNat + 32 ∧ c.toNat ≤ 90 ∧ 65 ≤ c.toNat) := by
  unfold Char.toLower
  split
  · next hupper =>
      have hlow : 65 ≤ c.val.toNat := UInt32.le_iff_toNat_le.mp hupper.1
      have hhigh : c.val.toNat ≤ 90 := UInt32.le_iff_toNat_le.mp hupper.2
      have hdiff : ('a'.val - 'A'.val).toNat = 32 := rfl
      refine .inr ⟨?_, hhigh, hlow⟩
      show (c.val + ('a'.val - 'A'.val)).toNat = c.val.toNat + 32
      rw [UInt32.toNat_add, hdiff]
      omega
  · exact .inl rfl

theorem toNat_toLower {c : Char} (h : c.toNat < 128) : c.toLower.toNat < 128 := by
  rcases toLower_cases c with hsame | ⟨hval, hhigh, -⟩
  · rw [hsame]
    exact h
  · omega

theorem toLower_toLower (c : Char) : c.toLower.toLower = c.toLower := by
  rcases toLower_cases c with hsame | ⟨hval, -, hlow⟩
  · rw [hsame, hsame]
  · rcases toLower_cases c.toLower with hsame | ⟨-, hhigh, -⟩
    · exact hsame
    · omega

/-- ASCII letters only. -/
def asciiOnly : Lowering where
  char _ c _ := if c.toNat < 128 then [c.toLower] else [c]
  ascii _ _ _ h := if_pos h
  nonempty _ c _ := by split <;> simp
  other _ c _ h d hd := by
    rw [if_neg (Nat.not_lt.mpr h)] at hd
    exact .inl (List.mem_singleton.mp hd)
  stable _ c _ d hd _ _ := by
    split at hd
    · next h =>
        rw [List.mem_singleton.mp hd, if_pos (toNat_toLower h), toLower_toLower]
    · next h => rw [List.mem_singleton.mp hd, if_neg h]

variable (L : Lowering)

def after (before : Text) : Text → Text
  | [] => []
  | c :: rest => L.char before c rest ++ after (before ++ [c]) rest

/-- `str.lower`. -/
def lower (t : Text) : Text := L.after [] t

variable {L}

/-! ## ASCII -/

theorem after_ascii {t : Text} (h : ∀ c ∈ t, c.toNat < 128) : ∀ before,
    L.after before t = t.map Char.toLower := by
  induction t with
  | nil => exact fun _ => rfl
  | cons c t ih =>
      intro before
      show L.char before c t ++ L.after (before ++ [c]) t = _
      rw [L.ascii _ _ _ (h c List.mem_cons_self), ih fun d hd => h d (List.mem_cons_of_mem _ hd)]
      rfl

theorem lower_ascii {t : Text} (h : ∀ c ∈ t, c.toNat < 128) : L.lower t = t.map Char.toLower :=
  after_ascii h []

/-- An ASCII text without capitals stays. -/
theorem lower_eq_self {t : Text} (h : ∀ c ∈ t, c.toNat < 128 ∧ c.toLower = c) :
    L.lower t = t := by
  rw [lower_ascii fun c hc => (h c hc).1]
  exact (List.map_congr_left fun c hc => (h c hc).2).trans (List.map_id _)

/-! ## Any text -/

theorem after_stable {t : Text} (h : ∀ d ∈ t, ∀ before after, L.char before d after = [d]) :
    ∀ before, L.after before t = t := by
  induction t with
  | nil => exact fun _ => rfl
  | cons c t ih =>
      intro before
      show L.char before c t ++ L.after (before ++ [c]) t = _
      rw [h c List.mem_cons_self, ih fun d hd => h d (List.mem_cons_of_mem _ hd)]
      rfl

/-- Each character of a result replaces one of the text. -/
theorem exists_of_mem_after {t : Text} {d : Char} : ∀ {before : Text}, d ∈ L.after before t →
    ∃ before' c after', d ∈ L.char before' c after' := by
  induction t with
  | nil => exact nofun
  | cons c t ih =>
      intro before hd
      rcases List.mem_append.mp hd with hd | hd
      · exact ⟨before, c, t, hd⟩
      · exact ih hd

/-- A lowered text stays. -/
theorem lower_lower (t : Text) : L.lower (L.lower t) = L.lower t := by
  refine after_stable (fun d hd => ?_) []
  obtain ⟨before, c, after, hd⟩ := exists_of_mem_after hd
  exact L.stable before c after d hd

theorem lower_eq_nil {t : Text} : L.lower t = [] ↔ t = [] := by
  cases t with
  | nil => exact ⟨fun _ => rfl, fun _ => rfl⟩
  | cons c t =>
      refine ⟨fun h => ?_, nofun⟩
      exact absurd (List.append_eq_nil_iff.mp h).1 (L.nonempty [] c t)

theorem isLower_iff {c : Char} : c.isLower = true ↔ 97 ≤ c.toNat ∧ c.toNat ≤ 122 := by
  change (decide (c.val ≥ 'a'.val) && decide (c.val ≤ 'z'.val)) = true ↔ _
  rw [Bool.and_eq_true, decide_eq_true_eq, decide_eq_true_eq]
  exact and_congr UInt32.le_iff_toNat_le UInt32.le_iff_toNat_le

/-- A character with a lower-case form of its own is a letter. -/
theorem toLower_eq {c d : Char} (h : c.toLower = d) (hd : d.isLower = false) : c = d := by
  rcases toLower_cases c with hsame | ⟨hval, hhigh, hlow⟩
  · exact hsame.symm.trans h
  · exfalso
    rw [h] at hval
    have hz : ¬(97 ≤ d.val.toNat ∧ d.val.toNat ≤ 122) := by
      rintro ⟨ha, hz⟩
      rw [isLower_iff.mpr ⟨ha, hz⟩] at hd
      cases hd
    have hval : d.val.toNat = c.val.toNat + 32 := hval
    have hlow : 65 ≤ c.val.toNat := hlow
    have hhigh : c.val.toNat ≤ 90 := hhigh
    omega

/-- Where a character of the result comes from, unless it is a lower-case letter
or stands for a character outside ASCII. -/
theorem mem_char {before after : Text} {c d : Char} (h : d ∈ L.char before c after)
    (hascii : d.toNat < 128) (hlower : d.isLower = false) : d = c := by
  by_cases hc : c.toNat < 128
  · rw [L.ascii _ _ _ hc, List.mem_singleton] at h
    exact (toLower_eq h.symm hlower).symm
  · rcases L.other _ _ _ (Nat.not_lt.mp hc) d h with rfl | ⟨-, hcase⟩
    · rfl
    · rw [hcase hascii] at hlower
      cases hlower

theorem mem_after {d : Char} (hascii : d.toNat < 128) (hlower : d.isLower = false) {t : Text} :
    ∀ {before}, d ∈ L.after before t → d ∈ t := by
  induction t with
  | nil => exact fun h => h
  | cons c t ih =>
      intro before h
      rcases List.mem_append.mp h with h | h
      · rw [mem_char h hascii hlower]
        exact List.mem_cons_self
      · exact List.mem_cons_of_mem _ (ih h)

/-- **No separator appears.** -/
theorem mem_lower {t : Text} {d : Char} (h : d ∈ L.lower t) (hascii : d.toNat < 128)
    (hlower : d.isLower = false) : d ∈ t := mem_after hascii hlower h

/-! ## The ends of a text -/

theorem after_append (s : Text) : ∀ before t,
    ∃ front, L.after before (s ++ t) = front ++ L.after (before ++ s) t := by
  induction s with
  | nil => exact fun before t => ⟨[], by simp⟩
  | cons c s ih =>
      intro before t
      obtain ⟨front, hfront⟩ := ih (before ++ [c]) t
      refine ⟨L.char before c (s ++ t) ++ front, ?_⟩
      show L.char before c (s ++ t) ++ L.after (before ++ [c]) (s ++ t) = _
      rw [hfront, List.append_assoc, List.append_assoc, List.singleton_append]

/-- The last character of a text decides how the result ends. -/
theorem lower_concat (t : Text) (c : Char) :
    ∃ front, L.lower (t ++ [c]) = front ++ L.char t c [] := by
  obtain ⟨front, hfront⟩ := L.after_append t [] [c]
  refine ⟨front, ?_⟩
  show L.after [] (t ++ [c]) = _
  rw [hfront, List.nil_append]
  show front ++ (L.char t c [] ++ []) = _
  rw [List.append_nil]

theorem head?_lower {c : Char} {t : Text} (hascii : c.toNat < 128) (hcase : c.toLower = c) :
    (L.lower (c :: t)).head? = some c := by
  show (L.char [] c t ++ _).head? = _
  rw [L.ascii _ _ _ hascii, hcase]
  rfl

theorem getLast?_lower {c : Char} {t : Text} (hascii : c.toNat < 128) (hcase : c.toLower = c) :
    (L.lower (t ++ [c])).getLast? = some c := by
  obtain ⟨front, hfront⟩ := L.lower_concat t c
  rw [hfront, L.ascii _ _ _ hascii, hcase, List.getLast?_concat]

/-- Blanks stay blanks, and nothing else becomes one. -/
theorem space_of_mem_char {before after : Text} {c d : Char} (hc : isSpace c = false)
    (h : d ∈ L.char before c after) : isSpace d = false := by
  cases hd : isSpace d with
  | false => rfl
  | true =>
      have hletter : ∀ {x : Char}, x.isLower = true → isSpace x = true → False := by
        intro x hx hspace
        obtain ⟨hlow, hhigh⟩ := isLower_iff.mp hx
        simp only [isSpace, isLineBreak, Bool.or_eq_true, Bool.and_eq_true, decide_eq_true_eq,
          List.mem_cons, List.not_mem_nil, or_false] at hspace
        rcases hspace with (h | h) | h
        · rcases h with h | h | h | h | h | h | h | h | h | h <;> subst h <;> simp at hlow hhigh
        · rcases h with h | h | h | h | h | h | h | h <;> subst h <;> simp at hlow hhigh
        · omega
      by_cases hascii : c.toNat < 128
      · rw [L.ascii _ _ _ hascii, List.mem_singleton] at h
        cases hl : d.isLower with
        | true => exact (hletter hl hd).elim
        | false => rw [← toLower_eq h.symm hl, hc] at hd; exact hd.symm
      · rcases L.other _ _ _ (Nat.not_lt.mp hascii) d h with rfl | ⟨hno, -⟩
        · rw [← hd, hc]
        · rw [← hd, hno]

theorem strip_eq_self_iff {t : Text} : strip t = t ↔ Bare isSpace t := by
  constructor
  · intro h
    have hbare := bare_trim isSpace t
    change Bare isSpace (strip t) at hbare
    rwa [h] at hbare
  · have hnone : ∀ c ∈ ([] : Text), isSpace c = true := fun c hc => absurd hc List.not_mem_nil
    exact trim_of_laid (by simp) hnone hnone

/-- **A stripped text stays stripped.** -/
theorem strip_lower {t : Text} (h : strip t = t) : strip (L.lower t) = L.lower t := by
  rw [strip_eq_self_iff] at h ⊢
  refine ⟨fun hne => ?_, fun hne => ?_⟩
  · cases t with
    | nil => exact absurd rfl hne
    | cons c t =>
        have hc : isSpace c = false := by simpa using h.first (List.cons_ne_nil c t)
        obtain ⟨d, rest, hchar⟩ := List.exists_cons_of_ne_nil (L.nonempty [] c t)
        have hlower : L.lower (c :: t) = d :: (rest ++ L.after [c] t) := by
          show L.char [] c t ++ L.after [c] t = _
          rw [hchar, List.cons_append]
        have hd : d ∈ L.char [] c t := hchar ▸ List.mem_cons_self
        simpa [hlower] using space_of_mem_char hc hd
  · rcases List.eq_nil_or_concat' t with rfl | ⟨t, c, rfl⟩
    · exact absurd rfl hne
    · have hc : isSpace c = false := by simpa using h.last (by simp)
      obtain ⟨front, hfront⟩ := L.lower_concat t c
      rcases List.eq_nil_or_concat' (L.char t c []) with hnil | ⟨body, d, hchar⟩
      · exact absurd hnil (L.nonempty t c [])
      · have hd : d ∈ L.char t c [] := by simp [hchar]
        rw [hchar] at hfront
        simpa [hfront] using space_of_mem_char hc hd

end Lowering

end VpnPanel.Lib
