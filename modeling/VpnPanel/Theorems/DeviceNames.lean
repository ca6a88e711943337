import VpnPanel.UserPage.DeviceNames

/-!
# The page and the backend on names

A name that one side accepts has none of the other side's white space at its
ends, since each side refuses what it does not trim. So a name is always the core
of the text, without all white space at the ends, and the sides differ only in
which margins they take off and which characters they refuse in the core.
-/

namespace VpnPanel.Theorems

open VpnPanel.Lib

variable (data : UnicodeData) {raw text name : List CodePoint}

/-! ## What both take off -/

/-- The white space of either side. -/
def eitherSpace (c : CodePoint) : Bool := UserPage.isTrimmed data c || Backend.isSpace data c

theorem eitherSpace_of_isTrimmed (c : CodePoint) (h : UserPage.isTrimmed data c) :
    eitherSpace data c := (Bool.or_eq_true _ _).mpr (.inl h)

theorem eitherSpace_of_isSpace (c : CodePoint) (h : Backend.isSpace data c) :
    eitherSpace data c := (Bool.or_eq_true _ _).mpr (.inr h)

/-- A control that only the backend takes off. -/
def IsSeparator (c : CodePoint) : Prop := c.val ∈ [0x1c, 0x1d, 0x1e, 0x1f, 0x85]

/-- A character that only the page takes off. -/
def IsZeroWidthNoBreak (c : CodePoint) : Prop := c.val = 0xfeff

theorem category_separator {c : CodePoint} (h : IsSeparator c) : data.category c = .cc := by
  have hrange : ∀ n ∈ [0x1c, 0x1d, 0x1e, 0x1f, 0x85], n < 0x20 ∨ (0x7f ≤ n ∧ n < 0xa0) := by
    decide
  exact (data.control c).mpr (hrange c.val h)

/-- Of what either side takes off, the page leaves the separators, -/
theorem isTrimmed_iff {c : CodePoint} (h : eitherSpace data c) :
    UserPage.isTrimmed data c ↔ ¬IsSeparator c := by
  constructor
  · intro htrimmed hmem
    have hcategory := category_separator data hmem
    have hleft : ∀ n ∈ [0x1c, 0x1d, 0x1e, 0x1f, 0x85], n ∉ [0x09, 0x0b, 0x0c, 0xfeff] ∧
        n ∉ [0x0a, 0x0d, 0x2028, 0x2029] := by decide
    obtain ⟨hspace, hline⟩ := hleft c.val hmem
    simp only [UserPage.isTrimmed, hcategory, hspace, hline] at htrimmed
    exact absurd htrimmed (by decide)
  · intro hmem
    have htaken : ∀ n ∈ [0x09, 0x0a, 0x0b, 0x0c, 0x0d, 0x1c, 0x1d, 0x1e, 0x1f, 0x85, 0x2028,
        0x2029], n ∉ [0x1c, 0x1d, 0x1e, 0x1f, 0x85] → n ∈ [0x09, 0x0b, 0x0c, 0xfeff] ∨
          n ∈ [0x0a, 0x0d, 0x2028, 0x2029] := by decide
    rcases (Bool.or_eq_true _ _).mp h with h | h
    · exact h
    · unfold UserPage.isTrimmed
      simp only [Backend.isSpace, Bool.or_eq_true, decide_eq_true_eq] at h ⊢
      rcases h with hcategory | hlist
      · exact .inl (.inr hcategory)
      · rcases htaken c.val hlist hmem with hspace | hline
        · exact .inl (.inl hspace)
        · exact .inr hline

/-- and the backend the zero width no-break space. -/
theorem isSpace_iff {c : CodePoint} (h : eitherSpace data c) :
    Backend.isSpace data c ↔ ¬IsZeroWidthNoBreak c := by
  constructor
  · intro hspace hmark
    have hcategory := data.zwnbsp c hmark
    have hleft : 0xfeff ∉ [0x09, 0x0a, 0x0b, 0x0c, 0x0d, 0x1c, 0x1d, 0x1e, 0x1f, 0x85, 0x2028,
        0x2029] := by decide
    have hvalue : c.val = 0xfeff := hmark
    simp only [Backend.isSpace, hcategory, hvalue, hleft] at hspace
    exact absurd hspace (by decide)
  · intro hne
    have htaken : ∀ n ∈ [0x09, 0x0b, 0x0c, 0xfeff, 0x0a, 0x0d, 0x2028, 0x2029], n ≠ 0xfeff →
        n ∈ [0x09, 0x0a, 0x0b, 0x0c, 0x0d, 0x1c, 0x1d, 0x1e, 0x1f, 0x85, 0x2028, 0x2029] := by
      decide
    rcases (Bool.or_eq_true _ _).mp h with h | h
    · unfold Backend.isSpace
      simp only [UserPage.isTrimmed, Bool.or_eq_true, decide_eq_true_eq] at h ⊢
      rcases h with (hspace | hcategory) | hline
      · exact .inr (htaken _ (List.mem_append_left [0x0a, 0x0d, 0x2028, 0x2029] hspace) hne)
      · exact .inl hcategory
      · exact .inr (htaken _ (List.mem_append_right [0x09, 0x0b, 0x0c, 0xfeff] hline) hne)
    · exact h

/-- A name without the margins that either side takes off. -/
def nameCore (text : List CodePoint) : List CodePoint := trim (eitherSpace data) text

def nameMargin (text : List CodePoint) : List CodePoint := margin (eitherSpace data) text

/-- What both sides ask of a name they have trimmed. -/
structure UsableName (name : List CodePoint) : Prop where
  notBlank : name ≠ []
  short : name.length ≤ 64
  noControl : ∀ c ∈ name, data.category c ∉ [.cc, .cf, .cs]

/-! ## What each side trims -/

theorem page_trims_iff : trim (UserPage.isTrimmed data) text = nameCore data text ↔
    ∀ c ∈ nameMargin data text, ¬IsSeparator c := by
  refine (trim_eq_trim_iff (eitherSpace_of_isTrimmed data)).trans (forall₂_congr fun c hc => ?_)
  exact isTrimmed_iff data (of_mem_margin hc)

theorem backend_trims_iff : trim (Backend.isSpace data) text = nameCore data text ↔
    ∀ c ∈ nameMargin data text, ¬IsZeroWidthNoBreak c := by
  refine (trim_eq_trim_iff (eitherSpace_of_isSpace data)).trans (forall₂_congr fun c hc => ?_)
  exact isSpace_iff data (of_mem_margin hc)

/-- A name without controls holds none of the separators the page leaves, -/
theorem page_trims (h : ∀ c ∈ trim (UserPage.isTrimmed data) text, data.category c ≠ .cc) :
    trim (UserPage.isTrimmed data) text = nameCore data text := by
  refine trim_eq_trim_of_mem (eitherSpace_of_isTrimmed data) fun c hc heither => ?_
  exact (isTrimmed_iff data heither).mpr fun hmem => h c hc (category_separator data hmem)

/-- and one without format characters none of what the backend leaves. -/
theorem backend_trims (h : ∀ c ∈ trim (Backend.isSpace data) text, data.category c ≠ .cf) :
    trim (Backend.isSpace data) text = nameCore data text := by
  refine trim_eq_trim_of_mem (eitherSpace_of_isSpace data) fun c hc heither => ?_
  exact (isSpace_iff data heither).mpr fun hmark => h c hc (data.zwnbsp c hmark)

/-! ## What each side accepts -/

theorem page_ok_iff : UserPage.normalizeDeviceName data raw = .ok name ↔
    name = trim (UserPage.isTrimmed data) (data.nfc raw) ∧ UsableName data name := by
  have hcontrol (t : List CodePoint) : t.any (UserPage.controlCharacter data) = true ↔
      ∃ c ∈ t, data.category c ∈ [.cc, .cf, .cs] := by
    simp only [List.any_eq_true, UserPage.controlCharacter, decide_eq_true_eq]
  unfold UserPage.normalizeDeviceName
  constructor
  · intro h
    simp only at h
    split_ifs at h with hblank hcontrols hlong
    cases h
    exact ⟨rfl, hblank, Nat.le_of_not_lt hlong, fun c hc hcategory =>
      hcontrols ((hcontrol _).mpr ⟨c, hc, hcategory⟩)⟩
  · rintro ⟨rfl, husable⟩
    have hclean : ¬(trim (UserPage.isTrimmed data) (data.nfc raw)).any
        (UserPage.controlCharacter data) = true := by
      rw [hcontrol]
      rintro ⟨c, hc, hcategory⟩
      exact husable.noControl c hc hcategory
    have hshort : ¬UserPage.MAX_DEVICE_NAME_LENGTH <
        (trim (UserPage.isTrimmed data) (data.nfc raw)).length := Nat.not_lt_of_le husable.short
    simp only
    rw [if_neg husable.notBlank, if_neg hclean, if_neg hshort]

theorem backend_ok_iff : Backend.normalizeDeviceName data raw = .ok name ↔
    name = trim (Backend.isSpace data) (data.nfc raw) ∧ UsableName data name ∧
      ∀ c ∈ name, data.category c ∉ [.co, .cn] := by
  have hother (t : List CodePoint) : t.any (Backend.categoryC data) = true ↔
      ∃ c ∈ t, data.category c ∈ [.cc, .cf, .cs] ∨ data.category c ∈ [.co, .cn] := by
    simp only [List.any_eq_true, Backend.categoryC, decide_eq_true_eq, ← List.mem_append,
      List.cons_append, List.nil_append]
  unfold Backend.normalizeDeviceName
  constructor
  · intro h
    simp only at h
    split_ifs at h with hblank hlong hothers
    cases h
    refine ⟨rfl, ⟨hblank, Nat.le_of_not_lt hlong, fun c hc hcategory => ?_⟩,
      fun c hc hcategory => ?_⟩
    · exact hothers ((hother _).mpr ⟨c, hc, .inl hcategory⟩)
    · exact hothers ((hother _).mpr ⟨c, hc, .inr hcategory⟩)
  · rintro ⟨rfl, husable, hassigned⟩
    have hclean : ¬(trim (Backend.isSpace data) (data.nfc raw)).any
        (Backend.categoryC data) = true := by
      rw [hother]
      rintro ⟨c, hc, hcategory | hcategory⟩
      · exact husable.noControl c hc hcategory
      · exact hassigned c hc hcategory
    have hshort : ¬Backend.MAX_DEVICE_NAME_LENGTH <
        (trim (Backend.isSpace data) (data.nfc raw)).length := Nat.not_lt_of_le husable.short
    simp only
    rw [if_neg husable.notBlank, if_neg hshort, if_neg hclean]

theorem page_accepts_iff : UserPage.normalizeDeviceName data raw = .ok name ↔
    name = nameCore data (data.nfc raw) ∧ UsableName data name ∧
      ∀ c ∈ nameMargin data (data.nfc raw), ¬IsSeparator c := by
  rw [page_ok_iff, ← page_trims_iff]
  constructor
  · rintro ⟨rfl, husable⟩
    have hcore := page_trims data fun c hc hcategory =>
      husable.noControl c hc (by rw [hcategory]; decide)
    exact ⟨hcore, husable, hcore⟩
  · rintro ⟨rfl, husable, hcore⟩
    exact ⟨hcore.symm, husable⟩

theorem backend_accepts_iff : Backend.normalizeDeviceName data raw = .ok name ↔
    name = nameCore data (data.nfc raw) ∧ UsableName data name ∧
      (∀ c ∈ nameMargin data (data.nfc raw), ¬IsZeroWidthNoBreak c) ∧
        ∀ c ∈ name, data.category c ∉ [.co, .cn] := by
  rw [backend_ok_iff, ← backend_trims_iff]
  constructor
  · rintro ⟨rfl, husable, hassigned⟩
    have hcore := backend_trims data fun c hc hcategory =>
      husable.noControl c hc (by rw [hcategory]; decide)
    exact ⟨hcore, husable, hcore, hassigned⟩
  · rintro ⟨rfl, husable, hcore, hassigned⟩
    exact ⟨hcore.symm, husable, hassigned⟩

/-! ## Where they agree -/

/-- No name for either side; or separators in the margins, which the page leaves,
exactly where there is something the backend refuses: the zero width no-break
space in the margins, or a character without an assignment in the name. -/
def SameFate (text : List CodePoint) : Prop :=
  ¬UsableName data (nameCore data text) ∨
    ((∀ c ∈ nameMargin data text, ¬IsSeparator c) ↔
      (∀ c ∈ nameMargin data text, ¬IsZeroWidthNoBreak c) ∧
        ∀ c ∈ nameCore data text, data.category c ∉ [.co, .cn])

/-- **Names of devices.** The page and the backend accept a name alike exactly
where its text is of the same fate on both sides. -/
theorem device_names_agree_iff (data : UnicodeData) (raw : List CodePoint) :
    (∀ name, UserPage.normalizeDeviceName data raw = .ok name ↔
        Backend.normalizeDeviceName data raw = .ok name) ↔
      SameFate data (data.nfc raw) := by
  simp only [page_accepts_iff, backend_accepts_iff]
  unfold SameFate
  constructor
  · intro h
    by_cases husable : UsableName data (nameCore data (data.nfc raw))
    · right
      obtain ⟨hpage, hbackend⟩ := h (nameCore data (data.nfc raw))
      constructor
      · intro hseparators
        exact (hpage ⟨rfl, husable, hseparators⟩).2.2
      · intro hrest
        exact (hbackend ⟨rfl, husable, hrest⟩).2.2
    · exact .inl husable
  · rintro (hunusable | hsame) name
    · constructor
      · rintro ⟨rfl, husable, -⟩
        exact absurd husable hunusable
      · rintro ⟨rfl, husable, -⟩
        exact absurd husable hunusable
    · constructor
      · rintro ⟨rfl, husable, hseparators⟩
        exact ⟨rfl, husable, hsame.mp hseparators⟩
      · rintro ⟨rfl, husable, hrest⟩
        exact ⟨rfl, husable, hsame.mpr hrest⟩

/-- The categories of the ASCII letters, of the controls and of private use. -/
def latinCategory (n : Nat) : GeneralCategory :=
  if n < 0x20 ∨ (0x7f ≤ n ∧ n < 0xa0) then .cc
  else if n = 0x20 then .zs
  else if 0x41 ≤ n ∧ n ≤ 0x5a then .lu
  else if 0x61 ≤ n ∧ n ≤ 0x7a then .ll
  else if n = 0xfeff then .cf
  else if 0xe000 ≤ n ∧ n ≤ 0xf8ff then .co
  else .lo

def latinData : UnicodeData where
  nfc text := text
  category c := latinCategory c.val
  control c := by
    constructor
    · intro h
      by_contra hcontrol
      unfold latinCategory at h
      rw [if_neg hcontrol] at h
      split_ifs at h
    · exact fun h => if_pos h
  zwnbsp c h := by
    rw [h]
    rfl

/-- "Mac" and the sign of the Option-Shift-K key, a private use character. -/
def macName : List CodePoint :=
  [⟨0x4d, by decide⟩, ⟨0x61, by decide⟩, ⟨0x63, by decide⟩, ⟨0xf8ff, by decide⟩]

/-- The page sends the name, and the backend answers with an error. -/
theorem device_names_private_use :
    UserPage.normalizeDeviceName latinData macName = .ok macName ∧
    Backend.normalizeDeviceName latinData macName =
      .error ⟨422, "Device name must not contain control characters"⟩ ∧
    ¬∀ data raw name, UserPage.normalizeDeviceName data raw = .ok name ↔
      Backend.normalizeDeviceName data raw = .ok name := by
  have hpage : UserPage.normalizeDeviceName latinData macName = .ok macName := by decide
  have hbackend : Backend.normalizeDeviceName latinData macName =
      .error ⟨422, "Device name must not contain control characters"⟩ := by decide
  refine ⟨hpage, hbackend, fun h => ?_⟩
  have haccepted := (h latinData macName macName).mp hpage
  rw [hbackend] at haccepted
  cases haccepted

end VpnPanel.Theorems
