import Mathlib.Data.List.DropRight

/-!
# Code points and trimming

Text as a list of code points, lone surrogates included, and the data that
programs read about them. Trimming takes any set of characters; trimming by a
smaller set gives the same text when nothing else stood in the margins.
-/

namespace VpnPanel.Lib

abbrev CodePoint := Fin 0x110000

inductive GeneralCategory
  | lu | ll | lt | lm | lo | mn | mc | me | nd | nl | no
  | pc | pd | ps | pe | pi | pf | po | sm | sc | sk | so
  | zs | zl | zp | cc | cf | cs | co | cn
  deriving DecidableEq, Repr

/-- The character database of one Unicode version, with what every version says
of the controls and of the zero width no-break space. -/
structure UnicodeData where
  nfc : List CodePoint → List CodePoint
  category : CodePoint → GeneralCategory
  control : ∀ c, category c = .cc ↔ c.val < 0x20 ∨ (0x7f ≤ c.val ∧ c.val < 0xa0)
  zwnbsp : ∀ c, c.val = 0xfeff → category c = .cf

variable {α : Type*}

/-! ## Trimming -/

def trim (p : α → Bool) (t : List α) : List α := (t.dropWhile p).rdropWhile p

/-- What `trim` takes off, at the front and at the back. -/
def margin (p : α → Bool) (t : List α) : List α :=
  t.takeWhile p ++ (t.dropWhile p).rtakeWhile p

/-- Nothing to trim at either end. -/
structure Bare (p : α → Bool) (t : List α) : Prop where
  first : ∀ h : t ≠ [], ¬p (t.head h)
  last : ∀ h : t ≠ [], ¬p (t.getLast h)

variable {p q : α → Bool} {t front core back : List α}

theorem Bare.mono (hq : Bare q t) (h : ∀ c ∈ t, p c → q c) : Bare p t :=
  ⟨fun hne hp => hq.first hne (h _ (List.head_mem hne) hp),
    fun hne hp => hq.last hne (h _ (List.getLast_mem hne) hp)⟩

theorem margin_append_trim (p : α → Bool) (t : List α) :
    t.takeWhile p ++ (trim p t ++ (t.dropWhile p).rtakeWhile p) = t := by
  have hback : trim p t ++ (t.dropWhile p).rtakeWhile p = t.dropWhile p :=
    List.rdropWhile_append_rtakeWhile
  rw [hback, List.takeWhile_append_dropWhile]

theorem of_mem_margin {c : α} (h : c ∈ margin p t) : p c := by
  rcases List.mem_append.mp h with h | h
  · exact List.mem_takeWhile_imp h
  · exact List.mem_rtakeWhile_imp h

theorem bare_trim (p : α → Bool) (t : List α) : Bare p (trim p t) := by
  refine ⟨fun hne hp => ?_, fun hne => List.rdropWhile_last_not p _ hne⟩
  have hstart : trim p t <+: t.dropWhile p := List.rdropWhile_prefix p _
  have hdropped : t.dropWhile p ≠ [] := fun h => hne (List.prefix_nil.mp (h ▸ hstart))
  rw [hstart.head hne] at hp
  exact Bool.false_ne_true ((List.head_dropWhile_not p hdropped).symm.trans hp)

theorem rdropWhile_append_of_pos (hback : ∀ c ∈ back, p c) (h : Bare p core) :
    (core ++ back).rdropWhile p = core := by
  have hself : core.rdropWhile p = core := List.rdropWhile_eq_self_iff.mpr h.last
  unfold List.rdropWhile at hself ⊢
  rw [List.reverse_append, List.dropWhile_append_of_pos fun c hc =>
    hback c (List.mem_reverse.mp hc)]
  exact hself

/-- A core that starts with no character of `p` stops the trimming at the front. -/
theorem dropWhile_append_bare (h : Bare p core) (hne : core ≠ []) (rest : List α) :
    (core ++ rest).dropWhile p = core ++ rest := by
  obtain ⟨c, tail, rfl⟩ := List.exists_cons_of_ne_nil hne
  exact List.dropWhile_cons_of_neg (h.first hne)

/-- The only way to lay a text out around a bare core. -/
theorem trim_of_laid (hlaid : front ++ (core ++ back) = t) (hfront : ∀ c ∈ front, p c)
    (hback : ∀ c ∈ back, p c) (h : Bare p core) : trim p t = core := by
  subst hlaid
  unfold trim
  rw [List.dropWhile_append_of_pos hfront]
  by_cases hne : core = []
  · rw [hne, List.nil_append, List.dropWhile_eq_nil_iff.mpr hback, List.rdropWhile_nil]
  · rw [dropWhile_append_bare h hne, rdropWhile_append_of_pos hback h]

theorem margin_of_laid (hlaid : front ++ (core ++ back) = t) (hfront : ∀ c ∈ front, p c)
    (hback : ∀ c ∈ back, p c) (h : Bare p core) : margin p t = front ++ back := by
  subst hlaid
  unfold margin
  rw [List.takeWhile_append_of_pos hfront, List.dropWhile_append_of_pos hfront]
  by_cases hne : core = []
  · rw [hne, List.nil_append, List.dropWhile_eq_nil_iff.mpr hback, List.rtakeWhile_nil,
      List.append_nil, List.takeWhile_eq_self_iff.mpr hback]
  · have hstop := dropWhile_append_bare h hne back
    have htake : (core ++ back).takeWhile p ++ (core ++ back).dropWhile p = core ++ back :=
      List.takeWhile_append_dropWhile
    have hdrop : (core ++ back).rdropWhile p ++ (core ++ back).rtakeWhile p = core ++ back :=
      List.rdropWhile_append_rtakeWhile
    rw [hstop] at htake ⊢
    rw [rdropWhile_append_of_pos hback h] at hdrop
    rw [List.self_eq_append_left.mp htake.symm, List.append_nil,
      List.append_cancel_left hdrop]

/-! ## Trimming by two sets -/

/-- Where the smaller set leaves nothing of the larger one, both give the same
text. -/
theorem trim_eq_trim_of_mem (hsub : ∀ c, p c → q c) (h : ∀ c ∈ trim p t, q c → p c) :
    trim p t = trim q t := by
  refine (trim_of_laid (margin_append_trim p t) (fun c hc => ?_) (fun c hc => ?_)
    ((bare_trim p t).mono h)).symm
  · exact hsub c (List.mem_takeWhile_imp hc)
  · exact hsub c (List.mem_rtakeWhile_imp hc)

/-- The smaller set trims as much exactly when it has all of the margins. -/
theorem trim_eq_trim_iff (hsub : ∀ c, p c → q c) :
    trim p t = trim q t ↔ ∀ c ∈ margin q t, p c := by
  constructor
  · intro heq
    have hmargin : margin q t = margin p t :=
      margin_of_laid (margin_append_trim p t)
        (fun c hc => hsub c (List.mem_takeWhile_imp hc))
        (fun c hc => hsub c (List.mem_rtakeWhile_imp hc)) (heq ▸ bare_trim q t)
    intro c hc
    rw [hmargin] at hc
    exact of_mem_margin hc
  · intro hmargin
    exact trim_of_laid (margin_append_trim q t)
      (fun c hc => hmargin c (List.mem_append_left _ hc))
      (fun c hc => hmargin c (List.mem_append_right _ hc))
      ((bare_trim q t).mono fun c _ => hsub c)

end VpnPanel.Lib
