import Mathlib.Data.List.Infix

/-!
# Replacing in a list

`replace old new` puts `new` in the place of every occurrence of the nonempty
`old`, from the left. Where `new` begins and ends with elements `old` does not
have and has no occurrence of its own, none is left after it: one that crossed
an end of `new` would contain it.
-/

namespace VpnPanel.Lib

variable {α : Type} [DecidableEq α]

/-- The rest of a list, behind `skip` elements that are replaced already. -/
def replaceAfter (old new : List α) : (skip : Nat) → List α → List α
  | _, [] => []
  | skip + 1, _ :: l => replaceAfter old new skip l
  | 0, x :: l =>
      if old.isPrefixOf (x :: l) then new ++ replaceAfter old new (old.length - 1) l
      else x :: replaceAfter old new 0 l

def replace (old new l : List α) : List α := replaceAfter old new 0 l

example : replace "aa".toList "b".toList "aaaca".toList = "baca".toList := by decide

omit [DecidableEq α] in
/-- An occurrence beside an element that is not in it lies on one of its sides. -/
theorem infix_split {a b l : List α} {x : α} (hx : x ∉ l) (h : l <:+: a ++ x :: b) :
    l <:+: a ∨ l <:+: b := by
  obtain ⟨front, back, heq⟩ := h
  rcases List.append_eq_append_iff.mp heq with ⟨gap, hleft, -⟩ | ⟨rest, hfront, hrest⟩
  · exact .inl ⟨front, gap, hleft.symm⟩
  · cases rest with
    | nil => exact .inl ⟨front, [], hfront.trans (List.append_nil a) |>.symm ▸ by simp⟩
    | cons y rest =>
        cases hrest
        -- the occurrence ends behind `x`, so it begins behind it, too
        rcases List.append_eq_append_iff.mp hfront with ⟨mid, -, hmid⟩ | ⟨mid, -, hmid⟩
        · exact absurd (hmid ▸ List.mem_append_right mid List.mem_cons_self) hx
        · cases mid with
          | nil => exact absurd (hmid ▸ List.mem_cons_self : x ∈ [] ++ l) hx
          | cons z mid =>
              cases hmid
              exact .inr ⟨mid, back, rfl⟩

omit [DecidableEq α] in
/-- A list of `p` elements does not occur where no `n` in a row are. -/
theorem not_infix_of_windows {p : α → Bool} {n : Nat} {l t : List α} (hlen : n ≤ l.length)
    (hall : ∀ x ∈ l, p x = true)
    (h : t.tails.all (fun s => s.length < n || !(s.take n).all p) = true) : ¬l <:+: t := by
  rintro ⟨front, back, rfl⟩
  have htail : l ++ back ∈ (front ++ l ++ back).tails :=
    (List.mem_tails _ _).mpr ⟨front, (List.append_assoc front l back).symm⟩
  have hwindow := List.all_eq_true.mp h _ htail
  rw [List.take_append_of_le_length hlen, Bool.or_eq_true, decide_eq_true_eq,
    List.length_append] at hwindow
  rcases hwindow with hshort | hother
  · omega
  · have hhex : (l.take n).all p = true :=
      List.all_eq_true.mpr fun x hx => hall x (List.mem_of_mem_take hx)
    rw [hhex] at hother
    cases hother

variable {old new : List α}

theorem replaceAfter_skip (skip : Nat) : ∀ l : List α,
    replaceAfter old new skip l = replaceAfter old new 0 (l.drop skip) := by
  induction skip with
  | zero => exact fun _ => rfl
  | succ skip ih =>
      intro l
      cases l with
      | nil => rfl
      | cons x l => exact ih l

theorem replace_cons {x : α} {l : List α} : replace old new (x :: l) =
    if old.isPrefixOf (x :: l) then new ++ replace old new (l.drop (old.length - 1))
    else x :: replace old new l := by
  show (if _ then new ++ replaceAfter old new (old.length - 1) l else _) = _
  rw [replaceAfter_skip]
  rfl

/-- Up to the first replacement, the text is as it was. -/
theorem prefix_of_prefix_replace {first : α} {rest : List α} (hnew : new = first :: rest) :
    ∀ {l w : List α}, first ∉ w → w <+: replace old new l → w <+: l := by
  intro l
  induction l with
  | nil => exact fun _ h => h
  | cons x l ih =>
      intro w hw h
      cases w with
      | nil => exact List.nil_prefix
      | cons y w =>
          rw [replace_cons] at h
          split at h
          · rw [hnew] at h
            obtain ⟨rfl, -⟩ := List.cons_prefix_cons.mp h
            exact absurd List.mem_cons_self hw
          · obtain ⟨rfl, htail⟩ := List.cons_prefix_cons.mp h
            exact List.cons_prefix_cons.mpr
              ⟨rfl, ih (fun hmem => hw (List.mem_cons_of_mem _ hmem)) htail⟩

/-- **No occurrence is left.** -/
theorem not_infix_replace {first last : α} {rest front : List α} (hne : old ≠ [])
    (hfirst : new = first :: rest ∧ first ∉ old) (hlast : new = front ++ [last] ∧ last ∉ old)
    (hfront : ¬old <:+: front) (l : List α) : ¬old <:+: replace old new l := by
  generalize hn : l.length = n
  induction n using Nat.strongRecOn generalizing l with
  | ind n ih =>
      cases l with
      | nil => exact fun h => hne (List.infix_nil.mp h)
      | cons x l =>
          intro h
          rw [replace_cons] at h
          split at h
          · have hsplit : old <:+: front ++ last :: replace old new (l.drop (old.length - 1)) := by
              simpa [hlast.1] using h
            rcases infix_split hlast.2 hsplit with h | h
            · exact hfront h
            · refine ih _ ?_ (l.drop (old.length - 1)) rfl h
              rw [← hn, List.length_drop, List.length_cons]
              omega
          · next hno =>
              rcases List.infix_cons_iff.mp h with h | h
              · refine hno (List.isPrefixOf_iff_prefix.mpr ?_)
                obtain ⟨y, old, rfl⟩ := List.exists_cons_of_ne_nil hne
                obtain ⟨rfl, htail⟩ := List.cons_prefix_cons.mp h
                exact List.cons_prefix_cons.mpr ⟨rfl, prefix_of_prefix_replace hfirst.1
                  (fun hmem => hfirst.2 (List.mem_cons_of_mem _ hmem)) htail⟩
              · exact ih l.length (by rw [← hn]; exact Nat.lt_succ_self _) l rfl h

end VpnPanel.Lib
