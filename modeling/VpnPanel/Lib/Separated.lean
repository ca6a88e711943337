import Mathlib.Data.List.Basic

/-!
# Separated fields

A record written as its fields with a separator between them. Where the outer
fields do not contain the separator, the text determines every field, whatever
the middle one contains.
-/

namespace VpnPanel.Lib.Separated

variable {α : Type} {c : α}

/-- A first field without the separator is read off. -/
theorem eq_of_append_cons {a b x y : List α} (ha : c ∉ a) (hb : c ∉ b)
    (h : a ++ c :: x = b ++ c :: y) : a = b ∧ x = y := by
  induction a generalizing b with
  | nil =>
      cases b with
      | nil => exact ⟨rfl, (List.cons.inj h).2⟩
      | cons d b =>
          have hd : c = d := (List.cons.inj h).1
          exact absurd (hd ▸ List.mem_cons_self) hb
  | cons d a ih =>
      cases b with
      | nil =>
          have hd : d = c := (List.cons.inj h).1
          exact absurd (hd ▸ List.mem_cons_self) ha
      | cons e b =>
          obtain ⟨hde, hrest⟩ := List.cons.inj h
          obtain ⟨hab, hxy⟩ := ih (fun hmem => ha (List.mem_cons_of_mem _ hmem))
            (fun hmem => hb (List.mem_cons_of_mem _ hmem)) hrest
          exact ⟨by rw [hde, hab], hxy⟩

/-- A last field without the separator is read off, from the end. -/
theorem eq_of_append_cons_last {a b x y : List α} (hx : c ∉ x) (hy : c ∉ y)
    (h : a ++ c :: x = b ++ c :: y) : a = b ∧ x = y := by
  have hrev : x.reverse ++ c :: a.reverse = y.reverse ++ c :: b.reverse := by
    simpa using congrArg List.reverse h
  obtain ⟨hxy, hab⟩ := eq_of_append_cons (by simpa using hx) (by simpa using hy) hrev
  exact ⟨List.reverse_inj.mp hab, List.reverse_inj.mp hxy⟩

/-- Three fields, of which the first and the last are free of the separator. -/
theorem three_fields {a b m n x y : List α} (ha : c ∉ a) (hb : c ∉ b) (hx : c ∉ x) (hy : c ∉ y)
    (h : a ++ c :: (m ++ c :: x) = b ++ c :: (n ++ c :: y)) : a = b ∧ m = n ∧ x = y := by
  obtain ⟨hab, hrest⟩ := eq_of_append_cons ha hb h
  exact ⟨hab, eq_of_append_cons_last hx hy hrest⟩

end VpnPanel.Lib.Separated
