import VpnPanel.Lib.Rows

/-!
# Offset paging over a changing list

A reader that fetches a list in slices, each at the offset the last one ended
at, while items are inserted and removed between two fetches. What is still
ahead of the reader is `items.drop offset`: a fetch takes its slice off it, an
insertion never shortens it, and a removal in front of the offset takes one
item out of it that the reader will not see.
-/

namespace VpnPanel.Lib.Paging

variable {α : Type} {items : List α} {x : α} {offset index : Nat}

/-- The slice of `items` that starts at `start`. -/
def page (items : List α) (start size : Nat) : List α := (items.drop start).take size

/-- A fetch splits what is ahead into the page and what is ahead of the next
offset. -/
theorem drop_eq_page_append (items : List α) (start size : Nat) :
    items.drop start =
      page items start size ++ items.drop (start + (page items start size).length) := by
  unfold page
  rw [← List.drop_drop]
  generalize items.drop start = ahead
  rw [List.length_take]
  by_cases h : size ≤ ahead.length
  · rw [Nat.min_eq_left h, List.take_append_drop]
  · have hle : ahead.length ≤ size := by omega
    rw [Nat.min_eq_right hle, List.take_of_length_le hle, List.drop_length, List.append_nil]

theorem page_eq_nil {start size : Nat} (hsize : 0 < size) (h : page items start size = []) :
    items.drop start = [] := by
  unfold page at h
  rcases List.take_eq_nil_iff.mp h with h | h
  · omega
  · exact h

theorem mem_drop_iff : x ∈ items.drop offset ↔ ∃ j, offset ≤ j ∧ items[j]? = some x := by
  rw [List.mem_iff_getElem?]
  constructor
  · rintro ⟨k, hk⟩
    rw [List.getElem?_drop] at hk
    exact ⟨offset + k, Nat.le_add_right offset k, hk⟩
  · rintro ⟨j, hj, hx⟩
    refine ⟨j - offset, ?_⟩
    rw [List.getElem?_drop, Nat.add_sub_cancel' hj]
    exact hx

/-- An insertion anywhere keeps what is ahead ahead. -/
theorem mem_drop_insertIdx (y : α) (h : x ∈ items.drop offset) :
    x ∈ (items.insertIdx index y).drop offset := by
  obtain ⟨j, hj, hx⟩ := mem_drop_iff.mp h
  rw [mem_drop_iff]
  by_cases hlt : j < index
  · exact ⟨j, hj, by rw [List.getElem?_insertIdx_of_lt hlt, hx]⟩
  · refine ⟨j + 1, by omega, ?_⟩
    rw [List.getElem?_insertIdx_of_gt (by omega), Nat.add_sub_cancel, hx]

/-- After a removal an item ahead is still ahead, was removed itself, or stood
at the offset and was moved in front of it. -/
theorem mem_drop_eraseIdx (index : Nat) (h : x ∈ items.drop offset) :
    x ∈ (items.eraseIdx index).drop offset ∨ items[index]? = some x ∨
      (index < offset ∧ items[offset]? = some x) := by
  obtain ⟨j, hj, hx⟩ := mem_drop_iff.mp h
  rw [mem_drop_iff]
  by_cases hlt : j < index
  · exact .inl ⟨j, hj, by rw [List.getElem?_eraseIdx_of_lt hlt, hx]⟩
  · by_cases heq : j = index
    · exact .inr (.inl (heq ▸ hx))
    · by_cases hoff : j = offset
      · exact .inr (.inr ⟨by omega, hoff ▸ hx⟩)
      · refine .inl ⟨j - 1, by omega, ?_⟩
        rw [List.getElem?_eraseIdx_of_ge (by omega), Nat.sub_add_cancel (by omega), hx]

/-- With distinct keys a removed item is gone. -/
theorem key_of_eraseIdx {κ : Type} {key : α → κ} (hd : Rows.Distinct key items)
    (hx : items[index]? = some x) : ∀ y ∈ items.eraseIdx index, key y ≠ key x := by
  intro y hy hkey
  obtain ⟨j, hne, hj⟩ := List.mem_eraseIdx_iff_getElem?.mp hy
  have hlt : j < (items.map key).length := by
    rw [List.length_map]
    exact (List.getElem?_eq_some_iff.mp hj).1
  have hsame : (items.map key)[j]? = (items.map key)[index]? := by
    rw [List.getElem?_map, List.getElem?_map, hj, hx, Option.map_some, Option.map_some, hkey]
  exact hne ((List.getElem?_inj hlt hd).mp hsame)

end VpnPanel.Lib.Paging
