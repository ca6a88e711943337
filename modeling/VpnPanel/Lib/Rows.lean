import Mathlib.Data.List.Nodup
import Mathlib.Data.List.Basic
import Mathlib.Data.List.Find

/-!
# Keyed rows

A table is a list of rows, and a column `key` tells its rows apart. `get?` is
the lookup by key, `save` writes a changed row back in place. The lemmas say
how both act on rows that a key-preserving function rewrote, and that with
distinct keys membership and lookup are the same thing.
-/

namespace VpnPanel.Lib.Rows

section Keys

variable {α κ : Type} {key : α → κ} {rows : List α} {row : α}

/-- The keys of the table are pairwise distinct. -/
def Distinct (key : α → κ) (rows : List α) : Prop := (rows.map key).Nodup

instance [DecidableEq κ] : Decidable (Distinct key rows) :=
  inferInstanceAs (Decidable (rows.map key).Nodup)

/-- Two rows of one key are the same row. -/
theorem Distinct.eq_of_key (h : Distinct key rows) {x y : α} (hx : x ∈ rows) (hy : y ∈ rows)
    (hxy : key x = key y) : x = y :=
  List.inj_on_of_nodup_map h hx hy hxy

/-- The rows of one key are that row alone. -/
theorem Distinct.filter_key [DecidableEq κ] (h : Distinct key rows) (hrow : row ∈ rows) :
    rows.filter (fun r => key r = key row) = [row] := by
  induction rows with
  | nil => cases hrow
  | cons r rows ih =>
      obtain ⟨hnew, hrest⟩ := List.nodup_cons.mp h
      rcases List.mem_cons.mp hrow with rfl | hmem
      · have hnone : rows.filter (fun r => key r = key row) = [] := by
          rw [List.filter_eq_nil_iff]
          intro x hx
          simpa using fun heq => hnew (List.mem_map.mpr ⟨x, hx, heq⟩)
        rw [List.filter_cons_of_pos (by simp), hnone]
      · have hother : key r ≠ key row := fun heq => hnew (List.mem_map.mpr ⟨row, hmem, heq.symm⟩)
        rw [List.filter_cons_of_neg (by simpa using hother), ih hrest hmem]

theorem map_key_map {f : α → α} (hf : ∀ r ∈ rows, key (f r) = key r) :
    (rows.map f).map key = rows.map key := by
  rw [List.map_map]
  exact List.map_congr_left hf

theorem Distinct.map {f : α → α} (h : Distinct key rows) (hf : ∀ r ∈ rows, key (f r) = key r) :
    Distinct key (rows.map f) := by
  unfold Distinct
  rw [map_key_map hf]
  exact h

theorem Distinct.append (h : Distinct key rows) (hk : ∀ r ∈ rows, key r ≠ key row) :
    Distinct key (rows ++ [row]) := by
  unfold Distinct at *
  rw [List.map_append, List.nodup_append]
  refine ⟨h, by simp, ?_⟩
  intro a ha b hb
  obtain ⟨r, hr, rfl⟩ := List.mem_map.mp ha
  simp only [List.map_cons, List.map_nil, List.mem_singleton] at hb
  rw [hb]
  exact hk r hr

theorem Distinct.filter (h : Distinct key rows) (p : α → Bool) : Distinct key (rows.filter p) :=
  h.sublist (List.filter_sublist.map key)

end Keys

section Supply

variable {α : Type} {key : α → Nat} {rows : List α} {row : α} {n : Nat}

/-- Every key was drawn from a supply that has reached `n`. -/
def Below (key : α → Nat) (rows : List α) (n : Nat) : Prop := ∀ r ∈ rows, key r < n

theorem Below.succ (h : Below key rows n) : Below key rows (n + 1) :=
  fun r hr => Nat.lt_succ_of_lt (h r hr)

/-- The next key is not in use. -/
theorem Below.ne (h : Below key rows n) (hk : key row = n) : ∀ r ∈ rows, key r ≠ key row := by
  intro r hr
  have := h r hr
  omega

theorem Below.append (h : Below key rows n) (hk : key row = n) :
    Below key (rows ++ [row]) (n + 1) := by
  intro r hr
  rcases List.mem_append.mp hr with hr | hr
  · exact h.succ r hr
  · rw [List.mem_singleton.mp hr]
    omega

theorem Below.map (h : Below key rows n) {f : α → α} (hf : ∀ r ∈ rows, key (f r) = key r) :
    Below key (rows.map f) n := by
  intro r' hr'
  obtain ⟨r, hr, rfl⟩ := List.mem_map.mp hr'
  rw [hf r hr]
  exact h r hr

theorem Below.filter (h : Below key rows n) (p : α → Bool) : Below key (rows.filter p) n :=
  fun r hr => h r (List.mem_filter.mp hr).1

end Supply

variable {α κ : Type} [DecidableEq κ]

/-- The first row whose key is `k`. -/
def get? (key : α → κ) (rows : List α) (k : κ) : Option α := rows.find? fun r => key r = k

/-- Write `row` back over the rows of its key. -/
def save (key : α → κ) (row : α) (rows : List α) : List α :=
  rows.map fun r => if key r = key row then row else r

/-- Dropping one key, then others. -/
theorem filter_keys (key : α → κ) (rows : List α) (k : κ) (ks : List κ) :
    (rows.filter (key · ≠ k)).filter (key · ∉ ks) = rows.filter (key · ∉ k :: ks) := by
  rw [List.filter_filter]
  apply List.filter_congr
  intro x _
  by_cases h : key x = k <;> simp [h]

variable {key : α → κ} {rows : List α} {row r : α} {k : κ}

theorem mem_of_get? (h : get? key rows k = some r) : r ∈ rows := List.mem_of_find?_eq_some h

theorem key_of_get? (h : get? key rows k = some r) : key r = k := by
  have := List.find?_some h
  simpa using this

theorem get?_eq_none : get? key rows k = none ↔ ∀ r ∈ rows, key r ≠ k := by
  simp [get?, List.find?_eq_none]

theorem isSome_get? : (get? key rows k).isSome = true ↔ ∃ r ∈ rows, key r = k := by
  simp [get?, List.find?_isSome]

/-- Rows are dropped that do not have the key. -/
theorem get?_filter {p : α → Bool} (h : ∀ r ∈ rows, key r = k → p r = true) :
    get? key (rows.filter p) k = get? key rows k := by
  unfold get?
  rw [List.find?_filter]
  refine List.find?_congr fun r hr => ?_
  by_cases hk : key r = k
  · simp [h r hr hk]
  · simp [hk]

/-- All rows of the key are dropped. -/
theorem get?_filter_eq_none {p : α → Bool} (h : ∀ r ∈ rows, key r = k → p r = false) :
    get? key (rows.filter p) k = none := by
  rw [get?_eq_none]
  intro r hr hk
  obtain ⟨hmem, hp⟩ := List.mem_filter.mp hr
  exact absurd ((h r hmem hk).symm.trans hp) (by decide)

theorem Distinct.get?_eq_some (h : Distinct key rows) (hr : r ∈ rows) :
    get? key rows (key r) = some r := by
  cases hg : get? key rows (key r) with
  | none => exact absurd rfl (get?_eq_none.mp hg r hr)
  | some x => rw [h.eq_of_key (mem_of_get? hg) hr (key_of_get? hg)]

theorem Distinct.get?_iff (h : Distinct key rows) :
    get? key rows k = some r ↔ r ∈ rows ∧ key r = k := by
  constructor
  · intro hg
    exact ⟨mem_of_get? hg, key_of_get? hg⟩
  · rintro ⟨hr, rfl⟩
    exact h.get?_eq_some hr

/-- The lookup in a table of projected rows that keep their key. -/
theorem get?_projected {β : Type} {key' : β → κ} {f : α → β} (hf : ∀ r, key' (f r) = key r) :
    get? key' (rows.map f) k = (get? key rows k).map f := by
  unfold get?
  rw [List.find?_map]
  congr 2
  funext r
  simp [hf]

/-! ## Rewriting rows in place -/

theorem get?_map {f : α → α} (hf : ∀ r, key (f r) = key r) :
    get? key (rows.map f) k = (get? key rows k).map f := get?_projected hf

/-- The rows of the key are not rewritten. -/
theorem get?_map_of_key {f : α → α} (hf : ∀ r, key (f r) = key r) (hk : ∀ r, key r = k → f r = r) :
    get? key (rows.map f) k = get? key rows k := by
  rw [get?_map hf]
  cases hg : get? key rows k with
  | none => rfl
  | some x => exact congrArg some (hk x (key_of_get? hg))

theorem key_saved (r : α) : key (if key r = key row then row else r) = key r := by
  split
  · next h => exact h.symm
  · rfl

theorem mem_save : r ∈ save key row rows ↔
    (r = row ∧ ∃ x ∈ rows, key x = key row) ∨ (r ∈ rows ∧ key r ≠ key row) := by
  unfold save
  rw [List.mem_map]
  constructor
  · rintro ⟨x, hx, rfl⟩
    by_cases hk : key x = key row
    · rw [if_pos hk]
      exact .inl ⟨rfl, x, hx, hk⟩
    · rw [if_neg hk]
      exact .inr ⟨hx, hk⟩
  · rintro (⟨rfl, x, hx, hk⟩ | ⟨hr, hk⟩)
    · exact ⟨x, hx, if_pos hk⟩
    · exact ⟨r, hr, if_neg hk⟩

theorem map_key_save : (save key row rows).map key = rows.map key :=
  map_key_map fun r _ => key_saved r

theorem save_save {row' : α} (h : key row' = key row) :
    save key row' (save key row rows) = save key row' rows := by
  unfold save
  rw [List.map_map]
  refine List.map_congr_left fun r _ => ?_
  rw [Function.comp_apply]
  by_cases hr : key r = key row
  · rw [if_pos hr, if_pos h.symm, if_pos (hr.trans h.symm)]
  · rw [if_neg hr]

/-- Rewriting the rows of a key is writing the row back, where it is one. -/
theorem Distinct.map_of_key (h : Distinct key rows) (hrow : row ∈ rows) {write : α → α}
    (hkey : key (write row) = key row) :
    (rows.map fun r => if key r = key row then write r else r) = save key (write row) rows := by
  unfold save
  refine List.map_congr_left fun r hr => ?_
  rw [hkey]
  by_cases hk : key r = key row
  · rw [if_pos hk, if_pos hk, h.eq_of_key hr hrow hk]
  · rw [if_neg hk, if_neg hk]

theorem Distinct.save (h : Distinct key rows) : Distinct key (save key row rows) :=
  h.map fun r _ => key_saved r

theorem get?_save_of_ne (h : key row ≠ k) : get? key (save key row rows) k = get? key rows k :=
  get?_map_of_key key_saved fun _ hr => if_neg fun heq => h (heq.symm.trans hr)

theorem get?_save_self (h : get? key rows (key row) = some r) :
    get? key (save key row rows) (key row) = some row := by
  unfold Rows.save
  rw [get?_map key_saved, h, Option.map_some, if_pos (key_of_get? h)]

/-- A row that is not there is not written. -/
theorem save_of_ne (h : ∀ r ∈ rows, key r ≠ key row) : save key row rows = rows :=
  (List.map_congr_left fun r hr => if_neg (h r hr)).trans (List.map_id _)

/-- The last row is written back. -/
theorem save_last {old : α} (h : Distinct key (rows ++ [old])) (hkey : key row = key old) :
    save key row (rows ++ [old]) = rows ++ [row] := by
  have hne : ∀ r ∈ rows, key r ≠ key row := by
    intro r hr heq
    unfold Distinct at h
    rw [List.map_append, List.nodup_append] at h
    exact h.2.2 (key r) (List.mem_map_of_mem hr) (key old) List.mem_cons_self (heq.trans hkey)
  have hlast : save key row [old] = [row] := congrArg (fun r => [r]) (if_pos hkey.symm)
  calc save key row (rows ++ [old]) = save key row rows ++ save key row [old] := List.map_append
    _ = rows ++ [row] := by rw [save_of_ne hne, hlast]

/-- A row is written back, and the rows of a kind are taken, in either order. -/
theorem filter_save_of {p : α → Bool} (h : ∀ r ∈ rows, key r = key row → p r = p row) :
    (save key row rows).filter p = save key row (rows.filter p) := by
  unfold save
  rw [List.filter_map]
  congr 1
  refine List.filter_congr fun r hr => ?_
  rw [Function.comp_apply]
  split
  · next hk => exact (h r hr hk).symm
  · rfl

/-- Dropping a key and writing a row back, in either order. -/
theorem filter_save (k : κ) :
    (save key row rows).filter (key · ≠ k) = save key row (rows.filter (key · ≠ k)) :=
  filter_save_of fun _ _ hk => by rw [hk]

/-- A row that is written back and dropped. -/
theorem filter_save_self : (save key row rows).filter (key · ≠ key row) =
    rows.filter (key · ≠ key row) := by
  rw [filter_save]
  exact save_of_ne fun r hr => by simpa using (List.mem_filter.mp hr).2

theorem get?_append_of_ne (h : key row ≠ k) :
    get? key (rows ++ [row]) k = get? key rows k := by
  unfold get?
  rw [List.find?_append]
  simp [h]

end VpnPanel.Lib.Rows
