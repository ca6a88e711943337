import Mathlib.Data.Fintype.BigOperators
import Mathlib.Data.List.Sort
import VpnPanel.Lib.Base64

/-!
# Packed numbers and chunks

`struct.pack` of big-endian numbers, which raises where a number does not fit its
width, and the cutting of a byte string into chunks.
-/

namespace VpnPanel.Lib

namespace Pack

/-! ## Numbers -/

/-- The last `width` bytes of a number, the highest first. -/
def bigEndian : Nat → Nat → List Byte
  | 0, _ => []
  | width + 1, n => bigEndian width (n / 256) ++ [Byte.ofNat n]

/-- The number of some bytes. -/
def number (bytes : List Byte) : Nat := bytes.foldl (fun n byte => n * 256 + byte.val) 0

/-- The unsigned formats `B`, `H` and `I`, of one, two and four bytes. -/
def unsigned (width n : Nat) : Option (List Byte) :=
  if n < 256 ^ width then some (bigEndian width n) else none

/-- The signed formats, in two's complement. -/
def signed (width : Nat) (n : Int) : Option (List Byte) :=
  if -(256 ^ width : Nat) ≤ 2 * n ∧ 2 * n < (256 ^ width : Nat) then
    some (bigEndian width (n % (256 ^ width : Nat)).toNat)
  else none

@[simp] theorem length_bigEndian (width n : Nat) : (bigEndian width n).length = width := by
  induction width generalizing n with
  | zero => rfl
  | succ width ih => rw [bigEndian, List.length_append, ih, List.length_singleton]

theorem number_bigEndian {width n : Nat} (h : n < 256 ^ width) :
    number (bigEndian width n) = n := by
  induction width generalizing n with
  | zero =>
      rw [Nat.pow_zero] at h
      exact (Nat.lt_one_iff.mp h).symm
  | succ width ih =>
      have hhigh : n / 256 < 256 ^ width := Nat.div_lt_of_lt_mul (by rwa [Nat.pow_succ'] at h)
      unfold number at ih ⊢
      rw [bigEndian, List.foldl_append, ih hhigh]
      show n / 256 * 256 + n % 256 = n
      omega

theorem unsigned_eq_some {width n : Nat} {bytes : List Byte} :
    unsigned width n = some bytes ↔ n < 256 ^ width ∧ bigEndian width n = bytes := by
  unfold unsigned
  split
  · next h => simp [h]
  · next h => simp [h]

end Pack

/-! ## Chunks -/

section Chunks

variable {α : Type}

/-- `[xs[i : i + size] for i in range(0, len(xs), size)]` -/
def chunks (size : Nat) (xs : List α) : List (List α) :=
  (List.range ((xs.length + size - 1) / size)).map fun i => (xs.drop (i * size)).take size

variable {size : Nat} {xs : List α}

theorem length_chunks : (chunks size xs).length = (xs.length + size - 1) / size := by
  unfold chunks
  rw [List.length_map, List.length_range]

theorem flatten_take (size : Nat) (xs : List α) (count : Nat) :
    ((List.range count).map fun i => (xs.drop (i * size)).take size).flatten =
      xs.take (count * size) := by
  induction count with
  | zero => simp
  | succ count ih =>
      rw [List.range_succ, List.map_append, List.flatten_append, ih]
      simp [Nat.succ_mul, List.take_add]

theorem flatten_chunks (h : 0 < size) : (chunks size xs).flatten = xs := by
  unfold chunks
  rw [flatten_take]
  apply List.take_of_length_le
  have hdiv := Nat.div_add_mod (xs.length + size - 1) size
  have hmod := Nat.mod_lt (xs.length + size - 1) h
  have hcomm := Nat.mul_comm size ((xs.length + size - 1) / size)
  omega

theorem length_of_mem_chunks {chunk : List α} (h : chunk ∈ chunks size xs) :
    chunk.length ≤ size := by
  obtain ⟨i, -, rfl⟩ := List.mem_map.mp h
  exact List.length_take_le _ _

end Chunks

/-! ## Order -/

/-- Where every entry is read, `mapM` is the list of what was read. -/
theorem mapM_eq_filterMap {α β : Type} {f : α → Option β} {xs : List α}
    (h : ∀ x ∈ xs, (f x).isSome = true) : xs.mapM f = some (xs.filterMap f) := by
  induction xs with
  | nil => rfl
  | cons x rest ih =>
      obtain ⟨y, hy⟩ := Option.isSome_iff_exists.mp (h x List.mem_cons_self)
      rw [List.mapM_cons, hy, ih fun z hz => h z (List.mem_cons_of_mem x hz),
        List.filterMap_cons_some hy]
      rfl

theorem isSome_of_mapM {α β : Type} {f : α → Option β} {xs : List α}
    (h : (xs.mapM f).isSome = true) : ∀ x ∈ xs, (f x).isSome = true := by
  induction xs with
  | nil => simp
  | cons x rest ih =>
      rw [List.mapM_cons] at h
      cases hx : f x with
      | none => simp [hx] at h
      | some y =>
          cases hrest : rest.mapM f with
          | none => simp [hx, hrest] at h
          | some ys =>
              rw [hrest] at ih
              simp only [List.forall_mem_cons, hx]
              exact ⟨rfl, ih rfl⟩

/-- Entries with distinct numbers are put in order, from whatever order they are in. -/
theorem sort_of_perm {α : Type} (number : α → Nat) {xs ys : List α}
    (hsorted : xs.Pairwise fun x y => number x < number y) (h : ys.Perm xs) :
    ys.insertionSort (fun x y => number x ≤ number y) = xs := by
  have hperm := (List.perm_insertionSort (fun x y => number x ≤ number y) ys).trans h
  have hdistinct : (xs.map number).Nodup :=
    List.pairwise_map.mpr (hsorted.imp fun hlt => hlt.ne)
  refine List.Perm.eq_of_pairwise ?_ (List.pairwise_insertionSort _ ys)
    (hsorted.imp fun hlt => hlt.le) hperm
  intro x y hx hy hxy hyx
  exact List.inj_on_of_nodup_map hdistinct (hperm.mem_iff.mp hx) hy (Nat.le_antisymm hxy hyx)

/-! ## What cannot be short -/

/-- Where lists of a length are too few, one of the images is longer. -/
theorem exists_long {α β : Type} [Fintype α] [Fintype β] [DecidableEq α] {f : α → List β}
    (hf : Function.Injective f) {n : Nat} (h : (Fintype.card β + 1) ^ n < Fintype.card α) :
    ∃ a, n < (f a).length := by
  by_contra hshort
  have hlength : ∀ a, (f a).length ≤ n := fun a => Nat.le_of_not_lt fun hlong => hshort ⟨a, hlong⟩
  let entries : α → Fin n → Option β := fun a i => (f a)[i.val]?
  have hinjective : Function.Injective entries := by
    intro a b hab
    apply hf
    apply List.ext_getElem?
    intro i
    by_cases hi : i < n
    · exact congrFun hab ⟨i, hi⟩
    · have ha := hlength a
      have hb := hlength b
      rw [List.getElem?_eq_none (by omega), List.getElem?_eq_none (by omega)]
  have hcard := Fintype.card_le_of_injective entries hinjective
  rw [Fintype.card_fun, Fintype.card_option, Fintype.card_fin] at hcard
  exact absurd h (Nat.not_lt.mpr hcard)

/-- No code for nine bits a byte is that short on all of them. -/
theorem exists_long_bits {n : Nat} (hn : 0 < n) {f : (Fin (9 * n) → Bool) → List Byte}
    (hf : Function.Injective f) : ∃ bits, n < (f bits).length := by
  apply exists_long hf
  rw [Fintype.card_fun, Fintype.card_fin, Fintype.card_fin, Fintype.card_bool, Nat.pow_mul]
  exact Nat.pow_lt_pow_left (by decide) (Nat.pos_iff_ne_zero.mp hn)

end VpnPanel.Lib
