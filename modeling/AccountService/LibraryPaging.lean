import Mathlib.Tactic.Common

/-! A list cut into pages of one size: an offset and a limit for each page, and the number of pages as
a division rounded up. -/

namespace Paging

variable {α : Type} (size : Nat)

/-- The page at offset `k * size`, with the limit `size`. -/
def page (k : Nat) (l : List α) : List α := (l.drop (k * size)).take size

/-- The number of pages for `n` entries. -/
def count (n : Nat) : Nat := (n + size - 1) / size

def pages (l : List α) : List (List α) := (List.range (count size l.length)).map fun k => page size k l

@[simp] theorem length_pages (l : List α) : (pages size l).length = count size l.length := by
  rw [pages, List.length_map, List.length_range]

theorem length_page (k : Nat) (l : List α) : (page size k l).length = min size (l.length - k * size) := by
  rw [page, List.length_take, List.length_drop]

/-- The pages up to a number hold the front of the list. -/
theorem flatten_front (l : List α) (n : Nat) :
    ((List.range n).map fun k => page size k l).flatten = l.take (n * size) := by
  induction n with
  | zero => rw [Nat.zero_mul, List.take_zero]; rfl
  | succ n ih =>
      rw [List.range_succ, List.map_append, List.flatten_append, ih, List.map_singleton,
        List.flatten_singleton, page, Nat.succ_mul, List.take_add]

variable {size} (hsize : 0 < size)

include hsize

theorem lt_count_iff (k n : Nat) : k < count size n ↔ k * size < n := by
  rw [count, ← Nat.succ_le_iff, Nat.le_div_iff_mul_le hsize, Nat.succ_mul]
  omega

/-- **Partition.** The pages one after another are the list. -/
theorem flatten_pages (l : List α) : (pages size l).flatten = l := by
  have hlast : ¬ count size l.length * size < l.length := by
    rw [← lt_count_iff hsize]
    exact Nat.lt_irrefl _
  rw [pages, flatten_front, List.take_of_length_le (Nat.not_lt.mp hlast)]

/-- Every page but the last is full. -/
theorem length_page_of_succ_lt {k : Nat} {l : List α} (h : k + 1 < count size l.length) :
    (page size k l).length = size := by
  have hnext := (lt_count_iff hsize (k + 1) l.length).mp h
  rw [Nat.succ_mul] at hnext
  rw [length_page]
  omega

theorem page_ne_nil {k : Nat} {l : List α} (h : k < count size l.length) : page size k l ≠ [] := by
  have hfirst := (lt_count_iff hsize k l.length).mp h
  rw [← List.length_pos_iff, length_page]
  omega

theorem page_of_count_le {k : Nat} {l : List α} (h : count size l.length ≤ k) : page size k l = [] := by
  have hpast : ¬ k * size < l.length := by
    rw [← lt_count_iff hsize]
    exact Nat.not_lt.mpr h
  rw [← List.length_eq_zero_iff, length_page]
  omega

end Paging
