import Mathlib.Data.List.Nodup
import Mathlib.Tactic.Common

/-! Tables: lists of rows in which no two rows have the same value of a key. -/

namespace Table

variable {ρ κ : Type} {key : ρ → κ} {rows : List ρ}

/-- No two rows have the same key. -/
def Unique (key : ρ → κ) (rows : List ρ) : Prop := (rows.map key).Nodup

theorem unique_nil : Unique key [] := List.nodup_nil

theorem Unique.eq_of_key (h : Unique key rows) {x y : ρ} (hx : x ∈ rows) (hy : y ∈ rows)
    (hk : key x = key y) : x = y :=
  List.inj_on_of_nodup_map h hx hy hk

/-- Writing to the other columns. -/
theorem Unique.map (h : Unique key rows) {f : ρ → ρ} (hf : ∀ r, key (f r) = key r) :
    Unique key (rows.map f) := by
  have hkeys : (rows.map f).map key = rows.map key := by
    rw [List.map_map]
    exact List.map_congr_left fun r _ => hf r
  rw [Unique, hkeys]
  exact h

theorem Unique.filter (h : Unique key rows) (p : ρ → Bool) : Unique key (rows.filter p) :=
  List.Nodup.sublist (List.filter_sublist.map key) h

/-- Inserting a row whose key is new. -/
theorem Unique.insert (h : Unique key rows) {x : ρ} (hnew : ∀ r ∈ rows, key r ≠ key x) :
    Unique key (rows ++ [x]) := by
  rw [Unique, List.map_append]
  refine List.Nodup.append h (List.nodup_singleton _) fun k hk hx => ?_
  obtain ⟨r, hr, rfl⟩ := List.mem_map.mp hk
  exact hnew r hr (by simpa using hx)

/-- A row is what a lookup of its key finds. -/
theorem Unique.find [DecidableEq κ] (h : Unique key rows) {x : ρ} (hx : x ∈ rows) :
    rows.find? (fun r => key r = key x) = some x := by
  cases hfind : rows.find? (fun r => key r = key x) with
  | none =>
      have := List.find?_eq_none.mp hfind x hx
      simp at this
  | some y =>
      have hy : key y = key x := by simpa using List.find?_some hfind
      rw [h.eq_of_key (List.mem_of_find?_eq_some hfind) hx hy]

end Table
