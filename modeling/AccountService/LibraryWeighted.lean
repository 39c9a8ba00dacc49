import Mathlib.Algebra.BigOperators.Group.List.Basic
import Mathlib.Algebra.Order.Ring.Nat
import Mathlib.Tactic.Common

/-! Choice by cumulated weights: a draw belongs to the first position at which the running sum of the
weights reaches it. Each position owns an interval of draws as long as its weight. -/

namespace Weighted

/-- The position a draw belongs to, with `current` the weights in front of the list. -/
def pick (random : Nat) : Nat → List Nat → Option Nat
  | _, [] => none
  | current, w :: ws => if random ≤ current + w then some 0 else (pick random (current + w) ws).map (· + 1)

/-- The draws past `current` that the weights share out. -/
def share (current : Nat) (ws : List Nat) : List Nat := List.range' (current + 1) ws.sum

theorem mem_share {random current : Nat} {ws : List Nat} :
    random ∈ share current ws ↔ current < random ∧ random ≤ current + ws.sum := by
  rw [share, List.mem_range'_1]
  omega

theorem share_cons (current w : Nat) (ws : List Nat) :
    share current (w :: ws) = List.range' (current + 1) w ++ share (current + w) ws := by
  rw [share, share, List.sum_cons, ← List.range'_append_1, Nat.add_right_comm]

theorem pick_cons_of_le {random current w : Nat} (h : random ≤ current + w) (ws : List Nat) :
    pick random current (w :: ws) = some 0 := if_pos h

theorem pick_cons_of_lt {random current w : Nat} (h : current + w < random) (ws : List Nat) :
    pick random current (w :: ws) = (pick random (current + w) ws).map (· + 1) :=
  if_neg (Nat.not_le.mpr h)

/-- A draw that the weights share out belongs to a position, and that position has a weight. -/
theorem pick_of_mem_share {random : Nat} : ∀ {current : Nat} {ws : List Nat}, random ∈ share current ws →
    ∃ i, ∃ h : i < ws.length, pick random current ws = some i ∧ 0 < ws[i]
  | current, [], h => by
      have := mem_share.mp h
      simp only [List.sum_nil] at this
      omega
  | current, w :: ws, h => by
      obtain ⟨hlow, hhigh⟩ := mem_share.mp h
      by_cases hle : random ≤ current + w
      · exact ⟨0, Nat.zero_lt_succ _, pick_cons_of_le hle ws, show 0 < w by omega⟩
      · have hlt : current + w < random := Nat.not_le.mp hle
        rw [List.sum_cons] at hhigh
        obtain ⟨i, hi, hpick, hpos⟩ :=
          pick_of_mem_share (mem_share.mpr ⟨hlt, show random ≤ current + w + ws.sum by omega⟩)
        exact ⟨i + 1, Nat.succ_lt_succ hi, by rw [pick_cons_of_lt hlt, hpick]; rfl, hpos⟩

/-- **Proportional shares.** Each position owns as many draws as its weight. -/
theorem countP_pick : ∀ (current : Nat) (ws : List Nat) (i : Nat) (h : i < ws.length),
    (share current ws).countP (fun random => pick random current ws = some i) = ws[i]
  | current, w :: ws, 0, _ => by
      have hfront : ∀ random ∈ List.range' (current + 1) w,
          decide (pick random current (w :: ws) = some 0) = true := by
        intro random hmem
        rw [List.mem_range'_1] at hmem
        rw [pick_cons_of_le (by omega), decide_eq_true_eq]
      have hback : ∀ random ∈ share (current + w) ws,
          ¬ decide (pick random current (w :: ws) = some 0) = true := by
        intro random hmem
        rw [pick_cons_of_lt (mem_share.mp hmem).1, decide_eq_true_eq, Option.map_eq_some_iff]
        rintro ⟨j, -, hj⟩
        exact Nat.succ_ne_zero j hj
      rw [share_cons, List.countP_append, List.countP_eq_length.mpr hfront, List.countP_eq_zero.mpr hback,
        List.length_range']
      rfl
  | current, w :: ws, i + 1, h => by
      have hfront : ∀ random ∈ List.range' (current + 1) w,
          ¬ decide (pick random current (w :: ws) = some (i + 1)) = true := by
        intro random hmem
        rw [List.mem_range'_1] at hmem
        rw [pick_cons_of_le (by omega), decide_eq_true_eq, Option.some.injEq]
        exact (Nat.succ_ne_zero i).symm
      have hback : ∀ random ∈ share (current + w) ws,
          (decide (pick random current (w :: ws) = some (i + 1)) = true ↔
            decide (pick random (current + w) ws = some i) = true) := by
        intro random hmem
        rw [pick_cons_of_lt (mem_share.mp hmem).1, decide_eq_true_eq, decide_eq_true_eq,
          Option.map_eq_some_iff]
        exact ⟨fun ⟨j, hj, hi⟩ => by rw [hj, Nat.succ.inj hi], fun hi => ⟨i, hi, rfl⟩⟩
      rw [share_cons, List.countP_append, List.countP_eq_zero.mpr hfront, List.countP_congr hback, Nat.zero_add,
        countP_pick (current + w) ws i (Nat.lt_of_succ_lt_succ h)]
      rfl

end Weighted
