import Mathlib.Logic.Function.Basic
import Mathlib.Tactic.Common

/-! Resources with one owner each: places hold resources, a place gets a new resource, gives the one that it holds to
another place, or lets it go. No resource is then held twice, none is held that is gone, and none is lost. -/

namespace Ownership

variable {ι κ : Type}

/-- Who holds which of the live resources. -/
structure Sound (holds : ι → Option κ) (live : κ → Prop) : Prop where
  alive : ∀ {i p}, holds i = some p → live p
  unique : ∀ {i j p}, holds i = some p → holds j = some p → i = j
  covered : ∀ {p}, live p → ∃ i, holds i = some p

theorem sound_empty : Sound (fun _ : ι => (none : Option κ)) fun _ => False where
  alive h := by cases h
  unique h := by cases h
  covered h := h.elim

variable {holds holds' : ι → Option κ} {live live' : κ → Prop}

theorem Sound.congr (h : Sound holds live) (hholds : ∀ i, holds' i = holds i) (hlive : ∀ p, live' p ↔ live p) :
    Sound holds' live' := by
  obtain rfl : holds' = holds := funext hholds
  obtain rfl : live' = live := funext fun p => propext (hlive p)
  exact h

variable [DecidableEq ι] {i j : ι} {p : κ}

/-- A new resource. -/
theorem Sound.acquire (h : Sound holds live) (hi : holds i = none) (hp : ¬live p) :
    Sound (Function.update holds i (some p)) fun q => q = p ∨ live q := by
  have hother : ∀ {k q}, Function.update holds i (some p) k = some q → (k = i ∧ q = p) ∨ k ≠ i ∧ holds k = some q := by
    intro k q hk
    by_cases hki : k = i
    · rw [hki, Function.update_self] at hk
      exact Or.inl ⟨hki, (Option.some.inj hk).symm⟩
    · rw [Function.update_of_ne hki] at hk
      exact Or.inr ⟨hki, hk⟩
  refine ⟨fun hk => ?_, fun hk hl => ?_, fun hq => ?_⟩
  · rcases hother hk with ⟨-, rfl⟩ | ⟨-, hk⟩
    · exact Or.inl rfl
    · exact Or.inr (h.alive hk)
  · rcases hother hk with ⟨hki, hq⟩ | ⟨-, hold⟩
    · rcases hother hl with ⟨hli, -⟩ | ⟨-, hold⟩
      · rw [hki, hli]
      · exact absurd (h.alive hold) (hq ▸ hp)
    · rcases hother hl with ⟨-, hq⟩ | ⟨-, hold'⟩
      · exact absurd (h.alive hold) (hq ▸ hp)
      · exact h.unique hold hold'
  · rcases hq with rfl | hq
    · exact ⟨i, Function.update_self ..⟩
    · obtain ⟨k, hk⟩ := h.covered hq
      refine ⟨k, ?_⟩
      rw [Function.update_of_ne, hk]
      rintro rfl
      cases hi.symm.trans hk

/-- A place lets go of what it holds. -/
theorem Sound.release (h : Sound holds live) (i : ι) :
    Sound (Function.update holds i none) fun q => live q ∧ holds i ≠ some q := by
  have hother : ∀ {k q}, Function.update holds i none k = some q → k ≠ i ∧ holds k = some q := by
    intro k q hk
    by_cases hki : k = i
    · rw [hki, Function.update_self] at hk
      cases hk
    · rw [Function.update_of_ne hki] at hk
      exact ⟨hki, hk⟩
  refine ⟨fun hk => ?_, fun hk hl => h.unique (hother hk).2 (hother hl).2, fun hq => ?_⟩
  · obtain ⟨hne, hk⟩ := hother hk
    exact ⟨h.alive hk, fun hi => hne (h.unique hk hi)⟩
  · obtain ⟨k, hk⟩ := h.covered hq.1
    refine ⟨k, ?_⟩
    rw [Function.update_of_ne, hk]
    rintro rfl
    exact hq.2 hk

/-- A place gives what it holds to a place that holds nothing. -/
theorem Sound.transfer (h : Sound holds live) (hne : i ≠ j) (hi : holds i = none) :
    Sound (Function.update (Function.update holds i (holds j)) j none) live := by
  have hother : ∀ {k q}, Function.update (Function.update holds i (holds j)) j none k = some q →
      (k = i ∧ holds j = some q) ∨ k ≠ i ∧ k ≠ j ∧ holds k = some q := by
    intro k q hk
    by_cases hkj : k = j
    · rw [hkj, Function.update_self] at hk
      cases hk
    · rw [Function.update_of_ne hkj] at hk
      by_cases hki : k = i
      · rw [hki, Function.update_self] at hk
        exact Or.inl ⟨hki, hk⟩
      · rw [Function.update_of_ne hki] at hk
        exact Or.inr ⟨hki, hkj, hk⟩
  refine ⟨fun hk => ?_, fun hk hl => ?_, fun hq => ?_⟩
  · rcases hother hk with ⟨-, hk⟩ | ⟨-, -, hk⟩ <;> exact h.alive hk
  · rcases hother hk with ⟨hki, hold⟩ | ⟨-, hkj, hold⟩
    · rcases hother hl with ⟨hli, -⟩ | ⟨-, hlj, hold'⟩
      · rw [hki, hli]
      · exact absurd (h.unique hold' hold) hlj
    · rcases hother hl with ⟨-, hold'⟩ | ⟨-, -, hold'⟩
      · exact absurd (h.unique hold hold') hkj
      · exact h.unique hold hold'
  · obtain ⟨k, hk⟩ := h.covered hq
    by_cases hkj : k = j
    · refine ⟨i, ?_⟩
      rw [Function.update_of_ne hne, Function.update_self, ← hkj, hk]
    · refine ⟨k, ?_⟩
      rw [Function.update_of_ne hkj, Function.update_of_ne, hk]
      rintro rfl
      cases hi.symm.trans hk

end Ownership
