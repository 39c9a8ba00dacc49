import Mathlib.Logic.Function.Basic
import Mathlib.Order.Basic
import Mathlib.Tactic.Common

/-! A key-value store whose entries may carry a deadline. An entry is live strictly before its
deadline and is absent from then on, whether or not it has been removed; an entry with no deadline
stays until it is overwritten or erased. -/

namespace Expiring

/-- A stored value and the instant from which it is gone. -/
structure Slot (V : Type) where
  value : V
  deadline : Option Nat
  deriving DecidableEq

def Slot.Live {V : Type} (e : Slot V) (now : Nat) : Prop :=
  match e.deadline with
  | none => True
  | some d => now < d

instance {V : Type} (e : Slot V) (now : Nat) : Decidable (e.Live now) :=
  match h : e.deadline with
  | none => isTrue (by simp [Slot.Live, h])
  | some d => decidable_of_iff (now < d) (by simp [Slot.Live, h])

/-- A store, as the raw slot of every key. -/
abbrev Store (K V : Type) := K → Option (Slot V)

namespace Store

variable {K V : Type} [DecidableEq K]

def empty : Store K V := fun _ => none

/-- The slot of a key at an instant: what a client of the store sees. -/
def look (s : Store K V) (now : Nat) (k : K) : Option (Slot V) :=
  match s k with
  | some e => if e.Live now then some e else none
  | none => none

def put (s : Store K V) (k : K) (e : Slot V) : Store K V := Function.update s k (some e)

def erase (s : Store K V) (k : K) : Store K V := Function.update s k none

variable (s : Store K V) (now : Nat) (k j : K) (e : Slot V)

omit [DecidableEq K] in
@[simp] theorem look_empty : look (empty : Store K V) now k = none := rfl

omit [DecidableEq K] in
theorem look_congr {t : Store K V} (h : t k = s k) : look t now k = look s now k := by
  rw [look, look, h]

@[simp] theorem look_put_self : look (put s k e) now k = if e.Live now then some e else none := by
  simp [look, put]

theorem put_ne (h : j ≠ k) : put s k e j = s j := Function.update_of_ne h _ _

theorem look_put_ne (h : j ≠ k) : look (put s k e) now j = look s now j :=
  look_congr _ _ _ (put_ne s k j e h)

@[simp] theorem look_erase_self : look (erase s k) now k = none := by
  simp [look, erase]

theorem erase_ne (h : j ≠ k) : erase s k j = s j := Function.update_of_ne h _ _

theorem look_erase_ne (h : j ≠ k) : look (erase s k) now j = look s now j :=
  look_congr _ _ _ (erase_ne s k j h)

omit [DecidableEq K] in
/-- A visible slot is the raw one. -/
theorem eq_of_look {s : Store K V} {now : Nat} {k : K} {e : Slot V} (h : look s now k = some e) : s k = some e := by
  unfold look at h
  split at h
  · split at h
    · cases h; assumption
    · cases h
  · cases h

omit [DecidableEq K] in
/-- A slot without a deadline is visible. -/
theorem look_of_deadline_none {s : Store K V} (now : Nat) {k : K} {e : Slot V} (h : s k = some e)
    (hd : e.deadline = none) : look s now k = some e := by
  simp [look, h, Slot.Live, hd]

omit [DecidableEq K] in
/-- A visible slot is live. -/
theorem live_of_look {s : Store K V} {now : Nat} {k : K} {e : Slot V}
    (h : look s now k = some e) : e.Live now := by
  unfold look at h
  split at h
  · split at h
    · cases h; assumption
    · cases h
  · cases h

omit [DecidableEq K] in
/-- What is visible later is what was visible before, less the entries that have expired. -/
theorem look_later {now later : Nat} (hle : now ≤ later) :
    look s later k = (look s now k).filter fun e => e.Live later := by
  unfold look
  cases s k with
  | none => rfl
  | some e =>
      by_cases hl : e.Live later
      · have hn : e.Live now := by
          cases hd : e.deadline with
          | none => simp [Slot.Live, hd]
          | some d =>
              simp only [Slot.Live, hd] at hl ⊢
              omega
        simp [Option.filter, hl, hn]
      · by_cases hn : e.Live now <;> simp [Option.filter, hl, hn]

omit [DecidableEq K] in
theorem look_of_look_later {now later : Nat} (hle : now ≤ later) {e : Slot V}
    (h : look s later k = some e) : look s now k = some e := by
  rw [look_later s k hle, Option.filter_eq_some_iff] at h
  exact h.1

omit [DecidableEq K] in
theorem look_later_none {now later : Nat} (hle : now ≤ later) (h : look s now k = none) :
    look s later k = none := by
  rw [look_later s k hle, h]
  rfl

end Store
end Expiring
