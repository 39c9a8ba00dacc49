import Mathlib.Tactic.Common

/-! A map kept as the list of its entries in the order of the keys, as iteration over a search tree
lists them. Assigning a value to a key replaces the entry of that key or adds one at its place. -/

namespace OrderedMap

variable {K V : Type} [DecidableEq K]

/-- `m[k] = v`. -/
def assign (lt : K → K → Bool) (k : K) (v : V) : List (K × V) → List (K × V)
  | [] => [(k, v)]
  | (j, u) :: rest =>
      if k = j then (k, v) :: rest
      else if lt k j then (k, v) :: (j, u) :: rest
      else (j, u) :: assign lt k v rest

/-- The value of a key. -/
def find (k : K) : List (K × V) → Option V
  | [] => none
  | (j, v) :: rest => if k = j then some v else find k rest

@[simp] theorem find_nil (k : K) : find k ([] : List (K × V)) = none := rfl

@[simp] theorem find_assign_self (lt : K → K → Bool) (k : K) (v : V) (m : List (K × V)) :
    find k (assign lt k v m) = some v := by
  induction m with
  | nil => simp [assign, find]
  | cons e rest ih =>
      obtain ⟨j, u⟩ := e
      by_cases hkj : k = j
      · simp [assign, find, hkj]
      · by_cases hlt : lt k j = true
        · simp [assign, find, hkj, hlt]
        · simp [assign, find, hkj, hlt, ih]

theorem find_assign_ne (lt : K → K → Bool) {j k : K} (v : V) (m : List (K × V)) (hjk : j ≠ k) :
    find j (assign lt k v m) = find j m := by
  induction m with
  | nil => simp [assign, find, hjk]
  | cons e rest ih =>
      obtain ⟨i, u⟩ := e
      by_cases hki : k = i
      · subst hki
        simp [assign, find, hjk]
      · by_cases hlt : lt k i = true
        · simp [assign, find, hki, hlt, hjk]
        · simp [assign, find, hki, hlt, ih]

/-! ### A list of entries in order -/

variable {lt : K → K → Bool}

/-- Assigning a key past all the others adds its entry at the end. -/
theorem assign_append (hirrefl : ∀ k, lt k k = false) (hasymm : ∀ j k, lt j k = true → lt k j = false)
    {k : K} (v : V) {m : List (K × V)} (h : ∀ e ∈ m, lt e.1 k = true) :
    assign lt k v m = m ++ [(k, v)] := by
  induction m with
  | nil => rfl
  | cons e rest ih =>
      obtain ⟨j, u⟩ := e
      have hjk : lt j k = true := h (j, u) List.mem_cons_self
      have hne : k ≠ j := by
        rintro rfl
        rw [hirrefl] at hjk
        exact Bool.false_ne_true hjk
      rw [assign, if_neg hne, if_neg (by rw [hasymm j k hjk]; exact Bool.false_ne_true),
        ih (fun e he => h e (List.mem_cons_of_mem _ he)), List.cons_append]

/-- Assigning the entries of an ordered list in its order builds that list. -/
theorem foldl_assign_of_pairwise (hirrefl : ∀ k, lt k k = false)
    (hasymm : ∀ j k, lt j k = true → lt k j = false) (m front : List (K × V))
    (h : (front ++ m).Pairwise fun d e => lt d.1 e.1 = true) :
    m.foldl (fun acc e => assign lt e.1 e.2 acc) front = front ++ m := by
  induction m generalizing front with
  | nil => rw [List.foldl_nil, List.append_nil]
  | cons e rest ih =>
      have hfront : ∀ d ∈ front, lt d.1 e.1 = true := fun d hd =>
        (List.pairwise_append.mp h).2.2 d hd e List.mem_cons_self
      have hshift : front ++ e :: rest = front ++ [e] ++ rest := by
        rw [List.append_assoc, List.singleton_append]
      rw [List.foldl_cons, assign_append hirrefl hasymm e.2 hfront, hshift]
      exact ih (front ++ [e]) (hshift ▸ h)

end OrderedMap
