import AccountService.LibraryWeighted
import AccountService.ModelDiscovery

/-! `SelectInstance` and `SelectInstanceWeighted`: a choice among the cached instances of the service by
one draw. The draws of the weighted choice are shared out among the positions of the list exactly by
weight. -/

namespace AccountService

open Interaction

structure ServiceInstance where
  serviceName : Bytes
  instanceId : Bytes
  host : Bytes
  port : Int32
  weight : Int32 := 100
  metadata : List (Bytes × Bytes)
  deriving DecidableEq

/-- `uniform_int_distribution(low, high)` on `rng_`. -/
abbrev Uniform : Signature where
  Cmd := Int × Int
  Reply _ := Int

/-- The values a distribution may return, each as likely as the others. -/
def drawsOf (low high : Int) : List Int :=
  (List.range (high + 1 - low).toNat).map fun offset : Nat => low + offset

/-- The results of a program over all its draws. -/
def outcomes {α : Type} : Program Uniform α → List α
  | .done a => [a]
  | .call range next => (drawsOf range.1 range.2).flatMap fun draw => outcomes (next draw)

/-- What a selection returns: `nullptr`, a copy of an element, or `instances.back()` behind the loop. -/
inductive Selection
  | null
  | element (position : Nat)
  | back
  deriving DecidableEq

/-- The instance that is returned. -/
def Selection.value (instances : List ServiceInstance) : Selection → Option ServiceInstance
  | .null => none
  | .element position => instances[position]?
  | .back => instances.getLast?

/-- `GetInstances`: an empty list when nothing is cached. -/
def Session.getInstances {α : Type} (s : Session α) : List α := s.cache.getD []

def selectInstance (s : Session ServiceInstance) : Program Uniform Selection :=
  let instances := s.getInstances
  if instances.isEmpty then pure .null
  else .call (0, (instances.length : Int) - 1) fun index => pure (.element index.toNat)

def totalWeight (instances : List ServiceInstance) : Int32 :=
  instances.foldl (fun total inst => total + inst.weight) 0

/-- The loop of `SelectInstanceWeighted` from a position on. -/
def weightedLoop (randomWeight : Int32) : Int32 → Nat → List ServiceInstance → Selection
  | _, _, [] => .back
  | currentWeight, position, inst :: rest =>
      if randomWeight ≤ currentWeight + inst.weight then .element position
      else weightedLoop randomWeight (currentWeight + inst.weight) (position + 1) rest

def selectInstanceWeighted (s : Session ServiceInstance) : Program Uniform Selection :=
  let instances := s.getInstances
  if instances.isEmpty then pure .null
  else if totalWeight instances ≤ 0 then selectInstance s
  else
    .call (1, (totalWeight instances).toInt) fun randomWeight =>
      pure (weightedLoop (Int32.ofInt randomWeight) 0 0 instances)

/-- The weights as numbers. -/
def weights (instances : List ServiceInstance) : List Nat := instances.map fun inst => inst.weight.toInt.toNat

/-- No weight is negative. -/
def NonNegative (instances : List ServiceInstance) : Prop := ∀ inst ∈ instances, 0 ≤ inst.weight.toInt

theorem NonNegative.tail {inst : ServiceInstance} {rest : List ServiceInstance}
    (h : NonNegative (inst :: rest)) : NonNegative rest := fun i hi => h i (List.mem_cons_of_mem _ hi)

/-- A running sum that stays in the range of `int`. -/
theorem toInt_add_weight {current : Int32} {inst : ServiceInstance} {c : Nat} (hc : current.toInt = c)
    (hpos : 0 ≤ inst.weight.toInt) (hbound : c + inst.weight.toInt.toNat < 2 ^ 31) :
    (current + inst.weight).toInt = ((c + inst.weight.toInt.toNat : Nat) : Int) := by
  rw [Int32.toInt_add, hc, Int.bmod_eq_of_le (by omega) (by omega)]
  omega

theorem toInt_foldl_weight (instances : List ServiceInstance) (total : Int32) {c : Nat}
    (hc : total.toInt = c) (hpos : NonNegative instances) (hbound : c + (weights instances).sum < 2 ^ 31) :
    (instances.foldl (fun total inst => total + inst.weight) total).toInt =
      ((c + (weights instances).sum : Nat) : Int) := by
  induction instances generalizing total c with
  | nil => simpa [weights] using hc
  | cons inst rest ih =>
      rw [weights, List.map_cons, List.sum_cons] at hbound ⊢
      have hstep := toInt_add_weight hc (hpos inst List.mem_cons_self) (by omega)
      have hrest := ih (total + inst.weight) hstep hpos.tail (by rw [weights]; omega)
      rw [List.foldl_cons, hrest, weights, Nat.add_assoc]

theorem toInt_totalWeight {instances : List ServiceInstance} (hpos : NonNegative instances)
    (hbound : (weights instances).sum < 2 ^ 31) :
    (totalWeight instances).toInt = ((weights instances).sum : Int) := by
  have hfold := toInt_foldl_weight instances 0 (c := 0) rfl hpos (by omega)
  rwa [Nat.zero_add] at hfold

/-- The loop returns the position the draw belongs to. -/
theorem weightedLoop_eq (randomWeight current : Int32) {r c : Nat} (hr : randomWeight.toInt = r)
    (hc : current.toInt = c) (position : Nat) (instances : List ServiceInstance)
    (hpos : NonNegative instances) (hbound : c + (weights instances).sum < 2 ^ 31) :
    weightedLoop randomWeight current position instances =
      match Weighted.pick r c (weights instances) with
      | some i => .element (position + i)
      | none => .back := by
  induction instances generalizing current c position with
  | nil => rfl
  | cons inst rest ih =>
      rw [weights, List.map_cons] at hbound ⊢
      rw [List.sum_cons] at hbound
      have hstep := toInt_add_weight hc (hpos inst List.mem_cons_self) (by omega)
      rw [weightedLoop]
      by_cases hle : r ≤ c + inst.weight.toInt.toNat
      · have hreach : randomWeight ≤ current + inst.weight := by
          rw [Int32.le_iff_toInt_le, hr, hstep]
          exact_mod_cast hle
        rw [if_pos hreach, Weighted.pick_cons_of_le hle]
        rfl
      · have hpass : ¬ randomWeight ≤ current + inst.weight := by
          rw [Int32.le_iff_toInt_le, hr, hstep]
          exact_mod_cast hle
        have hrest := ih (current + inst.weight) hstep (position + 1) hpos.tail (by rw [weights]; omega)
        rw [if_neg hpass, hrest, Weighted.pick_cons_of_lt (Nat.not_le.mp hle), weights]
        cases Weighted.pick r (c + inst.weight.toInt.toNat) (rest.map fun inst => inst.weight.toInt.toNat) with
        | none => rfl
        | some i =>
            show Selection.element (position + 1 + i) = .element (position + (i + 1))
            rw [Nat.add_assoc, Nat.add_comm 1 i]

theorem outcomes_call_pure {α : Type} (range : Int × Int) (f : Int → α) :
    outcomes (.call range fun draw => pure (f draw) : Program Uniform α) =
      (drawsOf range.1 range.2).map f := by
  rw [outcomes]
  exact List.flatMap_pure_eq_map f _

theorem drawsOf_one (n : Nat) : drawsOf 1 n = (List.range' 1 n).map Nat.cast := by
  have hlen : ((n : Int) + 1 - 1).toNat = n := by omega
  rw [drawsOf, hlen, List.range'_eq_map_range, List.map_map]
  exact List.map_congr_left fun i _ => (Nat.cast_add 1 i).symm

theorem drawsOf_zero (n : Nat) : drawsOf 0 ((n : Int) - 1) = (List.range n).map Nat.cast := by
  have hlen : ((n : Int) - 1 + 1 - 0).toNat = n := by omega
  rw [drawsOf, hlen]
  exact List.map_congr_left fun i _ => Int.zero_add _

/-- The uniform choice: each position for exactly one draw. -/
theorem outcomes_selectInstance {s : Session ServiceInstance} (hne : s.getInstances ≠ []) :
    outcomes (selectInstance s) = (List.range s.getInstances.length).map Selection.element := by
  have hempty : ¬ s.getInstances.isEmpty = true := by
    rw [List.isEmpty_iff]
    exact hne
  rw [selectInstance, if_neg hempty, outcomes_call_pure, drawsOf_zero, List.map_map]
  exact List.map_congr_left fun i _ => rfl

section Weighted

variable {s : Session ServiceInstance} (hpos : NonNegative s.getInstances)
  (hsum : 1 ≤ (weights s.getInstances).sum) (hbound : (weights s.getInstances).sum < 2 ^ 31)

include hpos hsum hbound

/-- One draw between 1 and the sum of the weights. -/
theorem selectInstanceWeighted_eq :
    selectInstanceWeighted s = .call (1, ((weights s.getInstances).sum : Int)) fun randomWeight =>
      pure (weightedLoop (Int32.ofInt randomWeight) 0 0 s.getInstances) := by
  have htotal := toInt_totalWeight hpos hbound
  have hempty : ¬ s.getInstances.isEmpty = true := by
    rw [List.isEmpty_iff]
    intro h
    rw [h] at hsum
    exact absurd hsum (by decide)
  have hpositive : ¬ totalWeight s.getInstances ≤ 0 := by
    rw [Int32.le_iff_toInt_le, htotal, Int32.toInt_zero]
    omega
  rw [selectInstanceWeighted, if_neg hempty, if_neg hpositive, htotal]

/-- The outcomes of the weighted choice, draw by draw. -/
theorem outcomes_selectInstanceWeighted :
    outcomes (selectInstanceWeighted s) = (Weighted.share 0 (weights s.getInstances)).map fun r =>
      match Weighted.pick r 0 (weights s.getInstances) with
      | some i => .element i
      | none => .back := by
  rw [selectInstanceWeighted_eq hpos hsum hbound, outcomes_call_pure, drawsOf_one, List.map_map]
  refine List.map_congr_left fun r hr => ?_
  have hmem := Weighted.mem_share.mp hr
  have hdraw : (Int32.ofInt (r : Int)).toInt = r := Int32.toInt_ofInt_of_le (by omega) (by omega)
  rw [Function.comp_apply, weightedLoop_eq _ 0 (c := 0) hdraw rfl 0 _ hpos (by omega)]
  simp only [Nat.zero_add]

theorem count_element {i : Nat} (hi : i < s.getInstances.length) :
    (outcomes (selectInstanceWeighted s)).count (.element i) = s.getInstances[i].weight.toInt.toNat := by
  have hlen : i < (weights s.getInstances).length := by rwa [weights, List.length_map]
  rw [outcomes_selectInstanceWeighted hpos hsum hbound, List.count, List.countP_map]
  have hcount := Weighted.countP_pick 0 (weights s.getInstances) i hlen
  rw [show (weights s.getInstances)[i] = s.getInstances[i].weight.toInt.toNat from List.getElem_map ..] at hcount
  rw [← hcount]
  refine List.countP_congr fun r _ => ?_
  rw [Function.comp_apply, beq_iff_eq, decide_eq_true_eq]
  cases Weighted.pick r 0 (weights s.getInstances) <;> simp

/-- Every draw is decided inside the loop, for an instance that has a weight. -/
theorem selection_has_weight {selection : Selection} (h : selection ∈ outcomes (selectInstanceWeighted s)) :
    ∃ i inst, selection = .element i ∧ selection.value s.getInstances = some inst ∧
      0 < inst.weight.toInt := by
  rw [outcomes_selectInstanceWeighted hpos hsum hbound] at h
  obtain ⟨r, hr, rfl⟩ := List.mem_map.mp h
  obtain ⟨i, hi, hpick, hweight⟩ := Weighted.pick_of_mem_share hr
  rw [hpick]
  have hlen : i < s.getInstances.length := by rwa [weights, List.length_map] at hi
  refine ⟨i, s.getInstances[i], rfl, List.getElem?_eq_getElem hlen, ?_⟩
  rw [show (weights s.getInstances)[i] = s.getInstances[i].weight.toInt.toNat from List.getElem_map ..]
    at hweight
  omega

end Weighted

/-- Without any weight the weighted choice is the uniform one. -/
theorem selectInstanceWeighted_of_zero {s : Session ServiceInstance}
    (hzero : ∀ inst ∈ s.getInstances, inst.weight = 0) : selectInstanceWeighted s = selectInstance s := by
  have hsum : (weights s.getInstances).sum = 0 := by
    refine List.sum_eq_zero fun w hw => ?_
    obtain ⟨inst, hinst, rfl⟩ := List.mem_map.mp hw
    rw [hzero inst hinst]
    rfl
  have hpos : NonNegative s.getInstances := fun inst hinst => by
    rw [hzero inst hinst]
    decide
  have htotal : totalWeight s.getInstances ≤ 0 := by
    rw [Int32.le_iff_toInt_le, toInt_totalWeight hpos (by omega), hsum]
    decide
  rw [selectInstanceWeighted, if_pos htotal, selectInstance]
  split <;> rfl

/-- **Exact proportion.** With weights that are not negative and sum up to an `int`, each position is
returned for as many of the draws as its weight, the loop always returns, and never an instance
without weight; with no weight at all the choice is that of `SelectInstance`. -/
theorem weighted_proportional (s : Session ServiceInstance) (hne : s.getInstances ≠ [])
    (hpos : NonNegative s.getInstances) :
    (1 ≤ (weights s.getInstances).sum → (weights s.getInstances).sum < 2 ^ 31 →
      (∃ choose : Int → Selection, selectInstanceWeighted s =
        .call (1, ((weights s.getInstances).sum : Int)) fun draw => pure (choose draw)) ∧
      (∀ i (hi : i < s.getInstances.length), (outcomes (selectInstanceWeighted s)).count (.element i) =
        s.getInstances[i].weight.toInt.toNat) ∧
      ∀ selection ∈ outcomes (selectInstanceWeighted s), ∃ i inst, selection = .element i ∧
        selection.value s.getInstances = some inst ∧ 0 < inst.weight.toInt) ∧
    ((∀ inst ∈ s.getInstances, inst.weight = 0) → selectInstanceWeighted s = selectInstance s ∧
      outcomes (selectInstance s) = (List.range s.getInstances.length).map Selection.element) := by
  refine ⟨fun hsum hbound => ⟨⟨_, selectInstanceWeighted_eq hpos hsum hbound⟩,
    fun i hi => count_element hpos hsum hbound hi,
    fun selection h => selection_has_weight hpos hsum hbound h⟩, fun hzero => ?_⟩
  exact ⟨selectInstanceWeighted_of_zero hzero, outcomes_selectInstance hne⟩

/-- Weights 0, 2, 0, 1: two of the three draws go to the second instance. -/
theorem weighted_proportional_sample :
    let instance' (weight : Int32) : ServiceInstance := ⟨[], [], ascii "h", 1, weight, []⟩
    let s : Session ServiceInstance :=
      ⟨true, [], 0, false, 0, true, some [instance' 0, instance' 2, instance' 0, instance' 1], []⟩
    (outcomes (selectInstanceWeighted s)).count (.element 1) = 2 := by
  intro instance' s
  exact ((weighted_proportional s (by decide +kernel) (by unfold NonNegative; decide +kernel)).1 (by decide +kernel)
    (by decide +kernel)).2.1 1 (by decide +kernel)

end AccountService
