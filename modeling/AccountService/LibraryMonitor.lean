import Mathlib.Data.List.Perm.Basic
import Mathlib.Tactic.Common

/-! A resource behind a mutex and a condition variable. A call gets the mutex and waits until the resource is ready or
its time is up; then it takes from the resource. Other critical sections change the resource and may notify one of the
calls that wait. A call that has been woken has to get the mutex again and others may come first; a call may also wake
up by itself. Critical sections are the steps. -/

namespace Monitor

/-- The critical sections: the predicate of the wait, what follows the wait, what is returned when the time is up,
and the sections that do not wait, which say whether they notify. -/
structure Sections (σ ι ω ρ : Type) where
  ready : σ → Bool
  take : ι → σ → ρ × σ
  timeout : ρ
  change : ω → σ → Bool × σ

/-- The resource, the calls that are asleep, those that are awake without the mutex, and the results of those that
have returned. A call is known by its number. -/
structure Room (σ ρ : Type) where
  shared : σ
  waiting : List Nat
  woken : List Nat
  ended : List (Nat × ρ)
  calls : Nat

inductive Move (ι ω : Type)
  /-- A new call gets the mutex. -/
  | enter (input : ι)
  /-- A call wakes up without having been notified. -/
  | wake (call : Nat)
  /-- A call that is awake gets the mutex again; `late` says that its time is up. -/
  | resume (call : Nat) (late : Bool) (input : ι)
  /-- Another critical section, and whom it notifies. -/
  | change (action : ω) (chosen : Nat)

variable {σ ι ω ρ : Type}

def Room.start (s : σ) : Room σ ρ := ⟨s, [], [], [], 0⟩

/-- Every call is in one place. -/
def Room.places (r : Room σ ρ) : List Nat := r.waiting ++ r.woken ++ r.ended.map Prod.fst

/-- One of the calls that wait is woken: the one that is chosen, if it waits. -/
def Room.notifyOne (chosen : Nat) (r : Room σ ρ) : Room σ ρ :=
  match if chosen ∈ r.waiting then some chosen else r.waiting.head? with
  | none => r
  | some call => { r with waiting := r.waiting.erase call, woken := r.woken ++ [call] }

namespace Sections

variable (g : Sections σ ι ω ρ)

/-- The end of the wait. -/
def finish (call : Nat) (input : ι) (r : Room σ ρ) : Room σ ρ :=
  { r with
    shared := (g.take input r.shared).2
    ended := r.ended ++ [(call, (g.take input r.shared).1)] }

def step : Move ι ω → Room σ ρ → Room σ ρ
  | .enter input, r =>
      if g.ready r.shared then g.finish r.calls input { r with calls := r.calls + 1 }
      else { r with waiting := r.waiting ++ [r.calls], calls := r.calls + 1 }
  | .wake call, r =>
      if call ∈ r.waiting then { r with waiting := r.waiting.erase call, woken := r.woken ++ [call] } else r
  | .resume call late input, r =>
      if call ∈ r.woken then
        if g.ready r.shared then g.finish call input { r with woken := r.woken.erase call }
        else if late then { r with woken := r.woken.erase call, ended := r.ended ++ [(call, g.timeout)] }
        else { r with woken := r.woken.erase call, waiting := r.waiting ++ [call] }
      else r
  | .change action chosen, r =>
      let s := { r with shared := (g.change action r.shared).2 }
      if (g.change action r.shared).1 then s.notifyOne chosen else s

/-- The room after some moves. -/
def run (moves : List (Move ι ω)) (r : Room σ ρ) : Room σ ρ := moves.foldl (fun r m => g.step m r) r

@[simp] theorem run_nil (r : Room σ ρ) : g.run [] r = r := rfl

@[simp] theorem run_cons (m : Move ι ω) (rest : List (Move ι ω)) (r : Room σ ρ) :
    g.run (m :: rest) r = g.run rest (g.step m r) := rfl

/-- What every move keeps, a run keeps. -/
theorem run_invariant {I : Room σ ρ → Prop} (hstep : ∀ m r, I r → I (g.step m r)) (moves : List (Move ι ω))
    {r : Room σ ρ} (hr : I r) : I (g.run moves r) := by
  induction moves generalizing r with
  | nil => exact hr
  | cons m rest ih => exact ih (hstep m r hr)

end Sections

theorem Room.notifyOne_cases (chosen : Nat) (r : Room σ ρ) :
    r.waiting = [] ∧ r.notifyOne chosen = r ∨
      ∃ call ∈ r.waiting,
        r.notifyOne chosen = { r with waiting := r.waiting.erase call, woken := r.woken ++ [call] } := by
  unfold notifyOne
  by_cases h : chosen ∈ r.waiting
  · exact Or.inr ⟨chosen, h, by rw [if_pos h]⟩
  · rw [if_neg h]
    rcases hw : r.waiting with _ | ⟨call, rest⟩
    · exact Or.inl ⟨rfl, rfl⟩
    · exact Or.inr ⟨call, List.mem_cons_self, rfl⟩

/-- A call moves from one place to another. -/
theorem perm_wake {waiting woken rest : List Nat} {call : Nat} (h : call ∈ waiting) :
    (waiting.erase call ++ (woken ++ [call]) ++ rest).Perm (waiting ++ woken ++ rest) := by
  refine List.Perm.append_right rest ?_
  refine List.Perm.trans ?_ (List.Perm.append_right woken (List.perm_cons_erase h).symm)
  rw [← List.append_assoc]
  exact List.perm_append_singleton call _

/-- The calls so far, each in one place. -/
def Room.Accounted (r : Room σ ρ) : Prop := r.places.Perm (List.range r.calls)

variable {g : Sections σ ι ω ρ}

theorem Room.Accounted.wake {r : Room σ ρ} (h : r.Accounted) {call : Nat} (hcall : call ∈ r.waiting) :
    Room.Accounted { r with waiting := r.waiting.erase call, woken := r.woken ++ [call] } :=
  (perm_wake hcall).trans h

theorem Room.Accounted.notifyOne {r : Room σ ρ} (h : r.Accounted) (chosen : Nat) : (r.notifyOne chosen).Accounted := by
  rcases r.notifyOne_cases chosen with ⟨-, hsame⟩ | ⟨call, hcall, hwoken⟩
  · rwa [hsame]
  · rw [hwoken]
    exact h.wake hcall

/-- A call that is awake ends. -/
theorem Room.Accounted.ends {r : Room σ ρ} (h : r.Accounted) {call : Nat} (hcall : call ∈ r.woken) (s : σ) (result : ρ) :
    Room.Accounted ⟨s, r.waiting, r.woken.erase call, r.ended ++ [(call, result)], r.calls⟩ := by
  refine List.Perm.trans ?_ h
  show (r.waiting ++ r.woken.erase call ++ (r.ended ++ [(call, result)]).map Prod.fst).Perm
    (r.waiting ++ r.woken ++ r.ended.map Prod.fst)
  rw [List.map_append, List.append_assoc, List.append_assoc]
  refine List.Perm.append_left r.waiting ?_
  rw [← List.append_assoc]
  refine (List.perm_append_singleton call _).trans ?_
  exact List.Perm.append_right _ (List.perm_cons_erase hcall).symm

/-- A new call. -/
theorem Room.Accounted.enters {r : Room σ ρ} (h : r.Accounted) {waiting : List Nat} {ended : List (Nat × ρ)}
    (hnew : (waiting ++ r.woken ++ ended.map Prod.fst).Perm (r.calls :: r.places)) (s : σ) :
    Room.Accounted ⟨s, waiting, r.woken, ended, r.calls + 1⟩ := by
  refine hnew.trans ?_
  rw [List.range_succ]
  exact (h.cons r.calls).trans (List.perm_append_singleton _ _).symm

theorem accounted_step (m : Move ι ω) (r : Room σ ρ) (h : r.Accounted) : (g.step m r).Accounted := by
  cases m with
  | enter input =>
      simp only [Sections.step]
      split
      · refine h.enters ?_ _
        rw [List.map_append, ← List.append_assoc]
        exact List.perm_append_singleton r.calls _
      · refine h.enters ?_ _
        rw [List.append_assoc, List.append_assoc, Room.places, List.append_assoc]
        exact List.perm_middle
  | wake call =>
      simp only [Sections.step]
      split
      · exact h.wake ‹_›
      · exact h
  | resume call late input =>
      simp only [Sections.step]
      split
      · rename_i hcall
        split
        · exact h.ends hcall _ _
        · split
          · exact h.ends hcall _ _
          · refine List.Perm.trans ?_ h
            refine List.Perm.append_right _ ?_
            show (r.waiting ++ [call] ++ r.woken.erase call).Perm (r.waiting ++ r.woken)
            rw [List.append_assoc]
            exact List.Perm.append_left _ (List.perm_cons_erase hcall).symm
      · exact h
  | change action chosen =>
      simp only [Sections.step]
      split
      · exact Room.Accounted.notifyOne (r := { r with shared := (g.change action r.shared).2 }) h chosen
      · exact h

theorem accounted_run (moves : List (Move ι ω)) (s : σ) : (g.run moves (Room.start s)).Accounted :=
  g.run_invariant accounted_step moves (List.Perm.refl _)

/-- The resource is counted: it is ready when there is something to take, a call takes at least one, and a section
that adds to it adds one and notifies. -/
structure Counts (g : Sections σ ι ω ρ) (count : σ → Nat) : Prop where
  ready : ∀ s, g.ready s = true ↔ 0 < count s
  take : ∀ input s, g.ready s = true → count (g.take input s).2 < count s
  silent : ∀ action s, (g.change action s).1 = false → count (g.change action s).2 ≤ count s
  loud : ∀ action s, count (g.change action s).2 ≤ count s + 1

/-- While calls wait, there are as many calls awake as there is to take. -/
def Room.Heard (count : σ → Nat) (r : Room σ ρ) : Prop := r.waiting ≠ [] → count r.shared ≤ r.woken.length

theorem heard_step {count : σ → Nat} (hg : Counts g count) (m : Move ι ω) (r : Room σ ρ) (h : r.Heard count) :
    (g.step m r).Heard count := by
  have hzero : ¬g.ready r.shared = true → count r.shared = 0 := by
    intro hready
    rw [hg.ready] at hready
    omega
  cases m with
  | enter input =>
      simp only [Sections.step]
      split
      · rename_i hready
        exact fun hwaiting => Nat.le_trans (Nat.le_of_lt (hg.take input r.shared hready)) (h hwaiting)
      · rename_i hready
        exact fun _ => Nat.le_trans (Nat.le_of_eq (hzero hready)) (Nat.zero_le _)
  | wake call =>
      simp only [Sections.step]
      split
      · rename_i hcall
        intro _
        have := h (List.ne_nil_of_mem hcall)
        simp only [List.length_append, List.length_cons, List.length_nil]
        omega
      · exact h
  | resume call late input =>
      simp only [Sections.step]
      split
      · rename_i hcall
        split
        · rename_i hready
          intro hwaiting
          have hle := h hwaiting
          have hlt := hg.take input r.shared hready
          have hlength := List.length_erase_of_mem hcall
          show count (g.take input r.shared).2 ≤ (r.woken.erase call).length
          omega
        · rename_i hready
          split
          · exact fun _ => Nat.le_trans (Nat.le_of_eq (hzero hready)) (Nat.zero_le _)
          · exact fun _ => Nat.le_trans (Nat.le_of_eq (hzero hready)) (Nat.zero_le _)
      · exact h
  | change action chosen =>
      simp only [Sections.step]
      split
      · intro hwaiting
        rcases Room.notifyOne_cases chosen { r with shared := (g.change action r.shared).2 } with
          ⟨hnone, hsame⟩ | ⟨call, hcall, hwoken⟩
        · rw [hsame] at hwaiting
          exact absurd hnone hwaiting
        · rw [hwoken]
          have hle := h (List.ne_nil_of_mem hcall)
          have hloud := hg.loud action r.shared
          show count (g.change action r.shared).2 ≤ (r.woken ++ [call]).length
          rw [List.length_append, List.length_singleton]
          omega
      · rename_i hquiet
        exact fun hwaiting => Nat.le_trans (hg.silent action r.shared (by simpa using hquiet)) (h hwaiting)

/-- **No lost wakeup.** -/
theorem heard_run {count : σ → Nat} (hg : Counts g count) (moves : List (Move ι ω)) {r : Room σ ρ}
    (h : r.Heard count) : (g.run moves r).Heard count :=
  g.run_invariant (heard_step hg) moves h

/-- A call that gets the mutex is not awake any more. -/
theorem woken_resume (call : Nat) (late : Bool) (input : ι) (r : Room σ ρ) :
    (g.step (.resume call late input) r).woken = r.woken.erase call := by
  simp only [Sections.step]
  split
  · split
    · rfl
    · split <;> rfl
  · rename_i hcall
    exact (List.erase_of_not_mem hcall).symm

/-- **Nobody waits for what is there.** Once the calls that are awake have had the mutex, in any order, either no call
waits or there is nothing to take. -/
theorem heard_drain {count : σ → Nat} (hg : Counts g count) {r : Room σ ρ} (h : r.Heard count) {order : List Nat}
    (horder : order.Perm r.woken) (late : Nat → Bool) (input : Nat → ι) :
    let after := g.run (order.map fun call => .resume call (late call) (input call)) r
    after.woken = [] ∧ (after.waiting = [] ∨ g.ready after.shared = false) := by
  have hwoken : (g.run (order.map fun call => .resume call (late call) (input call)) r).woken = [] := by
    clear h
    induction order generalizing r with
    | nil => exact horder.nil_eq.symm
    | cons call rest ih =>
        refine ih ?_
        rw [woken_resume]
        have hmem : call ∈ r.woken := horder.subset List.mem_cons_self
        exact (List.perm_cons call).mp (horder.trans (List.perm_cons_erase hmem))
  refine ⟨hwoken, ?_⟩
  have hheard := heard_run hg (order.map fun call => .resume call (late call) (input call)) h
  by_cases hwaiting : (g.run (order.map fun call => .resume call (late call) (input call)) r).waiting = []
  · exact Or.inl hwaiting
  · have hzero := hheard hwaiting
    rw [hwoken, List.length_nil, Nat.le_zero] at hzero
    exact Or.inr (Bool.not_eq_true _ ▸ fun hready => absurd ((hg.ready _).mp hready) (by omega))

namespace Sections

variable (g : Sections σ ι ω ρ)

/-- A call in one piece: it finds the resource ready, or its time is up. -/
def attempt (input : ι) (s : σ) : ρ × σ := if g.ready s then g.take input s else (g.timeout, s)

/-- Calls and other sections one after another, with the results of the calls. -/
def serialStep (x : List ρ × σ) : ι ⊕ ω → List ρ × σ
  | .inl input => (x.1 ++ [(g.attempt input x.2).1], (g.attempt input x.2).2)
  | .inr action => (x.1, (g.change action x.2).2)

def serial (ops : List (ι ⊕ ω)) (s : σ) : List ρ × σ := ops.foldl g.serialStep ([], s)

end Sections

/-- What a move does in one piece. -/
theorem step_serial (m : Move ι ω) (r : Room σ ρ) :
    ((g.step m r).ended.map Prod.snd, (g.step m r).shared) = (r.ended.map Prod.snd, r.shared) ∨
      ∃ op, ((g.step m r).ended.map Prod.snd, (g.step m r).shared) =
        g.serialStep (r.ended.map Prod.snd, r.shared) op := by
  have hfinish : ∀ call input (r : Room σ ρ), g.ready r.shared = true →
      ((g.finish call input r).ended.map Prod.snd, (g.finish call input r).shared) =
        g.serialStep (r.ended.map Prod.snd, r.shared) (.inl input) := by
    intro call input r hready
    simp [Sections.finish, Sections.serialStep, Sections.attempt, hready]
  cases m with
  | enter input =>
      simp only [Sections.step]
      split
      · exact Or.inr ⟨.inl input, hfinish _ input { r with calls := r.calls + 1 } ‹_›⟩
      · exact Or.inl rfl
  | wake call =>
      simp only [Sections.step]
      split <;> exact Or.inl rfl
  | resume call late input =>
      simp only [Sections.step]
      split
      · split
        · exact Or.inr ⟨.inl input, hfinish _ input { r with woken := r.woken.erase call } ‹_›⟩
        · rename_i hready
          split
          · exact Or.inr ⟨.inl input, by simp [Sections.serialStep, Sections.attempt, hready]⟩
          · exact Or.inl rfl
      · exact Or.inl rfl
  | change action chosen =>
      refine Or.inr ⟨.inr action, ?_⟩
      simp only [Sections.step]
      split
      · rcases Room.notifyOne_cases chosen { r with shared := (g.change action r.shared).2 } with
          ⟨-, hsame⟩ | ⟨call, -, hwoken⟩
        · rw [hsame]
          rfl
        · rw [hwoken]
          rfl
      · rfl

/-- **Refinement.** A run does to the resource, and returns to its calls, what the sections do one after another. -/
theorem run_serial (moves : List (Move ι ω)) (s : σ) :
    ∃ ops, ((g.run moves (Room.start s)).ended.map Prod.snd, (g.run moves (Room.start s)).shared) =
      g.serial ops s := by
  refine g.run_invariant (I := fun r => ∃ ops, (r.ended.map Prod.snd, r.shared) = g.serial ops s) ?_ moves ⟨[], rfl⟩
  rintro m r ⟨ops, hops⟩
  rcases step_serial (g := g) m r with hsame | ⟨op, hop⟩
  · exact ⟨ops, hsame.trans hops⟩
  · refine ⟨ops ++ [op], ?_⟩
    rw [hop, hops, Sections.serial, Sections.serial, List.foldl_append]
    rfl

end Monitor
