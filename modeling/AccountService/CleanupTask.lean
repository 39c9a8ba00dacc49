import Mathlib.Data.List.Basic
import Mathlib.Tactic.Common

/-! `TokenCleanupTask`: calls of `Start` and `Stop` from any number of threads, one at a time under the mutex, and the
thread that they make and join. The destructor is `Stop`. -/

namespace AccountService.CleanupTask

/-- Where the thread is in its loop. -/
inductive Worker
  /-- At the condition of the loop. -/
  | check
  /-- At `CleanExpiredTokens`, whose exceptions are caught. -/
  | clean
  /-- In the wait, after so many seconds. -/
  | sleep (seconds : Nat)
  | ended
  deriving DecidableEq

/-- The function that waits for the thread, with the mutex. -/
inductive Joining
  | start | stop
  deriving DecidableEq

/-- The members. `thread` is there while `thread_` is joinable; `cleanups` counts what the threads have done. -/
structure Task where
  running : Bool := false
  thread : Option Worker := none
  joining : Option Joining := none
  cleanups : Nat := 0
  deriving DecidableEq

inductive Move
  /-- A call gets the mutex; nothing happens while another one holds it. -/
  | start | stop
  /-- The call that waits for the thread goes on, if the thread has ended. -/
  | joined
  /-- A step of the thread. -/
  | worker
  deriving DecidableEq

namespace Task

/-- The second half of `Start`. -/
def launch (t : Task) : Task := { t with running := true, thread := some .check, joining := none }

def start (t : Task) : Task :=
  if t.running then t
  else if t.thread.isSome then { t with joining := some .start }
  else t.launch

def stop (t : Task) : Task :=
  if t.thread.isSome then { t with running := false, joining := some .stop } else { t with running := false }

/-- The second half of the function that waits for the thread. -/
def joined (t : Task) : Task :=
  match t.joining with
  | some .start => launch { t with thread := none }
  | some .stop => { t with thread := none, joining := none }
  | none => t

variable (interval : Int32)

/-- The body of the thread; the bound of the wait is a product of `int`s that is taken to be exact. -/
def work (t : Task) : Task :=
  match t.thread with
  | some .check => { t with thread := some (if t.running then .clean else .ended) }
  | some .clean => { t with thread := some (.sleep 0), cleanups := t.cleanups + 1 }
  | some (.sleep seconds) =>
      { t with
        thread := some (if seconds < interval.toInt * 60 ∧ t.running = true then .sleep (seconds + 1) else .check) }
  | some .ended | none => t

def step (t : Task) : Move → Task
  | .start => if t.joining = none then t.start else t
  | .stop => if t.joining = none then t.stop else t
  | .joined => if t.thread = some .ended then t.joined else t
  | .worker => t.work interval

/-- The task after some moves. -/
def run (moves : List Move) (t : Task) : Task := moves.foldl (step interval) t

@[simp] theorem run_nil (t : Task) : t.run interval [] = t := rfl

@[simp] theorem run_cons (m : Move) (rest : List Move) (t : Task) :
    t.run interval (m :: rest) = (t.step interval m).run interval rest := rfl

/-- Only `Stop` ever waits for a thread; nobody else sees one that is not to go on. -/
structure Managed (t : Task) : Prop where
  live : t.running = true → t.joining = none ∧ ∃ w, t.thread = some w ∧ w ≠ .ended
  free : t.joining = none → t.thread ≠ none → t.running = true
  joining : ∀ j ∈ t.joining, j = .stop ∧ t.thread ≠ none

variable {interval} {t : Task}

theorem managed_stopped (cleanups : Nat) : Managed ⟨false, none, none, cleanups⟩ :=
  ⟨fun h => (by cases h), fun _ h => absurd rfl h, fun j hj => (by cases hj)⟩

theorem managed_launched (cleanups : Nat) : Managed ⟨true, some .check, none, cleanups⟩ :=
  ⟨fun _ => ⟨rfl, .check, rfl, by simp⟩, fun _ _ => rfl, fun j hj => (by cases hj)⟩

theorem managed_stopping (w : Worker) (cleanups : Nat) : Managed ⟨false, some w, some .stop, cleanups⟩ := by
  refine ⟨fun h => (by cases h), fun h => (by cases h), fun j hj => ?_⟩
  cases hj
  exact ⟨rfl, by simp⟩

/-- The three ways in which a task is managed. -/
theorem Managed.cases (h : t.Managed) :
    (∃ cleanups, t = ⟨false, none, none, cleanups⟩) ∨
      (∃ w cleanups, w ≠ .ended ∧ t = ⟨true, some w, none, cleanups⟩) ∨
        ∃ w cleanups, t = ⟨false, some w, some .stop, cleanups⟩ := by
  obtain ⟨running, thread, joining, cleanups⟩ := t
  obtain ⟨hlive, hfree, hjoining⟩ := h
  cases running with
  | true =>
      obtain ⟨hjoin, w, hw, hended⟩ := hlive rfl
      cases hjoin
      cases hw
      exact Or.inr (Or.inl ⟨w, cleanups, hended, rfl⟩)
  | false =>
      cases joining with
      | none =>
          cases thread with
          | none => exact Or.inl ⟨cleanups, rfl⟩
          | some w => cases hfree rfl (by simp)
      | some j =>
          obtain ⟨hstop, hthread⟩ := hjoining j rfl
          cases hstop
          cases thread with
          | none => exact absurd rfl hthread
          | some w => exact Or.inr (Or.inr ⟨w, cleanups, rfl⟩)

/-- **Step.** -/
theorem Managed.step (h : t.Managed) (m : Move) : (t.step interval m).Managed := by
  rcases h.cases with ⟨cleanups, rfl⟩ | ⟨w, cleanups, hw, rfl⟩ | ⟨w, cleanups, rfl⟩
  · cases m with
    | start => exact managed_launched cleanups
    | stop => exact managed_stopped cleanups
    | joined => exact managed_stopped cleanups
    | worker => exact managed_stopped cleanups
  · have hlive : ∀ w' cleanups, w' ≠ .ended → Managed ⟨true, some w', none, cleanups⟩ := fun w' _ hw' =>
      ⟨fun _ => ⟨rfl, w', rfl, hw'⟩, fun _ _ => rfl, fun j hj => (by cases hj)⟩
    cases m with
    | start => exact h
    | stop => exact managed_stopping w cleanups
    | joined =>
        rw [Task.step, if_neg (by simpa using hw)]
        exact h
    | worker =>
        cases w with
        | check => exact hlive _ _ (by simp)
        | clean => exact hlive _ _ (by simp)
        | sleep seconds =>
            refine hlive _ _ ?_
            split <;> simp
        | ended => exact absurd rfl hw
  · cases m with
    | start => exact h
    | stop => exact h
    | joined =>
        rw [Task.step]
        split
        · exact managed_stopped cleanups
        · exact h
    | worker => cases w <;> exact managed_stopping _ _

theorem Managed.run (h : t.Managed) (moves : List Move) : (t.run interval moves).Managed := by
  induction moves generalizing t with
  | nil => exact h
  | cons m rest ih => exact ih (h.step m)

end Task

/-- How many more steps a thread takes that is not to go on. -/
def Worker.left : Worker → Nat
  | .ended => 0
  | .check => 1
  | .sleep _ => 2
  | .clean => 3

/-- How many more times it cleans up. -/
def Worker.cleanupsLeft : Worker → Nat
  | .clean => 1
  | _ => 0

namespace Task

variable {interval : Int32}

/-- While `Stop` waits, every step of the thread brings it closer to its end, and nothing else happens. -/
theorem run_stopping (moves : List Move) (hmoves : .joined ∉ moves) (w : Worker) (cleanups : Nat) :
    ∃ w' done,
      run interval moves ⟨false, some w, some .stop, cleanups⟩ = ⟨false, some w', some .stop, cleanups + done⟩ ∧
      w'.left = w.left - moves.count .worker ∧ done + w'.cleanupsLeft = w.cleanupsLeft := by
  induction moves generalizing w cleanups with
  | nil => exact ⟨w, 0, rfl, rfl, Nat.zero_add _⟩
  | cons m rest ih =>
      rw [List.mem_cons, not_or] at hmoves
      rw [run_cons]
      cases m with
      | start =>
          rw [List.count_cons_of_ne (by simp)]
          exact ih hmoves.2 w cleanups
      | stop =>
          rw [List.count_cons_of_ne (by simp)]
          exact ih hmoves.2 w cleanups
      | joined => exact absurd rfl hmoves.1
      | worker =>
          rw [List.count_cons_self]
          cases w with
          | ended =>
              obtain ⟨w', done, hrun, hleft, hdone⟩ := ih hmoves.2 .ended cleanups
              exact ⟨w', done, hrun, by rw [hleft]; simp [Worker.left], hdone⟩
          | check =>
              obtain ⟨w', done, hrun, hleft, hdone⟩ := ih hmoves.2 .ended cleanups
              exact ⟨w', done, hrun, by rw [hleft]; simp [Worker.left], hdone⟩
          | sleep seconds =>
              obtain ⟨w', done, hrun, hleft, hdone⟩ := ih hmoves.2 .check cleanups
              refine ⟨w', done, ?_, by rw [hleft]; simp only [Worker.left]; omega, hdone⟩
              rw [← hrun]
              simp [step, work]
          | clean =>
              obtain ⟨w', done, hrun, hleft, hdone⟩ := ih hmoves.2 (.sleep 0) (cleanups + 1)
              have hdone : done + w'.cleanupsLeft = 0 := hdone
              refine ⟨w', done + 1, ?_, by rw [hleft]; simp only [Worker.left]; omega, ?_⟩
              · rw [Nat.add_comm done 1, ← Nat.add_assoc]
                exact hrun
              · simp only [Worker.cleanupsLeft] at hdone ⊢
                omega

/-- Nothing is cleaned up by a task that has not been started. -/
theorem run_stopped (moves : List Move) (hmoves : .start ∉ moves) (cleanups : Nat) :
    run interval moves ⟨false, none, none, cleanups⟩ = ⟨false, none, none, cleanups⟩ := by
  induction moves with
  | nil => rfl
  | cons m rest ih =>
      rw [List.mem_cons, not_or] at hmoves
      rw [run_cons]
      cases m with
      | start => exact absurd rfl hmoves.1
      | stop => exact ih hmoves.2
      | joined => exact ih hmoves.2
      | worker => exact ih hmoves.2

/-- **One thread.** However calls of `Start` and `Stop` and the steps of the thread are ordered: `Start` never has to
wait for an old thread; while no call of `Stop` waits, there is a thread exactly when the task runs; a call of `Stop`
that waits comes back once the thread has taken three more steps, after at most one more cleanup; and when it has
come back nothing is cleaned up before the next `Start`. -/
theorem task_managed (interval : Int32) (moves : List Move) :
    let t := run interval moves {}
    t.joining ≠ some .start ∧
    (t.joining = none → (t.running = true ↔ t.thread ≠ none) ∧ t.thread ≠ some .ended) ∧
    (t.joining = some .stop → ∀ more, .joined ∉ more → 3 ≤ more.count .worker →
      ∃ done ≤ 1, step interval (run interval more t) .joined = ⟨false, none, none, t.cleanups + done⟩) ∧
    (t.joining = none → t.running = false → ∀ more, .start ∉ more → run interval more t = t) := by
  intro t
  have hmanaged : t.Managed := (managed_stopped 0).run moves
  rcases hmanaged.cases with ⟨cleanups, ht⟩ | ⟨w, cleanups, hw, ht⟩ | ⟨w, cleanups, ht⟩
  · rw [ht]
    refine ⟨by simp, fun _ => by simp, fun h => (by cases h), fun _ _ more hmore => run_stopped more hmore cleanups⟩
  · rw [ht]
    exact ⟨by simp, fun _ => by simpa using hw, fun h => (by cases h), fun _ h => (by cases h)⟩
  · rw [ht]
    refine ⟨by simp, fun h => (by cases h), fun _ more hmore hcount => ?_, fun h => (by cases h)⟩
    obtain ⟨w', done, hrun, hleft, hdone⟩ := run_stopping more hmore w cleanups
    have hended : w' = .ended := by
      have hle : w.left ≤ 3 := by cases w <;> simp [Worker.left]
      have hzero : w'.left = 0 := by omega
      cases w' with
      | ended => rfl
      | _ => cases hzero
    have hle : w.cleanupsLeft ≤ 1 := by cases w <;> simp [Worker.cleanupsLeft]
    refine ⟨done, by omega, ?_⟩
    rw [hrun, hended]
    rfl

/-- `Stop` comes while the thread is about to clean up; a `Start` that comes meanwhile has to wait. -/
theorem task_managed_sample :
    ∃ done ≤ 1, step 60 (run 60 [.worker, .start, .worker, .worker] (run 60 [.start, .worker, .stop] {})) .joined =
      ⟨false, none, none, (run 60 [.start, .worker, .stop] {}).cleanups + done⟩ :=
  (task_managed 60 [.start, .worker, .stop]).2.2.1 (by decide) [.worker, .start, .worker, .worker] (by decide)
    (by decide)

end Task
end AccountService.CleanupTask
