import AccountService.LibraryMonitor
import AccountService.PoolConservation
import Mathlib.Order.Nat

/-! `TemplateConnectionPool` under threads. `Acquire` waits on the condition variable for a connection, up to five
seconds; `Release` notifies one of the calls that wait, after it has put a connection back. -/

namespace AccountService

open Monitor

/-- What happens to guards that exist. -/
inductive GuardOp
  | move (i : Nat)
  | destroy (i : Nat) (valid : Bool)
  deriving DecidableEq

def GuardOp.op : GuardOp → PoolOp
  | .move i => .moveGuard i
  | .destroy i valid => .destroyGuard i valid

namespace Pool

variable (create : Nat → Creation)

/-- `Release` gets as far as `notify_one`: the connection is good, or there is a new one. -/
def notifies (p : Pool) : GuardOp → Bool
  | .move _ => false
  | .destroy i valid => (p.guards[i]?.join).isSome && (valid || decide (create p.calls = .made))

/-- The critical sections of `Acquire` and `Release`. A wait that fails makes `Acquire` return null, and the
constructor of the guard throws. -/
def sections : Sections Pool Bool GuardOp (Except PoolError Unit) where
  ready p := !p.idle.isEmpty
  take valid p := p.createConnection create valid
  timeout := .error .acquireFailed
  change action p := (p.notifies create action, (action.op.step create p).2)

variable {create}

theorem idle_acquire (p : Pool) (valid : Bool) : (p.acquire create valid).2.idle = p.idle.tail := by
  rcases p with ⟨_ | ⟨conn, rest⟩, guards, calls⟩
  · rfl
  · cases valid <;> rfl

theorem idle_createConnection (p : Pool) (valid : Bool) : (p.createConnection create valid).2.idle = p.idle.tail := by
  rw [← idle_acquire p valid, createConnection]
  rcases p.acquire create valid with ⟨_ | (_ | conn), p'⟩ <;> rfl

/-- A release adds a connection and notifies, or does neither. -/
theorem idle_release (conn : Nat) (valid : Bool) (p : Pool) :
    (p.release create (some conn) valid).2.idle.length =
      p.idle.length + (if valid || decide (create p.calls = .made) then 1 else 0) := by
  cases valid with
  | true => simp [release]
  | false => cases hcreate : create p.calls <;> simp [release, createConn, hcreate]

theorem idle_destroyGuard (i : Nat) (valid : Bool) (p : Pool) :
    (p.destroyGuard create i valid).2.idle.length =
      p.idle.length + (if p.notifies create (.destroy i valid) then 1 else 0) := by
  cases hi : p.guards[i]? with
  | none => simp [destroyGuard, notifies, hi]
  | some guard =>
      cases guard with
      | none => simp [destroyGuard, notifies, hi]
      | some conn =>
          simp only [destroyGuard, notifies, hi, Option.join_some, Option.isSome_some, Bool.true_and]
          exact idle_release conn valid { p with guards := p.guards.set i none }

theorem idle_moveGuard (i : Nat) (p : Pool) : (p.moveGuard i).idle = p.idle := by
  unfold moveGuard
  split <;> rfl

/-- There is to take what is idle. -/
theorem counts_idle : Counts (sections create) fun p => p.idle.length where
  ready p := by
    rcases p with ⟨_ | ⟨conn, rest⟩, guards, calls⟩ <;> simp [sections]
  take valid p hready := by
    rcases p with ⟨_ | ⟨conn, rest⟩, guards, calls⟩
    · cases hready
    · show (createConnection create valid ⟨conn :: rest, guards, calls⟩).2.idle.length < _
      rw [idle_createConnection]
      exact Nat.lt_succ_self _
  silent action p hsilent := by
    cases action with
    | move i => exact (congrArg List.length (idle_moveGuard i p)).le
    | destroy i valid =>
        have hnot : p.notifies create (.destroy i valid) = false := hsilent
        have hidle : (p.destroyGuard create i valid).2.idle.length = _ := idle_destroyGuard i valid p
        rw [hnot, if_neg Bool.false_ne_true] at hidle
        exact hidle.le
  loud action p := by
    cases action with
    | move i => exact (congrArg List.length (idle_moveGuard i p)).le.trans (Nat.le_succ _)
    | destroy i valid =>
        refine (idle_destroyGuard i valid p).le.trans (Nat.add_le_add_left ?_ _)
        split
        · exact le_rfl
        · exact Nat.zero_le _

end Pool

/-- **No lost wakeup.** However the threads are scheduled and woken: every call of `Acquire` waits, is awake or has
returned; while calls wait, no more connections are idle than calls are awake; and once these have had the mutex, in
any order, nobody waits beside an idle connection. -/
theorem pool_no_lost_wakeup (create : Nat → Creation) (p : Pool) (moves : List (Move Bool GuardOp)) (order : List Nat)
    (horder : order.Perm ((Pool.sections create).run moves (Room.start p)).woken) (late valid : Nat → Bool) :
    let room := (Pool.sections create).run moves (Room.start p)
    let after := (Pool.sections create).run (order.map fun call => .resume call (late call) (valid call)) room
    room.places.Perm (List.range room.calls) ∧
      (room.waiting ≠ [] → room.shared.idle.length ≤ room.woken.length) ∧
        after.woken = [] ∧ (after.waiting = [] ∨ after.shared.idle = []) := by
  intro room after
  have hheard : room.Heard fun p => p.idle.length :=
    heard_run Pool.counts_idle moves fun hwaiting => absurd rfl hwaiting
  obtain ⟨hwoken, hrest⟩ := heard_drain Pool.counts_idle hheard horder late valid
  refine ⟨accounted_run moves p, hheard, hwoken, hrest.imp_right fun hidle => ?_⟩
  have hempty : (!after.shared.idle.isEmpty) = false := hidle
  simpa using hempty

/-- A pool with one connection, which the first of three calls takes; it comes back while the others wait. -/
def crowdedPool : List (Move Bool GuardOp) :=
  [.enter true, .enter true, .enter true, .change (.destroy 0 true) 2]

theorem pool_no_lost_wakeup_sample :
    let room := (Pool.sections (unreachableAfter 1)).run crowdedPool (Room.start freshPool)
    let after := (Pool.sections (unreachableAfter 1)).run [.resume 2 true true] room
    (room.waiting = [1] ∧ room.woken = [2]) ∧ room.shared.idle.length ≤ room.woken.length ∧
      (after.waiting = [] ∨ after.shared.idle = []) :=
  have h := pool_no_lost_wakeup (unreachableAfter 1) freshPool crowdedPool [2] (List.Perm.refl _) (fun _ => true)
    fun _ => true
  ⟨by decide, h.2.1 (by decide), h.2.2.2⟩

/-! ### The sequential pool -/

/-- The results of the calls of `CreateConnection`, and the pool. -/
def PoolOp.record (create : Nat → Creation) (x : List (Except PoolError Unit) × Pool) (op : PoolOp) :
    List (Except PoolError Unit) × Pool :=
  match op with
  | .createConnection _ => (x.1 ++ [(op.step create x.2).1], (op.step create x.2).2)
  | _ => (x.1, (op.step create x.2).2)

def PoolOp.runAll (create : Nat → Creation) (ops : List PoolOp) (p : Pool) : List (Except PoolError Unit) × Pool :=
  ops.foldl (PoolOp.record create) ([], p)

section Sequential

variable {create : Nat → Creation}

/-- A call that gives up has found the pool empty. -/
theorem attempt_eq (valid : Bool) (p : Pool) :
    (Pool.sections create).attempt valid p = p.createConnection create valid := by
  rcases p with ⟨_ | ⟨conn, rest⟩, guards, calls⟩ <;> rfl

theorem serial_eq (ops : List (Bool ⊕ GuardOp)) (p : Pool) :
    (Pool.sections create).serial ops p =
      PoolOp.runAll create (ops.map (Sum.elim .createConnection GuardOp.op)) p := by
  rw [Sections.serial, PoolOp.runAll, List.foldl_map]
  congr 1
  funext x op
  rcases op with valid | (i | ⟨i, valid⟩)
  · simp only [Sections.serialStep, attempt_eq, Sum.elim_inl, PoolOp.record, PoolOp.step]
  · rfl
  · rfl

/-- Calls of `createConnFunc_` are only added. -/
theorem calls_le (op : PoolOp) (p : Pool) : p.calls ≤ (op.step create p).2.calls := by
  have hrelease : ∀ conn valid (p : Pool), p.calls ≤ (p.release create conn valid).2.calls := by
    intro conn valid p
    unfold Pool.release
    split
    · unfold Pool.createConn
      cases create p.calls <;> exact Nat.le_succ _
    · exact le_rfl
  cases op with
  | createConnection valid =>
      rcases p with ⟨_ | ⟨conn, rest⟩, guards, calls⟩
      · exact le_rfl
      · cases valid with
        | true => exact le_rfl
        | false =>
            simp only [PoolOp.step, Pool.createConnection, Pool.acquire, Pool.createConn, Bool.false_eq_true, if_false]
            cases create calls <;> exact Nat.le_succ _
  | moveGuard i =>
      simp only [PoolOp.step, Pool.moveGuard]
      split <;> exact le_rfl
  | destroyGuard i valid =>
      simp only [PoolOp.step, Pool.destroyGuard]
      split
      · exact hrelease _ valid { p with guards := p.guards.set i none }
      · exact le_rfl

/-- Connections are only ever exchanged or lost: no one is in two places, and there are not more of them. -/
structure Pool.Bounded (size : Nat) (p : Pool) : Prop where
  nodup : p.all.Nodup
  past : p.Past
  length : p.all.length ≤ size

theorem Pool.Bounded.step {size : Nat} {p : Pool} (h : p.Bounded size) (op : PoolOp) :
    (op.step create p).2.Bounded size := by
  have hcalls : p.calls ≤ (op.step create p).2.calls := calls_le op p
  rcases @step_cases create op p with ⟨-, hperm, -, -⟩ | ⟨conn, rest, -, hold, hnew, hcalls', -⟩ | ⟨-, conn, hperm⟩
  · exact ⟨hperm.nodup_iff.mpr h.nodup, fun c hc => (h.past c (hperm.mem_iff.mp hc)).trans_le hcalls,
      hperm.length_eq.trans_le h.length⟩
  · have hrest : ∀ c ∈ rest, c < p.calls :=
      fun c hc => h.past c (hold.mem_iff.mpr (List.mem_cons_of_mem conn hc))
    have hnodup := List.nodup_cons.mp (hold.nodup_iff.mp h.nodup)
    refine ⟨hnew.nodup_iff.mpr (List.nodup_cons.mpr ⟨fun hmem => absurd (hrest _ hmem) (Nat.lt_irrefl _), hnodup.2⟩),
      fun c hc => ?_, hnew.length_eq.trans_le (hold.length_eq.symm.trans_le h.length)⟩
    rw [hcalls']
    rcases List.mem_cons.mp (hnew.mem_iff.mp hc) with rfl | hc
    · exact Nat.lt_succ_self _
    · exact Nat.lt_succ_of_lt (hrest c hc)
  · refine ⟨(List.nodup_cons.mp (hperm.nodup_iff.mp h.nodup)).2, fun c hc => ?_, ?_⟩
    · exact (h.past c (hperm.mem_iff.mpr (List.mem_cons_of_mem conn hc))).trans_le hcalls
    · have hlength := hperm.length_eq
      rw [List.length_cons] at hlength
      exact (Nat.le_succ _).trans (hlength.symm.trans_le h.length)

theorem Pool.Bounded.runAll {size : Nat} {p : Pool} (h : p.Bounded size) (ops : List PoolOp) :
    (PoolOp.runAll create ops p).2.Bounded size := by
  have hfold : ∀ (ops : List PoolOp) (x : List (Except PoolError Unit) × Pool), x.2.Bounded size →
      (ops.foldl (PoolOp.record create) x).2.Bounded size := by
    intro ops
    induction ops with
    | nil => exact fun x hx => hx
    | cons op rest ih =>
        intro x hx
        refine ih _ ?_
        unfold PoolOp.record
        split <;> exact hx.step _
  exact hfold ops _ h

end Sequential

/-- **Refinement.** However the threads are scheduled and woken, the pool and the results of `CreateConnection` are
those of calls that run one after another; no connection is at two places, in the deque or with a guard, and there are
never more of them than `pool_size`. -/
theorem pool_threads_refine (create : Nat → Creation) (poolSize : Int) (p : Pool)
    (hp : Pool.initPool create poolSize = .ok p) (moves : List (Move Bool GuardOp)) :
    let room := (Pool.sections create).run moves (Room.start p)
    (∃ ops, (room.ended.map Prod.snd, room.shared) = PoolOp.runAll create ops p) ∧
      room.shared.all.Nodup ∧ room.shared.all.length ≤ poolSize.toNat := by
  intro room
  obtain ⟨ops, hops⟩ := run_serial (g := Pool.sections create) moves p
  rw [serial_eq] at hops
  obtain ⟨⟨hlength, hnodup⟩, hpast⟩ := initLoop_conserved poolSize.toNat 0 ⟨[], [], 0⟩ p hp
    ⟨rfl, List.nodup_nil⟩ (fun c hc => by cases hc) rfl
  rw [Nat.zero_add] at hlength
  have hbounded : (PoolOp.runAll create (ops.map (Sum.elim .createConnection GuardOp.op)) p).2.Bounded
      poolSize.toNat := Pool.Bounded.runAll ⟨hnodup, hpast, hlength.le⟩ _
  rw [← hops] at hbounded
  exact ⟨⟨_, hops⟩, hbounded.nodup, hbounded.length⟩

theorem pool_threads_refine_sample :
    let room := (Pool.sections (unreachableAfter 1)).run
      (crowdedPool ++ [.wake 1, .resume 2 false true, .resume 1 true true]) (Room.start freshPool)
    (room.ended.map Prod.snd = [.ok (), .ok (), .error .acquireFailed]) ∧ room.shared.all.length ≤ 1 :=
  ⟨by decide, (pool_threads_refine (unreachableAfter 1) 1 freshPool rfl _).2.2⟩

end AccountService
