import AccountService.ModelPool

/-! The connections of a pool over whole histories. A connection that is found broken is given up before its
replacement exists: when the replacement cannot be made, the pool is one connection smaller from then on, and
the exception of a failed creation leaves the destructor of a guard. -/

namespace AccountService

namespace Pool

/-- The connections that guards hold. -/
def held (p : Pool) : List Nat := p.guards.filterMap id

/-- The connections of the pool. -/
def all (p : Pool) : List Nat := p.idle ++ p.held

/-- Exactly `size` connections, no one twice. -/
def Conserved (size : Nat) (p : Pool) : Prop := p.all.length = size ∧ p.all.Nodup

/-- Connections have the numbers of past calls. -/
def Past (p : Pool) : Prop := ∀ conn ∈ p.all, conn < p.calls

end Pool

/-- A destroyed guard gives up what it held. -/
theorem filterMap_set_none {guards : List (Option Nat)} {i conn : Nat} (h : guards[i]? = some (some conn)) :
    (guards.filterMap id).Perm (conn :: (guards.set i none).filterMap id) := by
  induction guards generalizing i with
  | nil => cases h
  | cons g guards ih =>
      cases i with
      | zero =>
          cases h
          exact List.Perm.refl _
      | succ i =>
          have hrest := ih (i := i) h
          cases g with
          | none => exact hrest
          | some c => exact (hrest.cons c).trans (List.Perm.swap _ _ _)

theorem filterMap_set_none_of_empty {guards : List (Option Nat)} {i : Nat} (h : guards[i]? = some none) :
    (guards.set i none).filterMap id = guards.filterMap id := by
  obtain ⟨hlt, hget⟩ := List.getElem?_eq_some_iff.mp h
  rw [← hget, List.set_getElem_self]

section Step

variable {create : Nat → Creation} {size : Nat} {p : Pool}

/-- The condition on a step: a connection that is found broken is replaced. -/
def PoolOp.Replaces (create : Nat → Creation) (p : Pool) : PoolOp → Prop
  | .createConnection valid => p.idle ≠ [] → valid = false → create p.calls = .made
  | .moveGuard _ => True
  | .destroyGuard i valid => (p.guards[i]?.join).isSome = true → valid = false → create p.calls = .made

instance (p : Pool) (op : PoolOp) : Decidable (op.Replaces create p) := by
  unfold PoolOp.Replaces
  split <;> infer_instance

/-- What a step does to the connections: they stay the same ones, or one of them is given up for a new one, or
one of them is lost because its replacement cannot be made. -/
theorem step_cases (op : PoolOp) (p : Pool) :
    (op.Replaces create p ∧ (op.step create p).2.all.Perm p.all ∧ (op.step create p).2.calls = p.calls ∧
      (op.isDestruction = true → (op.step create p).1 = .ok ())) ∨
    (∃ conn rest, op.Replaces create p ∧ p.all.Perm (conn :: rest) ∧
      (op.step create p).2.all.Perm (p.calls :: rest) ∧ (op.step create p).2.calls = p.calls + 1 ∧
      (op.step create p).1 = .ok ()) ∨
    (¬op.Replaces create p ∧ ∃ conn, p.all.Perm (conn :: (op.step create p).2.all)) := by
  cases op with
  | moveGuard i =>
      refine Or.inl ⟨trivial, ?_, ?_, (fun h => by cases h)⟩
      · simp only [PoolOp.step, Pool.moveGuard]
        cases hi : p.guards[i]? with
        | none => exact List.Perm.refl _
        | some g =>
            refine List.Perm.append_left _ ?_
            rw [Pool.held, List.filterMap_append]
            cases g with
            | none =>
                rw [filterMap_set_none_of_empty hi]
                simp [Pool.held]
            | some conn =>
                have hperm := filterMap_set_none hi
                simpa [Pool.held] using ((List.perm_append_singleton conn _).trans hperm.symm)
      · simp only [PoolOp.step, Pool.moveGuard]
        split <;> rfl
  | createConnection valid =>
      simp only [PoolOp.step, PoolOp.Replaces, Pool.createConnection, Pool.acquire]
      cases hidle : p.idle with
      | nil => exact Or.inl ⟨fun h => absurd rfl h, List.Perm.refl _, rfl, (fun h => by cases h)⟩
      | cons conn rest =>
          have hall : p.all = conn :: (rest ++ p.held) := by
            rw [Pool.all, hidle]
            rfl
          cases valid with
          | true =>
              refine Or.inl ⟨(fun _ h => by cases h), ?_, rfl, (fun h => by cases h)⟩
              rw [hall]
              simpa [Pool.all, Pool.held] using List.perm_append_singleton conn (rest ++ p.held)
          | false =>
              cases hcreate : create p.calls with
              | made =>
                  refine Or.inr (Or.inl ⟨conn, rest ++ p.held, fun _ _ => rfl, hall ▸ List.Perm.refl _, ?_⟩)
                  simpa [Pool.createConn, hcreate, Pool.all, Pool.held] using
                    List.perm_append_singleton p.calls (rest ++ p.held)
              | null =>
                  refine Or.inr (Or.inr ⟨by simp, conn, ?_⟩)
                  rw [hall]
                  simp [Pool.createConn, hcreate, Pool.all, Pool.held]
              | raised =>
                  refine Or.inr (Or.inr ⟨by simp, conn, ?_⟩)
                  rw [hall]
                  simp [Pool.createConn, hcreate, Pool.all, Pool.held]
  | destroyGuard i valid =>
      simp only [PoolOp.step, PoolOp.Replaces, Pool.destroyGuard]
      cases hi : p.guards[i]? with
      | none => exact Or.inl ⟨(fun h => by cases h), List.Perm.refl _, rfl, fun _ => rfl⟩
      | some g =>
          cases g with
          | none => exact Or.inl ⟨(fun h => by cases h), List.Perm.refl _, rfl, fun _ => rfl⟩
          | some conn =>
              have hall : p.all.Perm (conn :: (p.idle ++ (p.guards.set i none).filterMap id)) :=
                ((filterMap_set_none hi).append_left p.idle).trans List.perm_middle
              cases valid with
              | true =>
                  refine Or.inl ⟨(fun _ h => by cases h), ?_, rfl, fun _ => rfl⟩
                  refine List.Perm.trans ?_ hall.symm
                  simp [Pool.release, Pool.all, Pool.held]
              | false =>
                  cases hcreate : create p.calls with
                  | made =>
                      refine Or.inr (Or.inl ⟨conn, _, fun _ _ => rfl, hall, ?_⟩)
                      simp [Pool.release, Pool.createConn, hcreate, Pool.all, Pool.held]
                  | null =>
                      refine Or.inr (Or.inr ⟨by simp, conn, ?_⟩)
                      simpa [Pool.release, Pool.createConn, hcreate, Pool.all, Pool.held] using hall
                  | raised =>
                      refine Or.inr (Or.inr ⟨by simp, conn, ?_⟩)
                      simpa [Pool.release, Pool.createConn, hcreate, Pool.all, Pool.held] using hall

/-- **Step.** A step that replaces what it finds broken keeps the connections and does not raise from a
destructor. -/
theorem conserved_step {op : PoolOp} (hsize : p.Conserved size) (hpast : p.Past) (h : op.Replaces create p) :
    (op.step create p).2.Conserved size ∧ (op.step create p).2.Past ∧
      (op.isDestruction = true → (op.step create p).1 = .ok ()) := by
  rcases @step_cases create op p with ⟨-, hperm, hcalls, hok⟩ |
    ⟨conn, rest, -, hold, hnew, hcalls, hok⟩ | ⟨hnot, -⟩
  · refine ⟨⟨hperm.length_eq.trans hsize.1, hperm.nodup_iff.mpr hsize.2⟩, fun c hc => ?_, hok⟩
    rw [hcalls]
    exact hpast c (hperm.mem_iff.mp hc)
  · have hrest : ∀ c ∈ rest, c < p.calls :=
      fun c hc => hpast c (hold.mem_iff.mpr (List.mem_cons_of_mem conn hc))
    have hnodup := List.nodup_cons.mp (hold.nodup_iff.mp hsize.2)
    refine ⟨⟨?_, ?_⟩, fun c hc => ?_, fun _ => hok⟩
    · have hlength := hold.length_eq
      rw [hsize.1] at hlength
      rw [hnew.length_eq, hlength, List.length_cons, List.length_cons]
    · exact hnew.nodup_iff.mpr
        (List.nodup_cons.mpr ⟨fun hmem => absurd (hrest _ hmem) (Nat.lt_irrefl _), hnodup.2⟩)
    · rw [hcalls]
      rcases List.mem_cons.mp (hnew.mem_iff.mp hc) with rfl | hc
      · exact Nat.lt_succ_self _
      · exact Nat.lt_succ_of_lt (hrest c hc)
  · exact absurd h hnot

/-- A step that does not replace what it finds broken loses a connection. -/
theorem not_conserved_step {op : PoolOp} (hsize : p.Conserved size) (h : ¬op.Replaces create p) :
    ¬(op.step create p).2.Conserved size := by
  rcases @step_cases create op p with ⟨hyes, -⟩ | ⟨conn, rest, hyes, -⟩ | ⟨-, conn, hperm⟩
  · exact absurd hyes h
  · exact absurd hyes h
  · intro hafter
    have hlength := hperm.length_eq
    rw [hsize.1, List.length_cons, hafter.1] at hlength
    omega

end Step

section Histories

variable (create : Nat → Creation)

/-- In every state of a history there are exactly `size` connections, and no destructor raises. -/
def Conserves (size : Nat) : List PoolOp → Pool → Prop
  | [], p => p.Conserved size
  | op :: rest, p =>
      p.Conserved size ∧ (op.isDestruction = true → (op.step create p).1 = .ok ()) ∧
        Conserves size rest (op.step create p).2

/-- Every connection that is found broken in a history is replaced. -/
def Replaces : List PoolOp → Pool → Prop
  | [], _ => True
  | op :: rest, p => op.Replaces create p ∧ Replaces rest (op.step create p).2

instance decidableReplaces : ∀ ops p, Decidable (Replaces create ops p)
  | [], _ => .isTrue trivial
  | _ :: rest, _ => @instDecidableAnd _ _ _ (decidableReplaces rest _)

variable {create}

theorem initLoop_conserved (n size : Nat) (p p' : Pool) (h : Pool.initLoop create n p = .ok p')
    (hsize : p.Conserved size) (hpast : p.Past) (hguards : p.guards = []) :
    p'.Conserved (size + n) ∧ p'.Past := by
  induction n generalizing p size with
  | zero =>
      cases h
      exact ⟨hsize, hpast⟩
  | succ n ih =>
      rw [Pool.initLoop] at h
      cases hcreate : create p.calls with
      | null => simp [Pool.createConn, hcreate] at h
      | raised => simp [Pool.createConn, hcreate] at h
      | made =>
          simp only [Pool.createConn, hcreate] at h
          have hall : p.all = p.idle := by simp [Pool.all, Pool.held, hguards]
          rw [Pool.Conserved, hall] at hsize
          rw [Pool.Past, hall] at hpast
          have hnext := ih (size + 1) _ h ?_ ?_ hguards
          · rw [Nat.add_assoc, Nat.add_comm 1] at hnext
            exact hnext
          · refine ⟨by simp [Pool.all, Pool.held, hguards, hsize.1], ?_⟩
            simp only [Pool.all, Pool.held, hguards, List.filterMap_nil, List.append_nil]
            refine List.nodup_append.mpr ⟨hsize.2, by simp, fun c hc c' hc' => ?_⟩
            rw [List.mem_singleton.mp hc']
            exact Nat.ne_of_lt (hpast c hc)
          · intro c hc
            simp only [Pool.all, Pool.held, hguards, List.filterMap_nil, List.append_nil, List.mem_append,
              List.mem_singleton] at hc
            rcases hc with hc | rfl
            · exact Nat.lt_succ_of_lt (hpast c hc)
            · exact Nat.lt_succ_self _

/-- **Run.** From a state with `size` connections, a history keeps them exactly when it replaces every
connection that it finds broken. -/
theorem conserves_iff_replaces (size : Nat) (ops : List PoolOp) (p : Pool) (hsize : p.Conserved size)
    (hpast : p.Past) : Conserves create size ops p ↔ Replaces create ops p := by
  induction ops generalizing p with
  | nil => exact iff_of_true hsize trivial
  | cons op rest ih =>
      by_cases hop : op.Replaces create p
      · obtain ⟨hnext, hnextPast, hok⟩ := conserved_step hsize hpast hop
        rw [Conserves, Replaces, ih _ hnext hnextPast]
        exact ⟨fun h => ⟨hop, h.2.2⟩, fun h => ⟨hsize, hok, h.2⟩⟩
      · refine iff_of_false (fun h => ?_) fun h => hop h.1
        have hafter : (op.step create p).2.Conserved size := by
          have hrest := h.2.2
          cases rest with
          | nil => exact hrest
          | cons _ _ => exact hrest.1
        exact not_conserved_step hsize hop hafter

/-- **Conservation.** After construction a history keeps `pool_size` connections, with no destructor that
raises, exactly when it replaces every connection that it finds broken. -/
theorem pool_conserved_iff (poolSize : Int) (p : Pool) (hp : Pool.initPool create poolSize = .ok p)
    (ops : List PoolOp) : Conserves create poolSize.toNat ops p ↔ Replaces create ops p := by
  have hempty : (⟨[], [], 0⟩ : Pool).Conserved 0 := ⟨rfl, List.nodup_nil⟩
  have hinit := initLoop_conserved poolSize.toNat 0 _ p hp hempty (fun c hc => by cases hc) rfl
  rw [Nat.zero_add] at hinit
  exact conserves_iff_replaces poolSize.toNat ops p hinit.1 hinit.2

end Histories

/-- The server is reachable while the pool is filled, and not afterwards. -/
def unreachableAfter (n k : Nat) : Creation := if k < n then .made else .raised

/-- A pool of one connection after construction. -/
def freshPool : Pool := ⟨[0], [], 1⟩

theorem pool_loses_connection :
    Pool.initPool (unreachableAfter 1) 1 = .ok freshPool ∧
      ¬Conserves (unreachableAfter 1) 1 [.createConnection false] freshPool ∧
      ¬Conserves (unreachableAfter 1) 1 [.createConnection true, .destroyGuard 0 false] freshPool := by
  refine ⟨by decide, ?_, ?_⟩
  · rintro ⟨-, -, hlength, -⟩
    exact absurd hlength (by decide)
  · rintro ⟨-, -, -, hok, -⟩
    exact absurd (hok rfl) (by decide)

/-- A broken connection is replaced when it is given back. -/
theorem pool_conserved_sample :
    Conserves (unreachableAfter 4) 3 [.createConnection true, .moveGuard 0, .destroyGuard 1 false] ⟨[0, 1, 2], [], 3⟩ :=
  (pool_conserved_iff 3 ⟨[0, 1, 2], [], 3⟩ rfl _).mpr (by decide)

end AccountService

