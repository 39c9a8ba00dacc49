import AccountService.ModelConnection
import Mathlib.Data.List.Count

/-! The constructor of a connection over every sequence of answers of the client library. Whatever it
comes to, it returns with one handle, open and connected, or throws with every handle closed once. Its
loop counts the retries in the type of their bound: at the largest bound the comparison never fails,
and the loop goes on for as long as the failures are retryable. -/

namespace AccountService

open NativeCall

namespace ConnectAttempt

/-- The attempt fails with an error that is worth another one. -/
def retryable (a : ConnectAttempt) : Bool :=
  a.initialised && a.refused.any fun err => (MySQLException.ofErrno err.1 err.2).isRetryable

end ConnectAttempt

namespace NativeCall

def isRealConnect : NativeCall → Bool
  | .realConnect .. => true
  | _ => false

end NativeCall

namespace MySQLConnector

/-- How often `mysql_real_connect` was called. -/
def attempts (s : MySQLConnector) : Nat := s.calls.countP NativeCall.isRealConnect

def Opened (s : MySQLConnector) (handle : Nat) : Prop := NativeCall.init (some handle) ∈ s.calls

def closes (s : MySQLConnector) (handle : Nat) : Nat := s.calls.count (.close handle)

/-- **The ledger of handles.** After `n` calls of `mysql_init` and `m` attempts to connect, every handle
made has been closed once, except for the one in `mysql_`. -/
structure Ledger (handle : Option Nat) (n m : Nat) (s : MySQLConnector) : Prop where
  mysql_eq : s.mysql = handle
  inits_eq : s.inits = n
  attempts_eq : s.attempts = m
  held : ∀ h, handle = some h → s.Opened h
  opened_lt : ∀ h, s.Opened h → h < n
  closes_eq : ∀ h, s.Opened h → s.closes h = if handle = some h then 0 else 1
  closes_fresh : ∀ h, n ≤ h → s.closes h = 0

variable {config : MySQLConnectionConfig} {server : Nat → ConnectAttempt} {s : MySQLConnector}
variable {handle : Option Nat} {n m : Nat}

theorem ledger_start : Ledger none 0 0 {} :=
  ⟨rfl, rfl, rfl, fun _ h => absurd h (by simp), fun _ h => absurd h List.not_mem_nil,
    fun _ h => absurd h List.not_mem_nil, fun _ _ => rfl⟩

/-- Calls that make and close no handle. -/
theorem Ledger.append (hs : Ledger handle n m s) (calls : List NativeCall)
    (hinit : ∀ h, NativeCall.init (some h) ∉ calls) (hclose : ∀ h, NativeCall.close h ∉ calls) :
    Ledger handle n (m + calls.countP NativeCall.isRealConnect) { s with calls := s.calls ++ calls } := by
  have hopened : ∀ h, Opened { s with calls := s.calls ++ calls } h → s.Opened h := fun h hmem =>
    (List.mem_append.1 hmem).resolve_right (hinit h)
  have hcloses : ∀ h, closes { s with calls := s.calls ++ calls } h = s.closes h := fun h => by
    rw [closes, List.count_append, List.count_eq_zero_of_not_mem (hclose h)]
    rfl
  refine ⟨hs.mysql_eq, hs.inits_eq, ?_, fun h hh => List.mem_append_left _ (hs.held h hh),
    fun h hh => hs.opened_lt h (hopened h hh), fun h hh => ?_,
    fun h hh => (hcloses h).trans (hs.closes_fresh h hh)⟩
  · rw [attempts, List.countP_append]
    exact congrArg (· + _) hs.attempts_eq
  · rw [hcloses, hs.closes_eq h (hopened h hh)]

/-- `mysql_init` makes handle `n`. -/
theorem Ledger.made (hs : Ledger none n m s) :
    Ledger (some n) (n + 1) m ⟨some n, n + 1, s.calls ++ [.init (some n)]⟩ := by
  have hcloses : ∀ h, closes ⟨some n, n + 1, s.calls ++ [.init (some n)]⟩ h = s.closes h := fun h => by
    rw [closes, List.count_append]
    rfl
  have hopened : ∀ h, Opened ⟨some n, n + 1, s.calls ++ [.init (some n)]⟩ h → s.Opened h ∨ h = n := by
    intro h hmem
    rcases List.mem_append.1 hmem with hmem | hmem
    · exact Or.inl hmem
    · exact Or.inr (Option.some.inj (NativeCall.init.inj (List.mem_singleton.1 hmem)))
  refine ⟨rfl, rfl, ?_, fun h hh => ?_, fun h hh => ?_, fun h hh => ?_, fun h hh => ?_⟩
  · rw [attempts, List.countP_append]
    exact hs.attempts_eq
  · rw [Option.some.inj hh]
    exact List.mem_append_right _ (List.mem_singleton_self _)
  · rcases hopened h hh with hh | rfl
    · exact Nat.lt_succ_of_lt (hs.opened_lt h hh)
    · exact Nat.lt_succ_self _
  · rw [hcloses]
    rcases hopened h hh with hh | rfl
    · have hlt := hs.opened_lt h hh
      rw [hs.closes_eq h hh, if_neg (by simp), if_neg (fun heq => by
        have := Option.some.inj heq
        omega)]
    · rw [hs.closes_fresh _ (Nat.le_refl _), if_pos rfl]
  · rw [hcloses]
    exact hs.closes_fresh h (Nat.le_of_succ_le hh)

/-- `mysql_init` yields no handle. -/
theorem Ledger.notMade (hs : Ledger none n m s) :
    Ledger none (n + 1) m ⟨none, n + 1, s.calls ++ [.init none]⟩ := by
  obtain ⟨-, -, hattempts, -, hopened, hcloses, hfresh⟩ := hs.append [.init none] (by simp) (by simp)
  exact ⟨rfl, rfl, hattempts, fun h hh => absurd hh (by simp), fun h hh => Nat.lt_succ_of_lt (hopened h hh), hcloses,
    fun h hh => hfresh h (Nat.le_of_succ_le hh)⟩

/-- `mysql_close` on the handle in `mysql_`. -/
theorem Ledger.closeHandle (hs : Ledger (some n) (n + 1) m s) : Ledger none (n + 1) m s.closeHandle := by
  have hclose : s.closeHandle = { s with mysql := none, calls := s.calls ++ [.close n] } := by
    rw [MySQLConnector.closeHandle, hs.mysql_eq]
  rw [hclose]
  have hcloses : ∀ h, closes { s with mysql := none, calls := s.calls ++ [.close n] } h =
      s.closes h + if n = h then 1 else 0 := fun h => by
    rw [closes, List.count_append, List.count_singleton]
    simp [closes]
  have hopened : ∀ h, Opened { s with mysql := none, calls := s.calls ++ [.close n] } h → s.Opened h :=
    fun h hmem => (List.mem_append.1 hmem).resolve_right (by simp)
  refine ⟨rfl, hs.inits_eq, ?_, fun h hh => absurd hh (by simp), fun h hh => hs.opened_lt h (hopened h hh),
    fun h hh => ?_, fun h hh => ?_⟩
  · rw [attempts, List.countP_append]
    exact hs.attempts_eq
  · rw [hcloses, hs.closes_eq h (hopened h hh)]
    by_cases hn : n = h
    · simp [hn]
    · simp [hn]
  · rw [hcloses, hs.closes_fresh h hh, if_neg (by omega)]

/-- What the code of an attempt does: `mysql_init` fails, or `mysql_real_connect` answers on the handle. -/
theorem attempt_cases (config : MySQLConnectionConfig) (server : Nat → ConnectAttempt) (hs : Ledger none n m s) :
    ((server n).initialised = false ∧ ∃ ex s₁, initAndSetOptions config server s = (.error ex, s₁) ∧
      Ledger none (n + 1) m s₁.closeHandle) ∨
    ((server n).initialised = true ∧ ∃ s₁ s₂, initAndSetOptions config server s = (.ok n, s₁) ∧
      realConnect config server n s₁ = ((server n).refused, s₂) ∧ Ledger (some n) (n + 1) (m + 1) s₂) := by
  cases hinit : (server n).initialised with
  | false =>
      refine Or.inl ⟨rfl, ⟨0, ascii "mysql_init failed: out of memory"⟩,
        ⟨none, n + 1, s.calls ++ [.init none]⟩, ?_, ?_⟩
      · rw [initAndSetOptions, hs.inits_eq, if_neg (by simp [hinit])]
      · exact hs.notMade
  | true =>
      have hset := hs.made.append ((optionCalls config).map (.options n)) (by simp) (by simp)
      have hcount : ((optionCalls config).map (NativeCall.options n)).countP NativeCall.isRealConnect = 0 := by
        simp [List.countP_map, Function.comp_def, NativeCall.isRealConnect]
      rw [hcount, Nat.add_zero] at hset
      refine Or.inr ⟨rfl, _, _, ?_, rfl, hset.append [.realConnect n config.host config.username
        config.password config.database config.port] (by simp) (by simp)⟩
      rw [initAndSetOptions, hs.inits_eq, if_pos hinit, List.append_assoc]
      rfl

/-- An attempt whose failure is retryable. -/
theorem retryable_iff (a : ConnectAttempt) :
    a.retryable = true ↔ a.initialised = true ∧ ∃ err, a.refused = some err ∧
      (MySQLException.ofErrno err.1 err.2).isRetryable = true := by
  rw [ConnectAttempt.retryable, Bool.and_eq_true, Option.any_eq_true]

/-- How a run ends after `n` calls of `mysql_init` and `m` attempts to connect: the last attempt is not
worth another one, or the counter is beyond its bound. -/
def Stopped (config : MySQLConnectionConfig) (server : Nat → ConnectAttempt) (n m : Nat) : Prop :=
  (∃ k, n = k + 1 ∧ (server k).retryable = false ∧ m = if (server k).initialised then k + 1 else k) ∨
  (m = n ∧ ¬ UInt32.ofNat n ≤ config.maxRetries)

/-- What a run leaves: the handle of the attempt that succeeded, or no handle and an exception. -/
def Leaves (server : Nat → ConnectAttempt) (n m : Nat) (result : Except MySQLException Unit)
    (s : MySQLConnector) : Prop :=
  (∃ k, result = .ok () ∧ n = k + 1 ∧ Ledger (some k) n m s ∧ (server k).initialised = true ∧
    (server k).refused = none) ∨
  ∃ ex, result = .error ex ∧ Ledger none n m s

/-- A run that comes to its end, from attempt `first` on. -/
structure Ending (config : MySQLConnectionConfig) (server : Nat → ConnectAttempt) (first n m : Nat)
    (result : Except MySQLException Unit) (s : MySQLConnector) : Prop where
  failed : ∀ j, j + 1 < n → (server j).retryable = true
  tested : ∀ j, first ≤ j → j < n → UInt32.ofNat j ≤ config.maxRetries
  stopped : Stopped config server n m
  leaves : Leaves server n m result s

/-- **One turn.** From `n` attempts that failed, a turn of the loop ends the run, or makes another attempt
that fails and goes on behind it. -/
theorem connectWithRetryLoop_turn (config : MySQLConnectionConfig) (hs : Ledger none n n s)
    (hfailed : ∀ j < n, (server j).retryable = true) (turns : Nat) (err : UInt32 × Bytes) :
    (∃ n' m' result s', connectWithRetryLoop config server (turns + 1) (UInt32.ofNat n) err s = some (result, s') ∧
      Ending config server n n' m' result s') ∨
    ((server n).retryable = true ∧ UInt32.ofNat n ≤ config.maxRetries ∧ ∃ err' s', Ledger none (n + 1) (n + 1) s' ∧
      connectWithRetryLoop config server (turns + 1) (UInt32.ofNat n) err s =
        connectWithRetryLoop config server turns (UInt32.ofNat (n + 1)) err' s') := by
  rw [connectWithRetryLoop]
  split
  · rename_i htest
    have htested : ∀ j, n ≤ j → j < n + 1 → UInt32.ofNat j ≤ config.maxRetries := by
      intro j hj hlt
      rwa [Nat.le_antisymm (Nat.le_of_lt_succ hlt) hj]
    have hbefore : ∀ j, j + 1 < n + 1 → (server j).retryable = true := fun j hj => hfailed j (by omega)
    obtain ⟨hinit, ex, s₁, heq, hs₁⟩ | ⟨hinit, s₁, s₂, heq, hreal, hs₂⟩ :=
      attempt_cases config server hs
    · rw [heq]
      refine Or.inl ⟨n + 1, n, _, _, rfl, hbefore, htested, Or.inl ⟨n, rfl, ?_, ?_⟩, Or.inr ⟨ex, rfl, hs₁⟩⟩
      · rw [ConnectAttempt.retryable, hinit, Bool.false_and]
      · rw [if_neg (by simp [hinit])]
    · rw [heq]
      simp only [hreal]
      cases hrefused : (server n).refused with
      | none =>
          refine Or.inl ⟨n + 1, n + 1, _, _, rfl, hbefore, htested, Or.inl ⟨n, rfl, ?_, ?_⟩,
            Or.inl ⟨n, rfl, rfl, hs₂, hinit, hrefused⟩⟩
          · rw [ConnectAttempt.retryable, hrefused, Option.any_none, Bool.and_false]
          · rw [if_pos hinit]
      | some err' =>
          dsimp only
          split
          · rename_i hretry
            refine Or.inr ⟨(retryable_iff _).2 ⟨hinit, err', hrefused, hretry⟩, htest, err',
              s₂.closeHandle.sleepFor config.retryIntervalMs, ?_, ?_⟩
            · exact hs₂.closeHandle.append [.sleepFor config.retryIntervalMs] (by simp) (by simp)
            · rw [UInt32.ofNat_add n 1]
              rfl
          · rename_i hretry
            refine Or.inl ⟨n + 1, n + 1, _, _, rfl, hbefore, htested, Or.inl ⟨n, rfl, ?_, ?_⟩,
              Or.inr ⟨_, rfl, hs₂.closeHandle⟩⟩
            · rw [ConnectAttempt.retryable, hrefused, Option.any_some, Bool.eq_false_iff.2 hretry,
                Bool.and_false]
            · rw [if_pos hinit]
  · rename_i htest
    exact Or.inl ⟨n, n, _, _, rfl, fun j hj => hfailed j (by omega), fun j hj hlt => absurd hj (Nat.not_le.2 hlt),
      Or.inr ⟨rfl, htest⟩, Or.inr ⟨_, rfl, hs⟩⟩

theorem failed_succ (hfailed : ∀ j < n, (server j).retryable = true) (h : (server n).retryable = true) :
    ∀ j < n + 1, (server j).retryable = true := by
  intro j hj
  rcases Nat.lt_succ_iff_lt_or_eq.1 hj with hj | rfl
  · exact hfailed j hj
  · exact h

/-- **Partial correctness of the retries.** -/
theorem connectWithRetryLoop_ending {turns : Nat} {err : UInt32 × Bytes} {result : Except MySQLException Unit}
    {s' : MySQLConnector} (hs : Ledger none n n s) (hfailed : ∀ j < n, (server j).retryable = true)
    (hrun : connectWithRetryLoop config server turns (UInt32.ofNat n) err s = some (result, s')) :
    ∃ n' m', Ending config server n n' m' result s' := by
  induction turns generalizing n err s with
  | zero => cases hrun
  | succ turns ih =>
      obtain ⟨n', m', result', s₁, heq, hend⟩ | ⟨hretry, htest, err', s₁, hs₁, heq⟩ :=
        connectWithRetryLoop_turn config hs hfailed turns err
      · rw [heq] at hrun
        cases hrun
        exact ⟨n', m', hend⟩
      · rw [heq] at hrun
        obtain ⟨n', m', hend⟩ := ih hs₁ (failed_succ hfailed hretry) hrun
        refine ⟨n', m', hend.failed, fun j hj hlt => ?_, hend.stopped, hend.leaves⟩
        rcases Nat.eq_or_lt_of_le hj with rfl | hj
        · exact htest
        · exact hend.tested j hj hlt

/-- **Termination of the retries.** They end when an attempt ahead is not worth another one, or the
counter is beyond its bound there. -/
theorem connectWithRetryLoop_ends {d : Nat} (err : UInt32 × Bytes) (hs : Ledger none n n s)
    (hfailed : ∀ j < n, (server j).retryable = true)
    (hstop : (server (n + d)).retryable = false ∨ ¬ UInt32.ofNat (n + d) ≤ config.maxRetries) :
    ∃ r, connectWithRetryLoop config server (d + 1) (UInt32.ofNat n) err s = some r := by
  induction d generalizing n err s with
  | zero =>
      obtain ⟨n', m', result', s₁, heq, -⟩ | ⟨hretry, htest, -⟩ :=
        connectWithRetryLoop_turn config hs hfailed 0 err
      · exact ⟨_, heq⟩
      · rcases hstop with hstop | hstop
        · exact absurd (hretry.symm.trans hstop) (by decide)
        · exact absurd htest hstop
  | succ d ih =>
      obtain ⟨n', m', result', s₁, heq, -⟩ | ⟨hretry, htest, err', s₁, hs₁, heq⟩ :=
        connectWithRetryLoop_turn config hs hfailed (d + 1) err
      · exact ⟨_, heq⟩
      · rw [heq]
        refine ih _ hs₁ (failed_succ hfailed hretry) ?_
        rwa [Nat.add_right_comm n 1 d]

/-- At the largest bound, failures that are all retryable keep the loop going. -/
theorem connectWithRetryLoop_goesOn {err : UInt32 × Bytes} (hs : Ledger none n n s)
    (hall : ∀ j, (server j).retryable = true) (hmax : ∀ a : UInt32, a ≤ config.maxRetries) (turns : Nat) :
    connectWithRetryLoop config server turns (UInt32.ofNat n) err s = none := by
  induction turns generalizing n err s with
  | zero => rfl
  | succ turns ih =>
      obtain ⟨n', m', result', s₁, -, hend⟩ | ⟨-, -, err', s₁, hs₁, heq⟩ :=
        connectWithRetryLoop_turn config hs (fun j _ => hall j) turns err
      · rcases hend.stopped with ⟨k, -, hk, -⟩ | ⟨-, hbeyond⟩
        · exact absurd ((hall k).symm.trans hk) (by decide)
        · exact absurd (hmax _) hbeyond
      · rw [heq]
        exact ih hs₁

/-- The first attempt is worth another one. -/
def ShouldRetry (config : MySQLConnectionConfig) (server : Nat → ConnectAttempt) : Prop :=
  config.autoReconnect = some true ∧ 0 < config.maxRetries ∧ (server 0).retryable = true

/-- The constructor ends with its first attempt, or hands over to the retries. -/
theorem construct_cases (config : MySQLConnectionConfig) (server : Nat → ConnectAttempt) :
    (¬ ShouldRetry config server ∧ ∃ m result s, (∀ turns, construct config server turns = some (result, s)) ∧
      m ≤ 1 ∧ Leaves server 1 m result s) ∨
    (ShouldRetry config server ∧ ∃ s, Ledger none 1 1 s ∧
      ∀ turns, construct config server turns = connectWithRetry config server turns s) := by
  unfold construct
  obtain ⟨hinit, ex, s₁, heq, hs₁⟩ | ⟨hinit, s₁, s₂, heq, hreal, hs₂⟩ :=
    attempt_cases config server ledger_start
  · rw [heq]
    refine Or.inl ⟨fun h => ?_, 0, _, _, fun _ => rfl, Nat.zero_le _, Or.inr ⟨ex, rfl, hs₁⟩⟩
    exact absurd (((retryable_iff _).1 h.2.2).1.symm.trans hinit) (by decide)
  · rw [heq]
    simp only [hreal]
    cases hrefused : (server 0).refused with
    | none =>
        refine Or.inl ⟨fun h => ?_, 1, _, _, fun _ => rfl, Nat.le_refl _,
          Or.inl ⟨0, rfl, rfl, hs₂, hinit, hrefused⟩⟩
        obtain ⟨err, hsome, -⟩ := ((retryable_iff _).1 h.2.2).2
        rw [hrefused] at hsome
        cases hsome
    | some err =>
        dsimp only
        have hiff : (config.autoReconnect.getD false && decide (0 < config.maxRetries) &&
            (MySQLException.ofErrno err.1 err.2).isRetryable) = true ↔ ShouldRetry config server := by
          rw [ShouldRetry, retryable_iff, Bool.and_eq_true, Bool.and_eq_true, decide_eq_true_eq, and_assoc]
          refine and_congr ?_ (and_congr_right fun _ => ⟨fun h => ⟨hinit, err, hrefused, h⟩, fun h => ?_⟩)
          · cases config.autoReconnect with
            | none => simp
            | some on => simp
          · obtain ⟨-, err', hsome, h⟩ := h
            rw [hrefused] at hsome
            cases hsome
            exact h
        split
        · rename_i hretry
          exact Or.inr ⟨hiff.1 hretry, _, hs₂.closeHandle, fun _ => rfl⟩
        · rename_i hretry
          exact Or.inl ⟨fun h => hretry (hiff.2 h), 1, _, _, fun _ => rfl, Nat.le_refl _,
            Or.inr ⟨_, rfl, hs₂.closeHandle⟩⟩

/-- What the constructor promises about a run that ended. -/
structure Settled (config : MySQLConnectionConfig) (server : Nat → ConnectAttempt)
    (result : Except MySQLException Unit) (s : MySQLConnector) : Prop where
  bounded : s.attempts ≤ 1 + config.maxRetries.toNat
  retried : ∀ k, k + 1 < s.inits → config.autoReconnect = some true ∧ (server k).retryable = true
  returned : result = .ok () → ∃ k, s.mysql = some k ∧ s.inits = k + 1 ∧ s.Opened k ∧
    (server k).initialised = true ∧ (server k).refused = none ∧
    ∀ h, s.Opened h → s.closes h = if h = k then 0 else 1
  thrown : ∀ ex, result = .error ex → s.mysql = none ∧ ∀ h, s.Opened h → s.closes h = 1

/-- The constructor comes to its end and keeps its promise. -/
def Sound (config : MySQLConnectionConfig) (server : Nat → ConnectAttempt) : Prop :=
  ∃ turns result s, construct config server turns = some (result, s) ∧ Settled config server result s

/-- The loop goes beyond its bound: the counter has no value above it, every attempt up to it fails
with a retryable error, and `mysql_init` yields a handle for one more. -/
def Overruns (config : MySQLConnectionConfig) (server : Nat → ConnectAttempt) : Prop :=
  config.autoReconnect = some true ∧ config.maxRetries.toNat + 1 = 2 ^ 32 ∧
    (∀ k ≤ config.maxRetries.toNat, (server k).retryable = true) ∧
    (server (config.maxRetries.toNat + 1)).initialised = true

theorem Leaves.settled {result : Except MySQLException Unit} (h : Leaves server n m result s)
    (hbounded : m ≤ 1 + config.maxRetries.toNat)
    (hretried : ∀ k, k + 1 < n → config.autoReconnect = some true ∧ (server k).retryable = true) :
    Settled config server result s := by
  rcases h with ⟨k, rfl, rfl, hs, hinit, hrefused⟩ | ⟨ex, rfl, hs⟩
  · refine ⟨hs.attempts_eq ▸ hbounded, hs.inits_eq ▸ hretried, fun _ => ?_, fun ex h => by cases h⟩
    refine ⟨k, hs.mysql_eq, hs.inits_eq, hs.held k rfl, hinit, hrefused, fun h hh => ?_⟩
    rw [hs.closes_eq h hh]
    by_cases hk : h = k
    · rw [if_pos (congrArg some hk.symm), if_pos hk]
    · rw [if_neg fun heq => hk (Option.some.inj heq).symm, if_neg hk]
  · refine ⟨hs.attempts_eq ▸ hbounded, hs.inits_eq ▸ hretried, fun h => (by cases h), fun _ _ => ?_⟩
    exact ⟨hs.mysql_eq, fun h hh => hs.closes_eq h hh⟩

theorem Leaves.attempts_eq {result : Except MySQLException Unit} (h : Leaves server n m result s) :
    s.attempts = m := by
  rcases h with ⟨k, -, -, hs, -⟩ | ⟨ex, -, hs⟩
  · exact hs.attempts_eq
  · exact hs.attempts_eq

theorem Stopped.le (h : Stopped config server n m) : m ≤ n := by
  rcases h with ⟨k, rfl, -, rfl⟩ | ⟨rfl, -⟩
  · split
    · exact Nat.le_refl _
    · exact Nat.le_succ _
  · exact Nat.le_refl _

/-- Below the largest bound the counter stays below its modulus. -/
theorem toNat_ofNat_bound (h : config.maxRetries.toNat + 1 ≠ 2 ^ 32) :
    ¬ UInt32.ofNat (config.maxRetries.toNat + 1) ≤ config.maxRetries := by
  have hlt := config.maxRetries.toNat_lt
  rw [UInt32.le_iff_toNat_le, UInt32.toNat_ofNat_of_lt' (show _ < 2 ^ 32 by omega)]
  omega

theorem le_maxRetries (h : config.maxRetries.toNat + 1 = 2 ^ 32) (a : UInt32) : a ≤ config.maxRetries := by
  have hlt := a.toNat_lt
  rw [UInt32.le_iff_toNat_le]
  omega

/-- The attempts of a run that does not overrun are within the bound. -/
theorem Ending.bounded {result : Except MySQLException Unit} (hend : Ending config server 1 n m result s)
    (hauto : config.autoReconnect = some true) (h : ¬ Overruns config server) :
    m ≤ 1 + config.maxRetries.toNat := by
  by_cases hmax : config.maxRetries.toNat + 1 = 2 ^ 32
  · rcases hend.stopped with ⟨k, rfl, hk, rfl⟩ | ⟨-, hbeyond⟩
    · rcases Nat.lt_or_ge config.maxRetries.toNat k with hlt | hge
      · -- the attempt behind the bound is the last one, and no handle was made for it
        have hfirst : ∀ j ≤ config.maxRetries.toNat, (server j).retryable = true := fun j hj =>
          hend.failed j (by omega)
        have hlast : k = config.maxRetries.toNat + 1 := by
          by_contra hne
          have hretry := hend.failed (config.maxRetries.toNat + 1) (by omega)
          exact h ⟨hauto, hmax, hfirst, ((retryable_iff _).1 hretry).1⟩
        have hinit : ¬ (server k).initialised = true := fun hinit =>
          h ⟨hauto, hmax, hfirst, hlast ▸ hinit⟩
        rw [if_neg hinit]
        omega
      · have hle := hend.stopped.le
        omega
    · exact absurd (le_maxRetries hmax _) hbeyond
  · have hle := hend.stopped.le
    have hn : n ≤ config.maxRetries.toNat + 1 := by
      by_contra hlt
      exact toNat_ofNat_bound hmax (hend.tested _ (Nat.le_add_left 1 _) (Nat.lt_of_not_le hlt))
    omega

theorem failed_one (hretry : ShouldRetry config server) : ∀ j < 1, (server j).retryable = true := fun j hj => by
  rw [Nat.lt_one_iff.1 hj]
  exact hretry.2.2

/-- A run that does not overrun comes to its end. -/
theorem connectWithRetry_ends (hs : Ledger none 1 1 s) (hretry : ShouldRetry config server)
    (h : ¬ Overruns config server) : ∃ turns r, connectWithRetry config server turns s = some r := by
  have hstop : ∃ d, (server (1 + d)).retryable = false ∨ ¬ UInt32.ofNat (1 + d) ≤ config.maxRetries := by
    by_cases hmax : config.maxRetries.toNat + 1 = 2 ^ 32
    · by_contra hnone
      have hall : ∀ d, (server (1 + d)).retryable = true := fun d => by
        by_contra hd
        exact hnone ⟨d, Or.inl (Bool.eq_false_iff.2 hd)⟩
      refine h ⟨hretry.1, hmax, fun k _ => ?_, ?_⟩
      · cases k with
        | zero => exact hretry.2.2
        | succ k => exact Nat.add_comm 1 k ▸ hall k
      · rw [Nat.add_comm]
        exact ((retryable_iff _).1 (hall _)).1
    · exact ⟨config.maxRetries.toNat, Or.inr (Nat.add_comm 1 _ ▸ toNat_ofNat_bound hmax)⟩
  obtain ⟨d, hd⟩ := hstop
  obtain ⟨r, hr⟩ := connectWithRetryLoop_ends (0, []) hs (failed_one hretry) hd
  exact ⟨d + 1, r, hr⟩

theorem sound_of_not_overruns (h : ¬ Overruns config server) : Sound config server := by
  rcases construct_cases config server with ⟨-, m, result, s, hrun, hm, hleaves⟩ | ⟨hretry, s, hs, hrun⟩
  · exact ⟨0, result, s, hrun 0, hleaves.settled (by omega) fun k hk => absurd hk (by omega)⟩
  · obtain ⟨turns, ⟨result, s'⟩, hends⟩ := connectWithRetry_ends hs hretry h
    obtain ⟨n, m, hend⟩ := connectWithRetryLoop_ending hs (failed_one hretry) hends
    exact ⟨turns, result, s', (hrun turns).trans hends, hend.leaves.settled (hend.bounded hretry.1 h)
      fun k hk => ⟨hretry.1, hend.failed k hk⟩⟩

theorem not_sound_of_overruns (h : Overruns config server) : ¬ Sound config server := by
  obtain ⟨hauto, hmax, hall, hinit⟩ := h
  rintro ⟨turns, result, s', hrun', hsettled⟩
  rcases construct_cases config server with ⟨hfirst, -⟩ | ⟨hretry, s, hs, hrun⟩
  · refine absurd ⟨hauto, ?_, hall 0 (Nat.zero_le _)⟩ hfirst
    rw [UInt32.lt_iff_toNat_lt, UInt32.toNat_zero]
    omega
  · obtain ⟨n, m, hend⟩ := connectWithRetryLoop_ending hs (failed_one hretry) ((hrun turns).symm.trans hrun')
    have hattempts : s'.attempts = m := hend.leaves.attempts_eq
    have hbounded := hsettled.bounded
    rcases hend.stopped with ⟨k, rfl, hk, rfl⟩ | ⟨-, hbeyond⟩
    · have hlt : config.maxRetries.toNat < k := by
        by_contra hle
        exact absurd ((hall k (Nat.le_of_not_lt hle)).symm.trans hk) (by decide)
      split at hattempts
      · omega
      · rename_i hlast
        have hne : k ≠ config.maxRetries.toNat + 1 := fun heq => hlast (heq ▸ hinit)
        omega
    · exact absurd (le_maxRetries hmax _) hbeyond

/-- **The retries of a connection.** The constructor ends within its bound, retries only what is worth it,
and leaves one handle open and connected or none, exactly when the loop does not go beyond its bound. -/
theorem construct_sound_iff (config : MySQLConnectionConfig) (server : Nat → ConnectAttempt) :
    Sound config server ↔ ¬ Overruns config server :=
  ⟨fun hsound hover => not_sound_of_overruns hover hsound, sound_of_not_overruns⟩

/-- The largest bound, and a host that cannot be reached. -/
def unboundedConfig : MySQLConnectionConfig := { maxRetries := 4294967295, autoReconnect := some true }

def unreachable : Nat → ConnectAttempt := fun _ => ⟨true, some (2003, ascii "Can't connect to MySQL server")⟩

/-- With them no number of turns is enough. -/
theorem construct_neverEnds : (∀ turns, construct unboundedConfig unreachable turns = none) ∧
    ¬ Sound unboundedConfig unreachable := by
  have hall : ∀ j, (unreachable j).retryable = true := fun _ =>
    show (unreachable 0).retryable = true by decide
  have hnone : ∀ turns, construct unboundedConfig unreachable turns = none := by
    intro turns
    rcases construct_cases unboundedConfig unreachable with ⟨hfirst, -⟩ | ⟨-, s, hs, hrun⟩
    · exact absurd ⟨rfl, by decide, hall 0⟩ hfirst
    · rw [hrun]
      exact connectWithRetryLoop_goesOn hs hall (le_maxRetries (by decide)) turns
  refine ⟨hnone, ?_⟩
  rintro ⟨turns, result, s, hrun, -⟩
  rw [hnone turns] at hrun
  cases hrun

end MySQLConnector

end AccountService
