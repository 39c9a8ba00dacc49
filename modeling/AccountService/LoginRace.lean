import AccountService.LoginLockout
import AccountService.SendRace

/-! Several `LoginByPassword` of one mobile at the same time. The window and the lock are the time to live of
one key. An attempt that has found the key without one sets the window by a later command: when the lock has
been set in between, the window replaces it. -/

namespace AccountService

open AuthService Expiring Interaction

/-- The number stored under a key, 0 if there is none. -/
def storedCount (key : Bytes) (w : World) : Int :=
  match w.redis.look w.clock key with
  | none => 0
  | some e => (redisInt e.value).getD 0

section Attempts

variable (config : LoginConfig) (mobile : Bytes)

/-- What an attempt does to the counter besides adding to it. -/
def OnCounter (c : Cmd) : Prop :=
  c.Spares (loginFailKey mobile) ∨
    c = .redis (.pexpire (loginFailKey mobile) (millis config.lockDurationSeconds)) ∨
    c = .redis (.pexpire (loginFailKey mobile) (millis config.failedAttemptsWindow)) ∨
    c = .redis (.del (loginFailKey mobile))

/-- The same, without adding to any counter. -/
def BesidesCount (c : Cmd) : Prop := OnCounter config mobile c ∧ ∀ key, c ≠ .redis (.incr key)

/-- An attempt in flight: the failure that is the last one allowed is followed by the lock. -/
def Attempting : Thread → Prop
  | .done _ => True
  | .call (.redis (.incr key)) next =>
      key = loginFailKey mobile ∧
        (next (.ok config.maxFailedAttempts.toInt)).next? =
          some (.redis (.pexpire (loginFailKey mobile) (millis config.lockDurationSeconds))) ∧
        ∀ reply, Attempting (next reply)
  | .call c next => OnCounter config mobile c ∧ ∀ reply, Attempting (next reply)

variable {config mobile}

theorem attempting_call {c : Cmd} {next : Service.Reply c → Thread} (hc : OnCounter config mobile c)
    (hne : ∀ key, c ≠ .redis (.incr key)) (h : ∀ reply, Attempting config mobile (next reply)) :
    Attempting config mobile (.call c next) := by
  cases c with
  | now | sql s => exact ⟨hc, h⟩
  | redis c =>
      cases c with
      | incr key => exact absurd rfl (hne key)
      | get _ | existsKey _ | pttl _ | psetex _ _ _ | del _ | pexpire _ _ => exact ⟨hc, h⟩

theorem attempting_bind {α : Type} {p : Action α} {next : α → Thread}
    (hp : Program.Uses (BesidesCount config mobile) p)
    (h : ∀ a, Attempting config mobile (next a)) : Attempting config mobile (p >>= next) := by
  induction p with
  | done a => exact h a
  | call c rest ih => exact attempting_call hp.1.1 hp.1.2 fun reply => ih reply (hp.2 reply)

theorem Attempting.next {c : Cmd} {next : Service.Reply c → Thread}
    (h : Attempting config mobile (.call c next)) (reply : Service.Reply c) :
    Attempting config mobile (next reply) := by
  cases c with
  | now | sql s => exact h.2 reply
  | redis c =>
      cases c with
      | incr key => exact h.2.2 reply
      | get _ | existsKey _ | pttl _ | psetex _ _ _ | del _ | pexpire _ _ => exact h.2 reply

theorem Attempting.cmd {c : Cmd} {next : Service.Reply c → Thread}
    (h : Attempting config mobile (.call c next)) :
    OnCounter config mobile c ∨ c = .redis (.incr (loginFailKey mobile)) := by
  cases c with
  | now | sql s => exact Or.inl h.1
  | redis c =>
      cases c with
      | incr key => exact Or.inr (by rw [h.1])
      | get _ | existsKey _ | pttl _ | psetex _ _ _ | del _ | pexpire _ _ => exact Or.inl h.1

end Attempts

section Start

variable (env : Env) (mobile : Bytes)

/-- A `LoginByPassword` in flight. -/
def loginThread (attempt : Draws × Bytes) : Thread := handle env attempt.1 (.loginByPassword mobile attempt.2)

theorem attempting_incr {config : LoginConfig} {mobile : Bytes} {next : Result Int → Thread}
    (hlast : (next (.ok config.maxFailedAttempts.toInt)).next? =
      some (.redis (.pexpire (loginFailKey mobile) (millis config.lockDurationSeconds))))
    (h : ∀ r, Attempting config mobile (next r)) :
    Attempting config mobile (incr (loginFailKey mobile) >>= next) := by
  refine ⟨rfl, hlast, fun reply => ?_⟩
  cases reply <;> exact h _

theorem attempting_recordLoginFailure {next : Unit → Thread}
    (h : Attempting env.config.login mobile (next ())) :
    Attempting env.config.login mobile (recordLoginFailure env mobile >>= next) := by
  have hexpire : ∀ seconds, (seconds = env.config.login.lockDurationSeconds ∨
      seconds = env.config.login.failedAttemptsWindow) → Attempting env.config.login mobile
        (pExpire (loginFailKey mobile) (millis seconds) >>= fun _ => next ()) := by
    intro seconds hseconds
    refine attempting_bind (uses_redisCall ⟨?_, by simp⟩) fun _ => h
    rcases hseconds with rfl | rfl
    · exact Or.inr (Or.inl rfl)
    · exact Or.inr (Or.inr (Or.inl rfl))
  simp only [recordLoginFailure, Program.bind_assoc]
  refine attempting_incr ?_ fun r => ?_
  · simp only [if_true, Program.bind_assoc]
    rfl
  · rcases r with count | ⟨c, m⟩
    · by_cases heq : count = env.config.login.maxFailedAttempts.toInt
      · simp only [if_pos heq, Program.bind_assoc]
        exact hexpire _ (Or.inl rfl)
      · by_cases hlt : count < env.config.login.maxFailedAttempts.toInt
        · simp only [if_neg heq, if_pos hlt, Program.bind_assoc]
          refine attempting_bind (uses_redisCall ⟨Or.inl trivial, by simp⟩) fun ttl => ?_
          have hwindow := hexpire _ (Or.inr rfl)
          rcases ttl with ms | ⟨c, m⟩
          · by_cases hms : ms < 0
            · simp only [decide_eq_true hms, if_true, Program.bind_assoc]
              exact hwindow
            · simp only [decide_eq_false hms, Bool.false_eq_true, if_false]
              exact h
          · simp only [if_true, Program.bind_assoc]
            exact hwindow
        · simp only [if_neg heq, if_neg hlt]
          exact h
    · exact h

/-- **Start.** A `LoginByPassword` is an attempt. -/
theorem attempting_loginThread (attempt : Draws × Bytes) :
    Attempting env.config.login mobile (loginThread env mobile attempt) := by
  have hsql : ∀ stmt, BesidesCount env.config.login mobile (.sql stmt) := fun stmt => ⟨Or.inl trivial, by simp⟩
  rw [loginThread, handle, loginByPassword]
  cases isValidMobile mobile with
  | error message => trivial
  | ok _ =>
      cases isValidPassword attempt.2 env.config.password with
      | error message => trivial
      | ok _ =>
          simp only [Program.bind_assoc]
          refine attempting_bind ?_ fun check => ?_
          · refine Program.Uses.bind (uses_redisCall ⟨Or.inl trivial, by simp⟩) fun r => ?_
            rcases r with (_ | text) | ⟨c, m⟩
            · trivial
            · simp only
              split
              · trivial
              · split
                · exact Program.Uses.bind (uses_redisCall ⟨Or.inl trivial, by simp⟩) fun _ => trivial
                · trivial
            · trivial
          · rcases check with _ | r
            · trivial
            · simp only [Program.bind_assoc]
              rcases r with _ | ⟨c, m⟩
              · simp only [orFail_ok, Program.bind_assoc]
                refine attempting_bind (uses_findByMobile (hsql _)) fun found => ?_
                rcases found with user | ⟨c, m⟩
                · simp only
                  split
                  · trivial
                  · split
                    · simp only [Program.bind_assoc]
                      exact attempting_recordLoginFailure env mobile trivial
                    · simp only [Program.bind_assoc]
                      refine attempting_bind ?_ fun _ => attempting_bind ?_ fun r => trivial
                      · have hdel : BesidesCount env.config.login mobile (.redis (.del (loginFailKey mobile))) :=
                          ⟨Or.inr (Or.inr (Or.inr rfl)), by simp⟩
                        exact Program.Uses.bind (Program.Uses.bind (uses_redisCall hdel) fun _ => trivial)
                          fun _ => trivial
                      · exact uses_signIn env attempt.1 user ⟨Or.inl trivial, by simp⟩ fun _ _ => hsql _
                · simp only
                  split
                  · simp only [Program.bind_assoc]
                    exact attempting_recordLoginFailure env mobile trivial
                  · trivial
              · trivial

theorem get_bind (key : Bytes) (next : Result (Option Bytes) → Thread) :
    ∃ rest, (get key >>= next) = .call (.redis (.get key)) rest ∧
      ∀ text, rest (.ok (some text)) = next (.ok (some text)) :=
  ⟨_, rfl, fun _ => rfl⟩

/-- A locked counter turns away the call that reads it. -/
theorem loginThread_locked (attempt : Draws × Bytes) (hmobile : isValidMobile mobile = .ok ())
    (hpassword : isValidPassword attempt.2 env.config.password = .ok ()) :
    ∃ next, loginThread env mobile attempt = .call (.redis (.get (loginFailKey mobile))) next ∧
      ∀ text n, stoi text = some n → env.config.login.maxFailedAttempts.toInt ≤ n →
        Program.Returns (fun o => o.code? = some .accountLocked) (next (.ok (some text))) := by
  rw [loginThread, handle, loginByPassword, hmobile, hpassword]
  simp only [checkLoginFailedAttempts, Program.bind_assoc]
  obtain ⟨rest, hrest, htext⟩ := get_bind (loginFailKey mobile) _
  refine ⟨rest, hrest, fun text n hn hmax => ?_⟩
  rw [htext]
  simp only [hn, if_pos hmax, Program.bind_assoc]
  refine Program.Returns.bind (Program.returns_true _) fun ttl _ => ?_
  rfl

end Start

section Counter

variable {key : Bytes} {w : World}

theorem storedCount_none (h : w.redis.look w.clock key = none) : storedCount key w = 0 := by
  simp only [storedCount, h]

theorem storedCount_some {e : Slot Bytes} {n : Int} (hn : IsInt64 n) (he : w.redis.look w.clock key = some e)
    (hvalue : e.value = toString n) : storedCount key w = n := by
  simp only [storedCount, he, hvalue, redisInt_toString hn, Option.getD_some]

/-- What is stored under the key is a number of an `int`. -/
def CountsInt (key : Bytes) (w : World) : Prop :=
  ∀ e, w.redis.look w.clock key = some e → ∃ n : Nat, n ≤ 2147483647 ∧ e.value = toString n

theorem isInt64_of_le {n : Nat} (h : n ≤ 2147483647) : IsInt64 n ∧ IsInt64 ((n : Int) + 1) := by
  unfold IsInt64
  omega

/-- `INCR` on such a number. -/
theorem incr_counts (hw : w.redisFaults = []) (h : CountsInt key w) :
    ∃ (n : Nat) (deadline : Option Nat), n ≤ 2147483647 ∧ storedCount key w = n ∧
      (∀ e, w.redis.look w.clock key = some e → deadline = e.deadline) ∧
      (exec (.redis (.incr key)) w).1 = .ok ((n : Int) + 1) ∧
      (exec (.redis (.incr key)) w).2.redis.look (exec (.redis (.incr key)) w).2.clock key =
        some ⟨toString ((n : Int) + 1), deadline⟩ := by
  cases he : w.redis.look w.clock key with
  | none =>
      obtain ⟨hreply, hlook⟩ := look_exec_incr_none hw he
      exact ⟨0, none, by omega, storedCount_none he, (fun e he => by cases he), hreply, hlook⟩
  | some e =>
      obtain ⟨n, hn, hvalue⟩ := h e he
      obtain ⟨hint, hnext⟩ := isInt64_of_le hn
      obtain ⟨hreply, hlook⟩ := look_exec_incr hw he hvalue hint hnext
      exact ⟨n, e.deadline, hn, storedCount_some hint he hvalue, (fun e' he' => by cases he'; rfl),
        hreply, hlook⟩

end Counter

section Run

variable (env : Env) (mobile : Bytes)

/-- The condition on a step: no attempt clears the counter (none succeeds), the counter stays an `int`, and
the window does not shorten the life of a counter that has reached the limit. -/
def KeepsLock (s : Concurrent) : Move Nat → Prop
  | .outside _ => True
  | .thread i =>
      s.pending i ≠ some (.redis (.del (loginFailKey mobile))) ∧
      (s.pending i = some (.redis (.incr (loginFailKey mobile))) →
        storedCount (loginFailKey mobile) s.shared < 2147483647) ∧
      (s.pending i = some (.redis (.pexpire (loginFailKey mobile) (millis env.config.login.failedAttemptsWindow))) →
        env.config.login.maxFailedAttempts.toInt ≤ storedCount (loginFailKey mobile) s.shared →
          ∀ e ∈ s.shared.redis.look s.shared.clock (loginFailKey mobile), ∀ d ∈ e.deadline,
            d ≤ deadlineAfter s.shared.clock (millis env.config.login.failedAttemptsWindow))

instance (s : Concurrent) (m : Move Nat) : Decidable (KeepsLock env mobile s m) :=
  match m with
  | .outside _ => .isTrue trivial
  | .thread _ => by unfold KeepsLock; infer_instance

structure AttemptsInv (s : Concurrent) : Prop where
  faults : s.shared.redisFaults = []
  staged : ∀ p ∈ s.threads, Attempting env.config.login mobile p
  counts : CountsInt (loginFailKey mobile) s.shared

/-- The counter has reached the limit and stays until `bound`. -/
structure LockedUntil (bound : Nat) (s : Concurrent) : Prop where
  reached : env.config.login.maxFailedAttempts.toInt ≤ storedCount (loginFailKey mobile) s.shared
  kept : ∃ e d, s.shared.redis.look s.shared.clock (loginFailKey mobile) = some e ∧ e.deadline = some d ∧ bound ≤ d
  renewed : bound ≤ deadlineAfter s.shared.clock (millis env.config.login.lockDurationSeconds)

end Run

section Step

variable {env : Env} (hc : env.config.login.Usable) {mobile : Bytes} {s : Concurrent}

theorem storedCount_map {w w' : World} {key : Bytes} {deadline : Option Nat}
    (h : w'.redis.look w'.clock key = (w.redis.look w.clock key).map fun e => ⟨e.value, deadline⟩) :
    storedCount key w' = storedCount key w := by
  simp only [storedCount, h]
  cases w.redis.look w.clock key <;> rfl

include hc in
/-- **Step.** What a permitted step of an attempt does to the counter: nothing, a new deadline, or one more. -/
theorem AttemptsInv.thread_cases (h : AttemptsInv env mobile s) {i : Nat} {c : Cmd}
    {next : Service.Reply c → Thread} (hi : s.threads[i]? = some (.call c next))
    (hguard : KeepsLock env mobile s (.thread i)) :
    (exec c s.shared).2.redis.look (exec c s.shared).2.clock (loginFailKey mobile) =
        s.shared.redis.look s.shared.clock (loginFailKey mobile) ∨
    (∃ ttl, (exec c s.shared).2.redis.look (exec c s.shared).2.clock (loginFailKey mobile) =
        (s.shared.redis.look s.shared.clock (loginFailKey mobile)).map
          (fun e => ⟨e.value, some (deadlineAfter s.shared.clock ttl)⟩) ∧
      (ttl = millis env.config.login.lockDurationSeconds ∨
        (env.config.login.maxFailedAttempts.toInt ≤ storedCount (loginFailKey mobile) s.shared →
          ∀ e ∈ s.shared.redis.look s.shared.clock (loginFailKey mobile), ∀ d ∈ e.deadline,
            d ≤ deadlineAfter s.shared.clock ttl))) ∨
    ∃ (n : Nat) (deadline : Option Nat), n < 2147483647 ∧ storedCount (loginFailKey mobile) s.shared = n ∧
      (∀ e, s.shared.redis.look s.shared.clock (loginFailKey mobile) = some e → deadline = e.deadline) ∧
      (exec c s.shared).2.redis.look (exec c s.shared).2.clock (loginFailKey mobile) =
        some ⟨toString ((n : Int) + 1), deadline⟩ := by
  have hpending : s.pending i = some c := System.pending_of_call hi
  obtain ⟨hdel, hincr, hwindow⟩ := hguard
  rcases (h.staged _ (List.mem_of_getElem? hi)).cmd with (hspares | hlock | hopen | hclear) | hcount
  · exact Or.inl (look_exec hspares s.shared)
  · subst hlock
    exact Or.inr (Or.inl ⟨_, look_exec_pexpire h.faults hc.lock.millis_pos, Or.inl rfl⟩)
  · subst hopen
    exact Or.inr (Or.inl ⟨_, look_exec_pexpire h.faults hc.window.millis_pos, Or.inr (hwindow hpending)⟩)
  · rw [hclear] at hpending
    exact absurd hpending hdel
  · subst hcount
    obtain ⟨n, deadline, -, hn, hdeadline, -, hlook⟩ := incr_counts h.faults h.counts
    have hroom := hincr hpending
    exact Or.inr (Or.inr ⟨n, deadline, by omega, hn, hdeadline, hlook⟩)

include hc in
theorem AttemptsInv.move (h : AttemptsInv env mobile s) (m : Move Nat) (hguard : KeepsLock env mobile s m) :
    AttemptsInv env mobile (System.move exec passTime m s) := by
  rcases System.move_cases exec passTime m s with ⟨i, c, next, rfl, hi, hmove⟩ | ⟨delay, rfl, hmove⟩ |
    ⟨i, rfl, -, hmove⟩
  · rw [hmove]
    refine ⟨exec_redisFaults h.faults c, ?_, ?_⟩
    · exact forall_mem_set h.staged ((h.staged _ (List.mem_of_getElem? hi)).next _)
    · intro e he
      rcases h.thread_cases hc hi hguard with hsame | ⟨ttl, hnew, -⟩ | ⟨n, deadline, hn, -, -, hlook⟩
      · rw [hsame] at he
        exact h.counts e he
      · rw [hnew] at he
        obtain ⟨e', he', rfl⟩ := Option.map_eq_some_iff.mp he
        exact h.counts e' he'
      · rw [hlook] at he
        cases he
        exact ⟨n + 1, by omega, rfl⟩
  · rw [hmove]
    refine ⟨h.faults, h.staged, fun e he => h.counts e ?_⟩
    exact Store.look_of_look_later _ _ (Nat.le_add_right _ _) he
  · rw [hmove]
    exact h

include hc in
/-- The lock stays until its end. -/
theorem LockedUntil.move {bound : Nat} (hlock : LockedUntil env mobile bound s) (h : AttemptsInv env mobile s)
    (m : Move Nat) (hguard : KeepsLock env mobile s m)
    (hbound : (System.move exec passTime m s).shared.clock < bound) :
    LockedUntil env mobile bound (System.move exec passTime m s) := by
  obtain ⟨hreached, ⟨e, d, he, hd, hle⟩, hrenewed⟩ := hlock
  rcases System.move_cases exec passTime m s with ⟨i, c, next, rfl, hi, hmove⟩ | ⟨delay, rfl, hmove⟩ |
    ⟨i, rfl, -, hmove⟩
  · rw [hmove]
    have hclock : (exec c s.shared).2.clock = s.shared.clock := exec_clock _ _
    have hrenewed' : bound ≤ deadlineAfter (exec c s.shared).2.clock
        (millis env.config.login.lockDurationSeconds) := by
      rw [hclock]
      exact hrenewed
    rcases h.thread_cases hc hi hguard with hsame | ⟨ttl, hnew, httl⟩ | ⟨n, deadline, hn, hcount, hdeadline, hlook⟩
    · refine ⟨?_, ⟨e, d, hsame.trans he, hd, hle⟩, hrenewed'⟩
      simp only [storedCount, hsame]
      exact hreached
    · refine ⟨by rw [storedCount_map hnew]; exact hreached, ⟨_, _, by rw [hnew, he]; rfl, rfl, ?_⟩, hrenewed'⟩
      rcases httl with rfl | hlonger
      · exact hrenewed
      · exact hle.trans (hlonger hreached e he d hd)
    · have hint : IsInt64 ((n : Int) + 1) := (isInt64_of_le (by omega)).2
      refine ⟨?_, ⟨_, d, hlook, ?_, hle⟩, hrenewed'⟩
      · rw [storedCount_some hint hlook rfl]
        omega
      · rw [hdeadline e he]
        exact hd
  · rw [hmove] at hbound ⊢
    have hlive : s.shared.redis.look (s.shared.clock + delay) (loginFailKey mobile) = some e := by
      have hlt : s.shared.clock + delay < d := lt_of_lt_of_le hbound hle
      have hfilter := Store.look_later s.shared.redis (loginFailKey mobile) (Nat.le_add_right s.shared.clock delay)
      rw [he] at hfilter
      simpa [Option.filter, Slot.Live, hd, hlt] using hfilter
    refine ⟨?_, ⟨e, d, hlive, hd, hle⟩, ?_⟩
    · simp only [storedCount, passTime, hlive]
      simp only [storedCount, he] at hreached
      exact hreached
    · unfold deadlineAfter at hrenewed ⊢
      show bound ≤ s.shared.clock + delay + _
      omega
  · rw [hmove]
    exact ⟨hreached, ⟨e, d, he, hd, hle⟩, hrenewed⟩

include hc in
/-- **Run.** Permitted moves keep what is stored in order. -/
theorem AttemptsInv.play (h : AttemptsInv env mobile s) (schedule : List (Move Nat))
    (hguard : System.Meets exec passTime (KeepsLock env mobile) schedule s) :
    AttemptsInv env mobile (interleave schedule s) :=
  System.play_invariant exec passTime (fun _ m h hm => h.move hc m hm) schedule s h hguard

include hc in
/-- **Run.** Permitted moves keep the lock until its end. -/
theorem LockedUntil.play {bound : Nat} (hlock : LockedUntil env mobile bound s) (h : AttemptsInv env mobile s)
    (schedule : List (Move Nat)) (hguard : System.Meets exec passTime (KeepsLock env mobile) schedule s)
    (hbound : (interleave schedule s).shared.clock < bound) :
    LockedUntil env mobile bound (interleave schedule s) := by
  induction schedule generalizing s with
  | nil => exact hlock
  | cons m rest ih =>
      have hlater := clock_interleave_le rest (System.move exec passTime m s)
      have hnext := hlock.move hc h m hguard.1 (hlater.trans_lt hbound)
      exact ih hnext (h.move hc m hguard.1) hguard.2 hbound

include hc in
/-- The `PEXPIRE` of the lock, on a counter that has reached the limit. -/
theorem AttemptsInv.locks (h : AttemptsInv env mobile s) {i : Nat}
    (hi : s.pending i = some (.redis (.pexpire (loginFailKey mobile)
      (millis env.config.login.lockDurationSeconds))))
    (hreached : env.config.login.maxFailedAttempts.toInt ≤ storedCount (loginFailKey mobile) s.shared) :
    LockedUntil env mobile (s.shared.clock + lifetime env.config.login.lockDurationSeconds)
      (System.move exec passTime (.thread i) s) := by
  rcases System.move_cases exec passTime (.thread i) s with ⟨j, c, next, hj, hcall, hmove⟩ | ⟨delay, hj, -⟩ |
    ⟨j, hj, hidle, -⟩
  · cases hj
    have hpending : s.pending i = some c := System.pending_of_call hcall
    rw [hi] at hpending
    cases hpending
    have hnew := @look_exec_pexpire _ h.faults (loginFailKey mobile) _ hc.lock.millis_pos
    have hclock := exec_clock s.shared (.redis (.pexpire (loginFailKey mobile)
      (millis env.config.login.lockDurationSeconds)))
    have hdeadline := hc.lock.deadline s.shared.clock
    rw [hmove]
    cases he : s.shared.redis.look s.shared.clock (loginFailKey mobile) with
    | none =>
        have hpos := hc.maxFailed
        rw [storedCount_none he] at hreached
        omega
    | some e =>
        refine ⟨by rw [storedCount_map hnew]; exact hreached, ⟨_, _, by rw [hnew, he]; rfl, rfl, ?_⟩, ?_⟩
        · exact hdeadline.ge
        · rw [hclock]
          exact hdeadline.ge
  · cases hj
  · cases hj
    rw [hi] at hidle
    cases hidle

/-- The attempt whose failure is the last one allowed sets the lock next. -/
theorem AttemptsInv.counted (h : AttemptsInv env mobile s) {i : Nat}
    (hi : s.pending i = some (.redis (.incr (loginFailKey mobile))))
    (hlast : storedCount (loginFailKey mobile) s.shared + 1 = env.config.login.maxFailedAttempts.toInt) :
    (System.move exec passTime (.thread i) s).pending i = some (.redis (.pexpire (loginFailKey mobile)
      (millis env.config.login.lockDurationSeconds))) := by
  rcases System.move_cases exec passTime (.thread i) s with ⟨j, c, next, hj, hcall, hmove⟩ | ⟨delay, hj, -⟩ |
    ⟨j, hj, hidle, -⟩
  · cases hj
    have hpending : s.pending i = some c := System.pending_of_call hcall
    rw [hi] at hpending
    cases hpending
    obtain ⟨n, deadline, -, hcount, -, hreply, -⟩ := incr_counts h.faults h.counts
    obtain ⟨hlt, -⟩ := List.getElem?_eq_some_iff.mp hcall
    have hnext := (h.staged _ (List.mem_of_getElem? hcall)).2.1
    rw [hmove, System.pending, List.getElem?_set_self hlt, hreply, ← hcount, hlast]
    exact hnext
  · cases hj
  · cases hj
    rw [hi] at hidle
    cases hidle

end Step

/-- Attempts of one mobile, each with its draws and its password. -/
def loginThreads (env : Env) (mobile : Bytes) (attempts : List (Draws × Bytes)) : List Thread :=
  attempts.map (loginThread env mobile)

/-- After `first`, attempt `k` counts the last failure allowed; after `second` it sets the lock; after `third`,
and before the lock is over, attempt `j` starts with a well-formed password: it can only return
`AccountLocked`. -/
def LockKept (env : Env) (mobile : Bytes) (attempts : List (Draws × Bytes)) (s : Concurrent)
    (first second third : List (Move Nat)) (k j : Nat) : Prop :=
  (interleave first s).pending k = some (.redis (.incr (loginFailKey mobile))) →
  storedCount (loginFailKey mobile) (interleave first s).shared + 1 =
    env.config.login.maxFailedAttempts.toInt →
  .thread k ∉ second →
  .thread j ∉ first ++ .thread k :: (second ++ .thread k :: third) →
  (∃ attempt, attempts[j]? = some attempt ∧ isValidPassword attempt.2 env.config.password = .ok ()) →
  (interleave (first ++ .thread k :: (second ++ .thread k :: third)) s).shared.clock <
    (interleave (first ++ .thread k :: second) s).shared.clock +
      lifetime env.config.login.lockDurationSeconds →
  ∃ p, (System.move exec passTime (.thread j)
      (interleave (first ++ .thread k :: (second ++ .thread k :: third)) s)).threads[j]? = some p ∧
    Program.Returns (fun o => o.code? = some .accountLocked) p

/-- With an ill-formed mobile no attempt counts anything. -/
theorem isValidMobile_of_counts {env : Env} {mobile : Bytes} {attempts : List (Draws × Bytes)} {w : World}
    {schedule : List (Move Nat)} {k : Nat} {c : Cmd}
    (h : (interleave schedule ⟨w, loginThreads env mobile attempts⟩).pending k = some c) :
    isValidMobile mobile = .ok () := by
  cases hmobile : isValidMobile mobile with
  | ok _ => rfl
  | error message =>
      have hdone : ∀ p ∈ (interleave schedule ⟨w, loginThreads env mobile attempts⟩).threads,
          ∃ o, p = .done o := by
        refine System.play_always exec passTime (I := fun s => ∀ p ∈ s.threads, ∃ o, p = .done o) ?_ schedule _ ?_
        · intro s m hs
          rcases System.move_cases exec passTime m s with ⟨i, c, next, -, hi, -⟩ | ⟨delay, -, hmove⟩ |
            ⟨i, -, -, hmove⟩
          · obtain ⟨o, ho⟩ := hs _ (List.mem_of_getElem? hi)
            cases ho
          · rw [hmove]
            exact hs
          · rw [hmove]
            exact hs
        · intro p hp
          obtain ⟨attempt, -, rfl⟩ := List.mem_map.mp hp
          exact ⟨_, by rw [loginThread, handle, loginByPassword, hmobile]; rfl⟩
      obtain ⟨p, hp, hnext⟩ := Option.bind_eq_some_iff.mp h
      obtain ⟨o, rfl⟩ := hdone p (List.mem_of_getElem? hp)
      cases hnext

/-- **Lock, kept.** If the counter has reached the limit when the lock is set and every step keeps the lock,
every attempt that starts before the lock is over is turned away. -/
theorem login_lock_kept (env : Env) (hadmitted : env.config.Admitted) (hbounded : env.config.login.Bounded)
    (mobile : Bytes) (attempts : List (Draws × Bytes)) (w : World) (hw : w.redisFaults = [])
    (hcounts : CountsInt (loginFailKey mobile) w) (first second third : List (Move Nat)) (k j : Nat)
    (hguard : System.Meets exec passTime (KeepsLock env mobile) (first ++ .thread k :: (second ++ .thread k :: third))
      ⟨w, loginThreads env mobile attempts⟩)
    (hreached : env.config.login.maxFailedAttempts.toInt ≤ storedCount (loginFailKey mobile)
      (interleave (first ++ .thread k :: second) ⟨w, loginThreads env mobile attempts⟩).shared) :
    LockKept env mobile attempts ⟨w, loginThreads env mobile attempts⟩ first second third k j := by
  intro hincr hlast hsecond hunstarted hattempt hspan
  obtain ⟨attempt, hj, hpassword⟩ := hattempt
  have hc := hadmitted.loginUsable hbounded
  have hmobile := isValidMobile_of_counts hincr
  -- the thread of `j` has not moved
  have hthread : (interleave (first ++ .thread k :: (second ++ .thread k :: third))
      ⟨w, loginThreads env mobile attempts⟩).threads[j]? = some (loginThread env mobile attempt) := by
    rw [interleave, System.play_untouched exec passTime hunstarted]
    simp [loginThreads, hj]
  have hinit : AttemptsInv env mobile ⟨w, loginThreads env mobile attempts⟩ := by
    refine ⟨hw, fun p hp => ?_, hcounts⟩
    obtain ⟨a, -, rfl⟩ := List.mem_map.mp hp
    exact attempting_loginThread env mobile a
  generalize (⟨w, loginThreads env mobile attempts⟩ : Concurrent) = s at *
  obtain ⟨hfirst, hcounting, hrest⟩ := (System.meets_append exec passTime).mp hguard
  have hcounted := hinit.play hc first hfirst
  have hsetting : AttemptsInv env mobile (interleave (first ++ .thread k :: second) s) := by
    rw [interleave, System.play_append]
    refine (hcounted.move hc _ hcounting).play hc second ?_
    exact ((System.meets_append exec passTime).mp hrest).1
  have hpending : (interleave (first ++ .thread k :: second) s).pending k = some (.redis (.pexpire
      (loginFailKey mobile) (millis env.config.login.lockDurationSeconds))) := by
    have hnext := hcounted.counted hincr hlast
    rw [System.pending] at hnext ⊢
    rw [interleave, System.play_append, System.play_cons, System.play_untouched exec passTime hsecond]
    exact hnext
  have hlocked := hsetting.locks hc hpending hreached
  obtain ⟨hstep, hthird⟩ := ((System.meets_append exec passTime).mp hrest).2
  have hsplit : interleave (first ++ .thread k :: (second ++ .thread k :: third)) s =
      interleave third (System.move exec passTime (.thread k) (interleave (first ++ .thread k :: second) s)) := by
    simp only [interleave, System.play_append, System.play_cons]
  have hplace : System.play exec passTime second (System.move exec passTime (.thread k)
      (System.play exec passTime first s)) = interleave (first ++ .thread k :: second) s := by
    simp only [interleave, System.play_append, System.play_cons]
  rw [hplace] at hstep hthird
  rw [hsplit] at hspan hthread ⊢
  have hkept := hlocked.play hc (hsetting.move hc _ hstep) third hthird hspan
  have hfinal := (hsetting.move hc _ hstep).play hc third hthird
  generalize interleave third (System.move exec passTime (.thread k) (interleave (first ++ .thread k :: second) s)) = s'
    at *
  obtain ⟨next, hcall, hlockedNext⟩ := loginThread_locked env mobile attempt hmobile hpassword
  rw [hcall] at hthread
  obtain ⟨e, d, he, -, -⟩ := hkept.kept
  obtain ⟨n, hn, hvalue⟩ := hfinal.counts e he
  have hget : exec (.redis (.get (loginFailKey mobile))) s'.shared = _ :=
    execRedis_eq hfinal.faults (.get (loginFailKey mobile))
  obtain ⟨hlt, -⟩ := List.getElem?_eq_some_iff.mp hthread
  have hmove : System.move exec passTime (.thread j) s' = ⟨(exec (.redis (.get (loginFailKey mobile))) s'.shared).2,
      s'.threads.set j (next (exec (.redis (.get (loginFailKey mobile))) s'.shared).1)⟩ := by
    simp [System.move, System.advance, hthread]
  refine ⟨next (.ok (some e.value)), ?_, hlockedNext e.value n ?_ ?_⟩
  · rw [hmove, List.getElem?_set_self hlt, hget]
    simp only [RedisCmd.apply, he]
    rfl
  · rw [hvalue]
    refine stoi_toString ?_
    unfold IsInt32
    omega
  · have := hkept.reached
    rw [storedCount_some (isInt64_of_le hn).1 he hvalue] at this
    exact this

/-- Six attempts on a mobile that nobody has, with the default settings. -/
def sixAttempts : List (Draws × Bytes) :=
  List.replicate 6 ((Call.sample 0 (.logoutAll [])).draws, ascii "Password123")

def attempting : Concurrent := ⟨emptyWorld 0, loginThreads defaultEnv (ascii "13800138000") sixAttempts⟩

/-- The first attempt has found the counter without a time to live; three others fail, and the fifth one is
about to count the last failure allowed. -/
def fourFailures : List (Move Nat) :=
  List.replicate 4 (.thread 0) ++ List.replicate 5 (.thread 1) ++ List.replicate 5 (.thread 2) ++
    List.replicate 5 (.thread 3) ++ List.replicate 2 (.thread 4)

/-- The first attempt sets the window, and the window passes. -/
def windowAfterLock : List (Move Nat) := [.thread 0, .outside (900 * nanosPerSecond)]

theorem lock_cut_short :
    ¬LockKept defaultEnv (ascii "13800138000") sixAttempts attempting fourFailures [] windowAfterLock 4 5 := by
  have hrun : (interleave fourFailures attempting).pending 4 =
        some (.redis (.incr (loginFailKey (ascii "13800138000")))) ∧
      storedCount (loginFailKey (ascii "13800138000")) (interleave fourFailures attempting).shared + 1 =
        defaultEnv.config.login.maxFailedAttempts.toInt ∧
      (interleave (fourFailures ++ .thread 4 :: ([] ++ .thread 4 :: windowAfterLock)) attempting).shared.clock <
        (interleave (fourFailures ++ .thread 4 :: []) attempting).shared.clock +
          lifetime defaultEnv.config.login.lockDurationSeconds ∧
      (System.move exec passTime (.thread 5)
        (interleave (fourFailures ++ .thread 4 :: ([] ++ .thread 4 :: windowAfterLock)) attempting)).threads[5]?.map
          (fun p => (Program.run exec p (emptyWorld 0)).1.code?) = some (some .wrongPassword) := by
    decide +kernel
  intro h
  obtain ⟨p, hp, hlocked⟩ := h hrun.1 hrun.2.1 (by decide) (by decide)
    ⟨((Call.sample 0 (.logoutAll [])).draws, ascii "Password123"), rfl, by decide⟩ hrun.2.2.1
  have hcode := hrun.2.2.2
  rw [hp, Option.map_some, hlocked.run exec (emptyWorld 0)] at hcode
  exact absurd hcode (by decide)

/-- The first attempt sets the window before the lock is set. -/
def windowFirst : List (Move Nat) := [.thread 0]

theorem login_lock_kept_sample :
    LockKept defaultEnv (ascii "13800138000") sixAttempts attempting (fourFailures ++ windowFirst) []
      [.outside (1000 * nanosPerSecond)] 4 5 := by
  have hrun : System.Meets exec passTime (KeepsLock defaultEnv (ascii "13800138000"))
        (fourFailures ++ windowFirst ++ .thread 4 :: ([] ++ .thread 4 :: [.outside (1000 * nanosPerSecond)]))
        attempting ∧
      defaultEnv.config.login.maxFailedAttempts.toInt ≤ storedCount (loginFailKey (ascii "13800138000"))
        (interleave (fourFailures ++ windowFirst ++ .thread 4 :: []) attempting).shared := by
    decide +kernel
  have hempty : CountsInt (loginFailKey (ascii "13800138000")) (emptyWorld 0) := by
    intro e he
    cases he
  exact login_lock_kept defaultEnv (by decide +kernel) (by decide) (ascii "13800138000") sixAttempts (emptyWorld 0)
    rfl hempty (fourFailures ++ windowFirst) [] [.outside (1000 * nanosPerSecond)] 4 5 hrun.1 hrun.2

end AccountService
