import AccountService.CaptchaLockout
import AccountService.RequestFrame

/-! The lockout of password logins. `LoginState` is the automaton the counter `login:fail:<mobile>`
stands for: one counter with one time to live, which is the rest of the window below the limit and the
rest of the lock at the limit. -/

namespace AccountService

open Decimal Expiring Interaction

inductive LoginState
  | free
  | counting (n : Int) (windowEnd : Nat)
  | locked (unlockAt : Nat)
  deriving DecidableEq

/-- What a login by password meets: a badly formed argument, a database that fails, a disabled account,
an unknown mobile or a wrong password, or the right password. -/
inductive Attempt
  | malformed
  | noDatabase
  | disabled
  | wrong
  | right
  deriving DecidableEq

namespace LoginState

/-- The window or the lock may have run out. -/
def expire (now : Nat) : LoginState → LoginState
  | .free => .free
  | .counting n windowEnd => if now < windowEnd then .counting n windowEnd else .free
  | .locked unlockAt => if now < unlockAt then .locked unlockAt else .free

/-- A failed attempt: the first one opens the window, the last one locks. -/
def fail (config : LoginConfig) (now : Nat) : LoginState → LoginState
  | .free =>
      if config.maxFailedAttempts.toInt = 1 then .locked (now + lifetime config.lockDurationSeconds)
      else .counting 1 (now + lifetime config.failedAttemptsWindow)
  | .counting n windowEnd =>
      if n + 1 = config.maxFailedAttempts.toInt then .locked (now + lifetime config.lockDurationSeconds)
      else .counting (n + 1) windowEnd
  | .locked unlockAt => .locked unlockAt

/-- The next state and the code of the answer. -/
def attempt (config : LoginConfig) (now : Nat) : Attempt → LoginState → LoginState × ErrorCode
  | .malformed, s => (s, .invalidArgument)
  | _, .locked unlockAt => (.locked unlockAt, .accountLocked)
  | .noDatabase, s => (s, .serviceUnavailable)
  | .disabled, s => (s, .userDisabled)
  | .wrong, s => (s.fail config now, .wrongPassword)
  | .right, _ => (.free, .ok)

end LoginState

/-- The state that the counter of a mobile stands for. -/
def loginState (config : LoginConfig) (s : Redis) (now : Nat) (mobile : Bytes) : LoginState :=
  match seen s now (.loginFail mobile) with
  | some ⟨text, some deadline⟩ =>
      match stoi text with
      | some n =>
          if config.maxFailedAttempts.toInt ≤ n then .locked deadline else .counting n deadline
      | none => .free
  | _ => .free

/-- The settings of the lockout are usable. -/
structure LoginConfig.Usable (config : LoginConfig) : Prop where
  window : Convertible config.failedAttemptsWindow
  lock : Convertible config.lockDurationSeconds
  maxFailed : 0 < config.maxFailedAttempts.toInt

def LoginConfig.Bounded (config : LoginConfig) : Prop :=
  config.failedAttemptsWindow.toInt ≤ 2147483 ∧ config.lockDurationSeconds.toInt ≤ 2147483

instance (config : LoginConfig) : Decidable config.Bounded := inferInstanceAs (Decidable (_ ∧ _))

theorem Config.Admitted.loginUsable {config : Config} (h : config.Admitted)
    (hb : config.login.Bounded) : config.login.Usable := by
  obtain ⟨hmax, hwindow, hlock⟩ := h.login
  exact ⟨⟨hwindow, hb.1⟩, ⟨hlock, hb.2⟩, hmax⟩

/-- Every counter is from 1 to the limit and will expire. -/
def CountersInRange (config : LoginConfig) (s : Redis) (now : Nat) : Prop :=
  ∀ mobile e, seen s now (.loginFail mobile) = some e →
    ∃ n deadline, e = ⟨toString n, some deadline⟩ ∧ 1 ≤ n ∧ n ≤ config.maxFailedAttempts.toInt

section State

variable {config : LoginConfig} {s : Redis} {now : Nat} {mobile : Bytes}

theorem loginState_of_none (h : seen s now (.loginFail mobile) = none) :
    loginState config s now mobile = .free := by
  rw [loginState, h]

theorem loginState_of_some {n : Int} {deadline : Nat} (hn : 1 ≤ n)
    (hmax : n ≤ config.maxFailedAttempts.toInt)
    (h : seen s now (.loginFail mobile) = some ⟨toString n, some deadline⟩) :
    loginState config s now mobile =
      if n = config.maxFailedAttempts.toInt then .locked deadline else .counting n deadline := by
  have hlt : config.maxFailedAttempts.toInt < 2 ^ 31 := Int32.toInt_lt _
  have h32 : IsInt32 n := by
    unfold IsInt32
    omega
  rw [loginState, h]
  simp only [stoi_toString h32]
  by_cases heq : n = config.maxFailedAttempts.toInt
  · rw [if_pos heq, if_pos (by omega)]
  · rw [if_neg heq, if_neg (by omega)]

/-- Letting time pass is the expiry of the automaton. -/
theorem loginState_later (hcount : CountersInRange config s now) {later : Nat} (hle : now ≤ later) :
    loginState config s later mobile = (loginState config s now mobile).expire later := by
  cases hnow : seen s now (.loginFail mobile) with
  | none =>
      rw [loginState_of_none hnow, loginState_of_none (seen_later_none _ _ hle hnow)]
      rfl
  | some e =>
      obtain ⟨n, deadline, rfl, hn, hmax⟩ := hcount mobile e hnow
      rw [loginState_of_some hn hmax hnow]
      by_cases hlt : later < deadline
      · rw [loginState_of_some hn hmax (seen_later_of_lt _ _ hle hnow hlt)]
        split <;> simp [LoginState.expire, hlt]
      · have hgone : seen s later (.loginFail mobile) = none := by
          rw [seen, Store.look_later s _ hle, show s.look now _ = _ from hnow]
          simp [Option.filter, Slot.Live, hlt]
        rw [loginState_of_none hgone]
        split <;> simp [LoginState.expire, hlt]

theorem CountersInRange.later (h : CountersInRange config s now) {later : Nat} (hle : now ≤ later) :
    CountersInRange config s later := fun mobile e he => h mobile e (seen_of_later _ _ hle he)

/-- Only the counters matter. -/
theorem loginState_congr {t : Redis} (h : t (ServiceKey.loginFail mobile).text =
    s (ServiceKey.loginFail mobile).text) :
    loginState config t now mobile = loginState config s now mobile := by
  have hseen : seen t now (.loginFail mobile) = seen s now (.loginFail mobile) :=
    Store.look_congr s now _ h
  rw [loginState, loginState, hseen]

theorem CountersInRange.congr {t : Redis} (h : CountersInRange config s now)
    (heq : ∀ mobile, t (ServiceKey.loginFail mobile).text = none ∨
      t (ServiceKey.loginFail mobile).text = s (ServiceKey.loginFail mobile).text) :
    CountersInRange config t now := by
  intro mobile e he
  rcases heq mobile with hnone | hsame
  · rw [seen_of_none hnone] at he
    cases he
  · rw [seen, Store.look_congr s now _ hsame] at he
    exact h mobile e he

end State

open AuthService

section Helpers

variable {env : Env} (hc : env.config.login.Usable) {w : World} (hw : w.redisFaults = [])
variable (hcount : CountersInRange env.config.login w.redis w.clock) (mobile : Bytes)
include hw hcount

/-- The check lets everyone through who is not locked. -/
theorem run_checkLoginFailedAttempts :
    (∃ unlockAt message, loginState env.config.login w.redis w.clock mobile = .locked unlockAt ∧
      Program.run exec (checkLoginFailedAttempts env mobile) w =
        (some (.failWith .accountLocked message), w)) ∨
    ((∀ unlockAt, loginState env.config.login w.redis w.clock mobile ≠ .locked unlockAt) ∧
      Program.run exec (checkLoginFailedAttempts env mobile) w = (some (.ok ()), w)) := by
  have hget : Program.run exec (get (loginFailKey mobile)) w = _ := run_get_key hw (.loginFail mobile)
  cases hseen : seen w.redis w.clock (.loginFail mobile) with
  | none =>
      refine Or.inr ⟨fun unlockAt h => ?_, ?_⟩
      · rw [loginState_of_none hseen] at h
        cases h
      · simp only [checkLoginFailedAttempts, Program.run_bind, hget, hseen, Option.map_none]
        rfl
  | some e =>
      obtain ⟨n, deadline, rfl, hn, hmax⟩ := hcount mobile e hseen
      have hstate := loginState_of_some hn hmax hseen
      have hlt : env.config.login.maxFailedAttempts.toInt < 2 ^ 31 := Int32.toInt_lt _
      have h32 : IsInt32 n := by
        unfold IsInt32
        omega
      by_cases heq : n = env.config.login.maxFailedAttempts.toInt
      · obtain ⟨ms, hms⟩ := run_pttl hw (loginFailKey mobile)
        rw [if_pos heq] at hstate
        simp only [checkLoginFailedAttempts, Program.run_bind, hget, hseen, Option.map_some,
          stoi_toString h32, if_pos heq.ge, hms]
        exact Or.inl ⟨deadline, _, hstate, rfl⟩
      · rw [if_neg heq] at hstate
        refine Or.inr ⟨fun unlockAt h => ?_, ?_⟩
        · rw [hstate] at h
          cases h
        · simp only [checkLoginFailedAttempts, Program.run_bind, hget, hseen, Option.map_some,
            stoi_toString h32]
          rw [if_neg (by omega)]
          rfl

include hc in
/-- A recorded failure is the failure of the automaton. -/
theorem run_recordLoginFailure
    (hfree : ∀ unlockAt, loginState env.config.login w.redis w.clock mobile ≠ .locked unlockAt) :
    ∃ n deadline, 1 ≤ n ∧ n ≤ env.config.login.maxFailedAttempts.toInt ∧ w.clock < deadline ∧
      Program.run exec (recordLoginFailure env mobile) w =
        ((), w.withRedis (store w.redis (.loginFail mobile) ⟨toString n, some deadline⟩)) ∧
      (loginState env.config.login w.redis w.clock mobile).fail env.config.login w.clock =
        if n = env.config.login.maxFailedAttempts.toInt then .locked deadline
        else .counting n deadline := by
  have hmaxpos := hc.maxFailed
  have hmaxlt : env.config.login.maxFailedAttempts.toInt < 2 ^ 31 := Int32.toInt_lt _
  have hexpire : ∀ (seconds : Int32) (hs : Convertible seconds) (n : Int) (deadline : Option Nat),
      (∀ d, deadline = some d → w.clock < d) →
      Program.run exec (pExpire (loginFailKey mobile) (millis seconds))
        (w.withRedis (store w.redis (.loginFail mobile) ⟨toString n, deadline⟩)) =
        (.ok true, w.withRedis (store w.redis (.loginFail mobile)
          ⟨toString n, some (w.clock + lifetime seconds)⟩)) := by
    intro seconds hs n deadline hlive
    have hseen : seen (store w.redis (.loginFail mobile) ⟨toString n, deadline⟩) w.clock
        (.loginFail mobile) = some ⟨toString n, deadline⟩ := by
      rw [seen_store_self, if_pos]
      cases deadline with
      | none => trivial
      | some d => exact hlive d rfl
    have := run_expire_key (w := w.withRedis (store w.redis (.loginFail mobile) ⟨toString n, deadline⟩))
      (by exact hw) (.loginFail mobile) hs hseen
    simp only [World.withRedis_redis, World.withRedis_clock, World.withRedis_withRedis, store_store] at this
    exact this
  cases hseen : seen w.redis w.clock (.loginFail mobile) with
  | none =>
      have hstate : loginState env.config.login w.redis w.clock mobile = .free := loginState_of_none hseen
      have hincr : Program.run exec (incr (loginFailKey mobile)) w = _ :=
        run_incr_key_none hw (.loginFail mobile) hseen
      rw [hstate]
      by_cases hone : env.config.login.maxFailedAttempts.toInt = 1
      · refine ⟨1, w.clock + lifetime env.config.login.lockDurationSeconds, le_refl _, by omega, ?_, ?_, ?_⟩
        · have := hc.lock.lifetime_pos
          omega
        · simp only [recordLoginFailure, Program.run_bind, hincr, if_pos hone.symm,
            hexpire _ hc.lock 1 none (fun d hd => by cases hd)]
          rfl
        · simp [LoginState.fail, hone]
      · refine ⟨1, w.clock + lifetime env.config.login.failedAttemptsWindow, le_refl _, by omega, ?_, ?_, ?_⟩
        · have := hc.window.lifetime_pos
          omega
        · have hpttl := run_pttl_persistent
            (w := w.withRedis (store w.redis (.loginFail mobile) ⟨toString 1, none⟩)) (by exact hw)
            (loginFailKey mobile) (v := toString 1)
            (by exact (seen_store_self w.redis w.clock (.loginFail mobile) _).trans (if_pos trivial))
          simp only [recordLoginFailure, Program.run_bind, hincr, if_neg (Ne.symm hone),
            if_pos (show (1 : Int) < env.config.login.maxFailedAttempts.toInt by omega), hpttl]
          rw [if_pos (by decide), Program.run_bind,
            hexpire _ hc.window 1 none (fun d hd => by cases hd)]
          rfl
        · simp [LoginState.fail, hone, Ne.symm hone]
  | some e =>
      obtain ⟨n, deadline, rfl, hn, hmax⟩ := hcount mobile e hseen
      have hstate := loginState_of_some hn hmax hseen
      have hlive : w.clock < deadline := Store.live_of_look hseen
      have hne : n ≠ env.config.login.maxFailedAttempts.toInt := by
        intro heq
        rw [if_pos heq] at hstate
        exact hfree deadline hstate
      rw [if_neg hne] at hstate
      have hincr : Program.run exec (incr (loginFailKey mobile)) w = _ :=
        run_incr_key_some hw (.loginFail mobile) (by unfold IsInt64; omega) (by unfold IsInt64; omega) hseen
      rw [hstate]
      by_cases hlast : n + 1 = env.config.login.maxFailedAttempts.toInt
      · refine ⟨n + 1, w.clock + lifetime env.config.login.lockDurationSeconds, by omega, by omega, ?_, ?_, ?_⟩
        · have := hc.lock.lifetime_pos
          omega
        · simp only [recordLoginFailure, Program.run_bind, hincr, if_pos hlast,
            hexpire _ hc.lock (n + 1) (some deadline) (fun d hd => by cases hd; exact hlive)]
          rfl
        · simp [LoginState.fail, hlast]
      · refine ⟨n + 1, deadline, by omega, by omega, hlive, ?_, ?_⟩
        · obtain ⟨ms, hms, hpttl⟩ := run_pttl_expiring
            (w := w.withRedis (store w.redis (.loginFail mobile) ⟨toString (n + 1), some deadline⟩))
            (by exact hw) (loginFailKey mobile) (v := toString (n + 1))
            (by exact (seen_store_self w.redis w.clock (.loginFail mobile) _).trans (if_pos hlive))
          simp only [recordLoginFailure, Program.run_bind, hincr, if_neg hlast,
            if_pos (show n + 1 < env.config.login.maxFailedAttempts.toInt by omega), hpttl]
          rw [if_neg (by simpa using hms)]
          rfl
        · simp [LoginState.fail, hlast]

omit hcount in
theorem run_clearLoginFailure :
    Program.run exec (clearLoginFailure mobile) w = ((), w.withRedis (drop w.redis (.loginFail mobile))) := by
  have hdel : Program.run exec (del (loginFailKey mobile)) w = _ := run_del_key hw (.loginFail mobile)
  simp only [clearLoginFailure, Program.run_bind, hdel]
  rfl

end Helpers

/-- What a login by password meets in a world. -/
def attemptOf (env : Env) (w : World) (mobile password : Bytes) : Attempt :=
  match isValidMobile mobile, isValidPassword password env.config.password with
  | .ok (), .ok () =>
      match w.userByMobile mobile with
      | .ok user =>
          if user.disabled then .disabled
          else if passwordVerify env.crypto password user.passwordHash then .right
          else .wrong
      | .fail code _ => if code = .userNotFound then .wrong else .noDatabase
  | _, _ => .malformed

/-- What a call does to the counters: the counter of `mobile` goes from `before` to `after`, the others
stay. -/
structure Moves (config : LoginConfig) (w : World) (s : Redis) (mobile : Bytes) (after : LoginState) :
    Prop where
  state : loginState config s w.clock mobile = after
  others : ∀ other, other ≠ mobile →
    s (ServiceKey.loginFail other).text = w.redis (ServiceKey.loginFail other).text
  range : CountersInRange config s w.clock

section Moves

variable {config : LoginConfig} {w : World} {mobile : Bytes}
variable (hcount : CountersInRange config w.redis w.clock)
include hcount

/-- Counters that stay as they are. -/
theorem Moves.stay {s : Redis}
    (h : ∀ m, s (ServiceKey.loginFail m).text = w.redis (ServiceKey.loginFail m).text) :
    Moves config w s mobile (loginState config w.redis w.clock mobile) :=
  ⟨loginState_congr (h mobile), fun other _ => h other, hcount.congr fun m => Or.inr (h m)⟩

theorem Moves.clear {s : Redis}
    (h : ∀ m, s (ServiceKey.loginFail m).text =
      drop w.redis (.loginFail mobile) (ServiceKey.loginFail m).text) :
    Moves config w s mobile .free := by
  have hself : s (ServiceKey.loginFail mobile).text = none := by
    rw [h mobile]
    simp [drop, Store.erase]
  have hother : ∀ m, m ≠ mobile →
      s (ServiceKey.loginFail m).text = w.redis (ServiceKey.loginFail m).text := by
    intro m hm
    rw [h m]
    exact Store.erase_ne _ _ _ fun heq => hm (by cases ServiceKey.text_injective heq; rfl)
  refine ⟨loginState_of_none (seen_of_none hself _), hother, hcount.congr fun m => ?_⟩
  by_cases hm : m = mobile
  · subst hm
    exact Or.inl hself
  · exact Or.inr (hother m hm)

theorem Moves.count {n : Int} {deadline : Nat} (hn : 1 ≤ n)
    (hmax : n ≤ config.maxFailedAttempts.toInt) (hlive : w.clock < deadline) :
    Moves config w (store w.redis (.loginFail mobile) ⟨toString n, some deadline⟩) mobile
      (if n = config.maxFailedAttempts.toInt then .locked deadline else .counting n deadline) := by
  have hseen : seen (store w.redis (.loginFail mobile) ⟨toString n, some deadline⟩) w.clock
      (.loginFail mobile) = some ⟨toString n, some deadline⟩ := by
    rw [seen_store_self, if_pos]
    exact hlive
  refine ⟨loginState_of_some hn hmax hseen, fun other hother => ?_, fun m e he => ?_⟩
  · exact Store.put_ne _ _ _ _ fun heq => hother (by cases ServiceKey.text_injective heq; rfl)
  · rw [seen_store] at he
    split at he
    · split at he
      · cases he
        exact ⟨n, deadline, rfl, hn, hmax⟩
      · cases he
    · exact hcount m e he

end Moves

section Operations

variable {env : Env} (hc : env.config.login.Usable) {w : World} (hw : w.redisFaults = [])
variable (hcount : CountersInRange env.config.login w.redis w.clock) (draws : Draws) (mobile : Bytes)

theorem run_signIn_ok (user : UserEntity) (w : World) :
    ∃ result, (Program.run exec (signIn env draws user) w).1 = .ok result := by
  simp only [signIn, Program.run_bind, Program.run_pure]
  exact ⟨_, rfl⟩

variable (env) in
include hw in
/-- Clearing the counter and signing in. -/
theorem run_clear_signIn (user : UserEntity) :
    (∃ result, (Program.run exec (do clearLoginFailure mobile; signIn env draws user) w).1 = .ok result) ∧
      (Program.run exec (do clearLoginFailure mobile; signIn env draws user) w).2.redis =
        drop w.redis (.loginFail mobile) := by
  simp only [Program.run_bind, run_clearLoginFailure hw]
  refine ⟨run_signIn_ok draws user _, ?_⟩
  rw [run_redis_eq (uses_signIn env draws user trivial fun _ _ => trivial)]
  rfl

/-- Away from the lock, the automaton's answer is decided by the attempt alone. -/
theorem attempt_of_not_locked {config : LoginConfig} {now : Nat} {s : LoginState}
    (hfree : ∀ unlockAt, s ≠ .locked unlockAt) :
    s.attempt config now .noDatabase = (s, .serviceUnavailable) ∧
      s.attempt config now .disabled = (s, .userDisabled) ∧
      s.attempt config now .wrong = (s.fail config now, .wrongPassword) ∧
      s.attempt config now .right = (.free, .ok) := by
  cases s with
  | free => exact ⟨rfl, rfl, rfl, rfl⟩
  | counting n windowEnd => exact ⟨rfl, rfl, rfl, rfl⟩
  | locked unlockAt => exact absurd rfl (hfree unlockAt)

include hc hw hcount in
/-- **LoginByPassword** is an attempt of the automaton: it answers and moves as the automaton does. -/
theorem run_loginByPassword (password : Bytes) :
    (Program.run exec (loginByPassword env draws mobile password) w).1.code? =
        some ((loginState env.config.login w.redis w.clock mobile).attempt env.config.login w.clock
          (attemptOf env w mobile password)).2 ∧
      Moves env.config.login w (Program.run exec (loginByPassword env draws mobile password) w).2.redis
        mobile ((loginState env.config.login w.redis w.clock mobile).attempt env.config.login w.clock
          (attemptOf env w mobile password)).1 := by
  unfold loginByPassword
  cases hm : isValidMobile mobile with
  | error message =>
      have ha : attemptOf env w mobile password = .malformed := by rw [attemptOf, hm]
      rw [ha]
      exact ⟨rfl, Moves.stay hcount fun _ => rfl⟩
  | ok _ =>
      cases hp : isValidPassword password env.config.password with
      | error message =>
          have ha : attemptOf env w mobile password = .malformed := by rw [attemptOf, hm, hp]
          rw [ha]
          exact ⟨rfl, Moves.stay hcount fun _ => rfl⟩
      | ok _ =>
          have ha : attemptOf env w mobile password ≠ .malformed := by
            rw [attemptOf, hm, hp]
            show (match w.userByMobile mobile with | .ok _ => _ | .fail _ _ => _) ≠ _
            cases w.userByMobile mobile with
            | ok user => simp only; split_ifs <;> simp
            | fail code message => simp only; split_ifs <;> simp
          rcases run_checkLoginFailedAttempts hw hcount mobile with
            ⟨unlockAt, message, hlocked, hcheck⟩ | ⟨hfree, hcheck⟩
          · -- the automaton is locked
            simp only [Program.run_bind, hcheck]
            rw [hlocked]
            have hout : ∀ a, a ≠ Attempt.malformed →
                (LoginState.locked unlockAt).attempt env.config.login w.clock a =
                  (.locked unlockAt, .accountLocked) := by
              intro a hne
              cases a <;> first | rfl | exact absurd rfl hne
            rw [hout _ ha]
            refine ⟨rfl, ?_⟩
            rw [← hlocked]
            exact Moves.stay hcount fun _ => rfl
          · have hfaults : w.read.redisFaults = [] := hw
            obtain ⟨hnoDb, hdisabled, hwrong, hright⟩ :=
              attempt_of_not_locked (s := loginState env.config.login w.redis w.clock mobile) hfree
            have hfail : Moves env.config.login w
                (Program.run exec (recordLoginFailure env mobile) w.read).2.redis mobile
                ((loginState env.config.login w.redis w.clock mobile).fail env.config.login w.clock) := by
              obtain ⟨n, deadline, hn, hmax, hlive, hrun, hstate⟩ :=
                run_recordLoginFailure hc hfaults hcount mobile hfree
              rw [hrun]
              have hstate' : (loginState env.config.login w.redis w.clock mobile).fail env.config.login
                  w.clock = _ := hstate
              rw [hstate']
              exact Moves.count hcount hn hmax hlive
            simp only [Program.run_bind, hcheck, orFail, run_findByMobile]
            cases huser : w.userByMobile mobile with
            | fail code message =>
                by_cases hcode : code = .userNotFound
                · have ha : attemptOf env w mobile password = .wrong := by
                    simp only [attemptOf, hm, hp, huser, if_pos hcode]
                  rw [ha, hwrong]
                  simp only [if_pos hcode, Program.run_bind, Program.run_pure]
                  exact ⟨rfl, hfail⟩
                · have ha : attemptOf env w mobile password = .noDatabase := by
                    simp only [attemptOf, hm, hp, huser, if_neg hcode]
                  rw [ha, hnoDb]
                  simp only [if_neg hcode, Program.run_pure]
                  refine ⟨?_, Moves.stay hcount fun _ => rfl⟩
                  rw [(lookup_of_fail huser).resolve_left hcode]
                  rfl
            | ok user =>
                by_cases hdis : user.disabled = true
                · have ha : attemptOf env w mobile password = .disabled := by
                    simp only [attemptOf, hm, hp, huser, if_pos hdis]
                  rw [ha, hdisabled]
                  simp only [if_pos hdis, Program.run_pure]
                  exact ⟨rfl, Moves.stay hcount fun _ => rfl⟩
                · by_cases hverify : passwordVerify env.crypto password user.passwordHash = true
                  · have ha : attemptOf env w mobile password = .right := by
                      simp only [attemptOf, hm, hp, huser, if_neg hdis, if_pos hverify]
                    obtain ⟨⟨result, hok⟩, hdrop⟩ := run_clear_signIn env hfaults draws mobile user
                    rw [ha, hright]
                    simp only [if_neg hdis, if_neg (not_not.mpr hverify), Program.run_pure]
                    refine ⟨?_, Moves.clear hcount fun m => ?_⟩
                    · rw [hok]
                      rfl
                    · rw [hdrop]
                      rfl
                  · have ha : attemptOf env w mobile password = .wrong := by
                      simp only [attemptOf, hm, hp, huser, if_neg hdis, if_neg hverify]
                    rw [ha, hwrong]
                    simp only [if_neg hdis, if_pos hverify, Program.run_bind, Program.run_pure]
                    exact ⟨rfl, hfail⟩

/-- Verifying a captcha leaves the counters alone. -/
theorem verifyCaptcha_world (config : SmsConfig) (hw : w.redisFaults = []) (scene : SmsScene)
    (mobile input : Bytes) :
    ∃ r w', Program.run exec (verifyCaptcha config scene mobile input) w = (r, w') ∧
      (∀ m, w'.redis (ServiceKey.loginFail m).text = w.redis (ServiceKey.loginFail m).text) ∧
      w'.clock = w.clock ∧ w'.redisFaults = [] :=
  ⟨_, _, rfl, fun m => run_redis_frame
    ((uses_verifyCaptcha config scene mobile input).mono Cmd.RedisOn.onKeys) (loginFail_notOnPair scene mobile m) w, run_clock (verifyCaptcha config scene mobile input) w,
    run_redisFaults (verifyCaptcha config scene mobile input) hw⟩

theorem drop_loginFail_congr {s t : Redis}
    (h : ∀ m, s (ServiceKey.loginFail m).text = t (ServiceKey.loginFail m).text) (mobile m : Bytes) :
    drop s (.loginFail mobile) (ServiceKey.loginFail m).text =
      drop t (.loginFail mobile) (ServiceKey.loginFail m).text := by
  simp only [drop, Store.erase, Function.update_apply, h m]

include hw hcount in
/-- **LoginByCode** clears the counter when it succeeds and leaves it alone otherwise. -/
theorem run_loginByCode (verifyCode : Bytes) :
    Moves env.config.login w (Program.run exec (loginByCode env draws mobile verifyCode) w).2.redis mobile
      (if (Program.run exec (loginByCode env draws mobile verifyCode) w).1.isOk then .free
        else loginState env.config.login w.redis w.clock mobile) := by
  unfold loginByCode
  cases isValidMobile mobile with
  | error message => exact Moves.stay hcount fun _ => rfl
  | ok _ =>
    cases isValidVerifyCode verifyCode env.config.sms with
    | error message => exact Moves.stay hcount fun _ => rfl
    | ok _ =>
      obtain ⟨r, w₁, hverify, hkeys, -, hfaults⟩ :=
        verifyCaptcha_world env.config.sms hw .login mobile verifyCode
      simp only [requireValid, Program.run_bind, hverify]
      cases r with
      | fail code message => exact Moves.stay hcount hkeys
      | ok _ =>
        have hfaults₂ : w₁.read.redisFaults = [] := hfaults
        have hkeys₂ : ∀ m, w₁.read.redis (ServiceKey.loginFail m).text =
            w.redis (ServiceKey.loginFail m).text := hkeys
        simp only [orFail, Program.run_bind, run_findByMobile]
        cases w₁.userByMobile mobile with
        | fail code message =>
            by_cases hcode : code = .userNotFound
            · simp only [if_pos hcode, Program.run_pure, Result.isOk_failWith]
              exact Moves.stay hcount hkeys₂
            · simp only [if_neg hcode, Program.run_pure, Result.isOk_failWith]
              exact Moves.stay hcount hkeys₂
        | ok user =>
            by_cases hdis : user.disabled = true
            · simp only [if_pos hdis, Program.run_pure, Result.isOk_failWith]
              exact Moves.stay hcount hkeys₂
            · obtain ⟨⟨result, hok⟩, hdrop⟩ := run_clear_signIn env hfaults₂ draws mobile user
              simp only [if_neg hdis, hok, Result.isOk, if_true]
              refine Moves.clear hcount fun m => ?_
              rw [hdrop, drop_loginFail_congr hkeys₂]

include hw hcount in
/-- **ResetPassword** clears the counter when it succeeds and leaves it alone otherwise. -/
theorem run_resetPassword (verifyCode newPassword : Bytes) :
    Moves env.config.login w
      (Program.run exec (resetPassword env draws mobile verifyCode newPassword) w).2.redis mobile
      (if (Program.run exec (resetPassword env draws mobile verifyCode newPassword) w).1.isOk then .free
        else loginState env.config.login w.redis w.clock mobile) := by
  unfold resetPassword
  cases isValidMobile mobile with
  | error message => exact Moves.stay hcount fun _ => rfl
  | ok _ =>
    cases isValidVerifyCode verifyCode env.config.sms with
    | error message => exact Moves.stay hcount fun _ => rfl
    | ok _ =>
      cases isValidPassword newPassword env.config.password with
      | error message => exact Moves.stay hcount fun _ => rfl
      | ok _ =>
        obtain ⟨r, w₁, hverify, hkeys, -, hfaults⟩ :=
          verifyCaptcha_world env.config.sms hw .resetPassword mobile verifyCode
        simp only [requireValid, Program.run_bind, hverify]
        cases r with
        | fail code message => exact Moves.stay hcount hkeys
        | ok _ =>
          have hfaults₂ : w₁.read.redisFaults = [] := hfaults
          have hkeys₂ : ∀ m, w₁.read.redis (ServiceKey.loginFail m).text =
              w.redis (ServiceKey.loginFail m).text := hkeys
          simp only [orFail, Program.run_bind, run_findByMobile]
          cases w₁.userByMobile mobile with
          | fail code message =>
              by_cases hcode : code = .userNotFound
              · simp only [if_pos hcode, Program.run_pure, Result.isOk_failWith]
                exact Moves.stay hcount hkeys₂
              · simp only [if_neg hcode, Program.run_pure, Result.isOk_failWith]
                exact Moves.stay hcount hkeys₂
          | ok user =>
              simp only [Program.run_bind]
              generalize { user with passwordHash := passwordHash env.crypto draws.salt newPassword } = u
              have hredis₃ := run_redis_eq (p := UserDB.update u) (uses_update trivial) w₁.read
              have hfaults₃ := run_redisFaults (UserDB.update u) hfaults₂
              have hkeys₃ : ∀ m, (Program.run exec (UserDB.update u) w₁.read).2.redis
                  (ServiceKey.loginFail m).text = w.redis (ServiceKey.loginFail m).text :=
                fun m => by rw [hredis₃, hkeys₂ m]
              cases (Program.run exec (UserDB.update u) w₁.read).1 with
              | fail code message => exact Moves.stay hcount hkeys₃
              | ok _ =>
                  have hredis₄ := run_redis_eq (p := TokenRepository.deleteByUserId user.id) (uses_deleteByUserId trivial)
                    (Program.run exec (UserDB.update u) w₁.read).2
                  have hfaults₄ := run_redisFaults (TokenRepository.deleteByUserId user.id) hfaults₃
                  simp only [Program.run_bind, Program.run_pure, run_clearLoginFailure hfaults₄]
                  refine Moves.clear hcount fun m => ?_
                  rw [World.withRedis_redis, hredis₄, drop_loginFail_congr hkeys₃]

end Operations

/-- What an event does to the automaton of a mobile. -/
def LoginState.follow (env : Env) (mobile : Bytes) (s : LoginState) (e : Event) : LoginState :=
  let s := s.expire e.time
  match e.request with
  | .loginByPassword m password =>
      if m = mobile then (s.attempt env.config.login e.time (attemptOf env e.world m password)).1 else s
  | .loginByCode m _ => if m = mobile ∧ e.Succeeded then .free else s
  | .resetPassword m _ _ => if m = mobile ∧ e.Succeeded then .free else s
  | _ => s

/-- The automaton of a mobile after a log. -/
def automaton (env : Env) (mobile : Bytes) (log : List Event) : LoginState :=
  log.foldl (LoginState.follow env mobile) .free

theorem automaton_snoc (env : Env) (mobile : Bytes) (log : List Event) (e : Event) :
    automaton env mobile (log ++ [e]) = (automaton env mobile log).follow env mobile e := by
  simp [automaton, List.foldl_append]

/-- What is promised of a run: the counters are the states of the automata, and every login by password
is answered as the automaton of its mobile answers. -/
structure FollowsAutomaton (env : Env) (log : List Event) (w : World) : Prop where
  state : ∀ now, w.clock ≤ now → ∀ mobile,
    loginState env.config.login w.redis now mobile = (automaton env mobile log).expire now
  answer : ∀ before e after mobile password, log = before ++ e :: after →
    e.request = .loginByPassword mobile password →
    e.outcome.code? = some (((automaton env mobile before).expire e.time).attempt env.config.login e.time
      (attemptOf env e.world mobile password)).2

/-- The invariant of a run. -/
structure LoginInv (env : Env) (log : List Event) (w : World) : Prop where
  range : CountersInRange env.config.login w.redis w.clock
  state : ∀ mobile, loginState env.config.login w.redis w.clock mobile = automaton env mobile log
  answer : ∀ before e after mobile password, log = before ++ e :: after →
    e.request = .loginByPassword mobile password →
    e.outcome.code? = some (((automaton env mobile before).expire e.time).attempt env.config.login e.time
      (attemptOf env e.world mobile password)).2

/-- No login has failed yet. -/
def NoFailures (s : Redis) : Prop := ∀ mobile, s (loginFailKey mobile) = none

theorem LoginInv.init (env : Env) {w : World} (h : NoFailures w.redis) : LoginInv env [] w where
  range mobile e he := by
    rw [seen_of_none (h mobile)] at he
    cases he
  state mobile := loginState_of_none (seen_of_none (h mobile) _)
  answer before e after mobile password hlog := absurd hlog (by simp)

section Step

variable {env : Env} {log : List Event} {w : World} {call : Call}

/-- The counters when a call is made. -/
theorem LoginInv.at_call (h : LoginInv env log w) (call : Call) :
    CountersInRange env.config.login (call.world w).redis (call.world w).clock ∧
      ∀ mobile, loginState env.config.login (call.world w).redis (call.world w).clock mobile =
        (automaton env mobile log).expire (call.world w).clock := by
  have hle : w.clock ≤ (call.world w).clock := Nat.le_add_right _ _
  refine ⟨h.range.later hle, fun mobile => ?_⟩
  rw [← h.state mobile]
  exact loginState_later h.range hle

/-- Clearing the counter of `m`, seen from `mobile`. -/
theorem follow_cleared {s : LoginState} {m mobile : Bytes} {done : Prop} [Decidable done]
    (h : loginState env.config.login (call.world w).redis (call.world w).clock mobile = s) :
    (if m = mobile ∧ done then .free else s) =
      if m = mobile then
        if done then .free else loginState env.config.login (call.world w).redis (call.world w).clock m
      else s := by
  by_cases hm : m = mobile
  · subst m
    by_cases hd : done <;> simp [hd, h]
  · simp [hm]

/-- What a call does to the counters is what its event does to the automata. -/
theorem LoginInv.follow (hc : env.config.login.Usable) (h : LoginInv env log w)
    (hfaults : call.redisFaults = []) :
    CountersInRange env.config.login (serve env call w).2.redis (serve env call w).2.clock ∧
      ∀ mobile, loginState env.config.login (serve env call w).2.redis (serve env call w).2.clock mobile =
        (automaton env mobile log).follow env mobile (serve env call w).1 := by
  obtain ⟨hrange, hstate⟩ := h.at_call call
  have hclock : (serve env call w).2.clock = (call.world w).clock := run_clock _ _
  have hw : (call.world w).redisFaults = [] := hfaults
  rw [hclock]
  -- the counter of one mobile moves, the others are left alone
  have hmoves : ∀ {s : Redis} {m : Bytes} {after : LoginState},
      Moves env.config.login (call.world w) s m after →
      (∀ mobile, (automaton env mobile log).follow env mobile (serve env call w).1 =
        if m = mobile then after else (automaton env mobile log).expire (call.world w).clock) →
      CountersInRange env.config.login s (call.world w).clock ∧
        ∀ mobile, loginState env.config.login s (call.world w).clock mobile =
          (automaton env mobile log).follow env mobile (serve env call w).1 := by
    intro s m after hm hfollow
    refine ⟨hm.range, fun mobile => ?_⟩
    rw [hfollow mobile]
    split
    · subst m
      exact hm.state
    · rw [loginState_congr (hm.others mobile (Ne.symm (by assumption))), hstate mobile]
  cases hreq : call.request with
  | loginByPassword m password =>
      have hs : (serve env call w).2 =
          (Program.run exec (loginByPassword env call.draws m password) (call.world w)).2 := by
        simp only [serve, hreq, handle, Program.run_bind, Program.run_pure]
      rw [hs]
      refine hmoves (run_loginByPassword hc hw hrange call.draws m password).2 fun mobile => ?_
      simp only [LoginState.follow, Event.request, serve, hreq]
      split
      · subst m
        rw [hstate mobile]
        rfl
      · rfl
  | loginByCode m verifyCode =>
      have hs := serve_answered (w := w) (show handle env call.draws call.request =
        answered .signedIn (loginByCode env call.draws m verifyCode) by rw [hreq]; rfl)
      rw [hs] at hmoves ⊢
      refine hmoves (run_loginByCode hw hrange call.draws m verifyCode) fun mobile => ?_
      simp only [LoginState.follow, Event.request, hreq, Event.Succeeded, Outcome.isOk, Result.isOk_map]
      exact follow_cleared (hstate mobile)
  | resetPassword m verifyCode newPassword =>
      have hs := serve_answered (w := w) (show handle env call.draws call.request =
        answered (fun _ => .nothing) (resetPassword env call.draws m verifyCode newPassword) by
          rw [hreq]; rfl)
      rw [hs] at hmoves ⊢
      refine hmoves (run_resetPassword hw hrange call.draws m verifyCode newPassword) fun mobile => ?_
      simp only [LoginState.follow, Event.request, hreq, Event.Succeeded, Outcome.isOk, Result.isOk_map]
      exact follow_cleared (hstate mobile)
  | _ =>
      have hkeys : ∀ m, (serve env call w).2.redis (ServiceKey.loginFail m).text =
          (call.world w).redis (ServiceKey.loginFail m).text := fun m => by
        refine serve_redis_frame_footprint env call w ?_
        rw [hreq]
        first | exact loginFail_notCaptcha m | exact id
      refine ⟨hrange.congr fun m => Or.inr (hkeys m), fun mobile => ?_⟩
      rw [loginState_congr (hkeys mobile), hstate mobile]
      simp only [LoginState.follow, Event.request, serve, hreq]
      rfl

/-- **Step.** A call keeps the invariant. -/
theorem LoginInv.serve (hc : env.config.login.Usable) (h : LoginInv env log w)
    (hfaults : call.redisFaults = []) :
    LoginInv env (log ++ [(serve env call w).1]) (serve env call w).2 := by
  obtain ⟨hrange, hstate⟩ := h.follow hc hfaults
  refine ⟨hrange, fun mobile => ?_, ?_⟩
  · rw [automaton_snoc]
    exact hstate mobile
  · intro before e after mobile password hlog hreq
    rcases List.eq_nil_or_concat after with rfl | ⟨after, last, rfl⟩
    · obtain ⟨rfl, hevent⟩ := List.append_inj' hlog rfl
      obtain rfl := (List.cons.inj hevent).1
      obtain ⟨hcount, hat⟩ := h.at_call call
      have hcode := (run_loginByPassword hc hfaults hcount call.draws mobile password).1
      rw [hat mobile] at hcode
      have hreq' : call.request = .loginByPassword mobile password := hreq
      have houtcome : (AccountService.serve env call w).1.outcome =
          (Program.run exec (loginByPassword env call.draws mobile password) (call.world w)).1.map
            .signedIn := by
        simp only [AccountService.serve, hreq', handle, Program.run_bind, Program.run_pure]
      rw [houtcome, Outcome.code?_map]
      exact hcode
    · rw [List.concat_eq_append, ← List.cons_append, ← List.append_assoc] at hlog
      obtain ⟨hlog, -⟩ := List.append_inj' hlog rfl
      exact h.answer before e after mobile password hlog hreq

end Step

/-- **Lockout of password logins.** In every run, over settings that `ValidateConfig` admits, the counter
of each mobile goes through the states of its automaton, and each login by password is answered as the
automaton answers. Statements may fail; Redis does not. -/
theorem login_lockout_follows_automaton (env : Env) (hadmitted : env.config.Admitted)
    (hbounded : env.config.login.Bounded) (w : World) (hfresh : NoFailures w.redis) (calls : List Call)
    (hfaults : ∀ call ∈ calls, call.redisFaults = []) :
    FollowsAutomaton env (history (serve env) calls w).1 (history (serve env) calls w).2 := by
  have hc := hadmitted.loginUsable hbounded
  have hinv : LoginInv env (history (serve env) calls w).1 (history (serve env) calls w).2 := by
    refine history_invariant (P := fun _ _ call => call.redisFaults = []) (serve env)
      (LoginInv.init env hfresh) (fun log w call h hcall => h.serve hc hcall) calls ?_
    rintro before call after rfl
    exact hfaults call (by simp)
  refine ⟨fun now hnow mobile => ?_, hinv.answer⟩
  rw [loginState_later hinv.range hnow, hinv.state mobile]

/-- Six logins with a mobile that nobody has registered, a second apart. -/
def lockingCalls : List Call :=
  List.replicate 6 (.sample 1 (.loginByPassword (ascii "13800138000") (ascii "Password123")))

theorem login_lockout_follows_automaton_sample :
    FollowsAutomaton defaultEnv (history (serve defaultEnv) lockingCalls (emptyWorld 0)).1
      (history (serve defaultEnv) lockingCalls (emptyWorld 0)).2 :=
  login_lockout_follows_automaton defaultEnv (by decide +kernel) (by decide) (emptyWorld 0)
    (fun _ => rfl) lockingCalls (by decide)

example : (history (serve defaultEnv) lockingCalls (emptyWorld 0)).1.map (·.outcome.code?) =
    List.replicate 5 (some .wrongPassword) ++ [some .accountLocked] := by
  decide +kernel

end AccountService
