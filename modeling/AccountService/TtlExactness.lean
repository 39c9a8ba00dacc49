import AccountService.ModelCalls

/-! The lives of keys in milliseconds. `SmsService` and `AuthService` multiply seconds by 1000 in `int`, and
`ValidateConfig` bounds the seconds only from below. -/

namespace AccountService

open AuthService Interaction

/-- The program satisfies `Q` wherever it gives a key a time to live. -/
def Timed (Q : Bytes × Int → Prop) : Cmd → Prop
  | .redis (.psetex key ttl _) => Q (key, ttl)
  | .redis (.pexpire key ttl) => Q (key, ttl)
  | _ => True

/-- The keys to which a program can give a time to live, each with that time. `SetPx` sends no command when the time
is not positive. -/
def ttlsOf {α : Type} (p : Action α) : Set (Bytes × Int) := { x | ¬Program.Uses (Timed (· ≠ x)) p }

section Rules

variable {α : Type} {P : Cmd → Prop}

theorem uses_redisCall_bind {c : RedisCmd} {f : Result c.Reply → Action α} :
    Program.Uses P (redisCall c >>= f) ↔
      P (.redis c) ∧ (∀ reply, Program.Uses P (f (.ok reply))) ∧
        ∀ what, Program.Uses P (f (.failWith .serviceUnavailable what)) := by
  constructor
  · intro h
    exact ⟨h.1, fun reply => h.2 (.ok reply), fun what => h.2 (.error what)⟩
  · rintro ⟨hc, hok, hfail⟩
    refine ⟨hc, fun reply => ?_⟩
    cases reply with
    | ok reply => exact hok reply
    | error what => exact hfail what

theorem uses_existsKey_bind {key : Bytes} {f : Result Bool → Action α} :
    Program.Uses P (existsKey key >>= f) ↔
      P (.redis (.existsKey key)) ∧ (∀ found, Program.Uses P (f (.ok found))) ∧
        ∀ what, Program.Uses P (f (.failWith .serviceUnavailable what)) := by
  constructor
  · intro h
    refine ⟨h.1, fun found => ?_, fun what => h.2 (.error what)⟩
    cases found with
    | true => exact h.2 (.ok 1)
    | false => exact h.2 (.ok 0)
  · rintro ⟨hc, hok, hfail⟩
    refine ⟨hc, fun reply => ?_⟩
    cases reply with
    | ok n => exact hok (decide (0 < n))
    | error what => exact hfail what

theorem uses_setPx_bind {key value : Bytes} {ttl : Int} {f : Result Unit → Action α} :
    Program.Uses P (setPx key value ttl >>= f) ↔
      (ttl ≤ 0 → Program.Uses P (f (.failWith .invalidArgument "TTL must be positive"))) ∧
      (0 < ttl → P (.redis (.psetex key ttl value)) ∧ Program.Uses P (f (.ok ())) ∧
        ∀ what, Program.Uses P (f (.failWith .serviceUnavailable what))) := by
  rw [setPx]
  by_cases h : ttl ≤ 0
  · rw [if_pos h]
    exact ⟨fun hf => ⟨fun _ => hf, fun hpos => absurd h (not_le.mpr hpos)⟩, fun hf => hf.1 h⟩
  · rw [if_neg h, uses_redisCall_bind]
    constructor
    · rintro ⟨hc, hok, hfail⟩
      exact ⟨fun hle => absurd hle h, fun _ => ⟨hc, hok (), hfail⟩⟩
    · rintro ⟨-, hf⟩
      obtain ⟨hc, hok, hfail⟩ := hf (not_le.mp h)
      exact ⟨hc, fun _ => hok, hfail⟩

end Rules

section Programs

variable {Q : Bytes × Int → Prop}

theorem uses_safeTtlSeconds_bind (key : Bytes) (default : Int) {α : Type} {f : Int → Action α}
    (hf : ∀ n, Program.Uses (Timed Q) (f n)) : Program.Uses (Timed Q) (safeTtlSeconds key default >>= f) := by
  refine Program.Uses.bind ?_ hf
  rw [safeTtlSeconds, pttl, uses_redisCall_bind]
  exact ⟨trivial, fun _ => trivial, fun _ => trivial⟩

theorem uses_sendCaptcha_iff (config : SmsConfig) (code : Bytes) (scene : SmsScene) (mobile : Bytes) :
    Program.Uses (Timed Q) (sendCaptcha config code scene mobile) ↔
      (0 < millis config.codeTtlSeconds →
        Q (captchaKey scene mobile, millis config.codeTtlSeconds) ∧
        (0 < millis config.sendIntervalSeconds →
          Q (intervalKey mobile, millis config.sendIntervalSeconds))) := by
  rw [sendCaptcha, uses_existsKey_bind]
  constructor
  · rintro ⟨-, hlock, -⟩ hcode
    obtain ⟨-, hinterval, -⟩ := uses_existsKey_bind.mp (hlock false)
    obtain ⟨hset, hnext, -⟩ := (uses_setPx_bind.mp (hinterval false)).2 hcode
    refine ⟨hset, fun hpos => ?_⟩
    exact ((uses_setPx_bind.mp hnext).2 hpos).1
  · intro h
    refine ⟨trivial, fun locked => ?_, fun _ => trivial⟩
    cases locked with
    | true => exact uses_safeTtlSeconds_bind _ _ fun _ => trivial
    | false =>
        refine uses_existsKey_bind.mpr ⟨trivial, fun early => ?_, fun _ => trivial⟩
        cases early with
        | true => exact uses_safeTtlSeconds_bind _ _ fun _ => trivial
        | false =>
            refine uses_setPx_bind.mpr ⟨fun _ => trivial, fun hcode => ⟨(h hcode).1, ?_, fun _ => trivial⟩⟩
            refine uses_setPx_bind.mpr ⟨fun _ => trivial, fun hpos => ⟨(h hcode).2 hpos, trivial, fun _ => trivial⟩⟩

theorem uses_del_bind {key : Bytes} {α : Type} {f : Result Bool → Action α}
    (hf : ∀ r, Program.Uses (Timed Q) (f r)) : Program.Uses (Timed Q) (del key >>= f) := by
  refine Program.Uses.bind ?_ hf
  rw [del, uses_redisCall_bind]
  exact ⟨trivial, fun _ => trivial, fun _ => trivial⟩

theorem uses_countWrongCode_iff (config : SmsConfig) (scene : SmsScene) (mobile : Bytes) :
    Program.Uses (Timed Q) (countWrongCode config scene mobile) ↔
      Q (verifyCountKey scene mobile, millis config.retryTtlSeconds) ∧
        (0 < millis config.lockSeconds → Q (lockKey scene mobile, millis config.lockSeconds)) := by
  rw [countWrongCode, incr, uses_redisCall_bind]
  constructor
  · rintro ⟨-, hcount, -⟩
    obtain ⟨hretry, hnext, -⟩ := uses_redisCall_bind.mp (hcount config.maxRetryCount.toInt)
    refine ⟨hretry, fun hpos => ?_⟩
    have hlock := hnext true
    dsimp only at hlock
    rw [if_pos le_rfl] at hlock
    exact ((uses_setPx_bind.mp hlock).2 hpos).1
  · rintro ⟨hretry, hlocked⟩
    refine ⟨trivial, fun count => ?_, fun _ => trivial⟩
    have hnext : Program.Uses (Timed Q) (if config.maxRetryCount.toInt ≤ count then (do
        let _ ← setPx (lockKey scene mobile) (ascii "1") (millis config.lockSeconds)
        let _ ← del (captchaKey scene mobile)
        let _ ← del (verifyCountKey scene mobile)
        let minutes := config.lockSeconds.toInt.tdiv 60
        return .failWith .accountLocked s!"错误次数过多，请{minutes}分钟后再试")
      else do
        let left := config.maxRetryCount.toInt - count
        return (.failWith .captchaWrong s!"验证码错误，还剩{left}次机会" : Result Unit)) := by
      split
      · refine uses_setPx_bind.mpr ⟨fun _ => ?_, fun hpos => ⟨hlocked hpos, ?_, fun _ => ?_⟩⟩
        all_goals exact uses_del_bind fun _ => uses_del_bind fun _ => trivial
      · trivial
    exact uses_redisCall_bind.mpr ⟨hretry, fun _ => hnext, fun _ => hnext⟩

theorem uses_verifyCaptcha_iff (config : SmsConfig) (scene : SmsScene) (mobile inputCode : Bytes) :
    Program.Uses (Timed Q) (verifyCaptcha config scene mobile inputCode) ↔
      Q (verifyCountKey scene mobile, millis config.retryTtlSeconds) ∧
        (0 < millis config.lockSeconds → Q (lockKey scene mobile, millis config.lockSeconds)) := by
  rw [verifyCaptcha, uses_existsKey_bind, ← uses_countWrongCode_iff]
  constructor
  · rintro ⟨-, hlock, -⟩
    -- some stored code differs from the one presented
    have hget := (uses_redisCall_bind.mp (hlock false)).2.1 (some (0 :: inputCode))
    dsimp only at hget
    rw [if_pos (by simp)] at hget
    exact hget
  · intro hcount
    refine ⟨trivial, fun locked => ?_, fun _ => trivial⟩
    cases locked with
    | true => exact uses_safeTtlSeconds_bind _ _ fun _ => trivial
    | false =>
        refine uses_redisCall_bind.mpr ⟨trivial, fun stored => ?_, fun _ => trivial⟩
        cases stored with
        | none => trivial
        | some storedCode =>
            show Program.Uses _ (ite _ _ _)
            split
            · exact hcount
            · exact uses_del_bind fun _ => trivial

theorem uses_recordLoginFailure_iff (env : Env) (mobile : Bytes) :
    Program.Uses (Timed Q) (recordLoginFailure env mobile) ↔
      Q (loginFailKey mobile, millis env.config.login.lockDurationSeconds) ∧
        Q (loginFailKey mobile, millis env.config.login.failedAttemptsWindow) := by
  rw [recordLoginFailure, incr, uses_redisCall_bind]
  constructor
  · rintro ⟨-, hcount, -⟩
    have hlast := hcount env.config.login.maxFailedAttempts.toInt
    have hfirst := hcount (env.config.login.maxFailedAttempts.toInt - 1)
    dsimp only at hlast hfirst
    rw [if_pos rfl] at hlast
    rw [if_neg (by omega), if_pos (by omega)] at hfirst
    refine ⟨(uses_redisCall_bind.mp hlast).1, ?_⟩
    -- a counter without an end
    exact (uses_redisCall_bind.mp ((uses_redisCall_bind.mp hfirst).2.1 (-1))).1
  · rintro ⟨hlock, hwindow⟩
    refine ⟨trivial, fun count => ?_, fun _ => trivial⟩
    show Program.Uses _ (ite _ _ _)
    split
    · exact uses_redisCall_bind.mpr ⟨hlock, fun _ => trivial, fun _ => trivial⟩
    · split
      · have hopen : ∀ noTtl : Bool, Program.Uses (Timed Q) (if noTtl then (do
            let _ ← pExpire (loginFailKey mobile) (millis env.config.login.failedAttemptsWindow)
            return ()) else return ()) := by
          intro noTtl
          cases noTtl with
          | true => exact uses_redisCall_bind.mpr ⟨hwindow, fun _ => trivial, fun _ => trivial⟩
          | false => trivial
        exact uses_redisCall_bind.mpr ⟨trivial, fun _ => hopen _, fun _ => hopen _⟩
      · trivial

end Programs

section Mem

variable {x : Bytes × Int}

theorem mem_ttlsOf {α : Type} {p : Action α} : x ∈ ttlsOf p ↔ ¬Program.Uses (Timed (· ≠ x)) p := Iff.rfl

theorem mem_ttlsOf_sendCaptcha {config : SmsConfig} {code : Bytes} {scene : SmsScene} {mobile : Bytes} :
    x ∈ ttlsOf (sendCaptcha config code scene mobile) ↔
      0 < millis config.codeTtlSeconds ∧
        (x = (captchaKey scene mobile, millis config.codeTtlSeconds) ∨
          0 < millis config.sendIntervalSeconds ∧ x = (intervalKey mobile, millis config.sendIntervalSeconds)) := by
  rw [mem_ttlsOf, uses_sendCaptcha_iff]
  simp only [Classical.not_imp, not_and_or, ne_eq, not_not, @eq_comm _ x]

theorem mem_ttlsOf_verifyCaptcha {config : SmsConfig} {scene : SmsScene} {mobile inputCode : Bytes} :
    x ∈ ttlsOf (verifyCaptcha config scene mobile inputCode) ↔
      x = (verifyCountKey scene mobile, millis config.retryTtlSeconds) ∨
        0 < millis config.lockSeconds ∧ x = (lockKey scene mobile, millis config.lockSeconds) := by
  rw [mem_ttlsOf, uses_verifyCaptcha_iff]
  simp only [Classical.not_imp, not_and_or, ne_eq, not_not, @eq_comm _ x]

theorem mem_ttlsOf_recordLoginFailure {env : Env} {mobile : Bytes} :
    x ∈ ttlsOf (recordLoginFailure env mobile) ↔
      x = (loginFailKey mobile, millis env.config.login.lockDurationSeconds) ∨
        x = (loginFailKey mobile, millis env.config.login.failedAttemptsWindow) := by
  rw [mem_ttlsOf, uses_recordLoginFailure_iff]
  simp only [not_and_or, ne_eq, not_not, @eq_comm _ x]

end Mem

/-- `seconds * 1000` as a product of integers. -/
def exactMillis (seconds : Int32) : Int := seconds.toInt * 1000

/-- The times that are multiplied. -/
def Config.ttlSeconds (config : Config) : List Int32 :=
  [config.sms.codeTtlSeconds, config.sms.sendIntervalSeconds, config.sms.retryTtlSeconds, config.sms.lockSeconds,
    config.login.failedAttemptsWindow, config.login.lockDurationSeconds]

/-- Every time to live that is set is positive and the exact product, none is missing because `SetPx` refused it,
and so is the time a locked account is told to wait when the counter has no end. -/
structure TtlsExact (env : Env) : Prop where
  sendCaptcha : ∀ code scene mobile, ttlsOf (sendCaptcha env.config.sms code scene mobile) =
    {(captchaKey scene mobile, exactMillis env.config.sms.codeTtlSeconds),
      (intervalKey mobile, exactMillis env.config.sms.sendIntervalSeconds)}
  verifyCaptcha : ∀ scene mobile inputCode, ttlsOf (verifyCaptcha env.config.sms scene mobile inputCode) =
    {(verifyCountKey scene mobile, exactMillis env.config.sms.retryTtlSeconds),
      (lockKey scene mobile, exactMillis env.config.sms.lockSeconds)}
  recordLoginFailure : ∀ mobile, ttlsOf (recordLoginFailure env mobile) =
    {(loginFailKey mobile, exactMillis env.config.login.lockDurationSeconds),
      (loginFailKey mobile, exactMillis env.config.login.failedAttemptsWindow)}
  checkLoginFailedAttempts : ∀ w mobile text count, ((get (loginFailKey mobile)).run w).1 = .ok (some text) →
    stoi text = some count → env.config.login.maxFailedAttempts.toInt ≤ count →
    (∀ ms, ((pttl (loginFailKey mobile)).run ((get (loginFailKey mobile)).run w).2).1 = .ok ms → ms ≤ 0) →
    ((checkLoginFailedAttempts env mobile).run w).1 = some (.failWith .accountLocked
      s!"登录失败次数过多，请{lockMinutes (exactMillis env.config.login.lockDurationSeconds)}分钟后再试")
  positive : ∀ seconds ∈ env.config.ttlSeconds, 0 < exactMillis seconds

theorem millis_le (seconds : Int32) : millis seconds ≤ 2147483647 := by
  have h := (seconds * 1000).toInt_lt
  rw [millis]
  omega

theorem le_of_exactMillis_eq {seconds other : Int32} (h : exactMillis seconds = millis other) :
    seconds.toInt ≤ 2147483 := by
  have hle := millis_le other
  rw [exactMillis] at h
  omega

theorem Config.Admitted.ttlSeconds {config : Config} (h : config.Admitted) :
    ∀ seconds ∈ config.ttlSeconds, 0 < seconds.toInt := by
  obtain ⟨hcode, hsend, -, hretry, hlock, -⟩ := h.sms
  obtain ⟨-, hwindow, hduration⟩ := h.login
  simp only [Config.ttlSeconds, List.forall_mem_cons]
  exact ⟨hcode, hsend, hretry, hlock, hwindow, hduration, nofun⟩

theorem TtlsExact.le {env : Env} (h : TtlsExact env) : ∀ seconds ∈ env.config.ttlSeconds, seconds.toInt ≤ 2147483 := by
  -- a time that was set is the result of a product in `int`
  have hcode := mem_ttlsOf_sendCaptcha.mp ((h.sendCaptcha [] .login []).symm.subset (Set.mem_insert _ _))
  have hsend := mem_ttlsOf_sendCaptcha.mp
    ((h.sendCaptcha [] .login []).symm.subset (Set.mem_insert_of_mem _ (Set.mem_singleton _)))
  have hretry := mem_ttlsOf_verifyCaptcha.mp ((h.verifyCaptcha .login [] []).symm.subset (Set.mem_insert _ _))
  have hlock := mem_ttlsOf_verifyCaptcha.mp
    ((h.verifyCaptcha .login [] []).symm.subset (Set.mem_insert_of_mem _ (Set.mem_singleton _)))
  have hduration := mem_ttlsOf_recordLoginFailure.mp ((h.recordLoginFailure []).symm.subset (Set.mem_insert _ _))
  have hwindow := mem_ttlsOf_recordLoginFailure.mp
    ((h.recordLoginFailure []).symm.subset (Set.mem_insert_of_mem _ (Set.mem_singleton _)))
  simp only [Prod.mk.injEq] at hcode hsend hretry hlock hduration hwindow
  simp only [Config.ttlSeconds, List.forall_mem_cons]
  refine ⟨?_, ?_, ?_, ?_, ?_, ?_, nofun⟩
  · rcases hcode.2 with ⟨-, h⟩ | ⟨-, -, h⟩ <;> exact le_of_exactMillis_eq h
  · rcases hsend.2 with ⟨-, h⟩ | ⟨-, -, h⟩ <;> exact le_of_exactMillis_eq h
  · rcases hretry with ⟨-, h⟩ | ⟨-, -, h⟩ <;> exact le_of_exactMillis_eq h
  · rcases hlock with ⟨-, h⟩ | ⟨-, -, h⟩ <;> exact le_of_exactMillis_eq h
  · rcases hwindow with ⟨-, h⟩ | ⟨-, h⟩ <;> exact le_of_exactMillis_eq h
  · rcases hduration with ⟨-, h⟩ | ⟨-, h⟩ <;> exact le_of_exactMillis_eq h

/-- The answer to a locked account whose counter has no end, or whose end cannot be read. -/
theorem checkLogin_without_end {env : Env} {w : World} {mobile text : Bytes} {count : Int}
    (hget : ((get (loginFailKey mobile)).run w).1 = .ok (some text)) (hstoi : stoi text = some count)
    (hmax : env.config.login.maxFailedAttempts.toInt ≤ count)
    (hpttl : ∀ ms, ((pttl (loginFailKey mobile)).run ((get (loginFailKey mobile)).run w).2).1 = .ok ms → ms ≤ 0) :
    ((checkLoginFailedAttempts env mobile).run w).1 = some (.failWith .accountLocked
      s!"登录失败次数过多，请{lockMinutes (millis env.config.login.lockDurationSeconds)}分钟后再试") := by
  rw [AuthService.checkLoginFailedAttempts, Action.run, Program.run_bind]
  rw [Action.run] at hget hpttl
  simp only [hget, hstoi, if_pos hmax, Program.run_bind, Program.run_pure]
  cases hcase : (Program.run exec (pttl (loginFailKey mobile)) (Program.run exec (get (loginFailKey mobile)) w).2).1 with
  | fail code message => rfl
  | ok ms => simp only [if_neg (not_lt.mpr (hpttl ms hcase))]

/-- **Milliseconds.** The times to live are exact if and only if none of the six settings is above 2147483
seconds. -/
theorem ttls_exact_iff {env : Env} (hadmitted : env.config.Admitted) :
    TtlsExact env ↔ ∀ seconds ∈ env.config.ttlSeconds, seconds.toInt ≤ 2147483 := by
  refine ⟨TtlsExact.le, fun hle => ?_⟩
  have hpos := hadmitted.ttlSeconds
  have hmillis : ∀ seconds ∈ env.config.ttlSeconds, millis seconds = exactMillis seconds := fun seconds hmem =>
    millis_eq (hpos seconds hmem) (hle seconds hmem)
  have hexact : ∀ seconds ∈ env.config.ttlSeconds, 0 < exactMillis seconds := fun seconds hmem => by
    have := hpos seconds hmem
    rw [exactMillis]
    omega
  have heach := hmillis
  have hpositive := hexact
  simp only [Config.ttlSeconds, List.forall_mem_cons] at heach hpositive
  obtain ⟨hcode, hsend, hretry, hlock, hwindow, hduration, -⟩ := heach
  obtain ⟨hcode', hsend', -, hlock', -⟩ := hpositive
  refine ⟨fun code scene mobile => ?_, fun scene mobile inputCode => ?_, fun mobile => ?_, ?_, hexact⟩
  · ext x
    rw [mem_ttlsOf_sendCaptcha, hcode, hsend]
    simp [hcode', hsend']
  · ext x
    rw [mem_ttlsOf_verifyCaptcha, hretry, hlock]
    simp [hlock']
  · ext x
    rw [mem_ttlsOf_recordLoginFailure, hduration, hwindow]
    rfl
  · intro w mobile text count hget hstoi hmax hpttl
    rw [checkLogin_without_end hget hstoi hmax hpttl, hduration]

theorem ttls_exact_default : TtlsExact defaultEnv ↔ ∀ seconds ∈ defaultEnv.config.ttlSeconds, seconds.toInt ≤ 2147483 :=
  @ttls_exact_iff defaultEnv (by decide)

/-- A month of thirty days is too long a life for a code. -/
def monthEnv : Env :=
  ⟨.openssl, { sms := { codeTtlSeconds := 2592000, lockSeconds := 2592000 } }⟩

theorem month_overflows : monthEnv.config.Admitted ∧ ¬TtlsExact monthEnv := by
  refine ⟨by decide, fun h => ?_⟩
  have hle := h.le 2592000 (by decide)
  exact absurd hle (by decide)

end AccountService
