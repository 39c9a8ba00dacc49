import AccountService.RedisSpec

/-! `SendCaptcha`, `VerifyCaptcha` and `ConsumeCaptcha` as functions of what Redis holds for a scene and
a mobile: the code, the count of wrong codes, the lock, and the interval between two messages. -/

namespace AccountService

open Expiring Interaction

/-- The slot of a key of the service, if it is there and has not expired. -/
def seen (s : Redis) (now : Nat) (k : ServiceKey) : Option (Slot Bytes) := s.look now k.text

def store (s : Redis) (k : ServiceKey) (e : Slot Bytes) : Redis := s.put k.text e

def drop (s : Redis) (k : ServiceKey) : Redis := s.erase k.text

section Seen

variable (s : Redis) (now : Nat) (j k : ServiceKey) (e : Slot Bytes)

theorem seen_store_self : seen (store s k e) now k = if e.Live now then some e else none :=
  Store.look_put_self s now k.text e

theorem seen_store_ne (h : j ≠ k) : seen (store s k e) now j = seen s now j :=
  Store.look_put_ne s now k.text j.text e fun h' => h (ServiceKey.text_injective h')

theorem seen_drop_self : seen (drop s k) now k = none := Store.look_erase_self s now k.text

theorem seen_drop_ne (h : j ≠ k) : seen (drop s k) now j = seen s now j :=
  Store.look_erase_ne s now k.text j.text fun h' => h (ServiceKey.text_injective h')

theorem seen_of_later {now later : Nat} (hle : now ≤ later) {e : Slot Bytes}
    (h : seen s later k = some e) : seen s now k = some e := Store.look_of_look_later s k.text hle h

theorem seen_later_none {now later : Nat} (hle : now ≤ later) (h : seen s now k = none) :
    seen s later k = none := Store.look_later_none s k.text hle h

/-- A slot that has not reached its deadline is still there. -/
theorem seen_later_of_lt {now later deadline : Nat} (hle : now ≤ later) {v : Bytes}
    (h : seen s now k = some ⟨v, some deadline⟩) (hlt : later < deadline) :
    seen s later k = some ⟨v, some deadline⟩ := by
  rw [seen, Store.look_later s k.text hle, show s.look now k.text = _ from h]
  simp [Option.filter, Slot.Live, hlt]

end Seen

theorem seen_store (s : Redis) (now : Nat) (j k : ServiceKey) (e : Slot Bytes) :
    seen (store s k e) now j = if j = k then (if e.Live now then some e else none) else seen s now j := by
  split
  · subst j
    exact seen_store_self s now k e
  · exact seen_store_ne s now j k e (by assumption)

theorem seen_drop (s : Redis) (now : Nat) (j k : ServiceKey) :
    seen (drop s k) now j = if j = k then none else seen s now j := by
  split
  · subst j
    exact seen_drop_self s now k
  · exact seen_drop_ne s now j k (by assumption)

theorem seen_of_none {s : Redis} {k : ServiceKey} (h : s k.text = none) (now : Nat) :
    seen s now k = none := by
  simp [seen, Store.look, h]

/-- A number of seconds, in nanoseconds. -/
def lifetime (seconds : Int32) : Nat := seconds.toInt.toNat * nanosPerSecond

/-- Seconds whose product with 1000 is a positive `int`. -/
def Convertible (seconds : Int32) : Prop := 0 < seconds.toInt ∧ seconds.toInt ≤ 2147483

theorem Convertible.millis_pos {seconds : Int32} (h : Convertible seconds) : 0 < millis seconds := by
  rw [millis_eq h.1 h.2]
  have := h.1
  omega

theorem Convertible.deadline {seconds : Int32} (h : Convertible seconds) (now : Nat) :
    deadlineAfter now (millis seconds) = now + lifetime seconds := by
  have hpos := h.1
  have hmillis : (seconds.toInt * 1000).toNat = seconds.toInt.toNat * 1000 := by omega
  rw [deadlineAfter, millis_eq h.1 h.2, lifetime, hmillis, Nat.mul_assoc]
  rfl

theorem Convertible.lifetime_pos {seconds : Int32} (h : Convertible seconds) : 0 < lifetime seconds := by
  have hpos := h.1
  unfold lifetime nanosPerSecond
  omega

/-- The facts about the settings on which the module rests. -/
structure SmsConfig.Usable (config : SmsConfig) : Prop where
  code : Convertible config.codeTtlSeconds
  interval : Convertible config.sendIntervalSeconds
  retry : Convertible config.retryTtlSeconds
  lock : Convertible config.lockSeconds
  maxRetry : 0 < config.maxRetryCount.toInt

/-- No second-valued setting is so large that its milliseconds wrap. -/
def SmsConfig.Bounded (config : SmsConfig) : Prop :=
  config.codeTtlSeconds.toInt ≤ 2147483 ∧ config.sendIntervalSeconds.toInt ≤ 2147483 ∧
    config.retryTtlSeconds.toInt ≤ 2147483 ∧ config.lockSeconds.toInt ≤ 2147483

instance (config : SmsConfig) : Decidable config.Bounded := inferInstanceAs (Decidable (_ ∧ _))

theorem Config.Admitted.usable {config : Config} (h : config.Admitted) (hb : config.sms.Bounded) :
    config.sms.Usable := by
  obtain ⟨hcode, hinterval, hmax, hretry, hlock, -⟩ := h.sms
  obtain ⟨hcode', hinterval', hretry', hlock'⟩ := hb
  exact ⟨⟨hcode, hcode'⟩, ⟨hinterval, hinterval'⟩, ⟨hretry, hretry'⟩, ⟨hlock, hlock'⟩, hmax⟩

section Keys

variable {w : World} (hw : w.redisFaults = []) (k : ServiceKey)
include hw

theorem run_exists_key :
    Program.run exec (existsKey k.text) w = (.ok (seen w.redis w.clock k).isSome, w) :=
  run_existsKey hw k.text

theorem run_get_key :
    Program.run exec (get k.text) w = (.ok ((seen w.redis w.clock k).map (·.value)), w) :=
  run_get hw k.text

theorem run_set_key (value : Bytes) {seconds : Int32} (hs : Convertible seconds) :
    Program.run exec (setPx k.text value (millis seconds)) w =
      (.ok (), w.withRedis (store w.redis k ⟨value, some (w.clock + lifetime seconds)⟩)) := by
  rw [run_setPx hw _ _ hs.millis_pos, hs.deadline]
  rfl

theorem run_expire_key {seconds : Int32} (hs : Convertible seconds) {e : Slot Bytes}
    (he : seen w.redis w.clock k = some e) :
    Program.run exec (pExpire k.text (millis seconds)) w =
      (.ok true, w.withRedis (store w.redis k ⟨e.value, some (w.clock + lifetime seconds)⟩)) := by
  rw [run_pExpire hw _ hs.millis_pos he, hs.deadline]
  rfl

theorem run_del_key :
    Program.run exec (del k.text) w =
      (.ok (seen w.redis w.clock k).isSome, w.withRedis (drop w.redis k)) :=
  run_del hw k.text

theorem run_incr_key_none (h : seen w.redis w.clock k = none) :
    Program.run exec (incr k.text) w = (.ok 1, w.withRedis (store w.redis k ⟨toString 1, none⟩)) :=
  run_incr_none hw k.text h

theorem run_incr_key_some {n : Int} {deadline : Option Nat} (hn : IsInt64 n) (hn' : IsInt64 (n + 1))
    (h : seen w.redis w.clock k = some ⟨toString n, deadline⟩) :
    Program.run exec (incr k.text) w =
      (.ok (n + 1), w.withRedis (store w.redis k ⟨toString (n + 1), deadline⟩)) :=
  run_incr_some hw k.text hn hn' h

end Keys

theorem store_store (s : Redis) (k : ServiceKey) (e f : Slot Bytes) :
    store (store s k e) k f = store s k f := by
  simp [store, Store.put]

/-- Redis after a message with this code has been sent. -/
def sentRedis (config : SmsConfig) (w : World) (scene : SmsScene) (mobile code : Bytes) : Redis :=
  store (store w.redis (.code scene mobile) ⟨code, some (w.clock + lifetime config.codeTtlSeconds)⟩)
    (.interval mobile) ⟨ascii "1", some (w.clock + lifetime config.sendIntervalSeconds)⟩

/-- Redis after a wrong code that makes `n` of them. -/
def countedRedis (config : SmsConfig) (w : World) (scene : SmsScene) (mobile : Bytes) (n : Int) : Redis :=
  store w.redis (.count scene mobile) ⟨toString n, some (w.clock + lifetime config.retryTtlSeconds)⟩

/-- Redis after the wrong code that locks the pair. -/
def lockedRedis (config : SmsConfig) (w : World) (scene : SmsScene) (mobile : Bytes) (n : Int) : Redis :=
  drop (drop (store (countedRedis config w scene mobile n) (.lock scene mobile)
    ⟨ascii "1", some (w.clock + lifetime config.lockSeconds)⟩) (.code scene mobile)) (.count scene mobile)

section Operations

variable {config : SmsConfig} (hc : config.Usable) {w : World} (hw : w.redisFaults = [])
variable (scene : SmsScene) (mobile : Bytes)
include hw

include hc in
/-- **SendCaptcha.** A live lock or a live interval refuses; otherwise the code is stored. -/
theorem run_sendCaptcha (code : Bytes) :
    (((seen w.redis w.clock (.lock scene mobile)).isSome ∨
        (seen w.redis w.clock (.interval mobile)).isSome) ∧
      ∃ message, Program.run exec (sendCaptcha config code scene mobile) w =
        (.failWith .rateLimited message, w)) ∨
    (seen w.redis w.clock (.lock scene mobile) = none ∧ seen w.redis w.clock (.interval mobile) = none ∧
      Program.run exec (sendCaptcha config code scene mobile) w =
        (.ok config.sendIntervalSeconds.toInt, w.withRedis (sentRedis config w scene mobile code))) := by
  have hlock : Program.run exec (existsKey (lockKey scene mobile)) w = _ :=
    run_exists_key hw (.lock scene mobile)
  have hinterval : Program.run exec (existsKey (intervalKey mobile)) w = _ :=
    run_exists_key hw (.interval mobile)
  cases hl : seen w.redis w.clock (.lock scene mobile) with
  | some e =>
      obtain ⟨ttl, httl⟩ := run_safeTtlSeconds hw (lockKey scene mobile) config.lockSeconds.toInt
      refine Or.inl ⟨Or.inl rfl, ?_⟩
      simp only [sendCaptcha, Program.run_bind, hlock, hl, Option.isSome_some, httl]
      exact ⟨_, rfl⟩
  | none =>
      cases hi : seen w.redis w.clock (.interval mobile) with
      | some e =>
          obtain ⟨ttl, httl⟩ := run_safeTtlSeconds hw (intervalKey mobile) config.sendIntervalSeconds.toInt
          refine Or.inl ⟨Or.inr rfl, ?_⟩
          simp only [sendCaptcha, Program.run_bind, hlock, hl, hinterval, hi, Option.isSome_some,
            Option.isSome_none, httl]
          exact ⟨_, rfl⟩
      | none =>
          have hcode : Program.run exec
              (setPx (captchaKey scene mobile) code (millis config.codeTtlSeconds)) w = _ :=
            run_set_key hw (.code scene mobile) code hc.code
          have hwait : Program.run exec
              (setPx (intervalKey mobile) (ascii "1") (millis config.sendIntervalSeconds))
              (w.withRedis (store w.redis (.code scene mobile)
                ⟨code, some (w.clock + lifetime config.codeTtlSeconds)⟩)) = _ :=
            run_set_key (by exact hw) (.interval mobile) (ascii "1") hc.interval
          refine Or.inr ⟨rfl, rfl, ?_⟩
          simp only [sendCaptcha, Program.run_bind, hlock, hl, hinterval, hi, Option.isSome_none, hcode,
            hwait, doSend]
          rfl

include hc in
/-- A wrong code on top of `n` earlier ones is counted, or locks the pair. -/
theorem run_countWrongCode {n : Int} (hn : 0 ≤ n) (hmax : n < config.maxRetryCount.toInt)
    (hcount : seen w.redis w.clock (.count scene mobile) = none ∧ n = 0 ∨
      ∃ deadline, seen w.redis w.clock (.count scene mobile) = some ⟨toString n, deadline⟩) :
    (n + 1 < config.maxRetryCount.toInt ∧ ∃ message,
      Program.run exec (countWrongCode config scene mobile) w =
        (.failWith .captchaWrong message, w.withRedis (countedRedis config w scene mobile (n + 1)))) ∨
    (n + 1 = config.maxRetryCount.toInt ∧ ∃ message,
      Program.run exec (countWrongCode config scene mobile) w =
        (.failWith .accountLocked message, w.withRedis (lockedRedis config w scene mobile (n + 1)))) := by
  have hlt : config.maxRetryCount.toInt < 2 ^ 31 := Int32.toInt_lt _
  have hincr : ∃ deadline, Program.run exec (incr (verifyCountKey scene mobile)) w =
      (.ok (n + 1), w.withRedis
        (store w.redis (.count scene mobile) ⟨toString (n + 1), deadline⟩)) ∧
      (∀ d, deadline = some d → w.clock < d) := by
    rcases hcount with ⟨hnone, rfl⟩ | ⟨deadline, hsome⟩
    · exact ⟨none, run_incr_key_none hw (.count scene mobile) hnone, fun d hd => by cases hd⟩
    · refine ⟨deadline, run_incr_key_some hw (.count scene mobile) ?_ ?_ hsome, ?_⟩
      · unfold IsInt64
        omega
      · unfold IsInt64
        omega
      · rintro d rfl
        exact Store.live_of_look hsome
  obtain ⟨deadline, hincr, hlive⟩ := hincr
  have hseen : seen (store w.redis (.count scene mobile) ⟨toString (n + 1), deadline⟩) w.clock
      (.count scene mobile) = some ⟨toString (n + 1), deadline⟩ := by
    rw [seen_store_self, if_pos]
    cases deadline with
    | none => trivial
    | some d => exact hlive d rfl
  have hexpire : Program.run exec
      (pExpire (verifyCountKey scene mobile) (millis config.retryTtlSeconds))
      (w.withRedis (store w.redis (.count scene mobile) ⟨toString (n + 1), deadline⟩)) =
      (.ok true, w.withRedis (countedRedis config w scene mobile (n + 1))) := by
    have := run_expire_key (w := w.withRedis
      (store w.redis (.count scene mobile) ⟨toString (n + 1), deadline⟩)) (by exact hw)
        (.count scene mobile) hc.retry hseen
    simp only [World.withRedis_redis, World.withRedis_clock, World.withRedis_withRedis, store_store] at this
    exact this
  rcases lt_or_eq_of_le (show n + 1 ≤ config.maxRetryCount.toInt by omega) with hmore | hlast
  · refine Or.inl ⟨hmore, ?_⟩
    simp only [countWrongCode, Program.run_bind, hincr, hexpire, if_neg (not_le.mpr hmore)]
    exact ⟨_, rfl⟩
  · refine Or.inr ⟨hlast, ?_⟩
    have hset : Program.run exec (setPx (lockKey scene mobile) (ascii "1") (millis config.lockSeconds))
        (w.withRedis (countedRedis config w scene mobile (n + 1))) = _ :=
      run_set_key (by exact hw) (.lock scene mobile) (ascii "1") hc.lock
    have hdel : ∀ s k, Program.run exec (del (ServiceKey.text k)) (w.withRedis s) =
        (.ok (seen s w.clock k).isSome, w.withRedis (drop s k)) := fun s k =>
      run_del_key (w := w.withRedis s) (by exact hw) k
    have hdelCode : ∀ s, Program.run exec (del (captchaKey scene mobile)) (w.withRedis s) = _ := fun s =>
      hdel s (.code scene mobile)
    have hdelCount : ∀ s, Program.run exec (del (verifyCountKey scene mobile)) (w.withRedis s) = _ :=
      fun s => hdel s (.count scene mobile)
    simp only [countWrongCode, Program.run_bind, hincr, hexpire, if_pos hlast.ge, hset,
      World.withRedis_withRedis, hdelCode, hdelCount]
    exact ⟨_, rfl⟩

variable (config) in
/-- **VerifyCaptcha**, up to the counting of a wrong code. -/
theorem run_verifyCaptcha (input : Bytes) :
    ((seen w.redis w.clock (.lock scene mobile)).isSome ∧ ∃ message,
      Program.run exec (verifyCaptcha config scene mobile input) w = (.failWith .rateLimited message, w)) ∨
    (seen w.redis w.clock (.lock scene mobile) = none ∧
      ((seen w.redis w.clock (.code scene mobile) = none ∧ ∃ message,
          Program.run exec (verifyCaptcha config scene mobile input) w =
            (.failWith .captchaExpired message, w)) ∨
        ∃ e, seen w.redis w.clock (.code scene mobile) = some e ∧
          ((e.value = input ∧ Program.run exec (verifyCaptcha config scene mobile input) w =
              (.ok (), w.withRedis (drop w.redis (.count scene mobile)))) ∨
            (e.value ≠ input ∧ Program.run exec (verifyCaptcha config scene mobile input) w =
              Program.run exec (countWrongCode config scene mobile) w)))) := by
  have hlock : Program.run exec (existsKey (lockKey scene mobile)) w = _ :=
    run_exists_key hw (.lock scene mobile)
  have hget : Program.run exec (get (captchaKey scene mobile)) w = _ := run_get_key hw (.code scene mobile)
  cases hl : seen w.redis w.clock (.lock scene mobile) with
  | some e =>
      obtain ⟨ttl, httl⟩ := run_safeTtlSeconds hw (lockKey scene mobile) config.retryTtlSeconds.toInt
      refine Or.inl ⟨rfl, ?_⟩
      simp only [verifyCaptcha, Program.run_bind, hlock, hl, Option.isSome_some, httl]
      exact ⟨_, rfl⟩
  | none =>
      refine Or.inr ⟨rfl, ?_⟩
      cases hcode : seen w.redis w.clock (.code scene mobile) with
      | none =>
          refine Or.inl ⟨rfl, ?_⟩
          simp only [verifyCaptcha, Program.run_bind, hlock, hl, Option.isSome_none, hget, hcode,
            Option.map_none]
          exact ⟨_, rfl⟩
      | some e =>
          refine Or.inr ⟨e, rfl, ?_⟩
          by_cases he : e.value = input
          · have hdel : Program.run exec (del (verifyCountKey scene mobile)) w = _ :=
              run_del_key hw (.count scene mobile)
            refine Or.inl ⟨he, ?_⟩
            simp only [verifyCaptcha, Program.run_bind, hlock, hl, Option.isSome_none, hget, hcode,
              Option.map_some, he, ne_eq, not_true_eq_false, if_false, hdel]
            rfl
          · refine Or.inr ⟨he, ?_⟩
            simp only [verifyCaptcha, Program.run_bind, hlock, hl, Option.isSome_none, hget, hcode,
              Option.map_some, ne_eq, Ne.symm he, not_false_eq_true, if_true]

theorem run_consumeCaptcha :
    Program.run exec (consumeCaptcha scene mobile) w =
      (.ok (), w.withRedis (drop w.redis (.code scene mobile))) := by
  have hdel : Program.run exec (del (captchaKey scene mobile)) w = _ :=
    run_del_key hw (.code scene mobile)
  simp only [consumeCaptcha, Program.run_bind, hdel]
  rfl

end Operations

/-- The keys of a scene and a mobile, and the interval key of the mobile. -/
def onPair (scene : SmsScene) (mobile : Bytes) (key : Bytes) : Prop :=
  key = (ServiceKey.code scene mobile).text ∨ key = (ServiceKey.count scene mobile).text ∨
    key = (ServiceKey.lock scene mobile).text ∨ key = (ServiceKey.interval mobile).text

section Touches

variable {P : Cmd → Prop} {key : Bytes}

theorem uses_redisCall {c : RedisCmd} (h : P (.redis c)) : Program.Uses P (redisCall c) := by
  refine Program.Uses.bind ⟨h, fun _ => trivial⟩ fun reply => ?_
  cases reply <;> trivial

variable (h : ∀ c : RedisCmd, c.key = key → P (.redis c))
include h

theorem uses_existsKey : Program.Uses P (existsKey key) :=
  Program.Uses.bind (uses_redisCall (h _ rfl)) fun _ => trivial

theorem uses_del : Program.Uses P (del key) :=
  Program.Uses.bind (uses_redisCall (h _ rfl)) fun _ => trivial

theorem uses_setPx (value : Bytes) (ttl : Int) : Program.Uses P (setPx key value ttl) := by
  unfold setPx
  split
  · trivial
  · exact uses_redisCall (h _ rfl)

theorem uses_safeTtlSeconds (default : Int) : Program.Uses P (safeTtlSeconds key default) := by
  refine Program.Uses.bind (uses_redisCall (h _ rfl)) fun r => ?_
  cases r <;> trivial

end Touches

section Touches

variable (config : SmsConfig) (scene : SmsScene) (mobile : Bytes)

/-- The command is a Redis command about one of these keys. -/
def Cmd.RedisOn (keys : Bytes → Prop) : Cmd → Prop
  | .redis c => keys c.key
  | _ => False

theorem Cmd.RedisOn.onKeys {keys : Bytes → Prop} (c : Cmd) (h : c.RedisOn keys) : c.OnKeys keys := by
  cases c with
  | redis c => exact h
  | now => trivial
  | sql s => trivial

theorem redisOn_of_key {keys : Bytes → Prop} {key : Bytes} (h : keys key) (c : RedisCmd) (hc : c.key = key) :
    Cmd.RedisOn keys (.redis c) := by
  subst hc
  exact h

theorem uses_sendCaptcha (code : Bytes) :
    Program.Uses (Cmd.RedisOn (onPair scene mobile)) (sendCaptcha config code scene mobile) := by
  have hlock := redisOn_of_key (show onPair scene mobile (lockKey scene mobile) from
    Or.inr (Or.inr (Or.inl rfl)))
  have hinterval := redisOn_of_key (show onPair scene mobile (intervalKey mobile) from
    Or.inr (Or.inr (Or.inr rfl)))
  have hcode := redisOn_of_key (show onPair scene mobile (captchaKey scene mobile) from Or.inl rfl)
  refine Program.Uses.bind (uses_existsKey hlock) fun locked => ?_
  rcases locked with (_ | _) | _
  · refine Program.Uses.bind (uses_existsKey hinterval) fun waiting => ?_
    rcases waiting with (_ | _) | _
    · refine Program.Uses.bind (uses_setPx hcode _ _) fun set => ?_
      cases set with
      | ok _ => exact Program.Uses.bind (uses_setPx hinterval _ _) fun _ => trivial
      | fail _ _ => trivial
    · exact Program.Uses.bind (uses_safeTtlSeconds hinterval _) fun _ => trivial
    · trivial
  · exact Program.Uses.bind (uses_safeTtlSeconds hlock _) fun _ => trivial
  · trivial

theorem uses_verifyCaptcha (input : Bytes) :
    Program.Uses (Cmd.RedisOn (onPair scene mobile)) (verifyCaptcha config scene mobile input) := by
  have hlock := redisOn_of_key (show onPair scene mobile (lockKey scene mobile) from
    Or.inr (Or.inr (Or.inl rfl)))
  have hcount := redisOn_of_key (show onPair scene mobile (verifyCountKey scene mobile) from
    Or.inr (Or.inl rfl))
  have hcode := redisOn_of_key (show onPair scene mobile (captchaKey scene mobile) from Or.inl rfl)
  have hwrong : Program.Uses (Cmd.RedisOn (onPair scene mobile)) (countWrongCode config scene mobile) := by
    refine Program.Uses.bind (uses_redisCall (hcount _ rfl)) fun count => ?_
    cases count with
    | fail _ _ => trivial
    | ok n =>
        refine Program.Uses.bind (uses_redisCall (hcount _ rfl)) fun _ => ?_
        split
        · refine Program.Uses.bind (uses_setPx hlock _ _) fun _ => ?_
          refine Program.Uses.bind (uses_del hcode) fun _ => ?_
          exact Program.Uses.bind (uses_del hcount) fun _ => trivial
        · trivial
  refine Program.Uses.bind (uses_existsKey hlock) fun locked => ?_
  rcases locked with (_ | _) | _
  · refine Program.Uses.bind (uses_redisCall (hcode _ rfl)) fun stored => ?_
    rcases stored with (_ | storedCode) | _
    · trivial
    · show Program.Uses _ (ite _ _ _)
      split
      · exact hwrong
      · exact Program.Uses.bind (uses_del hcount) fun _ => trivial
    · trivial
  · exact Program.Uses.bind (uses_safeTtlSeconds hlock _) fun _ => trivial
  · trivial

theorem uses_consumeCaptcha :
    Program.Uses (Cmd.RedisOn (onPair scene mobile)) (consumeCaptcha scene mobile) :=
  Program.Uses.bind (uses_del (redisOn_of_key (Or.inl rfl))) fun _ => trivial

end Touches

end AccountService
