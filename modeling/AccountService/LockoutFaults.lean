import AccountService.CaptchaLockout

/-! The captcha lockout when commands of Redis fail. A locking verification sets the lock, deletes the code
and deletes the counter, and looks at none of the three results. What keeps a locked pair closed is that the
code is gone, or that the lock is there and outlasts it. -/

namespace AccountService

open Expiring Interaction

/-- Of the commands from now on, the one at this place fails. -/
def FailsAt (faults : List (Option String)) (i : Nat) : Prop := faults[i]?.join.isSome

instance (faults : List (Option String)) (i : Nat) : Decidable (FailsAt faults i) :=
  inferInstanceAs (Decidable (_ = _))

/-- The world after a command that failed or only read. -/
def World.tick (w : World) : World := { w with redisFaults := w.redisFaults.tail }

@[simp] theorem World.tick_redis (w : World) : w.tick.redis = w.redis := rfl

@[simp] theorem World.tick_clock (w : World) : w.tick.clock = w.clock := rfl

@[simp] theorem World.tick_redisFaults (w : World) : w.tick.redisFaults = w.redisFaults.tail := rfl

section Commands

variable {w : World}

theorem run_redisCall_fails (h : FailsAt w.redisFaults 0) (c : RedisCmd) :
    ∃ code message, Program.run exec (redisCall c) w = (.fail code message, w.tick) := by
  obtain ⟨clock, redis, db, redisFaults, sqlFaults⟩ := w
  rcases redisFaults with _ | ⟨_ | what, rest⟩
  · cases h
  · cases h
  · exact ⟨_, _, rfl⟩

theorem execRedis_works (h : ¬ FailsAt w.redisFaults 0) (c : RedisCmd) :
    w.execRedis c = ((c.apply w.clock w.redis).1, w.tick.withRedis (c.apply w.clock w.redis).2) := by
  obtain ⟨clock, redis, db, redisFaults, sqlFaults⟩ := w
  rcases redisFaults with _ | ⟨_ | what, rest⟩
  · rfl
  · rfl
  · exact absurd rfl h

theorem run_redisCall_works (h : ¬ FailsAt w.redisFaults 0) (c : RedisCmd) :
    Program.run exec (redisCall c) w =
      (match (c.apply w.clock w.redis).1 with
        | .ok reply => .ok reply
        | .error what => .failWith .serviceUnavailable what,
        w.tick.withRedis (c.apply w.clock w.redis).2) := by
  simp only [redisCall, Program.run_bind, run_redis, execRedis_works h]
  cases (c.apply w.clock w.redis).1 <;> rfl

variable (w)

/-- A command changes its own key at most, and takes its place among the failures. -/
theorem run_redisCall_keeps (c : RedisCmd) :
    ∃ s, (Program.run exec (redisCall c) w).2 = w.tick.withRedis s ∧ ∀ k, k ≠ c.key → s k = w.redis k := by
  by_cases hfails : FailsAt w.redisFaults 0
  · obtain ⟨_, _, hrun⟩ := run_redisCall_fails hfails c
    exact ⟨w.redis, by rw [hrun]; rfl, fun _ _ => rfl⟩
  · rw [run_redisCall_works hfails]
    exact ⟨_, rfl, fun k hk => RedisCmd.apply_ne c w.clock w.redis hk⟩

theorem run_exists_faulty (k : ServiceKey) :
    (∃ code message, Program.run exec (existsKey k.text) w = (.fail code message, w.tick)) ∨
      (¬ FailsAt w.redisFaults 0 ∧
        Program.run exec (existsKey k.text) w = (.ok (seen w.redis w.clock k).isSome, w.tick)) := by
  rw [existsKey, Program.run_bind]
  by_cases hfails : FailsAt w.redisFaults 0
  · obtain ⟨_, _, hrun⟩ := run_redisCall_fails hfails (.existsKey k.text)
    rw [hrun]
    exact Or.inl ⟨_, _, rfl⟩
  · rw [run_redisCall_works hfails]
    refine Or.inr ⟨hfails, ?_⟩
    cases h : w.redis.look w.clock k.text <;> simp [RedisCmd.apply, seen, h, Result.map] <;> rfl

theorem run_get_faulty (k : ServiceKey) :
    (∃ code message, Program.run exec (get k.text) w = (.fail code message, w.tick)) ∨
      (¬ FailsAt w.redisFaults 0 ∧
        Program.run exec (get k.text) w = (.ok ((seen w.redis w.clock k).map (·.value)), w.tick)) := by
  by_cases hfails : FailsAt w.redisFaults 0
  · exact Or.inl (run_redisCall_fails hfails (.get k.text))
  · exact Or.inr ⟨hfails, run_redisCall_works hfails (.get k.text)⟩

theorem run_pttl_faulty (k : ServiceKey) : (Program.run exec (pttl k.text) w).2 = w.tick := by
  by_cases hfails : FailsAt w.redisFaults 0
  · obtain ⟨_, _, hrun⟩ := run_redisCall_fails hfails (.pttl k.text)
    exact congrArg Prod.snd hrun
  · refine (congrArg Prod.snd (run_redisCall_works hfails (.pttl k.text))).trans ?_
    simp only [RedisCmd.apply]
    split
    · rfl
    · rfl
    · rfl

theorem run_safeTtlSeconds_faulty (k : ServiceKey) (default : Int) :
    ∃ s, Program.run exec (safeTtlSeconds k.text default) w = (s, w.tick) := by
  simp only [safeTtlSeconds, Program.run_bind]
  rw [run_pttl_faulty]
  cases (Program.run exec (pttl k.text) w).1 <;> exact ⟨_, rfl⟩

theorem run_del_faulty (k : ServiceKey) :
    (Program.run exec (del k.text) w).2 =
      w.tick.withRedis (if FailsAt w.redisFaults 0 then w.redis else drop w.redis k) := by
  rw [del, Program.run_bind]
  by_cases hfails : FailsAt w.redisFaults 0
  · obtain ⟨_, _, hrun⟩ := run_redisCall_fails hfails (.del k.text)
    rw [hrun, if_pos hfails]
    rfl
  · rw [run_redisCall_works hfails, if_neg hfails]
    rfl

/-- A lifetime that is not positive is refused before Redis is asked. -/
theorem run_setPx_faulty (k : ServiceKey) (value : Bytes) (ttl : Int) :
    (Program.run exec (setPx k.text value ttl) w).2 =
      if 0 < ttl then
        w.tick.withRedis (if FailsAt w.redisFaults 0 then w.redis
          else store w.redis k ⟨value, some (deadlineAfter w.clock ttl)⟩)
      else w := by
  by_cases httl : 0 < ttl
  · rw [setPx, if_neg (by omega), if_pos httl]
    by_cases hfails : FailsAt w.redisFaults 0
    · obtain ⟨_, _, hrun⟩ := run_redisCall_fails hfails (.psetex k.text ttl value)
      rw [hrun, if_pos hfails]
      rfl
    · rw [run_redisCall_works hfails, if_neg hfails]
      simp only [RedisCmd.apply, if_pos httl]
      rfl
  · rw [setPx, if_pos (by omega), if_neg httl]
    rfl

theorem del_slot (j k : ServiceKey) :
    (Program.run exec (del k.text) w).2.redis j.text =
      if j = k ∧ ¬ FailsAt w.redisFaults 0 then none else w.redis j.text := by
  rw [run_del_faulty, World.withRedis_redis]
  by_cases hfails : FailsAt w.redisFaults 0
  · rw [if_pos hfails, if_neg fun h => h.2 hfails]
  · rw [if_neg hfails]
    by_cases hjk : j = k
    · rw [if_pos ⟨hjk, hfails⟩, hjk]
      exact Function.update_self ..
    · rw [if_neg fun h => hjk h.1]
      exact Store.erase_ne _ _ _ fun h => hjk (ServiceKey.text_injective h)

/-- A deletion leaves the other slots alone. -/
theorem del_other {j k : ServiceKey} (h : j ≠ k) :
    (Program.run exec (del k.text) w).2.redis j.text = w.redis j.text := by
  rw [del_slot, if_neg fun hjk => h hjk.1]

theorem setPx_slot (j k : ServiceKey) (value : Bytes) (ttl : Int) :
    (Program.run exec (setPx k.text value ttl) w).2.redis j.text =
      if j = k ∧ 0 < ttl ∧ ¬ FailsAt w.redisFaults 0 then some ⟨value, some (deadlineAfter w.clock ttl)⟩
      else w.redis j.text := by
  rw [run_setPx_faulty]
  by_cases httl : 0 < ttl
  · rw [if_pos httl, World.withRedis_redis]
    by_cases hfails : FailsAt w.redisFaults 0
    · rw [if_pos hfails, if_neg fun h => h.2.2 hfails]
    · rw [if_neg hfails]
      by_cases hjk : j = k
      · rw [if_pos ⟨hjk, httl, hfails⟩, hjk]
        exact Function.update_self ..
      · rw [if_neg fun h => hjk h.1]
        exact Store.put_ne _ _ _ _ fun h => hjk (ServiceKey.text_injective h)
  · rw [if_neg httl, if_neg fun h => httl h.2.1]

theorem run_setPx_fail (k : ServiceKey) (value : Bytes) (ttl : Int) {code : ErrorCode} {message : String}
    (h : (Program.run exec (setPx k.text value ttl) w).1 = .fail code message) :
    (Program.run exec (setPx k.text value ttl) w).2.redis = w.redis := by
  rw [run_setPx_faulty]
  split
  · next httl =>
      split
      · rfl
      · next hworks =>
          rw [setPx, if_neg (by omega), run_redisCall_works hworks] at h
          simp only [RedisCmd.apply, if_pos httl, reduceCtorEq] at h
  · rfl

end Commands

/-- The lock of a locking verification is set: `SetPx` takes its lifetime, and the fifth command works. -/
def LockSet (config : SmsConfig) (faults : List (Option String)) : Prop :=
  0 < millis config.lockSeconds ∧ ¬ FailsAt faults 4

/-- The code is deleted, by the command behind that one. -/
def CodeDeleted (config : SmsConfig) (faults : List (Option String)) : Prop :=
  ¬ FailsAt faults (if 0 < millis config.lockSeconds then 5 else 4)

instance (config : SmsConfig) (faults : List (Option String)) : Decidable (LockSet config faults) :=
  inferInstanceAs (Decidable (_ ∧ _))

instance (config : SmsConfig) (faults : List (Option String)) : Decidable (CodeDeleted config faults) :=
  inferInstanceAs (Decidable (¬ _))

/-- The lock and the code of a pair are as they were. -/
structure SlotsKept (scene : SmsScene) (mobile : Bytes) (s s' : Redis) : Prop where
  lock : s' (lockKey scene mobile) = s (lockKey scene mobile)
  code : s' (captchaKey scene mobile) = s (captchaKey scene mobile)

/-- What the locking makes of them, commands failing as in `faults`. -/
structure SlotsLocked (config : SmsConfig) (scene : SmsScene) (mobile : Bytes) (faults : List (Option String))
    (now : Nat) (s s' : Redis) : Prop where
  lock : s' (lockKey scene mobile) =
    if LockSet config faults then some ⟨ascii "1", some (deadlineAfter now (millis config.lockSeconds))⟩
    else s (lockKey scene mobile)
  code : s' (captchaKey scene mobile) = if CodeDeleted config faults then none else s (captchaKey scene mobile)

section Counting

theorem SlotsLocked.of_kept {config : SmsConfig} {scene : SmsScene} {mobile : Bytes}
    {faults : List (Option String)} {now : Nat} {s t u : Redis} (h : SlotsLocked config scene mobile faults now t u)
    (hkept : SlotsKept scene mobile s t) : SlotsLocked config scene mobile faults now s u :=
  ⟨hkept.lock ▸ h.lock, hkept.code ▸ h.code⟩

variable (config : SmsConfig) (scene : SmsScene) (mobile : Bytes)

theorem lockKey_eq : lockKey scene mobile = (ServiceKey.lock scene mobile).text := rfl

theorem captchaKey_eq : captchaKey scene mobile = (ServiceKey.code scene mobile).text := rfl

theorem intervalKey_eq : intervalKey mobile = (ServiceKey.interval mobile).text := rfl

theorem verifyCountKey_eq : verifyCountKey scene mobile = (ServiceKey.count scene mobile).text := rfl

theorem lock_ne_count : lockKey scene mobile ≠ verifyCountKey scene mobile :=
  fun h => nomatch (ServiceKey.text_injective h : ServiceKey.lock scene mobile = .count scene mobile)

theorem code_ne_count : captchaKey scene mobile ≠ verifyCountKey scene mobile :=
  fun h => nomatch (ServiceKey.text_injective h : ServiceKey.code scene mobile = .count scene mobile)

theorem failsAt_drop (faults : List (Option String)) (n i : Nat) :
    FailsAt (faults.drop n) i ↔ FailsAt faults (n + i) := by
  rw [FailsAt, FailsAt, List.getElem?_drop]

/-- The last three commands of a locking verification, when the first four are over. -/
theorem slotsLocked {faults : List (Option String)} {w afterSet afterCode : World}
    (hfaults : w.redisFaults = faults.drop 4)
    (hset : afterSet = (Program.run exec (setPx (ServiceKey.lock scene mobile).text (ascii "1")
      (millis config.lockSeconds)) w).2)
    (hcode : afterCode = (Program.run exec (del (ServiceKey.code scene mobile).text) afterSet).2) :
    SlotsLocked config scene mobile faults w.clock w.redis
      (Program.run exec (del (ServiceKey.count scene mobile).text) afterCode).2.redis := by
  have hleft : afterSet.redisFaults = if 0 < millis config.lockSeconds then faults.drop 5 else faults.drop 4 := by
    rw [hset, run_setPx_faulty]
    split
    · show w.redisFaults.tail = _
      rw [hfaults, List.tail_drop]
    · exact hfaults
  constructor
  · calc (Program.run exec (del (ServiceKey.count scene mobile).text) afterCode).2.redis
          (ServiceKey.lock scene mobile).text
        = afterCode.redis (ServiceKey.lock scene mobile).text := del_other _ (by simp)
      _ = afterSet.redis (ServiceKey.lock scene mobile).text := by rw [hcode, del_other _ (by simp)]
      _ = _ := by
          rw [hset, setPx_slot]
          refine if_congr ?_ rfl rfl
          rw [hfaults, failsAt_drop, LockSet]
          exact and_iff_right rfl
  · calc (Program.run exec (del (ServiceKey.count scene mobile).text) afterCode).2.redis
          (ServiceKey.code scene mobile).text
        = afterCode.redis (ServiceKey.code scene mobile).text := del_other _ (by simp)
      _ = if CodeDeleted config faults then none else afterSet.redis (ServiceKey.code scene mobile).text := by
          rw [hcode, del_slot, hleft]
          refine if_congr ?_ rfl rfl
          rw [CodeDeleted]
          split <;> simp [failsAt_drop]
      _ = _ := by
          have hkept : afterSet.redis (ServiceKey.code scene mobile).text = w.redis (captchaKey scene mobile) := by
            rw [hset, setPx_slot, if_neg fun h => nomatch h.1]
            rfl
          rw [hkept]

/-- **A wrong code.** It is not accepted; the slots of the pair change only when it locks. -/
theorem run_countWrongCode_faulty {faults : List (Option String)} {w : World}
    (hfaults : w.redisFaults = faults.drop 2) :
    let r := Program.run exec (countWrongCode config scene mobile) w
    r.1.code ≠ .ok ∧
      ((r.1.code ≠ .accountLocked ∧ SlotsKept scene mobile w.redis r.2.redis) ∨
        (r.1.code = .accountLocked ∧ SlotsLocked config scene mobile faults w.clock w.redis r.2.redis)) := by
  obtain ⟨counted, hcounted, hkeep⟩ := run_redisCall_keeps w (.incr (verifyCountKey scene mobile))
  have hkept : SlotsKept scene mobile w.redis counted :=
    ⟨hkeep _ (lock_ne_count scene mobile), hkeep _ (code_ne_count scene mobile)⟩
  simp only [countWrongCode, Program.run_bind, incr]
  rw [hcounted]
  cases (Program.run exec (redisCall (.incr (verifyCountKey scene mobile))) w).1 with
  | fail code message => exact ⟨by simp, Or.inl ⟨by simp, hkept⟩⟩
  | ok count =>
      obtain ⟨renewed, hrenewed, hkeep'⟩ := run_redisCall_keeps (w.tick.withRedis counted)
        (.pexpire (verifyCountKey scene mobile) (millis config.retryTtlSeconds))
      have hkept' : SlotsKept scene mobile w.redis renewed :=
        ⟨(hkeep' _ (lock_ne_count scene mobile)).trans hkept.lock,
          (hkeep' _ (code_ne_count scene mobile)).trans hkept.code⟩
      have hleft : ((w.tick.withRedis counted).tick.withRedis renewed).redisFaults = faults.drop 4 := by
        show w.redisFaults.tail.tail = _
        rw [hfaults, List.tail_drop, List.tail_drop]
      simp only [Program.run_bind, pExpire]
      rw [hrenewed]
      split
      · have hslots := slotsLocked config scene mobile hleft rfl rfl
        simp only [Program.run_bind]
        exact ⟨by simp, Or.inr ⟨by simp, hslots.of_kept hkept'⟩⟩
      · exact ⟨by simp, Or.inl ⟨by simp, hkept'⟩⟩

/-- **VerifyCaptcha.** Under any failures it ends in one of three ways: the slots of the pair are kept, and
the code is accepted only if there is one and no lock; or the pair is locked. -/
theorem run_verifyCaptcha_faulty (w : World) (input : Bytes) :
    let r := Program.run exec (verifyCaptcha config scene mobile input) w
    (r.1.code ≠ .accountLocked ∧ SlotsKept scene mobile w.redis r.2.redis ∧
      (r.1.code = .ok → seen w.redis w.clock (.lock scene mobile) = none ∧
        ∃ e, seen w.redis w.clock (.code scene mobile) = some e ∧ e.value = input)) ∨
    (r.1.code = .accountLocked ∧ SlotsLocked config scene mobile w.redisFaults w.clock w.redis r.2.redis ∧
      seen w.redis w.clock (.lock scene mobile) = none ∧
      ∃ e, seen w.redis w.clock (.code scene mobile) = some e ∧ e.value ≠ input) := by
  simp only [verifyCaptcha, Program.run_bind, lockKey_eq, captchaKey_eq, verifyCountKey_eq]
  rcases run_exists_faulty w (.lock scene mobile) with ⟨_, _, hexists⟩ | ⟨-, hexists⟩
  · rw [hexists]
    exact Or.inl ⟨by simp, ⟨rfl, rfl⟩, by simp⟩
  · rw [hexists]
    cases hlock : seen w.redis w.clock (.lock scene mobile) with
    | some e =>
        obtain ⟨ttl, httl⟩ := run_safeTtlSeconds_faulty w.tick (.lock scene mobile) config.retryTtlSeconds.toInt
        simp only [Option.isSome_some, Program.run_bind, httl]
        exact Or.inl ⟨by simp, ⟨rfl, rfl⟩, by simp⟩
    | none =>
        simp only [Option.isSome_none, Program.run_bind]
        rcases run_get_faulty w.tick (.code scene mobile) with ⟨_, _, hget⟩ | ⟨-, hget⟩
        · rw [hget]
          exact Or.inl ⟨by simp, ⟨rfl, rfl⟩, by simp⟩
        · rw [hget, World.tick_redis, World.tick_clock]
          cases hcode : seen w.redis w.clock (.code scene mobile) with
          | none =>
              simp only [Option.map_none]
              exact Or.inl ⟨by simp, ⟨rfl, rfl⟩, by simp⟩
          | some e =>
              simp only [Option.map_some]
              by_cases he : input = e.value
              · simp only [ne_eq, he, not_true_eq_false, if_false, Program.run_bind]
                refine Or.inl ⟨by simp [Result.code], ⟨?_, ?_⟩, fun _ => ⟨trivial, e, rfl, rfl⟩⟩
                · have hne : ServiceKey.lock scene mobile ≠ .count scene mobile := by simp
                  exact del_other w.tick.tick hne
                · have hne : ServiceKey.code scene mobile ≠ .count scene mobile := by simp
                  exact del_other w.tick.tick hne
              · rw [if_pos he]
                have hfaults : w.tick.tick.redisFaults = w.redisFaults.drop 2 := by
                  show w.redisFaults.tail.tail = _
                  rw [← List.drop_one, ← List.drop_one, List.drop_drop]
                obtain ⟨hrefused, ⟨hcode', hkept⟩ | ⟨hcode', hlocked⟩⟩ :=
                  run_countWrongCode_faulty config scene mobile hfaults
                · exact Or.inl ⟨hcode', hkept, fun hok => absurd hok hrefused⟩
                · exact Or.inr ⟨hcode', hlocked, trivial, e, rfl, fun h => he h.symm⟩

/-- **SendCaptcha.** Without a success the slots are kept. -/
theorem run_sendCaptcha_faulty (w : World) (code : Bytes) :
    let r := Program.run exec (sendCaptcha config code scene mobile) w
    r.1.code = .ok ∨ SlotsKept scene mobile w.redis r.2.redis := by
  simp only [sendCaptcha, Program.run_bind, lockKey_eq, captchaKey_eq, intervalKey_eq]
  rcases run_exists_faulty w (.lock scene mobile) with ⟨_, _, hexists⟩ | ⟨-, hexists⟩
  · rw [hexists]
    exact Or.inr ⟨rfl, rfl⟩
  · rw [hexists]
    cases (seen w.redis w.clock (.lock scene mobile)).isSome with
    | true =>
        obtain ⟨ttl, httl⟩ := run_safeTtlSeconds_faulty w.tick (.lock scene mobile) config.lockSeconds.toInt
        simp only [Program.run_bind, httl]
        exact Or.inr ⟨rfl, rfl⟩
    | false =>
        simp only [Program.run_bind]
        rcases run_exists_faulty w.tick (.interval mobile) with ⟨_, _, hwait⟩ | ⟨-, hwait⟩
        · rw [hwait]
          exact Or.inr ⟨rfl, rfl⟩
        · rw [hwait]
          cases (seen w.tick.redis w.tick.clock (.interval mobile)).isSome with
          | true =>
              obtain ⟨ttl, httl⟩ :=
                run_safeTtlSeconds_faulty w.tick.tick (.interval mobile) config.sendIntervalSeconds.toInt
              simp only [Program.run_bind, httl]
              exact Or.inr ⟨rfl, rfl⟩
          | false =>
              simp only [Program.run_bind]
              cases hset : (Program.run exec (setPx (ServiceKey.code scene mobile).text code
                  (millis config.codeTtlSeconds)) w.tick.tick).1 with
              | fail code' message =>
                  have hredis := run_setPx_fail w.tick.tick (.code scene mobile) code _ hset
                  exact Or.inr ⟨congrFun hredis _, congrFun hredis _⟩
              | ok _ =>
                  simp only [Program.run_bind, doSend]
                  exact Or.inl rfl

/-- **ConsumeCaptcha.** The lock is kept, and the code is kept or gone. -/
theorem run_consumeCaptcha_faulty (w : World) :
    let s := (Program.run exec (consumeCaptcha scene mobile) w).2.redis
    s (lockKey scene mobile) = w.redis (lockKey scene mobile) ∧
      (s (captchaKey scene mobile) = w.redis (captchaKey scene mobile) ∨ s (captchaKey scene mobile) = none) := by
  simp only [consumeCaptcha, Program.run_bind, captchaKey_eq, lockKey_eq]
  refine ⟨del_other w (by simp), ?_⟩
  rw [Program.run_pure, del_slot]
  split
  · exact Or.inr rfl
  · exact Or.inl rfl

end Counting

/-- A call, some time after the one before, and which of its commands fail. -/
structure FaultyTurn where
  delay : Nat
  call : SmsCall
  redisFaults : List (Option String) := []

/-- The world in which the call is made. -/
def FaultyTurn.world (turn : FaultyTurn) (w : World) : World :=
  { w.later turn.delay with redisFaults := turn.redisFaults }

def FaultyTurn.serve (config : SmsConfig) (turn : FaultyTurn) (w : World) : SmsEvent × World :=
  let r := Program.run exec (turn.call.program config) (turn.world w)
  (⟨w.clock + turn.delay, turn.call, r.1⟩, r.2)

/-- A code of the pair has been accepted. -/
def SmsEvent.Accepts (e : SmsEvent) (scene : SmsScene) (mobile : Bytes) : Prop :=
  (∃ input, e.call = .verify scene mobile input) ∧ e.code = .ok

/-- A code has been sent to the pair. -/
def SmsEvent.Sent (e : SmsEvent) (scene : SmsScene) (mobile : Bytes) : Prop :=
  (∃ code, e.call = .send scene mobile code) ∧ e.code = .ok

/-- A call that sends a code verifies none. -/
theorem SmsEvent.Sent.call_ne {e : SmsEvent} {scene : SmsScene} {mobile : Bytes} (h : e.Sent scene mobile)
    (scene' : SmsScene) (mobile' input : Bytes) : e.call ≠ .verify scene' mobile' input := by
  obtain ⟨⟨code, hsend⟩, -⟩ := h
  rw [hsend]
  exact fun hcall => nomatch hcall

/-- Once the pair is locked, no code of it is accepted before another one has been sent. -/
def LockRespected (scene : SmsScene) (mobile : Bytes) (log : List SmsEvent) : Prop :=
  ∀ before e between e' after, log = before ++ e :: (between ++ e' :: after) →
    e.Locks scene mobile → e'.Accepts scene mobile → ∃ sent ∈ between, sent.Sent scene mobile

/-- The code a pair holds, if any, expires no later than a lock that is set now. -/
def Outlasted (config : SmsConfig) (scene : SmsScene) (mobile : Bytes) (w : World) : Prop :=
  ∀ e, seen w.redis w.clock (.code scene mobile) = some e →
    ∃ d, e.deadline = some d ∧ d ≤ deadlineAfter w.clock (millis config.lockSeconds)

/-- A locking verification closes the pair for good: it deletes the code, or it sets a lock that outlasts
the code. -/
def FaultyTurn.Closes (config : SmsConfig) (scene : SmsScene) (mobile : Bytes) (turn : FaultyTurn) (w : World) :
    Prop :=
  CodeDeleted config turn.redisFaults ∨
    LockSet config turn.redisFaults ∧ Outlasted config scene mobile (turn.world w)

/-- From now on, whenever a code is there so is a lock. -/
def Guarded (scene : SmsScene) (mobile : Bytes) (s : Redis) (now : Nat) : Prop :=
  ∀ later, now ≤ later → (seen s later (.code scene mobile)).isSome → (seen s later (.lock scene mobile)).isSome

section Runs

variable {config : SmsConfig} {scene : SmsScene} {mobile : Bytes}

theorem Guarded.later {s : Redis} {now later : Nat} (h : Guarded scene mobile s now) (hle : now ≤ later) :
    Guarded scene mobile s later :=
  fun t ht => h t (le_trans hle ht)

theorem Guarded.of_kept {s s' : Redis} {now : Nat} (h : Guarded scene mobile s now)
    (hkept : SlotsKept scene mobile s s') : Guarded scene mobile s' now := by
  intro later hle
  have hcode : seen s' later (.code scene mobile) = seen s later (.code scene mobile) :=
    Store.look_congr _ _ _ hkept.code
  have hlock : seen s' later (.lock scene mobile) = seen s later (.lock scene mobile) :=
    Store.look_congr _ _ _ hkept.lock
  rw [hcode, hlock]
  exact h later hle

theorem guarded_of_none {s : Redis} (now : Nat) (h : s (captchaKey scene mobile) = none) :
    Guarded scene mobile s now := by
  intro later _ hsome
  rw [seen_of_none (k := .code scene mobile) h] at hsome
  cases hsome

theorem le_deadlineAfter (now : Nat) (ttl : Int) : now ≤ deadlineAfter now ttl := Nat.le_add_right _ _

theorem seen_expiring {s : Redis} {k : ServiceKey} {v : Bytes} {d : Nat} (h : s k.text = some ⟨v, some d⟩)
    (now : Nat) : seen s now k = if now < d then some ⟨v, some d⟩ else none := by
  rw [seen, Store.look, h]
  exact if_congr Iff.rfl rfl rfl

theorem seen_later_of_live {s : Redis} {k : ServiceKey} {e : Slot Bytes} {now later : Nat} (hle : now ≤ later)
    (h : seen s now k = some e) (hlive : e.Live later) : seen s later k = some e := by
  rw [seen, Store.look_later s k.text hle, show s.look now k.text = some e from h]
  exact Option.filter_eq_some_iff.mpr ⟨rfl, decide_eq_true hlive⟩

/-- The pair is guarded behind a locking verification that closes it, and behind no other. -/
theorem guarded_iff {faults : List (Option String)} {s s' : Redis} {now : Nat} {e : Slot Bytes}
    (hlocked : SlotsLocked config scene mobile faults now s s') (hnone : seen s now (.lock scene mobile) = none)
    (hcode : seen s now (.code scene mobile) = some e) :
    Guarded scene mobile s' now ↔
      CodeDeleted config faults ∨ LockSet config faults ∧
        ∃ d, e.deadline = some d ∧ d ≤ deadlineAfter now (millis config.lockSeconds) := by
  by_cases hdeleted : CodeDeleted config faults
  · exact iff_of_true (guarded_of_none now (hlocked.code.trans (if_pos hdeleted))) (Or.inl hdeleted)
  have hkept : ∀ later, seen s' later (.code scene mobile) = seen s later (.code scene mobile) := fun later =>
    Store.look_congr _ _ _ (hlocked.code.trans (if_neg hdeleted))
  by_cases hset : LockSet config faults
  · have hlock : s' (lockKey scene mobile) =
        some ⟨ascii "1", some (deadlineAfter now (millis config.lockSeconds))⟩ := hlocked.lock.trans (if_pos hset)
    constructor
    · intro hguarded
      refine Or.inr ⟨hset, ?_⟩
      by_contra hshort
      -- at the moment the lock expires the code is still there
      have hlive : e.Live (deadlineAfter now (millis config.lockSeconds)) := by
        cases hd : e.deadline with
        | none => simp only [Slot.Live, hd]
        | some d =>
            simp only [Slot.Live, hd]
            exact not_le.mp fun hle => hshort ⟨d, hd, hle⟩
      have hle := le_deadlineAfter now (millis config.lockSeconds)
      have hsome := hguarded _ hle (by rw [hkept, seen_later_of_live hle hcode hlive]; rfl)
      rw [seen_expiring hlock, if_neg (lt_irrefl _)] at hsome
      cases hsome
    · rintro (hgone | ⟨-, d, hd, hle⟩) later hlater hsome
      · exact absurd hgone hdeleted
      · rw [hkept] at hsome
        obtain ⟨e', he'⟩ := Option.isSome_iff_exists.mp hsome
        have heq := seen_of_later _ _ hlater he'
        rw [hcode] at heq
        cases heq
        have hlive : e.Live later := Store.live_of_look he'
        simp only [Slot.Live, hd] at hlive
        rw [seen_expiring hlock, if_pos (lt_of_lt_of_le hlive hle)]
        rfl
  · have hlock : seen s' now (.lock scene mobile) = none :=
      (Store.look_congr _ _ _ (hlocked.lock.trans (if_neg hset))).trans hnone
    refine iff_of_false (fun hguarded => ?_) (fun h => h.elim hdeleted fun h => hset h.1)
    have hsome := hguarded now le_rfl (by rw [hkept, hcode]; rfl)
    rw [hlock] at hsome
    cases hsome

theorem FaultyTurn.serve_eq {α : Type} {turn : FaultyTurn} {p : Action (Result α)} (w : World)
    (hp : turn.call.program config = do return (← p).code) :
    turn.serve config w = (⟨w.clock + turn.delay, turn.call, (Program.run exec p (turn.world w)).1.code⟩,
      (Program.run exec p (turn.world w)).2) := by
  rw [FaultyTurn.serve, hp, Program.run_bind]
  rfl

/-- A call for another pair keeps the slots of this one. -/
theorem slotsKept_of_other (config : SmsConfig) (scene : SmsScene) (mobile : Bytes) (turn : FaultyTurn) (w : World)
    (h : ¬ (turn.call.scene = scene ∧ turn.call.mobile = mobile)) :
    SlotsKept scene mobile w.redis (turn.serve config w).2.redis := by
  have hframe : ∀ k : ServiceKey, ¬ onPair turn.call.scene turn.call.mobile k.text →
      (turn.serve config w).2.redis k.text = w.redis k.text := fun k hk =>
    run_redis_frame ((turn.call.uses_program config).mono Cmd.RedisOn.onKeys) hk (turn.world w)
  constructor
  · refine hframe (.lock scene mobile) ?_
    rintro (hkey | hkey | hkey | hkey) <;> cases ServiceKey.text_injective hkey
    exact h ⟨rfl, rfl⟩
  · refine hframe (.code scene mobile) ?_
    rintro (hkey | hkey | hkey | hkey) <;> cases ServiceKey.text_injective hkey
    exact h ⟨rfl, rfl⟩

/-- What a call does to a pair: it sends it a code, or forgets its code, or leaves it as it is, or locks it. -/
inductive PairEffect (config : SmsConfig) (scene : SmsScene) (mobile : Bytes) (turn : FaultyTurn) (w : World)
    (e : SmsEvent) (s : Redis) : Prop
  | sent (h : e.Sent scene mobile)
  | forgot (hcall : e.call = .consume scene mobile)
      (hlock : s (lockKey scene mobile) = w.redis (lockKey scene mobile)) (hcode : s (captchaKey scene mobile) = none)
  | kept (hlocks : ¬ e.Locks scene mobile) (hslots : SlotsKept scene mobile w.redis s)
      (haccepts : e.Accepts scene mobile → seen w.redis (turn.world w).clock (.lock scene mobile) = none ∧
        (seen w.redis (turn.world w).clock (.code scene mobile)).isSome)
  | locked (hlocks : e.Locks scene mobile)
      (hslots : SlotsLocked config scene mobile turn.redisFaults (turn.world w).clock w.redis s)
      (hnone : seen w.redis (turn.world w).clock (.lock scene mobile) = none) {code : Slot Bytes}
      (hcode : seen w.redis (turn.world w).clock (.code scene mobile) = some code)

/-- **Effect.** Every call ends as `PairEffect` says, whatever commands fail. -/
theorem serve_pairEffect (config : SmsConfig) (scene : SmsScene) (mobile : Bytes) (turn : FaultyTurn) (w : World) :
    PairEffect config scene mobile turn w (turn.serve config w).1 (turn.serve config w).2.redis := by
  have hpair := slotsKept_of_other config scene mobile turn w
  obtain ⟨delay, call, faults⟩ := turn
  by_cases hother : call.scene = scene ∧ call.mobile = mobile
  · obtain ⟨rfl, rfl⟩ := hother
    cases call with
    | send scene mobile code =>
        rw [FaultyTurn.serve_eq (p := sendCaptcha config code scene mobile) w rfl]
        rcases run_sendCaptcha_faulty config scene mobile (FaultyTurn.world ⟨delay, .send scene mobile code, faults⟩ w)
          code with hok | hkept
        · exact .sent ⟨⟨code, rfl⟩, hok⟩
        · exact .kept (fun h => by obtain ⟨⟨_, hcall⟩, -⟩ := h; cases hcall) hkept
            fun h => by obtain ⟨⟨_, hcall⟩, -⟩ := h; cases hcall
    | verify scene mobile input =>
        rw [FaultyTurn.serve_eq (p := verifyCaptcha config scene mobile input) w rfl]
        rcases run_verifyCaptcha_faulty config scene mobile
          (FaultyTurn.world ⟨delay, .verify scene mobile input, faults⟩ w) input with
          ⟨hcode, hkept, haccepts⟩ | ⟨hcode, hlocked, hnone, e, he, -⟩
        · refine .kept (fun h => hcode h.2) hkept fun h => ?_
          obtain ⟨hnone, e, he, -⟩ := haccepts h.2
          exact ⟨hnone, Option.isSome_iff_exists.mpr ⟨e, he⟩⟩
        · exact .locked ⟨⟨input, rfl⟩, hcode⟩ hlocked hnone he
    | consume scene mobile =>
        rw [FaultyTurn.serve_eq (p := consumeCaptcha scene mobile) w rfl]
        obtain ⟨hlock, hcode | hcode⟩ := run_consumeCaptcha_faulty scene mobile
          (FaultyTurn.world ⟨delay, .consume scene mobile, faults⟩ w)
        · exact .kept (fun h => by obtain ⟨⟨_, hcall⟩, -⟩ := h; cases hcall) ⟨hlock, hcode⟩
            fun h => by obtain ⟨⟨_, hcall⟩, -⟩ := h; cases hcall
        · exact .forgot rfl hlock hcode
  · refine .kept ?_ (hpair hother) ?_
    · rintro ⟨⟨input, hcall⟩, -⟩
      cases hcall
      exact hother ⟨rfl, rfl⟩
    · rintro ⟨⟨input, hcall⟩, -⟩
      cases hcall
      exact absurd ⟨rfl, rfl⟩ hother

/-- A locking call leaves the pair guarded exactly when it closes it. -/
theorem guarded_iff_closes {turn : FaultyTurn} {w : World} (hlocks : (turn.serve config w).1.Locks scene mobile) :
    Guarded scene mobile (turn.serve config w).2.redis (turn.serve config w).2.clock ↔
      turn.Closes config scene mobile w := by
  have hclock : (turn.serve config w).2.clock = (turn.world w).clock := run_clock _ _
  rw [hclock]
  obtain ⟨⟨input, hverify⟩, hlocked⟩ := hlocks
  cases serve_pairEffect config scene mobile turn w with
  | sent h => exact absurd hverify (h.call_ne _ _ _)
  | forgot hcall _ _ =>
      rw [hcall] at hverify
      cases hverify
  | kept hkept _ _ => exact absurd ⟨⟨input, hverify⟩, hlocked⟩ hkept
  | locked _ hslots hnone hcode =>
      rw [guarded_iff hslots hnone hcode, FaultyTurn.Closes, Outlasted]
      refine or_congr Iff.rfl (and_congr Iff.rfl ?_)
      constructor
      · intro hd e he
        cases hcode.symm.trans he
        exact hd
      · exact fun houtlasted => houtlasted _ hcode

/-- A guarded pair stays guarded until a code is sent to it. -/
theorem guarded_serve {turn : FaultyTurn} {w : World} (h : Guarded scene mobile w.redis w.clock)
    (hcloses : (turn.serve config w).1.Locks scene mobile → turn.Closes config scene mobile w) :
    (turn.serve config w).1.Sent scene mobile ∨
      Guarded scene mobile (turn.serve config w).2.redis (turn.serve config w).2.clock := by
  have hclock : (turn.serve config w).2.clock = w.clock + turn.delay := run_clock _ _
  have hlater : Guarded scene mobile w.redis (turn.serve config w).2.clock :=
    h.later (hclock ▸ Nat.le_add_right _ _)
  cases serve_pairEffect config scene mobile turn w with
  | sent hsent => exact Or.inl hsent
  | forgot _ _ hcode => exact Or.inr (guarded_of_none _ hcode)
  | kept _ hslots _ => exact Or.inr (hlater.of_kept hslots)
  | locked hlocks _ _ _ => exact Or.inr ((guarded_iff_closes hlocks).mpr (hcloses hlocks))

/-- A guarded pair accepts no code. -/
theorem guarded_refuses {turn : FaultyTurn} {w : World} (h : Guarded scene mobile w.redis w.clock) :
    ¬ (turn.serve config w).1.Accepts scene mobile := by
  rintro ⟨⟨input, hverify⟩, hok⟩
  cases serve_pairEffect config scene mobile turn w with
  | sent h => exact absurd hverify (h.call_ne _ _ _)
  | forgot hcall _ _ =>
      rw [hcall] at hverify
      cases hverify
  | kept _ _ haccepts =>
      obtain ⟨hnone, hcode⟩ := haccepts ⟨⟨input, hverify⟩, hok⟩
      have hlock := h (turn.world w).clock (Nat.le_add_right _ _) hcode
      rw [hnone] at hlock
      cases hlock
  | locked hlocks _ _ _ =>
      have hlocked := hlocks.2
      rw [hok] at hlocked
      cases hlocked

/-- The invariant of a run whose locking calls close the pair. -/
structure LockKeptInv (scene : SmsScene) (mobile : Bytes) (log : List SmsEvent) (w : World) : Prop where
  respected : LockRespected scene mobile log
  guarded : ∀ before e after, log = before ++ e :: after → e.Locks scene mobile →
    (∃ sent ∈ after, sent.Sent scene mobile) ∨ Guarded scene mobile w.redis w.clock

theorem LockKeptInv.init (scene : SmsScene) (mobile : Bytes) (w : World) : LockKeptInv scene mobile [] w where
  respected before e between e' after hlog := by simp at hlog
  guarded before e after hlog := by simp at hlog

/-- **Step.** A call keeps the invariant, if it closes the pair whenever it locks it. -/
theorem LockKeptInv.serve {log : List SmsEvent} {w : World} (h : LockKeptInv scene mobile log w)
    (turn : FaultyTurn)
    (hcloses : (turn.serve config w).1.Locks scene mobile → turn.Closes config scene mobile w) :
    LockKeptInv scene mobile (log ++ [(turn.serve config w).1]) (turn.serve config w).2 where
  respected before e between e' after hlog hlocks haccepts := by
    rw [← List.cons_append, ← List.append_assoc] at hlog
    rcases snoc_eq_append_cons hlog with ⟨hbefore, rfl⟩ | ⟨rest, -, hrest⟩
    · rcases h.guarded before e between hbefore hlocks with hsent | hguarded
      · exact hsent
      · exact absurd haccepts (guarded_refuses hguarded)
    · refine h.respected before e between e' rest ?_ hlocks haccepts
      rw [hrest, List.append_assoc, List.cons_append]
  guarded before e after hlog hlocks := by
    rcases snoc_eq_append_cons hlog with ⟨-, rfl⟩ | ⟨rest, rfl, hrest⟩
    · exact Or.inr ((guarded_iff_closes hlocks).mpr (hcloses hlocks))
    · rcases h.guarded before e rest hrest hlocks with ⟨sent, hmem, hsent⟩ | hguarded
      · exact Or.inl ⟨sent, List.mem_append_left _ hmem, hsent⟩
      · rcases guarded_serve hguarded hcloses with hsent | hnext
        · exact Or.inl ⟨_, List.mem_append_right _ (List.mem_singleton_self _), hsent⟩
        · exact Or.inr hnext

/-- A pair that is not guarded can be opened: at some moment its code is there and no lock is. -/
theorem accepted_of_not_guarded (config : SmsConfig) {w : World} (h : ¬ Guarded scene mobile w.redis w.clock) :
    ∃ turn : FaultyTurn, (turn.serve config w).1.Accepts scene mobile := by
  simp only [Guarded, not_forall] at h
  obtain ⟨later, hle, hcode, hlock⟩ := h
  obtain ⟨e, he⟩ := Option.isSome_iff_exists.mp hcode
  have hnone : seen w.redis later (.lock scene mobile) = none := Option.not_isSome_iff_eq_none.mp hlock
  refine ⟨⟨later - w.clock, .verify scene mobile e.value, []⟩, ⟨e.value, rfl⟩, ?_⟩
  rw [FaultyTurn.serve_eq (p := verifyCaptcha config scene mobile e.value) w rfl]
  have hclock : (FaultyTurn.world ⟨later - w.clock, .verify scene mobile e.value, []⟩ w).clock = later :=
    Nat.add_sub_of_le hle
  generalize hworld : FaultyTurn.world ⟨later - w.clock, .verify scene mobile e.value, []⟩ w = v at hclock ⊢
  have hfaults : v.redisFaults = [] := hworld ▸ rfl
  have hredis : v.redis = w.redis := hworld ▸ rfl
  rw [← hredis, ← hclock] at hnone he
  rcases run_verifyCaptcha config hfaults scene mobile e.value with ⟨hlive, -⟩ |
    ⟨-, ⟨hgone, -⟩ | ⟨e', he', ⟨-, hrun⟩ | ⟨hwrong, -⟩⟩⟩
  · rw [hnone] at hlive
    cases hlive
  · rw [hgone] at he
    cases he
  · rw [hrun]
    rfl
  · rw [he'] at he
    cases he
    exact absurd rfl hwrong

/-- **Lockout under faults.** The lock is respected in every run in which each locking call deletes the code
or sets a lock that outlasts it; and a locking call that does neither can be followed by one that accepts the
code. -/
theorem lockout_under_faults (config : SmsConfig) (scene : SmsScene) (mobile : Bytes) :
    (∀ (w : World) (turns : List FaultyTurn),
      (∀ before turn after, turns = before ++ turn :: after →
        (turn.serve config (history (FaultyTurn.serve config) before w).2).1.Locks scene mobile →
          turn.Closes config scene mobile (history (FaultyTurn.serve config) before w).2) →
        LockRespected scene mobile (history (FaultyTurn.serve config) turns w).1) ∧
    ∀ (w : World) (turn : FaultyTurn), (turn.serve config w).1.Locks scene mobile →
      ¬ turn.Closes config scene mobile w →
        ∃ later, ¬ LockRespected scene mobile (history (FaultyTurn.serve config) [turn, later] w).1 := by
  constructor
  · intro w turns hcloses
    have hinv : LockKeptInv scene mobile (history (FaultyTurn.serve config) turns w).1
        (history (FaultyTurn.serve config) turns w).2 :=
      history_invariant (P := fun _ w turn =>
        (turn.serve config w).1.Locks scene mobile → turn.Closes config scene mobile w) (FaultyTurn.serve config)
        (LockKeptInv.init scene mobile w) (fun _ _ turn h hclose => h.serve turn hclose) turns hcloses
    exact hinv.respected
  · intro w turn hlocks hopen
    obtain ⟨later, haccepts⟩ := accepted_of_not_guarded config fun hguarded =>
      hopen ((guarded_iff_closes hlocks).mp hguarded)
    refine ⟨later, fun hrespected => ?_⟩
    obtain ⟨_, hmem, -⟩ := hrespected [] _ [] _ [] rfl hlocks haccepts
    cases hmem

end Runs

/-- A code is sent, and five wrong ones are presented; of the commands of the last one, those fail that are
given. Then the right code is presented. -/
def lockingUnder (faults : List (Option String)) : List FaultyTurn :=
  ⟨0, .send .login (ascii "13800138000") (ascii "123456"), []⟩ ::
    (List.replicate 4 ⟨0, .verify .login (ascii "13800138000") (ascii "000000"), []⟩ ++
      [⟨0, .verify .login (ascii "13800138000") (ascii "000000"), faults⟩,
        ⟨0, .verify .login (ascii "13800138000") (ascii "123456"), []⟩])

/-- Neither the lock nor the deletion gets through. -/
def lostLock : List (Option String) := [none, none, none, none, some "Connection reset", some "Connection reset"]

/-- The right code is accepted directly after the answer that the pair is locked. -/
theorem lostLock_opens :
    ¬ LockRespected .login (ascii "13800138000")
      (history (FaultyTurn.serve ({} : Config).sms) (lockingUnder lostLock) (emptyWorld 0)).1 := by
  have hlog : (history (FaultyTurn.serve ({} : Config).sms) (lockingUnder lostLock) (emptyWorld 0)).1 =
      (⟨0, .send .login (ascii "13800138000") (ascii "123456"), .ok⟩ ::
        List.replicate 4 ⟨0, .verify .login (ascii "13800138000") (ascii "000000"), .captchaWrong⟩) ++
        ⟨0, .verify .login (ascii "13800138000") (ascii "000000"), .accountLocked⟩ ::
          ([] ++ ⟨0, .verify .login (ascii "13800138000") (ascii "123456"), .ok⟩ :: []) := by decide +kernel
  intro h
  obtain ⟨_, hmem, -⟩ := h _ _ _ _ _ hlog ⟨⟨_, rfl⟩, rfl⟩ ⟨⟨_, rfl⟩, rfl⟩
  cases hmem

/-- The lock is lost, but the code is deleted. -/
theorem lockout_under_faults_sample :
    LockRespected .login (ascii "13800138000") (history (FaultyTurn.serve ({} : Config).sms)
      (lockingUnder [none, none, none, none, some "Connection reset"]) (emptyWorld 0)).1 := by
  refine (lockout_under_faults ({} : Config).sms .login (ascii "13800138000")).1 _ _ fun before turn after h _ => ?_
  have hdeleted : ∀ turn ∈ lockingUnder [none, none, none, none, some "Connection reset"],
      CodeDeleted ({} : Config).sms turn.redisFaults := by decide +kernel
  exact Or.inl (hdeleted turn (h ▸ List.mem_append_right _ List.mem_cons_self))

end AccountService
