import AccountService.ModelAuth

/-! What the calls of `RedisClient` do when no command fails, which keys a program touches, and that the
keys of the service are pairwise different. -/

namespace AccountService

open Expiring Interaction

/-- The world with another Redis. -/
def World.withRedis (w : World) (s : Redis) : World := { w with redis := s }

namespace World

variable (w : World) (s t : Redis)

@[simp] theorem withRedis_redis : (w.withRedis s).redis = s := rfl

@[simp] theorem withRedis_clock : (w.withRedis s).clock = w.clock := rfl

@[simp] theorem withRedis_db : (w.withRedis s).db = w.db := rfl

@[simp] theorem withRedis_redisFaults : (w.withRedis s).redisFaults = w.redisFaults := rfl

@[simp] theorem withRedis_sqlFaults : (w.withRedis s).sqlFaults = w.sqlFaults := rfl

@[simp] theorem withRedis_withRedis : (w.withRedis s).withRedis t = w.withRedis t := rfl

@[simp] theorem withRedis_self : w.withRedis w.redis = w := rfl

end World

section Calls

variable {w : World} (hw : w.redisFaults = []) (key value : Bytes)
include hw

theorem run_redisCall (c : RedisCmd) :
    Program.run exec (redisCall c) w =
      (match (c.apply w.clock w.redis).1 with
        | .ok reply => .ok reply
        | .error what => .failWith .serviceUnavailable what,
        w.withRedis (c.apply w.clock w.redis).2) := by
  simp only [redisCall, Program.run_bind, run_redis, execRedis_eq hw]
  cases (c.apply w.clock w.redis).1 <;> rfl

theorem run_get : Program.run exec (get key) w = (.ok ((w.redis.look w.clock key).map (·.value)), w) := by
  rw [get, run_redisCall hw]
  rfl

theorem run_existsKey : Program.run exec (existsKey key) w = (.ok (w.redis.look w.clock key).isSome, w) := by
  simp only [existsKey, Program.run_bind]
  rw [run_redisCall hw]
  cases h : w.redis.look w.clock key <;> simp [RedisCmd.apply, h, Result.map]

theorem run_setPx {ttl : Int} (httl : 0 < ttl) :
    Program.run exec (setPx key value ttl) w =
      (.ok (), w.withRedis (w.redis.put key ⟨value, some (deadlineAfter w.clock ttl)⟩)) := by
  rw [setPx, if_neg (by omega), run_redisCall hw]
  simp only [RedisCmd.apply, if_pos httl]

theorem run_del :
    Program.run exec (del key) w =
      (.ok (w.redis.look w.clock key).isSome, w.withRedis (w.redis.erase key)) := by
  simp only [del, Program.run_bind]
  rw [run_redisCall hw]
  cases h : w.redis.look w.clock key <;> simp [RedisCmd.apply, h, Result.map]

theorem run_pExpire {ttl : Int} (httl : 0 < ttl) {e : Slot Bytes}
    (he : w.redis.look w.clock key = some e) :
    Program.run exec (pExpire key ttl) w =
      (.ok true, w.withRedis (w.redis.put key ⟨e.value, some (deadlineAfter w.clock ttl)⟩)) := by
  rw [pExpire, run_redisCall hw]
  simp only [RedisCmd.apply, he, if_pos httl]

theorem run_pttl_persistent {v : Bytes} (h : w.redis.look w.clock key = some ⟨v, none⟩) :
    Program.run exec (pttl key) w = (.ok (-1), w) := by
  rw [pttl, run_redisCall hw]
  simp only [RedisCmd.apply, h, World.withRedis_self]

theorem run_pttl_expiring {v : Bytes} {d : Nat} (h : w.redis.look w.clock key = some ⟨v, some d⟩) :
    ∃ ms, 0 ≤ ms ∧ Program.run exec (pttl key) w = (.ok ms, w) := by
  refine ⟨((d - w.clock) / nanosPerMilli : Nat), Int.natCast_nonneg _, ?_⟩
  rw [pttl, run_redisCall hw]
  simp only [RedisCmd.apply, h, World.withRedis_self]

theorem run_pttl : ∃ ms, Program.run exec (pttl key) w = (.ok ms, w) := by
  cases h : w.redis.look w.clock key with
  | none =>
      refine ⟨-2, ?_⟩
      rw [pttl, run_redisCall hw]
      simp only [RedisCmd.apply, h, World.withRedis_self]
  | some e =>
      obtain ⟨v, deadline⟩ := e
      cases deadline with
      | none => exact ⟨-1, run_pttl_persistent hw key h⟩
      | some d =>
          obtain ⟨ms, -, hms⟩ := run_pttl_expiring hw key h
          exact ⟨ms, hms⟩

theorem run_incr_none (hnone : w.redis.look w.clock key = none) :
    Program.run exec (incr key) w = (.ok 1, w.withRedis (w.redis.put key ⟨toString 1, none⟩)) := by
  rw [incr, run_redisCall hw]
  simp only [RedisCmd.apply, hnone]

theorem run_incr_some {n : Int} {deadline : Option Nat} (hn : IsInt64 n) (hn' : IsInt64 (n + 1))
    (hsome : w.redis.look w.clock key = some ⟨toString n, deadline⟩) :
    Program.run exec (incr key) w =
      (.ok (n + 1), w.withRedis (w.redis.put key ⟨toString (n + 1), deadline⟩)) := by
  rw [incr, run_redisCall hw]
  simp only [RedisCmd.apply, hsome, redisInt_toString hn, if_pos hn']

theorem run_safeTtlSeconds (default : Int) : ∃ s, Program.run exec (safeTtlSeconds key default) w = (s, w) := by
  obtain ⟨ms, hms⟩ := run_pttl hw key
  simp only [safeTtlSeconds, Program.run_bind, hms]
  exact ⟨_, rfl⟩

end Calls

/-- A Redis command changes no key but its own. -/
theorem RedisCmd.apply_ne (c : RedisCmd) (now : Nat) (s : Redis) {k : Bytes} (hk : k ≠ c.key) :
    (c.apply now s).2 k = s k := by
  cases c with
  | get _ => rfl
  | existsKey _ => rfl
  | psetex key ttl v =>
      simp only [apply]
      split
      · exact Store.put_ne _ _ _ _ hk
      · rfl
  | del key => exact Store.erase_ne _ _ _ hk
  | pexpire key ttl =>
      simp only [apply]
      split
      · rfl
      · split
        · exact Store.put_ne _ _ _ _ hk
        · exact Store.erase_ne _ _ _ hk
  | pttl key =>
      simp only [apply]
      split <;> rfl
  | incr key =>
      simp only [apply]
      split
      · exact Store.put_ne _ _ _ _ hk
      · split
        · rfl
        · split
          · exact Store.put_ne _ _ _ _ hk
          · rfl

/-- The command is about one of these keys, if it is a Redis command. -/
def Cmd.OnKeys (keys : Bytes → Prop) : Cmd → Prop
  | .redis c => keys c.key
  | _ => True

theorem exec_onKeys {keys : Bytes → Prop} {k : Bytes} (hk : ¬keys k) (c : Cmd) (hc : c.OnKeys keys)
    (w : World) : (exec c w).2.redis k = w.redis k := by
  cases c with
  | now => rfl
  | sql s => rw [exec_sql_redis]
  | redis c =>
      have hne : k ≠ c.key := by
        rintro rfl
        exact hk hc
      simp only [exec, World.execRedis]
      split
      · rfl
      · exact c.apply_ne _ _ hne

/-- **Frame.** A program leaves the keys it does not touch as they are, whatever fails. -/
theorem run_redis_frame {α : Type} {keys : Bytes → Prop} {p : Action α}
    (hp : Program.Uses (Cmd.OnKeys keys) p) {k : Bytes} (hk : ¬keys k) (w : World) :
    (p.run w).2.redis k = w.redis k :=
  Program.run_frame exec (fun w => w.redis k) (exec_onKeys hk) hp w

theorem run_clock {α : Type} (p : Action α) (w : World) : (p.run w).2.clock = w.clock := by
  induction p generalizing w with
  | done a => rfl
  | call c next ih => exact (ih _ _).trans (exec_clock w c)

theorem run_redisFaults {α : Type} (p : Action α) {w : World} (hw : w.redisFaults = []) :
    (p.run w).2.redisFaults = [] := by
  induction p generalizing w with
  | done a => exact hw
  | call c next ih =>
      refine ih _ ?_
      cases c with
      | now => exact hw
      | redis c =>
          show (w.execRedis c).2.redisFaults = []
          rw [execRedis_eq hw]
          exact hw
      | sql s =>
          rw [exec_sql_redisFaults]
          exact hw

/-- The kinds of keys the service uses, with what each is about. -/
inductive ServiceKey
  | code (scene : SmsScene) (mobile : Bytes)
  | interval (mobile : Bytes)
  | count (scene : SmsScene) (mobile : Bytes)
  | lock (scene : SmsScene) (mobile : Bytes)
  | loginFail (mobile : Bytes)
  deriving DecidableEq

/-- The key as Redis sees it. -/
def ServiceKey.text : ServiceKey → Bytes
  | .code scene mobile => captchaKey scene mobile
  | .interval mobile => intervalKey mobile
  | .count scene mobile => verifyCountKey scene mobile
  | .lock scene mobile => lockKey scene mobile
  | .loginFail mobile => AuthService.loginFailKey mobile

/-- A scene name holds no colon, so the mobile starts behind the first one. -/
theorem sceneName_append_inj {s s' : SmsScene} {m m' : Bytes}
    (h : sceneName s ++ ascii ":" ++ m = sceneName s' ++ ascii ":" ++ m') : s = s' ∧ m = m' := by
  have hcut : ∀ (s : SmsScene) (m : Bytes),
      (sceneName s ++ ascii ":" ++ m).takeWhile (· ≠ 58) = sceneName s ∧
        (sceneName s ++ ascii ":" ++ m).dropWhile (· ≠ 58) = 58 :: m := by
    intro s m
    cases s <;> exact ⟨rfl, rfl⟩
  have hname : sceneName s = sceneName s' := by
    rw [← (hcut s m).1, h, (hcut s' m').1]
  have hmobile : (58 : UInt8) :: m = 58 :: m' := by
    rw [← (hcut s m).2, h, (hcut s' m').2]
  refine ⟨?_, (List.cons.inj hmobile).2⟩
  cases s <;> cases s' <;> first | rfl | exact absurd hname (by decide)

/-- The fifth byte of a key tells its kind. -/
def ServiceKey.mark : ServiceKey → UInt8
  | .code _ _ => 99
  | .interval _ => 105
  | .count _ _ => 118
  | .lock _ _ => 108
  | .loginFail _ => 110

theorem ServiceKey.text_mark (k : ServiceKey) : k.text[4]? = some k.mark := by
  cases k <;> rfl

/-- **Keys are unambiguous.** Different things are stored under different keys. -/
theorem ServiceKey.text_injective : Function.Injective ServiceKey.text := by
  intro a b h
  have hmark : a.mark = b.mark := by
    have := congrArg (·[4]?) h
    simp only [text_mark] at this
    exact Option.some.inj this
  cases a with
  | code s m =>
      cases b with
      | code s' m' =>
          simp only [text, captchaKey, List.append_assoc, List.append_cancel_left_eq] at h
          obtain ⟨rfl, rfl⟩ := sceneName_append_inj (by simpa only [List.append_assoc] using h)
          rfl
      | _ => exact absurd hmark (by simp [mark])
  | interval m =>
      cases b with
      | interval m' =>
          simp only [text, intervalKey, List.append_cancel_left_eq] at h
          rw [h]
      | _ => exact absurd hmark (by simp [mark])
  | count s m =>
      cases b with
      | count s' m' =>
          simp only [text, verifyCountKey, List.append_assoc, List.append_cancel_left_eq] at h
          obtain ⟨rfl, rfl⟩ := sceneName_append_inj (by simpa only [List.append_assoc] using h)
          rfl
      | _ => exact absurd hmark (by simp [mark])
  | lock s m =>
      cases b with
      | lock s' m' =>
          simp only [text, lockKey, List.append_assoc, List.append_cancel_left_eq] at h
          obtain ⟨rfl, rfl⟩ := sceneName_append_inj (by simpa only [List.append_assoc] using h)
          rfl
      | _ => exact absurd hmark (by simp [mark])
  | loginFail m =>
      cases b with
      | loginFail m' =>
          simp only [text, AuthService.loginFailKey, List.append_cancel_left_eq] at h
          rw [h]
      | _ => exact absurd hmark (by simp [mark])

end AccountService
