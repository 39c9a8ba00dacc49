import AccountService.CaptchaSpec
import AccountService.LibraryLog

/-! Runs of `SendCaptcha`, `VerifyCaptcha` and `ConsumeCaptcha`, one after another, each at one instant.
`SmsEffect` says once what a call can do; the invariant of a run and the frame follow from it. -/

namespace AccountService

open Expiring Interaction

/-- A call of `SmsService`. `send` carries the code that `GenerateCaptcha` returns. -/
inductive SmsCall
  | send (scene : SmsScene) (mobile code : Bytes)
  | verify (scene : SmsScene) (mobile input : Bytes)
  | consume (scene : SmsScene) (mobile : Bytes)
  deriving DecidableEq

namespace SmsCall

def scene : SmsCall → SmsScene
  | .send s _ _ | .verify s _ _ | .consume s _ => s

def mobile : SmsCall → Bytes
  | .send _ m _ | .verify _ m _ | .consume _ m => m

/-- The call, with the code of its result. -/
def program (config : SmsConfig) : SmsCall → Action ErrorCode
  | .send scene mobile code => do return (← sendCaptcha config code scene mobile).code
  | .verify scene mobile input => do return (← verifyCaptcha config scene mobile input).code
  | .consume scene mobile => do return (← consumeCaptcha scene mobile).code

end SmsCall

/-- The world after some time. -/
def World.later (w : World) (delay : Nat) : World := { w with clock := w.clock + delay }

structure SmsTurn where
  delay : Nat
  call : SmsCall
  deriving DecidableEq

structure SmsEvent where
  time : Nat
  call : SmsCall
  code : ErrorCode
  deriving DecidableEq

/-- Let time pass, then make the call. -/
def SmsTurn.serve (config : SmsConfig) (turn : SmsTurn) (w : World) : SmsEvent × World :=
  let r := Program.run exec (turn.call.program config) (w.later turn.delay)
  (⟨w.clock + turn.delay, turn.call, r.1⟩, r.2)

/-- The count of wrong codes is absent, or from 1 to below the limit. -/
def CountInRange (config : SmsConfig) (s : Redis) (now : Nat) : Prop :=
  ∀ scene mobile e, seen s now (.count scene mobile) = some e →
    ∃ n deadline, e = ⟨toString n, deadline⟩ ∧ 1 ≤ n ∧ n < config.maxRetryCount.toInt

/-- The result and the Redis a call can end with. -/
inductive SmsEffect (config : SmsConfig) (w : World) : SmsCall → ErrorCode → Redis → Prop
  | sendRefused {scene mobile code}
      (h : (seen w.redis w.clock (.lock scene mobile)).isSome ∨
        (seen w.redis w.clock (.interval mobile)).isSome) :
      SmsEffect config w (.send scene mobile code) .rateLimited w.redis
  | sent {scene mobile code} (hlock : seen w.redis w.clock (.lock scene mobile) = none) :
      SmsEffect config w (.send scene mobile code) .ok (sentRedis config w scene mobile code)
  | verifyRefused {scene mobile input} (h : (seen w.redis w.clock (.lock scene mobile)).isSome) :
      SmsEffect config w (.verify scene mobile input) .rateLimited w.redis
  | expired {scene mobile input} (hlock : seen w.redis w.clock (.lock scene mobile) = none) :
      SmsEffect config w (.verify scene mobile input) .captchaExpired w.redis
  | accepted {scene mobile input e} (hlock : seen w.redis w.clock (.lock scene mobile) = none)
      (hcode : seen w.redis w.clock (.code scene mobile) = some e) (he : e.value = input) :
      SmsEffect config w (.verify scene mobile input) .ok (drop w.redis (.count scene mobile))
  | counted {scene mobile input n} (hlock : seen w.redis w.clock (.lock scene mobile) = none)
      (hn : 1 ≤ n) (hmax : n < config.maxRetryCount.toInt) :
      SmsEffect config w (.verify scene mobile input) .captchaWrong (countedRedis config w scene mobile n)
  | locked {scene mobile input n} (hlock : seen w.redis w.clock (.lock scene mobile) = none) :
      SmsEffect config w (.verify scene mobile input) .accountLocked (lockedRedis config w scene mobile n)
  | consumed {scene mobile} :
      SmsEffect config w (.consume scene mobile) .ok (drop w.redis (.code scene mobile))

section Effect

variable {config : SmsConfig} (hc : config.Usable) {w : World} (hw : w.redisFaults = [])
include hc hw

theorem sendCaptcha_effect (scene : SmsScene) (mobile code : Bytes) :
    ∃ s, (Program.run exec (sendCaptcha config code scene mobile) w).2 = w.withRedis s ∧
      SmsEffect config w (.send scene mobile code)
        (Program.run exec (sendCaptcha config code scene mobile) w).1.code s := by
  rcases run_sendCaptcha hc hw scene mobile code with ⟨hlive, message, hrun⟩ | ⟨hlock, -, hrun⟩
  · rw [hrun]
    exact ⟨w.redis, rfl, .sendRefused hlive⟩
  · rw [hrun]
    exact ⟨_, rfl, .sent hlock⟩

theorem verifyCaptcha_effect (hcount : CountInRange config w.redis w.clock) (scene : SmsScene)
    (mobile input : Bytes) :
    ∃ s, (Program.run exec (verifyCaptcha config scene mobile input) w).2 = w.withRedis s ∧
      SmsEffect config w (.verify scene mobile input)
        (Program.run exec (verifyCaptcha config scene mobile input) w).1.code s := by
  rcases run_verifyCaptcha config hw scene mobile input with ⟨hlive, message, hrun⟩ |
    ⟨hlock, ⟨-, message, hrun⟩ | ⟨e, hcode, ⟨he, hrun⟩ | ⟨-, hrun⟩⟩⟩
  · rw [hrun]
    exact ⟨w.redis, rfl, .verifyRefused hlive⟩
  · rw [hrun]
    exact ⟨w.redis, rfl, .expired hlock⟩
  · rw [hrun]
    exact ⟨_, rfl, .accepted hlock hcode he⟩
  · have hn : ∃ n : Int, 0 ≤ n ∧ n < config.maxRetryCount.toInt ∧
        (seen w.redis w.clock (.count scene mobile) = none ∧ n = 0 ∨
          ∃ deadline, seen w.redis w.clock (.count scene mobile) = some ⟨toString n, deadline⟩) := by
      cases hseen : seen w.redis w.clock (.count scene mobile) with
      | none => exact ⟨0, le_refl _, hc.maxRetry, Or.inl ⟨rfl, rfl⟩⟩
      | some e =>
          obtain ⟨n, deadline, rfl, hpos, hlt⟩ := hcount scene mobile e hseen
          exact ⟨n, by omega, hlt, Or.inr ⟨deadline, rfl⟩⟩
    obtain ⟨n, hpos, hlt, hn⟩ := hn
    rw [hrun]
    rcases run_countWrongCode hc hw scene mobile hpos hlt hn with ⟨hmore, m, hr⟩ | ⟨-, m, hr⟩
    · rw [hr]
      exact ⟨_, rfl, .counted hlock (by omega) hmore⟩
    · rw [hr]
      exact ⟨_, rfl, .locked hlock⟩

/-- **Effect.** Every call ends as `SmsEffect` says. -/
theorem smsCall_effect (hcount : CountInRange config w.redis w.clock) (call : SmsCall) :
    ∃ s, (Program.run exec (call.program config) w).2 = w.withRedis s ∧
      SmsEffect config w call (Program.run exec (call.program config) w).1 s := by
  cases call with
  | send scene mobile code =>
      simpa only [SmsCall.program, Program.run_bind, Program.run_pure] using sendCaptcha_effect hc hw scene mobile code
  | verify scene mobile input =>
      simpa only [SmsCall.program, Program.run_bind, Program.run_pure] using
        verifyCaptcha_effect hc hw hcount scene mobile input
  | consume scene mobile =>
      simp only [SmsCall.program, Program.run_bind, Program.run_pure, run_consumeCaptcha hw]
      exact ⟨_, rfl, .consumed⟩

end Effect

section After

variable {config : SmsConfig} {w : World} {call : SmsCall} {code : ErrorCode} {s : Redis}

/-- The count stays in its range. -/
theorem SmsEffect.countInRange (h : SmsEffect config w call code s)
    (hcount : CountInRange config w.redis w.clock) : CountInRange config s w.clock := by
  intro scene mobile e he
  cases h with
  | sendRefused _ => exact hcount scene mobile e he
  | verifyRefused _ => exact hcount scene mobile e he
  | expired _ => exact hcount scene mobile e he
  | sent _ =>
      simp only [sentRedis, seen_store, reduceCtorEq, if_false] at he
      exact hcount scene mobile e he
  | consumed =>
      simp only [seen_drop, reduceCtorEq, if_false] at he
      exact hcount scene mobile e he
  | accepted _ _ _ =>
      rw [seen_drop] at he
      split at he
      · cases he
      · exact hcount scene mobile e he
  | counted _ hn hmax =>
      rw [countedRedis, seen_store] at he
      split at he
      · split at he
        · cases he
          exact ⟨_, _, rfl, hn, hmax⟩
        · cases he
      · exact hcount scene mobile e he
  | locked _ =>
      simp only [lockedRedis, countedRedis, seen_drop, seen_store, reduceCtorEq, if_false] at he
      split at he
      · cases he
      · exact hcount scene mobile e he

/-- A live lock goes with no code and no count. -/
def LockExcludes (s : Redis) (now : Nat) : Prop :=
  ∀ scene mobile, (seen s now (.lock scene mobile)).isSome →
    seen s now (.code scene mobile) = none ∧ seen s now (.count scene mobile) = none

theorem SmsEffect.lockExcludes (h : SmsEffect config w call code s)
    (hlock : LockExcludes w.redis w.clock) : LockExcludes s w.clock := by
  intro scene mobile hsome
  cases h with
  | sendRefused _ => exact hlock scene mobile hsome
  | verifyRefused _ => exact hlock scene mobile hsome
  | expired _ => exact hlock scene mobile hsome
  | @sent scene' mobile' _ hnone =>
      simp only [sentRedis, seen_store, reduceCtorEq, if_false] at hsome ⊢
      have hne : ServiceKey.code scene mobile ≠ .code scene' mobile' := by
        intro hkey
        cases hkey
        rw [hnone] at hsome
        cases hsome
      rw [if_neg hne]
      exact hlock scene mobile hsome
  | consumed =>
      simp only [seen_drop, reduceCtorEq, if_false] at hsome ⊢
      refine ⟨?_, (hlock scene mobile hsome).2⟩
      split
      · rfl
      · exact (hlock scene mobile hsome).1
  | accepted _ _ _ =>
      simp only [seen_drop, reduceCtorEq, if_false] at hsome ⊢
      refine ⟨(hlock scene mobile hsome).1, ?_⟩
      split
      · rfl
      · exact (hlock scene mobile hsome).2
  | @counted scene' mobile' _ _ hnone _ _ =>
      simp only [countedRedis, seen_store, reduceCtorEq, if_false] at hsome ⊢
      have hne : ServiceKey.count scene mobile ≠ .count scene' mobile' := by
        intro hkey
        cases hkey
        rw [hnone] at hsome
        cases hsome
      rw [if_neg hne]
      exact hlock scene mobile hsome
  | @locked scene' mobile' _ _ _ =>
      by_cases hkey : scene = scene' ∧ mobile = mobile'
      · obtain ⟨rfl, rfl⟩ := hkey
        simp [lockedRedis, seen_drop]
      · simp only [lockedRedis, countedRedis, seen_drop, seen_store, reduceCtorEq, if_false,
          ServiceKey.lock.injEq, ServiceKey.code.injEq, ServiceKey.count.injEq, if_neg hkey] at hsome ⊢
        exact hlock scene mobile hsome

/-- A live lock is neither removed nor renewed. -/
theorem SmsEffect.lock_kept (h : SmsEffect config w call code s) {scene : SmsScene} {mobile : Bytes}
    {e : Slot Bytes} (he : seen w.redis w.clock (.lock scene mobile) = some e) :
    seen s w.clock (.lock scene mobile) = some e := by
  cases h with
  | sendRefused _ => exact he
  | verifyRefused _ => exact he
  | expired _ => exact he
  | sent _ => simpa only [sentRedis, seen_store, reduceCtorEq, if_false] using he
  | consumed => simpa only [seen_drop, reduceCtorEq, if_false] using he
  | accepted _ _ _ => simpa only [seen_drop, reduceCtorEq, if_false] using he
  | counted _ _ _ => simpa only [countedRedis, seen_store, reduceCtorEq, if_false] using he
  | @locked scene' mobile' _ _ hnone =>
      have hne : ServiceKey.lock scene mobile ≠ .lock scene' mobile' := by
        intro hkey
        cases hkey
        rw [hnone] at he
        cases he
      simpa only [lockedRedis, countedRedis, seen_drop, seen_store, reduceCtorEq, if_false,
        if_neg hne] using he

/-- While the lock is live, sending and verifying are refused. -/
theorem SmsEffect.refused (h : SmsEffect config w call code s)
    (hlock : (seen w.redis w.clock (.lock call.scene call.mobile)).isSome)
    (hcall : ∀ scene mobile, call ≠ .consume scene mobile) : code = .rateLimited := by
  cases h with
  | sendRefused _ => rfl
  | verifyRefused _ => rfl
  | consumed => exact absurd rfl (hcall _ _)
  | expired hnone | accepted hnone _ _ | counted hnone _ _ | locked hnone | sent hnone =>
      have hnone' : seen w.redis w.clock (.lock _ _) = none := hnone
      simp only [SmsCall.scene, SmsCall.mobile, hnone'] at hlock
      cases hlock

/-- The verification that locks the pair leaves a lock of the full length. -/
theorem SmsEffect.lock_of_locked {scene : SmsScene} {mobile input : Bytes}
    (h : SmsEffect config w (.verify scene mobile input) .accountLocked s)
    (hpos : 0 < lifetime config.lockSeconds) :
    seen s w.clock (.lock scene mobile) =
      some ⟨ascii "1", some (w.clock + lifetime config.lockSeconds)⟩ := by
  cases h with
  | locked _ =>
      simp only [lockedRedis, seen_drop, seen_store, reduceCtorEq, if_false, if_true]
      exact if_pos (show w.clock < w.clock + lifetime config.lockSeconds by omega)

end After

/-- The pair of an event that locked it. -/
def SmsEvent.Locks (e : SmsEvent) (scene : SmsScene) (mobile : Bytes) : Prop :=
  (∃ input, e.call = .verify scene mobile input) ∧ e.code = .accountLocked

/-- An event at which a pair is asked to send or to verify. -/
def SmsEvent.Asks (e : SmsEvent) (scene : SmsScene) (mobile : Bytes) : Prop :=
  (∃ code, e.call = .send scene mobile code) ∨ ∃ input, e.call = .verify scene mobile input

/-- The invariant of a run. -/
structure LockoutInv (config : SmsConfig) (log : List SmsEvent) (w : World) : Prop where
  faults : w.redisFaults = []
  count : CountInRange config w.redis w.clock
  lock : LockExcludes w.redis w.clock
  held : ∀ e ∈ log, ∀ scene mobile, e.Locks scene mobile →
    e.time ≤ w.clock ∧ (w.clock < e.time + lifetime config.lockSeconds →
      seen w.redis w.clock (.lock scene mobile) =
        some ⟨ascii "1", some (e.time + lifetime config.lockSeconds)⟩)
  refused : ∀ before e between e' after scene mobile, log = before ++ e :: (between ++ e' :: after) →
    e.Locks scene mobile → e'.Asks scene mobile → e'.time < e.time + lifetime config.lockSeconds →
      e'.code = .rateLimited

theorem LockoutInv.later {config : SmsConfig} {log : List SmsEvent} {w : World}
    (h : LockoutInv config log w) (delay : Nat) : LockoutInv config log (w.later delay) where
  faults := h.faults
  count scene mobile e he := h.count scene mobile e (seen_of_later _ _ (Nat.le_add_right _ _) he)
  lock scene mobile hsome := by
    obtain ⟨e, he⟩ := Option.isSome_iff_exists.mp hsome
    have he' : seen w.redis w.clock (.lock scene mobile) = some e :=
      seen_of_later _ _ (Nat.le_add_right _ _) he
    have hnow : (seen w.redis w.clock (.lock scene mobile)).isSome := by
      rw [he']
      rfl
    obtain ⟨hcode, hcount⟩ := h.lock scene mobile hnow
    exact ⟨seen_later_none _ _ (Nat.le_add_right _ _) hcode,
      seen_later_none _ _ (Nat.le_add_right _ _) hcount⟩
  held e he scene mobile hlocks := by
    obtain ⟨htime, hheld⟩ := h.held e he scene mobile hlocks
    refine ⟨le_trans htime (Nat.le_add_right _ _), fun hlt => ?_⟩
    have hlt' : w.clock + delay < e.time + lifetime config.lockSeconds := hlt
    exact seen_later_of_lt _ _ (Nat.le_add_right _ _) (hheld (by omega)) hlt
  refused := h.refused

/-- **Step.** A turn keeps the invariant. -/
theorem LockoutInv.serve {config : SmsConfig} (hc : config.Usable) {log : List SmsEvent} {w : World}
    (h : LockoutInv config log w) (turn : SmsTurn) :
    LockoutInv config (log ++ [(turn.serve config w).1]) (turn.serve config w).2 := by
  have hlater := h.later turn.delay
  obtain ⟨s, hs, heffect⟩ := smsCall_effect hc hlater.faults hlater.count turn.call
  have hworld : (turn.serve config w).2 = (w.later turn.delay).withRedis s := hs
  have hcode : (turn.serve config w).1.code =
      (Program.run exec (turn.call.program config) (w.later turn.delay)).1 := rfl
  rw [hworld]
  refine ⟨hlater.faults, heffect.countInRange hlater.count, heffect.lockExcludes hlater.lock, ?_, ?_⟩
  · intro e he scene mobile hlocks
    rcases List.mem_append.mp he with he | he
    · obtain ⟨htime, hheld⟩ := hlater.held e he scene mobile hlocks
      exact ⟨htime, fun hlt => heffect.lock_kept (hheld hlt)⟩
    · rw [List.mem_singleton] at he
      subst he
      obtain ⟨⟨input, hcall⟩, hlocked⟩ := hlocks
      have hcall' : turn.call = .verify scene mobile input := hcall
      rw [hcode] at hlocked
      rw [hlocked, hcall'] at heffect
      exact ⟨le_refl _, fun _ => heffect.lock_of_locked hc.lock.lifetime_pos⟩
  · intro before e between e' after scene mobile hlog hlocks hasks hlt
    rcases List.eq_nil_or_concat after with rfl | ⟨after, last, rfl⟩
    · -- the later of the two events is this one
      rw [← List.cons_append, ← List.append_assoc] at hlog
      obtain ⟨hlog', he'⟩ := List.append_inj' hlog rfl
      have he' : (turn.serve config w).1 = e' := (List.cons.inj he').1
      subst he'
      have hmem : e ∈ log := by
        rw [hlog']
        simp
      have hheld := (hlater.held e hmem scene mobile hlocks).2 hlt
      rw [hcode]
      have hpair : turn.call.scene = scene ∧ turn.call.mobile = mobile ∧
          ∀ s m, turn.call ≠ .consume s m := by
        rcases hasks with ⟨x, hx⟩ | ⟨x, hx⟩
        · rw [show turn.call = _ from hx]
          exact ⟨rfl, rfl, fun s m hne => by cases hne⟩
        · rw [show turn.call = _ from hx]
          exact ⟨rfl, rfl, fun s m hne => by cases hne⟩
      obtain ⟨rfl, rfl, hconsume⟩ := hpair
      refine heffect.refused ?_ hconsume
      rw [hheld]
      rfl
    · rw [List.concat_eq_append] at hlog
      have hlog' : log ++ [(turn.serve config w).1] =
          (before ++ e :: (between ++ e' :: after)) ++ [last] := by
        rw [hlog]
        simp
      obtain ⟨hlog'', -⟩ := List.append_inj' hlog' rfl
      exact h.refused before e between e' after scene mobile hlog'' hlocks hasks hlt

theorem SmsCall.uses_program (config : SmsConfig) (call : SmsCall) :
    Program.Uses (Cmd.RedisOn (onPair call.scene call.mobile)) (call.program config) := by
  cases call with
  | send scene mobile code => exact Program.Uses.bind (uses_sendCaptcha config scene mobile code) fun _ => trivial
  | verify scene mobile input =>
      exact Program.Uses.bind (uses_verifyCaptcha config scene mobile input) fun _ => trivial
  | consume scene mobile => exact Program.Uses.bind (uses_consumeCaptcha scene mobile) fun _ => trivial

/-- A turn leaves every key alone that is neither of its pair nor the interval key of its mobile. -/
theorem serve_redis_frame (config : SmsConfig) (turn : SmsTurn) (w : World) {k : Bytes}
    (hk : ¬onPair turn.call.scene turn.call.mobile k) : (turn.serve config w).2.redis k = w.redis k :=
  run_redis_frame ((turn.call.uses_program config).mono Cmd.RedisOn.onKeys) hk (w.later turn.delay)

/-- What is promised of the log and the state after a run of calls. -/
structure CaptchaLockout (config : SmsConfig) (log : List SmsEvent) (w : World) : Prop where
  /-- At any time until the next call, a count is absent or from 1 to the limit less one. -/
  count : ∀ now, w.clock ≤ now → ∀ scene mobile e, seen w.redis now (.count scene mobile) = some e →
    ∃ n : Int, e.value = toString n ∧ 1 ≤ n ∧ n ≤ config.maxRetryCount.toInt - 1
  /-- A live lock goes with no code and no count. -/
  lock : ∀ now, w.clock ≤ now → ∀ scene mobile, (seen w.redis now (.lock scene mobile)).isSome →
    seen w.redis now (.code scene mobile) = none ∧ seen w.redis now (.count scene mobile) = none
  /-- After a lock, sending and verifying are refused until the lock seconds have passed. -/
  refused : ∀ before e between e' after scene mobile, log = before ++ e :: (between ++ e' :: after) →
    e.Locks scene mobile → e'.Asks scene mobile → e'.time < e.time + lifetime config.lockSeconds →
      e'.code = .rateLimited
  /-- The next call changes no key of another pair, but for the interval key of its own mobile. -/
  frame : ∀ (turn : SmsTurn) scene mobile, (scene ≠ turn.call.scene ∨ mobile ≠ turn.call.mobile) →
    (turn.serve config w).2.redis (captchaKey scene mobile) = w.redis (captchaKey scene mobile) ∧
    (turn.serve config w).2.redis (verifyCountKey scene mobile) = w.redis (verifyCountKey scene mobile) ∧
    (turn.serve config w).2.redis (lockKey scene mobile) = w.redis (lockKey scene mobile) ∧
    (mobile ≠ turn.call.mobile →
      (turn.serve config w).2.redis (intervalKey mobile) = w.redis (intervalKey mobile))

/-- Redis holds nothing of `SmsService` yet. -/
def NoCaptchas (s : Redis) : Prop :=
  ∀ scene mobile, s (captchaKey scene mobile) = none ∧ s (verifyCountKey scene mobile) = none ∧
    s (lockKey scene mobile) = none ∧ s (intervalKey mobile) = none

theorem LockoutInv.init (config : SmsConfig) {w : World} (hw : w.redisFaults = [])
    (hfresh : NoCaptchas w.redis) : LockoutInv config [] w where
  faults := hw
  count scene mobile e he := by
    rw [seen_of_none (hfresh scene mobile).2.1] at he
    cases he
  lock scene mobile hsome := by
    rw [seen_of_none (hfresh scene mobile).2.2.1] at hsome
    cases hsome
  held e he := absurd he List.not_mem_nil
  refused before e between e' after scene mobile hlog := by
    exact absurd hlog (by simp)

/-- **Lockout.** Every run of calls over settings that `ValidateConfig` admits keeps the promises of
`CaptchaLockout`. -/
theorem captcha_lockout (config : Config) (hadmitted : config.Admitted) (hbounded : config.sms.Bounded)
    (w : World) (hw : w.redisFaults = []) (hfresh : NoCaptchas w.redis) (turns : List SmsTurn) :
    CaptchaLockout config.sms (history (SmsTurn.serve config.sms) turns w).1
      (history (SmsTurn.serve config.sms) turns w).2 := by
  have hc := hadmitted.usable hbounded
  have hinv : LockoutInv config.sms (history (SmsTurn.serve config.sms) turns w).1
      (history (SmsTurn.serve config.sms) turns w).2 :=
    history_invariant (P := fun _ _ _ => True) (SmsTurn.serve config.sms)
      (LockoutInv.init config.sms hw hfresh) (fun log w turn h _ => h.serve hc turn) turns
      fun _ _ _ _ => trivial
  refine ⟨?_, ?_, hinv.refused, ?_⟩
  · intro now hnow scene mobile e he
    obtain ⟨n, deadline, rfl, hpos, hlt⟩ := hinv.count scene mobile e (seen_of_later _ _ hnow he)
    exact ⟨n, rfl, hpos, by omega⟩
  · intro now hnow scene mobile hsome
    obtain ⟨delay, rfl⟩ := Nat.exists_eq_add_of_le hnow
    exact (hinv.later delay).lock scene mobile hsome
  · intro turn scene mobile hother
    have hne : ∀ k : ServiceKey, k ≠ .code turn.call.scene turn.call.mobile →
        k ≠ .count turn.call.scene turn.call.mobile → k ≠ .lock turn.call.scene turn.call.mobile →
        k ≠ .interval turn.call.mobile →
        (turn.serve config.sms (history (SmsTurn.serve config.sms) turns w).2).2.redis k.text =
          (history (SmsTurn.serve config.sms) turns w).2.redis k.text := by
      intro k hcode hcount hlock hinterval
      refine serve_redis_frame config.sms turn _ ?_
      rintro (h | h | h | h)
      · exact hcode (ServiceKey.text_injective h)
      · exact hcount (ServiceKey.text_injective h)
      · exact hlock (ServiceKey.text_injective h)
      · exact hinterval (ServiceKey.text_injective h)
    have hpair : ¬(scene = turn.call.scene ∧ mobile = turn.call.mobile) := by
      rintro ⟨rfl, rfl⟩
      simp at hother
    refine ⟨hne (.code scene mobile) ?_ ?_ ?_ ?_, hne (.count scene mobile) ?_ ?_ ?_ ?_,
      hne (.lock scene mobile) ?_ ?_ ?_ ?_, fun hm => hne (.interval mobile) ?_ ?_ ?_ ?_⟩ <;>
      simp_all

/-- A code is sent, and five wrong ones are presented. -/
def lockingTurns : List SmsTurn :=
  ⟨0, .send .login (ascii "13800138000") (ascii "123456")⟩ ::
    List.replicate 5 ⟨nanosPerSecond, .verify .login (ascii "13800138000") (ascii "000000")⟩

theorem captcha_lockout_sample :
    (history (SmsTurn.serve ({} : Config).sms) lockingTurns (emptyWorld 0)).1.map (·.code) =
        [.ok, .captchaWrong, .captchaWrong, .captchaWrong, .captchaWrong, .accountLocked] ∧
      CaptchaLockout ({} : Config).sms
        (history (SmsTurn.serve ({} : Config).sms) lockingTurns (emptyWorld 0)).1
        (history (SmsTurn.serve ({} : Config).sms) lockingTurns (emptyWorld 0)).2 :=
  ⟨by decide +kernel,
    captcha_lockout {} (by decide +kernel) (by decide) (emptyWorld 0) rfl (fun _ _ => ⟨rfl, rfl, rfl, rfl⟩) lockingTurns⟩

end AccountService
