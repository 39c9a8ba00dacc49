import AccountService.RevocationRace

/-! No key of Redis stays for ever. `INCR` makes a counter without a deadline, and the request that made it
gives it one with a `PEXPIRE` of its own, a command or two later. Between the two a counter may be without a
deadline; the invariant is that some request in flight is still going to give it one. -/

namespace AccountService

open AuthService Expiring Interaction

/-- The time to live that a command sets. -/
def Cmd.ttl? : Cmd → Option Int
  | .redis (.psetex _ ttl _) | .redis (.pexpire _ ttl) => some ttl
  | _ => none

/-- The key whose deadline a command moves. -/
def Cmd.stamps? : Cmd → Option Bytes
  | .redis (.pexpire key _) => some key
  | _ => none

/-- The program gives the key a deadline if it finds it without one. -/
def Settles {α : Type} (key : Bytes) : Action α → Prop
  | .done _ => False
  | .call (.redis (.pexpire k _)) next => k = key ∨ ∀ reply, Settles key (next reply)
  | .call (.redis (.pttl k)) next =>
      ∀ reply : Except String Int, (k = key → ∀ ms, reply = .ok ms → ms < 0) → Settles key (next reply)
  | .call _ next => ∀ reply, Settles key (next reply)

/-- The program settles every counter it makes, and no time to live is longer than an `int` of milliseconds. -/
def Tidy {α : Type} : Action α → Prop
  | .done _ => True
  | .call (.redis (.incr k)) next => Settles k (next (.ok 1)) ∧ ∀ reply, Tidy (next reply)
  | .call c next => (∀ ttl ∈ c.ttl?, ttl < 2 ^ 31) ∧ ∀ reply, Tidy (next reply)

theorem Settles.bind {α β : Type} {key : Bytes} {p : Action α} {f : α → Action β} (h : Settles key p) :
    Settles key (p >>= f) := by
  induction p with
  | done a => exact h.elim
  | call c next ih =>
      cases c with
      | now => exact fun reply => ih reply (h reply)
      | sql s => exact fun reply => ih reply (h reply)
      | redis c =>
          cases c with
          | pexpire k ttl => exact h.imp_right fun h reply => ih reply (h reply)
          | pttl k => exact fun reply hreply => ih reply (h reply hreply)
          | _ => exact fun reply => ih reply (h reply)

theorem Tidy.bind {α β : Type} {p : Action α} {f : α → Action β} (hp : Tidy p) (hf : ∀ a, Tidy (f a)) :
    Tidy (p >>= f) := by
  induction p with
  | done a => exact hf a
  | call c next ih =>
      cases c with
      | now => exact ⟨hp.1, fun reply => ih reply (hp.2 reply)⟩
      | sql s => exact ⟨hp.1, fun reply => ih reply (hp.2 reply)⟩
      | redis c =>
          cases c with
          | incr k => exact ⟨hp.1.bind, fun reply => ih reply (hp.2 reply)⟩
          | _ => exact ⟨hp.1, fun reply => ih reply (hp.2 reply)⟩

/-- The command is none for Redis. -/
def Cmd.NoRedis : Cmd → Prop
  | .redis _ => False
  | _ => True

theorem Tidy.of_uses {α : Type} {p : Action α} (h : Program.Uses Cmd.NoRedis p) : Tidy p := by
  induction p with
  | done a => trivial
  | call c next ih =>
      cases c with
      | now => exact ⟨by simp [Cmd.ttl?], fun reply => ih reply (h.2 reply)⟩
      | sql s => exact ⟨by simp [Cmd.ttl?], fun reply => ih reply (h.2 reply)⟩
      | redis c => exact h.1.elim

/-- What `Tidy` asks of the first command. -/
theorem Tidy.next {α : Type} {c : Cmd} {next : c.Reply → Action α} (h : Tidy (.call c next)) :
    (∀ ttl ∈ c.ttl?, ttl < 2 ^ 31) ∧ ∀ reply, Tidy (next reply) := by
  cases c with
  | now => exact h
  | sql s => exact h
  | redis c =>
      cases c with
      | incr k => exact ⟨by simp [Cmd.ttl?], h.2⟩
      | _ => exact h

theorem millis_lt (seconds : Int32) : millis seconds < 2 ^ 31 := Int32.toInt_lt _

theorem tidy_redisCall {c : RedisCmd} (hincr : ∀ k, c ≠ .incr k) (httl : ∀ ttl ∈ (Cmd.redis c).ttl?, ttl < 2 ^ 31) :
    Tidy (redisCall c) := by
  have hperform : Tidy (redis c) := by
    cases c with
    | incr k => exact (hincr k rfl).elim
    | _ => exact ⟨httl, fun _ => trivial⟩
  refine hperform.bind fun reply => ?_
  cases reply <;> trivial

theorem tidy_get (key : Bytes) : Tidy (get key) := tidy_redisCall (by simp) (by simp [Cmd.ttl?])

theorem tidy_existsKey (key : Bytes) : Tidy (existsKey key) :=
  (tidy_redisCall (by simp) (by simp [Cmd.ttl?])).bind fun _ => trivial

theorem tidy_del (key : Bytes) : Tidy (del key) := (tidy_redisCall (by simp) (by simp [Cmd.ttl?])).bind fun _ => trivial

theorem tidy_pttl (key : Bytes) : Tidy (pttl key) := tidy_redisCall (by simp) (by simp [Cmd.ttl?])

theorem tidy_pExpire (key : Bytes) (seconds : Int32) : Tidy (pExpire key (millis seconds)) :=
  tidy_redisCall (by simp) (by simpa [Cmd.ttl?] using millis_lt seconds)

theorem tidy_setPx (key value : Bytes) (seconds : Int32) : Tidy (setPx key value (millis seconds)) := by
  unfold setPx
  split
  · trivial
  · exact tidy_redisCall (by simp) (by simpa [Cmd.ttl?] using millis_lt seconds)

theorem tidy_safeTtlSeconds (key : Bytes) (default : Int) : Tidy (safeTtlSeconds key default) :=
  (tidy_pttl key).bind fun r => by cases r <;> trivial

theorem tidy_orFail {α β : Type} {r : Result α} {next : α → Action (Result β)} (h : ∀ a, Tidy (next a)) :
    Tidy (orFail r next) := by
  cases r with
  | ok a => exact h a
  | fail code message => trivial

theorem tidy_requireValid {α : Type} {check : Except String Unit} {next : Action (Result α)} (h : Tidy next) :
    Tidy (requireValid check next) := by
  cases check with
  | error message => trivial
  | ok _ => exact h

theorem tidy_requireUuid {α : Type} {uuid : Bytes} {next : Action (Result α)} (h : Tidy next) :
    Tidy (UserService.requireUuid uuid next) := by
  unfold UserService.requireUuid
  split
  · trivial
  · exact h

theorem tidy_findByMobile (mobile : Bytes) : Tidy (UserDB.findByMobile mobile) :=
  .of_uses (uses_findByMobile trivial)

theorem tidy_update (user : UserEntity) : Tidy (UserDB.update user) := .of_uses (uses_update trivial)

theorem tidy_deleteByUserId (id : Int) : Tidy (TokenRepository.deleteByUserId id) :=
  .of_uses (uses_deleteByUserId trivial)

theorem tidy_clearLoginFailure (mobile : Bytes) : Tidy (clearLoginFailure mobile) :=
  (tidy_del _).bind fun _ => trivial

/-- After an `INCR` that has made the counter, the program may use that it is the first. -/
theorem tidy_incr_bind {α : Type} {key : Bytes} {f : Result Int → Action α} (hfirst : Settles key (f (.ok 1)))
    (h : ∀ r, Tidy (f r)) : Tidy (incr key >>= f) := by
  refine ⟨hfirst, fun reply => ?_⟩
  cases reply with
  | ok n => exact h (.ok n)
  | error what => exact h _

theorem tidy_countWrongCode (config : SmsConfig) (scene : SmsScene) (mobile : Bytes) :
    Tidy (countWrongCode config scene mobile) := by
  refine tidy_incr_bind (Or.inl rfl) fun r => ?_
  cases r with
  | fail code message => trivial
  | ok count =>
      refine (tidy_pExpire _ _).bind fun _ => ?_
      split
      · exact (tidy_setPx _ _ _).bind fun _ => (tidy_del _).bind fun _ => (tidy_del _).bind fun _ => trivial
      · trivial

theorem tidy_verifyCaptcha (config : SmsConfig) (scene : SmsScene) (mobile input : Bytes) :
    Tidy (verifyCaptcha config scene mobile input) := by
  refine (tidy_existsKey _).bind fun locked => ?_
  rcases locked with (_ | _) | _
  · refine (tidy_get _).bind fun stored => ?_
    rcases stored with (_ | stored) | _
    · trivial
    · dsimp only
      split
      · exact tidy_countWrongCode config scene mobile
      · exact (tidy_del _).bind fun _ => trivial
    · trivial
  · exact (tidy_safeTtlSeconds _ _).bind fun _ => trivial
  · trivial

theorem tidy_sendCaptcha (config : SmsConfig) (code : Bytes) (scene : SmsScene) (mobile : Bytes) :
    Tidy (sendCaptcha config code scene mobile) := by
  refine (tidy_existsKey _).bind fun locked => ?_
  rcases locked with (_ | _) | _
  · refine (tidy_existsKey _).bind fun waiting => ?_
    rcases waiting with (_ | _) | _
    · refine (tidy_setPx _ _ _).bind fun stored => ?_
      cases stored with
      | fail code message => trivial
      | ok _ => exact (tidy_setPx _ _ _).bind fun _ => trivial
    · exact (tidy_safeTtlSeconds _ _).bind fun _ => trivial
    · trivial
  · exact (tidy_safeTtlSeconds _ _).bind fun _ => trivial
  · trivial

section Requests

variable {env : Env} {draws : Draws}

theorem tidy_signIn (user : UserEntity) : Tidy (signIn env draws user) :=
  .of_uses (uses_signIn env draws user trivial fun _ _ => trivial)

theorem tidy_checkLoginFailedAttempts (mobile : Bytes) : Tidy (checkLoginFailedAttempts env mobile) := by
  refine (tidy_get _).bind fun r => ?_
  rcases r with (_ | text) | _
  · trivial
  · dsimp only
    split
    · trivial
    · split
      · exact (tidy_pttl _).bind fun _ => trivial
      · trivial
  · trivial

theorem tidy_recordLoginFailure (hmax : 0 < env.config.login.maxFailedAttempts.toInt) (mobile : Bytes) :
    Tidy (recordLoginFailure env mobile) := by
  refine tidy_incr_bind ?_ fun r => ?_
  · dsimp only
    split
    · exact Or.inl rfl
    · rw [if_pos (by omega)]
      -- a counter without a deadline answers `PTTL` with a negative number
      intro reply hreply
      rcases reply with what | ms
      · exact Or.inl rfl
      · show Settles _ (if decide (ms < 0) = true then _ else _)
        rw [if_pos (decide_eq_true (hreply rfl ms rfl))]
        exact Or.inl rfl
  · cases r with
    | fail code message => trivial
    | ok count =>
        show Tidy (ite _ _ _)
        split
        · exact (tidy_pExpire _ _).bind fun _ => trivial
        · split
          · refine (tidy_pttl _).bind fun ttl => ?_
            have hwindow : ∀ noTtl : Bool, Tidy (if noTtl then (do
                let _ ← pExpire (loginFailKey mobile) (millis env.config.login.failedAttemptsWindow)
                return ()) else return ()) := by
              intro noTtl
              cases noTtl with
              | true => exact (tidy_pExpire _ _).bind fun _ => trivial
              | false => trivial
            exact hwindow _
          · trivial

theorem tidy_sendVerifyCode (mobile : Bytes) (scene : SmsScene) : Tidy (sendVerifyCode env draws mobile scene) := by
  have hsend : Tidy (sendCaptcha env.config.sms draws.captcha scene mobile) := tidy_sendCaptcha _ _ _ _
  refine tidy_requireValid ?_
  cases scene with
  | unKnow => exact hsend
  | register | login | resetPassword | deleteUser =>
      refine (Tidy.of_uses (uses_sqlCall trivial)).bind fun r => tidy_orFail fun known => ?_
      split
      · trivial
      · exact hsend

theorem tidy_register (mobile verifyCode password displayName : Bytes) :
    Tidy (register env draws mobile verifyCode password displayName) := by
  refine tidy_requireValid (tidy_requireValid (tidy_requireValid (tidy_requireValid ?_)))
  refine (tidy_verifyCaptcha _ _ _ _).bind fun r => tidy_orFail fun _ => ?_
  exact (Tidy.of_uses (uses_create trivial trivial)).bind fun r => tidy_orFail fun user => tidy_signIn user

theorem tidy_loginByPassword (hmax : 0 < env.config.login.maxFailedAttempts.toInt) (mobile password : Bytes) :
    Tidy (loginByPassword env draws mobile password) := by
  unfold loginByPassword
  split
  · trivial
  · split
    · trivial
    · refine (tidy_checkLoginFailedAttempts mobile).bind fun attempt => ?_
      cases attempt with
      | none => trivial
      | some attempt =>
          refine (tidy_orFail fun _ => ?_).bind fun _ => trivial
          refine (tidy_findByMobile mobile).bind fun r => ?_
          cases r with
          | fail code message =>
              dsimp only
              split
              · exact (tidy_recordLoginFailure hmax mobile).bind fun _ => trivial
              · trivial
          | ok user =>
              dsimp only
              split
              · trivial
              · split
                · exact (tidy_recordLoginFailure hmax mobile).bind fun _ => trivial
                · exact (tidy_clearLoginFailure mobile).bind fun _ => tidy_signIn user

theorem tidy_loginByCode (mobile verifyCode : Bytes) : Tidy (loginByCode env draws mobile verifyCode) := by
  refine tidy_requireValid (tidy_requireValid ?_)
  refine (tidy_verifyCaptcha _ _ _ _).bind fun r => tidy_orFail fun _ => ?_
  refine (tidy_findByMobile mobile).bind fun r => ?_
  cases r with
  | fail code message =>
      dsimp only
      split <;> trivial
  | ok user =>
      dsimp only
      split
      · trivial
      · exact (tidy_clearLoginFailure mobile).bind fun _ => tidy_signIn user

theorem tidy_resetPassword (mobile verifyCode newPassword : Bytes) :
    Tidy (resetPassword env draws mobile verifyCode newPassword) := by
  refine tidy_requireValid (tidy_requireValid (tidy_requireValid ?_))
  refine (tidy_verifyCaptcha _ _ _ _).bind fun r => tidy_orFail fun _ => ?_
  refine (tidy_findByMobile mobile).bind fun r => ?_
  cases r with
  | fail code message =>
      dsimp only
      split <;> trivial
  | ok user =>
      refine (tidy_update _).bind fun r => tidy_orFail fun _ => ?_
      exact (tidy_deleteByUserId _).bind fun _ => (tidy_clearLoginFailure mobile).bind fun _ => trivial

theorem tidy_deleteUser (userUuid verifyCode : Bytes) : Tidy (UserService.deleteUser env userUuid verifyCode) := by
  refine tidy_requireUuid (tidy_requireValid ?_)
  refine (Tidy.of_uses (uses_findByUUID trivial)).bind fun r => tidy_orFail fun user => ?_
  refine (tidy_verifyCaptcha _ _ _ _).bind fun r => tidy_orFail fun _ => ?_
  refine (tidy_deleteByUserId _).bind fun _ => ?_
  exact (tidy_update _).bind fun r => tidy_orFail fun _ => trivial

/-- A request whose footprint has no key is tidy. -/
theorem tidy_of_footprint {request : Request} (hkeys : ∀ k, ¬request.footprint.keys k) :
    Tidy (handle env draws request) := by
  refine .of_uses ((uses_handle env draws request).mono fun c hc => ?_)
  cases c with
  | redis c => exact hkeys _ hc
  | now => trivial
  | sql s => trivial

theorem tidy_handle (hmax : 0 < env.config.login.maxFailedAttempts.toInt) (request : Request) :
    Tidy (handle env draws request) := by
  cases request with
  | sendVerifyCode mobile scene => exact (tidy_sendVerifyCode mobile scene).bind fun _ => trivial
  | register mobile verifyCode password displayName =>
      exact (tidy_register mobile verifyCode password displayName).bind fun _ => trivial
  | loginByPassword mobile password => exact (tidy_loginByPassword hmax mobile password).bind fun _ => trivial
  | loginByCode mobile verifyCode => exact (tidy_loginByCode mobile verifyCode).bind fun _ => trivial
  | resetPassword mobile verifyCode newPassword =>
      exact (tidy_resetPassword mobile verifyCode newPassword).bind fun _ => trivial
  | deleteUser userUuid verifyCode => exact (tidy_deleteUser userUuid verifyCode).bind fun _ => trivial
  | _ => exact tidy_of_footprint fun _ h => h

end Requests

/-- The longest time to live, in nanoseconds. -/
def longestTtl : Nat := (2 ^ 31 - 1) * nanosPerMilli

/-- The condition on a step: a `PEXPIRE` does not fail. -/
def Stamps (s : Concurrent) : Move Nat → Prop
  | .outside _ => True
  | .thread i => ((s.pending i).bind Cmd.stamps?).isSome = true → s.shared.redisFaults.head?.join = none

instance (s : Concurrent) (m : Move Nat) : Decidable (Stamps s m) :=
  match m with
  | .outside _ => .isTrue trivial
  | .thread _ => by unfold Stamps; infer_instance

/-- The invariant: a key without a deadline is going to get one, and no deadline is far away. -/
structure Mortal (s : Concurrent) : Prop where
  tidy : ∀ p ∈ s.threads, Tidy p
  settled : ∀ k e, s.shared.redis k = some e → e.deadline = none → ∃ p ∈ s.threads, Settles k p
  near : ∀ k e d, s.shared.redis k = some e → e.deadline = some d → d ≤ s.shared.clock + longestTtl

/-- What a command does to the slot of a key: it leaves it, it removes it, or it writes it, and then the slot
keeps its deadline, gets one, or is a new counter. -/
theorem apply_slot_cases (now : Nat) (s : Redis) (c : RedisCmd) (k : Bytes) :
    (c.apply now s).2 k = s k ∨ (c.apply now s).2 k = none ∨
      ∃ e', (c.apply now s).2 k = some e' ∧
        ((∃ e, s k = some e ∧ e'.deadline = e.deadline) ∨
          (∃ ttl ∈ (Cmd.redis c).ttl?, e'.deadline = some (deadlineAfter now ttl)) ∨
          c = .incr k ∧ s.look now k = none ∧ e'.deadline = none) := by
  by_cases hkey : k = c.key
  swap
  · exact Or.inl (c.apply_ne now s hkey)
  subst hkey
  cases c with
  | get k => exact Or.inl rfl
  | existsKey k => exact Or.inl rfl
  | psetex k ttl value =>
      simp only [RedisCmd.apply]
      split
      · exact Or.inr (Or.inr ⟨_, Function.update_self .., Or.inr (Or.inl ⟨ttl, rfl, rfl⟩)⟩)
      · exact Or.inl rfl
  | del k => exact Or.inr (Or.inl (Function.update_self ..))
  | pexpire k ttl =>
      simp only [RedisCmd.apply]
      split
      · exact Or.inl rfl
      · split
        · exact Or.inr (Or.inr ⟨_, Function.update_self .., Or.inr (Or.inl ⟨ttl, rfl, rfl⟩)⟩)
        · exact Or.inr (Or.inl (Function.update_self ..))
  | pttl k =>
      simp only [RedisCmd.apply]
      split <;> exact Or.inl rfl
  | incr k =>
      simp only [RedisCmd.apply]
      split
      · exact Or.inr (Or.inr ⟨_, Function.update_self .., Or.inr (Or.inr ⟨rfl, ‹_›, rfl⟩)⟩)
      · rename_i e hlook
        split
        · exact Or.inl rfl
        · split
          · exact Or.inr (Or.inr ⟨_, Function.update_self .., Or.inl ⟨e, Store.eq_of_look hlook, rfl⟩⟩)
          · exact Or.inl rfl

/-- A command fails and changes nothing, or does what Redis does. -/
theorem execRedis_cases (w : World) (c : RedisCmd) :
    (w.redisFaults.head?.join ≠ none ∧ (∃ what, (w.execRedis c).1 = .error what) ∧
        (w.execRedis c).2.redis = w.redis) ∨
      (w.execRedis c).1 = (c.apply w.clock w.redis).1 ∧ (w.execRedis c).2.redis = (c.apply w.clock w.redis).2 := by
  rcases hfaults : w.redisFaults with _ | ⟨_ | what, rest⟩ <;> simp [World.execRedis, hfaults]

/-- A program that settles a key which stays without a deadline goes on settling it. -/
theorem Settles.next {w : World} {k : Bytes} {e e' : Slot Bytes} {c : Cmd} {next : c.Reply → Thread}
    (h : Settles k (.call c next)) (hstamp : c.stamps?.isSome = true → w.redisFaults.head?.join = none)
    (he : w.redis k = some e) (hd : e.deadline = none) (he' : (exec c w).2.redis k = some e')
    (hd' : e'.deadline = none) : Settles k (next (exec c w).1) := by
  have hlook := Store.look_of_deadline_none w.clock he hd
  cases c with
  | now => exact h _
  | sql s => exact h _
  | redis c =>
      cases c with
      | pexpire key ttl =>
          rcases h with rfl | h
          swap
          · exact h _
          -- the key has got its deadline, or is gone
          exfalso
          rcases execRedis_cases w (.pexpire key ttl) with ⟨hfails, -, -⟩ | ⟨-, hredis⟩
          · exact hfails (hstamp rfl)
          · rw [exec, hredis] at he'
            simp only [RedisCmd.apply, hlook] at he'
            split at he'
            · simp only [Store.put, Function.update_self, Option.some.injEq] at he'
              rw [← he'] at hd'
              cases hd'
            · simp only [Store.erase, Function.update_self, reduceCtorEq] at he'
      | pttl key =>
          refine h _ ?_
          rintro rfl ms hms
          rcases execRedis_cases w (.pttl key) with ⟨-, ⟨what, hreply⟩, -⟩ | ⟨hreply, -⟩
          · rw [exec, hreply] at hms
            cases hms
          · rw [exec, hreply] at hms
            obtain ⟨value, deadline⟩ := e
            obtain rfl : deadline = none := hd
            simp only [RedisCmd.apply, hlook] at hms
            cases hms
            omega
      | _ => exact h _

/-- A program that makes a counter settles it. -/
theorem Tidy.settles_new {w : World} {k : Bytes} {e' : Slot Bytes} {c : Cmd} {next : c.Reply → Thread}
    (h : Tidy (.call c next)) (hold : ∀ e, w.redis k = some e → e.deadline ≠ none)
    (he' : (exec c w).2.redis k = some e') (hd' : e'.deadline = none) : Settles k (next (exec c w).1) := by
  cases c with
  | now => exact absurd hd' (hold e' he')
  | sql s =>
      rw [exec_sql_redis] at he'
      exact absurd hd' (hold e' he')
  | redis c =>
      rw [exec] at he' ⊢
      rcases execRedis_cases w c with ⟨-, -, hsame⟩ | ⟨hreply, hredis⟩
      · rw [hsame] at he'
        exact absurd hd' (hold e' he')
      rw [hredis] at he'
      rw [hreply]
      rcases apply_slot_cases w.clock w.redis c k with hsame | hgone | ⟨e'', he'', hcases⟩
      · rw [hsame] at he'
        exact absurd hd' (hold e' he')
      · rw [hgone] at he'
        cases he'
      · obtain rfl : e'' = e' := Option.some.inj (he''.symm.trans he')
        rcases hcases with ⟨e, he, hkept⟩ | ⟨ttl, -, hstamped⟩ | ⟨rfl, hnone, -⟩
        · exact absurd (hkept ▸ hd') (hold e he)
        · rw [hstamped] at hd'
          cases hd'
        · simp only [RedisCmd.apply, hnone]
          exact h.1

/-- A deadline is an old one, or the time to live of the command away. -/
theorem exec_near {w : World} {k : Bytes} {e' : Slot Bytes} {c : Cmd} {d : Nat} (httl : ∀ ttl ∈ c.ttl?, ttl < 2 ^ 31)
    (hold : ∀ e d, w.redis k = some e → e.deadline = some d → d ≤ w.clock + longestTtl)
    (he' : (exec c w).2.redis k = some e') (hd' : e'.deadline = some d) : d ≤ w.clock + longestTtl := by
  cases c with
  | now => exact hold e' d he' hd'
  | sql s =>
      rw [exec_sql_redis] at he'
      exact hold e' d he' hd'
  | redis c =>
      rw [exec] at he'
      rcases execRedis_cases w c with ⟨-, -, hsame⟩ | ⟨-, hredis⟩
      · rw [hsame] at he'
        exact hold e' d he' hd'
      rw [hredis] at he'
      rcases apply_slot_cases w.clock w.redis c k with hsame | hgone | ⟨e'', he'', hcases⟩
      · rw [hsame] at he'
        exact hold e' d he' hd'
      · rw [hgone] at he'
        cases he'
      · obtain rfl : e'' = e' := Option.some.inj (he''.symm.trans he')
        rcases hcases with ⟨e, he, hkept⟩ | ⟨ttl, hmem, hstamped⟩ | ⟨-, -, hnone⟩
        · exact hold e d he (hkept ▸ hd')
        · obtain rfl : deadlineAfter w.clock ttl = d := Option.some.inj (hstamped.symm.trans hd')
          have hlt := httl ttl hmem
          exact Nat.add_le_add_left (Nat.mul_le_mul_right _ (by omega)) _
        · rw [hnone] at hd'
          cases hd'

/-- **Step.** -/
theorem Mortal.move {s : Concurrent} (h : Mortal s) (m : Move Nat) (hm : Stamps s m) :
    Mortal (System.move exec passTime m s) := by
  rcases System.move_cases exec passTime m s with ⟨i, c, next, rfl, hi, hmove⟩ | ⟨delay, rfl, hmove⟩ | ⟨i, -, -, hmove⟩
  · have hp := h.tidy _ (List.mem_of_getElem? hi)
    have hmem : next (exec c s.shared).1 ∈ s.threads.set i (next (exec c s.shared).1) :=
      List.mem_set (List.getElem?_eq_some_iff.mp hi).1 _
    rw [hmove]
    refine ⟨forall_mem_set h.tidy (hp.next.2 _), fun k e' he' hd' => ?_, fun k e' d he' hd' => ?_⟩
    · by_cases hold : ∃ e, s.shared.redis k = some e ∧ e.deadline = none
      swap
      · exact ⟨_, hmem, hp.settles_new (fun e he hd => hold ⟨e, he, hd⟩) he' hd'⟩
      obtain ⟨e, he, hd⟩ := hold
      obtain ⟨p, hp', hsettles⟩ := h.settled k e he hd
      obtain ⟨j, hj⟩ := List.getElem?_of_mem hp'
      by_cases hij : j = i
      · subst hij
        obtain rfl := Option.some.inj (hi.symm.trans hj)
        have hstamp : c.stamps?.isSome = true → s.shared.redisFaults.head?.join = none := by
          intro hc
          refine hm ?_
          simpa [System.pending, hi, Program.next?] using hc
        exact ⟨_, hmem, hsettles.next hstamp he hd he' hd'⟩
      · refine ⟨p, List.mem_of_getElem? (i := j) ?_, hsettles⟩
        rwa [List.getElem?_set_ne (Ne.symm hij)]
    · rw [exec_clock]
      exact exec_near hp.next.1 (h.near k) he' hd'
  · rw [hmove]
    refine ⟨h.tidy, h.settled, fun k e d he hd => (h.near k e d he hd).trans ?_⟩
    exact Nat.add_le_add_right (Nat.le_add_right _ _) _
  · rwa [hmove]

theorem not_settles_of_done {α : Type} {p : Action α} {k : Bytes} (h : p.next? = none) : ¬Settles k p := by
  cases p with
  | done a => exact id
  | call c next => cases h

/-- **Every key expires.** Requests run at the same time, any commands of theirs failing but the `PEXPIRE`s. A key
without a deadline is one that a request in flight is going to give a deadline to, and all deadlines are within
`2 ^ 31 - 1` milliseconds: when the requests have returned, Redis is empty that much later. -/
theorem keys_expire (env : Env) (hconfig : env.config.Admitted) (requests : List (Draws × Request)) (w : World)
    (hw : ∀ k e, w.redis k = some e → ∃ d, e.deadline = some d ∧ d ≤ w.clock + longestTtl)
    (schedule : List (Move Nat))
    (hstamps : System.Meets exec passTime Stamps schedule ⟨w, requestThreads env requests⟩) :
    let s := interleave schedule ⟨w, requestThreads env requests⟩
    (∀ k e, s.shared.redis k = some e → (∃ d, e.deadline = some d ∧ d ≤ s.shared.clock + longestTtl) ∨
      e.deadline = none ∧ ∃ p ∈ s.threads, Settles k p) ∧
    ((∀ p ∈ s.threads, p.next? = none) →
      ∀ later, s.shared.clock + longestTtl ≤ later → ∀ k, s.shared.redis.look later k = none) := by
  have hstart : Mortal ⟨w, requestThreads env requests⟩ := by
    refine ⟨fun p hp => ?_, fun k e he hd => ?_, fun k e d he hd => ?_⟩
    · obtain ⟨r, -, rfl⟩ := List.mem_map.mp hp
      exact tidy_handle hconfig.login.1 r.2
    · obtain ⟨d, hd', -⟩ := hw k e he
      rw [hd] at hd'
      cases hd'
    · obtain ⟨d', hd', hle⟩ := hw k e he
      rw [hd] at hd'
      exact Option.some.inj hd' ▸ hle
  have hend : Mortal (interleave schedule ⟨w, requestThreads env requests⟩) :=
    System.play_invariant exec passTime (fun s m hs hm => hs.move m hm) schedule _ hstart hstamps
  refine ⟨fun k e he => ?_, fun hdone later hlater k => ?_⟩
  · cases hd : e.deadline with
    | none => exact Or.inr ⟨rfl, hend.settled k e he hd⟩
    | some d => exact Or.inl ⟨d, rfl, hend.near k e d he hd⟩
  · rcases hlook : Store.look _ later k with _ | e
    · rfl
    exfalso
    have he := Store.eq_of_look hlook
    have hlive := Store.live_of_look hlook
    cases hd : e.deadline with
    | none =>
        obtain ⟨p, hp, hsettles⟩ := hend.settled k e he hd
        exact not_settles_of_done (hdone p hp) hsettles
    | some d =>
        have hnear := hend.near k e d he hd
        simp only [Slot.Live, hd] at hlive
        omega

/-- Two logins to an account that does not exist. -/
def failedLogins : List (Draws × Request) :=
  [(earlierDraws, .loginByPassword (ascii "13800138000") (ascii "Password123")),
    (laterDraws, .loginByPassword (ascii "13800138000") (ascii "Password123"))]

/-- Both count their failure before either of them looks at the time to live of the counter. -/
def countingTogether : List (Move Nat) :=
  [.thread 0, .thread 1, .thread 0, .thread 1, .thread 0, .thread 1, .thread 0, .thread 1, .thread 0, .thread 1]

theorem keys_expire_sample :
    let redis := (interleave countingTogether ⟨emptyWorld 0, requestThreads defaultEnv failedLogins⟩).shared.redis
    ((redis.look 0 (loginFailKey (ascii "13800138000"))).map (·.value)) = some (ascii "2") ∧
      redis.look longestTtl (loginFailKey (ascii "13800138000")) = none := by
  have hguard : System.Meets exec passTime Stamps countingTogether
      ⟨emptyWorld 0, requestThreads defaultEnv failedLogins⟩ := by
    decide +kernel
  have hdone : ((interleave countingTogether ⟨emptyWorld 0, requestThreads defaultEnv failedLogins⟩).threads.all
      fun p => p.next?.isNone) = true := by
    decide +kernel
  have hclock : (interleave countingTogether ⟨emptyWorld 0, requestThreads defaultEnv failedLogins⟩).shared.clock
      = 0 := by
    decide +kernel
  refine ⟨by decide +kernel, ?_⟩
  refine (keys_expire defaultEnv (by decide +kernel) failedLogins (emptyWorld 0) (fun k e he => by cases he)
    countingTogether hguard).2 (fun p hp => ?_) longestTtl ?_ _
  · simpa using List.all_eq_true.mp hdone p hp
  · rw [hclock, Nat.zero_add]

end AccountService
