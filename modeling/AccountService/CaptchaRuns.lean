import AccountService.CaptchaLockout
import AccountService.RequestFrame

/-! The verification codes in runs of the services: which call of `SmsService` a request makes, and what
that call means for the request. -/

namespace AccountService

open AuthService Expiring Interaction

/-- The call of `SmsService` that a request makes, if it gets that far. -/
def Event.smsCall? (e : Event) : Option SmsCall :=
  match e.request with
  | .sendVerifyCode mobile scene => some (.send scene mobile e.call.draws.captcha)
  | .register mobile verifyCode _ _ => some (.verify .register mobile verifyCode)
  | .loginByCode mobile verifyCode => some (.verify .login mobile verifyCode)
  | .resetPassword mobile verifyCode _ => some (.verify .resetPassword mobile verifyCode)
  | .deleteUser userUuid verifyCode =>
      (e.world.db.users.find? (e.world.db.sameUuid ·.uuid userUuid)).map fun user =>
        .verify .deleteUser user.mobile verifyCode
  | _ => none

namespace Event

variable (e : Event) (scene : SmsScene) (mobile code : Bytes)

/-- A code has been sent. -/
def Sends : Prop := e.smsCall? = some (.send scene mobile code) ∧ e.Succeeded

/-- An operation that verifies the code of a scene and a mobile has succeeded. -/
def Authorises : Prop := e.smsCall? = some (.verify scene mobile code) ∧ e.Succeeded

/-- A verification has locked the pair. -/
def Locks : Prop :=
  ∃ input, e.smsCall? = some (.verify scene mobile input) ∧ e.outcome.code? = some .accountLocked

end Event

/-- How a request that ends with `r` and leaves Redis as `s` has used `SmsService`: not at all, or by one
call whose effect on the codes is the effect of the request. -/
inductive Asks {α : Type} (config : SmsConfig) (w : World) (r : Result α) (s : Redis) :
    Option SmsCall → Prop
  | nothing {call} (hkeys : ∀ k, captchaKeys k → s k = w.redis k)
      (hcode : call = none ∨ r.isOk = false ∧ r.code ≠ .accountLocked) : Asks config w r s call
  | asked {call : SmsCall} {w₁ : World} (hredis : w₁.redis = w.redis) (hclock : w₁.clock = w.clock)
      (hfaults : w₁.redisFaults = [])
      (hkeys : ∀ k, captchaKeys k → s k = (Program.run exec (call.program config) w₁).2.redis k)
      (hok : r.isOk = true → (Program.run exec (call.program config) w₁).1 = .ok)
      (hlocked : r.code = .accountLocked → (Program.run exec (call.program config) w₁).1 = .accountLocked)
      (hsend : ∀ scene mobile c, call = .send scene mobile c →
        (Program.run exec (call.program config) w₁).1 = .ok → r.isOk = true) :
      Asks config w r s (some call)

/-- Only how the request ends matters, not with which value. -/
theorem Asks.map {α β : Type} {config : SmsConfig} {w : World} {r : Result α} {s : Redis}
    {call : Option SmsCall} (h : Asks config w r s call) (f : α → β) : Asks config w (r.map f) s call := by
  cases h with
  | nothing hkeys hcode => exact .nothing hkeys (by simpa using hcode)
  | asked hredis hclock hfaults hkeys hok hlocked hsend =>
      exact .asked hredis hclock hfaults hkeys (by simpa using hok) (by simpa using hlocked)
        (by simpa using hsend)

section Operations

variable {env : Env} {w : World}

theorem Asks.refused {α : Type} {call : Option SmsCall} {code : ErrorCode} {message : String} {s : Redis}
    (hs : s = w.redis) (hlocked : code ≠ .accountLocked) :
    Asks env.config.sms w (.fail code message : Result α) s call :=
  .nothing (fun k _ => by rw [hs]) (Or.inr ⟨rfl, hlocked⟩)

/-- The result does not report a lock. -/
def NotLocked {α : Type} (r : Result α) : Prop := r.code ≠ .accountLocked

theorem returns_sqlCall (s : SqlStmt) : Program.Returns NotLocked (sqlCall s) := by
  intro reply
  cases reply with
  | ok rows => exact (by decide : ErrorCode.ok ≠ .accountLocked)
  | error e => exact (by decide : ErrorCode.serviceUnavailable ≠ .accountLocked)

theorem NotLocked.foundUser {row : Result (Option UserEntity)} (h : NotLocked row) :
    NotLocked (foundUser row) := by
  rcases row with (_ | user) | ⟨code, message⟩
  · exact (by decide : ErrorCode.userNotFound ≠ .accountLocked)
  · exact (by decide : ErrorCode.ok ≠ .accountLocked)
  · exact h

theorem returns_findByMobile (mobile : Bytes) :
    Program.Returns NotLocked (UserDB.findByMobile mobile) :=
  (returns_sqlCall _).bind fun _ h => h.foundUser

theorem returns_findByUUID (uuid : Bytes) : Program.Returns NotLocked (UserDB.findByUUID uuid) :=
  (returns_sqlCall _).bind fun _ h => h.foundUser

theorem returns_update (user : UserEntity) : Program.Returns NotLocked (UserDB.update user) := by
  refine (returns_sqlCall _).bind fun r hr => ?_
  cases r with
  | fail code message => exact hr
  | ok n =>
      show Program.Returns _ (ite _ _ _)
      split
      · exact (by decide : ErrorCode.userNotFound ≠ .accountLocked)
      · exact (by decide : ErrorCode.ok ≠ .accountLocked)

theorem returns_create (uuid : Bytes) (user : UserEntity) :
    Program.Returns NotLocked (UserDB.create uuid user) := by
  intro reply
  rcases reply with (key | _) | _
  · cases key with
    | ukMobile => exact (by decide : ErrorCode.mobileTaken ≠ .accountLocked)
    | ukUuid | ukTokenHash => exact (by decide : ErrorCode.userAlreadyExists ≠ .accountLocked)
  · exact (by decide : ErrorCode.serviceUnavailable ≠ .accountLocked)
  · exact returns_findByUUID uuid

theorem returns_signIn (env : Env) (draws : Draws) (user : UserEntity) :
    Program.Returns NotLocked (signIn env draws user) :=
  (Program.returns_true _).bind fun _ _ =>
    (Program.returns_true _).bind fun _ _ => (by decide : ErrorCode.ok ≠ .accountLocked)

theorem returns_orFail {α β : Type} {r : Result α} (hr : NotLocked r) {next : α → Action (Result β)}
    (h : ∀ a, Program.Returns NotLocked (next a)) : Program.Returns NotLocked (orFail r next) := by
  cases r with
  | ok a => exact h a
  | fail code message => exact hr

/-- A format check that refuses keeps the request away from `SmsService`. -/
theorem Asks.requireValid {α : Type} {call : Option SmsCall} {check : Except String Unit}
    {next : Action (Result α)}
    (h : Asks env.config.sms w (Program.run exec next w).1 (Program.run exec next w).2.redis call) :
    Asks env.config.sms w (Program.run exec (requireValid check next) w).1
      (Program.run exec (requireValid check next) w).2.redis call := by
  cases check with
  | error message => exact .refused rfl (by decide)
  | ok _ => exact h

/-- What follows a verification neither touches the codes nor reports a lock. -/
theorem Asks.verify {α : Type} {w₁ : World} (hredis : w₁.redis = w.redis) (hclock : w₁.clock = w.clock)
    (hfaults : w₁.redisFaults = []) {scene : SmsScene} {mobile input : Bytes}
    {next : Unit → Action (Result α)}
    (huses : ∀ a, Program.Uses (Cmd.OnKeys fun k => ¬captchaKeys k) (next a))
    (hends : ∀ a, Program.Returns NotLocked (next a)) :
    Asks env.config.sms w
      (Program.run exec (do orFail (← verifyCaptcha env.config.sms scene mobile input) next) w₁).1
      (Program.run exec (do orFail (← verifyCaptcha env.config.sms scene mobile input) next) w₁).2.redis
      (some (.verify scene mobile input)) := by
  have hprogram : Program.run exec (SmsCall.program env.config.sms (.verify scene mobile input)) w₁ =
      ((Program.run exec (verifyCaptcha env.config.sms scene mobile input) w₁).1.code,
        (Program.run exec (verifyCaptcha env.config.sms scene mobile input) w₁).2) := by
    simp only [SmsCall.program, Program.run_bind, Program.run_pure]
  rw [Program.run_bind]
  refine .asked hredis hclock hfaults (fun k hk => ?_) ?_ ?_ (fun _ _ _ h => by cases h)
  · rw [hprogram]
    cases (Program.run exec (verifyCaptcha env.config.sms scene mobile input) w₁).1 with
    | fail code message => rfl
    | ok a => exact run_redis_frame (huses a) (not_not.mpr hk) _
  · rw [hprogram]
    cases (Program.run exec (verifyCaptcha env.config.sms scene mobile input) w₁).1 with
    | fail code message => exact fun h => by cases h
    | ok a => exact fun _ => rfl
  · rw [hprogram]
    cases (Program.run exec (verifyCaptcha env.config.sms scene mobile input) w₁).1 with
    | fail code message => exact id
    | ok a => exact fun h => absurd h ((hends a).run exec _)

variable (env) (hw : w.redisFaults = []) (draws : Draws)
include hw

omit hw in
theorem notCaptcha_of_loginFail (mobile : Bytes) (c : RedisCmd) (hc : c.key = loginFailKey mobile) :
    Cmd.OnKeys (fun k => ¬captchaKeys k) (.redis c) := by
  show ¬captchaKeys c.key
  rw [hc]
  exact loginFail_notCaptcha mobile

theorem asks_register (mobile verifyCode password displayName : Bytes) :
    Asks env.config.sms w
      (Program.run exec (register env draws mobile verifyCode password displayName) w).1
      (Program.run exec (register env draws mobile verifyCode password displayName) w).2.redis
      (some (.verify .register mobile verifyCode)) := by
  refine .requireValid (.requireValid (.requireValid (.requireValid (.verify rfl rfl hw ?_ ?_))))
  · intro _
    exact Program.Uses.bind (uses_create trivial trivial) fun r => uses_orFail fun user =>
      uses_signIn env draws user trivial fun _ _ => trivial
  · intro _
    exact (returns_create _ _).bind fun r hr => returns_orFail hr fun user => returns_signIn env draws user

theorem asks_loginByCode (mobile verifyCode : Bytes) :
    Asks env.config.sms w
      (Program.run exec (loginByCode env draws mobile verifyCode) w).1
      (Program.run exec (loginByCode env draws mobile verifyCode) w).2.redis
      (some (.verify .login mobile verifyCode)) := by
  refine .requireValid (.requireValid (.verify rfl rfl hw ?_ ?_))
  · intro _
    refine Program.Uses.bind (uses_findByMobile trivial) fun r => ?_
    cases r with
    | fail code message =>
        show Program.Uses _ (ite _ _ _)
        split <;> trivial
    | ok user =>
        show Program.Uses _ (ite _ _ _)
        split
        · trivial
        · exact Program.Uses.bind (uses_clearLoginFailure (notCaptcha_of_loginFail mobile)) fun _ =>
            uses_signIn env draws user trivial fun _ _ => trivial
  · intro _
    refine (returns_findByMobile _).bind fun r hr => ?_
    cases r with
    | fail code message =>
        show Program.Returns _ (ite _ _ _)
        split
        · exact (by decide : ErrorCode.userNotFound ≠ .accountLocked)
        · exact hr
    | ok user =>
        show Program.Returns _ (ite _ _ _)
        split
        · exact (by decide : ErrorCode.userDisabled ≠ .accountLocked)
        · exact (Program.returns_true _).bind fun _ _ => returns_signIn env draws user

theorem asks_resetPassword (mobile verifyCode newPassword : Bytes) :
    Asks env.config.sms w
      (Program.run exec (resetPassword env draws mobile verifyCode newPassword) w).1
      (Program.run exec (resetPassword env draws mobile verifyCode newPassword) w).2.redis
      (some (.verify .resetPassword mobile verifyCode)) := by
  refine .requireValid (.requireValid (.requireValid (.verify rfl rfl hw ?_ ?_)))
  · intro _
    refine Program.Uses.bind (uses_findByMobile trivial) fun r => ?_
    cases r with
    | fail code message =>
        show Program.Uses _ (ite _ _ _)
        split <;> trivial
    | ok user =>
        refine Program.Uses.bind (uses_update trivial) fun r => uses_orFail fun _ => ?_
        refine Program.Uses.bind (uses_deleteByUserId trivial) fun _ => ?_
        exact Program.Uses.bind (uses_clearLoginFailure (notCaptcha_of_loginFail mobile)) fun _ => trivial
  · intro _
    refine (returns_findByMobile _).bind fun r hr => ?_
    cases r with
    | fail code message =>
        show Program.Returns _ (ite _ _ _)
        split
        · exact (by decide : ErrorCode.userNotFound ≠ .accountLocked)
        · exact hr
    | ok user =>
        refine (returns_update _).bind fun r hr => returns_orFail hr fun _ => ?_
        refine (Program.returns_true _).bind fun _ _ => ?_
        exact (Program.returns_true _).bind fun _ _ => (by decide : ErrorCode.ok ≠ .accountLocked)

theorem asks_deleteUser (userUuid verifyCode : Bytes) :
    Asks env.config.sms w (Program.run exec (UserService.deleteUser env userUuid verifyCode) w).1
      (Program.run exec (UserService.deleteUser env userUuid verifyCode) w).2.redis
      ((w.db.users.find? (w.db.sameUuid ·.uuid userUuid)).map fun user =>
        .verify .deleteUser user.mobile verifyCode) := by
  unfold UserService.deleteUser UserService.requireUuid
  split
  · exact .refused rfl (by decide)
  · refine .requireValid ?_
    rw [Program.run_bind, run_findByUUID]
    cases hr : w.lookup (w.db.users.find? (w.db.sameUuid ·.uuid userUuid)) with
    | fail code message =>
        refine .refused rfl ?_
        rcases lookup_of_fail hr with rfl | rfl <;> decide
    | ok user =>
        have hredis : w.read.redis = w.redis := rfl
        rw [lookup_of_ok hr]
        refine .verify hredis rfl hw ?_ ?_
        · intro _
          refine Program.Uses.bind (uses_deleteByUserId trivial) fun _ => ?_
          exact Program.Uses.bind (uses_update trivial) fun r => uses_orFail fun _ => trivial
        · intro _
          refine (Program.returns_true _).bind fun _ _ => ?_
          exact (returns_update _).bind fun r hr => returns_orFail hr fun _ =>
            (by decide : ErrorCode.ok ≠ .accountLocked)

omit hw in
/-- `SendCaptcha` never fails with the code of success. -/
theorem returns_sendCaptcha (config : SmsConfig) (code : Bytes) (scene : SmsScene) (mobile : Bytes) :
    Program.Returns (fun r => r.code = .ok → r.isOk = true) (sendCaptcha config code scene mobile) := by
  refine (Program.returns_true _).bind fun locked _ => ?_
  rcases locked with (_ | _) | _
  · refine (Program.returns_true _).bind fun waiting _ => ?_
    rcases waiting with (_ | _) | _
    · refine (Program.returns_true _).bind fun set _ => ?_
      cases set with
      | ok _ => exact (Program.returns_true _).bind fun _ _ => fun _ => rfl
      | fail _ _ => exact fun h => by cases h
    · exact (Program.returns_true _).bind fun _ _ => fun h => by cases h
    · exact fun h => by cases h
  · exact (Program.returns_true _).bind fun _ _ => fun h => by cases h
  · exact fun h => by cases h

omit hw in
/-- Sending hands the result of `SendCaptcha` on. -/
theorem Asks.send {w₁ : World} (hredis : w₁.redis = w.redis) (hclock : w₁.clock = w.clock)
    (hfaults : w₁.redisFaults = []) (scene : SmsScene) (mobile : Bytes) :
    Asks env.config.sms w (Program.run exec (sendCaptcha env.config.sms draws.captcha scene mobile) w₁).1
      (Program.run exec (sendCaptcha env.config.sms draws.captcha scene mobile) w₁).2.redis
      (some (.send scene mobile draws.captcha)) := by
  have hprogram : Program.run exec
      (SmsCall.program env.config.sms (.send scene mobile draws.captcha)) w₁ =
      ((Program.run exec (sendCaptcha env.config.sms draws.captcha scene mobile) w₁).1.code,
        (Program.run exec (sendCaptcha env.config.sms draws.captcha scene mobile) w₁).2) := by
    simp only [SmsCall.program, Program.run_bind, Program.run_pure]
  refine .asked hredis hclock hfaults (fun k _ => ?_) ?_ ?_ (fun _ _ _ _ => ?_) <;> rw [hprogram]
  · cases (Program.run exec (sendCaptcha env.config.sms draws.captcha scene mobile) w₁).1 with
    | ok _ => exact fun _ => rfl
    | fail _ _ => exact fun h => by cases h
  · exact id
  · exact (returns_sendCaptcha _ _ _ _).run exec w₁

/-- A scene that looks the mobile up refuses one of the two answers with a code of its own. -/
theorem Asks.sendAfterLookup {scene : SmsScene} {mobile : Bytes} {next : Bool → Action (Result Int)}
    {code : ErrorCode} (hlocked : code ≠ .accountLocked)
    (hnext : ∀ known, (∃ message, next known = pure (.failWith code message)) ∨
      next known = sendCaptcha env.config.sms draws.captcha scene mobile) :
    Asks env.config.sms w
      (Program.run exec (do orFail (← UserDB.existsByMobile mobile) next) w).1
      (Program.run exec (do orFail (← UserDB.existsByMobile mobile) next) w).2.redis
      (some (.send scene mobile draws.captcha)) := by
  have hredis := run_redis_eq (p := UserDB.existsByMobile mobile) (uses_sqlCall trivial) w
  have hclock := run_clock (UserDB.existsByMobile mobile) w
  have hfaults := run_redisFaults (UserDB.existsByMobile mobile) hw
  have hnot : NotLocked (Program.run exec (UserDB.existsByMobile mobile) w).1 :=
    (returns_sqlCall (.existsMobile mobile)).run exec w
  rw [Program.run_bind]
  cases hr : (Program.run exec (UserDB.existsByMobile mobile) w).1 with
  | fail c m =>
      rw [hr] at hnot
      exact .refused hredis hnot
  | ok known =>
      simp only [orFail]
      rcases hnext known with ⟨message, h⟩ | h
      · rw [h]
        exact .refused hredis hlocked
      · rw [h]
        exact .send env draws hredis hclock hfaults scene mobile

theorem asks_sendVerifyCode (mobile : Bytes) (scene : SmsScene) :
    Asks env.config.sms w (Program.run exec (sendVerifyCode env draws mobile scene) w).1
      (Program.run exec (sendVerifyCode env draws mobile scene) w).2.redis
      (some (.send scene mobile draws.captcha)) := by
  refine .requireValid ?_
  cases scene with
  | unKnow => exact .send env draws rfl rfl hw _ mobile
  | register =>
      have hcode : ErrorCode.mobileTaken ≠ .accountLocked := by decide
      refine .sendAfterLookup env hw draws hcode fun known => ?_
      cases known with
      | true => exact Or.inl ⟨_, rfl⟩
      | false => exact Or.inr rfl
  | login | resetPassword | deleteUser =>
      have hcode : ErrorCode.userNotFound ≠ .accountLocked := by decide
      refine .sendAfterLookup env hw draws hcode fun known => ?_
      cases known with
      | true => exact Or.inr rfl
      | false => exact Or.inl ⟨_, rfl⟩

end Operations

/-- **Asks.** What an event means for the codes. -/
theorem serve_asks (env : Env) {call : Call} (w : World) (hfaults : call.redisFaults = []) :
    ((serve env call w).1.smsCall? = none ∧
        ∀ k, captchaKeys k → (serve env call w).2.redis k = w.redis k) ∨
      ∃ r, (serve env call w).1.outcome = .returned r ∧
        Asks env.config.sms (call.world w) r (serve env call w).2.redis (serve env call w).1.smsCall? := by
  have hw : (call.world w).redisFaults = [] := hfaults
  -- a request whose operation returns a result
  have hanswered : ∀ {α : Type} {f : α → Answer} {p : Action (Result α)} {ask : Option SmsCall},
      handle env call.draws call.request = answered f p → (serve env call w).1.smsCall? = ask →
      Asks env.config.sms (call.world w) (Program.run exec p (call.world w)).1
        (Program.run exec p (call.world w)).2.redis ask →
      ∃ r, (serve env call w).1.outcome = .returned r ∧
        Asks env.config.sms (call.world w) r (serve env call w).2.redis
          (serve env call w).1.smsCall? := by
    intro α f p ask hhandle hask h
    rw [hask, serve_answered hhandle w]
    exact ⟨_, rfl, h.map f⟩
  cases hreq : call.request with
  | sendVerifyCode mobile scene =>
      exact Or.inr (hanswered (by rw [hreq]; rfl) (by simp only [Event.smsCall?, Event.request, serve, hreq])
        (asks_sendVerifyCode env hw call.draws mobile scene))
  | register mobile verifyCode password displayName =>
      exact Or.inr (hanswered (by rw [hreq]; rfl) (by simp only [Event.smsCall?, Event.request, serve, hreq])
        (asks_register env hw call.draws mobile verifyCode password displayName))
  | loginByCode mobile verifyCode =>
      exact Or.inr (hanswered (by rw [hreq]; rfl) (by simp only [Event.smsCall?, Event.request, serve, hreq])
        (asks_loginByCode env hw call.draws mobile verifyCode))
  | resetPassword mobile verifyCode newPassword =>
      exact Or.inr (hanswered (by rw [hreq]; rfl) (by simp only [Event.smsCall?, Event.request, serve, hreq])
        (asks_resetPassword env hw call.draws mobile verifyCode newPassword))
  | deleteUser userUuid verifyCode =>
      exact Or.inr (hanswered (by rw [hreq]; rfl) (by simp only [Event.smsCall?, Event.request, serve, hreq])
        (asks_deleteUser env hw userUuid verifyCode))
  | _ =>
      refine Or.inl ⟨by simp only [Event.smsCall?, Event.request, serve, hreq], fun k hk => ?_⟩
      refine serve_redis_frame_footprint env call w ?_
      rw [hreq]
      first
        | exact id
        | rintro rfl
          exact loginFail_notCaptcha _ hk

end AccountService
