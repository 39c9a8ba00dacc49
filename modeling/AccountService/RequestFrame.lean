import AccountService.ModelCalls
import AccountService.RepositorySpec

/-! The footprint of a request: the commands it may issue. What a request leaves alone follows from it. -/

namespace AccountService

open AuthService Interaction

@[simp] theorem Result.isOk_map {α β : Type} (f : α → β) (r : Result α) : (r.map f).isOk = r.isOk := by
  cases r <;> rfl

@[simp] theorem Outcome.isOk_map {α β : Type} (f : α → β) (o : Outcome α) : (o.map f).isOk = o.isOk := by
  rcases o with (_ | _) | _ <;> rfl

@[simp] theorem Result.code_map {α β : Type} (f : α → β) (r : Result α) : (r.map f).code = r.code := by
  cases r <;> rfl

/-- A request whose operation returns a result. -/
theorem serve_answered {α : Type} {env : Env} {call : Call} {f : α → Answer} {p : Action (Result α)}
    (h : handle env call.draws call.request = answered f p) (w : World) :
    serve env call w = (⟨call, call.world w, .returned ((Program.run exec p (call.world w)).1.map f)⟩,
      (Program.run exec p (call.world w)).2) := by
  simp only [serve, h, answered, Program.run_bind, Program.run_pure]

/-- The keys of `SmsService`. -/
def captchaKeys (key : Bytes) : Prop := ∃ scene mobile, onPair scene mobile key

/-- The keys of a captcha are no counters. -/
theorem loginFail_notOnPair (scene : SmsScene) (mobile m : Bytes) :
    ¬onPair scene mobile (ServiceKey.loginFail m).text := by
  rintro (h | h | h | h) <;> cases ServiceKey.text_injective h

theorem loginFail_notCaptcha (m : Bytes) : ¬captchaKeys (ServiceKey.loginFail m).text :=
  fun ⟨scene, mobile, h⟩ => loginFail_notOnPair scene mobile m h

/-- How a request names the user it is about. -/
inductive Account
  | uuid (text : Bytes)
  | mobile (text : Bytes)
  deriving DecidableEq

/-- The row is the one that the lookup of the account selects. -/
def Account.Names (db : Database) (row : UserEntity) : Account → Prop
  | .uuid text => db.sameUuid row.uuid text = true
  | .mobile text => row.mobile = text

instance (db : Database) (row : UserEntity) (account : Account) : Decidable (account.Names db row) := by
  cases account <;> unfold Account.Names <;> infer_instance

def Request.account? : Request → Option Account
  | .resetPassword mobile _ _ => some (.mobile mobile)
  | .logoutAll userUuid | .getUser userUuid | .updateUser userUuid _ | .changePassword userUuid _ _
  | .deleteUser userUuid _ | .setUserDisabled userUuid _ => some (.uuid userUuid)
  | _ => none

/-- The statements and the keys of a request. -/
structure Footprint where
  stmts : SqlStmt → Prop
  keys : Bytes → Prop := fun _ => False

/-- The command is one of the footprint; the clock may always be read. -/
def Footprint.Covers (f : Footprint) : Cmd → Prop
  | .now => True
  | .redis c => f.keys c.key
  | .sql s => f.stmts s

/-- The footprint of a request. -/
def Request.footprint : Request → Footprint
  | .sendVerifyCode _ _ => ⟨fun s => s.kind = .readUser, captchaKeys⟩
  | .register _ _ _ _ =>
      ⟨fun s => s.kind = .readUser ∨ s.kind = .insertUser ∨ s.kind = .insertSession, captchaKeys⟩
  | .loginByPassword mobile _ =>
      ⟨fun s => s.kind = .readUser ∨ s.kind = .insertSession, fun k => k = loginFailKey mobile⟩
  | .loginByCode mobile _ =>
      ⟨fun s => s.kind = .readUser ∨ s.kind = .insertSession,
        fun k => captchaKeys k ∨ k = loginFailKey mobile⟩
  | .resetPassword mobile _ _ =>
      ⟨fun s => s.kind = .readUser ∨ s.kind = .updateUser ∨ s.kind = .deleteSession,
        fun k => captchaKeys k ∨ k = loginFailKey mobile⟩
  | .refreshToken _ =>
      { stmts := fun s => s.kind = .readUser ∨ s.kind = .readSession ∨ s.kind = .deleteSession ∨
          s.kind = .insertSession }
  | .logout _ | .cleanExpiredTokens => { stmts := fun s => s.kind = .deleteSession }
  | .logoutAll _ => { stmts := fun s => s.kind = .readUser ∨ s.kind = .deleteSession }
  | .getUser _ => { stmts := fun s => s.kind = .readUser }
  | .updateUser _ _ | .changePassword _ _ _ =>
      { stmts := fun s => s.kind = .readUser ∨ s.kind = .updateUser }
  | .deleteUser _ _ =>
      ⟨fun s => s.kind = .readUser ∨ s.kind = .updateUser ∨ s.kind = .deleteSession, captchaKeys⟩
  | .setUserDisabled _ _ =>
      { stmts := fun s => s.kind = .readUser ∨ s.kind = .updateUser ∨ s.kind = .deleteSession }

section Footprints

variable {f : Footprint}

theorem uses_of_onPair {α : Type} {p : Action α} {scene : SmsScene} {mobile : Bytes}
    (h : Program.Uses (Cmd.RedisOn (onPair scene mobile)) p) (hkeys : ∀ k, captchaKeys k → f.keys k) :
    Program.Uses f.Covers p := by
  refine h.mono fun c hc => ?_
  cases c with
  | redis c => exact hkeys _ ⟨scene, mobile, hc⟩
  | now => cases hc
  | sql s => cases hc

theorem uses_clearLoginFailure {P : Cmd → Prop} {mobile : Bytes}
    (h : ∀ c : RedisCmd, c.key = loginFailKey mobile → P (.redis c)) :
    Program.Uses P (clearLoginFailure mobile) :=
  Program.Uses.bind (uses_del h) fun _ => trivial

theorem uses_answered {α : Type} {P : Cmd → Prop} {p : Action (Result α)} {g : α → Answer}
    (h : Program.Uses P p) : Program.Uses P (answered g p) :=
  h.bind fun _ => trivial

variable (env : Env) (draws : Draws)

theorem uses_sendVerifyCode (mobile : Bytes) (scene : SmsScene) :
    Program.Uses (Request.sendVerifyCode mobile scene).footprint.Covers
      (sendVerifyCode env draws mobile scene) := by
  have hsend : Program.Uses (Request.sendVerifyCode mobile scene).footprint.Covers
      (sendCaptcha env.config.sms draws.captcha scene mobile) :=
    uses_of_onPair (uses_sendCaptcha env.config.sms scene mobile draws.captcha) fun _ h => h
  refine uses_requireValid ?_
  cases scene with
  | unKnow => exact hsend
  | register | login | resetPassword | deleteUser =>
      refine Program.Uses.bind (uses_sqlCall rfl) fun r => uses_orFail fun known => ?_
      split
      · trivial
      · exact hsend

theorem uses_register (mobile verifyCode password displayName : Bytes) :
    Program.Uses (Request.register mobile verifyCode password displayName).footprint.Covers
      (register env draws mobile verifyCode password displayName) := by
  refine uses_requireValid (uses_requireValid (uses_requireValid (uses_requireValid ?_)))
  refine Program.Uses.bind (uses_of_onPair (uses_verifyCaptcha _ _ _ _) fun _ h => h) fun r =>
    uses_orFail fun _ => ?_
  exact Program.Uses.bind (uses_create (Or.inr (Or.inl rfl)) (Or.inl rfl)) fun r => uses_orFail fun user =>
    uses_signIn env draws user trivial fun _ _ => Or.inr (Or.inr rfl)

theorem uses_checkLoginFailedAttempts {P : Cmd → Prop} {mobile : Bytes}
    (h : ∀ c : RedisCmd, c.key = loginFailKey mobile → P (.redis c)) :
    Program.Uses P (checkLoginFailedAttempts env mobile) := by
  refine Program.Uses.bind (uses_redisCall (h _ rfl)) fun r => ?_
  rcases r with (_ | text) | _
  · trivial
  · dsimp only
    split
    · trivial
    · split
      · exact Program.Uses.bind (uses_redisCall (h _ rfl)) fun _ => trivial
      · trivial
  · trivial

theorem uses_recordLoginFailure {P : Cmd → Prop} {mobile : Bytes}
    (h : ∀ c : RedisCmd, c.key = loginFailKey mobile → P (.redis c)) :
    Program.Uses P (recordLoginFailure env mobile) := by
  have hwindow : ∀ noTtl : Bool, Program.Uses P (if noTtl then (do
      let _ ← pExpire (loginFailKey mobile) (millis env.config.login.failedAttemptsWindow)
      return ()) else return ()) := by
    intro noTtl
    cases noTtl with
    | true => exact Program.Uses.bind (uses_redisCall (h _ rfl)) fun _ => trivial
    | false => trivial
  refine Program.Uses.bind (uses_redisCall (h _ rfl)) fun r => ?_
  cases r with
  | fail _ _ => trivial
  | ok count =>
      show Program.Uses _ (ite _ _ _)
      split
      · exact Program.Uses.bind (uses_redisCall (h _ rfl)) fun _ => trivial
      · split
        · refine Program.Uses.bind (uses_redisCall (h _ rfl)) fun ttl => ?_
          exact hwindow _
        · trivial

theorem uses_loginByPassword (mobile password : Bytes) :
    Program.Uses (Request.loginByPassword mobile password).footprint.Covers
      (loginByPassword env draws mobile password) := by
  have hkey : ∀ c : RedisCmd, c.key = loginFailKey mobile →
      (Request.loginByPassword mobile password).footprint.Covers (.redis c) := fun _ h => h
  unfold loginByPassword
  split
  · trivial
  · split
    · trivial
    · refine Program.Uses.bind (uses_checkLoginFailedAttempts env hkey) fun attempt => ?_
      cases attempt with
      | none => trivial
      | some attempt =>
          refine Program.Uses.bind (uses_orFail fun _ => ?_) fun _ => trivial
          refine Program.Uses.bind (uses_findByMobile (Or.inl rfl)) fun r => ?_
          cases r with
          | fail code message =>
              show Program.Uses _ (ite _ _ _)
              split
              · exact Program.Uses.bind (uses_recordLoginFailure env hkey) fun _ => trivial
              · trivial
          | ok user =>
              show Program.Uses _ (ite _ _ _)
              split
              · trivial
              · split
                · exact Program.Uses.bind (uses_recordLoginFailure env hkey) fun _ => trivial
                · exact Program.Uses.bind (uses_clearLoginFailure hkey) fun _ =>
                    uses_signIn env draws user trivial fun _ _ => Or.inr rfl

theorem uses_loginByCode (mobile verifyCode : Bytes) :
    Program.Uses (Request.loginByCode mobile verifyCode).footprint.Covers
      (loginByCode env draws mobile verifyCode) := by
  refine uses_requireValid (uses_requireValid ?_)
  refine Program.Uses.bind (uses_of_onPair (uses_verifyCaptcha _ _ _ _) fun _ h => Or.inl h) fun r =>
    uses_orFail fun _ => ?_
  refine Program.Uses.bind (uses_findByMobile (Or.inl rfl)) fun r => ?_
  cases r with
  | fail code message =>
      show Program.Uses _ (ite _ _ _)
      split <;> trivial
  | ok user =>
      show Program.Uses _ (ite _ _ _)
      split
      · trivial
      · exact Program.Uses.bind (uses_clearLoginFailure fun _ h => Or.inr h) fun _ =>
          uses_signIn env draws user trivial fun _ _ => Or.inr rfl

theorem uses_resetPassword (mobile verifyCode newPassword : Bytes) :
    Program.Uses (Request.resetPassword mobile verifyCode newPassword).footprint.Covers
      (resetPassword env draws mobile verifyCode newPassword) := by
  refine uses_requireValid (uses_requireValid (uses_requireValid ?_))
  refine Program.Uses.bind (uses_of_onPair (uses_verifyCaptcha _ _ _ _) fun _ h => Or.inl h) fun r =>
    uses_orFail fun _ => ?_
  refine Program.Uses.bind (uses_findByMobile (Or.inl rfl)) fun r => ?_
  cases r with
  | fail code message =>
      show Program.Uses _ (ite _ _ _)
      split <;> trivial
  | ok user =>
      refine Program.Uses.bind (uses_update (Or.inr (Or.inl rfl))) fun r => uses_orFail fun _ => ?_
      refine Program.Uses.bind (uses_deleteByUserId (Or.inr (Or.inr rfl))) fun _ => ?_
      exact Program.Uses.bind (uses_clearLoginFailure fun _ h => Or.inr h) fun _ => trivial

theorem uses_refreshToken (token : Bytes) :
    Program.Uses (Request.refreshToken token).footprint.Covers (refreshToken env draws token) := by
  unfold refreshToken
  split
  · trivial
  · refine Program.Uses.bind (uses_now trivial) fun t => ?_
    unfold refreshAt
    split
    · trivial
    · split
      · trivial
      · refine Program.Uses.bind ?_ fun _ => trivial
        refine Program.Uses.bind (uses_findById (Or.inl rfl)) fun r => uses_orFail fun user => ?_
        split
        · trivial
        · refine Program.Uses.bind (uses_sqlCall (Or.inr (Or.inl rfl))) fun r => uses_orFail fun valid => ?_
          split
          · trivial
          · refine Program.Uses.bind (uses_deleteByTokenHash (Or.inr (Or.inr (Or.inl rfl)))) fun _ => ?_
            refine Program.Uses.bind (uses_generateTokenPair env draws user trivial) fun _ => ?_
            exact Program.Uses.bind (uses_storeRefreshToken env _ trivial fun _ _ =>
              Or.inr (Or.inr (Or.inr rfl))) fun _ => trivial

theorem uses_changePassword (userUuid oldPassword newPassword : Bytes) :
    Program.Uses (Request.changePassword userUuid oldPassword newPassword).footprint.Covers
      (UserService.changePassword env draws userUuid oldPassword newPassword) := by
  refine uses_requireUuid (uses_requireValid (uses_requireValid ?_))
  split
  · trivial
  · refine Program.Uses.bind (uses_findByUUID (Or.inl rfl)) fun r => uses_orFail fun user => ?_
    split
    · trivial
    · split
      · trivial
      · exact Program.Uses.bind (uses_update (Or.inr rfl)) fun r => uses_orFail fun _ => trivial

theorem uses_updateUser (userUuid : Bytes) (displayName : Option Bytes) :
    Program.Uses (Request.updateUser userUuid displayName).footprint.Covers
      (UserService.updateUser userUuid displayName) := by
  refine uses_requireUuid ?_
  refine Program.Uses.bind (uses_findByUUID (Or.inl rfl)) fun r => uses_orFail fun user => ?_
  split
  · trivial
  · cases displayName with
    | none => trivial
    | some name =>
        refine uses_requireValid ?_
        exact Program.Uses.bind (uses_update (Or.inr rfl)) fun r => uses_orFail fun _ => trivial

theorem uses_deleteUser (userUuid verifyCode : Bytes) :
    Program.Uses (Request.deleteUser userUuid verifyCode).footprint.Covers
      (UserService.deleteUser env userUuid verifyCode) := by
  refine uses_requireUuid (uses_requireValid ?_)
  refine Program.Uses.bind (uses_findByUUID (Or.inl rfl)) fun r => uses_orFail fun user => ?_
  refine Program.Uses.bind (uses_of_onPair (uses_verifyCaptcha _ _ _ _) fun _ h => h) fun r =>
    uses_orFail fun _ => ?_
  refine Program.Uses.bind (uses_deleteByUserId (Or.inr (Or.inr rfl))) fun _ => ?_
  exact Program.Uses.bind (uses_update (Or.inr (Or.inl rfl))) fun r => uses_orFail fun _ => trivial

theorem uses_setUserDisabled (userUuid : Bytes) (disabled : Bool) :
    Program.Uses (Request.setUserDisabled userUuid disabled).footprint.Covers
      (UserService.setUserDisabled userUuid disabled) := by
  refine uses_requireUuid ?_
  refine Program.Uses.bind (uses_findByUUID (Or.inl rfl)) fun r => uses_orFail fun user => ?_
  split
  · trivial
  · refine Program.Uses.bind (uses_update (Or.inr (Or.inl rfl))) fun r => uses_orFail fun _ => ?_
    split
    · exact Program.Uses.bind (uses_deleteByUserId (Or.inr (Or.inr rfl))) fun _ => trivial
    · trivial

/-- **Footprint.** A request issues no other commands than those of its footprint. -/
theorem uses_handle (request : Request) :
    Program.Uses request.footprint.Covers (handle env draws request) := by
  cases request with
  | sendVerifyCode mobile scene => exact uses_answered (uses_sendVerifyCode env draws mobile scene)
  | register mobile verifyCode password displayName =>
      exact uses_answered (uses_register env draws mobile verifyCode password displayName)
  | loginByPassword mobile password =>
      exact (uses_loginByPassword env draws mobile password).bind fun _ => trivial
  | loginByCode mobile verifyCode => exact uses_answered (uses_loginByCode env draws mobile verifyCode)
  | resetPassword mobile verifyCode newPassword =>
      exact uses_answered (uses_resetPassword env draws mobile verifyCode newPassword)
  | refreshToken token => exact (uses_refreshToken env draws token).bind fun _ => trivial
  | logout token =>
      refine uses_answered ?_
      unfold logout
      split
      · trivial
      · exact Program.Uses.bind (uses_deleteByTokenHash rfl) fun _ => trivial
  | logoutAll userUuid =>
      refine uses_answered (Program.Uses.bind (uses_findByUUID (Or.inl rfl)) fun r =>
        uses_orFail fun user => ?_)
      exact Program.Uses.bind (uses_deleteByUserId (Or.inr rfl)) fun _ => trivial
  | getUser userUuid =>
      refine uses_answered (uses_requireUuid ?_)
      exact Program.Uses.bind (uses_findByUUID rfl) fun r => uses_orFail fun user => trivial
  | updateUser userUuid displayName => exact uses_answered (uses_updateUser userUuid displayName)
  | changePassword userUuid oldPassword newPassword =>
      exact uses_answered (uses_changePassword env draws userUuid oldPassword newPassword)
  | deleteUser userUuid verifyCode => exact uses_answered (uses_deleteUser env userUuid verifyCode)
  | setUserDisabled userUuid disabled => exact uses_answered (uses_setUserDisabled userUuid disabled)
  | cleanExpiredTokens => exact uses_answered (uses_sqlCall rfl)

end Footprints

/-- A request leaves the keys alone that are not in its footprint. -/
theorem serve_redis_frame_footprint (env : Env) (call : Call) (w : World) {k : Bytes}
    (hk : ¬call.request.footprint.keys k) : (serve env call w).2.redis k = w.redis k := by
  refine run_redis_frame ((uses_handle env call.draws call.request).mono fun c hc => ?_) hk (call.world w)
  cases c with
  | redis c => exact hc
  | now => trivial
  | sql s => trivial

end AccountService
