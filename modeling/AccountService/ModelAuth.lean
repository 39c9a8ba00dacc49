import AccountService.ModelRepository
import AccountService.ModelSms
import AccountService.ModelValidator

/-! `AuthService`. -/

namespace AccountService

open Interaction

/-- What the services are built with. -/
structure Env where
  crypto : Crypto
  config : Config

/-- What `ValidateAccessToken` answers; its `role` is left out, since no statement sets it. -/
structure TokenValidationResult where
  userId : Int
  userUuid : Bytes
  mobile : Bytes
  expiresAt : Int
  deriving DecidableEq

/-- `if (!IsValid...(…, error)) return Fail(InvalidArgument, error)`. -/
def requireValid {α : Type} (check : Except String Unit) (next : Action (Result α)) :
    Action (Result α) :=
  match check with
  | .error message => return .failWith .invalidArgument message
  | .ok () => next

/-- `if (!res.IsOk()) return Fail(res.code, res.message)`. -/
def orFail {α β : Type} (res : Result α) (next : α → Action (Result β)) : Action (Result β) :=
  match res with
  | .fail code message => return .failWith code message
  | .ok a => next a

@[simp] theorem orFail_ok {α β : Type} (a : α) (next : α → Action (Result β)) :
    orFail (.ok a) next = next a := rfl

@[simp] theorem orFail_fail {α β : Type} (code : ErrorCode) (message : String)
    (next : α → Action (Result β)) : orFail (.fail code message) next = return .failWith code message := rfl

/-- The user without its password hash. -/
def UserEntity.cleared (user : UserEntity) : UserEntity := { user with passwordHash := [] }

namespace JwtService

/-- `GenerateTokenPair`: each of the two tokens reads the clock for itself. -/
def generateTokenPair (env : Env) (draws : Draws) (user : UserEntity) : Action TokenPair := do
  let t ← now
  let accessToken := generateAccessToken env.crypto env.config.security t draws.accessJti user
  let t' ← now
  let refreshToken := generateRefreshToken env.crypto env.config.security t' draws.refreshJti user
  return ⟨accessToken, refreshToken, env.config.security.accessTokenTtlSeconds.toInt⟩

end JwtService

namespace AuthService

open JwtService

variable (env : Env)

def loginFailKey (mobile : Bytes) : Bytes := ascii "login:fail:" ++ mobile

/-- The milliseconds left, as whole minutes rounded up, in `int`. -/
def lockMinutes (ttlMs : Int) : Int :=
  let minutes := (Int32.ofInt ((ttlMs + 59999).tdiv 60000)).toInt
  if minutes < 1 then 1 else minutes

/-- `none` is the exception of `std::stoi`. -/
def checkLoginFailedAttempts (mobile : Bytes) : Action (Option (Result Unit)) := do
  match ← get (loginFailKey mobile) with
  | .fail _ _ => return some (.ok ())
  | .ok none => return some (.ok ())
  | .ok (some text) =>
      match stoi text with
      | none => return none
      | some count =>
          if env.config.login.maxFailedAttempts.toInt ≤ count then
            let ttlRes ← pttl (loginFailKey mobile)
            let ttlMs := match ttlRes with
              | .ok ms => if 0 < ms then ms else millis env.config.login.lockDurationSeconds
              | .fail _ _ => millis env.config.login.lockDurationSeconds
            let minutes := lockMinutes ttlMs
            return some (.failWith .accountLocked s!"登录失败次数过多，请{minutes}分钟后再试")
          else return some (.ok ())

def recordLoginFailure (mobile : Bytes) : Action Unit := do
  match ← incr (loginFailKey mobile) with
  | .fail _ _ => return ()
  | .ok count =>
      if count = env.config.login.maxFailedAttempts.toInt then
        let _ ← pExpire (loginFailKey mobile) (millis env.config.login.lockDurationSeconds)
        return ()
      else if count < env.config.login.maxFailedAttempts.toInt then
        let ttlRes ← pttl (loginFailKey mobile)
        let noTtl := match ttlRes with
          | .ok ms => decide (ms < 0)
          | .fail _ _ => true
        if noTtl then
          -- the first failure opens the window; later ones leave it as it is
          let _ ← pExpire (loginFailKey mobile) (millis env.config.login.failedAttemptsWindow)
          return ()
        else return ()
      else return ()

def clearLoginFailure (mobile : Bytes) : Action Unit := do
  let _ ← del (loginFailKey mobile)
  return ()

def storeRefreshToken (userId : Int) (refreshToken : Bytes) : Action (Result Unit) :=
  TokenRepository.saveRefreshToken userId (hashToken env.crypto refreshToken)
    env.config.security.refreshTokenTtlSeconds

/-- The end of the three ways to sign in: a token pair, its session row (whose failure is only
logged), and the answer. -/
def signIn (draws : Draws) (user : UserEntity) : Action (Result AuthResult) := do
  let tokens ← generateTokenPair env draws user
  let _ ← storeRefreshToken env user.id tokens.refreshToken
  return .ok ⟨user.cleared, tokens⟩

def sendVerifyCode (draws : Draws) (mobile : Bytes) (scene : SmsScene) : Action (Result Int) :=
  requireValid (isValidMobile mobile) do
    match scene with
    | .register =>
        orFail (← UserDB.existsByMobile mobile) fun taken =>
          if taken then return .failWith .mobileTaken "该手机号已被用于注册"
          else sendCaptcha env.config.sms draws.captcha scene mobile
    | .login | .resetPassword | .deleteUser =>
        orFail (← UserDB.existsByMobile mobile) fun known =>
          if ¬known then return .failWith .userNotFound "该手机号未注册"
          else sendCaptcha env.config.sms draws.captcha scene mobile
    | .unKnow => sendCaptcha env.config.sms draws.captcha scene mobile

def register (draws : Draws) (mobile verifyCode password displayName : Bytes) :
    Action (Result AuthResult) :=
  requireValid (isValidMobile mobile) <|
  requireValid (isValidPassword password env.config.password) <|
  requireValid (isValidVerifyCode verifyCode env.config.sms) <|
  requireValid (isValidDisplayName displayName) do
    orFail (← verifyCaptcha env.config.sms .register mobile verifyCode) fun _ => do
    let user : UserEntity := {
      mobile := mobile
      passwordHash := passwordHash env.crypto draws.salt password
      displayName := displayName }
    orFail (← UserDB.create draws.uuid user) fun createdUser =>
    signIn env draws createdUser

def loginByPassword (draws : Draws) (mobile password : Bytes) : Action (Outcome AuthResult) :=
  match isValidMobile mobile with
  | .error message => return .returned (.failWith .invalidArgument message)
  | .ok () =>
  match isValidPassword password env.config.password with
  | .error message => return .returned (.failWith .invalidArgument message)
  | .ok () => do
  match ← checkLoginFailedAttempts env mobile with
  | none => return .threw
  | some attempt =>
    let result ← orFail attempt fun _ => do
      match ← UserDB.findByMobile mobile with
      | .fail code message =>
          if code = .userNotFound then
            recordLoginFailure env mobile
            return .failWith .wrongPassword "账号或密码错误"
          else return .failWith code message
      | .ok user =>
          if user.disabled then return .failWith .userDisabled "账号已被禁用"
          else if ¬passwordVerify env.crypto password user.passwordHash then
            recordLoginFailure env mobile
            return .failWith .wrongPassword "账号或密码错误"
          else
            clearLoginFailure mobile
            signIn env draws user
    return .returned result

def loginByCode (draws : Draws) (mobile verifyCode : Bytes) : Action (Result AuthResult) :=
  requireValid (isValidMobile mobile) <|
  requireValid (isValidVerifyCode verifyCode env.config.sms) do
    orFail (← verifyCaptcha env.config.sms .login mobile verifyCode) fun _ => do
    match ← UserDB.findByMobile mobile with
    | .fail code message =>
        if code = .userNotFound then return .failWith .userNotFound "用户不存在，请先注册"
        else return .failWith code message
    | .ok user =>
        if user.disabled then return .failWith .userDisabled "账号已被禁用"
        else
          clearLoginFailure mobile
          signIn env draws user

def resetPassword (draws : Draws) (mobile verifyCode newPassword : Bytes) : Action (Result Unit) :=
  requireValid (isValidMobile mobile) <|
  requireValid (isValidVerifyCode verifyCode env.config.sms) <|
  requireValid (isValidPassword newPassword env.config.password) do
    orFail (← verifyCaptcha env.config.sms .resetPassword mobile verifyCode) fun _ => do
    match ← UserDB.findByMobile mobile with
    | .fail code message =>
        if code = .userNotFound then return .failWith .userNotFound "用户不存在"
        else return .failWith code message
    | .ok user =>
        let user := { user with passwordHash := passwordHash env.crypto draws.salt newPassword }
        orFail (← UserDB.update user) fun _ => do
        let _ ← TokenRepository.deleteByUserId user.id
        clearLoginFailure mobile
        return .ok ()

/-- The end of `RefreshToken`: the old session goes, a new one is stored. -/
def renewSession (draws : Draws) (refreshToken : Bytes) (userId : Int) (user : UserEntity) :
    Action (Result TokenPair) := do
  let _ ← TokenRepository.deleteByTokenHash (hashToken env.crypto refreshToken)
  let newTokens ← generateTokenPair env draws user
  let _ ← storeRefreshToken env userId newTokens.refreshToken
  return .ok newTokens

/-- The part of `RefreshToken` after the id has been read. -/
def refreshSession (draws : Draws) (refreshToken : Bytes) (userId : Int) :
    Action (Result TokenPair) := do
  orFail (← UserDB.findById userId) fun user => do
  if user.disabled then return .failWith .userDisabled "账号已被禁用"
  else
    orFail (← TokenRepository.isTokenValid (hashToken env.crypto refreshToken)) fun valid =>
    if ¬valid then return .failWith .tokenRevoked "Token 已失效"
    else renewSession env draws refreshToken userId user

/-- The part of `RefreshToken` after `ParseRefreshToken` has read the clock. -/
def refreshAt (draws : Draws) (refreshToken : Bytes) (t : Nat) : Action (Outcome TokenPair) :=
  match parseRefreshToken env.crypto env.config.security t refreshToken with
  | .fail code message => return .returned (.failWith code message)
  | .ok userIdStr =>
      match stoll userIdStr with
      | none => return .threw
      | some userId => do return .returned (← refreshSession env draws refreshToken userId)

def refreshToken (draws : Draws) (refreshToken : Bytes) : Action (Outcome TokenPair) :=
  if refreshToken = [] then return .returned (.failWith .invalidArgument "refresh_token 不能为空")
  else do refreshAt env draws refreshToken (← now)

def logout (refreshToken : Bytes) : Action (Result Unit) :=
  if refreshToken = [] then return .ok ()
  else do
    let _ ← TokenRepository.deleteByTokenHash (hashToken env.crypto refreshToken)
    return .ok ()

def logoutAll (userUuid : Bytes) : Action (Result Unit) := do
  orFail (← UserDB.findByUUID userUuid) fun user => do
  let _ ← TokenRepository.deleteByUserId user.id
  return .ok ()

def validateAccessToken (accessToken : Bytes) : Action (Result TokenValidationResult) :=
  if accessToken = [] then return .failWith .tokenMissing "Access token is required"
  else do
    let t ← now
    orFail (verifyAccessToken env.crypto env.config.security t accessToken) fun payload =>
    return .ok ⟨payload.userId, payload.userUuid, payload.mobile, payload.expiresAt⟩

end AuthService
end AccountService
