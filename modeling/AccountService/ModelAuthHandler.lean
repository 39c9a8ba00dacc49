import AccountService.ModelHandler

/-! `AuthHandler`: the remote calls of the authentication service. A handler first checks the parameters with the
overloads of the validators that read no settings, and then calls the service. -/

namespace AccountService

open Interaction

/-- Checks made one after another; the first that fails decides. -/
def requireAll {α : Type} (checks : List (Except String Unit)) (next : Action (Result α)) : Action (Result α) :=
  checks.foldr requireValid next

/-- `if (s.empty())` with the text of the error. -/
def nonEmpty (s : Bytes) (message : String) : Except String Unit := if s = [] then .error message else .ok ()

/-- `ToProtoUserRole`, on the integer behind the enumerator: a variable that was never set may hold any. -/
def toProtoUserRole (role : Int32) : UserRole :=
  if role = 0 then .user
  else if role = 1 then .admin
  else if role = 2 then .superAdmin
  else .user

/-- `pb_auth::ValidateTokenResponse`. -/
structure ValidateTokenResponse where
  userId : Bytes
  userUuid : Bytes
  mobile : Bytes
  role : UserRole
  expiresAt : Int
  deriving DecidableEq

/-- `SetValidateTokenResponse`. `ValidateAccessToken` does not set the role, so `role` is what the memory held
before. -/
def setValidateTokenResponse (role : Int32) (src : TokenValidationResult) : ValidateTokenResponse where
  userId := toString src.userId
  userUuid := src.userUuid
  mobile := src.mobile
  role := toProtoUserRole role
  expiresAt := src.expiresAt

namespace AuthHandler

variable (env : Env) (draws : Draws)

def sendVerifyCode (mobile : Bytes) (scene : SmsScene) : Action (Result Int) :=
  requireAll [isValidMobile mobile, if scene = .unKnow then .error "无效的验证码" else .ok ()]
    (AuthService.sendVerifyCode env draws mobile scene)

/-- The name may be left out. -/
def registerChecks (mobile verifyCode password displayName : Bytes) : List (Except String Unit) :=
  [isValidMobile mobile, isValidVerifyCodePlain verifyCode, isValidPasswordPlain password,
    if displayName = [] then .ok () else isValidDisplayName displayName]

def register (mobile verifyCode password displayName : Bytes) : Action (Result AuthResult) :=
  requireAll (registerChecks mobile verifyCode password displayName)
    (AuthService.register env draws mobile verifyCode password displayName)

def loginByPassword (mobile password : Bytes) : Action (Outcome AuthResult) :=
  match isValidMobile mobile, nonEmpty password "密码不能为空" with
  | .error message, _ | .ok (), .error message => return .returned (.failWith .invalidArgument message)
  | .ok (), .ok () => AuthService.loginByPassword env draws mobile password

def loginByCodeChecks (mobile verifyCode : Bytes) : List (Except String Unit) :=
  [isValidMobile mobile, isValidVerifyCodePlain verifyCode]

def loginByCode (mobile verifyCode : Bytes) : Action (Result AuthResult) :=
  requireAll (loginByCodeChecks mobile verifyCode) (AuthService.loginByCode env draws mobile verifyCode)

def refreshToken (refreshToken : Bytes) : Action (Outcome TokenPair) :=
  match nonEmpty refreshToken "refresh_token 不能为空" with
  | .error message => return .returned (.failWith .invalidArgument message)
  | .ok () => AuthService.refreshToken env draws refreshToken

def logout (refreshToken : Bytes) : Action (Result Unit) :=
  requireAll [nonEmpty refreshToken "refresh_token 不能为空"] (AuthService.logout env refreshToken)

def resetPasswordChecks (mobile verifyCode newPassword : Bytes) : List (Except String Unit) :=
  [isValidMobile mobile, isValidVerifyCodePlain verifyCode, isValidPasswordPlain newPassword]

def resetPassword (mobile verifyCode newPassword : Bytes) : Action (Result Unit) :=
  requireAll (resetPasswordChecks mobile verifyCode newPassword)
    (AuthService.resetPassword env draws mobile verifyCode newPassword)

def validateToken (role : Int32) (accessToken : Bytes) : Action (Result ValidateTokenResponse) :=
  requireAll [nonEmpty accessToken "access_token 不能为空"] do
    return (← AuthService.validateAccessToken env accessToken).map (setValidateTokenResponse role)

end AuthHandler
end AccountService
