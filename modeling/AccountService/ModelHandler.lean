import AccountService.ModelUser

/-! `UserHandler`: the remote calls of the user service, each behind `JwtAuthenticator`. -/

namespace AccountService

open Interaction

structure AuthContext where
  userId : Int
  userUuid : Bytes
  mobile : Bytes
  role : UserRole
  deriving DecidableEq

/-- `pb_user::User`. -/
structure ProtoUser where
  id : Bytes
  mobile : Bytes
  displayName : Bytes
  role : UserRole
  disabled : Bool
  createdAt : Nat
  updatedAt : Nat
  deriving DecidableEq

def toProtoUser (user : UserEntity) : ProtoUser where
  id := user.uuid
  mobile := user.mobile
  displayName := user.displayName
  role := user.role
  disabled := user.disabled
  createdAt := user.createdAt
  updatedAt := user.updatedAt

/-- The six remote calls with the contents of their requests. -/
inductive Rpc
  | getCurrentUser
  | updateUser (displayName : Option Bytes)
  | changePassword (oldPassword newPassword : Bytes)
  | deleteUser (verifyCode : Bytes)
  | getUser (id : Bytes)
  | listUsers (page : Option (Int32 × Int32)) (mobileFilter : Bytes) (disabledFilter : Option Bool)
  deriving DecidableEq

/-- What a response holds beside its result. -/
inductive RpcAnswer
  | nothing
  | user (user : ProtoUser)
  | users (users : List ProtoUser) (pageInfo : PageResult)
  deriving DecidableEq

namespace UserHandler

variable (env : Env)

def bearer : Bytes := ascii "Bearer "

/-- `JwtAuthenticator::Authenticate`; `header` is the value of `authorization` in the metadata. -/
def authenticate (header : Option Bytes) : Action (Result AuthContext) :=
  match header with
  | none => return .failWith .unauthenticated "缺少认证信息"
  | some authHeader =>
      if authHeader.take bearer.length ≠ bearer then return .failWith .unauthenticated "认证格式错误"
      else if authHeader.drop bearer.length = [] then return .failWith .unauthenticated "Token 不能为空"
      else do
        let t ← now
        match verifyAccessToken env.crypto env.config.security t (authHeader.drop bearer.length) with
        | .fail code message => return .failWith code message
        | .ok payload => return .ok ⟨payload.userId, payload.userUuid, payload.mobile, payload.role⟩

def requireAdmin {α : Type} (auth : AuthContext) (next : Action (Result α)) : Action (Result α) :=
  if auth.role ≠ .admin ∧ auth.role ≠ .superAdmin then return .failWith .adminRequired "需要管理员权限"
  else next

/-- `SetResultError` with the result of the service, and its user if there is one. -/
def respondUser (result : Result UserEntity) : Result RpcAnswer := result.map fun user => .user (toProtoUser user)

def getCurrentUser (header : Option Bytes) : Action (Result RpcAnswer) := do
  orFail (← authenticate env header) fun auth => do
  return respondUser (← UserService.getUser auth.userUuid)

def updateUser (header : Option Bytes) (displayName : Option Bytes) : Action (Result RpcAnswer) := do
  orFail (← authenticate env header) fun auth => do
  return respondUser (← UserService.updateUser auth.userUuid displayName)

def changePassword (draws : Draws) (header : Option Bytes) (oldPassword newPassword : Bytes) :
    Action (Result RpcAnswer) := do
  orFail (← authenticate env header) fun auth =>
  if oldPassword = [] then return .failWith .invalidArgument "旧密码不能为空"
  else if newPassword = [] then return .failWith .invalidArgument "新密码不能为空"
  else requireValid (isValidPasswordPlain newPassword) do
    return (← UserService.changePassword env draws auth.userUuid oldPassword newPassword).map fun _ => .nothing

def deleteUser (header : Option Bytes) (verifyCode : Bytes) : Action (Result RpcAnswer) := do
  orFail (← authenticate env header) fun auth =>
  requireValid (isValidVerifyCodePlain verifyCode) do
    return (← UserService.deleteUser env auth.userUuid verifyCode).map fun _ => .nothing

def getUser (header : Option Bytes) (id : Bytes) : Action (Result RpcAnswer) := do
  orFail (← authenticate env header) fun auth =>
  requireAdmin auth <|
  if id = [] then return .failWith .invalidArgument "用户ID不能为空"
  else do return respondUser (← UserService.getUser id)

def listUsers (header : Option Bytes) (page : Option (Int32 × Int32)) (mobileFilter : Bytes)
    (disabledFilter : Option Bool) : Action (Result RpcAnswer) := do
  orFail (← authenticate env header) fun auth =>
  requireAdmin auth do
    let (page, pageSize) := page.getD (1, 20)
    let mobileFilter := if mobileFilter = [] then none else some mobileFilter
    return (← UserService.listUsers mobileFilter disabledFilter page pageSize).map fun list =>
      .users (list.users.map toProtoUser) list.pageRes

/-- The operation behind a remote call. -/
def serve (draws : Draws) (header : Option Bytes) : Rpc → Action (Result RpcAnswer)
  | .getCurrentUser => getCurrentUser env header
  | .updateUser displayName => updateUser env header displayName
  | .changePassword oldPassword newPassword => changePassword env draws header oldPassword newPassword
  | .deleteUser verifyCode => deleteUser env header verifyCode
  | .getUser id => getUser env header id
  | .listUsers page mobileFilter disabledFilter => listUsers env header page mobileFilter disabledFilter

end UserHandler
end AccountService
