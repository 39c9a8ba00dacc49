import AccountService.ModelAuth

/-! `UserService`. -/

namespace AccountService

open Interaction

/-- `PageResult`. -/
structure PageResult where
  totalRecords : Int32
  totalPages : Int32
  page : Int32
  pageSize : Int32
  deriving DecidableEq

structure ListUsersResult where
  users : List UserEntity
  pageRes : PageResult
  deriving DecidableEq

namespace UserService

variable (env : Env)

/-- `if (user_uuid.empty())`. -/
def requireUuid {α : Type} (userUuid : Bytes) (next : Action (Result α)) : Action (Result α) :=
  if userUuid = [] then return .failWith .invalidArgument "用户ID不能为空" else next

/-- The body of `GetCurrentUser` and of `GetUser`. -/
def getUser (userUuid : Bytes) : Action (Result UserEntity) :=
  requireUuid userUuid do
    orFail (← UserDB.findByUUID userUuid) fun user => return .ok user.cleared

def updateUser (userUuid : Bytes) (displayName : Option Bytes) : Action (Result UserEntity) :=
  requireUuid userUuid do
    orFail (← UserDB.findByUUID userUuid) fun user => do
    if user.disabled then return .failWith .userDisabled "账号已被禁用"
    else
      match displayName with
      | none => return .ok user.cleared
      | some name =>
          requireValid (isValidDisplayName name) do
            let user := { user with displayName := name }
            orFail (← UserDB.update user) fun _ => return .ok user.cleared

def changePassword (draws : Draws) (userUuid oldPassword newPassword : Bytes) : Action (Result Unit) :=
  requireUuid userUuid <|
  requireValid ((isValidPassword oldPassword env.config.password).mapError fun _ => "旧密码格式错误") <|
  requireValid (isValidPassword newPassword env.config.password) <|
  if oldPassword = newPassword then return .failWith .invalidArgument "新密码不能与旧密码相同"
  else do
    orFail (← UserDB.findByUUID userUuid) fun user => do
    if user.disabled then return .failWith .userDisabled "账号已被禁用"
    else if ¬passwordVerify env.crypto oldPassword user.passwordHash then
      return .failWith .wrongPassword "旧密码错误"
    else
      let user := { user with passwordHash := passwordHash env.crypto draws.salt newPassword }
      orFail (← UserDB.update user) fun _ => return .ok ()

/-- The mobile that `DeleteUser` puts into the entity; `UserDB::Update` does not write it. -/
def releasedMobile (user : UserEntity) : Bytes :=
  ascii "deleted_" ++ toString user.id ++ ascii "_" ++ user.mobile

def deleteUser (userUuid verifyCode : Bytes) : Action (Result Unit) :=
  requireUuid userUuid <|
  requireValid (isValidVerifyCode verifyCode env.config.sms) do
    orFail (← UserDB.findByUUID userUuid) fun user => do
    orFail (← verifyCaptcha env.config.sms .deleteUser user.mobile verifyCode) fun _ => do
    let _ ← TokenRepository.deleteByUserId user.id
    let user := { user with disabled := true, mobile := releasedMobile user }
    orFail (← UserDB.update user) fun _ => return .ok ()

def listUsers (mobileFilter : Option Bytes) (disabledFilter : Option Bool) (page pageSize : Int32) :
    Action (Result ListUsersResult) := do
  let page := if 0 < page then page else 1
  let pageSize := if 0 < pageSize then pageSize else 20
  let pageSize := if 100 < pageSize then 100 else pageSize
  let params : UserFilter := ⟨mobileFilter.filter (· ≠ []), disabledFilter⟩
  orFail (← UserDB.count params) fun totalRecords => do
  orFail (← UserDB.findAll params page pageSize) fun users =>
  return .ok {
    users := users.map UserEntity.cleared
    pageRes := {
      -- both numbers are narrowed to `int`
      totalRecords := Int32.ofInt totalRecords
      totalPages := Int32.ofInt ((totalRecords + pageSize.toInt - 1) / pageSize.toInt)
      page := page
      pageSize := pageSize } }

def setUserDisabled (userUuid : Bytes) (disabled : Bool) : Action (Result Unit) :=
  requireUuid userUuid do
    orFail (← UserDB.findByUUID userUuid) fun user => do
    if user.disabled = disabled then return .ok ()
    else
      let user := { user with disabled := disabled }
      orFail (← UserDB.update user) fun _ => do
      if disabled then
        let _ ← TokenRepository.deleteByUserId user.id
        return .ok ()
      else return .ok ()

end UserService
end AccountService
