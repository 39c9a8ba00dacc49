import AccountService.ModelWorld

/-! `UserDB` and `TokenRepository`: one SQL statement each (`Create` reads the new row back), with the
exceptions of the connection turned into results. -/

namespace AccountService

open Interaction

/-- `Fail(code, GetErrorMessage(code))`. -/
def failPlain {α : Type} (code : ErrorCode) : Result α := .failWith code (getErrorMessage code)

/-- A statement whose exceptions all become `ServiceUnavailable`. -/
def sqlCall (s : SqlStmt) : Action (Result s.Rows) := do
  match ← sql s with
  | .ok rows => return .ok rows
  | .error _ => return failPlain .serviceUnavailable

/-- A found row, or `UserNotFound`. -/
def foundUser (row : Result (Option UserEntity)) : Result UserEntity :=
  match row with
  | .ok (some user) => .ok user
  | .ok none => failPlain .userNotFound
  | .fail code message => .fail code message

namespace UserDB

def findById (id : Int) : Action (Result UserEntity) := do
  return foundUser (← sqlCall (.selectUserById id))

def findByUUID (uuid : Bytes) : Action (Result UserEntity) := do
  return foundUser (← sqlCall (.selectUserByUuid uuid))

def findByMobile (mobile : Bytes) : Action (Result UserEntity) := do
  return foundUser (← sqlCall (.selectUserByMobile mobile))

def existsByMobile (mobile : Bytes) : Action (Result Bool) := sqlCall (.existsMobile mobile)

/-- `Count`; an empty text to look for is no condition. -/
def count (params : UserFilter) : Action (Result Nat) :=
  sqlCall (.countUsers { params with mobileLike := params.mobileLike.filter (· ≠ []) })

/-- `FindAll`; the offset is computed in `int`. -/
def findAll (params : UserFilter) (page pageSize : Int32) : Action (Result (List UserEntity)) :=
  sqlCall (.selectUsers { params with mobileLike := params.mobileLike.filter (· ≠ []) }
    ((page - 1) * pageSize).toInt pageSize.toInt)

/-- `Create`, with what `UUIDHelper::Generate` returns as an argument. -/
def create (uuid : Bytes) (user : UserEntity) : Action (Result UserEntity) := do
  match ← sql (.insertUser uuid user.mobile user.displayName user.passwordHash user.role) with
  | .ok _ => findByUUID uuid
  | .error (.duplicateKey .ukMobile) => return failPlain .mobileTaken
  | .error (.duplicateKey _) => return failPlain .userAlreadyExists
  | .error .other => return failPlain .serviceUnavailable

/-- The columns `Update` sends; the mobile is not among them. -/
def updateOf (user : UserEntity) : UserUpdate where
  displayName := user.displayName
  passwordHash := user.passwordHash
  disabled := user.disabled
  role := user.role
  uuid := user.uuid

def update (user : UserEntity) : Action (Result Unit) := do
  match ← sqlCall (.updateUser (updateOf user)) with
  | .fail code message => return .fail code message
  | .ok affectedRows =>
      if affectedRows = 0 then return failPlain .userNotFound
      else return .ok ()

end UserDB

namespace TokenRepository

def saveRefreshToken (userId : Int) (tokenHash : Bytes) (expiresInSeconds : Int32) :
    Action (Result Unit) := do
  let t ← now
  match ← sql (.insertSession userId tokenHash (toTimeT (addSeconds t expiresInSeconds))) with
  | .ok _ => return .ok ()
  | .error (.duplicateKey _) => return .failWith .internal "Token 保存失败"
  | .error .other => return failPlain .serviceUnavailable

def isTokenValid (tokenHash : Bytes) : Action (Result Bool) := sqlCall (.selectValidSession tokenHash)

def countActiveSessionsByUserId (userId : Int) : Action (Result Nat) :=
  sqlCall (.countActiveSessions userId)

/-- The number of deleted rows goes to the log only. -/
def deleteByTokenHash (tokenHash : Bytes) : Action (Result Unit) := do
  match ← sqlCall (.deleteSessionByHash tokenHash) with
  | .ok _ => return .ok ()
  | .fail code message => return .fail code message

def deleteByUserId (userId : Int) : Action (Result Unit) := do
  match ← sqlCall (.deleteSessionsByUser userId) with
  | .ok _ => return .ok ()
  | .fail code message => return .fail code message

def cleanExpiredTokens : Action (Result Nat) := sqlCall .deleteExpiredSessions

end TokenRepository
end AccountService
