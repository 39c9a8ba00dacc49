import AccountService.ModelMySql
import AccountService.ModelWorld

/-! The texts of the statements: what each function of `UserDB` and `TokenRepository` hands to the connection, a
template and the parameters that it binds. -/

namespace AccountService

/-- The templates. Those of a listing depend on which of its conditions there are. -/
inductive SqlShape
  | selectUserById
  | selectUserByUuid
  | selectUserByMobile
  | existsMobile
  | countUsers (mobileLike disabled : Bool)
  | selectUsers (mobileLike disabled : Bool)
  | insertUser
  | updateUser
  | insertSession
  | selectValidSession
  | countActiveSessions
  | deleteSessionByHash
  | deleteSessionsByUser
  | deleteExpiredSessions
  deriving DecidableEq

namespace SqlShape

/-- The template of `FindByField`. -/
def findByField (fieldName : Bytes) : Bytes := ascii "SELECT * FROM users WHERE " ++ fieldName ++ ascii " = ?"

/-- The template of `ExistsByField`. -/
def existsByField (fieldName : Bytes) : Bytes :=
  ascii "SELECT 1 FROM users WHERE " ++ fieldName ++ ascii " = ? LIMIT 1"

/-- The conditions that `Count` and `FindAll` append. -/
def conditions (mobileLike disabled : Bool) : Bytes :=
  (if mobileLike then ascii " AND mobile LIKE ?" else []) ++ (if disabled then ascii " AND disabled = ?" else [])

def template : SqlShape → Bytes
  | selectUserById => findByField (ascii "id")
  | selectUserByUuid => findByField (ascii "uuid")
  | selectUserByMobile => findByField (ascii "mobile")
  | existsMobile => existsByField (ascii "mobile")
  | countUsers mobileLike disabled =>
      ascii "SELECT COUNT(*) FROM users WHERE 1=1" ++ conditions mobileLike disabled
  | selectUsers mobileLike disabled =>
      ascii "SELECT * FROM users WHERE 1=1" ++ conditions mobileLike disabled ++
        ascii " ORDER BY created_at DESC, id DESC LIMIT ?, ?"
  | insertUser =>
      ascii "INSERT INTO users (uuid, mobile, display_name, password_hash, role) " ++ ascii "VALUES (?, ?, ?, ?, ?)"
  | updateUser =>
      ascii "UPDATE users SET display_name = ?, password_hash = ?, " ++ ascii "disabled = ?, role = ? WHERE uuid = ?"
  | insertSession =>
      ascii "INSERT INTO user_sessions (user_id, token_hash, expires_at) " ++ ascii "VALUES (?, ?, ?)"
  | selectValidSession =>
      ascii "SELECT 1 FROM user_sessions " ++ ascii "WHERE token_hash = ? AND expires_at > NOW() " ++ ascii "LIMIT 1"
  | countActiveSessions =>
      ascii "SELECT COUNT(*) FROM user_sessions " ++ ascii "WHERE user_id = ? AND expires_at > NOW()"
  | deleteSessionByHash => ascii "DELETE FROM user_sessions WHERE token_hash = ?"
  | deleteSessionsByUser => ascii "DELETE FROM user_sessions WHERE user_id = ?"
  | deleteExpiredSessions => ascii "DELETE FROM user_sessions WHERE expires_at <= NOW()"

end SqlShape

def userRoleToInt : UserRole → Int64
  | .user => 0
  | .admin => 1
  | .superAdmin => 2

namespace UserFilter

/-- `"%" + mobile_like + "%"` and `disabled`, as far as they are there. -/
def bindings {D : Type} (filter : UserFilter) : List (Param D) :=
  (filter.mobileLike.map fun text => .string (ascii "%" ++ text ++ ascii "%")).toList ++
    (filter.disabled.map .bool).toList

end UserFilter

namespace SqlStmt

def shape : SqlStmt → SqlShape
  | selectUserById _ => .selectUserById
  | selectUserByUuid _ => .selectUserByUuid
  | selectUserByMobile _ => .selectUserByMobile
  | existsMobile _ => .existsMobile
  | countUsers filter => .countUsers filter.mobileLike.isSome filter.disabled.isSome
  | selectUsers filter _ _ => .selectUsers filter.mobileLike.isSome filter.disabled.isSome
  | insertUser _ _ _ _ _ => .insertUser
  | updateUser _ => .updateUser
  | insertSession _ _ _ => .insertSession
  | selectValidSession _ => .selectValidSession
  | countActiveSessions _ => .countActiveSessions
  | deleteSessionByHash _ => .deleteSessionByHash
  | deleteSessionsByUser _ => .deleteSessionsByUser
  | deleteExpiredSessions => .deleteExpiredSessions

/-- What is bound; ids go through `std::to_string`, instants through `FormatDatetime`. -/
def bindings {D : Type} (formatDatetime : Nat → Bytes) : SqlStmt → List (Param D)
  | selectUserById id => [.string (toString id)]
  | selectUserByUuid uuid => [.string uuid]
  | selectUserByMobile mobile => [.string mobile]
  | existsMobile mobile => [.string mobile]
  | countUsers filter => filter.bindings
  | selectUsers filter offset limit => filter.bindings ++ [.int64 (Int64.ofInt offset), .int64 (Int64.ofInt limit)]
  | insertUser uuid mobile displayName passwordHash role =>
      [.string uuid, .string mobile, .string displayName, .string passwordHash, .int64 (userRoleToInt role)]
  | updateUser u =>
      [.string u.displayName, .string u.passwordHash, .bool u.disabled, .int64 (userRoleToInt u.role), .string u.uuid]
  | insertSession userId tokenHash expiresAt =>
      [.string (toString userId), .string tokenHash, .string (formatDatetime expiresAt)]
  | selectValidSession tokenHash => [.string tokenHash]
  | countActiveSessions userId => [.string (toString userId)]
  | deleteSessionByHash tokenHash => [.string tokenHash]
  | deleteSessionsByUser userId => [.string (toString userId)]
  | deleteExpiredSessions => []

end SqlStmt
end AccountService
