import AccountService.ModelBase

/-! Users, sessions, tokens and the values an operation draws at random. -/

namespace AccountService

/-- An instant is a count of nanoseconds since the epoch, the tick of `system_clock`. MySQL keeps
`DATETIME` columns in seconds and Redis counts time to live in milliseconds. The service and MySQL
share the clock and the time zone, so a `DATETIME` is the number of its second. -/
def nanosPerSecond : Nat := 1000000000

def nanosPerMilli : Nat := 1000000

/-- `system_clock::to_time_t`. -/
def toTimeT (t : Nat) : Nat := t / nanosPerSecond

/-- `system_clock::from_time_t`: the seconds become nanoseconds in an `int64_t`. -/
def fromTimeT (seconds : Int) : Int := (seconds * nanosPerSecond).bmod (2 ^ 64)

/-- `t + std::chrono::seconds(ttl)`. -/
def addSeconds (t : Nat) (ttl : Int32) : Nat := ((t : Int) + ttl.toInt * nanosPerSecond).toNat

inductive UserRole
  | user
  | admin
  | superAdmin
  deriving DecidableEq, Repr

def userRoleToString : UserRole → Bytes
  | .user => ascii "0"
  | .admin => ascii "1"
  | .superAdmin => ascii "2"

def stringToUserRole (role : Bytes) : UserRole :=
  if role = ascii "0" then .user
  else if role = ascii "1" then .admin
  else if role = ascii "2" then .superAdmin
  else .user

theorem stringToUserRole_userRoleToString (role : UserRole) :
    stringToUserRole (userRoleToString role) = role := by
  cases role <;> decide

/-- A row of `users`, and what `ParseRow` makes of it. -/
structure UserEntity where
  id : Int := 0
  uuid : Bytes := []
  mobile : Bytes := []
  displayName : Bytes := []
  passwordHash : Bytes := []
  role : UserRole := .user
  disabled : Bool := false
  createdAt : Nat := 0
  updatedAt : Nat := 0
  deriving DecidableEq, Repr

/-- A row of `user_sessions`. -/
structure TokenSession where
  id : Int := 0
  userId : Int := 0
  tokenHash : Bytes := []
  expiresAt : Nat := 0
  createdAt : Nat := 0
  deriving DecidableEq, Repr

structure TokenPair where
  accessToken : Bytes
  refreshToken : Bytes
  expiresIn : Int
  deriving DecidableEq, Repr

structure AccessTokenPayload where
  userId : Int
  userUuid : Bytes
  mobile : Bytes
  role : UserRole
  expiresAt : Int
  deriving DecidableEq, Repr

structure AuthResult where
  user : UserEntity
  tokens : TokenPair
  deriving DecidableEq, Repr

inductive SmsScene
  | unKnow
  | register
  | login
  | resetPassword
  | deleteUser
  deriving DecidableEq, Repr

/-- A draw of `uniform_int_distribution<>(100000, 999999)`. -/
abbrev Jti := { n : Nat // 100000 ≤ n ∧ n ≤ 999999 }

def isLowerHex (c : UInt8) : Bool := Decimal.isDigit c || (97 ≤ c && c ≤ 102)

/-- The shape `uuid_unparse_lower` writes: 36 bytes, hyphens at 8, 13, 18 and 23, lower-case
hexadecimal digits elsewhere. -/
def IsUuidText (s : Bytes) : Prop :=
  s.length = 36 ∧ ∀ i (h : i < s.length),
    if i = 8 ∨ i = 13 ∨ i = 18 ∨ i = 23 then s.get ⟨i, h⟩ = 45 else isLowerHex (s.get ⟨i, h⟩) = true

instance (s : Bytes) : Decidable (IsUuidText s) := inferInstanceAs (Decidable (_ ∧ _))

/-- The values one call draws: the `jti` of its two tokens, the salt of a password hash, the uuid of
a new user and the code `GenerateCaptcha` returns. -/
structure Draws where
  accessJti : Jti
  refreshJti : Jti
  salt : Bytes
  uuid : Bytes
  captcha : Bytes

end AccountService
