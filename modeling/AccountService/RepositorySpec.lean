import AccountService.CaptchaSpec
import AccountService.ModelUser

/-! The commands that the calls of `UserDB` and `TokenRepository` issue, and what they return when
statements may fail. -/

namespace AccountService

open Expiring Interaction

/-- The kinds of statements. -/
inductive SqlKind
  | readUser
  | insertUser
  | updateUser
  | readSession
  | insertSession
  | deleteSession
  deriving DecidableEq

def SqlStmt.kind : SqlStmt → SqlKind
  | .selectUserById _ | .selectUserByUuid _ | .selectUserByMobile _ | .existsMobile _ | .countUsers _
  | .selectUsers _ _ _ => .readUser
  | .insertUser _ _ _ _ _ => .insertUser
  | .updateUser _ => .updateUser
  | .selectValidSession _ | .countActiveSessions _ => .readSession
  | .insertSession _ _ _ => .insertSession
  | .deleteSessionByHash _ | .deleteSessionsByUser _ | .deleteExpiredSessions => .deleteSession

section Touches

variable {P : Cmd → Prop}

theorem uses_now (h : P .now) : Program.Uses P now := ⟨h, fun _ => trivial⟩

theorem uses_sqlCall {s : SqlStmt} (h : P (.sql s)) : Program.Uses P (sqlCall s) := by
  refine Program.Uses.bind ⟨h, fun _ => trivial⟩ fun reply => ?_
  cases reply <;> trivial

theorem uses_findByMobile {mobile : Bytes} (h : P (.sql (.selectUserByMobile mobile))) :
    Program.Uses P (UserDB.findByMobile mobile) :=
  Program.Uses.bind (uses_sqlCall h) fun _ => trivial

theorem uses_findByUUID {uuid : Bytes} (h : P (.sql (.selectUserByUuid uuid))) :
    Program.Uses P (UserDB.findByUUID uuid) :=
  Program.Uses.bind (uses_sqlCall h) fun _ => trivial

theorem uses_findById {id : Int} (h : P (.sql (.selectUserById id))) :
    Program.Uses P (UserDB.findById id) :=
  Program.Uses.bind (uses_sqlCall h) fun _ => trivial

theorem uses_update {user : UserEntity} (h : P (.sql (.updateUser (UserDB.updateOf user)))) :
    Program.Uses P (UserDB.update user) := by
  refine Program.Uses.bind (uses_sqlCall h) fun r => ?_
  cases r with
  | fail code message => trivial
  | ok n =>
      show Program.Uses _ (ite _ _ _)
      split <;> trivial

theorem uses_create {uuid : Bytes} {user : UserEntity}
    (h : P (.sql (.insertUser uuid user.mobile user.displayName user.passwordHash user.role)))
    (hread : P (.sql (.selectUserByUuid uuid))) : Program.Uses P (UserDB.create uuid user) := by
  refine Program.Uses.bind ⟨h, fun _ => trivial⟩ fun reply => ?_
  rcases reply with (key | _) | _
  · cases key <;> trivial
  · trivial
  · exact uses_findByUUID hread

theorem uses_deleteByUserId {userId : Int} (h : P (.sql (.deleteSessionsByUser userId))) :
    Program.Uses P (TokenRepository.deleteByUserId userId) := by
  refine Program.Uses.bind (uses_sqlCall h) fun r => ?_
  cases r <;> trivial

theorem uses_deleteByTokenHash {tokenHash : Bytes} (h : P (.sql (.deleteSessionByHash tokenHash))) :
    Program.Uses P (TokenRepository.deleteByTokenHash tokenHash) := by
  refine Program.Uses.bind (uses_sqlCall h) fun r => ?_
  cases r <;> trivial

theorem uses_generateTokenPair (env : Env) (draws : Draws) (user : UserEntity) (h : P .now) :
    Program.Uses P (JwtService.generateTokenPair env draws user) :=
  Program.Uses.bind (uses_now h) fun _ => Program.Uses.bind (uses_now h) fun _ => trivial

theorem uses_storeRefreshToken (env : Env) {userId : Int} (token : Bytes) (hnow : P .now)
    (hinsert : ∀ hash expiresAt, P (.sql (.insertSession userId hash expiresAt))) :
    Program.Uses P (AuthService.storeRefreshToken env userId token) := by
  refine Program.Uses.bind (uses_now hnow) fun t => ?_
  refine Program.Uses.bind ⟨hinsert _ _, fun _ => trivial⟩ fun reply => ?_
  rcases reply with (_ | _) | _ <;> trivial

theorem uses_signIn (env : Env) (draws : Draws) (user : UserEntity) (hnow : P .now)
    (hinsert : ∀ hash expiresAt, P (.sql (.insertSession user.id hash expiresAt))) :
    Program.Uses P (AuthService.signIn env draws user) :=
  Program.Uses.bind (uses_generateTokenPair env draws user hnow) fun _ =>
    Program.Uses.bind (uses_storeRefreshToken env _ hnow hinsert) fun _ => trivial

theorem uses_orFail {α β : Type} {r : Result α} {next : α → Action (Result β)}
    (h : ∀ a, Program.Uses P (next a)) : Program.Uses P (orFail r next) := by
  cases r with
  | ok a => exact h a
  | fail code message => trivial

theorem uses_requireValid {α : Type} {check : Except String Unit}
    {next : Action (Result α)} (h : Program.Uses P next) : Program.Uses P (requireValid check next) := by
  cases check with
  | error message => trivial
  | ok _ => exact h

theorem uses_requireUuid {α : Type} {uuid : Bytes} {next : Action (Result α)}
    (h : Program.Uses P next) : Program.Uses P (UserService.requireUuid uuid next) := by
  unfold UserService.requireUuid
  split
  · trivial
  · exact h

end Touches

/-- A program that touches no key leaves Redis as it is. -/
theorem run_redis_eq {α : Type} {p : Action α}
    (hp : Program.Uses (Cmd.OnKeys fun _ => False) p) (w : World) :
    (Program.run exec p w).2.redis = w.redis := by
  funext k
  exact run_redis_frame hp (fun h => h) w

/-- The result of a statement that has been executed. -/
def Result.ofSql {α : Type} : Except SqlError α → Result α
  | .ok rows => .ok rows
  | .error _ => failPlain .serviceUnavailable

/-- A statement fails and changes nothing, or does what MySQL does. -/
theorem run_sqlCall (s : SqlStmt) (w : World) :
    (w.sqlFaults.head? = some true ∧ Program.run exec (sqlCall s) w =
      (failPlain .serviceUnavailable, { w with sqlFaults := w.sqlFaults.tail })) ∨
    (w.sqlFaults.head? ≠ some true ∧ Program.run exec (sqlCall s) w =
      (.ofSql (s.apply (toTimeT w.clock) w.db).1,
        { w with db := (s.apply (toTimeT w.clock) w.db).2, sqlFaults := w.sqlFaults.tail })) := by
  obtain ⟨clock, redis, db, redisFaults, sqlFaults⟩ := w
  simp only [sqlCall, Program.run_bind, run_sql]
  rcases sqlFaults with _ | ⟨_ | _, rest⟩
  · refine Or.inr ⟨by simp, ?_⟩
    simp only [World.execSql, List.tail_nil]
    cases (s.apply (toTimeT clock) db).1 <;> rfl
  · refine Or.inr ⟨by simp, ?_⟩
    simp only [World.execSql, List.tail_cons]
    cases (s.apply (toTimeT clock) db).1 <;> rfl
  · exact Or.inl ⟨rfl, rfl⟩

/-- What a lookup that finds `row` returns in a world in which statements may fail. -/
def World.lookup (w : World) (row : Option UserEntity) : Result UserEntity :=
  if w.sqlFaults.head? = some true then failPlain .serviceUnavailable else foundUser (.ok row)

/-- What `FindByMobile` returns. -/
def World.userByMobile (w : World) (mobile : Bytes) : Result UserEntity :=
  w.lookup (w.db.users.find? (·.mobile = mobile))

/-- The world after a statement that changes nothing. -/
def World.read (w : World) : World := { w with sqlFaults := w.sqlFaults.tail }

section Lookups

variable (w : World)

theorem run_findById (id : Int) :
    Program.run exec (UserDB.findById id) w = (w.lookup (w.db.users.find? (·.id = id)), w.read) := by
  obtain ⟨clock, redis, db, redisFaults, sqlFaults⟩ := w
  rcases sqlFaults with _ | ⟨_ | _, rest⟩ <;> rfl

theorem run_findByUUID (uuid : Bytes) :
    Program.run exec (UserDB.findByUUID uuid) w =
      (w.lookup (w.db.users.find? (w.db.sameUuid ·.uuid uuid)), w.read) := by
  obtain ⟨clock, redis, db, redisFaults, sqlFaults⟩ := w
  rcases sqlFaults with _ | ⟨_ | _, rest⟩ <;> rfl

theorem run_findByMobile (mobile : Bytes) :
    Program.run exec (UserDB.findByMobile mobile) w = (w.userByMobile mobile, w.read) := by
  obtain ⟨clock, redis, db, redisFaults, sqlFaults⟩ := w
  rcases sqlFaults with _ | ⟨_ | _, rest⟩ <;> rfl

variable {w} {row : Option UserEntity}

theorem lookup_of_ok {user : UserEntity} (h : w.lookup row = .ok user) : row = some user := by
  unfold World.lookup at h
  split at h
  · cases h
  · cases row with
    | none => cases h
    | some row =>
        cases h
        rfl

theorem lookup_of_fail {code : ErrorCode} {message : String} (h : w.lookup row = .fail code message) :
    code = .userNotFound ∨ code = .serviceUnavailable := by
  unfold World.lookup at h
  split at h
  · cases h
    exact Or.inr rfl
  · cases row with
    | none =>
        cases h
        exact Or.inl rfl
    | some row => cases h

end Lookups

end AccountService
