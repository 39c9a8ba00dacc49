import AccountService.LibraryExpiring
import AccountService.LibraryProgram
import AccountService.ModelEntity

/-! The state the service works on and the commands it issues: the clock, the Redis commands of
`RedisClient`, and the SQL statements of `UserDB` and `TokenRepository`. Every command is atomic. A
command can also be made to fail, in which case it changes nothing and its caller sees an
exception. -/

namespace AccountService

open Decimal Expiring Interaction

abbrev Redis := Store Bytes Bytes

inductive RedisCmd
  | get (key : Bytes)
  | psetex (key : Bytes) (ttl : Int) (value : Bytes)
  | existsKey (key : Bytes)
  | del (key : Bytes)
  | pexpire (key : Bytes) (ttl : Int)
  | pttl (key : Bytes)
  | incr (key : Bytes)
  deriving DecidableEq

namespace RedisCmd

abbrev Reply : RedisCmd → Type
  | .get _ => Option Bytes
  | .psetex _ _ _ => Unit
  | .existsKey _ => Nat
  | .del _ => Nat
  | .pexpire _ _ => Bool
  | .pttl _ => Int
  | .incr _ => Int

/-- The key a command is about. -/
def key : RedisCmd → Bytes
  | .get k | .psetex k _ _ | .existsKey k | .del k | .pexpire k _ | .pttl k | .incr k => k

end RedisCmd

/-- The instant `ttl` milliseconds after `now`. -/
def deadlineAfter (now : Nat) (ttl : Int) : Nat := now + ttl.toNat * nanosPerMilli

/-- The integer a Redis string holds: only the text of an `int64` counts. -/
def redisInt (value : Bytes) : Option Int := (stoll value).filter (fun n => toString n = value)

theorem redisInt_toString {n : Int} (h : IsInt64 n) : redisInt (toString n) = some n := by
  simp [redisInt, stoll_toString h, Option.filter]

/-- One Redis command at an instant. -/
def RedisCmd.apply (now : Nat) (s : Redis) : (c : RedisCmd) → Except String c.Reply × Redis
  | .get k => (.ok ((s.look now k).map (·.value)), s)
  | .psetex k ttl v =>
      if 0 < ttl then (.ok (), s.put k ⟨v, some (deadlineAfter now ttl)⟩)
      else (.error "ERR invalid expire time in 'psetex' command", s)
  | .existsKey k => (.ok (if (s.look now k).isSome then 1 else 0), s)
  | .del k => (.ok (if (s.look now k).isSome then 1 else 0), s.erase k)
  | .pexpire k ttl =>
      match s.look now k with
      | none => (.ok false, s)
      | some e =>
          if 0 < ttl then (.ok true, s.put k ⟨e.value, some (deadlineAfter now ttl)⟩)
          else (.ok true, s.erase k)
  | .pttl k =>
      match s.look now k with
      | none => (.ok (-2), s)
      | some ⟨_, none⟩ => (.ok (-1), s)
      | some ⟨_, some d⟩ => (.ok (((d - now) / nanosPerMilli : Nat) : Int), s)
  | .incr k =>
      match s.look now k with
      | none => (.ok 1, s.put k ⟨toString 1, none⟩)
      | some e =>
          match redisInt e.value with
          | none => (.error "ERR value is not an integer or out of range", s)
          | some n =>
              if IsInt64 (n + 1) then (.ok (n + 1), s.put k ⟨toString (n + 1), e.deadline⟩)
              else (.error "ERR increment or decrement would overflow", s)

/-- The two tables. `uuidKey` is the sort key under which the collation of `users` compares the `uuid`
column, whose values come from the callers. The other texts that statements compare are digits and
lower-case hexadecimal digits, on which the collation is equality. -/
structure Database where
  users : List UserEntity
  nextUserId : Nat
  sessions : List TokenSession
  nextSessionId : Nat
  uuidKey : Bytes → Bytes

/-- Empty tables. -/
def Database.empty (uuidKey : Bytes → Bytes) : Database := ⟨[], 1, [], 1, uuidKey⟩

/-- `uuid = ?`. -/
def Database.sameUuid (db : Database) (a b : Bytes) : Bool := db.uuidKey a = db.uuidKey b

/-- The unique keys of the two tables. -/
inductive UniqueKey
  | ukUuid
  | ukMobile
  | ukTokenHash
  deriving DecidableEq, Repr

/-- What a statement throws: a duplicate entry for a key, or anything else. -/
inductive SqlError
  | duplicateKey (key : UniqueKey)
  | other
  deriving DecidableEq, Repr

/-- The columns `UserDB::Update` writes, and the uuid of the row. -/
structure UserUpdate where
  displayName : Bytes
  passwordHash : Bytes
  disabled : Bool
  role : UserRole
  uuid : Bytes
  deriving DecidableEq, Repr

/-- The conditions of a listing: `mobile LIKE ?` and `disabled = ?`. -/
structure UserFilter where
  mobileLike : Option Bytes
  disabled : Option Bool
  deriving DecidableEq

/-- `LIKE`: `%` stands for any text, `_` for one byte, and a backslash takes the next byte as it is. -/
def like : Bytes → Bytes → Bool
  | [], text => text.isEmpty
  | 92 :: c :: pattern, text =>
      match text with
      | [] => false
      | t :: rest => t = c && like pattern rest
  | 37 :: pattern, text => text.tails.any (like pattern)
  | c :: pattern, text =>
      match text with
      | [] => false
      | t :: rest => (c = 95 || t = c) && like pattern rest

namespace UserFilter

/-- `%` before and after the text that is looked for. -/
def Matches (f : UserFilter) (row : UserEntity) : Bool :=
  f.mobileLike.all (fun text => like (37 :: text ++ [37]) row.mobile) && f.disabled.all (row.disabled = ·)

end UserFilter

/-- `ORDER BY created_at DESC, id DESC`. -/
def UserEntity.NotAfter (a b : UserEntity) : Prop :=
  b.createdAt < a.createdAt ∨ (a.createdAt = b.createdAt ∧ b.id ≤ a.id)

instance (a b : UserEntity) : Decidable (a.NotAfter b) := inferInstanceAs (Decidable (_ ∨ _))

inductive SqlStmt
  | selectUserById (id : Int)
  | selectUserByUuid (uuid : Bytes)
  | selectUserByMobile (mobile : Bytes)
  | existsMobile (mobile : Bytes)
  | countUsers (filter : UserFilter)
  | selectUsers (filter : UserFilter) (offset limit : Int)
  | insertUser (uuid mobile displayName passwordHash : Bytes) (role : UserRole)
  | updateUser (u : UserUpdate)
  | insertSession (userId : Int) (tokenHash : Bytes) (expiresAt : Nat)
  | selectValidSession (tokenHash : Bytes)
  | countActiveSessions (userId : Int)
  | deleteSessionByHash (tokenHash : Bytes)
  | deleteSessionsByUser (userId : Int)
  | deleteExpiredSessions
  deriving DecidableEq

abbrev SqlStmt.Rows : SqlStmt → Type
  | .selectUserById _ | .selectUserByUuid _ | .selectUserByMobile _ => Option UserEntity
  | .existsMobile _ | .selectValidSession _ => Bool
  | .selectUsers _ _ _ => List UserEntity
  | .insertUser _ _ _ _ _ | .insertSession _ _ _ => Unit
  | .updateUser _ | .countActiveSessions _ | .countUsers _ => Nat
  | .deleteSessionByHash _ | .deleteSessionsByUser _ | .deleteExpiredSessions => Nat

namespace UserUpdate

/-- The row already holds what the update writes. -/
def Holds (u : UserUpdate) (row : UserEntity) : Prop :=
  row.displayName = u.displayName ∧ row.passwordHash = u.passwordHash ∧
    row.disabled = u.disabled ∧ row.role = u.role

instance (u : UserUpdate) (row : UserEntity) : Decidable (u.Holds row) :=
  inferInstanceAs (Decidable (_ ∧ _))

/-- The row after the update; `updated_at` follows only when a column changes. -/
def write (u : UserUpdate) (db : Database) (second : Nat) (row : UserEntity) : UserEntity :=
  if db.sameUuid row.uuid u.uuid ∧ ¬u.Holds row then
    { row with
      displayName := u.displayName
      passwordHash := u.passwordHash
      disabled := u.disabled
      role := u.role
      updatedAt := second }
  else row

/-- The number of rows the update really changes, which is what `mysql_affected_rows` reports for a
connection opened without `CLIENT_FOUND_ROWS`. -/
def affected (u : UserUpdate) (db : Database) : Nat :=
  db.users.countP fun row => db.sameUuid row.uuid u.uuid ∧ ¬u.Holds row

end UserUpdate

/-- One SQL statement; `second` is the value of `NOW()`. An `AUTO_INCREMENT` column that has run
through the range of `int64_t` gives no further value and the insertion fails. -/
def SqlStmt.apply (second : Nat) (db : Database) : (s : SqlStmt) → Except SqlError s.Rows × Database
  | .selectUserById id => (.ok (db.users.find? (·.id = id)), db)
  | .selectUserByUuid uuid => (.ok (db.users.find? (db.sameUuid ·.uuid uuid)), db)
  | .selectUserByMobile mobile => (.ok (db.users.find? (·.mobile = mobile)), db)
  | .existsMobile mobile => (.ok (db.users.any (·.mobile = mobile)), db)
  | .countUsers filter => (.ok (db.users.countP filter.Matches), db)
  | .selectUsers filter offset limit =>
      -- `LIMIT` takes no negative number
      (if offset < 0 ∨ limit < 0 then .error .other
        else .ok ((((db.users.filter filter.Matches).insertionSort UserEntity.NotAfter).drop
          offset.toNat).take limit.toNat), db)
  | .insertUser uuid mobile displayName passwordHash role =>
      if db.users.any (db.sameUuid ·.uuid uuid) then (.error (.duplicateKey .ukUuid), db)
      else if db.users.any (·.mobile = mobile) then (.error (.duplicateKey .ukMobile), db)
      else if 2 ^ 63 ≤ db.nextUserId then (.error .other, db)
      else
        (.ok (), { db with
          users := db.users ++ [{
            id := db.nextUserId
            uuid := uuid
            mobile := mobile
            displayName := displayName
            passwordHash := passwordHash
            role := role
            createdAt := second
            updatedAt := second }]
          nextUserId := db.nextUserId + 1 })
  | .updateUser u => (.ok (u.affected db), { db with users := db.users.map (u.write db second) })
  | .insertSession userId tokenHash expiresAt =>
      if db.sessions.any (·.tokenHash = tokenHash) then (.error (.duplicateKey .ukTokenHash), db)
      else if ¬db.users.any (·.id = userId) then (.error .other, db)
      else
        (.ok (), { db with
          sessions := db.sessions ++ [{
            id := db.nextSessionId
            userId := userId
            tokenHash := tokenHash
            expiresAt := expiresAt
            createdAt := second }]
          nextSessionId := db.nextSessionId + 1 })
  | .selectValidSession tokenHash =>
      (.ok (db.sessions.any fun r => r.tokenHash = tokenHash ∧ second < r.expiresAt), db)
  | .countActiveSessions userId =>
      (.ok (db.sessions.countP fun r => r.userId = userId ∧ second < r.expiresAt), db)
  | .deleteSessionByHash tokenHash =>
      (.ok (db.sessions.countP (·.tokenHash = tokenHash)),
        { db with sessions := db.sessions.filter (·.tokenHash ≠ tokenHash) })
  | .deleteSessionsByUser userId =>
      (.ok (db.sessions.countP (·.userId = userId)),
        { db with sessions := db.sessions.filter (·.userId ≠ userId) })
  | .deleteExpiredSessions =>
      (.ok (db.sessions.countP (·.expiresAt ≤ second)),
        { db with sessions := db.sessions.filter (second < ·.expiresAt) })

/-- `redisFaults` and `sqlFaults` say, for the commands still to come, which of them fail. -/
structure World where
  clock : Nat
  redis : Redis
  db : Database
  redisFaults : List (Option String) := []
  sqlFaults : List Bool := []

/-- An empty Redis and empty tables, at an instant. -/
def emptyWorld (clock : Nat) : World := ⟨clock, Store.empty, Database.empty id, [], []⟩

inductive Cmd
  | now
  | redis (c : RedisCmd)
  | sql (s : SqlStmt)
  deriving DecidableEq

abbrev Cmd.Reply : Cmd → Type
  | .now => Nat
  | .redis c => Except String c.Reply
  | .sql s => Except SqlError s.Rows

abbrev Service : Signature := ⟨Cmd, Cmd.Reply⟩

abbrev Action (α : Type) := Program Service α

def World.execRedis (w : World) (c : RedisCmd) : Except String c.Reply × World :=
  match w.redisFaults with
  | some message :: rest => (.error message, { w with redisFaults := rest })
  | faults =>
      let r := c.apply w.clock w.redis
      (r.1, { w with redis := r.2, redisFaults := faults.tail })

def World.execSql (w : World) (s : SqlStmt) : Except SqlError s.Rows × World :=
  match w.sqlFaults with
  | true :: rest => (.error .other, { w with sqlFaults := rest })
  | faults =>
      let r := s.apply (toTimeT w.clock) w.db
      (r.1, { w with db := r.2, sqlFaults := faults.tail })

/-- The semantics of the commands. -/
def exec : Handler Service World
  | .now, w => (w.clock, w)
  | .redis c, w => w.execRedis c
  | .sql s, w => w.execSql s

def now : Action Nat := Program.perform (S := Service) .now

def redis (c : RedisCmd) : Action (Except String c.Reply) := Program.perform (S := Service) (.redis c)

def sql (s : SqlStmt) : Action (Except SqlError s.Rows) := Program.perform (S := Service) (.sql s)

/-- A program on its own, from the first command to the last. -/
abbrev Action.run {α : Type} (p : Action α) (w : World) : α × World := Program.run exec p w

@[simp] theorem run_now (w : World) : Program.run exec now w = (w.clock, w) := rfl

@[simp] theorem run_redis (c : RedisCmd) (w : World) : Program.run exec (redis c) w = w.execRedis c := rfl

@[simp] theorem run_sql (s : SqlStmt) (w : World) : Program.run exec (sql s) w = w.execSql s := rfl

theorem execRedis_eq {w : World} (h : w.redisFaults = []) (c : RedisCmd) :
    w.execRedis c =
      ((c.apply w.clock w.redis).1, { w with redis := (c.apply w.clock w.redis).2 }) := by
  simp [World.execRedis, h]

theorem execSql_eq {w : World} (h : w.sqlFaults = []) (s : SqlStmt) :
    w.execSql s =
      ((s.apply (toTimeT w.clock) w.db).1, { w with db := (s.apply (toTimeT w.clock) w.db).2 }) := by
  simp [World.execSql, h]

@[simp] theorem exec_now (w : World) : exec .now w = (w.clock, w) := rfl

/-- A statement fails and changes nothing, or does what MySQL does. -/
theorem execSql_cases (w : World) (s : SqlStmt) :
    (w.execSql s).1 = .error .other ∧ (w.execSql s).2.db = w.db ∨
      (w.execSql s).1 = (s.apply (toTimeT w.clock) w.db).1 ∧
        (w.execSql s).2.db = (s.apply (toTimeT w.clock) w.db).2 := by
  simp only [World.execSql]
  split <;> simp

@[simp] theorem exec_redis_db (w : World) (c : RedisCmd) : (exec (.redis c) w).2.db = w.db := by
  simp only [exec, World.execRedis]
  split <;> rfl

@[simp] theorem exec_redis_sqlFaults (w : World) (c : RedisCmd) :
    (exec (.redis c) w).2.sqlFaults = w.sqlFaults := by
  simp only [exec, World.execRedis]
  split <;> rfl

@[simp] theorem exec_sql_redis (w : World) (s : SqlStmt) : (exec (.sql s) w).2.redis = w.redis := by
  simp only [exec, World.execSql]
  split <;> rfl

@[simp] theorem exec_sql_redisFaults (w : World) (s : SqlStmt) :
    (exec (.sql s) w).2.redisFaults = w.redisFaults := by
  simp only [exec, World.execSql]
  split <;> rfl

theorem exec_sqlFaults {w : World} (h : w.sqlFaults = []) (c : Cmd) : (exec c w).2.sqlFaults = [] := by
  cases c with
  | now => exact h
  | redis c => rw [exec_redis_sqlFaults, h]
  | sql s => simp [exec, World.execSql, h]

@[simp] theorem exec_clock (w : World) (c : Cmd) : (exec c w).2.clock = w.clock := by
  cases c with
  | now => rfl
  | redis c =>
      simp only [exec, World.execRedis]
      split <;> rfl
  | sql s =>
      simp only [exec, World.execSql]
      split <;> rfl

end AccountService
