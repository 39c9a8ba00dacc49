import AccountService.ModelPool
import AccountService.ModelRepository

/-! `UserDB::Create` on the connection pool. `Create` keeps its connection while `FindByUUID` takes another one out of
the same pool. -/

namespace AccountService

open Interaction

/-- The pool and the tables behind it, with what is still to happen to them: the answers of `Valid()` and which
statements fail. Both are good news once the list is used up. -/
structure Backend where
  clock : Nat
  pool : Pool
  db : Database
  answers : List Bool := []
  sqlFaults : List Bool := []

/-- What a function of `UserDB` does with the pool and with a connection that it holds. -/
inductive PooledCmd
  | createConnection
  | valid
  | execute (s : SqlStmt)
  | destroyGuard (guard : Nat)

abbrev PooledCmd.Reply : PooledCmd → Type
  | .createConnection => Except PoolError Nat
  | .valid => Bool
  | .execute s => Except SqlError s.Rows
  | .destroyGuard _ => Except PoolError Unit

abbrev Pooled : Signature := ⟨PooledCmd, PooledCmd.Reply⟩

section Semantics

variable (create : Nat → Creation)

/-- The reply is the number of the new guard. -/
def Backend.createConnection (b : Backend) : Except PoolError Nat × Backend :=
  let r := b.pool.createConnection create (b.answers.headD true)
  (r.1.map fun _ => b.pool.guards.length,
    { b with
      pool := r.2
      -- `Valid()` is not asked when there is no connection
      answers := if b.pool.idle = [] then b.answers else b.answers.tail })

def Backend.execute (b : Backend) (s : SqlStmt) : Except SqlError s.Rows × Backend :=
  match b.sqlFaults with
  | true :: rest => (.error .other, { b with sqlFaults := rest })
  | faults =>
      let r := s.apply (toTimeT b.clock) b.db
      (r.1, { b with db := r.2, sqlFaults := faults.tail })

def Backend.destroyGuard (b : Backend) (guard : Nat) : Except PoolError Unit × Backend :=
  let r := b.pool.destroyGuard create guard (b.answers.headD true)
  (r.1, { b with pool := r.2, answers := b.answers.tail })

/-- The semantics of the commands. -/
def execPooled : Handler Pooled Backend
  | .createConnection, b => b.createConnection create
  | .valid, b => (b.answers.headD true, { b with answers := b.answers.tail })
  | .execute s, b => b.execute s
  | .destroyGuard guard, b => b.destroyGuard create guard

end Semantics

/-- A function of `UserDB`. It returns nothing if the process is terminated by an exception in a destructor. -/
abbrev PooledCall := Program Pooled (Option (Result UserEntity))

namespace PooledDB

def perform (c : PooledCmd) : Program Pooled c.Reply := Program.perform (S := Pooled) c

/-- The end of the scope of a guard. -/
def leave (guard : Nat) (r : Result UserEntity) : PooledCall := do
  match ← perform (.destroyGuard guard) with
  | .ok _ => return some r
  | .error _ => return none

/-- A connection of the pool and its check by the macro `CHECK_CONN`. -/
def withConnection (body : Nat → PooledCall) : PooledCall := do
  match ← perform .createConnection with
  | .error _ => return some (failPlain .serviceUnavailable)
  | .ok conn =>
      match ← perform .valid with
      | false => leave conn (failPlain .serviceUnavailable)
      | true => body conn

/-- `FindByField` for the column `uuid`. -/
def findByUUID (uuid : Bytes) : PooledCall := withConnection fun conn => do
  match ← perform (.execute (.selectUserByUuid uuid)) with
  | .error _ => leave conn (failPlain .serviceUnavailable)
  | .ok none => leave conn (failPlain .userNotFound)
  | .ok (some user) => leave conn (.ok user)

/-- `Create`, with what `UUIDHelper::Generate` returns as an argument. -/
def create (uuid : Bytes) (user : UserEntity) : PooledCall := withConnection fun conn => do
  match ← perform (.execute (.insertUser uuid user.mobile user.displayName user.passwordHash user.role)) with
  | .error (.duplicateKey .ukMobile) => leave conn (failPlain .mobileTaken)
  | .error (.duplicateKey _) => leave conn (failPlain .userAlreadyExists)
  | .error .other => leave conn (failPlain .serviceUnavailable)
  | .ok _ =>
      -- `conn` is still held
      match ← findByUUID uuid with
      | none => return none
      | some r => leave conn r

end PooledDB

/-- Calls of `Create` that share a pool. -/
abbrev Creators := System Pooled Backend (Option (Result UserEntity))

/-- A call of `Create`: the UUID that it draws and its argument. -/
structure CreateCall where
  uuid : Bytes
  user : UserEntity

def creators (calls : List CreateCall) (b : Backend) : Creators where
  shared := b
  threads := calls.map fun call => PooledDB.create call.uuid call.user

/-- Time passes. -/
def Backend.passTime (delay : Nat) (b : Backend) : Backend := { b with clock := b.clock + delay }

end AccountService
