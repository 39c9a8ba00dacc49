import Mathlib.Data.List.Basic
import Mathlib.Tactic.Common

/-! `TemplateConnectionPool`: the deque of idle connections and the guards that hold the others. `Acquire` and
`Release` hold the mutex from their test of the connection to their end, so that each of them is one step. -/

namespace AccountService

/-- What a call of `createConnFunc_` does: it makes a connection, returns null or throws. -/
inductive Creation
  | made | null | raised
  deriving DecidableEq

inductive PoolError
  /-- Thrown by `createConnFunc_`. -/
  | creationRaised
  /-- "Failed to create connection during pool initialization" -/
  | initFailed
  /-- "Failed to acquire connection in ConnectionGuard" -/
  | acquireFailed
  deriving DecidableEq

/-- The pool. A connection is known by the number of the call of `createConnFunc_` that made it; a guard that
has been moved from or destroyed holds nothing. -/
structure Pool where
  idle : List Nat
  guards : List (Option Nat)
  calls : Nat
  deriving DecidableEq

namespace Pool

variable (create : Nat → Creation)

/-- `createConnFunc_(*config_)`. -/
def createConn (p : Pool) : Except PoolError (Option Nat) × Pool :=
  let reply := match create p.calls with
    | .made => .ok (some p.calls)
    | .null => .ok none
    | .raised => .error .creationRaised
  (reply, { p with calls := p.calls + 1 })

/-- The loop of `InitPool`. -/
def initLoop : Nat → Pool → Except PoolError Pool
  | 0, p => .ok p
  | n + 1, p =>
      match p.createConn create with
      | (.error e, _) => .error e
      | (.ok none, _) => .error .initFailed
      | (.ok (some conn), p) => initLoop n { p with idle := p.idle ++ [conn] }

def initPool (poolSize : Int) : Except PoolError Pool := initLoop create poolSize.toNat ⟨[], [], 0⟩

/-- `Acquire`; `valid` is what `Valid()` answers. -/
def acquire (valid : Bool) (p : Pool) : Except PoolError (Option Nat) × Pool :=
  match p.idle with
  -- the wait of five seconds ends and there is still no connection
  | [] => (.ok none, p)
  | conn :: rest =>
      let p := { p with idle := rest }
      if valid then (.ok (some conn), p) else p.createConn create

def release (conn : Option Nat) (valid : Bool) (p : Pool) : Except PoolError Unit × Pool :=
  if conn.isNone || !valid then
    match p.createConn create with
    | (.error e, p) => (.error e, p)
    | (.ok none, p) => (.ok (), p)
    | (.ok (some fresh), p) => (.ok (), { p with idle := p.idle ++ [fresh] })
  else (.ok (), { p with idle := p.idle ++ conn.toList })

/-- `CreateConnection`: the constructor of a guard. -/
def createConnection (valid : Bool) (p : Pool) : Except PoolError Unit × Pool :=
  match p.acquire create valid with
  | (.error e, p) => (.error e, p)
  | (.ok none, p) => (.error .acquireFailed, p)
  | (.ok (some conn), p) => (.ok (), { p with guards := p.guards ++ [some conn] })

/-- The move constructor: a new guard takes the connection of guard `i`. -/
def moveGuard (i : Nat) (p : Pool) : Pool :=
  match p.guards[i]? with
  | none => p
  | some conn => { p with guards := p.guards.set i none ++ [conn] }

/-- The destructor of guard `i`. -/
def destroyGuard (i : Nat) (valid : Bool) (p : Pool) : Except PoolError Unit × Pool :=
  match p.guards[i]? with
  | some (some conn) => release create (some conn) valid { p with guards := p.guards.set i none }
  | _ => (.ok (), p)

end Pool

/-- What the users of a pool do, with the answers of `Valid()`. -/
inductive PoolOp
  | createConnection (valid : Bool)
  | moveGuard (i : Nat)
  | destroyGuard (i : Nat) (valid : Bool)
  deriving DecidableEq

def PoolOp.isDestruction : PoolOp → Bool
  | .destroyGuard _ _ => true
  | _ => false

def PoolOp.step (create : Nat → Creation) (p : Pool) : PoolOp → Except PoolError Unit × Pool
  | .createConnection valid => p.createConnection create valid
  | .moveGuard i => (.ok (), p.moveGuard i)
  | .destroyGuard i valid => p.destroyGuard create i valid

end AccountService
