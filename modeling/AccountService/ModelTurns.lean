import AccountService.ModelCalls
import AccountService.ModelHandler

/-! All operations of the two services and the remote calls as one type, and runs that serve one after another. -/

namespace AccountService

open Interaction

/-- An operation of the services, or a remote call with the header it carries. -/
inductive Act
  | service (request : Request)
  | validateAccessToken (accessToken : Bytes)
  | listUsers (mobileFilter : Option Bytes) (disabledFilter : Option Bool) (page pageSize : Int32)
  | remote (header : Option Bytes) (rpc : Rpc)
  deriving DecidableEq

inductive ActAnswer
  | service (answer : Answer)
  | validated (result : TokenValidationResult)
  | listed (result : ListUsersResult)
  | remote (answer : RpcAnswer)
  deriving DecidableEq

def Act.handle (env : Env) (draws : Draws) : Act → Action (Outcome ActAnswer)
  | .service request => do return (← AccountService.handle env draws request).map .service
  | .validateAccessToken accessToken => do
      return .returned ((← AuthService.validateAccessToken env accessToken).map .validated)
  | .listUsers mobileFilter disabledFilter page pageSize => do
      return .returned ((← UserService.listUsers mobileFilter disabledFilter page pageSize).map .listed)
  | .remote header rpc => do return .returned ((← UserHandler.serve env draws header rpc).map .remote)

/-- An operation of a run: the time since the one before, what it draws, and which of its Redis commands fail. No
statement fails. -/
structure Turn where
  delay : Nat
  act : Act
  draws : Draws
  redisFaults : List (Option String) := []

def Turn.world (turn : Turn) (w : World) : World :=
  { w with
    clock := w.clock + turn.delay
    redisFaults := turn.redisFaults
    sqlFaults := [] }

/-- An operation that has been served: what it was, the world in which it was made and how it ended. -/
structure Deed where
  turn : Turn
  world : World
  outcome : Outcome ActAnswer

def Deed.Succeeded (d : Deed) : Prop := d.outcome.isOk = true

instance (d : Deed) : Decidable d.Succeeded := inferInstanceAs (Decidable (_ = _))

def serveTurn (env : Env) (turn : Turn) (w : World) : Deed × World :=
  let r := Program.run exec (turn.act.handle env turn.draws) (turn.world w)
  (⟨turn, turn.world w, r.1⟩, r.2)

/-! ### The request behind an operation -/

/-- What `Authenticate` returns at an instant. -/
def UserHandler.authenticateAt (env : Env) (t : Nat) : Option Bytes → Result AuthContext
  | none => .failWith .unauthenticated "缺少认证信息"
  | some authHeader =>
      if authHeader.take bearer.length ≠ bearer then .failWith .unauthenticated "认证格式错误"
      else if authHeader.drop bearer.length = [] then .failWith .unauthenticated "Token 不能为空"
      else
        match verifyAccessToken env.crypto env.config.security t (authHeader.drop bearer.length) with
        | .fail code message => .failWith code message
        | .ok payload => .ok ⟨payload.userId, payload.userUuid, payload.mobile, payload.role⟩

/-- The request that a remote call of an authenticated user turns into, if it gets as far as that. -/
def Rpc.request? (auth : AuthContext) : Rpc → Option Request
  | .getCurrentUser => some (.getUser auth.userUuid)
  | .updateUser displayName => some (.updateUser auth.userUuid displayName)
  | .changePassword oldPassword newPassword =>
      if oldPassword ≠ [] ∧ newPassword ≠ [] ∧ isValidPasswordPlain newPassword = .ok () then
        some (.changePassword auth.userUuid oldPassword newPassword)
      else none
  | .deleteUser verifyCode =>
      if isValidVerifyCodePlain verifyCode = .ok () then some (.deleteUser auth.userUuid verifyCode) else none
  | .getUser id =>
      if (auth.role = .admin ∨ auth.role = .superAdmin) ∧ id ≠ [] then some (.getUser id) else none
  | .listUsers _ _ _ => none

/-- The request of `AuthService` or `UserService` that an operation made at the instant `t` turns into; the others
only read. -/
def Act.request? (env : Env) (t : Nat) : Act → Option Request
  | .service request => some request
  | .validateAccessToken _ | .listUsers _ _ _ _ => none
  | .remote header rpc =>
      match UserHandler.authenticateAt env t header with
      | .fail _ _ => none
      | .ok auth => rpc.request? auth

def Deed.request? (d : Deed) (env : Env) : Option Request := d.turn.act.request? env d.world.clock

end AccountService
