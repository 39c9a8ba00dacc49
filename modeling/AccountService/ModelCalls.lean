import AccountService.LibraryLog
import AccountService.ModelUser

/-! The requests of the two services as one type, and runs that serve one request after another. A
request is served at one instant; time passes between requests. -/

namespace AccountService

open Interaction

inductive Request
  | sendVerifyCode (mobile : Bytes) (scene : SmsScene)
  | register (mobile verifyCode password displayName : Bytes)
  | loginByPassword (mobile password : Bytes)
  | loginByCode (mobile verifyCode : Bytes)
  | resetPassword (mobile verifyCode newPassword : Bytes)
  | refreshToken (token : Bytes)
  | logout (token : Bytes)
  | logoutAll (userUuid : Bytes)
  | getUser (userUuid : Bytes)
  | updateUser (userUuid : Bytes) (displayName : Option Bytes)
  | changePassword (userUuid oldPassword newPassword : Bytes)
  | deleteUser (userUuid verifyCode : Bytes)
  | setUserDisabled (userUuid : Bytes) (disabled : Bool)
  | cleanExpiredTokens
  deriving DecidableEq

/-- The value a request returns when it succeeds. -/
inductive Answer
  | nothing
  | seconds (n : Int)
  | signedIn (result : AuthResult)
  | tokens (pair : TokenPair)
  | user (user : UserEntity)
  | count (n : Nat)
  deriving DecidableEq

/-- How a call that returns a result ends. -/
def answered {α : Type} (f : α → Answer) (p : Action (Result α)) : Action (Outcome Answer) := do
  return .returned ((← p).map f)

def Outcome.map {α β : Type} (f : α → β) : Outcome α → Outcome β
  | .returned r => .returned (r.map f)
  | .threw => .threw

@[simp] theorem Outcome.code?_map {α β : Type} (f : α → β) (o : Outcome α) : (o.map f).code? = o.code? := by
  rcases o with (_ | _) | _ <;> rfl

/-- The operation behind a request. -/
def handle (env : Env) (draws : Draws) : Request → Action (Outcome Answer)
  | .sendVerifyCode mobile scene => answered .seconds (AuthService.sendVerifyCode env draws mobile scene)
  | .register mobile verifyCode password displayName =>
      answered .signedIn (AuthService.register env draws mobile verifyCode password displayName)
  | .loginByPassword mobile password => do
      return (← AuthService.loginByPassword env draws mobile password).map .signedIn
  | .loginByCode mobile verifyCode =>
      answered .signedIn (AuthService.loginByCode env draws mobile verifyCode)
  | .resetPassword mobile verifyCode newPassword =>
      answered (fun _ => .nothing) (AuthService.resetPassword env draws mobile verifyCode newPassword)
  | .refreshToken token => do return (← AuthService.refreshToken env draws token).map .tokens
  | .logout token => answered (fun _ => .nothing) (AuthService.logout env token)
  | .logoutAll userUuid => answered (fun _ => .nothing) (AuthService.logoutAll userUuid)
  | .getUser userUuid => answered .user (UserService.getUser userUuid)
  | .updateUser userUuid displayName => answered .user (UserService.updateUser userUuid displayName)
  | .changePassword userUuid oldPassword newPassword =>
      answered (fun _ => .nothing)
        (UserService.changePassword env draws userUuid oldPassword newPassword)
  | .deleteUser userUuid verifyCode =>
      answered (fun _ => .nothing) (UserService.deleteUser env userUuid verifyCode)
  | .setUserDisabled userUuid disabled =>
      answered (fun _ => .nothing) (UserService.setUserDisabled userUuid disabled)
  | .cleanExpiredTokens => answered .count TokenRepository.cleanExpiredTokens

/-- A request of a run: the time since the one before, what it draws, and which of its commands
fail. -/
structure Call where
  delay : Nat
  request : Request
  draws : Draws
  redisFaults : List (Option String) := []
  sqlFaults : List Bool := []

/-- The services with the default settings. -/
def defaultEnv : Env := ⟨.openssl, {}⟩

/-- A call some seconds after the one before, with fixed draws and no failing command. -/
def Call.sample (seconds : Nat) (request : Request) : Call where
  delay := seconds * nanosPerSecond
  request := request
  draws := {
    accessJti := ⟨100000, by decide⟩
    refreshJti := ⟨100001, by decide⟩
    salt := ascii "0123456789abcdef"
    uuid := ascii "550e8400-e29b-41d4-a716-446655440000"
    captcha := ascii "123456" }

/-- The world in which a call is made. -/
def Call.world (call : Call) (w : World) : World :=
  { w with
    clock := w.clock + call.delay
    redisFaults := call.redisFaults
    sqlFaults := call.sqlFaults }

/-- A call that has been served: what it was, the world in which it was made and how it ended. -/
structure Event where
  call : Call
  world : World
  outcome : Outcome Answer

namespace Event

variable (e : Event)

def time : Nat := e.world.clock

def request : Request := e.call.request

/-- The call returned `Ok`. -/
def Succeeded : Prop := e.outcome.isOk = true

instance : Decidable e.Succeeded := inferInstanceAs (Decidable (_ = _))

/-- The refresh token that the call handed out. -/
def issued? : Option Bytes :=
  match e.outcome with
  | .returned (.ok (.signedIn result)) => some result.tokens.refreshToken
  | .returned (.ok (.tokens pair)) => some pair.refreshToken
  | _ => none

end Event

def serve (env : Env) (call : Call) (w : World) : Event × World :=
  let r := Program.run exec (handle env call.draws call.request) (call.world w)
  (⟨call, call.world w, r.1⟩, r.2)

end AccountService
