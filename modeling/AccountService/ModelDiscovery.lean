import AccountService.LibraryProgram
import AccountService.ModelBase

/-! `ServiceDiscovery` and `ZooKeeperClient` for one service in one connected session: what `Subscribe` and the
handler of a child event ask of the server, and the server with its one-shot watch. How an instance is decoded
from the data of its node (`FromJson` and `IsValid`) is left open. -/

namespace AccountService

open Interaction

/-- A request of the client, or an access to its maps for the service. -/
inductive ZkCmd (α : Type)
  | getChildren
  | getData (child : Bytes)
  /-- `instance_cache_[service_name] = instances` -/
  | storeCache (instances : List α)
  /-- `watches_[path] = callback` -/
  | register
  /-- `watches_.find(path) != watches_.end()` -/
  | registered
  /-- `zoo_wget_children` -/
  | wgetChildren

/-- The commands with the types of their replies. -/
abbrev Zk (α : Type) : Signature where
  Cmd := ZkCmd α
  Reply
    | .getChildren => List Bytes
    | .getData _ => Bytes
    | .registered => Bool
    | .storeCache _ | .register | .wgetChildren => Unit

section Client

variable {α : Type} (decode : Bytes → Option α)

/-- What one node adds to the list: nothing if it has no data or no valid instance. -/
def readInstance (data : Bytes) : List α := if data.isEmpty then [] else (decode data).toList

/-- The loop of `RefreshInstances` over the children. -/
def collectInstances (instances : List α) : List Bytes → Program (Zk α) (List α)
  | [] => pure instances
  | child :: rest =>
      .call (.getData child) fun data => collectInstances (instances ++ readInstance decode data) rest

def refreshInstances : Program (Zk α) Unit :=
  .call .getChildren fun children => collectInstances decode [] children >>= fun instances =>
    .call (.storeCache instances) fun _ => pure ()

def watchChildren : Program (Zk α) Unit := .call .register fun _ => .call .wgetChildren fun _ => pure ()

def subscribe : Program (Zk α) Unit := refreshInstances decode >>= fun _ => watchChildren

def resetWatch : Program (Zk α) Unit :=
  .call .registered fun (found : Bool) => if found then .call .wgetChildren fun _ => pure () else pure ()

def handleChildEvent : Program (Zk α) Unit :=
  .call .registered fun (found : Bool) =>
    if found then refreshInstances decode >>= fun _ => resetWatch else pure ()

end Client

/-! ### The session -/

/-- `kMaxDataSize`. -/
def maxDataSize : Nat := 65536

/-- How far a running `Subscribe` or handler is with its list. -/
inductive Phase
  | before
  | holding (version : Nat)
  | written
  deriving DecidableEq

/-- A `Subscribe` or a handler, with the version of the children it has read. -/
structure Task (α : Type) where
  handler : Bool
  phase : Phase
  program : Program (Zk α) Unit

def Task.running {α : Type} (t : Task α) : Bool := t.program.next?.isSome

/-- The service node and the client. `version` counts the changes of the children (`cversion`), `undelivered`
the events that the client has not taken yet. -/
structure Session (α : Type) where
  present : Bool
  children : List (Bytes × Bytes)
  version : Nat
  armed : Bool
  undelivered : Nat
  watched : Bool
  cache : Option (List α)
  tasks : List (Task α)

namespace Session

variable {α : Type} (decode : Bytes → Option α)

/-- The children change; an armed watch fires once. -/
def change (s : Session α) (children : List (Bytes × Bytes)) : Session α :=
  { s with
    children := children
    version := s.version + 1
    armed := false
    undelivered := if s.armed then s.undelivered + 1 else s.undelivered }

def createNode (s : Session α) (child data : Bytes) : Session α :=
  if s.present ∧ child ∉ s.children.map Prod.fst then s.change (s.children ++ [(child, data)]) else s

def deleteNode (s : Session α) (child : Bytes) : Session α :=
  if child ∈ s.children.map Prod.fst then s.change (s.children.filter (·.1 ≠ child)) else s

/-- The reply to a command. -/
def reply (s : Session α) : (c : ZkCmd α) → (Zk α).Reply c
  | .getChildren => s.children.map Prod.fst
  | .getData child => ((s.children.lookup child).getD []).take maxDataSize
  | .registered => s.watched
  | .storeCache _ | .register | .wgetChildren => ()

/-- What a command changes. -/
def effect (s : Session α) : ZkCmd α → Session α
  | .storeCache instances => { s with cache := some instances }
  | .register => { s with watched := true }
  -- no watch is left on a node that does not exist
  | .wgetChildren => { s with armed := s.present || s.armed }
  | .getChildren | .getData _ | .registered => s

/-- What a command says about the list of the task that issues it. -/
def phaseAfter (s : Session α) (phase : Phase) : ZkCmd α → Phase
  | .getChildren => .holding s.version
  | .storeCache _ => .written
  | .getData _ | .register | .registered | .wgetChildren => phase

/-- A task issues its next command. -/
def advance (s : Session α) (i : Nat) : Session α :=
  match s.tasks[i]? with
  | some ⟨handler, phase, .call c next⟩ =>
      { s.effect c with tasks := s.tasks.set i ⟨handler, s.phaseAfter phase c, next (s.reply c)⟩ }
  | _ => s

/-- The thread of the client library takes an event, when it is not busy with another one. -/
def deliver (s : Session α) : Session α :=
  if 0 < s.undelivered ∧ s.tasks.all (fun t => !(t.handler && t.running)) then
    { s with
      undelivered := s.undelivered - 1
      tasks := s.tasks ++ [⟨true, .before, handleChildEvent decode⟩] }
  else s

end Session

inductive DiscoveryMove
  | createNode (child data : Bytes)
  | deleteNode (child : Bytes)
  | subscribe
  | deliver
  | advance (i : Nat)
  deriving DecidableEq

def DiscoveryMove.step {α : Type} (decode : Bytes → Option α) (s : Session α) : DiscoveryMove → Session α
  | .createNode child data => s.createNode child data
  | .deleteNode child => s.deleteNode child
  | .subscribe => { s with tasks := s.tasks ++ [⟨false, .before, AccountService.subscribe decode⟩] }
  | .deliver => s.deliver decode
  | .advance i => s.advance i

/-- The session after a sequence of moves. -/
def discover {α : Type} (decode : Bytes → Option α) (moves : List DiscoveryMove) (s : Session α) : Session α :=
  moves.foldl (DiscoveryMove.step decode) s

end AccountService
