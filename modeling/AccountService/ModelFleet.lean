import AccountService.InstanceDecoding
import AccountService.RegistryNodes

/-! Servers that come and go, each with a registry in a session of its own, and the discovery client that reads what
they have left on the common ZooKeeper. -/

namespace AccountService.Fleet

open Interaction ZooKeeper ServiceRegistry

variable {F : Type}

/-- Server `k` registers in session `k`: what it serves and where it is. -/
structure Plan where
  rootPath : Bytes
  name : Nat → Bytes
  host : Nat → Bytes
  port : Nat → Int32

namespace Plan

variable (plan : Plan)

/-- What `GetAddress` makes of the instances of a server. -/
def address (k : Nat) : Bytes := plan.host k ++ ascii ":" ++ toString (plan.port k).toInt

def servicePath (k : Nat) : Bytes := ServiceRegistry.buildServicePath plan.rootPath (plan.name k)

def path (k : Nat) : Bytes := plan.servicePath k ++ slash :: plan.address k

/-- Names and addresses do not get into each other's way, and no two servers share an address. -/
structure Proper : Prop where
  rooted : plan.rootPath.head? = some slash
  shaped : WellShaped plan.rootPath
  rootEnds : 0 ∉ plan.rootPath
  named : ∀ k, plan.name k ≠ [] ∧ slash ∉ plan.name k ∧ 0 ∉ plan.name k
  usable : ∀ k, plan.host k ≠ [] ∧ 0 < plan.port k
  addressed : ∀ k, slash ∉ plan.address k ∧ 0 ∉ plan.address k
  distinct : ∀ j k, plan.address j = plan.address k → j = k

/-- The instance is one of server `k`; its identifier, weight and metadata are free. -/
structure Describes (k : Nat) (inst : ServiceInstance) : Prop where
  name : inst.serviceName = plan.name k
  host : inst.host = plan.host k
  port : inst.port = plan.port k

end Plan

/-- The process of a server: its registry, the call that it is in the middle of, with what is left of it, and the
instance that it has made known, which is the one of the last call that returned true. -/
structure Member where
  registry : ServiceRegistry
  task : Option (RegistryCall × Program Client (Option Bool × ServiceRegistry)) := none
  published : Option ServiceInstance := none

structure System where
  tree : Tree := []
  member : Nat → Member

inductive Move
  /-- A server that is not in the middle of a call begins one. -/
  | begins (k : Nat) (c : RegistryCall)
  /-- The call of a server goes on by one request, or returns. -/
  | advance (k : Nat)
  /-- The session of a server ends, whose process has ended before or ends now; it starts anew. -/
  | expire (k : Nat)

/-- The instance of a call that begins, if it has one. -/
def Move.instance? : Move → Option ServiceInstance
  | .begins _ c => c.instance?
  | .advance _ => none
  | .expire _ => none

section Semantics

variable (plan : Plan) (legal : Bytes → Bool) (dump : JsonValue F → Option Bytes)

def Member.fresh : Member := { registry := { rootPath := plan.rootPath } }

def Plan.start : System := { member := fun _ => .fresh plan }

def publish (c : RegistryCall) (reply : Option Bool) (before : Option ServiceInstance) : Option ServiceInstance :=
  if reply = some true then c.instance? else before

/-- One move; while a session lives, its client is connected. -/
def step (s : System) : Move → System
  | .begins k c =>
      if (s.member k).task.isSome then s
      else
        let task := some (c, ServiceRegistry.call dump (s.member k).registry c)
        { s with member := Function.update s.member k { s.member k with task := task } }
  | .advance k =>
      match (s.member k).task with
      | none => s
      | some (c, .done (reply, registry)) =>
          let published := publish c reply (s.member k).published
          { s with member := Function.update s.member k { registry := registry, published := published } }
      | some (c, .call cmd next) =>
          match handler legal k cmd ⟨s.tree, true⟩ with
          | (reply, server) => {
              tree := server.tree
              member := Function.update s.member k { s.member k with task := some (c, next reply) } }
  | .expire k => { tree := endSession k s.tree, member := Function.update s.member k (.fresh plan) }

def run (moves : List Move) (s : System) : System := moves.foldl (step plan legal dump) s

/-- A server registers itself, with a text that fits into the buffer of the discovery client. -/
def Permitted : Move → Prop
  | .begins k c => ∀ inst ∈ c.instance?, plan.Describes k inst ∧
      ∀ text, inst.toJson dump = some text → text.length ≤ maxDataSize
  | .advance _ => True
  | .expire _ => True

end Semantics

section Discovery

variable {α : Type} (decode : Bytes → Option α)

/-- The reply of `zoo_get_children`. -/
def children (t : Tree) (path : Bytes) : List Bytes :=
  (t.filter (parentPath ·.1 = cString path)).map (·.1.drop ((cString path).length + 1))

/-- The data of a child, cut off at the end of the buffer. -/
def childData (t : Tree) (path child : Bytes) : Bytes :=
  (((t.node (cString (path ++ slash :: child))).map (·.data)).getD []).take maxDataSize

/-- The nodes as the discovery client reads them, and its list for a service. -/
def view (t : Tree) (path : Bytes) : Handler (Zk α) (Option (List α))
  | .getChildren, cache => (children t path, cache)
  | .getData child, cache => (childData t path child, cache)
  | .storeCache instances, _ => ((), some instances)
  | .registered, cache => (true, cache)
  | .register, cache => ((), cache)
  | .wgetChildren, cache => ((), cache)

/-- `RefreshInstances` on an empty map. -/
def found (t : Tree) (path : Bytes) : List α := (((refreshInstances decode).run (view t path) none).2).getD []

theorem run_collect (t : Tree) (path : Bytes) (names : List Bytes) (instances : List α) (cache : Option (List α)) :
    (collectInstances decode instances names).run (view t path) cache =
      (instances ++ names.flatMap fun child => readInstance decode (childData t path child), cache) := by
  induction names generalizing instances with
  | nil => simp [collectInstances]
  | cons child rest ih =>
      rw [collectInstances, Program.run_call]
      exact (ih _).trans (by rw [List.flatMap_cons, List.append_assoc]; rfl)

theorem found_eq (t : Tree) (path : Bytes) :
    found decode t path = (children t path).flatMap fun child => readInstance decode (childData t path child) := by
  have hrun : ((refreshInstances decode).run (view t path) none).2 =
      some ((children t path).flatMap fun child => readInstance decode (childData t path child)) := by
    rw [refreshInstances, Program.run_call]
    show (Program.run (view t path) (collectInstances decode [] (children t path) >>= _) none).2 = _
    rw [Program.run_bind, run_collect]
    rfl
  rw [found, hrun]
  rfl

theorem found_flatMap (t : Tree) {path : Bytes} (hpath : cString path = path) :
    found decode t path = (t.filter (parentPath ·.1 = path)).flatMap fun e =>
      readInstance decode (childData t path (e.1.drop (path.length + 1))) := by
  rw [found_eq, children, List.flatMap_map, hpath]

end Discovery

end AccountService.Fleet
