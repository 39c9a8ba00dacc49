import AccountService.LibraryProgram
import AccountService.ModelBase

/-! The ZooKeeper server as a tree of nodes, and the functions of `ZooKeeperClient` that write to it. A
request is atomic. What the server accepts as the name of a node, beyond that a name is not empty, is
left open. -/

namespace AccountService.ZooKeeper

open Interaction

/-- `/`. -/
def slash : UInt8 := 47

/-- `path.c_str()`, as the client library reads it. -/
def cString (s : Bytes) : Bytes := s.takeWhile (· ≠ 0)

/-- A path is `/`, or `/` and names that are not empty, separated by `/`. -/
def validPath (legal : Bytes → Bool) : Bytes → Bool
  | [] => false
  | c :: rest => c = slash && (rest.isEmpty || (rest.splitOn slash).all fun name => !name.isEmpty && legal name)

/-- The path up to the last `/`; it is empty for the children of the root. -/
def parentPath (path : Bytes) : Bytes := ((path.reverse.dropWhile (· ≠ slash)).drop 1).reverse

/-- A node with the session it ends with, if it is ephemeral. -/
structure Node where
  data : Bytes
  owner : Option Nat
  deriving DecidableEq

/-- The nodes; the root needs no entry. -/
abbrev Tree := List (Bytes × Node)

namespace Tree

def node (t : Tree) (path : Bytes) : Option Node := (t.find? (·.1 = path)).map Prod.snd

/-- The root is always there. -/
def present (t : Tree) (path : Bytes) : Bool := path = [] || path = [slash] || (t.node path).isSome

def ephemeral (t : Tree) (path : Bytes) : Bool := (t.node path).any (·.owner.isSome)

def write (t : Tree) (path data : Bytes) : Tree :=
  t.map fun e => if e.1 = path then (e.1, { e.2 with data := data }) else e

def hasChildren (t : Tree) (path : Bytes) : Bool := t.any fun e => parentPath e.1 = path

end Tree

/-- The codes of the library that the client tells apart, or gets from a faithful server. -/
inductive Code
  | ok
  | nodeExists
  | noNode
  | notEmpty
  | noChildrenForEphemerals
  | badArguments
  | connectionLoss
  deriving DecidableEq

section Server

variable (legal : Bytes → Bool)

/-- `zoo_create` by a session. -/
def zooCreate (session : Nat) (path data : Bytes) (ephemeral : Bool) (t : Tree) : Code × Tree :=
  let path := cString path
  if !validPath legal path then (.badArguments, t)
  else if !t.present (parentPath path) then (.noNode, t)
  else if t.present path then (.nodeExists, t)
  else if t.ephemeral (parentPath path) then (.noChildrenForEphemerals, t)
  else (.ok, t ++ [(path, ⟨data, if ephemeral then some session else none⟩)])

def zooExists (path : Bytes) (t : Tree) : Code :=
  let path := cString path
  if !validPath legal path then .badArguments
  else if t.present path then .ok
  else .noNode

/-- `zoo_delete` of any version. -/
def zooDelete (path : Bytes) (t : Tree) : Code × Tree :=
  let path := cString path
  if !validPath legal path || path = [slash] then (.badArguments, t)
  else if !t.present path then (.noNode, t)
  else if t.hasChildren path then (.notEmpty, t)
  else (.ok, t.filter (·.1 ≠ path))

/-- `zoo_set` of any version; the root gets its entry with its first data. -/
def zooSet (path data : Bytes) (t : Tree) : Code × Tree :=
  let path := cString path
  if !validPath legal path then (.badArguments, t)
  else if !t.present path then (.noNode, t)
  else if (t.node path).isNone then (.ok, t ++ [(path, ⟨data, none⟩)])
  else (.ok, t.write path data)

/-- The end of a session: its ephemeral nodes go. -/
def endSession (session : Nat) (t : Tree) : Tree := t.filter (·.2.owner ≠ some session)

end Server

/-- The requests of the client, and its look at the state of its connection. -/
inductive ClientCmd
  | isConnected
  | create (path data : Bytes) (ephemeral : Bool)
  | delete (path : Bytes)
  | exists (path : Bytes)
  | set (path data : Bytes)
  deriving DecidableEq

abbrev Client : Signature where
  Cmd := ClientCmd
  Reply
    | .isConnected => Bool
    | _ => Code

/-- The server, and whether the client is connected to it. -/
structure Server where
  tree : Tree
  connected : Bool
  deriving DecidableEq

/-- A command of a session; without a connection a request is lost. -/
def handler (legal : Bytes → Bool) (session : Nat) : Handler Client Server
  | .isConnected, s => (s.connected, s)
  | .create path data ephemeral, s =>
      if s.connected then
        match zooCreate legal session path data ephemeral s.tree with
        | (code, tree) => (code, { s with tree := tree })
      else (Code.connectionLoss, s)
  | .delete path, s =>
      if s.connected then
        match zooDelete legal path s.tree with
        | (code, tree) => (code, { s with tree := tree })
      else (Code.connectionLoss, s)
  | .exists path, s => (if s.connected then zooExists legal path s.tree else Code.connectionLoss, s)
  | .set path data, s =>
      if s.connected then
        match zooSet legal path data s.tree with
        | (code, tree) => (code, { s with tree := tree })
      else (Code.connectionLoss, s)

def deleteNode (path : Bytes) : Program Client Bool :=
  .call .isConnected fun (connected : Bool) =>
    if connected then
      .call (.delete path) fun (rc : Code) => pure (rc = .ok || rc = .noNode)
    else pure false

def existsNode (path : Bytes) : Program Client Bool :=
  .call .isConnected fun (connected : Bool) =>
    if connected then .call (.exists path) fun (rc : Code) => pure (rc = .ok)
    else pure false

def setData (path data : Bytes) : Program Client Bool :=
  .call .isConnected fun (connected : Bool) =>
    if connected then .call (.set path data) fun (rc : Code) => pure (rc = .ok)
    else pure false

/-- The recovery of `CreateNode`: delete and create again, or update the data. -/
def recoverNode (path data : Bytes) : Program Client Bool :=
  deleteNode path >>= fun (deleted : Bool) =>
    if deleted then
      .call (.create path data true) fun (rc : Code) =>
        if rc = .ok then pure true else setData path data
    else setData path data

def createNode (path data : Bytes) (ephemeral : Bool) : Program Client Bool :=
  .call .isConnected fun (connected : Bool) =>
    if connected then
      .call (.create path data ephemeral) fun (rc : Code) =>
        if rc = .ok then pure true
        else if rc = .nodeExists then
          if ephemeral then recoverNode path data else pure true
        else pure false
    else pure false

/-- The loop over the names of the path; `getline` passes the empty ones on, and they are skipped. -/
def createTokens (current : Bytes) : List Bytes → Program Client Bool
  | [] => pure true
  | token :: rest =>
      if token.isEmpty then createTokens current rest
      else
        let current := current ++ slash :: token
        existsNode current >>= fun (found : Bool) =>
          if found then createTokens current rest
          else
            createNode current [] false >>= fun (created : Bool) =>
              if created then createTokens current rest else pure false

def createServicePath (path : Bytes) : Program Client Bool :=
  .call .isConnected fun (connected : Bool) =>
    if connected then createTokens [] (path.splitOn slash) else pure false

end AccountService.ZooKeeper
