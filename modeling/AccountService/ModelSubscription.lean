import AccountService.ModelDiscovery
import AccountService.ModelRegistry

/-! The life of one subscription, with the callback of the user, the connection and `Unsubscribe`: every
section under a mutex and every request is one command. The calls of the user come one after another, the
handlers of the events run beside them and beside each other. When an event comes is left open. -/

namespace AccountService

open Interaction ZooKeeper

namespace Subscription

/-- What the calls and the handlers do to the maps of the client, for the service, and ask of the server. -/
inductive SubscriptionCmd (α κ : Type)
  | isConnected
  /-- `watches_.find(path)`, `watches_[path] = callback` and `watches_.erase(path)` -/
  | findWatch
  | storeWatch
  | eraseWatch
  | getChildren
  | getData (child : Bytes)
  /-- `zoo_wget_children` -/
  | wgetChildren
  /-- `instance_cache_[service_name] = instances`, `instance_cache_[service_name].size()` for the log, and
  `instance_cache_.erase(service_name)` -/
  | storeCache (instances : List α)
  | logSize
  | eraseCache
  /-- `callbacks_.find(service_name)`, `callbacks_[service_name] = callback` and
  `callbacks_.erase(service_name)` -/
  | findCallback
  | storeCallback (callback : κ)
  | eraseCallback
  /-- `callback(service_name)` -/
  | startCallback (callback : κ)
  deriving DecidableEq

abbrev Commands (α κ : Type) : Signature where
  Cmd := SubscriptionCmd α κ
  Reply
    | .isConnected | .findWatch => Bool
    | .getChildren => List Bytes
    | .getData _ => Bytes
    | .findCallback => Option κ
    | _ => Unit

/-- The service, how the data of its nodes is decoded, and whether there is a logger. -/
structure Client (α : Type) where
  rootPath : Bytes
  serviceName : Bytes
  decode : Bytes → Option α
  logged : Bool

section Calls

variable {α κ : Type} (client : Client α)

/-- The loop of `RefreshInstances` over the children. -/
def readNodes (instances : List α) : List Bytes → Program (Commands α κ) (List α)
  | [] => pure instances
  | child :: rest =>
      .call (.getData child) fun data => readNodes (instances ++ readInstance client.decode data) rest

/-- The line of the log; its argument makes an entry in the cache. -/
def logRefreshed : Program (Commands α κ) Unit := if client.logged then .call .logSize fun _ => pure () else pure ()

def refreshInstances : Program (Commands α κ) Unit :=
  .call .isConnected fun (connected : Bool) =>
    if connected then
      .call .getChildren fun children => readNodes client [] children >>= fun instances =>
        .call (.storeCache instances) fun _ => logRefreshed client
    else pure ()

/-- The end of `OnChildrenChanged`: the callback is copied under its mutex and started without it. -/
def notifyUser : Program (Commands α κ) Unit :=
  .call .findCallback fun (callback : Option κ) =>
    match callback with
    | some callback => .call (.startCallback callback) fun _ => pure ()
    | none => pure ()

def onChildrenChanged (path : Bytes) : Program (Commands α κ) Unit :=
  if (ServiceDiscovery.extractServiceName client.rootPath path).isEmpty then pure ()
  else refreshInstances client >>= fun _ => notifyUser

def resetWatch : Program (Commands α κ) Unit :=
  .call .findWatch fun (found : Bool) =>
    if found then
      .call .isConnected fun (connected : Bool) =>
        if connected then .call .wgetChildren fun _ => pure () else pure ()
    else pure ()

def handleChildEvent (path : Bytes) : Program (Commands α κ) Unit :=
  .call .findWatch fun (found : Bool) =>
    if found then onChildrenChanged client path >>= fun _ => resetWatch else pure ()

def watchChildren : Program (Commands α κ) Unit :=
  .call .isConnected fun (connected : Bool) =>
    if connected then .call .storeWatch fun _ => .call .wgetChildren fun _ => pure () else pure ()

def subscribe (callback : Option κ) : Program (Commands α κ) Unit :=
  .call .isConnected fun (connected : Bool) =>
    if connected then
      (match callback with
        | some callback => .call (.storeCallback callback) fun _ => pure ()
        | none => pure ()) >>= fun _ =>
          refreshInstances client >>= fun _ => watchChildren
    else pure ()

def unsubscribe : Program (Commands α κ) Unit :=
  .call .eraseWatch fun _ => .call .eraseCallback fun _ => .call .eraseCache fun _ => pure ()

end Calls

/-! ### The client and the server -/

/-- The nodes of the service, the entries of the service in the maps of the client, the callbacks that have been
started, the call of the user and the handlers. -/
structure State (α κ : Type) where
  connected : Bool
  children : List (Bytes × Bytes)
  watched : Bool := false
  callback : Option κ := none
  cache : Option (List α) := none
  started : List κ := []
  user : Program (Commands α κ) Unit := .done ()
  handlers : List (Program (Commands α κ) Unit) := []

namespace State

variable {α κ : Type} (client : Client α)

def getInstances (s : State α κ) : List α := s.cache.getD []

/-- The reply to a command; a request without a connection brings nothing. -/
def reply (s : State α κ) : (c : SubscriptionCmd α κ) → (Commands α κ).Reply c
  | .isConnected => s.connected
  | .findWatch => s.watched
  | .getChildren => if s.connected then s.children.map Prod.fst else []
  | .getData child => if s.connected then ((s.children.lookup child).getD []).take maxDataSize else []
  | .findCallback => s.callback
  | .storeWatch | .eraseWatch | .wgetChildren | .storeCache _ | .logSize | .eraseCache | .storeCallback _
  | .eraseCallback | .startCallback _ => ()

/-- What a command changes. -/
def effect (s : State α κ) : SubscriptionCmd α κ → State α κ
  | .storeWatch => { s with watched := true }
  | .eraseWatch => { s with watched := false }
  | .storeCache instances => { s with cache := some instances }
  | .logSize => { s with cache := some s.getInstances }
  | .eraseCache => { s with cache := none }
  | .storeCallback callback => { s with callback := some callback }
  | .eraseCallback => { s with callback := none }
  | .startCallback callback => { s with started := callback :: s.started }
  | .isConnected | .findWatch | .getChildren | .getData _ | .wgetChildren | .findCallback => s

/-- The call of the user issues its next command. -/
def advanceUser (s : State α κ) : State α κ :=
  match s.user with
  | .call c next => { s.effect c with user := next (s.reply c) }
  | .done _ => s

/-- A handler issues its next command. -/
def advanceHandler (s : State α κ) (i : Nat) : State α κ :=
  match s.handlers[i]? with
  | some (.call c next) => { s.effect c with handlers := s.handlers.set i (next (s.reply c)) }
  | _ => s

/-- The user calls, when the last call has returned. -/
def start (s : State α κ) (call : Program (Commands α κ) Unit) : State α κ :=
  match s.user with
  | .call _ _ => s
  | .done _ => { s with user := call }

end State

inductive Move (κ : Type)
  | subscribe (callback : Option κ)
  | unsubscribe
  | user
  | event
  | handler (i : Nat)
  /-- The connection and the nodes become what they are now. -/
  | server (connected : Bool) (children : List (Bytes × Bytes))
  deriving DecidableEq

variable {α κ : Type}

def step (client : Client α) (s : State α κ) : Move κ → State α κ
  | .subscribe callback => s.start (Subscription.subscribe client callback)
  | .unsubscribe => s.start Subscription.unsubscribe
  | .user => s.advanceUser
  | .event =>
      { s with
        handlers := s.handlers ++ [handleChildEvent client
          (ServiceDiscovery.buildServicePath client.rootPath client.serviceName)] }
  | .handler i => s.advanceHandler i
  | .server connected children => { s with connected := connected, children := children }

/-- The state after a sequence of moves. -/
def play (client : Client α) (moves : List (Move κ)) (s : State α κ) : State α κ := moves.foldl (step client) s

end Subscription

end AccountService
