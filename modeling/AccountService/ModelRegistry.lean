import AccountService.ModelInstance
import AccountService.ModelZooKeeper

/-! The paths of services and instances, as the registry and the discovery client build and cut them, and
the registry itself. -/

namespace AccountService

open Interaction ZooKeeper

namespace ServiceInstance

def getAddress (inst : ServiceInstance) : Bytes := inst.host ++ ascii ":" ++ toString inst.port.toInt

variable {F : Type}

/-- The object that `ToJson` dumps; its members are in the order of the keys. -/
def toJsonValue (inst : ServiceInstance) : JsonValue F :=
  .object [(ascii "host", .string inst.host), (ascii "instance_id", .string inst.instanceId),
    (ascii "metadata", .object (inst.metadata.map fun e => (e.1, .string e.2))),
    (ascii "port", .integer inst.port.toInt64), (ascii "service_name", .string inst.serviceName),
    (ascii "weight", .integer inst.weight.toInt64)]

/-- `ToJson`; `dump` throws on a string that is not UTF-8. -/
def toJson (dump : JsonValue F → Option Bytes) (inst : ServiceInstance) : Option Bytes := dump inst.toJsonValue

end ServiceInstance

namespace ServiceDiscovery

def buildServicePath (rootPath serviceName : Bytes) : Bytes := rootPath ++ slash :: serviceName

/-- The name behind the root and a separator. -/
def extractServiceName (rootPath path : Bytes) : Bytes :=
  if path.length ≤ rootPath.length + 1 then [] else path.drop (rootPath.length + 1)

end ServiceDiscovery

/-- The registry; its client is there from the start, and the instance it keeps is only logged. -/
structure ServiceRegistry where
  rootPath : Bytes
  currentPath : Bytes := []
  registered : Bool := false
  deriving DecidableEq

namespace ServiceRegistry

def buildInstancePath (rootPath : Bytes) (inst : ServiceInstance) : Bytes :=
  rootPath ++ slash :: inst.serviceName ++ slash :: inst.getAddress

def buildServicePath (rootPath serviceName : Bytes) : Bytes := rootPath ++ slash :: serviceName

variable {F : Type} (dump : JsonValue F → Option Bytes)

/-- `Register`: what it returns, or `none` where it throws. -/
def register (inst : ServiceInstance) (r : ServiceRegistry) : Program Client (Option Bool × ServiceRegistry) :=
  .call .isConnected fun (connected : Bool) =>
    if connected && inst.isValid then
      createServicePath (buildServicePath r.rootPath inst.serviceName) >>= fun (created : Bool) =>
        if created then
          match inst.toJson dump with
          | none => pure (none, r)
          | some data =>
              createNode (buildInstancePath r.rootPath inst) data true >>= fun (created : Bool) =>
                if created then
                  pure (some true,
                    { r with currentPath := buildInstancePath r.rootPath inst, registered := true })
                else pure (some false, r)
        else pure (some false, r)
    else pure (some false, r)

def unregister (r : ServiceRegistry) : Program Client (Option Bool × ServiceRegistry) :=
  if r.registered then
    -- whether the node could be deleted is only logged
    deleteNode r.currentPath >>= fun _ => pure (some true, { r with registered := false, currentPath := [] })
  else pure (some true, r)

def update (inst : ServiceInstance) (r : ServiceRegistry) : Program Client (Option Bool × ServiceRegistry) :=
  if r.registered then
    .call .isConnected fun (connected : Bool) =>
      if connected then
        match inst.toJson dump with
        | none => pure (none, r)
        | some data =>
            setData r.currentPath data >>= fun (updated : Bool) => pure (some updated, r)
      else pure (some false, r)
  else pure (some false, r)

end ServiceRegistry

end AccountService
