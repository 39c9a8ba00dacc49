import AccountService.DiscoverySelection

/-! `ServiceInstance::FromJson` and `IsValid`, over the values of the JSON library. What the library's
parser makes of a text and how it truncates a number with a fraction are left open; `value`, `contains`
and `get` are those of the library. -/

namespace AccountService

/-- A value of `nlohmann::json`; `F` are the numbers with a fraction. -/
inductive JsonValue (F : Type)
  | null
  | boolean (b : Bool)
  | unsigned (n : UInt64)
  | integer (n : Int64)
  | float (x : F)
  | string (s : Bytes)
  | array (items : List (JsonValue F))
  | object (members : List (Bytes × JsonValue F))

/-- The library: `parse`, which throws on a malformed text, and the conversion of a `double` to `int`. -/
structure JsonLibrary (F : Type) where
  parse : Bytes → Option (JsonValue F)
  truncate : F → Int32

namespace JsonValue

variable {F : Type} (lib : JsonLibrary F)

/-- `get<std::string>()`; what throws is `none`. -/
def getString : JsonValue F → Option Bytes
  | .string s => some s
  | _ => none

/-- `get<int>()`: any number, and a boolean. -/
def getInt : JsonValue F → Option Int32
  | .unsigned n => some n.toUInt32.toInt32
  | .integer n => some n.toInt32
  | .float x => some (lib.truncate x)
  | .boolean b => some (if b then 1 else 0)
  | _ => none

/-- `get<std::map<std::string, std::string>>()`. -/
def getStringMap : JsonValue F → Option (List (Bytes × Bytes))
  | .object members => members.mapM fun m => m.2.getString.map fun value => (m.1, value)
  | _ => none

def find (key : Bytes) (members : List (Bytes × JsonValue F)) : Option (JsonValue F) :=
  (members.find? (·.1 = key)).map Prod.snd

/-- `value(key, default_value)`, which throws on anything but an object. -/
def value {α : Type} (get : JsonValue F → Option α) (key : Bytes) (defaultValue : α) :
    JsonValue F → Option α
  | .object members =>
      match find key members with
      | some v => get v
      | none => some defaultValue
  | _ => none

/-- `if (j.contains("metadata")) j["metadata"].get<…>()`; without the member nothing is assigned. -/
def metadata : JsonValue F → Option (List (Bytes × Bytes))
  | .object members =>
      match find (ascii "metadata") members with
      | some v => v.getStringMap
      | none => some []
  | _ => some []

end JsonValue

namespace ServiceInstance

/-- `ServiceInstance instance;`: the port has no initial value. -/
def empty (port : Int32) : ServiceInstance :=
  { serviceName := [], instanceId := [], host := [], port := port, metadata := [] }

def isValid (inst : ServiceInstance) : Bool := !inst.host.isEmpty && decide (0 < inst.port)

/-- One assignment of `FromJson`. -/
inductive Assignment
  | serviceName (s : Bytes)
  | instanceId (s : Bytes)
  | host (s : Bytes)
  | port (n : Int32)
  | weight (n : Int32)
  | metadata (entries : List (Bytes × Bytes))

def Assignment.apply : Assignment → ServiceInstance → ServiceInstance
  | .serviceName s, inst => { inst with serviceName := s }
  | .instanceId s, inst => { inst with instanceId := s }
  | .host s, inst => { inst with host := s }
  | .port n, inst => { inst with port := n }
  | .weight n, inst => { inst with weight := n }
  | .metadata entries, inst => { inst with metadata := entries }

variable {F : Type} (lib : JsonLibrary F)

/-- The assignments in the order of the source; a conversion that throws is `none`. -/
def assignments (j : JsonValue F) : List (Option Assignment) :=
  [(j.value JsonValue.getString (ascii "service_name") []).map .serviceName,
   (j.value JsonValue.getString (ascii "instance_id") []).map .instanceId,
   (j.value JsonValue.getString (ascii "host") []).map .host,
   (j.value (JsonValue.getInt lib) (ascii "port") 0).map .port,
   (j.value (JsonValue.getInt lib) (ascii "weight") 100).map .weight,
   j.metadata.map .metadata]

/-- The body of the `try`: what throws ends it, and what has been assigned stays. -/
def assignUntilThrown : List (Option Assignment) → ServiceInstance → ServiceInstance
  | some a :: rest, inst => assignUntilThrown rest (a.apply inst)
  | _, inst => inst

/-- `FromJson`; `port` is what the uninitialised member holds. -/
def fromJson (port : Int32) (jsonStr : Bytes) : ServiceInstance :=
  match lib.parse jsonStr with
  | none => empty port
  | some j => assignUntilThrown (assignments lib j) (empty port)

/-- What `RefreshInstances` makes of the data of a node. -/
def decodeNode (port : Int32) (data : Bytes) : Option ServiceInstance :=
  if (fromJson lib port data).isValid then some (fromJson lib port data) else none

/-- The instance that a text stands for: all of its fields converted. -/
def decoded (jsonStr : Bytes) : Option ServiceInstance := do
  let j ← lib.parse jsonStr
  let fields ← (assignments lib j).mapM id
  pure (fields.foldl (fun inst a => a.apply inst) (empty 0))

end ServiceInstance

end AccountService
