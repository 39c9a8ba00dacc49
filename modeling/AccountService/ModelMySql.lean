import AccountService.ModelBase

/-! The statements that `MySQLConnection` sends: the placeholders of a template are replaced by the literals
of the parameters. -/

namespace AccountService

/-- `MySQLConnection::Param`; the type of a `double` and its `std::to_string` are left open. -/
inductive Param (D : Type)
  | null
  | int64 (n : Int64)
  | uint64 (n : UInt64)
  | double (d : D)
  | string (s : Bytes)
  | bool (b : Bool)

inductive MySQLError
  | mySQLException (code : Nat) (message : Bytes)
  | mySQLBuildException (message : Bytes)
  deriving DecidableEq

/-- The handle of the client library: its `mysql_real_escape_string`. -/
structure MySQLClient where
  realEscapeString : Bytes → Bytes

/-- A connection; `mysql` is `none` when there is no handle. -/
structure MySQLConnection where
  mysql : Option MySQLClient

namespace MySQLConnection

variable {D : Type}

/-- `?`. -/
def placeholder : UInt8 := 63

/-- `'`. -/
def apostrophe : UInt8 := 39

def escape (conn : MySQLConnection) (str : Bytes) : Except MySQLError Bytes :=
  match conn.mysql with
  | none => .error (.mySQLException 0 (ascii "Connection not established"))
  | some client => .ok (client.realEscapeString str)

/-- What is appended for a parameter. -/
def literal (conn : MySQLConnection) (doubleText : D → Bytes) : Param D → Except MySQLError Bytes
  | .null => .ok (ascii "NULL")
  | .string s => do return [apostrophe] ++ (← conn.escape s) ++ [apostrophe]
  | .bool b => .ok (if b then ascii "1" else ascii "0")
  | .int64 n => .ok (toString n.toInt)
  | .uint64 n => .ok (toString n.toNat)
  | .double d => .ok (doubleText d)

/-- The loop over the bytes of the template. -/
def buildLoop (conn : MySQLConnection) (doubleText : D → Bytes) (result : Bytes) :
    Bytes → List (Param D) → Except MySQLError Bytes
  | [], [] => .ok result
  | [], _ :: _ => .error (.mySQLBuildException (ascii "Too many parameters for SQL placeholders"))
  | c :: sql, params =>
      if c = placeholder then
        match params with
        | [] => .error (.mySQLBuildException (ascii "Not enough parameters for SQL placeholders"))
        | param :: rest => do
            let text ← conn.literal doubleText param
            buildLoop conn doubleText (result ++ text) sql rest
      else buildLoop conn doubleText (result ++ [c]) sql params

def buildSQL (conn : MySQLConnection) (doubleText : D → Bytes) (sql : Bytes) (params : List (Param D)) :
    Except MySQLError Bytes :=
  buildLoop conn doubleText [] sql params

end MySQLConnection

end AccountService
