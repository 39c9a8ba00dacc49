import AccountService.ModelBase
import Mathlib.Logic.Function.Basic

/-! `MySQLResult`, the owner of a `MYSQL_RES`, with the memory that it points into. The functions of the client library
fail on memory that has been freed and on pointers that lead nowhere. -/

namespace AccountService

/-- What a statement has answered; a cell without a value is `NULL`. -/
structure ResultTable where
  fields : List Bytes
  rows : List (List (Option Bytes))
  shape : ∀ row ∈ rows, row.length = fields.length

/-- A `MYSQL_RES` that `mysql_store_result` has made: how many rows have been fetched, and the array behind
`mysql_fetch_lengths`. -/
structure NativeResult where
  table : ResultTable
  fetched : Nat := 0
  lengths : List Nat := []
  freed : Bool := false

/-- Undefined behaviour. -/
inductive MemoryFault
  | freed | wild
  deriving DecidableEq

/-- A `MYSQL_ROW`. -/
structure RowPointer where
  result : Nat
  row : Nat
  deriving DecidableEq

/-- The members. `lengths` is the result whose array `lengths_` points to. -/
structure MySQLResult where
  result : Option Nat := none
  currentRow : Option RowPointer := none
  lengths : Option Nat := none
  fieldCount : Nat := 0
  colNameMap : Bytes → Option Nat := fun _ => none

/-- The results of the client library and the objects of the program, by their addresses. Addresses are used once. -/
structure ResultMemory where
  natives : Nat → Option NativeResult := fun _ => none
  made : Nat := 0
  objects : Nat → Option MySQLResult := fun _ => none
  count : Nat := 0

/-- What a call returns, or throws with its text. -/
inductive ResultReply
  | nothing
  | bool (b : Bool)
  | size (n : Nat)
  | string (value : Option Bytes)
  | int (value : Option Int)
  /-- The text from which `strtod` makes the number. -/
  | double (text : Option Bytes)
  | mysqlResultException (what : Bytes)
  | outOfRange (what : Bytes)
  deriving DecidableEq

namespace ResultMemory

variable (m : ResultMemory)

/-! ### The client library -/

def native (p : Nat) : Except MemoryFault NativeResult :=
  match m.natives p with
  | none => .error .wild
  | some n => if n.freed then .error .freed else .ok n

def write (p : Nat) (n : NativeResult) : ResultMemory := { m with natives := Function.update m.natives p (some n) }

def freeResult (p : Nat) : Except MemoryFault ResultMemory := do
  let n ← m.native p
  return m.write p { n with freed := true }

def fetchRow (p : Nat) : Except MemoryFault (Option RowPointer × ResultMemory) := do
  let n ← m.native p
  if n.fetched < n.table.rows.length then return (some ⟨p, n.fetched⟩, m.write p { n with fetched := n.fetched + 1 })
  else return (none, m)

/-- The length of a cell; that of `NULL` is zero. -/
def cellLength (cell : Option Bytes) : Nat := (cell.map List.length).getD 0

/-- The array of a result holds the lengths in the row that was fetched last. -/
def fetchLengths (p : Nat) : Except MemoryFault ResultMemory := do
  let n ← m.native p
  match n.table.rows[n.fetched - 1]? with
  | some row => return m.write p { n with lengths := row.map cellLength }
  | none => throw .wild

/-- `current_row_[col]`: a null pointer, or the bytes in front of the closing zero byte. -/
def cell (row : RowPointer) (col : Nat) : Except MemoryFault (Option Bytes) := do
  let n ← m.native row.result
  match (n.table.rows[row.row]?).bind (·[col]?) with
  | some cell => return cell
  | none => throw .wild

/-- `lengths_[col]`. -/
def length (p col : Nat) : Except MemoryFault Nat := do
  let n ← m.native p
  match n.lengths[col]? with
  | some length => return length
  | none => throw .wild

end ResultMemory

/-- `std::strtoll`, with no check. -/
def strtoll (s : Bytes) : Int := max (-2 ^ 63) (min (2 ^ 63 - 1) ((Decimal.readInt isSpace s).getD 0))

namespace MySQLResult

/-- `BuildColumnMap`: of two columns with one name the later one stays. -/
def buildColumnMap (fields : List Bytes) : Bytes → Option Nat :=
  (fields.zipIdx).foldl (fun names field => Function.update names field.1 (some field.2)) fun _ => none

/-- The readers of a cell. -/
inductive Getter
  | isNull | getString | getInt | getDouble
  deriving DecidableEq

def noCurrentRow : ResultReply := .mysqlResultException (ascii "No current row, call Next() first")

/-- Without columns `field_count_ - 1` wraps. -/
def columnOutOfRange (col fieldCount : Nat) : ResultReply :=
  .mysqlResultException (ascii "Column index " ++ toString col ++ ascii " out of range, max is " ++
    toString ((fieldCount + (2 ^ 64 - 1)) % 2 ^ 64 : Nat))

def columnNotFound (name : Bytes) : ResultReply := .outOfRange (ascii "Column not found: " ++ name)

variable (self : MySQLResult) (m : ResultMemory)

/-- `CheckColumn`, and what follows it. -/
def checkColumn (col : Nat) (next : RowPointer → Except MemoryFault ResultReply) : Except MemoryFault ResultReply :=
  match self.currentRow with
  | none => return noCurrentRow
  | some row => if self.fieldCount ≤ col then return columnOutOfRange col self.fieldCount else next row

/-- `std::string(current_row_[col], lengths_[col])`, or what ends at the first zero byte. -/
def stringAt (text : Bytes) (col : Nat) : Except MemoryFault Bytes :=
  match self.lengths with
  | some p => do
      let length ← m.length p col
      if length ≤ text.length then return text.take length else throw .wild
  | none => return text.takeWhile (· ≠ 0)

def get (getter : Getter) (col : Nat) : Except MemoryFault ResultReply :=
  self.checkColumn col fun row => do
    match getter, ← m.cell row col with
    | .isNull, cell => return .bool cell.isNone
    | .getString, none => return .string none
    | .getString, some text => return .string (some (← self.stringAt m text col))
    | .getInt, none => return .int none
    -- the conversion ends at the first byte that is no digit, at the latest at the closing zero byte
    | .getInt, some text => return .int (some (strtoll text))
    | .getDouble, none => return .double none
    | .getDouble, some text => return .double (some (text.takeWhile (· ≠ 0)))

def getNamed (getter : Getter) (name : Bytes) : Except MemoryFault ResultReply :=
  match self.colNameMap name with
  | none => return columnNotFound name
  | some col => self.get m getter col

/-- `Next`. -/
def next : Except MemoryFault (Bool × MySQLResult × ResultMemory) :=
  match self.result with
  | none => return (false, self, m)
  | some p => do
      match ← m.fetchRow p with
      | (none, m) => return (false, { self with currentRow := none }, m)
      | (some row, m) =>
          let m ← m.fetchLengths p
          return (true, { self with currentRow := some row, lengths := some p }, m)

/-- What a move leaves behind; an assignment may leave any map. -/
def emptied (names : Bytes → Option Nat) : MySQLResult where
  colNameMap := names

/-- `RowCount`. -/
def rowCount : Except MemoryFault Nat :=
  match self.result with
  | none => return 0
  | some p => return (← m.native p).table.rows.length

end MySQLResult

/-- What a program does with its results. -/
inductive ResultOp
  /-- `MySQLResult(res)`, with a result that the library has just made or with a null pointer. -/
  | construct (res : Option ResultTable)
  | moveConstruct (other : Nat)
  /-- The last argument is the map that the standard library leaves in `other`. -/
  | moveAssign (self other : Nat) (left : Bytes → Option Nat)
  | next (self : Nat)
  | rowCount (self : Nat)
  | fieldCount (self : Nat)
  | get (self : Nat) (getter : MySQLResult.Getter) (col : Nat)
  | getNamed (self : Nat) (getter : MySQLResult.Getter) (name : Bytes)
  | destroy (self : Nat)

namespace ResultMemory

variable (m : ResultMemory)

def put (i : Nat) (o : Option MySQLResult) : ResultMemory := { m with objects := Function.update m.objects i o }

/-- `if (result_) mysql_free_result(result_)`. -/
def freeOf (o : MySQLResult) : Except MemoryFault ResultMemory :=
  match o.result with
  | none => return m
  | some p => m.freeResult p

/-- One operation. One on an object that is not there does not happen. -/
def step : ResultOp → Except MemoryFault (ResultReply × ResultMemory)
  | .construct none => return (.nothing, { m.put m.count (some {}) with count := m.count + 1 })
  | .construct (some table) =>
      let object : MySQLResult := {
        result := some m.made
        fieldCount := table.fields.length
        colNameMap := MySQLResult.buildColumnMap table.fields }
      return (.nothing, {
        natives := Function.update m.natives m.made (some { table := table })
        made := m.made + 1
        objects := Function.update m.objects m.count (some object)
        count := m.count + 1 })
  | .moveConstruct other =>
      match m.objects other with
      | none => return (.nothing, m)
      | some o =>
          return (.nothing,
            { (m.put m.count (some o)).put other (some (.emptied fun _ => none)) with count := m.count + 1 })
  | .moveAssign self other left =>
      match m.objects self, m.objects other with
      | some o, some o' =>
          if other = self then return (.nothing, m)
          else do
            let m ← m.freeOf o
            return (.nothing, (m.put self (some o')).put other (some (.emptied left)))
      | _, _ => return (.nothing, m)
  | .next self =>
      match m.objects self with
      | none => return (.nothing, m)
      | some o => do
          let (more, o, m) ← o.next m
          return (.bool more, m.put self (some o))
  | .rowCount self =>
      match m.objects self with
      | none => return (.nothing, m)
      | some o => return (.size (← o.rowCount m), m)
  | .fieldCount self =>
      match m.objects self with
      | none => return (.nothing, m)
      | some o => return (.size o.fieldCount, m)
  | .get self getter col =>
      match m.objects self with
      | none => return (.nothing, m)
      | some o => return (← o.get m getter col, m)
  | .getNamed self getter name =>
      match m.objects self with
      | none => return (.nothing, m)
      | some o => return (← o.getNamed m getter name, m)
  | .destroy self =>
      match m.objects self with
      | none => return (.nothing, m)
      | some o => return (.nothing, (← m.freeOf o).put self none)

/-- The replies to some operations, and the memory after them. -/
def run : List ResultOp → ResultMemory → Except MemoryFault (List ResultReply × ResultMemory)
  | [], m => return ([], m)
  | op :: ops, m => do
      let (reply, m) ← m.step op
      let (replies, m) ← run ops m
      return (reply :: replies, m)

end ResultMemory

end AccountService
