import AccountService.ModelConfig

/-! The constructor of `MySQLConnection`. The client library is given by what `mysql_init` and
`mysql_real_connect` do at each attempt; the calls that are made of it are kept in order. A handle is
known by the number of the call of `mysql_init` that made it. -/

namespace AccountService

open Decimal

/-- The fields of `MySQLConfig` that a connection reads. -/
structure MySQLConnectionConfig extends MySQLConfig where
  username : Bytes := ascii "root"
  password : Bytes := []
  connectionTimeoutMs : Option UInt32 := none
  readTimeoutMs : Option UInt32 := none
  writeTimeoutMs : Option UInt32 := none
  maxRetries : UInt32 := 3
  retryIntervalMs : UInt32 := 1000
  autoReconnect : Option Bool := none
  charset : Bytes := ascii "utf8mb4"

structure MySQLException where
  errno : Int32
  what : Bytes
  deriving DecidableEq

namespace MySQLException

/-- The constructor takes an `int` where the library has an `unsigned int`. -/
def ofErrno (errCode : UInt32) (errMsg : Bytes) : MySQLException := ⟨errCode.toInt32, errMsg⟩

def isRetryable (ex : MySQLException) : Bool :=
  -- a deadlock, the socket, the host, a server gone away, a connection lost
  ex.errno = 1213 || ex.errno = 2002 || ex.errno = 2003 || ex.errno = 2006 || ex.errno = 2013

end MySQLException

/-- The options a handle gets before it is connected. -/
inductive MySQLOption
  | connectTimeout (sec : UInt32)
  | readTimeout (sec : UInt32)
  | writeTimeout (sec : UInt32)
  | reconnect (mybool : UInt32)
  | setCharsetName (charset : Bytes)
  deriving DecidableEq

/-- The calls of the client library, and the sleep between two attempts. -/
inductive NativeCall
  | init (handle : Option Nat)
  | options (handle : Nat) (option : MySQLOption)
  | realConnect (handle : Nat) (host username password database : Bytes) (port : Int32)
  | close (handle : Nat)
  | sleepFor (ms : UInt32)
  deriving DecidableEq

/-- What the library does at one attempt: whether `mysql_init` yields a handle, and with which
`mysql_errno` and `mysql_error` `mysql_real_connect` fails on it, if it does. -/
structure ConnectAttempt where
  initialised : Bool
  refused : Option (UInt32 × Bytes)

/-- The connection under construction: `mysql_`, the number of calls of `mysql_init`, and all calls. -/
structure MySQLConnector where
  mysql : Option Nat := none
  inits : Nat := 0
  calls : List NativeCall := []

namespace MySQLConnector

def optionCalls (config : MySQLConnectionConfig) : List MySQLOption :=
  (config.connectionTimeoutMs.map fun ms => .connectTimeout (ms / 1000)).toList ++
  (config.readTimeoutMs.map fun ms => .readTimeout (ms / 1000)).toList ++
  (config.writeTimeoutMs.map fun ms => .writeTimeout (ms / 1000)).toList ++
  (config.autoReconnect.map fun on => .reconnect (if on then 1 else 0)).toList ++
  [.setCharsetName config.charset]

variable (config : MySQLConnectionConfig) (server : Nat → ConnectAttempt)

/-- `InitAndSetOptions`: the handle that is now in `mysql_`, or the exception. -/
def initAndSetOptions (s : MySQLConnector) : Except MySQLException Nat × MySQLConnector :=
  if (server s.inits).initialised then
    (.ok s.inits,
      { mysql := some s.inits
        inits := s.inits + 1
        calls := s.calls ++ .init (some s.inits) :: (optionCalls config).map (.options s.inits) })
  else
    (.error ⟨0, ascii "mysql_init failed: out of memory"⟩,
      { mysql := none, inits := s.inits + 1, calls := s.calls ++ [.init none] })

/-- `mysql_real_connect` on the handle in `mysql_`. -/
def realConnect (handle : Nat) (s : MySQLConnector) : Option (UInt32 × Bytes) × MySQLConnector :=
  ((server handle).refused,
    { s with calls := s.calls ++
        [.realConnect handle config.host config.username config.password config.database config.port] })

/-- `mysql_close(mysql_); mysql_ = nullptr`, where there is a handle. -/
def closeHandle (s : MySQLConnector) : MySQLConnector :=
  match s.mysql with
  | none => s
  | some handle => { s with mysql := none, calls := s.calls ++ [.close handle] }

def sleepFor (ms : UInt32) (s : MySQLConnector) : MySQLConnector :=
  { s with calls := s.calls ++ [.sleepFor ms] }

/-- What is thrown behind the loop: the last error. -/
def retriesFailed (err : UInt32 × Bytes) : MySQLException :=
  .ofErrno err.1 (ascii "Failed after " ++ toString config.maxRetries.toNat ++ ascii " retries: " ++ err.2)

/-- The loop of `ConnectWithRetry`, with a bound on its turns; `attempt` is an `unsigned int` and
wraps. -/
def connectWithRetryLoop : Nat → UInt32 → UInt32 × Bytes → MySQLConnector →
    Option (Except MySQLException Unit × MySQLConnector)
  | 0, _, _, _ => none
  | turns + 1, attempt, err, s =>
      if attempt ≤ config.maxRetries then
        match initAndSetOptions config server s with
        -- `catch (...)`
        | (.error ex, s) => some (.error ex, s.closeHandle)
        | (.ok handle, s) =>
            match realConnect config server handle s with
            | (none, s) => some (.ok (), s)
            | (some err, s) =>
                if (MySQLException.ofErrno err.1 err.2).isRetryable then
                  connectWithRetryLoop turns (attempt + 1) err
                    (s.closeHandle.sleepFor config.retryIntervalMs)
                else some (.error (retriesFailed config err), s.closeHandle)
      else some (.error (retriesFailed config err), s)

def connectWithRetry (turns : Nat) (s : MySQLConnector) :
    Option (Except MySQLException Unit × MySQLConnector) :=
  connectWithRetryLoop config server turns 1 (0, []) s

/-- The constructor. -/
def construct (turns : Nat) : Option (Except MySQLException Unit × MySQLConnector) :=
  match initAndSetOptions config server {} with
  | (.error ex, s) => some (.error ex, s.closeHandle)
  | (.ok handle, s) =>
      match realConnect config server handle s with
      | (none, s) => some (.ok (), s)
      | (some err, s) =>
          let ex := MySQLException.ofErrno err.1 err.2
          let shouldRetry := config.autoReconnect.getD false && 0 < config.maxRetries && ex.isRetryable
          if shouldRetry then connectWithRetry config server turns s.closeHandle
          else some (.error ex, s.closeHandle)

end MySQLConnector

end AccountService
