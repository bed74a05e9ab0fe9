import ConnectionPool.Arguments
import ConnectionPool.Json

/-!
# Errors

Four types, each the cause of a failure at one layer.

* `EngineError`: the engine refused a statement.  It carries the result code and,
  where known, the statement as submitted.
* `DriverError`: the library that talks to the engine failed.  One of its causes is
  an engine failure it passes on.
* `ConnectionError`: an operation on a connection, a queue or a pool failed.
* `Error`: a transaction or a database operation failed, or the unit of work did.

The wording is in the `message` functions and nowhere else.  An engine error is a
*lock error* when its primary code says busy or locked, except for a stale
snapshot, which no retry of the statement clears.
-/

namespace ConnectionPool

/-! ## Engine errors -/

/-- Primary result code of a busy database. -/
def busyCode : Int := 5

/-- Primary result code of a locked table. -/
def lockedCode : Int := 6

/-- Extended result code of a read transaction whose snapshot is stale. -/
def staleSnapshotCode : Int := 517

/-- A failure reported by the engine. -/
structure EngineError where
  /-- The extended result code, a signed 32-bit number. -/
  code : Int
  /-- The engine's message. -/
  text : String
  /-- The statement, as submitted. -/
  sql : Option String := none
  /-- The arguments of the statement. -/
  args : Option Arguments := none
  deriving DecidableEq, Repr

namespace EngineError

/-- The low byte of the code, read as two's complement. -/
def primaryCode (e : EngineError) : Int := e.code % 256

/-- The same statement can succeed once another connection lets go of its lock. -/
def isLock (e : EngineError) : Bool :=
  e.code != staleSnapshotCode && (e.primaryCode == busyCode || e.primaryCode == lockedCode)

/-- The error with the statement that caused it. -/
def withStatement (e : EngineError) (s : Statement) : EngineError :=
  { e with sql := some s.sql, args := some s.args }

/-- The error in words. -/
def message (e : EngineError) : String :=
  "SQLite error (result code " ++ toString e.code ++ "): " ++ e.text ++
    match e.sql with
    | some sql => " [sql: " ++ sql ++ "]"
    | none => ""

end EngineError

/-! ## Driver errors -/

/-- A failure of the library between a connection and the engine. -/
inductive DriverError where
  /-- A query that had to give a row gave none. -/
  | rowNotFound
  /-- No connection became free in time. -/
  | poolTimedOut
  /-- The library's own pool is closed. -/
  | poolClosed
  /-- The thread that serves the engine is gone. -/
  | workerCrashed
  /-- Data that the library cannot handle. -/
  | protocol (what : String)
  /-- A row has no column of the name. -/
  | columnNotFound (name : String)
  /-- The engine failed with a code and a message. -/
  | database (code : Int) (text : String)
  deriving DecidableEq, Repr

namespace DriverError

/-- The error in words. -/
def message : DriverError → String
  | rowNotFound => "no rows returned by a query that expected to return at least one row"
  | poolTimedOut => "pool timed out while waiting for an open connection"
  | poolClosed => "attempted to acquire a connection on a closed pool"
  | workerCrashed => "attempted to communicate with a crashed background worker"
  | protocol what => "encountered unexpected or invalid data: " ++ what
  | columnNotFound name => "no column found for name: " ++ name
  | database code text =>
    "error returned from database: (code: " ++ toString code ++ ") " ++ text

/-- The engine's failure, when there is one behind the error. -/
def engine? : DriverError → Option EngineError
  | database code text => some ⟨code, text, none, none⟩
  | _ => none

end DriverError

/-! ## Connection errors -/

/-- A failure of an operation on a connection, a queue or a pool. -/
inductive ConnectionError where
  /-- The engine refused a statement. -/
  | engine (e : EngineError)
  /-- The database could not be opened. -/
  | openFailed (path : String) (source : DriverError)
  /-- The operation was given up before it completed. -/
  | cancelled
  /-- The connection is closed. -/
  | closed
  /-- The arguments do not fit the statement. -/
  | invalidArguments (what : String)
  /-- A column holds something that is no value. -/
  | unsupportedDatatype (what : String)
  /-- The driver failed without the engine. -/
  | driver (e : DriverError)
  /-- The operating system refused. -/
  | io (what : String)
  deriving DecidableEq, Repr

namespace ConnectionError

/-- The error a driver failure becomes while a statement runs: an engine error with
the statement when the engine is behind it. -/
def ofDriver (e : DriverError) (s : Statement) : ConnectionError :=
  match e.engine? with
  | some engineError => engine (engineError.withStatement s)
  | none => driver e

/-- The error is a lock error of the engine. -/
def isLock : ConnectionError → Bool
  | engine e => e.isLock
  | _ => false

/-- The engine's result code, when the error came from the engine. -/
def code? : ConnectionError → Option Int
  | engine e => some e.code
  | openFailed _ source => source.engine?.map (·.code)
  | _ => none

/-- The error in words. -/
def message : ConnectionError → String
  | engine e => e.message
  | openFailed path source => "could not open database '" ++ path ++ "': " ++ source.message
  | cancelled => "operation canceled before completion"
  | closed => "Database has been closed"
  | invalidArguments what => "invalid arguments: " ++ what
  | unsupportedDatatype what => "unsupported datatype: " ++ what
  | driver e => "Sqlx error: " ++ e.message
  | io what => "IO error: " ++ what

/-- The word for the kind of error. -/
def label : ConnectionError → String
  | engine e => if e.isLock then "LOCKED" else "SQLITE_" ++ toString e.code
  | openFailed _ _ => "OPEN_ERROR"
  | cancelled => "CANCELLED"
  | closed => "DATABASE_CLOSED"
  | invalidArguments _ => "INVALID_ARGUMENTS"
  | unsupportedDatatype _ => "UNSUPPORTED_DATATYPE"
  | driver _ => "SQLX_ERROR"
  | io _ => "IO_ERROR"

end ConnectionError

/-! ## Errors of transactions and databases -/

/-- A failure of a transaction or of an operation on a database. -/
inductive Error where
  /-- A connection, a queue or a pool failed. -/
  | connection (e : ConnectionError)
  /-- The unit of work passed on a failure of the driver. -/
  | driver (e : DriverError)
  /-- The unit of work failed for a reason of its own. -/
  | other (what : String)
  deriving DecidableEq, Repr

namespace Error

/-- The error is a lock error that outlived its retries. -/
def isLock : Error → Bool
  | connection e => e.isLock
  | _ => false

/-- The operation was given up before it completed. -/
def isCancelled : Error → Bool
  | connection .cancelled => true
  | _ => false

/-- The error in words. -/
def message : Error → String
  | connection e => e.message
  | driver e => e.message
  | other what => what

/-- The word for the kind of error. -/
def label : Error → String
  | connection e => e.label
  | driver (.database code _) => "SQLITE_" ++ toString code
  | driver _ => "SQLX_ERROR"
  | other _ => "OTHER"

/-- An error as JSON: its word and its message. -/
def encode (e : Error) : Json := .obj [("code", .str e.label), ("message", .str e.message)]

end Error

end ConnectionPool
