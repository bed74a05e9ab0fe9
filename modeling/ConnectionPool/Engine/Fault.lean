import ConnectionPool.Engine.Command.Reader
import ConnectionPool.Engine.Table
import ConnectionPool.Error

/-!
# Faults of the engine

A `Fault` is the cause of a refusal.  Its result code and its wording are functions
of the cause.
-/

namespace ConnectionPool.Engine

/-- Why the engine refuses. -/
inductive Fault where
  /-- The text is no statement. -/
  | read (fault : ReadFault)
  /-- There is no table of the name. -/
  | noSuchTable (name : String)
  /-- There is no column of the name. -/
  | noSuchColumn (name : String)
  /-- There is a table of the name. -/
  | tableExists (name : String)
  /-- A constraint would be broken. -/
  | violation (v : Violation)
  /-- A transaction is open. -/
  | transactionOpen
  /-- There is no transaction to end. -/
  | noTransaction (verb : String)
  /-- The storage is not rebuilt inside a transaction. -/
  | vacuumInTransaction
  /-- Another session stands in the way. -/
  | locked
  /-- There is no file to open. -/
  | cannotOpen
  deriving DecidableEq, Repr

namespace Fault

/-- The result code of a fault. -/
def code : Fault → Int
  | locked => 5
  | cannotOpen => 14
  | violation .keyType => 20
  | violation .reference => 787
  | violation (.nullColumn _ _) => 1299
  | violation (.duplicateKey _ _) => 1555
  | _ => 1

/-- A fault in words. -/
def message : Fault → String
  | read fault => fault.message
  | noSuchTable name => "no such table: " ++ name
  | noSuchColumn name => "no such column: " ++ name
  | tableExists name => "table " ++ name ++ " already exists"
  | violation .keyType => "datatype mismatch"
  | violation (.duplicateKey table key) => "UNIQUE constraint failed: " ++ table ++ "." ++ key
  | violation (.nullColumn table column) =>
    "NOT NULL constraint failed: " ++ table ++ "." ++ column
  | violation .reference => "FOREIGN KEY constraint failed"
  | transactionOpen => "cannot start a transaction within a transaction"
  | noTransaction verb => "cannot " ++ verb ++ " - no transaction is active"
  | vacuumInTransaction => "cannot VACUUM from within a transaction"
  | locked => "database is locked"
  | cannotOpen => "unable to open database file"

end Fault

/-- A fault as the driver passes it on. -/
def Fault.toDriverError (f : Fault) : DriverError := .database f.code f.message

end ConnectionPool.Engine
