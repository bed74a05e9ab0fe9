import ConnectionPool.Config
import ConnectionPool.DatabasePath
import ConnectionPool.Membership
import ConnectionPool.Pool.Entry
import ConnectionPool.Query

/-!
# Answers

What a script's steps show: the results of tasks, the results of what was done at
once, and after each step the summary of every path.

A connection is shown by a label.  Labels are numbers in the order in which
connections are first shown.
-/

namespace ConnectionPool

/-- The name of a role. -/
def Role.name : Role → String
  | primary => "Primary"
  | pooled => "Pooled"

namespace Scenario

/-- A connection as it is shown. -/
structure ConnectionInfo where
  /-- Its label. -/
  label : Nat
  /-- What it is for. -/
  role : Role
  /-- Its database is in memory. -/
  isMemory : Bool
  /-- It accepts work. -/
  isOpen : Bool
  /-- The path it was opened with. -/
  path : DatabasePath
  deriving Repr

/-- The name of a label. -/
def labelName (n : Nat) : String := "c" ++ toString n

/-! ## Debugging texts -/

/-- A text between quotes, with quotes and backslashes escaped. -/
def quoted (s : String) : String :=
  "\"" ++ String.ofList (s.toList.flatMap fun c =>
    if c = '"' ∨ c = '\\' then ['\\', c] else [c]) ++ "\""

/-- A name with fields. -/
def fielded (name : String) (fields : List (String × String)) : String :=
  let inner := ", ".intercalate (fields.map fun f => f.1 ++ ": " ++ f.2)
  name ++ " \x7b " ++ inner ++ " \x7d"

/-- The debugging text of an optional number. -/
def optionText : Option Nat → String
  | some n => "Some(" ++ toString n ++ ")"
  | none => "None"

/-- The debugging text of a truth value. -/
def truthText (b : Bool) : String := if b then "true" else "false"

/-- The debugging text of a configuration. -/
def configText (c : Config) : String :=
  fielded "SqliteDatabaseConfig" [
    ("max_pooled_connections", toString c.maxPooled),
    ("lock_retry_delay_ms", toString c.lockRetryDelay),
    ("closing_grace_period_ms", toString c.closingGrace),
    ("max_lock_retries", optionText c.maxLockRetries),
    ("trace", truthText c.trace)]

/-- The debugging text of a registry with so many pools. -/
def registryText (c : Config) (pools : Nat) : String :=
  fielded "PoolRegistry" [("config", configText c), ("paths", toString pools)]

/-- The debugging text of a connection. -/
def connectionText (c : ConnectionInfo) : String :=
  fielded "Connection" [("id", labelName c.label), ("path", quoted c.path.text),
    ("role", c.role.name), ("open", truthText c.isOpen)]

/-- The debugging text of a lease. -/
def leaseText (c : ConnectionInfo) (pooled : Bool) : String :=
  fielded "Lease" [("conn", connectionText c), ("pooled", truthText pooled)]

/-- The debugging text of a database. -/
def databaseText (c : ConnectionInfo) (registry : String) : String :=
  fielded "Database" [("primary", connectionText c), ("registry", registry)]

/-! ## Results -/

/-- The result of a task, or of an item of a unit of work. -/
inductive Answer where
  /-- Nothing to tell. -/
  | done
  /-- A truth value. -/
  | flag (b : Bool)
  /-- A text. -/
  | text (s : String)
  /-- The result of a query. -/
  | query (r : QueryResult)
  /-- A connection. -/
  | connection (c : ConnectionInfo)
  /-- A lease. -/
  | lease (c : ConnectionInfo) (pooled : Bool)
  /-- The results of the items of a unit of work. -/
  | items (items : List Answer)
  /-- An error that was caught. -/
  | caught (e : Error)
  deriving Repr

/-- How a task ended. -/
inductive Outcome where
  /-- With a result. -/
  | ok (a : Answer)
  /-- With an error, and the rows delivered before it where that is told. -/
  | error (e : Error) (seen : Option (List Row))
  /-- With a panic. -/
  | panic (message : String)
  /-- It was dropped. -/
  | aborted
  deriving Repr

/-- What was done at once gives. -/
inductive Reading where
  /-- A text. -/
  | text (s : String)
  /-- A truth value. -/
  | flag (b : Bool)
  /-- A number. -/
  | count (n : Nat)
  /-- A summary, if there is one. -/
  | stats (s : Option PoolStats)
  /-- The last row id and the last error. -/
  | last (row : Int64) (error : Option String)
  /-- A connection. -/
  | connection (c : ConnectionInfo)
  /-- A lease. -/
  | lease (c : ConnectionInfo) (pooled : Bool)
  /-- A database, with its summary. -/
  | database (c : ConnectionInfo) (s : Option PoolStats)
  /-- An error. -/
  | error (e : Error)
  /-- A failure of the engine on a connection the registry does not know. -/
  | engineFailure (code : String) (message : String)
  /-- The step names something that is not there. -/
  | unknown
  deriving Repr

/-- What a step shows. -/
structure StepAnswer where
  /-- The summary of each path. -/
  pools : List (DatabasePath × PoolStats)
  /-- What it gives at once. -/
  reading : Option Reading
  /-- The tasks that ended, in the order they were started. -/
  done : List (String × Outcome)
  /-- What happened, in order. -/
  events : List String
  deriving Repr

end Scenario

end ConnectionPool
