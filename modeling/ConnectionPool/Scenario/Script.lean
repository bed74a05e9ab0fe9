import ConnectionPool.Config
import ConnectionPool.DatabasePath
import ConnectionPool.IsolationMode
import ConnectionPool.Query

/-!
# Scripts

A script is a list of steps that drive a registry and its connections.  A step either
starts an operation, which runs as a task of its own, or does something at once.
Both name what they work on by the names that earlier steps gave.
-/

namespace ConnectionPool.Scenario

/-- A step of an initializer: a statement on the fresh connection, a gate to wait at, or a
failure. -/
inductive InitStep where
  | run (sql : String)
  | gate (name : String)
  | fail (message : String)
  deriving Repr

/-- How a transaction is run, for units of work made of items. -/
structure Plan (Item : Type) where
  mode : IsolationMode := .deferred
  /-- A pooled connection is wanted and not the primary one. -/
  fresh : Bool := true
  /-- What a fresh connection is prepared with. -/
  init : Option (List InitStep) := none
  body : List Item
  /-- The unit panics before it starts, with this message. -/
  panics : Option String := none
  deriving Repr

/-- An item of a unit of work.  An item that catches keeps an error as its result. -/
inductive UnitItem where
  | query (kind : QueryKind) (s : Statement) (catches : Bool)
  | gate (name : String)
  | panic (message : String)
  /-- Fails with an error of its own. -/
  | fail (message : String)
  /-- Fails with an error of the driver. -/
  | failDriver (e : DriverError)
  /-- Tells which connection it is on. -/
  | who
  /-- Asks whether the connection is outside a transaction. -/
  | autocommit
  | close
  | detached (sql : String)
  /-- Runs a transaction inside, on the outermost primary connection or, as if that
  were the primary, on the current one. -/
  | nested (plan : Plan UnitItem) (onCurrent catches : Bool)

/-- An operation that runs as a task. -/
inductive Operation where
  | openPath (path : DatabasePath)
  /-- Opens a database, with a registry of its own if it has a configuration. -/
  | connect (path : DatabasePath) (config : Option Config)
  | query (on : String) (kind : QueryKind) (s : Statement)
  | vacuum (on : String)
  | autocommit (on : String)
  /-- Work that passes a gate and then returns a text or fails. -/
  | append (on ok : String) (gate fail : Option String)
  | close (on : String)
  | acquire (on : String) (fresh : Bool) (init : Option (List InitStep))
  /-- Runs a transaction, through the scenario's registry or the database's own. -/
  | transaction (on : String) (plan : Plan UnitItem) (ownRegistry : Bool)
  /-- Closes all idle connections. -/
  | shutdown
  /-- Waits as an operation does that met a lock. -/
  | wait (on policy : String) (attempt : Nat) (code : Int)

/-- How a lease is given back: by a call or by dropping it, or by dropping it where no timer
can be started. -/
inductive ReleaseKind where
  | returned
  | droppedOutside
  deriving DecidableEq, Repr

/-- Something done at once. -/
inductive Command where
  /-- Queues a statement that nobody waits for. -/
  | detached (on sql : String)
  /-- Drops an object. -/
  | forget (on : String)
  /-- Reads the last row id and the last error. -/
  | last (on : String)
  /-- Describes an object. -/
  | info (on : String)
  /-- The debugging text of an object, or of the registry. -/
  | debug (on : Option String)
  | release (on : String) (how : ReleaseKind)
  /-- Lets passes through a gate. -/
  | gate (name : String) (passes : Nat)
  | cancel (task : String)
  | advance (ms : Nat)
  | stats (path : DatabasePath)
  | prune
  | config
  | remove (path : DatabasePath)
  /-- Opens a native connection that the registry does not know. -/
  | outside (path : DatabasePath)
  | outsideRun (on sql : String)
  | outsideClose (on : String)
  /-- Counts a primary connection. -/
  | register (on : String)
  | unregister (on : String)
  | openConnections (on : String)
  | wake (on : String)
  /-- Queues a lock retry. -/
  | park (on : String) (autocommit owesWake : Bool)
  /-- Looks whether a lock retry was woken. -/
  | poll (receiver : String)
  /-- Gives up a lock retry. -/
  | unpark (receiver : String)
  /-- Makes the policy of an operation that may retry. -/
  | policy (on : String) (config : Option Config)
  | policyClose (policy : String)
  | policyDrop (policy : String)

/-- What a step does: it starts a task, or does something at once. -/
inductive Act where
  | task (op : Operation)
  | now (c : Command)

/-- A step of a script, with the name of its task or of what it makes. -/
structure Step where
  name : String
  act : Act

end ConnectionPool.Scenario
