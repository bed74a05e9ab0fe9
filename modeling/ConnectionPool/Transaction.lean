import ConnectionPool.Error
import ConnectionPool.IsolationMode

/-!
# Transactions

A `Transaction` coordinates one unit of work.  It leases a connection, submits the
statement that begins the transaction, runs the unit, and submits the statement that
commits or rolls back.  Then it gives the lease back and tells the outcome.

`Transaction.step` takes one event and answers with the actions that follow from it.
Every wait of the coordinator lies between two events, so a caller that gives up
comes in as the event `dropped` in some phase.

* The outcome is the unit's value if the commit succeeded, the error of the commit if
  it failed, and otherwise the unit's own error or panic.  A rollback that fails is
  noted and changes nothing.
* From the moment the beginning was submitted until a terminal statement succeeded, or
  the beginning failed, a rollback is owed.  Dropped while it owes one, the
  coordinator queues it as detached work.
-/

namespace ConnectionPool

/-- The states of a transaction that its trace shows. -/
inductive TransactionState where
  /-- Nothing was done. -/
  | idle
  /-- It waits for a connection, or for the beginning on it. -/
  | acquiringConnection
  /-- The transaction is open. -/
  | began
  /-- The unit of work runs. -/
  | running
  /-- The commit was submitted. -/
  | committing
  /-- The rollback was submitted. -/
  | rollingBack
  /-- The lease was given back. -/
  | released
  deriving DecidableEq, Repr

/-- The name of a state. -/
def TransactionState.name : TransactionState → String
  | idle => "Idle"
  | acquiringConnection => "AcquiringConnection"
  | began => "Began"
  | running => "Running"
  | committing => "Committing"
  | rollingBack => "RollingBack"
  | released => "Released"

/-- How a unit of work ends, and how a transaction does. -/
inductive UnitOutcome (α : Type) where
  /-- With a value. -/
  | value (a : α)
  /-- With an error. -/
  | error (e : Error)
  /-- With a panic. -/
  | panic (message : String)
  deriving Repr

namespace Transaction

/-- What the coordinator waits for. -/
inductive Phase (α : Type) where
  /-- Nothing yet. -/
  | idle
  /-- The lease. -/
  | acquiring
  /-- The beginning. -/
  | beginning
  /-- The unit of work. -/
  | running
  /-- The commit of a value. -/
  | committing (a : α)
  /-- The rollback, before it tells an outcome. -/
  | rollingBack (outcome : UnitOutcome α)
  /-- Nothing more. -/
  | finished
  deriving Repr

/-- The state that a phase shows. -/
def Phase.state {α : Type} : Phase α → TransactionState
  | idle => .idle
  | acquiring => .acquiringConnection
  | beginning => .acquiringConnection
  | running => .running
  | committing _ => .committing
  | rollingBack _ => .rollingBack
  | finished => .released

/-- What happens to a coordinator. -/
inductive Event (α : Type) where
  /-- It is started. -/
  | start
  /-- It got its lease. -/
  | leased
  /-- It got no lease. -/
  | notLeased (e : ConnectionError)
  /-- The statement it waits for succeeded. -/
  | succeeded
  /-- The statement it waits for failed. -/
  | failed (e : ConnectionError)
  /-- The unit of work ended. -/
  | unitDone (outcome : UnitOutcome α)
  /-- Its caller gave up. -/
  | dropped

/-- What a coordinator does. -/
inductive Action (α : Type) where
  /-- It shows that it went from one state to another. -/
  | trace (source target : TransactionState)
  /-- It asks for a lease. -/
  | acquire
  /-- It submits a statement to its connection and waits for it. -/
  | submit (sql : String)
  /-- It runs the unit of work. -/
  | runUnit
  /-- It notes that a rollback failed. -/
  | noteRollbackFailed
  /-- It notes in which state it was dropped while it owed a rollback. -/
  | noteDropped (state : TransactionState)
  /-- It queues a statement that nobody waits for. -/
  | detach (sql : String)
  /-- It gives its lease back. -/
  | release
  /-- It tells the outcome. -/
  | conclude (outcome : UnitOutcome α)
  deriving Repr

end Transaction

/-- The coordinator of one unit of work. -/
structure Transaction (α : Type) where
  /-- When the transaction takes its locks. -/
  mode : IsolationMode
  /-- What it waits for. -/
  phase : Transaction.Phase α := .idle
  /-- It has to end the transaction that may be open. -/
  owesRollback : Bool := false
  deriving Repr

namespace Transaction

variable {α : Type}

/-- The statement that commits. -/
def commitStatement : String := "COMMIT TRANSACTION"

/-- The statement that rolls back. -/
def rollbackStatement : String := "ROLLBACK TRANSACTION"

/-- Gives the lease back and tells the outcome. -/
def finish (t : Transaction α) (outcome : UnitOutcome α) : Transaction α × List (Action α) :=
  ({ t with phase := .finished, owesRollback := false },
    [.release, .trace t.phase.state .released, .conclude outcome])

/-- Submits the rollback, after which the outcome is told. -/
def rollBack (t : Transaction α) (outcome : UnitOutcome α) : Transaction α × List (Action α) :=
  ({ t with phase := .rollingBack outcome },
    [.trace t.phase.state .rollingBack, .submit rollbackStatement])

/-- One step of a coordinator. -/
def step (t : Transaction α) (e : Event α) : Transaction α × List (Action α) :=
  match t.phase, e with
  | .idle, .start =>
    ({ t with phase := .acquiring }, [.trace .idle .acquiringConnection, .acquire])
  | .acquiring, .leased =>
    ({ t with phase := .beginning, owesRollback := true }, [.submit t.mode.beginStatement])
  | .acquiring, .notLeased e =>
    ({ t with phase := .finished }, [.conclude (.error (.connection e))])
  | .acquiring, .dropped => ({ t with phase := .finished }, [])
  | .beginning, .succeeded =>
    ({ t with phase := .running },
      [.trace .acquiringConnection .began, .trace .began .running, .runUnit])
  | .beginning, .failed e => t.finish (.error (.connection e))
  | .running, .unitDone (.value a) =>
    ({ t with phase := .committing a }, [.trace .running .committing, .submit commitStatement])
  | .running, .unitDone outcome => t.rollBack outcome
  | .committing a, .succeeded => t.finish (.value a)
  | .committing _, .failed e => t.rollBack (.error (.connection e))
  | .rollingBack outcome, .succeeded => t.finish outcome
  | .rollingBack outcome, .failed _ =>
    let (t, actions) := t.finish outcome
    (t, .noteRollbackFailed :: actions)
  | .idle, _ => (t, [])
  | .finished, _ => (t, [])
  | phase, .dropped =>
    ({ t with phase := .finished, owesRollback := false },
      (if t.owesRollback then [.noteDropped phase.state, .detach rollbackStatement] else [])
        ++ [.release, .trace phase.state .released])
  | _, _ => (t, [])

end Transaction

end ConnectionPool
