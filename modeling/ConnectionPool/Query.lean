import ConnectionPool.Engine
import ConnectionPool.Placeholder
import ConnectionPool.RetryStrategy

/-!
# Queries

A query is a statement with the way its rows are wanted.  One attempt at a query
prepares the statement, executes it on a session and reads the result.

A query whose rows are handed to a callback one by one has delivered rows also when
it fails in the end.  A lock error ends such a query once a row was delivered, because
another attempt would deliver the same rows again.  Before that, and for every other
query, a lock error leads to another attempt until the retries are exhausted.
-/

namespace ConnectionPool

/-- How the rows of a query are wanted. -/
inductive QueryKind where
  /-- Not at all: the statement is run for its effect. -/
  | run
  /-- Only the first. -/
  | one
  /-- All of them. -/
  | all
  /-- Each handed to a callback. -/
  | each
  /-- Each handed to a callback that keeps its first column. -/
  | mapped
  deriving DecidableEq, Repr

/-- The rows go to a callback. -/
def QueryKind.streams : QueryKind → Bool
  | each => true
  | mapped => true
  | _ => false

/-- The result of a query. -/
inductive QueryResult where
  /-- What a statement that was run reports. -/
  | ran (r : RunResult)
  /-- The first row, if there is one. -/
  | first (row : Option Row)
  /-- All rows. -/
  | rows (rows : List Row)
  /-- The rows that were handed to the callback. -/
  | delivered (rows : List Row)
  /-- The first column of each row. -/
  | values (values : List Value)
  deriving DecidableEq, Repr

/-- One attempt at a query. -/
structure QueryAttempt where
  /-- The rows handed to the callback. -/
  delivered : List Row
  /-- How the attempt ended. -/
  result : Except ConnectionError QueryResult

/-- The value in the first column of a row. -/
def firstColumn (row : Row) : Value := (row.entries.head?.map Prod.snd).getD .null

/-- The result that the outcome of a text is for a query. -/
def QueryKind.result (kind : QueryKind) (o : Engine.Outcome) : QueryResult :=
  match kind with
  | .run => .ran ⟨UInt64.ofNat o.changes, o.lastRow⟩
  | .one => .first o.rows.head?
  | .all => .rows o.rows
  | .each => .delivered o.rows
  | .mapped => .values (o.rows.map firstColumn)

/-- What the outcome of a statement's text is as an attempt. -/
def QueryAttempt.ofOutcome (kind : QueryKind) (s : Statement) (o : Engine.Outcome) :
    QueryAttempt where
  delivered := if kind.streams then o.rows else []
  result :=
    match o.failure with
    | some error => .error (.ofDriver error s)
    | none => .ok (kind.result o)

/-- One attempt at a query on a session. -/
def Engine.attempt (e : Engine) (session : Nat) (kind : QueryKind) (s : Statement) :
    Engine × QueryAttempt :=
  match s.prepare with
  | .error error => (e, ⟨[], .error error⟩)
  | .ok (sql, values) =>
    let (e, o) := e.run session sql values (kind == .one)
    (e, .ofOutcome kind s o)

/-- The attempt of this number is followed by another one. -/
def QueryAttempt.isRetried (a : QueryAttempt) (limit : Option Nat) (attempt : Nat) : Bool :=
  match a.result with
  | .error e => e.isLock && a.delivered.isEmpty && !retriesExhausted limit attempt
  | .ok _ => false

end ConnectionPool
