/-!
# Work queues

A `WorkQueue` orders the operations on one connection.  At most one is in flight,
and they are taken in the order they were submitted.

An operation has a caller, unless it is detached.  When the caller leaves before the
operation's turn, the operation is skipped; when it leaves while the operation is in
flight, the operation is given up.  A detached operation is never skipped.

Once closing was asked for, nothing is accepted and nothing is started.  The
operation in flight is finished, then what is left is cancelled and the queue ends.
A queue also ends when an operation breaks it; it is then not closing, but refuses
work all the same.
-/

namespace ConnectionPool

/-- An operation in a queue. -/
structure WorkItem (α : Type) where
  /-- The number that tells operations apart. -/
  id : Nat
  /-- What to do. -/
  work : α
  /-- Nobody waits for it, and nobody can give it up. -/
  detached : Bool := false
  /-- Its caller left. -/
  abandoned : Bool := false
  deriving DecidableEq, Repr

/-- The operation is to be skipped or given up. -/
def WorkItem.isGivenUp {α : Type} (i : WorkItem α) : Bool := i.abandoned && !i.detached

/-- Somebody waits for its result. -/
def WorkItem.isAwaited {α : Type} (i : WorkItem α) : Bool := !i.abandoned && !i.detached

/-- The operations on one connection. -/
structure WorkQueue (α : Type) where
  /-- The operations not yet started, in order of submission. -/
  pending : List (WorkItem α) := []
  /-- The operation in flight. -/
  current : Option (WorkItem α) := none
  /-- Closing was asked for. -/
  closing : Bool := false
  /-- Nothing will be started any more, and the native connection is closed. -/
  ended : Bool := false
  /-- Somebody waits, or waited, for the end. -/
  closeTaken : Bool := false
  deriving DecidableEq, Repr

/-- What a queue does when it may go on. -/
inductive WorkQueue.Turn (α : Type) where
  /-- Nothing: there is no work, or an operation is in flight, or all is over. -/
  | rest
  /-- It passes over an operation whose caller left. -/
  | skip (item : WorkItem α)
  /-- It starts an operation. -/
  | start (item : WorkItem α)
  /-- It ends, and cancels the operations that are left. -/
  | finish (cancelled : List (WorkItem α))
  deriving DecidableEq, Repr

namespace WorkQueue

variable {α : Type}

/-- Work is refused. -/
def refuses (q : WorkQueue α) : Bool := q.closing || q.ended

/-- Adds an operation behind the others, if work is accepted. -/
def submit (q : WorkQueue α) (item : WorkItem α) : Option (WorkQueue α) :=
  if q.refuses then none else some { q with pending := q.pending ++ [item] }

/-- Marks an operation as given up by its caller. -/
def markAbandoned (id : Nat) (i : WorkItem α) : WorkItem α :=
  if i.id = id then { i with abandoned := true } else i

/-- The caller of an operation leaves. -/
def leave (q : WorkQueue α) (id : Nat) : WorkQueue α :=
  { q with
    pending := q.pending.map (markAbandoned id)
    current := q.current.map (markAbandoned id) }

/-- The queue goes on.  That closing was asked for is noticed before any work. -/
def turn (q : WorkQueue α) : WorkQueue α × Turn α :=
  if q.ended || q.current.isSome then (q, .rest)
  else if q.closing then ({ q with pending := [], ended := true }, .finish q.pending)
  else
    match q.pending with
    | [] => (q, .rest)
    | i :: rest =>
      if i.isGivenUp then ({ q with pending := rest }, .skip i)
      else ({ q with pending := rest, current := some i }, .start i)

/-- The operation in flight is over. -/
def finishCurrent (q : WorkQueue α) : WorkQueue α := { q with current := none }

/-- The operation in flight broke the queue: what is left is cancelled. -/
def crash (q : WorkQueue α) : WorkQueue α × List (WorkItem α) :=
  ({ q with pending := [], current := none, ended := true }, q.pending)

/-- Closing is asked for. -/
def requestClose (q : WorkQueue α) : WorkQueue α := { q with closing := true }

/-- Somebody wants to wait for the end.  Only the first one does. -/
def takeClose (q : WorkQueue α) : WorkQueue α × Bool :=
  ({ q with closeTaken := true }, !q.closeTaken && !q.ended)

end WorkQueue

end ConnectionPool
