/-!
# Retry strategies

An operation that met a lock waits before its next attempt.  With other connections to the
same path open, one of them will wake it, so it queues.  Alone, it waits out a delay.
Attempts are counted from zero: with a limit of `m` that of number `m` is the last.
-/

namespace ConnectionPool

/-- How a blocked operation waits: in the queue, or for a fixed number of milliseconds. -/
inductive RetryStrategy where
  | queued
  | delayed (delay : Nat)
  deriving DecidableEq, Repr

/-- With so many connections to the path open. -/
def RetryStrategy.forOpenConnections (count delay : Nat) : RetryStrategy :=
  if 1 < count then .queued else .delayed delay

def RetryStrategy.name : RetryStrategy → String
  | queued => "queued"
  | delayed _ => "delayed"

/-- No retry follows the attempt of this number. -/
def retriesExhausted (limit : Option Nat) (attempt : Nat) : Bool := limit.any (· ≤ attempt)

/-- How a pause between two attempts stands.  It is `cancelled` when the connection closes. -/
inductive PauseState where
  | passed
  | cancelled
  | lasts
  deriving DecidableEq, Repr

def PauseState.of (ended closing : Bool) : PauseState :=
  if ended then .passed else if closing then .cancelled else .lasts

end ConnectionPool
