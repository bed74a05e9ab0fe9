import ConnectionPool.Pool.Ledger

/-!
# Runs of a pool

An `Event` is one step that somebody takes with a pool: the operations of the ledger,
each with the data its caller chooses.  A caller can take a step only in its turn, and
`Pool.permits` says when that is.  Nothing else is assumed: any event that is
permitted may come next, and an event carries any connection, any deadline and any
answer to the question which connections are open.

What the steps cover:

* An acquisition is given up by `abandon` in any stage.  Its open failed if it was
  `opening`, and its initializer failed if it was `closing`.
* A lease is given back by `release`, whether its owner does it or drops it.
* A pause of a lock retry ends with `resume`, by a wake or by time, or is given up: by
  `cancelPause`, with the operation going on, or by `endRetries`, with the operation.

`Pool.losesWake` marks the steps that throw a wake away which somebody could use.  A
`Run` counts them.
-/

namespace ConnectionPool

namespace Pool

/-- A step that somebody takes with a pool. -/
inductive Event where
  /-- A primary connection is being opened. -/
  | beginOpen
  /-- A primary connection was opened, or could not be. -/
  | endOpen (opened : Bool)
  /-- A primary connection was closed or dropped. -/
  | closePrimary
  /-- A primary connection is leased. -/
  | leasePrimary
  /-- The lease on a primary connection is given back. -/
  | releasePrimary
  /-- A pooled connection is asked for. -/
  | acquire
  /-- An acquisition with a slot takes an idle connection or has to open one. -/
  | claim (ticket : Nat) (isOpen : Nat → Bool)
  /-- An acquisition opened a connection. -/
  | opened (ticket conn : Nat)
  /-- An acquisition becomes a lease. -/
  | lease (ticket conn : Nat)
  /-- An initializer failed. -/
  | initializerFailed (ticket conn : Nat)
  /-- An acquisition ends without a lease. -/
  | abandon (ticket : Nat)
  /-- A pooled connection is given back, to be idle until a deadline if there is one. -/
  | release (conn : Nat) (deadline : Option Nat)
  /-- The timer of an idle connection fires. -/
  | fire (timer : Nat)
  /-- A shutdown takes all idle connections. -/
  | drainIdle
  /-- A shutdown begins to use the pool. -/
  | beginShutdown
  /-- A shutdown is done with the pool. -/
  | endShutdown
  /-- An operation that may retry begins. -/
  | beginRetries
  /-- An operation pauses in the queue. -/
  | park (id : Nat) (autocommit : Bool)
  /-- An operation pauses for a fixed time. -/
  | delay (id : Nat)
  /-- A pause ends, by a wake or by time. -/
  | resume (id : Nat)
  /-- A pause is given up. -/
  | cancelPause (id : Nat)
  /-- An operation that may retry ends. -/
  | endRetries (id : Nat)

/-- An operation has the number and is in a state to go on. -/
def hasRetry (p : Pool) (id : Nat) (ready : RetryState → Bool) : Bool :=
  (p.retry? id).any ready

/-- It is somebody's turn to take the step. -/
def permits (p : Pool) : Event → Bool
  | .endOpen _ => 0 < p.opens
  | .releasePrimary => 0 < p.primaryLeases
  | .claim ticket _ => p.stage? ticket == some .granted
  | .opened ticket _ => p.stage? ticket == some .opening
  | .lease ticket conn => p.stage? ticket == some (.preparing conn)
  | .initializerFailed ticket conn => p.stage? ticket == some (.preparing conn)
  | .release conn _ => p.leases.contains conn
  | .endShutdown => 0 < p.shutdowns
  | .park id _ => p.hasRetry id (·.pause.isNone)
  | .delay id => p.hasRetry id (·.pause.isNone)
  | .resume id => p.hasRetry id (·.pause.isSome)
  | .cancelPause id => p.hasRetry id (·.pause.isSome)
  | _ => true

/-- Changes the pool by what it does with an operation that may retry. -/
def withRetry (p : Pool) (id : Nat) (f : RetryState → Pool) : Pool :=
  match p.retry? id with
  | some r => f r
  | none => p

theorem retry_of_hasRetry {p : Pool} {id : Nat} {ready : RetryState → Bool}
    (h : p.hasRetry id ready) : ∃ r, p.retry? id = some r ∧ ready r := by
  rwa [hasRetry, Option.any_eq_true] at h

theorem withRetry_eq {p : Pool} {id : Nat} {r : RetryState} {f : RetryState → Pool}
    (found : p.retry? id = some r) : p.withRetry id f = f r := by
  rw [withRetry, found]

/-- The pool after a step. -/
def after (p : Pool) : Event → Pool
  | .beginOpen => p.beginOpen
  | .endOpen opened => p.endOpen opened
  | .closePrimary => p.closePrimary
  | .leasePrimary => p.leasePrimary
  | .releasePrimary => p.releasePrimary.1
  | .acquire => p.acquire.1
  | .claim ticket isOpen => (p.claim ticket isOpen).1
  | .opened ticket conn => p.opened ticket conn
  | .lease ticket conn => p.lease ticket conn
  | .initializerFailed ticket conn => p.initializerFailed ticket conn
  | .abandon ticket => (p.abandon ticket).1
  | .release conn deadline => (p.release conn deadline).1
  | .fire timer => (p.fire timer).1
  | .drainIdle => p.drainIdle.1
  | .beginShutdown => p.beginShutdown
  | .endShutdown => p.endShutdown
  | .beginRetries => p.beginRetries.1
  | .park id autocommit => p.withRetry id fun r => (p.pauseParked r autocommit).1
  | .delay id => p.withRetry id p.pauseDelayed
  | .resume id => p.withRetry id p.resume
  | .cancelPause id => p.withRetry id p.cancelPause
  | .endRetries id => (p.endRetries id).1

end Pool

/-! ## Wakes -/

/-- An acquisition whose owner still waits. -/
def Waiter.isAcquisition (w : Waiter) : Bool := w.live && w.kind == .acquisition

namespace Pool

/-- The wake of a ticket was sent and not taken. -/
def isWoken (p : Pool) (ticket : Nat) : Bool := (p.receiver? ticket).any (·.woken)

/-- A lock retry was sent a wake and has not taken it. -/
def hasWake (p : Pool) (r : RetryState) : Bool :=
  match r.pause with
  | some (.parked ticket _) => p.isWoken ticket
  | _ => false

/-- A wake is on its way: some lock retry has to take it, or has to pass it on. -/
def hasWakeOut (p : Pool) : Bool := p.retries.any fun r => r.owesWake || p.hasWake r

/-- The first live waiter is an acquisition. -/
def servesAcquisition (p : Pool) : Bool :=
  (p.entry.waiters.find? (·.live)).any Waiter.isAcquisition

/-- The first live waiter is an acquisition, there is a slot for it, and no wake is on
its way. -/
def isStranded (p : Pool) : Bool :=
  p.servesAcquisition && decide (p.entry.inUse < p.entry.limit) && !p.hasWakeOut

/-- Some acquisition waits and there is a free slot. -/
def needsWake (p : Pool) : Bool :=
  p.entry.waiters.any Waiter.isAcquisition && decide (p.entry.inUse < p.entry.limit)

/-- The step gives up a wake that was sent and not taken, while it is needed. -/
def losesWake (p : Pool) : Event → Bool
  | .cancelPause id => p.hasRetry id (fun r => !r.owesWake && p.hasWake r) && p.needsWake
  | .endRetries id => p.hasRetry id (fun r => !r.owesWake && p.hasWake r) && p.needsWake
  | _ => false

/-! ## Runs -/

/-- A pool comes about by steps of which so many lost a wake. -/
inductive Run (limit : Nat) : Nat → Pool → Prop where
  /-- Nobody has used it. -/
  | new : Run limit 0 (Pool.new limit)
  /-- One more step. -/
  | step {lost : Nat} {p : Pool} (e : Event) :
      Run limit lost p → p.permits e → Run limit (lost + (p.losesWake e).toNat) (p.after e)

/-- A pool comes about by steps. -/
def Reachable (limit : Nat) (p : Pool) : Prop := ∃ lost, Run limit lost p

theorem Reachable.new (limit : Nat) : Reachable limit (Pool.new limit) := ⟨0, .new⟩

theorem Reachable.step {limit : Nat} {p : Pool} (h : Reachable limit p) (e : Event)
    (permitted : p.permits e) : Reachable limit (p.after e) := by
  obtain ⟨lost, run⟩ := h
  exact ⟨_, run.step e permitted⟩

end Pool

end ConnectionPool
