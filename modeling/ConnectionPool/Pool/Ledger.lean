import ConnectionPool.Pool.Entry

/-!
# The pool of one path

A `Pool` is an entry together with everybody who has business with it: pending
opens and acquisitions, leases, lock retries and their policies, timers of idle
connections and shutdowns under way.  Each operation is one step, as under a lock,
and returns the waiter it woke, if any.

An acquisition goes through stages.  It is `queued` until a slot is granted, or
starts with a slot.  With the slot it takes an idle connection or opens one; a fresh
connection is prepared by the caller's initializer.  It ends as a lease, or gives
its slot back and, if it opened a connection, closes it first.

A lock retry is woken through a `Receiver`.  A wake that was sent and not yet taken
is in the receiver.  The `RetryState` of an operation remembers between attempts
whether it owes the queue a wake: it was woken and has not passed the wake on.  It
passes it on when it parks again or when it is dropped.

`isHeld` says that somebody needs the pool to stay where it is.
-/

namespace ConnectionPool

/-- Where an acquisition stands. -/
inductive Acquisition.Stage where
  /-- It waits for a slot. -/
  | queued
  /-- It has a slot and has not gone on. -/
  | granted
  /-- It opens a connection. -/
  | opening
  /-- Its initializer works on a fresh connection. -/
  | preparing (conn : Nat)
  /-- Its initializer failed, and the connection is being closed. -/
  | closing (conn : Nat)
  deriving DecidableEq, Repr

/-- A pending request for a pooled connection. -/
structure Acquisition where
  /-- The ticket of its waiter. -/
  ticket : Nat
  /-- Where it stands. -/
  stage : Acquisition.Stage
  deriving DecidableEq, Repr

/-- The end at which a lock retry is woken. -/
structure Receiver where
  /-- The ticket of its waiter. -/
  ticket : Nat
  /-- A wake was sent and not taken. -/
  woken : Bool := false
  deriving DecidableEq, Repr

/-- How an operation pauses between attempts. -/
inductive Pause where
  /-- In the queue.  The flag says whether it owes a wake besides one it may get. -/
  | parked (ticket : Nat) (owesWake : Bool)
  /-- For a fixed time, holding the pool. -/
  | delayed
  deriving DecidableEq, Repr

/-- What the retries of one operation remember. -/
structure RetryState where
  /-- The number that tells operations apart. -/
  id : Nat
  /-- It was woken and has not passed the wake on. -/
  owesWake : Bool := false
  /-- How it pauses, while it does. -/
  pause : Option Pause := none
  deriving DecidableEq, Repr

/-- The operation pauses and holds the pool.  One that is going to park holds it too while it
asks whether a transaction is open.  To ask and to park is one step here, so that is not
counted. -/
def RetryState.holdsPool (r : RetryState) : Bool := r.pause == some .delayed

/-- A running timer that will close an idle connection. -/
structure GraceTimer where
  /-- The number that tells timers apart. -/
  id : Nat
  /-- The connection to close. -/
  conn : Nat
  /-- When to close it. -/
  deadline : Nat
  deriving DecidableEq, Repr

/-- An entry and everybody who has business with it. -/
structure Pool where
  /-- The books. -/
  entry : Entry
  /-- Pending opens of primary connections. -/
  opens : Nat := 0
  /-- Pending acquisitions. -/
  acquisitions : List Acquisition := []
  /-- Pooled connections handed out. -/
  leases : List Nat := []
  /-- Leases on primary connections. -/
  primaryLeases : Nat := 0
  /-- Receivers of lock retries. -/
  receivers : List Receiver := []
  /-- Operations that may retry. -/
  retries : List RetryState := []
  /-- Running timers of idle connections. -/
  timers : List GraceTimer := []
  /-- Shutdowns under way, and timers that close a connection. -/
  shutdowns : Nat := 0
  /-- The next ticket or number that is free. -/
  fresh : Nat := 0
  deriving DecidableEq, Repr

namespace Pool

/-- The pool of a path that nobody has used. -/
def new (limit : Nat) : Pool := { entry := { limit } }

/-- Somebody needs the pool to stay.  What holds it within a single step only, like a retry
that asks whether a transaction is open before it parks, is not counted. -/
def isHeld (p : Pool) : Bool :=
  p.opens != 0 || !p.acquisitions.isEmpty || !p.leases.isEmpty || p.primaryLeases != 0
    || p.shutdowns != 0 || p.retries.any RetryState.holdsPool

/-- Sets the stage of an acquisition. -/
def setStage (p : Pool) (ticket : Nat) (stage : Acquisition.Stage) : Pool :=
  { p with acquisitions := p.acquisitions.map fun a =>
      if a.ticket = ticket then { a with stage } else a }

/-- The stage of an acquisition. -/
def stage? (p : Pool) (ticket : Nat) : Option Acquisition.Stage :=
  (p.acquisitions.find? (·.ticket == ticket)).map (·.stage)

/-- Forgets an acquisition. -/
def dropAcquisition (p : Pool) (ticket : Nat) : Pool :=
  { p with acquisitions := p.acquisitions.filter (·.ticket != ticket) }

/-- The books after a step, and the waiter woken by it told. -/
def settle (p : Pool) (result : Entry × Option Waiter) : Pool × Option Waiter :=
  let p := { p with entry := result.1 }
  match result.2 with
  | none => (p, none)
  | some w =>
    match w.kind with
    | .acquisition => (p.setStage w.ticket .granted, some w)
    | .retry =>
      ({ p with receivers := p.receivers.map fun r =>
          if r.ticket = w.ticket then { r with woken := true } else r }, some w)

/-- Wakes the first live waiter. -/
def wake (p : Pool) : Pool × Option Waiter := p.settle p.entry.service

/-! ## Primary connections -/

/-- A primary connection is being opened. -/
def beginOpen (p : Pool) : Pool := { p with opens := p.opens + 1 }

/-- A primary connection was opened, or could not be. -/
def endOpen (p : Pool) (opened : Bool) : Pool :=
  { p with
    opens := p.opens - 1
    entry := if opened then p.entry.registerPrimary else p.entry }

/-- A primary connection was closed or dropped. -/
def closePrimary (p : Pool) : Pool := { p with entry := p.entry.unregisterPrimary }

/-- A primary connection is leased. -/
def leasePrimary (p : Pool) : Pool := { p with primaryLeases := p.primaryLeases + 1 }

/-- The lease on a primary connection is given back. -/
def releasePrimary (p : Pool) : Pool × Option Waiter :=
  let (p, woken) := p.wake
  ({ p with primaryLeases := p.primaryLeases - 1 }, woken)

/-! ## Acquisitions -/

/-- A request for a pooled connection, with its ticket. -/
def acquire (p : Pool) : Pool × Nat :=
  let ticket := p.fresh
  let (entry, granted) := p.entry.reserve ticket
  let stage : Acquisition.Stage := if granted then .granted else .queued
  ({ p with entry, acquisitions := p.acquisitions ++ [⟨ticket, stage⟩], fresh := ticket + 1 },
    ticket)

/-- Stops the timer of an idle connection. -/
def stopTimers (p : Pool) (stopped : List Idle) : Pool :=
  { p with timers := p.timers.filter fun t => !stopped.any (·.timer == t.id) }

/-- An acquisition that was granted a slot goes on: it takes an idle connection, which
makes it a lease, or has to open one. -/
def claim (p : Pool) (ticket : Nat) (isOpen : Nat → Bool) : Pool × Option Nat :=
  let (entry, idle, stopped) := p.entry.takeIdle isOpen
  let p := ({ p with entry }).stopTimers stopped
  match idle with
  | some i => ({ p.dropAcquisition ticket with leases := p.leases ++ [i.conn] }, some i.conn)
  | none => (p.setStage ticket .opening, none)

/-- The connection was opened. -/
def opened (p : Pool) (ticket conn : Nat) : Pool := p.setStage ticket (.preparing conn)

/-- The connection is prepared: the acquisition becomes a lease. -/
def lease (p : Pool) (ticket conn : Nat) : Pool :=
  { p.dropAcquisition ticket with leases := p.leases ++ [conn] }

/-- The initializer failed. -/
def initializerFailed (p : Pool) (ticket conn : Nat) : Pool := p.setStage ticket (.closing conn)

/-- An acquisition ends without a lease.  One that still waits leaves a dead waiter;
any other gives back its slot. -/
def abandon (p : Pool) (ticket : Nat) : Pool × Option Waiter :=
  match p.stage? ticket with
  | none => (p, none)
  | some .queued => ({ p.dropAcquisition ticket with entry := p.entry.abandon ticket }, none)
  | some _ => (p.dropAcquisition ticket).settle p.entry.returnSlot

/-- A pooled connection is given back.  With a deadline it becomes idle until then. -/
def release (p : Pool) (conn : Nat) (deadline : Option Nat) : Pool × Option Waiter :=
  let p := { p with leases := p.leases.erase conn }
  match deadline with
  | none => p.settle (p.entry.release none)
  | some deadline =>
    let timer : GraceTimer := ⟨p.fresh, conn, deadline⟩
    ({ p with timers := p.timers ++ [timer], fresh := p.fresh + 1 }).settle
      (p.entry.release (some ⟨conn, timer.id⟩))

/-! ## Idle connections -/

/-- A timer fires.  Tells the connection to close, if it is still idle. -/
def fire (p : Pool) (timer : Nat) : Pool × Option Nat :=
  match p.timers.find? (·.id == timer) with
  | none => (p, none)
  | some t =>
    let (entry, found) := p.entry.expire t.conn
    ({ p with entry, timers := p.timers.filter (·.id != timer) },
      if found then some t.conn else none)

/-- Takes all idle connections to close them. -/
def drainIdle (p : Pool) : Pool × List Nat :=
  (({ p with entry := { p.entry with idle := [] } }).stopTimers p.entry.idle,
    p.entry.idle.map (·.conn))

/-! ## Lock retries -/

/-- Queues a lock retry: its ticket, whether a wake is still owed, the waiter woken. -/
def park (p : Pool) (autocommit owesWake : Bool) : Pool × Nat × Bool × Option Waiter :=
  let ticket := p.fresh
  let (entry, owed, woken) := p.entry.park ticket autocommit owesWake
  let (p, woken) := settle { p with fresh := ticket + 1 } (entry, woken)
  ({ p with receivers := p.receivers ++ [⟨ticket, false⟩] }, ticket, owed, woken)

/-- The receiver of a ticket, when its owner still has it. -/
def receiver? (p : Pool) (ticket : Nat) : Option Receiver :=
  p.receivers.find? (·.ticket == ticket)

/-- The owner of a receiver takes its wake or gives it up. -/
def dropReceiver (p : Pool) (ticket : Nat) : Pool :=
  { p with
    receivers := p.receivers.filter (·.ticket != ticket)
    entry := p.entry.abandon ticket }

/-- An operation that may retry begins. -/
def beginRetries (p : Pool) : Pool × Nat :=
  ({ p with retries := p.retries ++ [{ id := p.fresh }], fresh := p.fresh + 1 }, p.fresh)

/-- What an operation remembers. -/
def retry? (p : Pool) (id : Nat) : Option RetryState := p.retries.find? (·.id == id)

/-- Changes what an operation remembers. -/
def setRetry (p : Pool) (r : RetryState) : Pool :=
  { p with retries := p.retries.map fun s => if s.id = r.id then r else s }

/-- An operation pauses in the queue, with the ticket it waits with. -/
def pauseParked (p : Pool) (r : RetryState) (autocommit : Bool) :
    Pool × Nat × Option Waiter :=
  let (p, ticket, owed, woken) := p.park autocommit r.owesWake
  (p.setRetry { r with pause := some (.parked ticket owed) }, ticket, woken)

/-- An operation pauses for a fixed time. -/
def pauseDelayed (p : Pool) (r : RetryState) : Pool :=
  p.setRetry { r with pause := some .delayed }

/-- A pause ends, by a wake or by time, and the operation is tried again. -/
def resume (p : Pool) (r : RetryState) : Pool :=
  match r.pause with
  | some (.parked ticket owed) =>
    let woken := (p.receiver? ticket).any (·.woken)
    (p.dropReceiver ticket).setRetry { r with owesWake := owed || woken, pause := none }
  | _ => p.setRetry { r with pause := none }

/-- A pause is given up.  What the operation remembered before it stays, and a wake
already sent is lost. -/
def cancelPause (p : Pool) (r : RetryState) : Pool :=
  let p := match r.pause with
    | some (.parked ticket _) => p.dropReceiver ticket
    | _ => p
  p.setRetry { r with pause := none }

/-- An operation that may retry ends.  A wake it owes goes to the next waiter. -/
def endRetries (p : Pool) (id : Nat) : Pool × Option Waiter :=
  match p.retry? id with
  | none => (p, none)
  | some r =>
    let p := p.cancelPause r
    let p := { p with retries := p.retries.filter (·.id != id) }
    if r.owesWake then p.wake else (p, none)

/-! ## Shutdown -/

/-- A shutdown begins to use the pool. -/
def beginShutdown (p : Pool) : Pool := { p with shutdowns := p.shutdowns + 1 }

/-- A shutdown is done with the pool. -/
def endShutdown (p : Pool) : Pool := { p with shutdowns := p.shutdowns - 1 }

end Pool

end ConnectionPool
