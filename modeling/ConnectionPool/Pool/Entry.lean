/-!
# The books of one path

An `Entry` keeps what is counted for one database path: open primary connections,
slots taken by pooled connections, the waiters in order of arrival, and the pooled
connections that were given back and stay open for a while.

Two kinds of waiters share the queue.  An acquisition waits for a slot and is
granted one with its wake.  A lock retry waits for another connection to finish and
takes no slot.  A waiter whose owner is gone is dead; it stays in the queue until
some operation comes past it.

`serve` is the only way a waiter is woken.  It drops the dead waiters at the front
and then wakes the first live one, except that an acquisition stays where it is
while there is no slot for it.  Every operation wakes at most one waiter.
-/

namespace ConnectionPool

/-! ## Waiters -/

/-- What a waiter waits for. -/
inductive Waiter.Kind where
  /-- A slot for a pooled connection. -/
  | acquisition
  /-- A chance to try again. -/
  | retry
  deriving DecidableEq, Repr

/-- A place in the queue. -/
structure Waiter where
  /-- The number that tells waiters apart. -/
  ticket : Nat
  /-- What it waits for. -/
  kind : Waiter.Kind
  /-- Its owner still waits. -/
  live : Bool := true
  deriving DecidableEq, Repr

/-- Wakes the first live waiter, given the limit on slots and the slots taken.  The
result is the queue after it, the slots taken and the waiter woken. -/
def Waiter.serve (limit : Nat) : List Waiter → Nat → List Waiter × Nat × Option Waiter
  | [], inUse => ([], inUse, none)
  | w :: rest, inUse =>
    if w.live then
      match w.kind with
      | .retry => (rest, inUse, some w)
      | .acquisition =>
        if inUse < limit then (rest, inUse + 1, some w) else (w :: rest, inUse, none)
    else serve limit rest inUse

/-! ## Idle connections -/

/-- A pooled connection that stays open for a while after it was given back. -/
structure Idle where
  /-- The connection. -/
  conn : Nat
  /-- The timer that will close it. -/
  timer : Nat
  deriving DecidableEq, Repr

/-- Removes the item at a place by putting the last item there. -/
def swapRemove {α : Type} (items : List α) (i : Nat) : List α :=
  match items.getLast? with
  | some last => (items.set i last).dropLast
  | none => []

/-! ## Entries -/

/-- The counts, the queue and the idle connections of one path. -/
structure Entry where
  /-- The number of slots. -/
  limit : Nat
  /-- Open primary connections. -/
  primaries : Nat := 0
  /-- Slots taken. -/
  inUse : Nat := 0
  /-- The queue, first come first. -/
  waiters : List Waiter := []
  /-- The idle connections, last released last. -/
  idle : List Idle := []
  deriving DecidableEq, Repr

/-- A summary of an entry. -/
structure PoolStats where
  /-- Open primary connections. -/
  primaries : Nat
  /-- Slots taken. -/
  inUse : Nat
  /-- Idle connections. -/
  idle : Nat
  /-- Live waiters. -/
  waiting : Nat
  deriving DecidableEq, Repr

namespace Entry

/-- The summary of an entry.  Dead waiters do not count. -/
def stats (e : Entry) : PoolStats :=
  ⟨e.primaries, e.inUse, e.idle.length, e.waiters.countP (·.live)⟩

/-- There is nothing in the books, dead waiters included. -/
def isUnused (e : Entry) : Bool :=
  e.primaries == 0 && e.inUse == 0 && e.idle.isEmpty && e.waiters.isEmpty

/-- The connections that work for the path: primaries, and pooled ones that are
handed out. -/
def openConnections (e : Entry) : Nat := e.primaries + e.inUse

/-- Counts a primary connection. -/
def registerPrimary (e : Entry) : Entry := { e with primaries := e.primaries + 1 }

/-- Counts a primary connection no longer. -/
def unregisterPrimary (e : Entry) : Entry := { e with primaries := e.primaries - 1 }

/-- Wakes the first live waiter. -/
def service (e : Entry) : Entry × Option Waiter :=
  let (waiters, inUse, woken) := Waiter.serve e.limit e.waiters e.inUse
  ({ e with waiters, inUse }, woken)

/-- Takes a slot if one is free, otherwise queues.  Tells whether a slot was taken.
Waiters do not matter while a slot is free. -/
def reserve (e : Entry) (ticket : Nat) : Entry × Bool :=
  if e.inUse < e.limit then ({ e with inUse := e.inUse + 1 }, true)
  else ({ e with waiters := e.waiters ++ [⟨ticket, .acquisition, true⟩] }, false)

/-- Gives back a slot for which no connection was handed out. -/
def returnSlot (e : Entry) : Entry × Option Waiter := service { e with inUse := e.inUse - 1 }

/-- Takes back a pooled connection.  It becomes idle if it may. -/
def release (e : Entry) (idle : Option Idle) : Entry × Option Waiter :=
  service { e with inUse := e.inUse - 1, idle := e.idle ++ idle.toList }

/-- Takes the idle connection released last, passing over and discarding closed ones.
The result also lists what left the idle connections. -/
def takeIdle (e : Entry) (isOpen : Nat → Bool) : Entry × Option Idle × List Idle :=
  let newestFirst := e.idle.reverse
  let closed := newestFirst.takeWhile fun i => !isOpen i.conn
  match newestFirst.dropWhile fun i => !isOpen i.conn with
  | [] => ({ e with idle := [] }, none, closed)
  | i :: rest => ({ e with idle := rest.reverse }, some i, closed ++ [i])

/-- Removes an idle connection whose time is over. -/
def expire (e : Entry) (conn : Nat) : Entry × Bool :=
  match e.idle.findIdx? (·.conn == conn) with
  | some i => ({ e with idle := swapRemove e.idle i }, true)
  | none => (e, false)

/-- The first waiter is an acquisition, and there is a slot for it. -/
def acquisitionReady (e : Entry) : Bool :=
  e.waiters.head?.any (·.kind == .acquisition) && decide (e.inUse < e.limit)

/-- Queues a lock retry behind the live waiters; dead ones leave.  A connection in
autocommit mode holds no locks and will end no transaction, so it wakes the first
waiter itself.  So does one that owes a wake, if an acquisition can use it.  Tells
whether the wake is still owed. -/
def park (e : Entry) (ticket : Nat) (autocommit owesWake : Bool) :
    Entry × Bool × Option Waiter :=
  let e := { e with waiters := e.waiters.filter (·.live) }
  let passesOn := autocommit || (owesWake && e.acquisitionReady)
  let (e, woken) := if passesOn then e.service else (e, none)
  ({ e with waiters := e.waiters ++ [⟨ticket, .retry, true⟩] }, owesWake && !passesOn, woken)

/-- The owner of a waiter is gone. -/
def abandon (e : Entry) (ticket : Nat) : Entry :=
  { e with waiters := e.waiters.map fun w =>
      if w.ticket = ticket then { w with live := false } else w }

end Entry

end ConnectionPool
