/-!
# Locks of a storage

Each session holds at most one lock on a storage.  The levels are ordered, and a
session that asks for a level it already has is granted it.

* `read` goes beside other readers and one writer.
* `write` goes beside readers.
* `pending` is a writer that waits for the readers to leave; nobody may begin to
  read meanwhile.
* `exclusive` goes beside nothing.

A refused request for `exclusive` leaves the session `pending` where only readers
stand in the way.  Every other refused request changes nothing.
-/

namespace ConnectionPool.Engine

/-- How strongly a session holds a storage. -/
inductive LockLevel where
  /-- It reads. -/
  | read
  /-- It reads and will write. -/
  | write
  /-- It waits for readers to leave. -/
  | pending
  /-- It is alone. -/
  | exclusive
  deriving DecidableEq, Repr

/-- The rank of a level. -/
def LockLevel.rank : LockLevel → Nat
  | read => 0
  | write => 1
  | pending => 2
  | exclusive => 3

/-- The locks on a storage: sessions by number, with the level of each. -/
abbrev Locks := List (Nat × LockLevel)

namespace Locks

/-- The level a session holds. -/
def level? (locks : Locks) (session : Nat) : Option LockLevel :=
  (locks.find? (·.1 == session)).map (·.2)

/-- The locks of the other sessions. -/
def others (locks : Locks) (session : Nat) : Locks := locks.filter (·.1 != session)

/-- Gives back what a session holds. -/
def release (locks : Locks) (session : Nat) : Locks := locks.others session

/-- Sets what a session holds. -/
def put (locks : Locks) (session : Nat) (level : LockLevel) : Locks :=
  locks.others session ++ [(session, level)]

/-- Two sessions may hold these levels side by side: a reader beside a reader or a
writer. -/
def compatible (level other : LockLevel) : Bool :=
  match level, other with
  | .read, .read => true
  | .read, .write => true
  | .write, .read => true
  | .pending, .read => true
  | _, _ => false

/-- The locks after a session asked for a level, and whether it was granted. -/
def request (locks : Locks) (session : Nat) (level : LockLevel) : Locks × Bool :=
  if (locks.level? session).any (level.rank ≤ ·.rank) then (locks, true)
  else if (locks.others session).all fun o => compatible level o.2 then
    (locks.put session level, true)
  else if level = .exclusive ∧ (locks.others session).all (·.2 == .read) then
    (locks.put session .pending, false)
  else (locks, false)

example : (request [(1, .read)] 2 .write).2 = true := by decide
example : (request [(1, .write)] 2 .write).2 = false := by decide
example : request [(1, .read)] 2 .exclusive = ([(1, .read), (2, .pending)], false) := by decide
example : (request [(1, .read), (2, .pending)] 3 .read).2 = false := by decide

end Locks

end ConnectionPool.Engine
