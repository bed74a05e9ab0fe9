/-!
# How connections belong to pools

A connection knows the pool of its path, if it was given one.  A primary connection is
counted there from when it was opened until it is closed or dropped, whichever comes
first.  A pooled connection is not counted so; its slot is.
-/

namespace ConnectionPool

/-- What a connection is for. -/
inductive Role where
  /-- A database's own connection. -/
  | primary
  /-- A connection handed out to transactions. -/
  | pooled
  deriving DecidableEq, Repr

/-- How a connection belongs to a pool, which is known by a reference. -/
structure Membership (ρ : Type) where
  /-- What the connection is for. -/
  role : Role
  /-- The pool of its path. -/
  pool : Option ρ
  /-- It was closed or dropped. -/
  closed : Bool := false
  deriving DecidableEq, Repr

namespace Membership

variable {ρ : Type}

/-- The pool that counts the connection when it was opened. -/
def registered (m : Membership ρ) : Option ρ :=
  match m.role with
  | .primary => m.pool
  | .pooled => none

/-- The connection is closed or dropped.  Tells the pool that counts it no longer. -/
def shut (m : Membership ρ) : Membership ρ × Option ρ :=
  if m.closed then (m, none) else ({ m with closed := true }, m.registered)

end Membership

end ConnectionPool
