import ConnectionPool.Config
import ConnectionPool.DatabasePath
import ConnectionPool.Pool.Ledger

/-!
# Registries

A `Registry` has one pool for each path that was used through it.  A connection
remembers the number of its pool and not the pool: once a pool was pruned, the
number leads nowhere, also when a new pool was made for the path since.

A pool is pruned when nobody holds it and its books are empty.
-/

namespace ConnectionPool

/-- A pool in a registry. -/
structure RegisteredPool where
  /-- The number of the pool, never used again. -/
  id : Nat
  /-- The path, as it was first written. -/
  path : DatabasePath
  /-- The pool. -/
  pool : Pool
  deriving DecidableEq, Repr

/-- The pools of all paths. -/
structure Registry where
  /-- The settings of every pool and connection. -/
  config : Config
  /-- The pools, in the order they were made. -/
  pools : List RegisteredPool := []
  /-- The next free number. -/
  fresh : Nat := 0
  deriving DecidableEq, Repr

namespace Registry

/-- The pool of a path. -/
def find? (r : Registry) (path : DatabasePath) : Option RegisteredPool :=
  r.pools.find? fun p => p.path.same path

/-- The pool of a number, while it is there. -/
def get? (r : Registry) (id : Nat) : Option RegisteredPool := r.pools.find? (·.id == id)

/-- The pool of a path, made if it is missing. -/
def entry (r : Registry) (path : DatabasePath) : Registry × RegisteredPool :=
  match r.find? path with
  | some p => (r, p)
  | none =>
    let p : RegisteredPool := ⟨r.fresh, path, Pool.new r.config.limit⟩
    ({ r with pools := r.pools ++ [p], fresh := r.fresh + 1 }, p)

/-- Puts a changed pool in its place. -/
def put (r : Registry) (id : Nat) (pool : Pool) : Registry :=
  { r with pools := r.pools.map fun p => if p.id = id then { p with pool } else p }

/-- The summary for a path, if it has a pool. -/
def stats (r : Registry) (path : DatabasePath) : Option PoolStats :=
  (r.find? path).map (·.pool.entry.stats)

/-- A pool that stays when the registry is pruned. -/
def isNeeded (p : RegisteredPool) : Bool := p.pool.isHeld || !p.pool.entry.isUnused

/-- Removes the pools that are not needed, and counts them. -/
def prune (r : Registry) : Registry × Nat :=
  ({ r with pools := r.pools.filter isNeeded },
    r.pools.length - (r.pools.filter isNeeded).length)

end Registry

end ConnectionPool
