import ConnectionPool.Value.Json

/-!
# Configuration

One `Config` is shared by every connection opened through a registry.  It is read
from an object, in which unknown names are ignored and a known name may stand once,
or from an array with the fields in order.  A field that is not there has its
default; an array may not be longer than the fields.

Delays are milliseconds.  They are natural numbers below `2 ^ 64` when read, but
nothing depends on the bound.
-/

namespace ConnectionPool

/-- Settings of a registry and its connections. -/
structure Config where
  /-- The number of pooled connections of one path handed out at a time.  Zero counts
  as one. -/
  maxPooled : Nat := 5
  /-- How long a blocked operation waits before it tries again on its own. -/
  lockRetryDelay : Nat := 50
  /-- How long a released pooled connection stays open to be used again. -/
  closingGrace : Nat := 3000
  /-- How often one operation is tried again, without bound when absent. -/
  maxLockRetries : Option Nat := none
  /-- Statements are reported when they are submitted. -/
  trace : Bool := false
  deriving DecidableEq, Repr, Inhabited

namespace Config

/-- The number of pooled connections that may be handed out: at least one. -/
def limit (c : Config) : Nat := max 1 c.maxPooled

/-- Some natural number as an integer, nothing as `null`. -/
def encodeOptional : Option Nat → Json
  | some n => .int n
  | none => .null

/-- A configuration as JSON: its fields in order. -/
def encode (c : Config) : Json :=
  .obj [
    ("max_pooled_connections", .int c.maxPooled),
    ("lock_retry_delay_ms", .int c.lockRetryDelay),
    ("closing_grace_period_ms", .int c.closingGrace),
    ("max_lock_retries", encodeOptional c.maxLockRetries),
    ("trace", .bool c.trace)]

/-! ## Fields of a record -/

/-- The names of the fields, in order. -/
def fieldNames : List String :=
  ["max_pooled_connections", "lock_retry_delay_ms", "closing_grace_period_ms",
    "max_lock_retries", "trace"]

/-- The fields of a value that stands for a record: one entry for each name, absent
where the value has none.  An object may not repeat a name, and an array may not
have more items than there are names. -/
def fields? (names : List String) : Json → Option (List (Option Json))
  | .obj members =>
    let known := (members.map Prod.fst).filter names.contains
    if known.eraseDups.length = known.length then some (names.map (Json.member? members))
    else none
  | .arr items =>
    if items.length ≤ names.length then
      some (items.map some ++ List.replicate (names.length - items.length) none)
    else none
  | _ => none

/-- The value of a field that may be absent. -/
def fieldOr? {α : Type} (default : α) (decode? : Json → Option α) : Option Json → Option α
  | some j => decode? j
  | none => some default

/-- A truth value. -/
def bool? : Json → Option Bool
  | .bool b => some b
  | _ => none

/-- A natural number below `bound`, or `null` for nothing. -/
def optionalBelow? (bound : Nat) : Json → Option (Option Nat)
  | .null => some none
  | j => (j.natBelow? bound).map some

/-- The configuration that JSON stands for. -/
def decode? (j : Json) : Option Config := do
  let base : Config := {}
  match ← fields? fieldNames j with
  | [pooled, delay, grace, retries, trace] =>
    return {
      maxPooled := ← fieldOr? base.maxPooled (Json.natBelow? UInt32.size) pooled
      lockRetryDelay := ← fieldOr? base.lockRetryDelay (Json.natBelow? UInt64.size) delay
      closingGrace := ← fieldOr? base.closingGrace (Json.natBelow? UInt64.size) grace
      maxLockRetries := ← fieldOr? base.maxLockRetries (optionalBelow? UInt32.size) retries
      trace := ← fieldOr? base.trace bool? trace }
  | _ => none

end Config

namespace RunResult

/-- The result that JSON stands for: both fields must be there. -/
def decode? (j : Json) : Option RunResult := do
  match ← Config.fields? ["rows_affected", "last_insert_id"] j with
  | [some rows, some (.int id)] =>
    return {
      rowsAffected := UInt64.ofNat (← rows.natBelow? UInt64.size)
      lastInsertId := ← int64? id }
  | _ => none

end RunResult

end ConnectionPool
