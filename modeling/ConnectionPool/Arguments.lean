import ConnectionPool.Record
import ConnectionPool.Value

/-!
# Arguments

A statement is bound either with a list of values, which fill its placeholders by
position, or with a record of values, which fill them by name.  A call uses one
of the two and never both.  A `Statement` is a text with its arguments, as the
caller submitted it.
-/

namespace ConnectionPool

/-- The arguments of a statement. -/
inductive Arguments where
  /-- Values for placeholders in order. -/
  | positional (values : List Value)
  /-- Values for placeholders by name.  A name may carry its sigil or not. -/
  | named (values : Record Value)
  deriving DecidableEq, Repr

namespace Arguments

/-- No arguments. -/
def none : Arguments := positional []

instance : Inhabited Arguments := ⟨none⟩

/-- There is no argument of either kind. -/
def isEmpty : Arguments → Bool
  | positional vs => vs.isEmpty
  | named r => r.isEmpty

/-- Equality with doubles compared as numbers, and named arguments compared without
regard to order. -/
def eq : Arguments → Arguments → Bool
  | positional vs, positional ws =>
    vs.length == ws.length && (vs.zip ws).all fun (v, w) => v.eq w
  | named r, named s => r.eqBy Value.eq s
  | _, _ => false

end Arguments

/-- A statement as submitted. -/
structure Statement where
  /-- The text, before any placeholder is rewritten. -/
  sql : String
  /-- The arguments. -/
  args : Arguments := .none
  deriving DecidableEq, Repr

/-- A row of a result, keyed by column name. -/
abbrev Row := Record Value

/-- What a statement that is run for its effect reports. -/
structure RunResult where
  /-- The number of rows it changed. -/
  rowsAffected : UInt64
  /-- The row id of the last insertion on the connection. -/
  lastInsertId : Int64
  deriving DecidableEq, Repr, Inhabited

end ConnectionPool
