import ConnectionPool.Json

/-!
# Isolation modes

The mode of a transaction says when it takes its locks.
-/

namespace ConnectionPool

/-- When a transaction takes its locks. -/
inductive IsolationMode where
  /-- With the first read or write. -/
  | deferred
  /-- The write lock at its start. -/
  | immediate
  /-- An exclusive lock at its start. -/
  | exclusive
  deriving DecidableEq, Repr, Inhabited

namespace IsolationMode

/-- All modes. -/
def all : List IsolationMode := [deferred, immediate, exclusive]

/-- The keyword of a mode. -/
def sql : IsolationMode → String
  | deferred => "DEFERRED"
  | immediate => "IMMEDIATE"
  | exclusive => "EXCLUSIVE"

/-- The name of a mode, capitalised. -/
def title : IsolationMode → String
  | deferred => "Deferred"
  | immediate => "Immediate"
  | exclusive => "Exclusive"

/-- The name of a mode in JSON. -/
def name : IsolationMode → String
  | deferred => "deferred"
  | immediate => "immediate"
  | exclusive => "exclusive"

/-- The statement that starts a transaction in a mode. -/
def beginStatement (m : IsolationMode) : String := "BEGIN " ++ m.sql ++ " TRANSACTION"

/-- A mode as JSON. -/
def encode (m : IsolationMode) : Json := .str m.name

/-- The mode with a name. -/
def ofName? (s : String) : Option IsolationMode := all.find? fun m => m.name == s

/-- The mode that JSON stands for: its name, or an object whose one member has the
name and the value `null`. -/
def decode? : Json → Option IsolationMode
  | .str s => ofName? s
  | .obj [(s, .null)] => ofName? s
  | _ => none

end IsolationMode

end ConnectionPool
