import ConnectionPool.Arguments
import ConnectionPool.Engine.Directory
import ConnectionPool.Engine.Session

/-!
# The engine

An `Engine` holds the storages, the sessions on them and the directory of files.
`Engine.run` executes the statements of a text one after the other, each read only
when its turn comes, so that what stands before a bad statement has happened.

Values are bound to slots in order.  A slot with a number in its name takes the
argument of that number, any other slot the next argument, counted over all
statements of the text.  An argument that is missing ends the binding of its
statement, and the slots that are left are null.  A name that is no number is
refused, but only when its slot is reached.
-/

namespace ConnectionPool

open Engine (Storage Session Directory Seat Fault Rows Slots Term Command Lexeme)

/-- All storages, sessions and files. -/
structure Engine where
  /-- The storages, by number. -/
  storages : List Storage := []
  /-- The sessions, by number. -/
  sessions : List Session := []
  /-- The files and folders. -/
  directory : Directory := []
  deriving Inhabited

namespace Engine

/-! ## Sessions and files -/

/-- A session with its storage. -/
def seat (e : Engine) (session : Nat) : Seat :=
  let s := e.sessions.getD session default
  ⟨session, s, e.storages.getD s.storage default⟩

/-- Puts a session and its storage back. -/
def put (e : Engine) (s : Seat) : Engine :=
  { e with
    sessions := e.sessions.set s.id s.session
    storages := e.storages.set s.session.storage s.storage }

/-- A new session on a storage. -/
def addSession (e : Engine) (storage : Nat) : Engine × Nat :=
  ({ e with sessions := e.sessions ++ [{ storage }] }, e.sessions.length)

/-- Opens a session on a path: on a storage of its own for a database in memory, on
that of the file otherwise. -/
def openSession (e : Engine) (path : DatabasePath) : Except Fault (Engine × Nat) :=
  let fresh := e.storages.length
  if path.isMemory then .ok ({ e with storages := e.storages ++ [default] }.addSession fresh)
  else
    match e.directory.openFile path fresh with
    | .error _ => .error .cannotOpen
    | .ok (directory, storage) =>
      let storages := if storage = fresh then e.storages ++ [default] else e.storages
      .ok ({ e with directory, storages }.addSession storage)

/-- Closes a session, which rolls back. -/
def closeSession (e : Engine) (session : Nat) : Engine := e.put (e.seat session).discard

/-- The session is outside a transaction. -/
def autocommit (e : Engine) (session : Nat) : Bool :=
  !(e.sessions.getD session default).inTransaction

/-! ## Binding -/

/-- A value as it is bound: a number that is none is null. -/
def bound : Value → Value
  | .real x => if x.isNaN then .null else .real x
  | v => v

/-- The number that a name begins with. -/
def leadingNumber? (cs : List Char) : Option Nat :=
  (String.ofList (cs.takeWhile Char.isDigit)).toNat?

/-- Which argument a slot takes, counted from one: that of its number, or the next. -/
def argumentFor (next : Nat) : Option String → Except DriverError Nat
  | none => .ok next
  | some name =>
    match name.toList with
    | '?' :: digits => .ok ((leadingNumber? digits).getD 0)
    | '$' :: cs =>
      match leadingNumber? cs with
      | some n => .ok n
      | none => .error (.protocol
          ("parameters with non-integer names are not currently supported: " ++ String.ofList cs))
    | _ => .error (.protocol ("unsupported SQL parameter format: " ++ name))

/-- The values of the slots of a statement, in order, and the number of arguments that
slots without a number have used so far. -/
def bind (args : List Value) : (used : Nat) → Slots → Except DriverError (List Value × Nat)
  | used, [] => .ok ([], used)
  | used, name :: rest => do
    let n ← argumentFor (used + 1) name
    let used := if name.isNone then used + 1 else used
    match if n = 0 then none else args[n - 1]? with
    | none => return ([], used)
    | some v =>
      let (values, used) ← bind args used rest
      return (bound v :: values, used)

/-- The value of a term. -/
def valueOf (values : List Value) : Term → Value
  | .literal v => v
  | .slot n => values.getD (n - 1) .null

/-! ## Statements -/

/-- A command whose tables are known. -/
inductive Prepared where
  /-- A command that needs no table. -/
  | free (c : Command)
  /-- A command on a table. -/
  | onTable (t : Engine.Table) (c : Command)

/-- The table a command works on. -/
def target? : Command → Option String
  | .insert table _ _ => some table
  | .update table _ _ _ => some table
  | .delete table _ => some table
  | .query _ table _ => some table
  | _ => none

/-- The table whose keys an insertion refers to must exist. -/
def missingParent? (s : Seat) (t : Engine.Table) : Command → Option String
  | .insert _ _ _ => t.layout.column.parent.filter fun parent => (s.view.get? parent).isNone
  | _ => none

/-- The column a query asks for that its table does not have. -/
def missingColumn? (t : Engine.Table) : Command → Option String
  | .query selection _ _ => Seat.missingColumn? t selection
  | _ => none

/-- Looks up the table of a command, for the first time or again. -/
def lookUp (s : Seat) (c : Command) : Seat × Except Fault Prepared :=
  match c, target? c with
  | .create layout, _ =>
    match s.resolveNew layout.name with
    | (s, some fault) => (s, .error fault)
    | (s, none) => (s, .ok (.free c))
  | _, none => (s, .ok (.free c))
  | _, some table =>
    match s.resolve table with
    | (s, .error fault) => (s, .error fault)
    | (s, .ok t) =>
      match missingParent? s t c with
      | some parent => (s, .error (.noSuchTable ("main." ++ parent)))
      | none =>
        match missingColumn? t c with
        | some column => (s, .error (.noSuchColumn column))
        | none => (s, .ok (.onTable t c))

/-- A command that was prepared before, as it stands. -/
def recalled? (s : Seat) (c : Command) : Option Prepared :=
  match target? c with
  | none => some (.free c)
  | some table => (s.view.get? table).map (.onTable · c)

/-- Prepares the command of a statement.  What was prepared before is not looked up
again. -/
def prepare (s : Seat) (statement : String × Nat) (c : Command) : Seat × Except Fault Prepared :=
  match if s.hasPrepared statement then recalled? s c else none with
  | some p => (s, .ok p)
  | none =>
    match lookUp s c with
    | (s, .error fault) => (s, .error fault)
    | (s, .ok p) => (s.remember statement, .ok p)

/-- Executes a command with the values of its slots. -/
def execute (s : Seat) (values : List Value) : Prepared → Seat.Result
  | .onTable t (.insert _ columns terms) => s.insert t columns (terms.map (valueOf values))
  | .onTable t (.update _ _ term key) =>
    s.update t (valueOf values term) (key.map (valueOf values))
  | .onTable t (.delete _ key) => s.delete t (key.map (valueOf values))
  | .onTable t (.query selection _ key) => s.query t selection (key.map (valueOf values))
  | .free (.create layout) => s.create layout
  | .free (.compute columns) => (s, .ok [columns.map fun c => (c.1, valueOf values c.2)])
  | .free (.start mode) => s.start mode
  | .free .commit => s.commit
  | .free .rollback => s.rollback
  | .free .vacuum => s.vacuum
  | _ => (s, .ok [])

/-- The statement of some lexemes, at its place in a text: read, prepared, bound and
executed, with the number of arguments used. -/
def statement (s : Seat) (place : String × Nat) (args : List Value) (used : Nat)
    (lexemes : List Lexeme) : Seat × Except DriverError (Rows × Nat) :=
  match Command.read lexemes with
  | .error fault => (s, .error (Fault.read fault).toDriverError)
  | .ok (command, slots) =>
    match prepare s place command with
    | (s, .error fault) => (s, .error fault.toDriverError)
    | (s, .ok prepared) =>
      match bind args used slots with
      | .error e => (s, .error e)
      | .ok (values, used) =>
        match execute s values prepared with
        | (s, .error (.tableExists name)) =>
          (s.forget place, .error (Fault.tableExists name).toDriverError)
        | (s, .error fault) => (s, .error fault.toDriverError)
        | (s, .ok rows) => (s, .ok (rows, used))

/-! ## Texts -/

/-- What the statements of a text led to. -/
structure Outcome where
  /-- The rows read. -/
  rows : List Row := []
  /-- The sum of the row counts that the statements report. -/
  changes : Nat := 0
  /-- The row id that the last statement reports. -/
  lastRow : Int64 := 0
  /-- The failure that ended the execution. -/
  failure : Option DriverError := none

/-- Executes the statements of a text from a place on, in order, until one fails or,
with `firstRow`, a row is read. -/
def runStatements (sql : String) (firstRow : Bool) (args : List Value) :
    Seat → (place used : Nat) → List (List Lexeme) → Outcome → Seat × Outcome
  | s, _, _, [], outcome => (s, outcome)
  | s, place, used, lexemes :: rest, outcome =>
    match statement s (sql, place) args used lexemes with
    | (s, .error e) => (s, { outcome with failure := some e })
    | (s, .ok (rows, used)) =>
      let outcome := { outcome with
        rows := outcome.rows ++ rows.map Record.ofList
        changes := outcome.changes + s.session.changes
        lastRow := s.session.lastRow }
      if firstRow ∧ !rows.isEmpty then (s, { outcome with rows := outcome.rows.take 1 })
      else runStatements sql firstRow args s (place + 1) used rest outcome

/-- Executes the statements of a text on a session. -/
def run (e : Engine) (session : Nat) (sql : String) (args : List Value) (firstRow : Bool) :
    Engine × Outcome :=
  let (s, outcome) := runStatements sql firstRow args (e.seat session) 0 0 (statements sql) {}
  (e.put s, outcome)

end Engine

end ConnectionPool
