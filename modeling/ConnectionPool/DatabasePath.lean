/-!
# Paths of databases

A path is kept as it was written, because messages show it so.  Two paths name the
same pool when their components agree: empty components and inner dots do not
count, while a leading dot and a leading slash do.

Some paths name no file but a database in memory, which belongs to the connection
that opened it.
-/

namespace ConnectionPool

/-- The path of a database, as written. -/
structure DatabasePath where
  /-- The text of the path. -/
  text : String
  deriving DecidableEq, Repr, Inhabited

namespace DatabasePath

/-- The parts between slashes. -/
def parts (p : DatabasePath) : List String := p.text.splitOn "/"

/-- The path starts at the root. -/
def isAbsolute (p : DatabasePath) : Bool := p.text.startsWith "/"

/-- The components that count when paths are compared. -/
def components (p : DatabasePath) : List String :=
  let parts := p.parts
  let inner := (parts.drop 1).filter fun s => s != "" && s != "."
  match parts.head? with
  | some "" => if p.isAbsolute then "/" :: inner else inner
  | some first => first :: inner
  | none => inner

/-- The path of the directory that a path lies in, in components.  There is none
for an empty path and for the root. -/
def parent? (p : DatabasePath) : Option (List String) :=
  match p.components with
  | [] => none
  | ["/"] => none
  | cs => some cs.dropLast

/-- The paths name the same pool. -/
def same (p q : DatabasePath) : Bool := p.components == q.components

/-- The path has no characters. -/
def isEmpty (p : DatabasePath) : Bool := p.text == ""

/-- The path names a database in memory that no other connection shares. -/
def isMemory (p : DatabasePath) : Bool :=
  p.text == ":memory:" || p.text.startsWith "file::memory:"
    || 1 < (p.text.splitOn "mode=memory").length

end DatabasePath

end ConnectionPool
