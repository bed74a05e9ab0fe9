import ConnectionPool.DatabasePath

/-!
# The directory of files

Files and folders lie at paths.  A file stands for a storage by number, and the
storage outlives the file: a session that has it open keeps it when the file is
deleted.

A path is looked up by its components, a leading dot left out.  The place that
relative paths start from, and the root, are folders that always exist.
-/

namespace ConnectionPool.Engine

/-- What lies at a path. -/
inductive Node where
  /-- A folder. -/
  | folder
  /-- A file that stands for a storage. -/
  | file (storage : Nat)
  deriving DecidableEq, Repr

/-- The files and folders, by path. -/
abbrev Directory := List (List String × Node)

/-- Why a file cannot be used. -/
inductive PathFault where
  /-- The folder is missing, or the path is that of a folder. -/
  | cannotOpen
  /-- A part of the path that must be a folder is a file. -/
  | notAFolder
  deriving DecidableEq, Repr

namespace Directory

/-- Components without a leading dot. -/
def normal (components : List String) : List String :=
  match components with
  | "." :: rest => rest
  | cs => cs

/-- What lies at a path, its components given. -/
def lookup (d : Directory) (components : List String) : Option Node :=
  let cs := normal components
  if cs = [] ∨ cs = ["/"] then some .folder
  else (d.find? (·.1 == cs)).map (·.2)

/-- The folders on the way to a path, from the outermost, the path included. -/
def chain (components : List String) : List (List String) :=
  (List.range components.length).map fun n => components.take (n + 1)

/-- Makes a folder and those it lies in, where they are missing. -/
def makeFolder (d : Directory) (components : List String) : Except PathFault Directory :=
  (chain (normal components)).foldlM (fun (d : Directory) path =>
    match lookup d path with
    | none => .ok (d ++ [(path, Node.folder)])
    | some .folder => .ok d
    | some (.file _) => .error .notAFolder) d

/-- The storage of a file.  A file that is missing is made, for the storage `fresh`,
when the folder it lies in exists. -/
def openFile (d : Directory) (path : DatabasePath) (fresh : Nat) :
    Except PathFault (Directory × Nat) :=
  let cs := normal path.components
  match lookup d cs with
  | some .folder => .error .cannotOpen
  | some (.file n) => .ok (d, n)
  | none =>
    if lookup d cs.dropLast = some .folder ∧ !path.text.endsWith "/" then
      .ok (d ++ [(cs, .file fresh)], fresh)
    else .error .cannotOpen

/-- Deletes what lies at a path, and everything inside it. -/
def remove (d : Directory) (components : List String) : Directory :=
  let cs := normal components
  d.filter fun e => !cs.isPrefixOf e.1

end Directory

end ConnectionPool.Engine
