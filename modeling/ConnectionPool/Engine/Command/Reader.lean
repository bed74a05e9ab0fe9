import ConnectionPool.Engine.Affinity
import ConnectionPool.Engine.Command
import ConnectionPool.Engine.Lexeme

/-!
# Reading commands

`Command.read` reads the lexemes of one statement from left to right.  Where a
lexeme does not fit, the fault names its spelling; where the lexemes end too early
the statement is incomplete.  A semicolon behind the statement counts as a lexeme
that does not fit.

Placeholders get their slots in the order they are read.
-/

namespace ConnectionPool.Engine

/-- Why lexemes are no command. -/
inductive ReadFault where
  /-- The lexeme of this spelling does not fit. -/
  | near (spelling : String)
  /-- More was expected. -/
  | incomplete
  deriving DecidableEq, Repr

/-- The fault in words. -/
def ReadFault.message : ReadFault → String
  | near spelling => "near \"" ++ spelling ++ "\": syntax error"
  | incomplete => "incomplete input"

/-- What is left to read, and the slots so far. -/
structure Cursor where
  /-- The lexemes ahead. -/
  rest : List Lexeme
  /-- The slots of the placeholders behind. -/
  slots : Slots

/-- A reader of part of a command. -/
abbrev CommandReader := StateT Cursor (Except ReadFault)

namespace CommandReader

/-- Fails at the next lexeme. -/
def unexpected {α : Type} : CommandReader α := do
  match (← get).rest with
  | [] => throw .incomplete
  | l :: _ => throw (.near l.string)

/-- The next lexeme, not taken. -/
def peek? : CommandReader (Option Lexeme) := do return (← get).rest.head?

/-- Takes the next lexeme. -/
def skip : CommandReader Unit := modify fun c => { c with rest := c.rest.drop 1 }

/-- The lexeme is a keyword, in letters of either case. -/
def isKeyword (word : String) (l : Lexeme) : Bool :=
  l.kind == .word && l.string.toUpper == word

/-- Takes the next lexeme if it satisfies a test. -/
def accept (test : Lexeme → Bool) : CommandReader Bool := do
  if (← peek?).any test then skip; return true
  else return false

/-- Takes a keyword if it comes next. -/
def acceptWord (word : String) : CommandReader Bool := accept (isKeyword word)

/-- Takes a sign if it comes next. -/
def acceptSign (c : Char) : CommandReader Bool :=
  accept fun l => l.kind == .sign && l.spelling == [c]

/-- Takes a keyword, which must come next. -/
def word (w : String) : CommandReader Unit := do
  unless ← acceptWord w do unexpected

/-- Takes keywords, which must come next. -/
def words (ws : List String) : CommandReader Unit := ws.forM word

/-- Takes a sign, which must come next. -/
def sign (c : Char) : CommandReader Unit := do
  unless ← acceptSign c do unexpected

/-- Words that are no names. -/
def reserved : List String :=
  ["FROM", "WHERE", "ORDER", "BY", "AS", "VALUES", "INTO", "SET", "SELECT", "NULL", "NOT", "TABLE"]

/-- Takes a name. -/
def name : CommandReader String := do
  match ← peek? with
  | some l =>
    match l.name? with
    | some n => if reserved.any (isKeyword · l) then unexpected else skip; return n
    | none => unexpected
  | none => unexpected

/-- Takes a placeholder and gives it a slot. -/
def placeholder (spelling : List Char) : CommandReader Term := do
  let c ← get
  let (n, slots) := c.slots.place spelling
  set { c with rest := c.rest.drop 1, slots }
  return .slot n

/-- The value of a number's digits. -/
def numberValue (negative : Bool) (digits : List Char) : Value := Numeral.value ⟨negative, digits, 0⟩

/-- Bytes as text, null when they are no valid text. -/
def castToText (bytes : List UInt8) : Value :=
  match String.fromUTF8? ⟨bytes.toArray⟩ with
  | some s => .text s
  | none => .null

/-- Takes a term that is written out or a placeholder. -/
def simpleTerm : CommandReader Term := do
  match ← peek? with
  | none => unexpected
  | some l =>
    match l.kind with
    | .number => skip; return .literal (numberValue false l.spelling)
    | .text => skip; return .literal (.text (String.ofList (Lexeme.unquote '\x27' (l.spelling.drop 1))))
    | .bytes =>
      match Lexeme.bytes? ((l.spelling.drop 2).dropLast) with
      | some bytes => skip; return .literal (.blob bytes)
      | none => unexpected
    | .placeholder => placeholder l.spelling
    | _ =>
      if isKeyword "NULL" l then skip; return .literal .null
      else unexpected

/-- Takes a term. -/
def term : CommandReader Term := do
  if ← acceptSign '-' then
    match ← peek? with
    | some l =>
      if l.kind == .number then skip; return .literal (numberValue true l.spelling)
      else unexpected
    | none => unexpected
  else if ← acceptWord "CAST" then
    sign '('
    let inner ← simpleTerm
    words ["AS", "TEXT"]
    sign ')'
    match inner with
    | .literal (.blob bytes) => return .literal (castToText bytes)
    | t => return t
  else simpleTerm

/-- Takes items with commas between them, at most `bound` commas. -/
def separated {α : Type} (item : CommandReader α) : (bound : Nat) → CommandReader (List α)
  | 0 => do return [← item]
  | bound + 1 => do
    let x ← item
    if ← acceptSign ',' then return x :: (← separated item bound) else return [x]

/-- Takes items with commas between them. -/
def list {α : Type} (item : CommandReader α) : CommandReader (List α) := do
  separated item (← get).rest.length

/-- Takes a list between parentheses. -/
def parenthesised {α : Type} (item : CommandReader α) : CommandReader (List α) := do
  sign '('
  let items ← list item
  sign ')'
  return items

/-- Takes the condition on a key, when there is one. -/
def keyCondition : CommandReader (Option Term) := do
  if ← acceptWord "WHERE" then
    let _ ← name
    sign '='
    return some (← term)
  else return none

/-! ## Statements -/

/-- Takes the second column of a table. -/
def column : CommandReader Column := do
  let name ← name
  let isInteger ← acceptWord "INTEGER"
  let notNull ← acceptWord "NOT"
  if notNull then word "NULL"
  let parent ← do
    if ← acceptWord "REFERENCES" then
      let parent ← CommandReader.name
      let _ ← parenthesised CommandReader.name
      words ["DEFERRABLE", "INITIALLY", "DEFERRED"]
      pure (some parent)
    else pure none
  return { name, isInteger, notNull, parent }

/-- Takes what follows the word that creates. -/
def create : CommandReader Command := do
  word "TABLE"
  let table ← name
  sign '('
  let key ← name
  words ["INTEGER", "PRIMARY", "KEY"]
  sign ','
  let column ← column
  sign ')'
  return .create ⟨table, key, column⟩

/-- Takes what follows the word that inserts. -/
def insert : CommandReader Command := do
  word "INTO"
  let table ← name
  let columns ← parenthesised name
  word "VALUES"
  let terms ← parenthesised term
  return .insert table columns terms

/-- Takes what follows the word that updates. -/
def update : CommandReader Command := do
  let table ← name
  word "SET"
  let column ← name
  sign '='
  let term ← term
  return .update table column term (← keyCondition)

/-- Takes what follows the word that deletes. -/
def delete : CommandReader Command := do
  word "FROM"
  let table ← name
  return .delete table (← keyCondition)

/-- What a query may ask for. -/
inductive Item where
  /-- All columns. -/
  | every
  /-- The number of rows. -/
  | count (label : String)
  /-- A column. -/
  | column (name : String)
  /-- A term with the name of its column. -/
  | term (label : String) (t : Term)

/-- Takes the name of a result, or uses the one given. -/
def labelOr (default : String) : CommandReader String := do
  if ← acceptWord "AS" then name else return default

/-- Takes one thing a query asks for. -/
def item : CommandReader Item := do
  let spelling := ((← peek?).map Lexeme.string).getD ""
  if ← acceptSign '*' then return .every
  else if ← acceptWord "COUNT" then
    sign '('
    sign '*'
    sign ')'
    return .count (← labelOr "COUNT(*)")
  else if (← peek?).any fun l =>
      (l.kind == .word || l.kind == .quotedName) && !isKeyword "NULL" l && !isKeyword "CAST" l then
    let column ← name
    return .column (← labelOr column)
  else
    let t ← term
    return .term (← labelOr spelling) t

/-- The selection that items make. -/
def selection? : List Item → Option Selection
  | [.every] => some .every
  | [.count label] => some (.count label)
  | items => (items.mapM fun
      | Item.column name => some name
      | _ => none).map .columns

/-- The terms that items make, with the names of their columns. -/
def terms? (items : List Item) : Option (List (String × Term)) :=
  items.mapM fun
    | .term label t => some (label, t)
    | _ => none

/-- Takes what follows the word that queries. -/
def query : CommandReader Command := do
  let items ← list item
  match terms? items with
  | some columns => return .compute columns
  | none =>
    unless (← peek?).any (isKeyword "FROM") do unexpected
    match selection? items with
    | none => unexpected
    | some selection =>
      word "FROM"
      let table ← name
      let key ← keyCondition
      if ← acceptWord "ORDER" then
        word "BY"
        let _ ← name
      return .query selection table key

/-- Takes the mode of a transaction, when it is named. -/
def mode : CommandReader IsolationMode := do
  if ← acceptWord "DEFERRED" then return .deferred
  else if ← acceptWord "IMMEDIATE" then return .immediate
  else if ← acceptWord "EXCLUSIVE" then return .exclusive
  else return .deferred

/-- Takes a statement that ends or begins a transaction, after its first word. -/
def transaction (c : Command) : CommandReader Command := do
  let _ ← acceptWord "TRANSACTION"
  return c

/-- Takes a statement. -/
def command : CommandReader Command := do
  if ← acceptWord "SELECT" then query
  else if ← acceptWord "INSERT" then insert
  else if ← acceptWord "UPDATE" then update
  else if ← acceptWord "DELETE" then delete
  else if ← acceptWord "CREATE" then create
  else if ← acceptWord "BEGIN" then transaction (.start (← mode))
  else if ← acceptWord "COMMIT" then transaction .commit
  else if ← acceptWord "ROLLBACK" then transaction .rollback
  else if ← acceptWord "VACUUM" then return .vacuum
  else unexpected

end CommandReader

/-- The command that lexemes are, with the slots of its placeholders. -/
def Command.read (lexemes : List Lexeme) : Except ReadFault (Command × Slots) := do
  let (command, cursor) ← CommandReader.command.run ⟨lexemes, []⟩
  match cursor.rest with
  | [] => return (command, cursor.slots)
  | l :: _ => if l.isSemicolon then return (command, cursor.slots) else throw (.near l.string)

/-- The lexemes of the first statement, a semicolon included, and those behind it. -/
def splitStatement (lexemes : List Lexeme) : List Lexeme × List Lexeme :=
  let body := lexemes.takeWhile fun l => !l.isSemicolon
  let rest := lexemes.dropWhile fun l => !l.isSemicolon
  (body ++ rest.take 1, rest.drop 1)

/-- The lexemes are those of a statement and not only its end. -/
def isStatement (lexemes : List Lexeme) : Bool := lexemes.any fun l => !l.isSemicolon

/-- Splits lexemes into the lexemes of statements, at most `bound` of them. -/
def splitStatements : (bound : Nat) → List Lexeme → List (List Lexeme)
  | 0, _ => []
  | bound + 1, lexemes =>
    if lexemes.isEmpty then []
    else
      let (first, rest) := splitStatement lexemes
      if isStatement first then first :: splitStatements bound rest
      else splitStatements bound rest

/-- The lexemes of each statement of a text. -/
def statements (sql : String) : List (List Lexeme) :=
  let lexemes := Lexeme.scan sql.toList
  splitStatements lexemes.length lexemes

end ConnectionPool.Engine
