import ConnectionPool.Value

/-!
# Lexemes of the engine's language

`Lexeme.scan` splits the text of one or more statements.  Blanks and comments are
left out.  A lexeme keeps its spelling, because an error names the place it was
found at by the spelling that stands there.

`spell` gives the length of the first lexeme, so that scanning is on the length of
what is left.
-/

namespace ConnectionPool.Engine

/-- What a lexeme is. -/
inductive Lexeme.Kind where
  /-- A keyword or a name. -/
  | word
  /-- A name between double quotes. -/
  | quotedName
  /-- Decimal digits. -/
  | number
  /-- Text between single quotes. -/
  | text
  /-- Hexadecimal digits between single quotes, after a letter. -/
  | bytes
  /-- A placeholder. -/
  | placeholder
  /-- A sign of punctuation. -/
  | sign
  deriving DecidableEq, Repr

/-- A lexeme with its spelling. -/
structure Lexeme where
  /-- What it is. -/
  kind : Lexeme.Kind
  /-- How it is written. -/
  spelling : List Char
  deriving DecidableEq, Repr

namespace Lexeme

/-- The spelling as a string. -/
def string (l : Lexeme) : String := String.ofList l.spelling

/-- The lexeme ends a statement. -/
def isSemicolon (l : Lexeme) : Bool := l.kind == .sign && l.spelling == [';']

/-! ## Scanning -/

/-- The character may stand in a name. -/
def isWordRest (c : Char) : Bool := c.isAlphanum || c == '_' || c == '$' || 0x80 ≤ c.toNat

/-- The character may begin a name. -/
def isWordStart (c : Char) : Bool := c.isAlpha || c == '_' || 0x80 ≤ c.toNat

/-- The number of characters through the next `close`, a doubled one not counting.
Text that is not closed runs to its end. -/
def closedLength (close : Char) : List Char → Nat
  | [] => 0
  | [_] => 1
  | c :: d :: rest =>
    if c = close then
      if d = close then closedLength close rest + 2 else 1
    else closedLength close (d :: rest) + 1

/-- The length of a comment after its opening mark, through its closing mark. -/
def commentLength (mark : List Char) : List Char → Nat
  | [] => 0
  | c :: rest =>
    if mark.isPrefixOf (c :: rest) then mark.length else commentLength mark rest + 1

/-- The length of a run of characters. -/
def runLength (p : Char → Bool) (cs : List Char) : Nat := (cs.takeWhile p).length

/-- The kind and the length of what a text begins with.  Blanks and comments have
no kind. -/
def spell (c : Char) (rest : List Char) : Option Kind × Nat :=
  let second := rest.headD ' '
  if c.isWhitespace then (none, 1)
  else if c = '-' ∧ second = '-' then (none, 2 + commentLength ['\n'] (rest.drop 1))
  else if c = '/' ∧ second = '*' then (none, 2 + commentLength ['*', '/'] (rest.drop 1))
  else if c = '\x27' then (some .text, 1 + closedLength c rest)
  else if c = '"' then (some .quotedName, 1 + closedLength c rest)
  else if (c = 'x' ∨ c = 'X') ∧ second = '\x27' then
    (some .bytes, 2 + closedLength second (rest.drop 1))
  else if c.isDigit then (some .number, 1 + runLength Char.isDigit rest)
  else if c = '?' then (some .placeholder, 1 + runLength Char.isDigit rest)
  else if c = ':' ∨ c = '@' ∨ c = '$' then (some .placeholder, 1 + runLength isWordRest rest)
  else if isWordStart c then (some .word, 1 + runLength isWordRest rest)
  else (some .sign, 1)

/-- The lexemes of a text. -/
def scan : List Char → List Lexeme
  | [] => []
  | c :: rest =>
    let (kind, length) := spell c rest
    let after := scan (rest.drop (length - 1))
    match kind with
    | some kind => ⟨kind, (c :: rest).take length⟩ :: after
    | none => after
termination_by cs => cs.length
decreasing_by
  simp only [List.length_drop, List.length_cons]
  omega

/-! ## What a lexeme stands for -/

/-- The characters between quotes, a doubled quote standing for one. -/
def unquote (quote : Char) : List Char → List Char
  | [] => []
  | [c] => if c = quote then [] else [c]
  | c :: d :: rest =>
    if c = quote then
      if d = quote then quote :: unquote quote rest else []
    else c :: unquote quote (d :: rest)

/-- The name that a word or a quoted name stands for. -/
def name? (l : Lexeme) : Option String :=
  match l.kind with
  | .word => some l.string
  | .quotedName => some (String.ofList (unquote '"' (l.spelling.drop 1)))
  | _ => none

/-- The value of a hexadecimal digit. -/
def nibble? (c : Char) : Option Nat :=
  if c.isDigit then some (c.toNat - '0'.toNat)
  else if 'a' ≤ c ∧ c ≤ 'f' then some (c.toNat - 'a'.toNat + 10)
  else if 'A' ≤ c ∧ c ≤ 'F' then some (c.toNat - 'A'.toNat + 10)
  else none

/-- The bytes that pairs of hexadecimal digits stand for. -/
def bytes? : List Char → Option (List UInt8)
  | [] => some []
  | [_] => none
  | a :: b :: rest => do
    let high ← nibble? a
    let low ← nibble? b
    return UInt8.ofNat (16 * high + low) :: (← bytes? rest)

end Lexeme

end ConnectionPool.Engine
