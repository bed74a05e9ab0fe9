import ConnectionPool.Json

/-!
# Reading JSON

`Json.read?` accepts exactly one value with blanks around it.  The grammar is the
strict one: no leading zeros, no plus sign, no trailing commas, no control
characters inside strings, no surrogate that stands alone.  Three limits come on
top of it.

* At most `maxDepth` arrays and objects lie inside each other.
* An integer literal that fits 64 bits, signed or unsigned, is an integer.  Any
  other number is the double nearest to it, and so is `-0`.
* A number too large for a double is refused.  One too small is zero.

The depth is the recursion argument of `value?`, so the limit and the termination
are one thing.  The items of an array are read with fuel that the length of the
text bounds.

A string is read in two steps.  `pieces?` splits it into characters and escaped
16-bit units, and `assemble?` joins the surrogates among the units.
-/

namespace ConnectionPool

namespace Json

/-! ## Blanks and digits -/

/-- The four characters that may stand between tokens. -/
def isBlank (c : Char) : Bool := c == ' ' || c == '\n' || c == '\t' || c == '\r'

/-- Leaves out leading blanks. -/
def skipBlanks (cs : List Char) : List Char := cs.dropWhile isBlank

/-- The value of a run of decimal digits. -/
def digitsValue (cs : List Char) : Nat := cs.foldl (fun n c => 10 * n + (c.toNat - '0'.toNat)) 0

/-- The value of a hexadecimal digit. -/
def hexValue? (c : Char) : Option Nat :=
  if '0' ≤ c ∧ c ≤ '9' then some (c.toNat - '0'.toNat)
  else if 'a' ≤ c ∧ c ≤ 'f' then some (c.toNat - 'a'.toNat + 10)
  else if 'A' ≤ c ∧ c ≤ 'F' then some (c.toNat - 'A'.toNat + 10)
  else none

/-- The value of four hexadecimal digits. -/
def hexUnit? (a b c d : Char) : Option Nat := do
  let a ← hexValue? a
  let b ← hexValue? b
  let c ← hexValue? c
  let d ← hexValue? d
  return ((a * 16 + b) * 16 + c) * 16 + d

/-! ## Strings -/

/-- A part of a string: a character written plainly or by name, or a 16-bit unit
written by number. -/
inductive Piece where
  /-- A character. -/
  | char (c : Char)
  /-- A 16-bit unit. -/
  | unit (n : Nat)

/-- The character an escape by name stands for. -/
def namedEscape? (c : Char) : Option Char :=
  if c = '"' then some '"'
  else if c = '\\' then some '\\'
  else if c = '/' then some '/'
  else if c = 'b' then some '\x08'
  else if c = 'f' then some '\x0c'
  else if c = 'n' then some '\n'
  else if c = 'r' then some '\r'
  else if c = 't' then some '\t'
  else none

/-- The parts of a string after its opening quote, and what follows the closing one. -/
def pieces? : List Char → Option (List Piece × List Char)
  | [] => none
  | '"' :: rest => some ([], rest)
  | '\\' :: 'u' :: a :: b :: c :: d :: rest => do
    let n ← hexUnit? a b c d
    let (ps, rest) ← pieces? rest
    return (.unit n :: ps, rest)
  | '\\' :: c :: rest => do
    let e ← namedEscape? c
    let (ps, rest) ← pieces? rest
    return (.char e :: ps, rest)
  | c :: rest =>
    if c = '\\' ∨ c.toNat < 0x20 then none
    else do
      let (ps, rest) ← pieces? rest
      return (.char c :: ps, rest)

/-- The unit is the first half of a pair. -/
def isHighSurrogate (n : Nat) : Bool := 0xd800 ≤ n && n < 0xdc00

/-- The unit is the second half of a pair. -/
def isLowSurrogate (n : Nat) : Bool := 0xdc00 ≤ n && n < 0xe000

/-- The characters of a string.  A surrogate must be half of a pair. -/
def assemble? : List Piece → Option (List Char)
  | [] => some []
  | .char c :: rest => (assemble? rest).map (c :: ·)
  | .unit n :: rest =>
    if isHighSurrogate n then
      match rest with
      | .unit m :: rest =>
        if isLowSurrogate m then
          (assemble? rest).map (Char.ofNat (0x10000 + (n - 0xd800) * 0x400 + (m - 0xdc00)) :: ·)
        else none
      | _ => none
    else if isLowSurrogate n then none
    else (assemble? rest).map (Char.ofNat n :: ·)

/-- A string after its opening quote, and what follows it. -/
def string? (cs : List Char) : Option (String × List Char) := do
  let (ps, rest) ← pieces? cs
  let chars ← assemble? ps
  return (String.ofList chars, rest)

/-! ## Numbers -/

/-- The fraction of a number: its digits, none when there is no point. -/
def fraction? (cs : List Char) : Option (List Char × List Char) :=
  match cs with
  | '.' :: rest =>
    let digits := rest.takeWhile Char.isDigit
    if digits.isEmpty then none else some (digits, rest.dropWhile Char.isDigit)
  | _ => some ([], cs)

/-- The exponent of a number, `none` inside when it has none. -/
def exponent? (cs : List Char) : Option (Option Int × List Char) :=
  match cs with
  | c :: rest =>
    if c = 'e' ∨ c = 'E' then
      let (negative, rest) := match rest with
        | '+' :: rest => (false, rest)
        | '-' :: rest => (true, rest)
        | _ => (false, rest)
      let digits := rest.takeWhile Char.isDigit
      if digits.isEmpty then none
      else
        let n : Int := digitsValue digits
        some (some (if negative then -n else n), rest.dropWhile Char.isDigit)
    else some (none, cs)
  | [] => some (none, cs)

/-- The number that sign and digits make when there is neither point nor exponent. -/
def integer? (negative : Bool) (n : Nat) : Option Json :=
  if negative = false ∧ n < UInt64.size then some (.int n)
  else if negative = true ∧ 0 < n ∧ Int64.minValue.toInt ≤ -n then some (.int (-n))
  else (Double.ofDecimal? negative ⟨n, 0⟩).map .real

/-- A number after its sign. -/
def unsigned? (negative : Bool) (cs : List Char) : Option (Json × List Char) := do
  let whole := cs.takeWhile Char.isDigit
  if whole.isEmpty || (whole.head? == some '0' && 1 < whole.length) then none
  else
    let (places, rest) ← fraction? (cs.dropWhile Char.isDigit)
    let (power, rest) ← exponent? rest
    if places.isEmpty && power.isNone then
      return (← integer? negative (digitsValue whole), rest)
    else
      let decimal : Decimal := ⟨digitsValue (whole ++ places), power.getD 0 - places.length⟩
      return (.real (← Double.ofDecimal? negative decimal), rest)

/-- A number, and what follows it. -/
def number? (cs : List Char) : Option (Json × List Char) :=
  match cs with
  | '-' :: rest => unsigned? true rest
  | _ => unsigned? false cs

/-! ## Values -/

/-- Items with commas between them up to a closing character.  At least one item. -/
def sequence? {α : Type} (item? : List Char → Option (α × List Char)) (close : Char) :
    (fuel : Nat) → List Char → Option (List α × List Char)
  | 0, _ => none
  | fuel + 1, cs => do
    let (x, rest) ← item? cs
    match skipBlanks rest with
    | [] => none
    | c :: rest =>
      if c = ',' then
        let (xs, rest) ← sequence? item? close fuel rest
        return (x :: xs, rest)
      else if c = close then return ([x], rest)
      else none

/-- A possibly empty sequence after its opening character. -/
def enclosed? {α : Type} (item? : List Char → Option (α × List Char)) (close : Char)
    (cs : List Char) : Option (List α × List Char) :=
  match skipBlanks cs with
  | [] => none
  | c :: rest => if c = close then some ([], rest) else sequence? item? close cs.length cs

/-- A member of an object, given how its value is read. -/
def memberWith? (value? : List Char → Option (Json × List Char)) (cs : List Char) :
    Option ((String × Json) × List Char) :=
  match skipBlanks cs with
  | '"' :: rest => do
    let (name, rest) ← string? rest
    match skipBlanks rest with
    | ':' :: rest =>
      let (x, rest) ← value? rest
      return ((name, x), rest)
    | _ => none
  | _ => none

/-- A value that is no array and no object. -/
def scalar? (cs : List Char) : Option (Json × List Char) :=
  match cs with
  | 'n' :: 'u' :: 'l' :: 'l' :: rest => some (.null, rest)
  | 't' :: 'r' :: 'u' :: 'e' :: rest => some (.bool true, rest)
  | 'f' :: 'a' :: 'l' :: 's' :: 'e' :: rest => some (.bool false, rest)
  | '"' :: rest => (string? rest).map fun (s, rest) => (.str s, rest)
  | _ => number? cs

/-- A value with at most `depth` arrays and objects inside each other, after blanks. -/
def value? : (depth : Nat) → List Char → Option (Json × List Char)
  | 0, cs => scalar? (skipBlanks cs)
  | depth + 1, cs =>
    match skipBlanks cs with
    | [] => none
    | c :: rest =>
      if c = '[' then (enclosed? (value? depth) ']' rest).map fun (xs, rest) => (.arr xs, rest)
      else if c = '\x7b' then
        (enclosed? (memberWith? (value? depth)) '\x7d' rest).map fun (ms, rest) => (.obj ms, rest)
      else scalar? (c :: rest)

/-- How many arrays and objects may lie inside each other. -/
def maxDepth : Nat := 127

/-- The value that a text holds, with nothing but blanks around it. -/
def read? (s : String) : Option Json :=
  match value? maxDepth s.toList with
  | some (j, rest) => if (skipBlanks rest).isEmpty then some j else none
  | none => none

end Json

end ConnectionPool
