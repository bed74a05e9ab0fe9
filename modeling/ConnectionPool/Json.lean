import ConnectionPool.Double.Decimal

/-!
# JSON values and their text

A `Json` value keeps the members of an object in the order written, repeated
names included; what a repeated name means is for the reader of the value.
Numbers are of two kinds, because a number without fraction and exponent that
fits 64 bits is an exact integer and every other number is a double.

`Json.write` gives the compact text: no blanks, strings escaped as little as
possible, doubles in the fewest digits that read back and always with a point or
an exponent, so that a double never reads back as an integer.

`Json.sorted` orders the members of every object by name, the last of several
members with one name winning.
-/

namespace ConnectionPool

/-- A JSON value. -/
inductive Json where
  /-- The literal `null`. -/
  | null
  /-- The literals `true` and `false`. -/
  | bool (b : Bool)
  /-- An integer. -/
  | int (i : Int)
  /-- A number with a fraction, an exponent or too many digits. -/
  | real (x : Double)
  /-- A string. -/
  | str (s : String)
  /-- An array. -/
  | arr (items : List Json)
  /-- An object, its members in order. -/
  | obj (members : List (String × Json))
  deriving Inhabited, Repr

namespace Json

/-! ## Text -/

/-- Positional notation for exponents from -5 to 15, otherwise a signed exponent
of as few digits as it needs. -/
def numberLayout : Double.Layout := ⟨-5, 15, ".0", "e+", "e-"⟩

/-- The digit of a number below sixteen, in lower case. -/
def hexDigit (n : Nat) : Char := (Nat.toDigits 16 n).headD '0'

/-- A character of a string as it is written. -/
def escape (c : Char) : List Char :=
  if c = '"' then ['\\', '"']
  else if c = '\\' then ['\\', '\\']
  else if c = '\x08' then ['\\', 'b']
  else if c = '\x0c' then ['\\', 'f']
  else if c = '\n' then ['\\', 'n']
  else if c = '\r' then ['\\', 'r']
  else if c = '\t' then ['\\', 't']
  else if c.toNat < 0x20 then
    ['\\', 'u', '0', '0', hexDigit (c.toNat / 16), hexDigit (c.toNat % 16)]
  else [c]

/-- A string between quotes. -/
def writeString (s : String) : List Char := '"' :: (s.toList.flatMap escape ++ ['"'])

/-- An integer in decimal. -/
def writeInt (i : Int) : List Char :=
  if i < 0 then '-' :: Decimal.digitsOf i.natAbs else Decimal.digitsOf i.natAbs

/-- A double, or `null` when it is not finite. -/
def writeDouble (x : Double) : List Char :=
  if x.isFinite then
    (if x.isNegative then ['-'] else []) ++ (numberLayout.write x.shortest).toList
  else ['n', 'u', 'l', 'l']

mutual

/-- The compact text of a value. -/
def write : Json → List Char
  | null => ['n', 'u', 'l', 'l']
  | bool true => ['t', 'r', 'u', 'e']
  | bool false => ['f', 'a', 'l', 's', 'e']
  | int i => writeInt i
  | real x => writeDouble x
  | str s => writeString s
  | arr items => '[' :: (writeItems items ++ [']'])
  | obj members => '\x7b' :: (writeMembers members ++ ['\x7d'])

/-- The items of an array, with commas between them. -/
def writeItems : List Json → List Char
  | [] => []
  | [x] => write x
  | x :: y :: rest => write x ++ ',' :: writeItems (y :: rest)

/-- The members of an object, with commas between them. -/
def writeMembers : List (String × Json) → List Char
  | [] => []
  | [(k, x)] => writeString k ++ ':' :: write x
  | (k, x) :: m :: rest => writeString k ++ ':' :: write x ++ ',' :: writeMembers (m :: rest)

end

/-- The compact text of a value, as a string. -/
def text (j : Json) : String := String.ofList j.write

/-! ## Objects -/

/-- The first member with a name. -/
def member? (members : List (String × Json)) (name : String) : Option Json :=
  (members.find? (·.1 == name)).map (·.2)

/-- The member with a name, of an object. -/
def get? (j : Json) (name : String) : Option Json :=
  match j with
  | obj members => member? members name
  | _ => none

/-- Puts a member where its name belongs among members in order of name.  A member
already there keeps its place, so that inserting from the last to the first keeps
the last. -/
def insertMember (name : String) (x : Json) : List (String × Json) → List (String × Json)
  | [] => [(name, x)]
  | (k, y) :: rest =>
    if name = k then (k, y) :: rest
    else if name < k then (name, x) :: (k, y) :: rest
    else (k, y) :: insertMember name x rest

mutual

/-- The value with the members of every object in order of name. -/
def sorted : Json → Json
  | arr items => arr (sortedItems items)
  | obj members => obj (sortedMembers members)
  | j => j

/-- The items of an array, each with its objects in order. -/
def sortedItems : List Json → List Json
  | [] => []
  | x :: rest => sorted x :: sortedItems rest

/-- The members of an object in order of name, the last of each name. -/
def sortedMembers : List (String × Json) → List (String × Json)
  | [] => []
  | (k, x) :: rest => insertMember k (sorted x) (sortedMembers rest)

end

end Json

end ConnectionPool
