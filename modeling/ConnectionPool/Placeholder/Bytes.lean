import ConnectionPool.Placeholder

/-!
# Rewriting by bytes

The rewriting of a statement as one pass over the bytes of its text.  Nothing is copied
until a placeholder is met: then all the text since the last one is, and after it the number
of the name.

A position counts bytes, and most positions the pass goes through may lie within a character.
A `slice` is taken only between characters; where it would tear one, the pass fails.  All
marks that the pass looks for are single bytes, and a byte of a longer character is taken for
the character of the same code, which is none of the marks and belongs to names.
-/

namespace ConnectionPool

namespace Placeholder

namespace Bytes

/-- Why a pass ends without a result. -/
inductive Failure where
  /-- It met a placeholder by position. -/
  | refused (m : Mark)
  /-- A slice would begin or end within a character. -/
  | torn
  deriving DecidableEq, Repr

/-- The text between two positions. -/
def slice (sql : String) (start stop : Nat) : Except Failure String :=
  if h : start ≤ stop ∧ String.Pos.Raw.IsValid sql ⟨start⟩ ∧ String.Pos.Raw.IsValid sql ⟨stop⟩ then
    .ok (String.extract ⟨⟨start⟩, h.2.1⟩ ⟨⟨stop⟩, h.2.2⟩)
  else .error .torn

/-! ## Looking -/

/-- How far the first occurrence of a mark is. -/
def find? (mark : List Char) : List UInt8 → Option Nat
  | [] => none
  | b :: rest =>
    if (mark.map Char.toUInt8).isPrefixOf (b :: rest) then some 0
    else (find? mark rest).map (· + 1)

/-- The position past the first occurrence of a mark, or the end. -/
def skipPast (bytes : List UInt8) (start : Nat) (mark : List Char) : Nat :=
  match find? mark (bytes.drop start) with
  | some n => start + n + mark.length
  | none => bytes.length

/-- What stands at a position. -/
inductive Found where
  /-- Nothing to replace before another position. -/
  | plain (next : Nat)
  /-- A placeholder by position. -/
  | positional (m : Mark)
  /-- A placeholder whose name ends at another position. -/
  | named (stop : Nat)
  deriving DecidableEq, Repr

/-- Where a pass goes on. -/
def Found.next? : Found → Option Nat
  | plain next => some next
  | positional _ => none
  | named stop => some stop

/-- Looks at the byte of a position and at what follows it. -/
def look (bytes : List UInt8) (i : Nat) (b : UInt8) : Found :=
  let c := Char.ofUInt8 b
  let next := bytes[i + 1]?.map Char.ofUInt8
  if c = '\x27' ∨ c = '"' ∨ c = '\x60' then .plain (skipPast bytes (i + 1) [c])
  else if c = '[' then .plain (skipPast bytes (i + 1) [']'])
  else if c = '-' ∧ next = some '-' then .plain (skipPast bytes (i + 2) ['\n'])
  else if c = '/' ∧ next = some '*' then .plain (skipPast bytes (i + 2) ['*', '/'])
  else if c = '?' then .positional .question
  else if c = '$' ∧ next.any Char.isDigit then .positional .dollar
  else if isSigil c ∧ next.any isNameStart then
    .named (i + 1 + ((bytes.drop (i + 1)).takeWhile (isNameRest <| .ofUInt8 ·)).length)
  else .plain (i + 1)

theorem lt_skipPast {bytes : List UInt8} {i start : Nat} {mark : List Char}
    (past : i < start) (inside : i < bytes.length) : i < skipPast bytes start mark := by
  unfold skipPast
  split <;> omega

/-- A pass goes on behind the byte it looks at. -/
theorem lt_of_look {bytes : List UInt8} {i next : Nat} {b : UInt8} (inside : i < bytes.length)
    (found : (look bytes i b).next? = some next) : i < next := by
  have past (n : Nat) (mark : List Char) : i < skipPast bytes (i + (n + 1)) mark :=
    lt_skipPast (by omega) inside
  simp only [look] at found
  repeat' split at found
  all_goals
    simp only [Found.next?, Option.some.injEq, reduceCtorEq] at found
    try rw [← found]
  all_goals first | exact past _ _ | omega

/-! ## The pass -/

/-- How far a pass is. -/
structure Pass where
  /-- The byte it looks at next. -/
  position : Nat := 0
  /-- Up to here the text was copied or replaced. -/
  copied : Nat := 0
  /-- The new text so far. -/
  out : String := ""
  /-- The names met so far, with their numbers. -/
  numbers : List (String × Nat) := []
  /-- The values of the names met so far. -/
  values : List Value := []

namespace Pass

/-- The value of the placeholder at the position, which is looked for with its sigil when
there is none of the bare name. -/
def value (p : Pass) (sql : String) (args : Record Value) (stop : Nat) (name : String) :
    Except Failure Value :=
  match args.get? name with
  | some v => .ok v
  | none => do
    let whole ← slice sql p.position stop
    .ok ((args.get? whole).getD .null)

/-- The number of a name, with the name and its value added if it is new. -/
def number (p : Pass) (sql : String) (args : Record Value) (stop : Nat) (name : String) :
    Except Failure (Nat × Pass) :=
  match p.numbers.find? (·.1 == name) with
  | some (_, n) => .ok (n, p)
  | none => do
    let v ← p.value sql args stop name
    let n := p.values.length + 1
    .ok (n, { p with numbers := p.numbers ++ [(name, n)], values := p.values ++ [v] })

/-- Replaces the placeholder at the position, whose name ends at another one. -/
def replace (p : Pass) (sql : String) (args : Record Value) (stop : Nat) : Except Failure Pass := do
  let name ← slice sql (p.position + 1) stop
  let (n, p) ← p.number sql args stop name
  let before ← slice sql p.copied p.position
  .ok { p with out := p.out ++ before ++ "?" ++ toString n }

/-- Carries a pass on to the end of the text. -/
def run (sql : String) (args : Record Value) (bytes : List UInt8) (p : Pass) :
    Except Failure Pass :=
  match here : bytes[p.position]? with
  | none => .ok p
  | some b =>
    have inside := (List.getElem?_eq_some_iff.mp here).1
    match found : look bytes p.position b with
    | .plain next =>
      have := lt_of_look inside (congrArg Found.next? found)
      run sql args bytes { p with position := next }
    | .positional m => .error (.refused m)
    | .named stop =>
      have := lt_of_look inside (congrArg Found.next? found)
      match p.replace sql args stop with
      | .error failure => .error failure
      | .ok p => run sql args bytes { p with position := stop, copied := stop }
termination_by bytes.length - p.position

/-- Copies what is left. -/
def finish (p : Pass) (sql : String) (bytes : List UInt8) :
    Except Failure (String × List Value) := do
  let rest ← slice sql p.copied bytes.length
  .ok (p.out ++ rest, p.values)

end Pass

/-- The text with its named placeholders numbered, and the values to bind. -/
def expand (sql : String) (args : Record Value) : Except Failure (String × List Value) := do
  let bytes := sql.toByteArray.data.toList
  let p ← Pass.run sql args bytes {}
  p.finish sql bytes

end Bytes

end Placeholder

end ConnectionPool
