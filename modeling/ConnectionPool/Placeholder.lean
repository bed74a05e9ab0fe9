import ConnectionPool.Error

/-!
# Named placeholders

The engine binds by position.  A statement with named arguments is therefore
rewritten: each placeholder `:name`, `@name` or `$name` becomes `?N`, where `N` is
the rank of the name, without its sigil, by first occurrence.  The values to bind
are those of the names in that order.

`Token.scan` splits a text into tokens, left to right.  A quoted literal, a quoted
identifier and a comment are one `region` each, copied as it stands; a region that
is not closed runs to the end of the text.  A placeholder takes the longest name
that follows its sigil.  Everything else is `plain`, a character at a time.  A
placeholder by position, a question mark or a dollar sign before a digit, is a
token of its own, because it may not stand beside named arguments.

`flatMap_text_scan` says that the tokens of a text, put together, are the text.
-/

namespace ConnectionPool

namespace Placeholder

/-! ## Characters -/

/-- The character may begin a name. -/
def isNameStart (c : Char) : Bool := c.isAlpha || c == '_' || 0x80 ≤ c.toNat

/-- The character may continue a name. -/
def isNameRest (c : Char) : Bool := c.isAlphanum || c == '_' || 0x80 ≤ c.toNat

/-- The character may stand before the name of a placeholder. -/
def isSigil (c : Char) : Bool := c == ':' || c == '@' || c == '$'

/-! ## Regions -/

/-- What closes the region that a text begins with: the number of characters of its
opening and its closing mark.  A text in plain code begins none. -/
def opening? : List Char → Option (Nat × List Char)
  | '\x27' :: _ => some (1, ['\x27'])
  | '"' :: _ => some (1, ['"'])
  | '\x60' :: _ => some (1, ['\x60'])
  | '[' :: _ => some (1, [']'])
  | '-' :: '-' :: _ => some (2, ['\n'])
  | '/' :: '*' :: _ => some (2, ['*', '/'])
  | _ => none

/-- The text through the first occurrence of a mark, and what follows.  A mark that
does not occur leaves nothing to follow. -/
def splitPast (mark : List Char) : List Char → List Char × List Char
  | [] => ([], [])
  | c :: rest =>
    if mark.isPrefixOf (c :: rest) then ((c :: rest).take mark.length, (c :: rest).drop mark.length)
    else
      let (inside, after) := splitPast mark rest
      (c :: inside, after)

theorem append_splitPast (mark cs : List Char) :
    (splitPast mark cs).1 ++ (splitPast mark cs).2 = cs := by
  induction cs with
  | nil => rfl
  | cons c rest ih =>
    unfold splitPast
    split
    · exact List.take_append_drop _ _
    · simp [ih]

theorem length_splitPast_le (mark cs : List Char) : (splitPast mark cs).2.length ≤ cs.length := by
  have h := congrArg List.length (append_splitPast mark cs)
  rw [List.length_append] at h
  omega

/-! ## Tokens -/

/-- A placeholder by position. -/
inductive Mark where
  /-- A question mark. -/
  | question
  /-- A dollar sign before a digit. -/
  | dollar
  deriving DecidableEq, Repr

/-- A token of a statement's text. -/
inductive Token where
  /-- A literal, a quoted identifier or a comment. -/
  | region (text : List Char)
  /-- A character of code. -/
  | plain (c : Char)
  /-- A placeholder by name. -/
  | named (sigil : Char) (name : List Char)
  /-- The first character of a placeholder by position. -/
  | positional (mark : Mark)
  deriving DecidableEq, Repr

namespace Token

/-- The characters of a token. -/
def text : Token → List Char
  | region cs => cs
  | plain c => [c]
  | named sigil name => sigil :: name
  | positional .question => ['?']
  | positional .dollar => ['$']

/-- The first token of a text in code, other than a region, and what follows it. -/
def next (c : Char) (rest : List Char) : Token × List Char :=
  if c = '?' then (positional .question, rest)
  else if c = '$' ∧ (rest.head?.any Char.isDigit) then (positional .dollar, rest)
  else if isSigil c ∧ (rest.head?.any isNameStart) then
    (named c (rest.takeWhile isNameRest), rest.dropWhile isNameRest)
  else (plain c, rest)

theorem text_next (c : Char) (rest : List Char) :
    (next c rest).1.text ++ (next c rest).2 = c :: rest := by
  unfold next
  split
  · rename_i h; simp [text, h]
  · split
    · rename_i h; simp [text, h.1]
    · split <;> simp [text]

theorem length_next_le (c : Char) (rest : List Char) :
    (next c rest).2.length ≤ rest.length := by
  unfold next
  split
  · exact Nat.le_refl _
  · split
    · exact Nat.le_refl _
    · split
      · exact (List.dropWhile_suffix _).length_le
      · exact Nat.le_refl _

/-- The tokens of a text. -/
def scan : List Char → List Token
  | [] => []
  | c :: rest =>
    match opening? (c :: rest) with
    | some (width, mark) =>
      region ((c :: rest).take width ++ (splitPast mark (rest.drop (width - 1))).1) ::
        scan (splitPast mark (rest.drop (width - 1))).2
    | none => (next c rest).1 :: scan (next c rest).2
termination_by cs => cs.length
decreasing_by
  · have h := length_splitPast_le mark (rest.drop (width - 1))
    simp only [List.length_drop, List.length_cons] at h ⊢
    omega
  · have h := length_next_le c rest
    simp only [List.length_cons]
    omega

/-- The mark of a token that stands for a placeholder by position. -/
def mark? : Token → Option Mark
  | positional m => some m
  | _ => none

end Token

theorem width_pos_of_opening? {cs mark : List Char} {width : Nat}
    (h : opening? cs = some (width, mark)) : 1 ≤ width := by
  unfold opening? at h
  split at h <;> simp only [Option.some.injEq, Prod.mk.injEq, reduceCtorEq] at h <;> omega

/-- The tokens of a text, put together, are the text. -/
theorem flatMap_text_scan (cs : List Char) : (Token.scan cs).flatMap Token.text = cs := by
  fun_induction Token.scan cs with
  | case1 => rfl
  | case2 c rest width mark h ih =>
    obtain ⟨n, rfl⟩ : ∃ n, width = n + 1 := ⟨width - 1, by
      have := width_pos_of_opening? h
      omega⟩
    simp only [Nat.add_sub_cancel] at ih ⊢
    rw [List.flatMap_cons, ih, Token.text, List.append_assoc, append_splitPast,
      List.take_succ_cons, List.cons_append, List.take_append_drop]
  | case3 c rest h ih =>
    rw [List.flatMap_cons, ih, Token.text_next]

/-! ## Rewriting -/

/-- The text that stands for the name of rank `n`, counted from zero. -/
def slot (n : Nat) : List Char := '?' :: (toString (n + 1)).toList

/-- The value an occurrence of a placeholder names: that of the bare name, else that
of the name with its sigil, else null. -/
def valueFor (args : Record Value) (sigil : Char) (name : List Char) : Value :=
  match args.get? (String.ofList name) with
  | some v => v
  | none => (args.get? (String.ofList (sigil :: name))).getD .null

/-- Names in order of first occurrence, each with its value. -/
abbrev Slots := List (List Char × Value)

/-- The rank of a name among the slots, and the slots with the name added if it is
new. -/
def Slots.rank (slots : Slots) (args : Record Value) (sigil : Char) (name : List Char) :
    Nat × Slots :=
  match slots.findIdx? (·.1 == name) with
  | some n => (n, slots)
  | none => (slots.length, slots ++ [(name, valueFor args sigil name)])

/-- The rewritten text of some tokens and the slots after them. -/
def rewrite (args : Record Value) : Slots → List Token → List Char × Slots
  | slots, [] => ([], slots)
  | slots, .named sigil name :: rest =>
    let (n, slots) := slots.rank args sigil name
    let (text, slots) := rewrite args slots rest
    (slot n ++ text, slots)
  | slots, token :: rest =>
    let (text, slots) := rewrite args slots rest
    (token.text ++ text, slots)

/-- Why a placeholder by position is refused. -/
def Mark.message (m : Mark) : String :=
  let placeholder := match m with
    | .question => "?"
    | .dollar => "$N"
  "positional placeholder '" ++ placeholder ++ "' in a statement bound with named arguments"

/-- The text with its named placeholders numbered, and the values to bind.  A
placeholder by position is refused, the first one of the text. -/
def expand (sql : String) (args : Record Value) : Except Mark (String × List Value) :=
  let tokens := Token.scan sql.toList
  match tokens.findSome? Token.mark? with
  | some m => .error m
  | none =>
    let (text, slots) := rewrite args [] tokens
    .ok (String.ofList text, slots.map Prod.snd)

end Placeholder

namespace Statement

/-- The text the engine is given and the values bound to it in order.  With arguments
by position the text stays as it is. -/
def prepare (s : Statement) : Except ConnectionError (String × List Value) :=
  match s.args with
  | .positional values => .ok (s.sql, values)
  | .named args =>
    match Placeholder.expand s.sql args with
    | .ok prepared => .ok prepared
    | .error mark => .error (.invalidArguments mark.message)

end Statement

end ConnectionPool
