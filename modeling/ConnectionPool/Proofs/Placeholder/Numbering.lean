import Mathlib.Data.List.Induction
import Mathlib.Data.List.Nodup
import ConnectionPool.Proofs.Placeholder.Bytes

/-!
# Numbers and values

What the rewriting of a statement comes to, told by the tokens of its text.  The names are
counted by first occurrence, each placeholder becomes the number of its name, and the value of
a number is the one that the first occurrence of the name asks for.

`prepare_rewrites` says so of every text and all named arguments.  `bound_iff_own` says when a
placeholder gets the value it asks for itself: one of a name that is written in several ways
may not, because the arguments are searched for the way it is written first.
-/

namespace ConnectionPool

namespace Placeholder

namespace Token

/-- The name of a placeholder by name. -/
def name? : Token → Option (List Char)
  | named _ name => some name
  | _ => none

/-- What stands for a token when these names are numbered. -/
def numbered (names : List (List Char)) : Token → List Char
  | named _ name => slot (names.idxOf name)
  | token => token.text

/-- The way a token writes a name. -/
def spells? (name : List Char) : Token → Option Char
  | named p other => if other = name then some p else none
  | _ => none

end Token

/-- The names of some tokens, in order of first occurrence. -/
def names (tokens : List Token) : List (List Char) := (tokens.filterMap Token.name?).eraseDups

/-- The sigil of the first occurrence of a name. -/
def sigil? (tokens : List Token) (name : List Char) : Option Char :=
  tokens.findSome? (Token.spells? name)

/-- The value that the first occurrence of a name asks for. -/
def valueOf (args : Record Value) (tokens : List Token) (name : List Char) : Value :=
  match sigil? tokens name with
  | some p => valueFor args p name
  | none => .null

/-- The names of some tokens with their values. -/
def assigned (args : Record Value) (tokens : List Token) : Slots :=
  (names tokens).map fun name => (name, valueOf args tokens name)

/-- A name is first written with this sigil. -/
def First (tokens : List Token) (p : Char) (name : List Char) : Prop :=
  ∃ before after, tokens = before ++ .named p name :: after ∧ name ∉ names before

variable {args : Record Value} {before after tokens : List Token} {token : Token}
  {name : List Char} {p q : Char} {sql text : String} {values : List Value}

/-! ## Names -/

theorem Token.name?_eq_some_iff : token.name? = some name ↔ ∃ p, token = .named p name := by
  cases token <;> simp [name?]

theorem mem_names : name ∈ names tokens ↔ ∃ p, .named p name ∈ tokens := by
  rw [names, List.mem_eraseDups, List.mem_filterMap]
  constructor
  · rintro ⟨token, mem, named⟩
    obtain ⟨p, rfl⟩ := Token.name?_eq_some_iff.mp named
    exact ⟨p, mem⟩
  · rintro ⟨p, mem⟩
    exact ⟨_, mem, rfl⟩

theorem names_prefix (before after : List Token) : names before <+: names (before ++ after) := by
  rw [names, names, List.filterMap_append, List.eraseDups_append]
  exact List.prefix_append _ _

theorem names_of_unnamed (unnamed : token.name? = none) :
    names (before ++ [token]) = names before := by
  simp [names, unnamed]

theorem names_append_named : names (before ++ [.named p name]) =
    names before ++ (([name].filter (· ∉ names before))).eraseDups := by
  have listed : (before ++ [Token.named p name]).filterMap Token.name? =
      before.filterMap Token.name? ++ [name] := List.filterMap_append
  simp only [names, listed, List.eraseDups_append, List.removeAll, List.mem_eraseDups]
  congr 3
  funext other
  rw [List.elem_eq_mem, decide_not]

theorem names_of_mem (mem : name ∈ names before) :
    names (before ++ [.named p name]) = names before := by
  rw [names_append_named, List.filter_cons_of_neg (by simpa using mem)]
  exact List.append_nil _

theorem names_of_not_mem (new : name ∉ names before) :
    names (before ++ [.named p name]) = names before ++ [name] := by
  rw [names_append_named, List.filter_cons_of_pos (by simpa using new)]
  rfl

theorem nodup_names (tokens : List Token) : (names tokens).Nodup := by
  induction tokens using List.reverseRecOn with
  | nil => exact List.nodup_nil
  | append_singleton before token ih =>
      cases named : token.name? with
      | none => rwa [names_of_unnamed named]
      | some name =>
          obtain ⟨p, rfl⟩ := Token.name?_eq_some_iff.mp named
          by_cases mem : name ∈ names before
          · rwa [names_of_mem mem]
          · rw [names_of_not_mem mem, ← List.concat_eq_append]
            exact List.Nodup.concat mem ih

theorem idxOf_names (mem : name ∈ names before) (after : List Token) :
    (names (before ++ after)).idxOf name = (names before).idxOf name := by
  obtain ⟨more, eq⟩ := names_prefix before after
  rw [← eq, List.idxOf_append_of_mem mem]

/-! ## Values -/

theorem sigil?_eq_some_iff : sigil? tokens name = some p ↔ First tokens p name := by
  have spells {token : Token} {p : Char} :
      token.spells? name = some p ↔ token = .named p name := by
    cases token <;> simp [Token.spells?, and_comm]
  have absent {before : List Token} :
      (∀ token ∈ before, token.spells? name = none) ↔ name ∉ names before := by
    simp only [mem_names, Option.eq_none_iff_forall_ne_some, ne_eq, spells]
    aesop
  rw [sigil?, List.findSome?_eq_some_iff]
  simp only [spells, absent]
  constructor
  · rintro ⟨before, token, after, rfl, rfl, new⟩
    exact ⟨before, after, rfl, new⟩
  · rintro ⟨before, after, rfl, new⟩
    exact ⟨before, _, after, rfl, rfl, new⟩

theorem exists_sigil? (mem : name ∈ names tokens) : ∃ p, sigil? tokens name = some p := by
  obtain ⟨p, mem⟩ := mem_names.mp mem
  refine Option.isSome_iff_exists.mp (List.findSome?_isSome_iff.mpr ⟨_, mem, ?_⟩)
  simp [Token.spells?]

theorem valueOf_append (mem : name ∈ names before) (after : List Token) :
    valueOf args (before ++ after) name = valueOf args before name := by
  obtain ⟨p, first⟩ := exists_sigil? mem
  have later : sigil? (before ++ after) name = some p := by
    rw [sigil?, List.findSome?_append, ← sigil?, first]
    rfl
  rw [valueOf, valueOf, first, later]

theorem valueOf_new (new : name ∉ names before) (after : List Token) :
    valueOf args (before ++ .named p name :: after) name = valueFor args p name := by
  rw [valueOf, sigil?_eq_some_iff.mpr ⟨before, after, rfl, new⟩]

theorem assigned_append (same : names (before ++ after) = names before) :
    assigned args (before ++ after) = assigned args before := by
  rw [assigned, same]
  exact List.map_congr_left fun name mem => by rw [valueOf_append mem]

/-- One more occurrence of a name, old or new. -/
theorem rank_assigned (before : List Token) (p : Char) (name : List Char) :
    (assigned args before).rank args p name =
      ((names (before ++ [.named p name])).idxOf name,
        assigned args (before ++ [.named p name])) := by
  have found : (assigned args before).findIdx? (·.1 == name) = (names before).idxOf? name := by
    rw [assigned, List.findIdx?_map]
    rfl
  rw [Slots.rank, found]
  by_cases mem : name ∈ names before
  · have at_rank : (names before).idxOf? name = some ((names before).idxOf name) :=
      List.findIdx?_eq_some_iff_findIdx_eq.mpr ⟨List.idxOf_lt_length_of_mem mem, rfl⟩
    rw [at_rank, assigned_append (names_of_mem mem), names_of_mem mem]
  · have absent : (names before).idxOf? name = none := List.idxOf?_eq_none_iff.mpr mem
    rw [absent]
    have old : (names before).map (fun other => (other, valueOf args before other)) =
        (names before).map fun other => (other, valueOf args (before ++ [.named p name]) other) :=
      List.map_congr_left fun other mem => by rw [valueOf_append mem]
    rw [names_of_not_mem mem, List.idxOf_append_of_notMem mem]
    simp only [assigned, names_of_not_mem mem, List.map_append, List.map_cons, List.map_nil, ← old,
      valueOf_new mem, List.length_map, List.idxOf_cons_self, Nat.add_zero]

theorem numbered_unnamed (unnamed : token.name? = none) (names : List (List Char)) :
    token.numbered names = token.text := by
  cases token <;> first | rfl | cases unnamed

theorem rewrite_unnamed (unnamed : token.name? = none) (slots : Slots) :
    rewrite args slots (token :: tokens) =
      (token.text ++ (rewrite args slots tokens).1, (rewrite args slots tokens).2) := by
  cases token <;> first | rfl | cases unnamed

/-- Text and slots after some tokens, when others came before. -/
theorem rewrite_assigned (args : Record Value) (before tokens : List Token) :
    rewrite args (assigned args before) tokens =
      (tokens.flatMap (Token.numbered (names (before ++ tokens))),
        assigned args (before ++ tokens)) := by
  induction tokens generalizing before with
  | nil => simp [rewrite]
  | cons token tokens ih =>
      have split : before ++ token :: tokens = before ++ [token] ++ tokens := by simp
      cases named : token.name? with
      | none =>
          have same : assigned args before = assigned args (before ++ [token]) :=
            (assigned_append (names_of_unnamed named)).symm
          rw [rewrite_unnamed named, same, ih, split, List.flatMap_cons, numbered_unnamed named]
      | some name =>
          obtain ⟨p, rfl⟩ := Token.name?_eq_some_iff.mp named
          have mem : name ∈ names (before ++ [.named p name]) := mem_names.mpr ⟨p, by simp⟩
          rw [rewrite, rank_assigned]
          simp only [ih]
          rw [split, List.flatMap_cons, Token.numbered, idxOf_names mem]

/-! ## The rewriting of a text -/

theorem expand_tokens (sql : String) (args : Record Value) :
    Placeholder.expand sql args =
      match (Token.scan sql.toList).findSome? Token.mark? with
      | some m => .error m
      | none => .ok
          (String.ofList
            ((Token.scan sql.toList).flatMap (Token.numbered (names (Token.scan sql.toList)))),
          (names (Token.scan sql.toList)).map (valueOf args (Token.scan sql.toList))) := by
  have rewritten := rewrite_assigned args [] (Token.scan sql.toList)
  rw [List.nil_append] at rewritten
  rw [Placeholder.expand]
  cases (Token.scan sql.toList).findSome? Token.mark? with
  | some m => rfl
  | none =>
      simp only [show assigned args [] = [] from rfl] at rewritten
      simp only [rewritten, assigned, List.map_map]
      rfl

theorem Token.mark?_eq_some_iff {m : Mark} : token.mark? = some m ↔ token = .positional m := by
  cases token <;> simp [mark?]

theorem Token.mark?_eq_none_iff : token.mark? = none ↔ ∀ m, token ≠ .positional m := by
  cases token <;> simp [mark?]

theorem findSome?_mark?_eq_none_iff :
    tokens.findSome? Token.mark? = none ↔ ∀ m, .positional m ∉ tokens := by
  simp only [List.findSome?_eq_none_iff, Token.mark?_eq_none_iff]
  exact ⟨fun unmarked m mem => unmarked _ mem m rfl, fun unmarked _ mem m eq =>
    unmarked m (eq ▸ mem)⟩

/-- What the rewriting of a statement has to come to when its text has these tokens. -/
structure Rewrites (sql : String) (args : Record Value) (tokens : List Token) : Prop where
  /-- The grammar has these tokens for the text, and no others. -/
  lexed : ∀ others, Lexed sql.toList others ↔ others = tokens
  /-- Together they are the text. -/
  whole : tokens.flatMap Token.text = sql.toList
  /-- The statement is refused exactly for a placeholder by position. -/
  refused : (∃ message,
    Statement.prepare ⟨sql, .named args⟩ = .error (.invalidArguments message)) ↔
      ∃ m, .positional m ∈ tokens
  /-- Else each placeholder becomes the number of its name, and there is a value for each name. -/
  numbered : (∀ m, .positional m ∉ tokens) → ∃ values,
    Statement.prepare ⟨sql, .named args⟩ =
      .ok (String.ofList (tokens.flatMap (Token.numbered (names tokens))), values) ∧
    values.length = (names tokens).length
  /-- The names are those of the placeholders, each once. -/
  distinct : (names tokens).Nodup ∧ ∀ name, name ∈ names tokens ↔ ∃ p, .named p name ∈ tokens
  /-- The pass over the bytes comes to the same. -/
  bytes : Bytes.expand sql args = (Placeholder.expand sql args).mapError .refused
  /-- None of its slices tears a character. -/
  whole_slices : Bytes.expand sql args ≠ .error .torn

/-- Every statement with named arguments is rewritten by the tokens of its text. -/
theorem prepare_rewrites (sql : String) (args : Record Value) :
    ∃ tokens, Rewrites sql args tokens := by
  have expanded := expand_tokens sql args
  have bytes := Bytes.expand_eq sql args
  refine ⟨Token.scan sql.toList, ?_⟩
  generalize scanned : Token.scan sql.toList = tokens at expanded
  have marked : tokens.findSome? Token.mark? = none ↔ ∀ m, .positional m ∉ tokens :=
    findSome?_mark?_eq_none_iff
  constructor
  case lexed => exact fun others => scanned ▸ lexed_iff
  case whole => exact scanned ▸ flatMap_text_scan sql.toList
  case refused =>
    simp only [Statement.prepare, expanded]
    cases found : tokens.findSome? Token.mark? with
    | some m =>
        obtain ⟨token, mem, eq⟩ := List.exists_of_findSome?_eq_some found
        rw [Token.mark?_eq_some_iff] at eq
        exact ⟨fun _ => ⟨m, eq ▸ mem⟩, fun _ => ⟨m.message, rfl⟩⟩
    | none => exact ⟨fun ⟨_, eq⟩ => (nomatch eq), fun ⟨m, mem⟩ => absurd mem (marked.mp found m)⟩
  case numbered =>
    intro unmarked
    simp only [Statement.prepare, expanded, marked.mpr unmarked]
    exact ⟨_, rfl, List.length_map _⟩
  case distinct => exact ⟨nodup_names tokens, fun name => mem_names⟩
  case bytes => exact bytes
  case whole_slices =>
    rw [bytes]
    cases Placeholder.expand sql args <;> exact nofun

/-! ## The value of an occurrence -/

theorem valueFor_of_bare {v : Value} (bare : args.get? (String.ofList name) = some v) (p q : Char) :
    valueFor args p name = valueFor args q name := by
  rw [valueFor, valueFor, bare]

theorem valueFor_of_no_bare (none : args.get? (String.ofList name) = none) (p : Char) :
    valueFor args p name = (args.get? (String.ofList (p :: name))).getD .null := by
  rw [valueFor, none]

theorem values_of_prepare (lexed : Lexed sql.toList tokens)
    (prepared : Statement.prepare ⟨sql, .named args⟩ = .ok (text, values)) :
    text = String.ofList (tokens.flatMap (Token.numbered (names tokens))) ∧
      values = (names tokens).map (valueOf args tokens) := by
  rw [lexed_iff] at lexed
  simp only [Statement.prepare, expand_tokens, ← lexed] at prepared
  cases found : tokens.findSome? Token.mark? with
  | some m => simp [found] at prepared
  | none =>
      rw [found] at prepared
      cases prepared
      exact ⟨rfl, rfl⟩

/-- A name has one value, which is the one its first occurrence asks for.  So each placeholder
gets the value it asks for itself exactly when, for each name without an argument, all the ways
it is written in ask for the same. -/
theorem bound_iff_own (lexed : Lexed sql.toList tokens)
    (prepared : Statement.prepare ⟨sql, .named args⟩ = .ok (text, values)) :
    text = String.ofList (tokens.flatMap (Token.numbered (names tokens))) ∧
    (∀ p name, .named p name ∈ tokens → ∃ q, First tokens q name ∧
      values[(names tokens).idxOf name]? = some (valueFor args q name)) ∧
    ((∀ p name, .named p name ∈ tokens →
        values[(names tokens).idxOf name]? = some (valueFor args p name)) ↔
      ∀ name, args.get? (String.ofList name) = none → ∀ p q,
        .named p name ∈ tokens → .named q name ∈ tokens →
          (args.get? (String.ofList (p :: name))).getD .null =
            (args.get? (String.ofList (q :: name))).getD .null) := by
  obtain ⟨rewritten, rfl⟩ := values_of_prepare lexed prepared
  have bound (p : Char) (name : List Char) (mem : .named p name ∈ tokens) :
      ∃ q, First tokens q name ∧ ((names tokens).map (valueOf args tokens))[
        (names tokens).idxOf name]? = some (valueFor args q name) := by
    have listed : name ∈ names tokens := mem_names.mpr ⟨p, mem⟩
    obtain ⟨q, first⟩ := exists_sigil? listed
    refine ⟨q, sigil?_eq_some_iff.mp first, ?_⟩
    rw [List.getElem?_map, List.getElem?_idxOf listed, Option.map_some, valueOf, first]
  refine ⟨rewritten, bound, ?_, ?_⟩
  · intro own name bare p q written written'
    have same := (own p name written).symm.trans (own q name written')
    rwa [Option.some.injEq, valueFor_of_no_bare bare, valueFor_of_no_bare bare] at same
  · intro agree p name written
    obtain ⟨q, ⟨before, after, eq, -⟩, value⟩ := bound p name written
    rw [value, Option.some.injEq]
    cases bare : args.get? (String.ofList name) with
    | some v => exact valueFor_of_bare bare q p
    | none =>
        rw [valueFor_of_no_bare bare, valueFor_of_no_bare bare]
        exact agree name bare q p (by simp [eq]) written

/-- A name with an argument, written in two ways, and another with an argument for the way it
is written in. -/
theorem bound_iff_own_mixed :
    let args := Record.ofList [("a", .integer 1), ("@a", .integer 2), (":b", .integer 3)]
    let tokens := Token.scan "@a+:b+:a".toList
    Lexed "@a+:b+:a".toList tokens ∧
      Statement.prepare ⟨"@a+:b+:a", .named args⟩ = .ok ("?1+?2+?1", [.integer 1, .integer 3]) ∧
      ∃ q, First tokens q ['b'] ∧
        [Value.integer 1, .integer 3][(names tokens).idxOf ['b']]? = some (valueFor args q ['b']) := by
  intro args tokens
  have lexed : Lexed "@a+:b+:a".toList tokens := lexed_iff.mpr rfl
  have prepared : Statement.prepare ⟨"@a+:b+:a", .named args⟩ =
      .ok ("?1+?2+?1", [.integer 1, .integer 3]) := by decide +kernel
  exact ⟨lexed, prepared, (bound_iff_own lexed prepared).2.1 ':' ['b'] (by decide +kernel)⟩

/-- A name without an argument, written in two ways, with an argument for the second of them:
the second gets null, and would not if it came first. -/
theorem prefixed_argument_unused :
    let args := Record.ofList [("@a", .integer 5)]
    let tokens := Token.scan "SELECT :a, @a".toList
    Lexed "SELECT :a, @a".toList tokens ∧ .named '@' ['a'] ∈ tokens ∧
      valueFor args '@' ['a'] = .integer 5 ∧
      Statement.prepare ⟨"SELECT :a, @a", .named args⟩ = .ok ("SELECT ?1, ?1", [.null]) ∧
      [Value.null][(names tokens).idxOf ['a']]? = some .null ∧
      Statement.prepare ⟨"SELECT @a, :a", .named args⟩ = .ok ("SELECT ?1, ?1", [.integer 5]) := by
  refine ⟨lexed_iff.mpr rfl, ?_⟩
  decide +kernel

end Placeholder

end ConnectionPool
