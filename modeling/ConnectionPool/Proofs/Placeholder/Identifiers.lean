import ConnectionPool.Proofs.Placeholder.Rewriting

/-!
# Dollar signs in identifiers

The engine takes a dollar sign for a part of an unquoted identifier when it stands behind its
first character.  The rewriting of a statement looks at a dollar sign and at what follows it,
and not at what comes before.  So such a dollar sign is taken for a placeholder if a name or a
digit follows it, and is left alone if another dollar sign follows or the identifier ends.

`left_alone_iff` says so of each dollar sign that continues an identifier, and of statements
that have no other placeholders.  `identifier_rewritten` has an identifier that becomes a
placeholder, and one for which a statement is refused.
-/

namespace ConnectionPool

namespace Placeholder

variable {args : Record Value} {tokens before behind : List Token} {token : Token}
  {cs front rest word : List Char} {c : Char} {sql : String}

/-- A statement with named arguments does not keep the token. -/
def Token.isPlaceholder : Token → Bool
  | named _ _ => true
  | positional _ => true
  | _ => false

/-! ## Identifiers -/

/-- The character may continue an unquoted identifier. -/
def isWordRest (c : Char) : Bool := isNameRest c || c == '$'

/-- A token of the text begins behind `front`. -/
def Starts (cs front : List Char) : Prop :=
  ∃ before behind, Lexed cs (before ++ behind) ∧ before.flatMap Token.text = front

/-- A dollar sign between two parts of a text continues an unquoted identifier: one that began
outside of literals, quoted identifiers and comments, with a character that begins a name, and
neither behind a sigil nor within a number. -/
def Continues (front rest : List Char) : Prop :=
  ∃ before word, front = before ++ word ∧ Starts (front ++ '$' :: rest) before ∧
    (∀ c ∈ before.getLast?, isWordRest c = false ∧ isSigil c = false) ∧
    word.head?.any isNameStart ∧ ∀ c ∈ word, isWordRest c

/-- All placeholders of a text are dollar signs that continue identifiers. -/
def OnlyInIdentifiers (cs : List Char) : Prop :=
  ∀ before token behind, Lexed cs (before ++ token :: behind) → token.isPlaceholder →
    ∃ rest, cs = before.flatMap Token.text ++ '$' :: rest ∧
      Continues (before.flatMap Token.text) rest

/-! ## Scanning from within a text -/

theorem isNameRest_eq (c : Char) : isNameRest c = (isNameStart c || c.isDigit) := by
  rw [isNameRest, isNameStart, Char.isAlphanum, Bool.or_right_comm c.isAlpha, Bool.or_right_comm]

/-- What is found behind some tokens is what a scan of the text behind them finds. -/
theorem Token.scan_behind (scanned : scan cs = before ++ behind) :
    ∃ rest, cs = before.flatMap text ++ rest ∧ behind = scan rest := by
  induction before generalizing cs with
  | nil => exact ⟨cs, rfl, scanned.symm⟩
  | cons token before ih =>
      have step (tail : List Char) (first : token.text ++ tail = cs)
          (later : scan tail = before ++ behind) :
          ∃ rest, cs = (token :: before).flatMap text ++ rest ∧ behind = scan rest := by
        obtain ⟨rest, rfl, eq⟩ := ih later
        exact ⟨rest, by rw [← first, List.flatMap_cons, List.append_assoc], eq⟩
      cases cs with
      | nil => rw [scan] at scanned; cases scanned
      | cons c cs =>
          cases opens : opening? (c :: cs) with
          | some found =>
              rw [scan, opens] at scanned
              obtain ⟨rfl, later⟩ := List.cons.inj scanned
              exact step _ (Bytes.region_append opens) later
          | none =>
              rw [scan, opens] at scanned
              obtain ⟨rfl, later⟩ := List.cons.inj scanned
              exact step _ (text_next c cs) later

theorem next_text_pos (c : Char) (cs : List Char) : 0 < (Token.next c cs).1.text.length := by
  unfold Token.next
  repeat' split
  all_goals exact Nat.zero_lt_succ _

theorem Token.scan_code_cons (none : opening? (c :: cs) = none) :
    scan (c :: cs) = (next c cs).1 :: scan (next c cs).2 := by
  rw [scan, none]

/-- No region begins with a character of an identifier. -/
theorem opening?_word (inside : isWordRest c) (cs : List Char) : opening? (c :: cs) = none := by
  by_cases dollar : c = '$'
  · rw [dollar]
    rfl
  rw [opening?_eq_none_iff]
  intro opens
  obtain ⟨d, rest, eq, -, other⟩ := opens.head
  obtain ⟨rfl, -⟩ := List.cons.inj eq
  rw [isWordRest, other, beq_false_of_ne dollar] at inside
  cases inside

/-- The token at a character before a dollar sign ends before the dollar sign. -/
theorem next_before (c : Char) (word rest : List Char) :
    ∃ left, (Token.next c (word ++ '$' :: rest)).2 = left ++ '$' :: rest ∧
      (Token.next c (word ++ '$' :: rest)).1.text ++ left = c :: word := by
  have ends : ∃ left, (Token.next c (word ++ '$' :: rest)).2 = left ++ '$' :: rest := by
    have name : (word ++ '$' :: rest).dropWhile isNameRest =
        word.dropWhile isNameRest ++ '$' :: rest := by
      have dollar : isNameRest '$' = false := by decide
      rw [List.dropWhile_append, List.dropWhile_cons_of_neg (by rw [dollar]; decide)]
      split
      · rename_i empty
        rw [List.isEmpty_iff.mp empty, List.nil_append]
      · rfl
    unfold Token.next
    repeat' split
    all_goals first | exact ⟨_, name⟩ | exact ⟨word, rfl⟩
  obtain ⟨left, eq⟩ := ends
  have whole := Token.text_next c (word ++ '$' :: rest)
  rw [eq, ← List.append_assoc, ← List.cons_append] at whole
  exact ⟨left, eq, List.append_cancel_right whole⟩

/-- A token begins at each dollar sign behind the characters of an identifier. -/
theorem Token.scan_word {word : List Char} (inside : ∀ c ∈ word, isWordRest c) (rest : List Char) :
    ∃ before, scan (word ++ '$' :: rest) = before ++ scan ('$' :: rest) ∧
      before.flatMap text = word := by
  match word with
  | [] => exact ⟨[], rfl, rfl⟩
  | c :: word =>
      obtain ⟨left, found, whole⟩ := next_before c word rest
      have shorter : left.length < (c :: word).length := by
        have := (next_text_pos c (word ++ '$' :: rest))
        rw [← whole, List.length_append]
        omega
      obtain ⟨before, scanned, eq⟩ := scan_word
        (fun d mem => inside d (whole ▸ List.mem_append_right _ mem)) rest
      refine ⟨(next c (word ++ '$' :: rest)).1 :: before, ?_, ?_⟩
      · rw [List.cons_append, scan_code_cons (opening?_word (inside c List.mem_cons_self) _), found,
          scanned, List.cons_append]
      · rw [List.flatMap_cons, eq, whole]
termination_by word.length
decreasing_by exact shorter

/-! ## Dollar signs that continue an identifier -/

theorem next_dollar_isPlaceholder (rest : List Char) :
    (Token.next '$' rest).1.isPlaceholder = rest.head?.any isNameRest := by
  have parts : rest.head?.any isNameRest =
      (rest.head?.any isNameStart || rest.head?.any Char.isDigit) := by
    cases rest with
    | nil => rfl
    | cons c rest => exact isNameRest_eq c
  rw [parts, Token.next, if_neg (by decide)]
  cases digit : rest.head?.any Char.isDigit <;> cases start : rest.head?.any isNameStart <;> rfl

/-- What is found at a dollar sign that continues an identifier. -/
theorem Continues.found (continues : Continues front rest) :
    ∃ before behind, Token.scan (front ++ '$' :: rest) =
      before ++ (Token.next '$' rest).1 :: behind ∧ before.flatMap Token.text = front := by
  obtain ⟨outside, word, rfl, ⟨before, behind, lexed, whole⟩, -, -, inside⟩ := continues
  obtain ⟨tail, eq, rfl⟩ := Token.scan_behind (lexed_iff.mp lexed).symm
  rw [whole, List.append_assoc, List.append_cancel_left_eq] at eq
  obtain ⟨within, scanned, spelled⟩ := Token.scan_word inside rest
  refine ⟨before ++ within, Token.scan (Token.next '$' rest).2, ?_, ?_⟩
  · rw [← lexed_iff.mp lexed, ← eq, scanned, List.append_assoc,
      Token.scan_code_cons (c := '$') rfl]
  · rw [List.flatMap_append, whole, spelled]

/-- A statement is returned unchanged and without values exactly when its text has no
placeholder. -/
theorem prepare_eq_self_iff (sql : String) (args : Record Value) :
    Statement.prepare ⟨sql, .named args⟩ = .ok (sql, []) ↔
      ∀ token ∈ Token.scan sql.toList, token.isPlaceholder = false := by
  have kinds (token : Token) : token.isPlaceholder = false ↔
      token.name? = none ∧ token.mark? = none := by
    cases token <;> simp [Token.isPlaceholder, Token.name?, Token.mark?]
  simp only [kinds]
  generalize scanned : Token.scan sql.toList = tokens
  constructor
  · intro prepared token mem
    obtain ⟨-, assigned⟩ := values_of_prepare (lexed_iff.mpr scanned.symm) prepared
    have unnamed : names tokens = [] := (List.map_eq_nil_iff.mp assigned.symm)
    have unmarked := unmarked_of_prepare prepared
    rw [scanned] at unmarked
    refine ⟨?_, Token.mark?_eq_none_iff.mpr fun m is => unmarked m (is ▸ mem)⟩
    refine Option.eq_none_iff_forall_ne_some.mpr fun name named => ?_
    obtain ⟨p, rfl⟩ := Token.name?_eq_some_iff.mp named
    exact List.not_mem_nil (unnamed ▸ mem_names.mpr ⟨p, mem⟩)
  · intro none
    have unmarked : tokens.findSome? Token.mark? = Option.none :=
      List.findSome?_eq_none_iff.mpr fun token mem => (none token mem).2
    have unnamed : names tokens = [] := by
      have listed : tokens.filterMap Token.name? = [] :=
        List.filterMap_eq_nil_iff.mpr fun token mem => (none token mem).1
      rw [names, listed]
      rfl
    have same : tokens.flatMap (Token.numbered []) = sql.toList := by
      rw [← flatMap_text_scan sql.toList, scanned]
      refine List.flatMap_congr fun token mem => numbered_unnamed (none token mem).1 []
    simp only [Statement.prepare, expand_tokens, scanned, unmarked, unnamed, same,
      String.ofList_toList, List.map_nil]

/-- A dollar sign that continues an identifier is left alone exactly when neither a name nor a
digit follows it.  So a statement without other placeholders is returned unchanged and without
values exactly when no dollar sign of an identifier has one of them behind it. -/
theorem left_alone_iff (sql : String) (args : Record Value) :
    (∀ front rest, sql.toList = front ++ '$' :: rest → Continues front rest →
      ∃ before token behind, Lexed sql.toList (before ++ token :: behind) ∧
        before.flatMap Token.text = front ∧
        (token.isPlaceholder = false ↔ rest.head?.any isNameRest = false)) ∧
    (OnlyInIdentifiers sql.toList →
      (Statement.prepare ⟨sql, .named args⟩ = .ok (sql, []) ↔
        ∀ front rest, sql.toList = front ++ '$' :: rest → Continues front rest →
          rest.head?.any isNameRest = false)) := by
  have first (front rest : List Char) (eq : sql.toList = front ++ '$' :: rest)
      (continues : Continues front rest) : ∃ before token behind,
        Lexed sql.toList (before ++ token :: behind) ∧ before.flatMap Token.text = front ∧
          (token.isPlaceholder = false ↔ rest.head?.any isNameRest = false) := by
    obtain ⟨before, behind, scanned, whole⟩ := continues.found
    refine ⟨before, (Token.next '$' rest).1, behind, lexed_iff.mpr ?_, whole, ?_⟩
    · rw [eq, scanned]
    · rw [next_dollar_isPlaceholder]
  refine ⟨first, fun only => ?_⟩
  rw [prepare_eq_self_iff]
  constructor
  · intro none front rest eq continues
    obtain ⟨before, token, behind, lexed, -, alone⟩ := first front rest eq continues
    refine alone.mp (none token ?_)
    rw [← lexed_iff.mp lexed]
    exact List.mem_append_right _ List.mem_cons_self
  · intro ends token mem
    obtain ⟨before, behind, scanned⟩ := List.append_of_mem mem
    refine Bool.eq_false_iff.mpr fun placed => ?_
    obtain ⟨rest, eq, continues⟩ := only before token behind (lexed_iff.mpr scanned.symm) placed
    -- The token is the one found at the dollar sign.
    obtain ⟨tail, whole, later⟩ := Token.scan_behind scanned
    rw [eq, List.append_cancel_left_eq] at whole
    rw [← whole, Token.scan_code_cons (c := '$') rfl] at later
    rw [(List.cons.inj later).1, next_dollar_isPlaceholder, ends _ rest eq continues] at placed
    cases placed

/-- An identifier with a dollar sign before a letter is no statement without placeholders. -/
theorem left_alone_iff_letter : OnlyInIdentifiers "a$b".toList ∧ Continues ['a'] ['b'] ∧
    Statement.prepare ⟨"a$b", .named .empty⟩ ≠ .ok ("a$b", []) := by
  have scanned : Token.scan ['a', '$', 'b'] = [.plain 'a', .named '$' ['b']] := by decide +kernel
  have continues : Continues ['a'] ['b'] := by
    refine ⟨[], ['a'], rfl, ⟨[], _, lexed_iff.mpr rfl, rfl⟩, ?_⟩
    simp [isNameStart, isWordRest, isNameRest]
  have only : OnlyInIdentifiers "a$b".toList := by
    intro before token behind lexed placed
    have eq := (lexed_iff.mp lexed).trans scanned
    cases before with
    | nil =>
        rw [(List.cons.inj eq).1] at placed
        cases placed
    | cons first more =>
        cases more with
        | nil =>
            rw [(List.cons.inj eq).1]
            exact ⟨['b'], rfl, continues⟩
        | cons second more =>
            have length := congrArg List.length eq
            simp at length
  refine ⟨only, continues, fun prepared => ?_⟩
  have ends := ((left_alone_iff "a$b" .empty).2 only).mp prepared ['a'] ['b'] rfl continues
  cases ends

example : Statement.prepare ⟨"SELECT a$, b$$ FROM t", .named .empty⟩ =
    .ok ("SELECT a$, b$$ FROM t", []) := by decide +kernel

/-- An identifier is cut by a placeholder that nobody wrote, and one with a digit behind its
dollar sign is refused. -/
theorem identifier_rewritten :
    Continues "SELECT a".toList "b FROM t".toList ∧
    Statement.prepare ⟨"SELECT a$b FROM t", .named .empty⟩ = .ok ("SELECT a?1 FROM t", [.null]) ∧
    Continues "SELECT a".toList "1 FROM t".toList ∧
    Statement.prepare ⟨"SELECT a$1 FROM t", .named .empty⟩ = .error (.invalidArguments
      "positional placeholder '$N' in a statement bound with named arguments") := by
  have starts (rest : List Char) (outside : List Token)
      (scanned : outside <+: Token.scan ("SELECT a".toList ++ '$' :: rest))
      (whole : outside.flatMap Token.text = "SELECT ".toList) :
      Continues "SELECT a".toList rest := by
    obtain ⟨behind, eq⟩ := scanned
    refine ⟨"SELECT ".toList, ['a'], rfl, ⟨outside, behind, lexed_iff.mpr eq, whole⟩, ?_⟩
    simp [isNameStart, isWordRest, isNameRest, isSigil]
  refine ⟨starts _ ("SELECT ".toList.map .plain) ?_ ?_, ?_,
    starts _ ("SELECT ".toList.map .plain) ?_ ?_, ?_⟩
  all_goals decide +kernel

end Placeholder

end ConnectionPool
