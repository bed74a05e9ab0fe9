import ConnectionPool.Proofs.Placeholder.Numbering

/-!
# What a rewriting keeps

The new text of a statement is read by the grammar of the old one.  It has the same regions
and the same plain characters in the same order.  Where a placeholder by name stood there is a
question mark, and behind it stand the digits of its number and no other digit.

Two facts carry this.  What comes in place of a token begins as the token does, except that a
question mark comes in place of a sigil, and no character is read differently before the one
than before the other (`head_replaced`).  And a name ends where no digit follows, so the digits
of a number end where the name did (`digits_end`).

`rewriting_preserves` says it for every statement that is accepted, and that the old text comes
back when each number is replaced by its name.
-/

namespace ConnectionPool

namespace Placeholder

variable {args : Record Value} {tokens rest : List Token} {token : Token} {cs digits name : List Char}
  {order : List (List Char)} {c p : Char} {sql text : String} {values : List Value}

/-! ## Pieces of a text -/

/-- A piece of a rewritten text. -/
inductive Piece where
  /-- A token that is no question mark and no digit behind one. -/
  | kept (token : Token)
  /-- A question mark with all the digits that follow it. -/
  | slot (digits : List Char)
  deriving DecidableEq, Repr

/-- The token is a digit in code. -/
def Token.isDigit : Token → Bool
  | plain c => c.isDigit
  | _ => false

/-- The pieces of some tokens.  A question mark takes as many digits as follow. -/
def pieces : List Token → List Piece
  | [] => []
  | .positional .question :: rest =>
    .slot ((rest.takeWhile Token.isDigit).flatMap Token.text) ::
      pieces (rest.dropWhile Token.isDigit)
  | token :: rest => .kept token :: pieces rest
termination_by tokens => tokens.length
decreasing_by
  · have := (List.dropWhile_suffix (l := rest) Token.isDigit).length_le
    simp only [List.length_cons]
    omega
  · simp

/-- What becomes of a token when these names are numbered. -/
def Token.piece (order : List (List Char)) : Token → Piece
  | named _ name => .slot (Nat.toDigits 10 (order.idxOf name + 1))
  | token => .kept token

/-- The sigil of a placeholder by name. -/
def Token.sigil? : Token → Option Char
  | named p _ => some p
  | _ => none

/-- The text of some pieces when each number is replaced by its name, behind the sigils in
order. -/
def restore (order : List (List Char)) : List Char → List Piece → List Char
  | p :: sigils, .slot digits :: rest =>
    p :: (order[Nat.ofDigitChars 10 digits 0 - 1]?.getD []) ++ restore order sigils rest
  | sigils, .kept token :: rest => token.text ++ restore order sigils rest
  | _, _ => []

/-! ## Scanning the new text -/

/-- What a scan of the new text finds in place of a token. -/
def Token.replacement (order : List (List Char)) : Token → List Token
  | named _ name =>
    .positional .question :: (Nat.toDigits 10 (order.idxOf name + 1)).map .plain
  | token => [token]

/-- Some tokens as the new text has them. -/
def replaced (order : List (List Char)) (tokens : List Token) : List Char :=
  tokens.flatMap (Token.numbered order)

theorem Token.numbered_named : numbered order (.named p name) =
    '?' :: Nat.toDigits 10 (order.idxOf name + 1) := by
  simp [numbered, slot]

/-- The text begins as another does, if a question mark is taken for a sigil. -/
def Alike (cs rest : List Char) : Prop :=
  ∀ P : Char → Bool, (∀ c ∈ ['?', ':', '@', '$'], P c = false) → rest.head?.any P = cs.head?.any P

/-- The first token of a text begins as the text, and is a placeholder by name only behind a
sigil. -/
theorem Token.scan_cons (c : Char) (cs : List Char) : ∃ token tail more,
    scan (c :: cs) = token :: tail ∧ token.text = c :: more ∧ (token.name?.isSome → isSigil c) := by
  cases opens : opening? (c :: cs) with
  | some found =>
      obtain ⟨width, mark⟩ := found
      obtain ⟨n, rfl⟩ := Nat.exists_eq_add_one.mpr (width_pos_of_opening? opens)
      rw [scan, opens]
      exact ⟨_, _, _, rfl, rfl, fun named => absurd named Bool.false_ne_true⟩
  | none =>
      rw [scan, opens]
      refine ⟨_, _, (next c cs).1.text.tail, rfl, ?_, ?_⟩ <;> unfold next <;> repeat' split
      all_goals simp_all [text, name?]

theorem alike_replaced (order : List (List Char)) (cs : List Char) :
    Alike cs (replaced order (Token.scan cs)) := by
  intro P blind
  cases cs with
  | nil => rw [Token.scan]; rfl
  | cons c cs =>
      obtain ⟨token, tail, more, scanned, text, sigil⟩ := Token.scan_cons c cs
      rw [scanned, replaced, List.flatMap_cons]
      cases named : token.name? with
      | none => rw [numbered_unnamed named, text]; rfl
      | some name =>
          obtain ⟨p, rfl⟩ := Token.name?_eq_some_iff.mp named
          have sign : c ∈ [':', '@', '$'] := mem_sigils.mpr (sigil rfl)
          rw [Token.numbered_named]
          exact (blind '?' (by simp)).trans (blind c (List.mem_cons_of_mem _ sign)).symm

/-- An opening is one character, or a second one follows that is no sigil. -/
theorem Fence.opening_cases {f : Fence} (mem : f ∈ fences) : ∃ a, f.opening = [a] ∨
    ∃ b, b ∉ ['?', ':', '@', '$'] ∧ f.opening = [a, b] := by
  simp only [fences, List.mem_cons, List.not_mem_nil, or_false] at mem
  rcases mem with rfl | rfl | rfl | rfl | rfl | rfl
  case inr.inr.inr.inr.inl => exact ⟨'-', .inr ⟨'-', by decide, rfl⟩⟩
  case inr.inr.inr.inr.inr => exact ⟨'/', .inr ⟨'*', by decide, rfl⟩⟩
  all_goals exact ⟨_, .inl rfl⟩

/-- Where no region begins, none begins in the new text. -/
theorem opening?_alike {rest : List Char} (alike : Alike cs rest)
    (code : opening? (c :: cs) = none) : opening? (c :: rest) = none := by
  rw [opening?_eq_none_iff] at code ⊢
  rintro ⟨f, mem, more, eq⟩
  refine code ⟨f, mem, ?_⟩
  obtain ⟨a, one | ⟨b, other, two⟩⟩ := Fence.opening_cases mem
  · rw [one] at eq ⊢
    obtain ⟨rfl, -⟩ := List.cons.inj eq
    exact ⟨cs, rfl⟩
  · rw [two] at eq ⊢
    obtain ⟨rfl, rfl⟩ := List.cons.inj eq
    -- The second character is no sigil, so it stands in the old text too.
    have same : (b == b) = cs.head?.any (· == b) :=
      alike (· == b) fun c mem => beq_false_of_ne fun is => other (is ▸ mem)
    rw [beq_self_eq_true] at same
    obtain ⟨e, found, is⟩ := (Option.any_eq_true _ _).mp same.symm
    obtain ⟨after, rfl⟩ := List.head?_eq_some_iff.mp (eq_of_beq is ▸ found)
    exact ⟨after, rfl⟩

theorem next_alike {rest : List Char} (alike : Alike cs rest)
    (plain : Token.next c cs = (.plain c, cs)) : Token.next c rest = (.plain c, rest) := by
  have digit := alike Char.isDigit (by simp)
  have start := alike isNameStart (by simp [isNameStart])
  unfold Token.next at plain ⊢
  rw [digit, start]
  split at plain
  · cases plain
  · split at plain
    · cases plain
    · split at plain
      · cases plain
      · rename_i question dollar sigil
        rw [if_neg question, if_neg dollar, if_neg sigil]

/-- Digits in code are plain. -/
theorem Token.scan_digits (all : ∀ d ∈ digits, d.isDigit) (cs : List Char) :
    scan (digits ++ cs) = digits.map .plain ++ scan cs := by
  induction digits with
  | nil => rfl
  | cons d digits ih =>
      have digit := all d List.mem_cons_self
      have code : opening? (d :: (digits ++ cs)) = none := by
        rw [opening?_eq_none_iff]
        intro opens
        obtain ⟨e, _, eq, none, -⟩ := opens.head
        rw [← (List.cons.inj eq).1, digit] at none
        cases none
      have plain : next d (digits ++ cs) = (.plain d, digits ++ cs) := by
        have ne : ∀ c ∈ ['?', '$', ':', '@'], d ≠ c := by
          rintro c mem rfl
          exact absurd digit ((by simp : ∀ c ∈ ['?', '$', ':', '@'], ¬ c.isDigit) d mem)
        simp only [List.mem_cons, List.not_mem_nil, or_false, forall_eq_or_imp, forall_eq] at ne
        simp [next, isSigil, ne]
      rw [List.cons_append, scan, code]
      simp only [plain, List.map_cons, List.cons_append]
      rw [ih fun d mem => all d (List.mem_cons_of_mem _ mem)]

/-- What a scan finds where no region begins. -/
theorem next_cases (c : Char) (cs : List Char) :
    (∃ m, (Token.next c cs).1 = .positional m) ∨
      (isSigil c ∧ Token.next c cs = (.named c (cs.takeWhile isNameRest), cs.dropWhile isNameRest)) ∨
      Token.next c cs = (.plain c, cs) := by
  unfold Token.next
  split
  · exact .inl ⟨_, rfl⟩
  · split
    · exact .inl ⟨_, rfl⟩
    · split
      · rename_i sigil
        exact .inr (.inl ⟨sigil.1, rfl⟩)
      · exact .inr (.inr rfl)

/-- Where a region begins, it is one before anything else, or nothing follows it. -/
theorem covers_of_opening? {width : Nat} {mark : List Char}
    (opens : opening? (c :: cs) = some (width, mark)) : ∃ f ∈ fences,
      f.Covers ((c :: cs).take width ++ (splitPast mark (cs.drop (width - 1))).1)
        (splitPast mark (cs.drop (width - 1))).2 := by
  obtain ⟨f, mem, starts, -, -⟩ := opening?_eq_some_iff.mp opens
  obtain ⟨f, mem, text, rest, eq, -, covers⟩ := Opens.covers ⟨f, mem, starts⟩
  have scanned := Token.scan_covered mem covers
  rw [← eq, Token.scan, opens] at scanned
  obtain ⟨region, -⟩ := List.cons.inj scanned
  have same := Token.region.inj region
  have whole := Bytes.region_append opens
  rw [same] at whole ⊢
  rw [List.append_cancel_left (whole.trans eq)]
  exact ⟨f, mem, covers⟩

theorem Fence.Covers.before {f : Fence} {region rest : List Char} (covers : f.Covers region cs)
    (last : cs = [] → rest = []) : f.Covers region rest := by
  obtain ⟨inside, eq, ends⟩ := covers
  exact ⟨inside, eq, ends.imp id fun ends => ⟨last ends.1, ends.2⟩⟩

/-- A scan of the new text finds what comes in place of the tokens. -/
theorem Token.scan_replaced (order : List (List Char)) (cs : List Char)
    (unmarked : ∀ m, .positional m ∉ scan cs) :
    scan (replaced order (scan cs)) = (scan cs).flatMap (replacement order) := by
  fun_induction scan cs with
  | case1 => rw [replaced, List.flatMap_nil, scan]; rfl
  | case2 c cs width mark opens ih =>
      obtain ⟨f, mem, covers⟩ := covers_of_opening? opens
      have last : (splitPast mark (cs.drop (width - 1))).2 = [] →
          replaced order (scan (splitPast mark (cs.drop (width - 1))).2) = [] := by
        intro none
        rw [none, scan]
        rfl
      rw [replaced, List.flatMap_cons, numbered_unnamed rfl, text, ← replaced,
        scan_covered mem (covers.before last),
        ih fun m mem => unmarked m (List.mem_cons_of_mem _ mem)]
      rfl
  | case3 c cs code ih =>
      have after := ih fun m mem => unmarked m (List.mem_cons_of_mem _ mem)
      rcases next_cases c cs with ⟨m, marked⟩ | ⟨sigil, found⟩ | found
      · exact absurd (List.mem_cons.mpr (.inl marked.symm)) (unmarked m)
      · rw [found] at after ⊢
        have digits : ∀ d ∈ Nat.toDigits 10 (order.idxOf (cs.takeWhile isNameRest) + 1),
            d.isDigit := fun d mem => Nat.isDigit_of_mem_toDigits (by decide) (by decide) mem
        rw [replaced, List.flatMap_cons, numbered_named, ← replaced, List.cons_append, scan,
          show opening? _ = none from rfl]
        simp only [next, if_true]
        rw [scan_digits digits, after]
        rfl
      · rw [found] at after ⊢
        have alike := alike_replaced order cs
        rw [replaced, List.flatMap_cons, ← replaced]
        show scan (c :: replaced order (scan cs)) = _
        rw [scan, opening?_alike alike code]
        simp only [next_alike alike found, after]
        rfl

/-! ## The pieces of the new text -/

theorem pieces_cons (other : token ≠ .positional .question) (rest : List Token) :
    pieces (token :: rest) = .kept token :: pieces rest := by
  rw [pieces]
  exact other

/-- Digits in code belong to the question mark before them, up to the first token that is none. -/
theorem pieces_slot (all : ∀ d ∈ digits, d.isDigit)
    (ends : rest.head?.any Token.isDigit = false) :
    pieces (.positional .question :: (digits.map .plain ++ rest)) = .slot digits :: pieces rest := by
  have plain : ∀ token ∈ digits.map Token.plain, token.isDigit := by
    intro token mem
    obtain ⟨d, member, rfl⟩ := List.mem_map.mp mem
    exact all d member
  have none : rest.takeWhile Token.isDigit = [] ∧ rest.dropWhile Token.isDigit = rest := by
    cases rest with
    | nil => exact ⟨rfl, rfl⟩
    | cons token rest =>
        have ends : token.isDigit = false := ends
        simp [ends]
  rw [pieces, List.takeWhile_append_of_pos plain, List.dropWhile_append_of_pos plain, none.1, none.2,
    List.append_nil, List.flatMap_map]
  exact congrArg (Piece.slot · :: pieces rest) (List.flatMap_singleton' digits)

/-- Where the old text has no digit, the new text has none. -/
theorem digits_end (order : List (List Char)) (ends : cs.head?.any Char.isDigit = false) :
    ((Token.scan cs).flatMap (Token.replacement order)).head?.any Token.isDigit = false := by
  cases cs with
  | nil => rw [Token.scan]; rfl
  | cons c cs =>
      obtain ⟨token, tail, more, scanned, text, -⟩ := Token.scan_cons c cs
      rw [scanned]
      cases token with
      | plain d => exact (List.cons.inj text).1 ▸ ends
      | region _ => rfl
      | named _ _ => rfl
      | positional _ => rfl

/-- No digit follows the longest name. -/
theorem no_digit_behind (cs : List Char) :
    (cs.dropWhile isNameRest).head?.any Char.isDigit = false := by
  have ends := List.head?_dropWhile_not isNameRest cs
  generalize (cs.dropWhile isNameRest).head? = head at ends
  cases head with
  | none => rfl
  | some d =>
      have ends : isNameRest d = false := by simpa using ends
      simp only [isNameRest, Char.isAlphanum, Bool.or_eq_false_iff] at ends
      exact ends.1.1.2

theorem pieces_replaced (order : List (List Char)) (cs : List Char)
    (unmarked : ∀ m, .positional m ∉ Token.scan cs) :
    pieces ((Token.scan cs).flatMap (Token.replacement order)) =
      (Token.scan cs).map (Token.piece order) := by
  fun_induction Token.scan cs with
  | case1 => rw [List.flatMap_nil, pieces]; rfl
  | case2 c cs width mark opens ih =>
      rw [List.map_cons, ← ih fun m mem => unmarked m (List.mem_cons_of_mem _ mem)]
      exact pieces_cons (show Token.region _ ≠ .positional .question from fun is => by cases is) _
  | case3 c cs code ih =>
      have after := ih fun m mem => unmarked m (List.mem_cons_of_mem _ mem)
      rcases next_cases c cs with ⟨m, marked⟩ | ⟨sigil, found⟩ | found
      · exact absurd (List.mem_cons.mpr (.inl marked.symm)) (unmarked m)
      · rw [found] at after ⊢
        rw [List.map_cons, ← after]
        exact pieces_slot (fun d mem => Nat.isDigit_of_mem_toDigits (by decide) (by decide) mem)
          (digits_end order (no_digit_behind cs))
      · rw [found] at after ⊢
        rw [List.map_cons, ← after]
        exact pieces_cons (show Token.plain c ≠ .positional .question from fun is => by cases is) _

theorem restore_kept (order : List (List Char)) (sigils : List Char) (token : Token)
    (rest : List Piece) : restore order sigils (.kept token :: rest) =
      token.text ++ restore order sigils rest := by
  cases sigils <;> rfl

/-- The old text comes back when each number is replaced by its name. -/
theorem restore_pieces (listed : ∀ p name, .named p name ∈ tokens → name ∈ order) :
    restore order (tokens.filterMap Token.sigil?) (tokens.map (Token.piece order)) =
      tokens.flatMap Token.text := by
  induction tokens with
  | nil => rfl
  | cons token tokens ih =>
      have after := ih fun p name mem => listed p name (List.mem_cons_of_mem _ mem)
      cases token with
      | named p name =>
          have named : order[order.idxOf name]? = some name :=
            List.getElem?_idxOf (listed p name List.mem_cons_self)
          simp [Token.sigil?, Token.piece, restore, named, after, Token.text]
      | _ =>
          rw [List.filterMap_cons_none rfl, List.map_cons, List.flatMap_cons, ← after]
          exact restore_kept ..

/-! ## The whole text -/

/-- What the new text of a statement keeps of the old one, which has these tokens. -/
structure Preserves (sql text : String) (values : List Value) (tokens found : List Token) :
    Prop where
  /-- The grammar has these tokens for the old text, and no others. -/
  source : ∀ others, Lexed sql.toList others ↔ others = tokens
  /-- The grammar has other ones for the new text, and no others. -/
  result : ∀ others, Lexed text.toList others ↔ others = found
  /-- Regions and plain characters are the same, in the same order.  In place of a placeholder
  there is a question mark with all digits of its number, and no digit follows that is not its
  own. -/
  same : pieces found = tokens.map (Token.piece (names tokens))
  /-- There is a value for each number. -/
  bound : ∀ digits, .slot digits ∈ pieces found →
    1 ≤ Nat.ofDigitChars 10 digits 0 ∧ Nat.ofDigitChars 10 digits 0 ≤ values.length
  /-- With the names for the numbers it is the old text again. -/
  restored : restore (names tokens) (tokens.filterMap Token.sigil?) (pieces found) = sql.toList

theorem unmarked_of_prepare
    (prepared : Statement.prepare ⟨sql, .named args⟩ = .ok (text, values)) :
    ∀ m, .positional m ∉ Token.scan sql.toList := by
  simp only [Statement.prepare, expand_tokens] at prepared
  rw [← findSome?_mark?_eq_none_iff]
  cases found : (Token.scan sql.toList).findSome? Token.mark? with
  | some m => simp [found] at prepared
  | none => rfl

/-- The new text of a statement that is accepted has the regions and the code of the old one. -/
theorem rewriting_preserves
    (prepared : Statement.prepare ⟨sql, .named args⟩ = .ok (text, values)) :
    ∃ tokens found, Preserves sql text values tokens found := by
  have source : ∀ others, Lexed sql.toList others ↔ others = Token.scan sql.toList :=
    fun others => lexed_iff
  generalize scanned : Token.scan sql.toList = tokens at source
  obtain ⟨rewritten, assigned⟩ := values_of_prepare ((source tokens).mpr rfl) prepared
  have unmarked := unmarked_of_prepare prepared
  have rescanned := Token.scan_replaced (names tokens) sql.toList unmarked
  have same := pieces_replaced (names tokens) sql.toList unmarked
  rw [scanned] at rescanned same
  refine ⟨tokens, _, source, ?_, same, ?_, ?_⟩
  · intro others
    rw [lexed_iff, ← rescanned, rewritten, String.toList_ofList, replaced]
  · intro digits mem
    rw [same, List.mem_map] at mem
    obtain ⟨token, mem, piece⟩ := mem
    cases token with
    | named p name =>
        cases piece
        have rank := List.idxOf_lt_length_of_mem (mem_names.mpr ⟨p, mem⟩)
        rw [Nat.ofDigitChars_ten_toDigits, assigned, List.length_map]
        omega
    | region _ => cases piece
    | plain _ => cases piece
    | positional _ => cases piece
  · rw [same, restore_pieces fun p name mem => mem_names.mpr ⟨p, mem⟩, ← scanned]
    exact flatMap_text_scan sql.toList

/-- Names before a digit, a line comment, a literal and another placeholder, and a region that is
not closed. -/
theorem rewriting_preserves_adjacent :
    let sql := "x:a--:b\n12@b$a':c'@b/*:a"
    let args := Record.ofList [("a", .integer 1)]
    Statement.prepare ⟨sql, .named args⟩ =
        .ok ("x?1--:b\n12?2?1':c'?2/*:a", [.integer 1, .null]) ∧
      ∃ tokens found, Preserves sql "x?1--:b\n12?2?1':c'?2/*:a" [.integer 1, .null] tokens found := by
  intro sql args
  have prepared : Statement.prepare ⟨sql, .named args⟩ =
      .ok ("x?1--:b\n12?2?1':c'?2/*:a", [.integer 1, .null]) := by decide +kernel
  exact ⟨prepared, rewriting_preserves prepared⟩

end Placeholder

end ConnectionPool
