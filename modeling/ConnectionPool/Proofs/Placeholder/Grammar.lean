import ConnectionPool.Placeholder

/-!
# The grammar of placeholders

What a placeholder is, said without a scanner.  A text is first split into regions and
code.  A region begins with one of six openings and goes through the next closing of its
kind, or to the end of the text when there is none.  Code is what lies between, and is as
long as possible.  Each piece of code is then read by itself, from left to right: a
placeholder takes the longest name after its sigil, and what is part of no placeholder is
plain.

`lexed_iff` says that `Token.scan`, which does both at once and one character at a time,
finds exactly the tokens of the grammar.  The two agree because no character that opens a
region is a digit or belongs to a name, so a piece of code is read alike alone and within
its text.
-/

namespace ConnectionPool

namespace Placeholder

variable {cs rest text inside mark name : List Char} {c d p : Char}

/-! ## Regions -/

/-- How a region begins and ends. -/
structure Fence where
  /-- What it begins with. -/
  opening : List Char
  /-- What it ends with. -/
  closing : List Char

/-- Literals, quoted identifiers and comments. -/
def fences : List Fence :=
  [⟨['\x27'], ['\x27']⟩, ⟨['"'], ['"']⟩, ⟨['\x60'], ['\x60']⟩, ⟨['['], [']']⟩,
    ⟨['-', '-'], ['\n']⟩, ⟨['/', '*'], ['*', '/']⟩]

/-- A region begins here. -/
def Opens (cs : List Char) : Prop := ∃ f ∈ fences, f.opening <+: cs

/-- The text ends with the mark, which stands nowhere before. -/
def EndsFirst (mark text : List Char) : Prop :=
  mark <:+ text ∧ ∀ before after, text = before ++ mark ++ after → after = []

/-- The text is a region when `rest` follows. -/
def Fence.Covers (f : Fence) (text rest : List Char) : Prop :=
  ∃ inside, text = f.opening ++ inside ∧
    (EndsFirst f.closing inside ∨ rest = [] ∧ ¬ f.closing <:+: inside)

/-! ## Code -/

/-- No region begins within the text when `rest` follows. -/
def IsCode (text rest : List Char) : Prop :=
  ∀ before after, text = before ++ after → after ≠ [] → ¬ Opens (after ++ rest)

/-- A name: as long as characters that may continue a name follow one that may begin it. -/
def IsName (name : List Char) : Prop :=
  name.head?.any isNameStart ∧ ∀ c ∈ name, isNameRest c

/-- Code is read as tokens. -/
inductive Reads : List Char → List Token → Prop where
  | done : Reads [] []
  | question {rest : List Char} {tokens : List Token} : Reads rest tokens →
      Reads ('?' :: rest) (.positional .question :: tokens)
  | dollar {rest : List Char} {tokens : List Token} : rest.head?.any Char.isDigit →
      Reads rest tokens → Reads ('$' :: rest) (.positional .dollar :: tokens)
  | named {p : Char} {name rest : List Char} {tokens : List Token} : p ∈ [':', '@', '$'] →
      IsName name → (∀ c ∈ rest.head?, isNameRest c = false) → Reads rest tokens →
      Reads (p :: (name ++ rest)) (.named p name :: tokens)
  | plain {c : Char} {rest : List Char} {tokens : List Token} : c ≠ '?' →
      ¬ (c = '$' ∧ rest.head?.any Char.isDigit) →
      ¬ (c ∈ [':', '@', '$'] ∧ rest.head?.any isNameStart) → Reads rest tokens →
      Reads (c :: rest) (.plain c :: tokens)

/-- A text is split into regions and the longest pieces of code between them, and each piece
of code is read. -/
inductive Lexed : List Char → List Token → Prop where
  | done : Lexed [] []
  | code {text rest : List Char} {read tokens : List Token} : text ≠ [] → IsCode text rest →
      rest = [] ∨ Opens rest → Reads text read → Lexed rest tokens →
      Lexed (text ++ rest) (read ++ tokens)
  | region {f : Fence} {text rest : List Char} {tokens : List Token} : f ∈ fences →
      f.Covers text rest → Lexed rest tokens → Lexed (text ++ rest) (.region text :: tokens)

/-! ## Where a region begins -/

theorem opening?_eq_some_iff {width : Nat} : opening? cs = some (width, mark) ↔
    ∃ f ∈ fences, f.opening <+: cs ∧ width = f.opening.length ∧ mark = f.closing := by
  constructor
  · intro opens
    unfold opening? at opens
    split at opens <;> simp only [Option.some.injEq, Prod.mk.injEq, reduceCtorEq] at opens <;>
      obtain ⟨rfl, rfl⟩ := opens <;> simp [fences]
  · rintro ⟨f, mem, ⟨rest, rfl⟩, rfl, rfl⟩
    simp only [fences, List.mem_cons, List.not_mem_nil, or_false] at mem
    rcases mem with rfl | rfl | rfl | rfl | rfl | rfl <;> rfl

theorem opening?_eq_none_iff : opening? cs = none ↔ ¬ Opens cs := by
  rw [Option.eq_none_iff_forall_ne_some]
  constructor
  · rintro absent ⟨f, mem, isPrefix⟩
    exact absent _ (opening?_eq_some_iff.mpr ⟨f, mem, isPrefix, rfl, rfl⟩)
  · rintro absent ⟨width, mark⟩ opens
    obtain ⟨f, mem, isPrefix, -⟩ := opening?_eq_some_iff.mp opens
    exact absent ⟨f, mem, isPrefix⟩

theorem Fence.nonempty : ∀ f ∈ fences, f.opening ≠ [] ∧ f.closing ≠ [] := by decide

/-- What opens a region is no digit and belongs to no name. -/
theorem Opens.head (opens : Opens cs) :
    ∃ c rest, cs = c :: rest ∧ c.isDigit = false ∧ isNameRest c = false := by
  obtain ⟨f, mem, rest, rfl⟩ := opens
  simp only [fences, List.mem_cons, List.not_mem_nil, or_false] at mem
  rcases mem with rfl | rfl | rfl | rfl | rfl | rfl <;> exact ⟨_, _, rfl, by decide, by decide⟩

/-! ## Where a region ends -/

theorem splitPast_of_endsFirst (nonempty : mark ≠ []) (ends : EndsFirst mark inside) :
    splitPast mark (inside ++ rest) = (inside, rest) := by
  induction inside with
  | nil => exact absurd (List.suffix_nil.mp ends.1) nonempty
  | cons c inside ih =>
      rw [List.cons_append, splitPast]
      split
      · rename_i isPrefix
        have short : mark.length ≤ (c :: inside).length := ends.1.length_le
        obtain ⟨after, eq⟩ := List.prefix_of_prefix_length_le
          (List.isPrefixOf_iff_prefix.mp isPrefix) (List.prefix_append (c :: inside) rest) short
        have none : after = [] := ends.2 [] after eq.symm
        rw [none, List.append_nil] at eq
        rw [← List.cons_append, eq, List.take_left, List.drop_left]
      · rename_i isPrefix
        have tail : mark <:+ inside := by
          rcases List.suffix_cons_iff.mp ends.1 with eq | tail
          · exact absurd (List.isPrefixOf_iff_prefix.mpr ⟨rest, by rw [eq, List.cons_append]⟩)
              isPrefix
          · exact tail
        have first : ∀ before after, inside = before ++ mark ++ after → after = [] := by
          intro before after eq
          exact ends.2 (c :: before) after (by rw [eq]; rfl)
        rw [ih ⟨tail, first⟩]

theorem splitPast_of_not_infix (absent : ¬ mark <:+: cs) : splitPast mark cs = (cs, []) := by
  induction cs with
  | nil => rfl
  | cons c rest ih =>
      have isPrefix : ¬ mark.isPrefixOf (c :: rest) := fun h =>
        absent (List.isPrefixOf_iff_prefix.mp h).isInfix
      rw [splitPast, if_neg isPrefix, ih fun h => absent (List.infix_cons h)]

theorem exists_endsFirst (occurs : mark <:+: cs) :
    ∃ inside rest, cs = inside ++ rest ∧ EndsFirst mark inside := by
  induction cs with
  | nil =>
      obtain rfl := List.infix_nil.mp occurs
      exact ⟨[], [], rfl, List.suffix_rfl, fun before after eq =>
        (List.append_eq_nil_iff.mp eq.symm).2⟩
  | cons c cs ih =>
      by_cases isPrefix : mark <+: c :: cs
      · obtain ⟨rest, eq⟩ := isPrefix
        refine ⟨mark, rest, eq.symm, List.suffix_rfl, fun before after eq => ?_⟩
        have length := congrArg List.length eq
        simp only [List.length_append] at length
        exact List.length_eq_zero_iff.mp (by omega)
      · have tail := (List.infix_cons_iff.mp occurs).resolve_left isPrefix
        obtain ⟨inside, rest, rfl, ends⟩ := ih tail
        refine ⟨c :: inside, rest, rfl, ends.1.trans (List.suffix_cons c inside), ?_⟩
        intro before after eq
        cases before with
        | nil => exact absurd ⟨after ++ rest, by rw [← List.append_assoc]; exact eq ▸ rfl⟩ isPrefix
        | cons b before =>
            rw [List.cons_append, List.cons_append, List.cons.injEq] at eq
            exact ends.2 before after eq.2

/-- Where a region begins, one is found. -/
theorem Opens.covers (opens : Opens cs) :
    ∃ f ∈ fences, ∃ text rest, cs = text ++ rest ∧ text ≠ [] ∧ f.Covers text rest := by
  obtain ⟨f, mem, after, rfl⟩ := opens
  have nonempty := (Fence.nonempty f mem).1
  by_cases occurs : f.closing <:+: after
  · obtain ⟨inside, rest, rfl, ends⟩ := exists_endsFirst occurs
    exact ⟨f, mem, f.opening ++ inside, rest, (List.append_assoc ..).symm,
      List.append_ne_nil_of_left_ne_nil nonempty _, inside, rfl, .inl ends⟩
  · exact ⟨f, mem, f.opening ++ after, [], (List.append_nil _).symm,
      List.append_ne_nil_of_left_ne_nil nonempty _, after, rfl, .inr ⟨rfl, occurs⟩⟩

theorem Token.scan_covered {f : Fence} (mem : f ∈ fences) (covers : f.Covers text rest) :
    scan (text ++ rest) = .region text :: scan rest := by
  obtain ⟨inside, rfl, ends⟩ := covers
  have split : splitPast f.closing (inside ++ rest) = (inside, rest) := by
    rcases ends with ends | ⟨rfl, absent⟩
    · exact splitPast_of_endsFirst (Fence.nonempty f mem).2 ends
    · rw [List.append_nil]
      exact splitPast_of_not_infix absent
  have opens := opening?_eq_some_iff.mpr
    ⟨f, mem, List.prefix_append f.opening (inside ++ rest), rfl, rfl⟩
  obtain ⟨c, opening, eq⟩ := List.exists_cons_of_ne_nil (Fence.nonempty f mem).1
  rw [List.append_assoc]
  rw [eq] at opens ⊢
  rw [List.cons_append] at opens ⊢
  rw [scan, opens]
  simp [split]

/-! ## Reading code -/

theorem mem_sigils : c ∈ [':', '@', '$'] ↔ isSigil c := by
  simp [isSigil, or_assoc]

theorem isNameRest_of_isNameStart (begins : isNameStart c) : isNameRest c := by
  simp only [isNameStart, isNameRest, Char.isAlphanum, Bool.or_eq_true] at begins ⊢
  rcases begins with (alpha | score) | wide
  · exact .inl (.inl (.inl alpha))
  · exact .inl (.inr score)
  · exact .inr wide

theorem not_isDigit_of_isNameStart (begins : isNameStart c) : c.isDigit = false := by
  rw [Bool.eq_false_iff]
  intro digit
  simp only [Char.isDigit, Bool.and_eq_true, decide_eq_true_eq] at digit
  have low : c.val.toNat ≤ 57 := UInt32.le_iff_toNat_le.mp digit.2
  have alpha : c.isAlpha =
      (decide (65 ≤ c.val ∧ c.val ≤ 90) || (decide (97 ≤ c.val) && decide (c.val ≤ 122))) := rfl
  simp only [isNameStart, alpha, Bool.or_eq_true, Bool.and_eq_true, decide_eq_true_eq,
    beq_iff_eq] at begins
  rcases begins with ((upper | lower) | rfl) | wide
  · have : 65 ≤ c.val.toNat := upper.1
    omega
  · have : 97 ≤ c.val.toNat := lower.1
    omega
  · exact absurd low (by decide)
  · have : 128 ≤ c.val.toNat := wide
    omega

/-- The longest name at the beginning of a text. -/
theorem isName_takeWhile (begins : cs.head?.any isNameStart) :
    IsName (cs.takeWhile isNameRest) := by
  cases cs with
  | nil => cases begins
  | cons d cs =>
      refine ⟨?_, List.all_eq_true.mp List.all_takeWhile⟩
      rw [List.takeWhile_cons_of_pos (isNameRest_of_isNameStart begins)]
      exact begins

/-- Code can be read. -/
theorem exists_reads : ∀ cs : List Char, ∃ tokens, Reads cs tokens
  | [] => ⟨[], .done⟩
  | c :: rest => by
      obtain ⟨tokens, reads⟩ := exists_reads rest
      by_cases question : c = '?'
      · subst question
        exact ⟨_, .question reads⟩
      by_cases dollar : c = '$' ∧ rest.head?.any Char.isDigit
      · obtain ⟨rfl, digit⟩ := dollar
        exact ⟨_, .dollar digit reads⟩
      by_cases sigil : c ∈ [':', '@', '$'] ∧ rest.head?.any isNameStart
      · obtain ⟨tokens, reads⟩ := exists_reads (rest.dropWhile isNameRest)
        have stops : ∀ d ∈ (rest.dropWhile isNameRest).head?, isNameRest d = false := by
          intro d mem
          have := List.head?_dropWhile_not isNameRest rest
          rw [Option.mem_def.mp mem] at this
          simpa using this
        have named := Reads.named sigil.1 (isName_takeWhile sigil.2) stops reads
        rw [List.takeWhile_append_dropWhile] at named
        exact ⟨_, named⟩
      · exact ⟨_, .plain question dollar sigil reads⟩
termination_by cs => cs.length
decreasing_by
  · simp
  · have := (List.dropWhile_suffix (l := rest) isNameRest).length_le
    simp only [List.length_cons]
    omega

theorem IsCode.head (code : IsCode (c :: text) rest) : ¬ Opens (c :: (text ++ rest)) :=
  code [] (c :: text) rfl (List.cons_ne_nil c text)

theorem IsCode.tail (front : List Char) (code : IsCode (front ++ text) rest) :
    IsCode text rest := fun before after eq =>
  code (front ++ before) after (by rw [eq, List.append_assoc])

theorem isCode_nil (rest : List Char) : IsCode [] rest := fun _ _ eq nonempty =>
  absurd (List.append_eq_nil_iff.mp eq.symm).2 nonempty

theorem IsCode.cons (code : IsCode text rest) (head : ¬ Opens (c :: (text ++ rest))) :
    IsCode (c :: text) rest := by
  intro before after eq nonempty
  cases before with
  | nil => rwa [← List.nil_append after, ← eq]
  | cons b before => exact code before after (List.cons.inj eq).2 nonempty

/-- The longest code at the beginning of a text. -/
theorem exists_code (cs : List Char) :
    ∃ text rest, cs = text ++ rest ∧ IsCode text rest ∧ (rest = [] ∨ Opens rest) := by
  induction cs with
  | nil => exact ⟨[], [], rfl, isCode_nil [], .inl rfl⟩
  | cons c cs ih =>
      by_cases opens : Opens (c :: cs)
      · exact ⟨[], c :: cs, rfl, isCode_nil _, .inr opens⟩
      · obtain ⟨text, rest, rfl, code, ends⟩ := ih
        exact ⟨c :: text, rest, rfl, code.cons opens, ends⟩

theorem length_lt_append (nonempty : text ≠ []) (rest : List Char) :
    rest.length < (text ++ rest).length := by
  have := List.length_pos_iff.mpr nonempty
  rw [List.length_append]
  omega

/-- Every text can be lexed. -/
theorem exists_lexed (cs : List Char) : ∃ tokens, Lexed cs tokens := by
  by_cases none : cs = []
  · subst none
    exact ⟨[], .done⟩
  by_cases opens : Opens cs
  · obtain ⟨f, mem, text, rest, rfl, nonempty, covers⟩ := opens.covers
    have shorter := length_lt_append nonempty rest
    obtain ⟨tokens, lexed⟩ := exists_lexed rest
    exact ⟨_, .region mem covers lexed⟩
  · obtain ⟨text, rest, rfl, code, ends⟩ := exists_code cs
    have nonempty : text ≠ [] := by
      rintro rfl
      exact ends.elim none opens
    have shorter := length_lt_append nonempty rest
    obtain ⟨read, reads⟩ := exists_reads text
    obtain ⟨tokens, lexed⟩ := exists_lexed rest
    exact ⟨_, .code nonempty code ends reads lexed⟩
termination_by cs.length

/-! ## Scanning code -/

/-- What follows a piece of code does not change how its last character is read. -/
theorem head_append (ends : rest = [] ∨ Opens rest) {P : Char → Bool}
    (blind : ∀ c, c.isDigit = false → isNameRest c = false → P c = false) :
    (cs ++ rest).head?.any P = cs.head?.any P := by
  cases cs with
  | cons c cs => rfl
  | nil =>
      rcases ends with rfl | opens
      · rfl
      · obtain ⟨c, after, rfl, digit, name⟩ := opens.head
        exact blind c digit name

/-- The longest name ends where a character follows that belongs to none. -/
theorem span_name (isName : ∀ c ∈ name, isNameRest c)
    (stops : ∀ c ∈ cs.head?, isNameRest c = false) :
    (name ++ cs).takeWhile isNameRest = name ∧ (name ++ cs).dropWhile isNameRest = cs := by
  rw [List.takeWhile_append_of_pos isName, List.dropWhile_append_of_pos isName]
  cases cs with
  | nil => simp
  | cons c cs => simp [stops c rfl]

theorem stops_append (ends : rest = [] ∨ Opens rest)
    (stops : ∀ c ∈ cs.head?, isNameRest c = false) :
    ∀ c ∈ (cs ++ rest).head?, isNameRest c = false := by
  cases cs with
  | cons c cs => exact stops
  | nil =>
      rcases ends with rfl | opens
      · exact stops
      · obtain ⟨c, after, rfl, -, name⟩ := opens.head
        intro d mem
        exact Option.some.inj mem ▸ name

/-- No region begins at the first character of code. -/
theorem Token.scan_isCode (code : IsCode (c :: text) rest) :
    scan (c :: (text ++ rest)) =
      (next c (text ++ rest)).1 :: scan (next c (text ++ rest)).2 := by
  rw [scan, opening?_eq_none_iff.mpr code.head]

/-- Code is read alike alone and within its text. -/
theorem Token.scan_code {tokens : List Token} (reads : Reads text tokens)
    (code : IsCode text rest) (ends : rest = [] ∨ Opens rest) :
    scan (text ++ rest) = tokens ++ scan rest := by
  have digits {cs : List Char} : (cs ++ rest).head?.any Char.isDigit = cs.head?.any Char.isDigit :=
    head_append ends fun c digit _ => digit
  have starts {cs : List Char} : (cs ++ rest).head?.any isNameStart = cs.head?.any isNameStart :=
    head_append ends fun c _ name => Bool.eq_false_iff.mpr fun begins =>
      Bool.eq_false_iff.mp name (isNameRest_of_isNameStart begins)
  induction reads with
  | done => rfl
  | question reads ih =>
      rw [List.cons_append, scan_isCode code, next, if_pos rfl, ih (code.tail ['?'])]
      rfl
  | dollar digit reads ih =>
      rw [List.cons_append, scan_isCode code, next, if_neg (by decide), digits, if_pos ⟨rfl, digit⟩,
        ih (code.tail ['$'])]
      rfl
  | @named p name after tokens sigil isName stops reads ih =>
      obtain ⟨d, others, rfl⟩ : ∃ d others, name = d :: others := by
        cases name with
        | nil => cases isName.1
        | cons d others => exact ⟨d, others, rfl⟩
      have question : p ≠ '?' := by
        rintro rfl
        exact absurd sigil (by decide)
      have digit : d.isDigit = false := not_isDigit_of_isNameStart isName.1
      obtain ⟨takes, drops⟩ := span_name isName.2 (stops_append ends stops)
      rw [List.cons_append, scan_isCode code, List.append_assoc, next, if_neg question,
        if_neg (by simp [digit]), if_pos ⟨mem_sigils.mp sigil, isName.1⟩, takes, drops,
        ih (code.tail (p :: d :: others))]
      rfl
  | plain question dollar sigil reads ih =>
      rw [List.cons_append, scan_isCode code, next, if_neg question, digits, if_neg dollar, starts,
        if_neg (by rwa [← mem_sigils]), ih (code.tail [_])]
      rfl

theorem Lexed.eq_scan {tokens : List Token} (lexed : Lexed text tokens) :
    tokens = Token.scan text := by
  induction lexed with
  | done => rw [Token.scan]
  | code _ code ends reads _ ih => rw [Token.scan_code reads code ends, ih]
  | region mem covers _ ih => rw [Token.scan_covered mem covers, ih]

/-- A scan finds the tokens of the grammar and no others. -/
theorem lexed_iff {tokens : List Token} : Lexed text tokens ↔ tokens = Token.scan text := by
  refine ⟨Lexed.eq_scan, ?_⟩
  rintro rfl
  obtain ⟨tokens, lexed⟩ := exists_lexed text
  exact lexed.eq_scan ▸ lexed

end Placeholder

end ConnectionPool
