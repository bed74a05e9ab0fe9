import ConnectionPool.Proofs.Json.Numbers

/-!
# Text reads back

The compact text of a JSON value is read as the value.  Three limits of the reader and of the
text are the conditions (`Readable`): the value does not nest too deep, its integers fit 64 bits
and its doubles are finite.  Strings have no condition; every character comes back, those that
are escaped included (`string?_writeString`).

The induction is on the value, with what follows it left open.  Whatever follows must end the
value (`Ended`), since a digit behind a number would be read as part of it.  In a text that is
written every value is followed by a comma, by the bracket that closes what it is in, or by
nothing.
-/

namespace ConnectionPool

namespace Json

variable {α : Type} {rest : List Char} {c close : Char} {depth : Nat} {j : Json}

/-! ## Strings -/

theorem hexValue?_hexDigit : ∀ n < 16, hexValue? (hexDigit n) = some n := by decide

/-- The escape by number of a control character. -/
theorem hexUnit?_control {n : Nat} (control : n < 0x20) :
    hexUnit? '0' '0' (hexDigit (n / 16)) (hexDigit (n % 16)) = some n := by
  have high := hexValue?_hexDigit (n / 16) (by omega)
  have low := hexValue?_hexDigit (n % 16) (by omega)
  have zero : hexValue? '0' = some 0 := rfl
  simp only [hexUnit?, zero, high, low, Option.bind_eq_bind, Option.bind_some, Option.pure_def,
    Option.some.injEq]
  omega

/-- What a character becomes when its escape is read. -/
def Piece.ofChar (c : Char) : Piece :=
  if c ≠ '\x08' ∧ c ≠ '\x0c' ∧ c ≠ '\n' ∧ c ≠ '\r' ∧ c ≠ '\t' ∧ c.toNat < 0x20 then .unit c.toNat
  else .char c

theorem pieces?_named {e : Char} (noUnit : e ≠ 'u') (named : namedEscape? e = some c)
    (cs : List Char) :
    pieces? ('\\' :: e :: cs) = (pieces? cs).map fun (ps, rest) => (.char c :: ps, rest) := by
  rw [pieces?.eq_4 _ _ fun _ _ _ _ _ unit _ => noUnit unit, named]
  cases pieces? cs <;> rfl

theorem pieces?_control (control : c.toNat < 0x20) (cs : List Char) :
    pieces? ('\\' :: 'u' :: '0' :: '0' :: hexDigit (c.toNat / 16) :: hexDigit (c.toNat % 16) :: cs) =
      (pieces? cs).map fun (ps, rest) => (.unit c.toNat :: ps, rest) := by
  simp only [pieces?, hexUnit?_control control, Option.bind_eq_bind, Option.bind_some]
  cases pieces? cs <;> rfl

theorem pieces?_plain (noQuote : c ≠ '"') (noBackslash : c ≠ '\\') (plain : ¬ c.toNat < 0x20)
    (cs : List Char) :
    pieces? (c :: cs) = (pieces? cs).map fun (ps, rest) => (.char c :: ps, rest) := by
  rw [pieces?.eq_5 _ _ noQuote (fun _ _ _ _ _ escape _ => noBackslash escape)
    (fun _ _ escape _ => noBackslash escape), if_neg (not_or.mpr ⟨noBackslash, plain⟩)]
  cases pieces? cs <;> rfl

/-- Reading one character. -/
theorem pieces?_escape (c : Char) (cs : List Char) :
    pieces? (escape c ++ cs) = (pieces? cs).map fun (ps, rest) => (.ofChar c :: ps, rest) := by
  unfold escape
  split_ifs with quote backslash back feed line carriage tab control
  · subst quote; exact pieces?_named (by decide) rfl cs
  · subst backslash; exact pieces?_named (by decide) rfl cs
  · subst back; exact pieces?_named (by decide) rfl cs
  · subst feed; exact pieces?_named (by decide) rfl cs
  · subst line; exact pieces?_named (by decide) rfl cs
  · subst carriage; exact pieces?_named (by decide) rfl cs
  · subst tab; exact pieces?_named (by decide) rfl cs
  · rw [Piece.ofChar, if_pos ⟨back, feed, line, carriage, tab, control⟩]
    exact pieces?_control control cs
  · rw [Piece.ofChar, if_neg fun h => control h.2.2.2.2.2]
    exact pieces?_plain quote backslash control cs

theorem pieces?_flatMap_escape (cs rest : List Char) :
    pieces? (cs.flatMap escape ++ '"' :: rest) = some (cs.map .ofChar, rest) := by
  induction cs with
  | nil => simp [pieces?]
  | cons c cs ih => rw [List.flatMap_cons, List.append_assoc, pieces?_escape, ih]; rfl

/-- A control character is no half of a pair, so it comes back alone. -/
theorem assemble?_ofChar (c : Char) (ps : List Piece) :
    assemble? (.ofChar c :: ps) = (assemble? ps).map (c :: ·) := by
  rw [Piece.ofChar]
  split
  next control =>
    have below : c.toNat < 0x20 := control.2.2.2.2.2
    have high : isHighSurrogate c.toNat = false := by simp [isHighSurrogate]; omega
    have low : isLowSurrogate c.toNat = false := by simp [isLowSurrogate]; omega
    rw [assemble?.eq_def]
    simp [high, low]
  next => rw [assemble?]

theorem assemble?_map_ofChar (cs : List Char) : assemble? (cs.map .ofChar) = some cs := by
  induction cs with
  | nil => rfl
  | cons c cs ih => rw [List.map_cons, assemble?_ofChar, ih, Option.map_some]

/-- A string reads back, whatever follows its closing quote. -/
theorem string?_writeString (s : String) (rest : List Char) :
    string? (s.toList.flatMap escape ++ '"' :: rest) = some (s, rest) := by
  simp only [string?, pieces?_flatMap_escape, assemble?_map_ofChar, Option.bind_eq_bind,
    Option.bind_some, String.ofList_toList]
  rfl

/-! ## Sequences -/

/-- The character closes an array or an object. -/
def Closes (c : Char) : Prop := c = ']' ∨ c = '\x7d'

theorem Closes.ended (closes : Closes c) (rest : List Char) : Ended (c :: rest) := by
  rcases closes with rfl | rfl
  · exact .bracket rest
  · exact .brace rest

theorem Closes.skipBlanks (closes : Closes c) (rest : List Char) :
    skipBlanks (c :: rest) = c :: rest := by
  rcases closes with rfl | rfl <;> rfl

theorem Closes.ne_comma (closes : Closes c) : c ≠ ',' := by
  rcases closes with rfl | rfl <;> decide

/-- The text begins an item: with no blank and nothing that closes. -/
def Begins (cs : List Char) : Prop :=
  ∃ c tail, cs = c :: tail ∧ isBlank c = false ∧ ¬ Closes c

/-- Texts with commas between them. -/
def commas : List (List Char) → List Char
  | [] => []
  | [cs] => cs
  | cs :: ds :: rest => cs ++ ',' :: commas (ds :: rest)

theorem length_le_commas {texts : List (List Char)} (nonempty : ∀ cs ∈ texts, cs ≠ []) :
    texts.length ≤ (commas texts).length := by
  induction texts with
  | nil => simp
  | cons cs texts ih =>
    have first : 0 < cs.length := List.length_pos_iff.mpr (nonempty cs (by simp))
    have others := ih fun ds mem => nonempty ds (by simp [mem])
    cases texts with
    | nil => simp [commas]; omega
    | cons ds texts => simp only [commas, List.length_append, List.length_cons] at others ⊢; omega

section Sequences

variable {item? : List Char → Option (α × List Char)} {write : α → List Char} {xs : List α}

/-- Items read back when each does, up to what closes them. -/
theorem sequence?_commas {fuel : Nat} (closes : Closes close)
    (reads : ∀ x ∈ xs, ∀ rest, Ended rest → item? (write x ++ rest) = some (x, rest))
    (nonempty : xs ≠ []) (enough : xs.length ≤ fuel) (rest : List Char) :
    sequence? item? close fuel (commas (xs.map write) ++ close :: rest) = some (xs, rest) := by
  induction xs generalizing fuel with
  | nil => exact absurd rfl nonempty
  | cons x xs ih =>
    obtain ⟨fuel, rfl⟩ : ∃ n, fuel = n + 1 := ⟨fuel - 1, by simp at enough; omega⟩
    cases xs with
    | nil =>
      have first := reads x (by simp) _ (closes.ended rest)
      simp [sequence?, commas, first, closes.skipBlanks, closes.ne_comma]
    | cons y ys =>
      have others := ih (fun z mem => reads z (by simp [mem])) (by simp)
        (Nat.le_of_succ_le_succ enough)
      have first := reads x (by simp) _
        (.comma (commas ((y :: ys).map write) ++ close :: rest))
      rw [List.map_cons] at first others
      have comma (cs : List Char) : skipBlanks (',' :: cs) = ',' :: cs := rfl
      simp [sequence?, commas, first, comma, others]

/-- An array or an object reads back, the empty one included. -/
theorem enclosed?_commas (closes : Closes close) (begins : ∀ x ∈ xs, Begins (write x))
    (reads : ∀ x ∈ xs, ∀ rest, Ended rest → item? (write x ++ rest) = some (x, rest))
    (rest : List Char) :
    enclosed? item? close (commas (xs.map write) ++ close :: rest) = some (xs, rest) := by
  cases xs with
  | nil => simp [enclosed?, commas, closes.skipBlanks]
  | cons x xs =>
    have nonempty : ∀ cs ∈ (x :: xs).map write, cs ≠ [] := by
      intro cs mem
      obtain ⟨y, memItem, rfl⟩ := List.mem_map.mp mem
      obtain ⟨c, tail, text, -⟩ := begins y memItem
      simp [text]
    have enough : (x :: xs).length ≤ (commas ((x :: xs).map write) ++ close :: rest).length := by
      have := length_le_commas nonempty
      rw [List.length_map] at this
      rw [List.length_append]
      omega
    have read := sequence?_commas closes reads (by simp) enough rest
    obtain ⟨c, tail, text, noBlank, noClose⟩ := begins x (by simp)
    have different : c ≠ close := by
      rintro rfl
      exact noClose closes
    obtain ⟨tail', whole⟩ : ∃ tail', commas ((x :: xs).map write) ++ close :: rest = c :: tail' := by
      cases xs <;> exact ⟨_, by simp only [List.map_cons, List.map_nil, commas, text]; rfl⟩
    rw [whole] at read ⊢
    simp only [enclosed?, skipBlanks, List.dropWhile_cons, noBlank, Bool.false_eq_true, if_false,
      different]
    exact read

end Sequences

/-! ## Values -/

theorem writeItems_eq (items : List Json) : writeItems items = commas (items.map write) := by
  induction items with
  | nil => rfl
  | cons x items ih =>
    cases items with
    | nil => rfl
    | cons y items => rw [writeItems, ih]; rfl

/-- A member of an object as it is written. -/
def writeMember (m : String × Json) : List Char := writeString m.1 ++ ':' :: write m.2

theorem writeMembers_eq (members : List (String × Json)) :
    writeMembers members = commas (members.map writeMember) := by
  induction members with
  | nil => rfl
  | cons m members ih =>
    cases members with
    | nil => rfl
    | cons m' members =>
      rw [writeMembers, ih]
      simp [commas, writeMember]

/-- The values that their text gives back: nested at most `depth` deep, integers of 64 bits
and finite doubles. -/
inductive Readable : (depth : Nat) → Json → Prop where
  | null (depth : Nat) : Readable depth .null
  | bool (depth : Nat) (b : Bool) : Readable depth (.bool b)
  | int {i : Int} (depth : Nat) (fits : FitsInteger i) : Readable depth (.int i)
  | real {x : Double} (depth : Nat) (finite : x.isFinite) : Readable depth (.real x)
  | str (depth : Nat) (s : String) : Readable depth (.str s)
  | arr {depth : Nat} {items : List Json} (each : ∀ j ∈ items, Readable depth j) :
    Readable (depth + 1) (.arr items)
  | obj {depth : Nat} {members : List (String × Json)} (each : ∀ m ∈ members, Readable depth m.2) :
    Readable (depth + 1) (.obj members)

/-- A character that a number begins with. -/
def IsNumeric (c : Char) : Prop := c.isDigit = true ∨ c = '-'

/-- The text of a number begins with its sign or a digit. -/
theorem exists_head_signed (numeral : Numeral) (negative : Bool) :
    ∃ c tail, (if negative then ['-'] else []) ++ numeral.text = c :: tail ∧ IsNumeric c := by
  obtain ⟨c, tail, text, isDigit⟩ := numeral.exists_head
  cases negative with
  | true => exact ⟨'-', numeral.text, rfl, .inr rfl⟩
  | false => exact ⟨c, tail, text, .inl isDigit⟩

theorem exists_head_writeInt (i : Int) : ∃ c tail, writeInt i = c :: tail ∧ IsNumeric c := by
  rw [writeInt_eq]
  exact exists_head_signed _ _

theorem exists_head_writeDouble {x : Double} (finite : x.isFinite) :
    ∃ c tail, writeDouble x = c :: tail ∧ IsNumeric c := by
  obtain ⟨numeral, text, -⟩ := exists_numeral x.shortest
  rw [writeDouble, if_pos finite, ← text]
  exact exists_head_signed _ _

/-- A character that decides nothing but which literal, number or string it begins. -/
def BeginsScalar (c : Char) : Prop := isBlank c = false ∧ ¬ Closes c ∧ c ≠ '[' ∧ c ≠ '\x7b'

theorem IsNumeric.ne (numeric : IsNumeric c) (other : Char) (noDigit : other.isDigit = false)
    (noSign : other ≠ '-') : c ≠ other := by
  rintro rfl
  rcases numeric with isDigit | sign
  · rw [isDigit] at noDigit
    cases noDigit
  · exact noSign sign

theorem IsNumeric.beginsScalar (numeric : IsNumeric c) : BeginsScalar c := by
  refine ⟨?_, ?_, numeric.ne '[' rfl (by decide), numeric.ne '\x7b' rfl (by decide)⟩
  · simp [isBlank, numeric.ne ' ' rfl (by decide), numeric.ne '\n' rfl (by decide),
      numeric.ne '\t' rfl (by decide), numeric.ne '\r' rfl (by decide)]
  · rintro (bracket | brace)
    · exact numeric.ne _ rfl (by decide) bracket
    · exact numeric.ne _ rfl (by decide) brace

/-- What begins like a number is read as one. -/
theorem scalar?_numeric (numeric : IsNumeric c) (cs : List Char) :
    scalar? (c :: cs) = number? (c :: cs) := by
  unfold scalar?
  split
  next same => exact absurd (List.cons.inj same).1 (numeric.ne 'n' rfl (by decide))
  next same => exact absurd (List.cons.inj same).1 (numeric.ne 't' rfl (by decide))
  next same => exact absurd (List.cons.inj same).1 (numeric.ne 'f' rfl (by decide))
  next same => exact absurd (List.cons.inj same).1 (numeric.ne '"' rfl (by decide))
  next => rfl

/-- At any depth a value that is no array and no object is read as a scalar. -/
theorem value?_scalar (begins : BeginsScalar c) (depth : Nat) (cs : List Char) :
    value? depth (c :: cs) = scalar? (c :: cs) := by
  obtain ⟨noBlank, -, noArray, noObject⟩ := begins
  cases depth <;> simp [value?, skipBlanks, noBlank, noArray, noObject]

theorem begins_of_beginsScalar {cs : List Char} (begins : BeginsScalar c) : Begins (c :: cs) :=
  ⟨c, cs, rfl, begins.1, begins.2.1⟩

/-- The text of a value has no blank in front and nothing that closes. -/
theorem Readable.begins (readable : Readable depth j) : Begins j.write := by
  cases readable with
  | null => exact ⟨'n', _, rfl, rfl, by simp [Closes]⟩
  | bool _ b => cases b <;> exact ⟨_, _, rfl, rfl, by simp [Closes]⟩
  | int _ fits =>
    obtain ⟨c, tail, text, numeric⟩ := exists_head_writeInt _
    rw [write, text]
    exact begins_of_beginsScalar numeric.beginsScalar
  | real _ finite =>
    obtain ⟨c, tail, text, numeric⟩ := exists_head_writeDouble finite
    rw [write, text]
    exact begins_of_beginsScalar numeric.beginsScalar
  | str => exact ⟨'"', _, rfl, rfl, by simp [Closes]⟩
  | arr => exact ⟨'[', _, rfl, rfl, by simp [Closes]⟩
  | obj => exact ⟨'\x7b', _, rfl, rfl, by simp [Closes]⟩

/-- A member reads back when its value does. -/
theorem memberWith?_writeMember {value? : List Char → Option (Json × List Char)}
    {m : String × Json} (reads : value? (m.2.write ++ rest) = some (m.2, rest)) :
    memberWith? value? (writeMember m ++ rest) = some (m, rest) := by
  have text : writeMember m ++ rest =
      '"' :: (m.1.toList.flatMap escape ++ '"' :: (':' :: (m.2.write ++ rest))) := by
    simp [writeMember, writeString]
  have quote (cs : List Char) : skipBlanks ('"' :: cs) = '"' :: cs := rfl
  have colon (cs : List Char) : skipBlanks (':' :: cs) = ':' :: cs := rfl
  simp [text, memberWith?, quote, string?_writeString, colon, reads]

/-- A number reads back as a value at any depth. -/
theorem value?_number {text : List Char} (head : ∃ c tail, text = c :: tail ∧ IsNumeric c)
    (reads : number? (text ++ rest) = some (j, rest)) (depth : Nat) :
    value? depth (text ++ rest) = some (j, rest) := by
  obtain ⟨c, tail, rfl, numeric⟩ := head
  rw [List.cons_append] at reads ⊢
  rw [value?_scalar numeric.beginsScalar, scalar?_numeric numeric, reads]

/-- A value reads back from its text, and what follows the text is left. -/
theorem value?_write (readable : Readable depth j) (rest : List Char) (ended : Ended rest) :
    value? depth (j.write ++ rest) = some (j, rest) := by
  induction readable generalizing rest with
  | null depth =>
    have begins : BeginsScalar 'n' := by simp [BeginsScalar, isBlank, Closes]
    exact value?_scalar begins depth _
  | bool depth b =>
    cases b with
    | false =>
      have begins : BeginsScalar 'f' := by simp [BeginsScalar, isBlank, Closes]
      exact value?_scalar begins depth _
    | true =>
      have begins : BeginsScalar 't' := by simp [BeginsScalar, isBlank, Closes]
      exact value?_scalar begins depth _
  | int depth fits => exact value?_number (exists_head_writeInt _) (number?_writeInt fits ended) depth
  | real depth finite =>
    exact value?_number (exists_head_writeDouble finite) (number?_writeDouble finite ended) depth
  | str depth s =>
    have begins : BeginsScalar '"' := by simp [BeginsScalar, isBlank, Closes]
    have text : (str s).write ++ rest = '"' :: (s.toList.flatMap escape ++ '"' :: rest) := by
      simp [write, writeString]
    rw [text, value?_scalar begins]
    simp [scalar?, string?_writeString]
  | @arr depth items each ih =>
    have closes : Closes ']' := .inl rfl
    have read := enclosed?_commas closes (fun j mem => (each j mem).begins) ih rest
    have bracket (cs : List Char) : skipBlanks ('[' :: cs) = '[' :: cs := rfl
    simp [write, writeItems_eq, value?, bracket, read]
  | @obj depth members each ih =>
    have begins : ∀ m ∈ members, Begins (writeMember m) := fun m _ =>
      ⟨'"', _, rfl, rfl, by simp [Closes]⟩
    have closes : Closes '\x7d' := .inr rfl
    have read := enclosed?_commas closes begins
      (fun m mem rest ended => memberWith?_writeMember (ih m mem rest ended)) rest
    have brace (cs : List Char) : skipBlanks ('\x7b' :: cs) = '\x7b' :: cs := rfl
    simp [write, writeMembers_eq, value?, brace, read]

/-- A value that nests no deeper than the reader goes reads back from its text. -/
theorem read?_text (readable : Readable maxDepth j) : read? j.text = some j := by
  have read := value?_write readable [] .nil
  rw [List.append_nil] at read
  simp [read?, text, String.toList_ofList, read, skipBlanks]

end Json

end ConnectionPool
