import ConnectionPool.Placeholder.Bytes
import ConnectionPool.Proofs.Placeholder.Grammar

/-!
# Bytes and characters

A pass over the bytes of a text does what `expand` does with its characters, and no slice it
takes tears a character.

A character below 0x80 is one byte, of the same number.  Each byte of any other character is
at least 0x80, so it is no mark, opens no region and belongs to names, as the character does.
So what the pass finds at the first byte of a character is what a scan finds at the character,
and at the other bytes it goes on by one.  It stops to slice only where a character begins.
-/

namespace ConnectionPool

namespace Placeholder

namespace Bytes

variable {cs rest front mark : List Char} {c d : Char}

/-! ## The bytes of characters -/

/-- The bytes of some characters. -/
def encode (cs : List Char) : List UInt8 := cs.flatMap String.utf8EncodeChar

/-- The number of these bytes. -/
def size (cs : List Char) : Nat := (encode cs).length

@[simp] theorem encode_nil : encode [] = [] := rfl

@[simp] theorem encode_cons (c : Char) (cs : List Char) :
    encode (c :: cs) = String.utf8EncodeChar c ++ encode cs := List.flatMap_cons

@[simp] theorem encode_append (cs rest : List Char) :
    encode (cs ++ rest) = encode cs ++ encode rest := List.flatMap_append

@[simp] theorem size_nil : size [] = 0 := rfl

@[simp] theorem size_append (cs rest : List Char) : size (cs ++ rest) = size cs + size rest := by
  simp [size]

@[simp] theorem size_cons (c : Char) (cs : List Char) :
    size (c :: cs) = (String.utf8EncodeChar c).length + size cs := by
  simp [size]

theorem bytes_eq (sql : String) : sql.toByteArray.data.toList = encode sql.toList := by
  rw [← String.utf8Encode_toList]
  exact List.toList_data_toByteArray

/-- A character that is one byte. -/
def Narrow (c : Char) : Prop := c.toNat < 0x80

instance : DecidablePred Narrow := fun c => inferInstanceAs (Decidable (c.toNat < 0x80))

theorem Narrow.encode (narrow : Narrow c) : String.utf8EncodeChar c = [c.toUInt8] := by
  refine String.utf8EncodeChar_eq_singleton (Char.utf8Size_eq_one_iff.mpr ?_)
  rw [UInt32.le_iff_toNat_le]
  exact Nat.le_of_lt_succ narrow

theorem Narrow.ofUInt8 (narrow : Narrow c) : Char.ofUInt8 c.toUInt8 = c := by
  refine Char.ext (UInt32.toNat_inj.mp ?_)
  have small : c.val.toNat < 256 := Nat.lt_trans narrow (by decide)
  refine (UInt8.toNat_toUInt32 c.toUInt8).trans ?_
  show c.val.toUInt8.toNat = c.val.toNat
  rw [UInt32.toNat_toUInt8, Nat.mod_eq_of_lt small]

/-- The bytes of a longer character are none of a character of one byte. -/
theorem wide_bytes (wide : ¬ Narrow c) : ∀ b ∈ String.utf8EncodeChar c, 0x80 ≤ b.toNat := by
  have large : ¬ c.val.toNat ≤ 127 := fun h => wide (Nat.lt_succ_of_le h)
  unfold String.utf8EncodeChar
  simp only [if_neg large]
  repeat' split
  all_goals
    simp only [List.mem_cons, List.not_mem_nil, or_false, forall_eq_or_imp, forall_eq,
      UInt8.toNat_ofNat']
    omega

/-- A test that tells no two longer characters apart. -/
def Blind (P : Char → Bool) : Prop := ∀ c d, ¬ Narrow c → ¬ Narrow d → P c = P d

theorem not_narrow_ofUInt8 {b : UInt8} (wide : 0x80 ≤ b.toNat) : ¬ Narrow (Char.ofUInt8 b) := by
  intro narrow
  have : (Char.ofUInt8 b).toNat = b.toNat := UInt8.toNat_toUInt32 b
  unfold Narrow at narrow
  omega

/-- Such a test is met by the bytes of a character as by the character. -/
theorem Blind.byte {P : Char → Bool} (blind : Blind P) {b : UInt8}
    (mem : b ∈ String.utf8EncodeChar c) : P (Char.ofUInt8 b) = P c := by
  by_cases narrow : Narrow c
  · rw [narrow.encode, List.mem_singleton] at mem
    rw [mem, narrow.ofUInt8]
  · exact blind _ _ (not_narrow_ofUInt8 (wide_bytes narrow b mem)) narrow

theorem exists_bytes (c : Char) : ∃ b others, String.utf8EncodeChar c = b :: others :=
  List.exists_cons_of_ne_nil
    (List.ne_nil_of_length_pos (String.length_utf8EncodeChar c ▸ c.utf8Size_pos))

theorem Blind.head {P : Char → Bool} (blind : Blind P) (cs : List Char) :
    ((encode cs).head?.map Char.ofUInt8).any P = cs.head?.any P := by
  cases cs with
  | nil => rfl
  | cons c cs =>
      obtain ⟨b, others, eq⟩ := exists_bytes c
      have := blind.byte (c := c) (eq ▸ List.mem_cons_self)
      simpa [eq] using this

theorem isNameStart_of_wide (wide : ¬ Narrow c) : isNameStart c := by
  have : 0x80 ≤ c.toNat := Nat.le_of_not_lt wide
  simp [isNameStart, this]

theorem blind_isNameStart : Blind isNameStart := fun _ _ wide wide' =>
  (isNameStart_of_wide wide).trans (isNameStart_of_wide wide').symm

theorem blind_isNameRest : Blind isNameRest := fun _ _ wide wide' =>
  (isNameRest_of_isNameStart (isNameStart_of_wide wide)).trans
    (isNameRest_of_isNameStart (isNameStart_of_wide wide')).symm

theorem blind_isDigit : Blind Char.isDigit := fun _ _ wide wide' =>
  (not_isDigit_of_isNameStart (isNameStart_of_wide wide)).trans
    (not_isDigit_of_isNameStart (isNameStart_of_wide wide')).symm

theorem blind_eq (narrow : Narrow d) : Blind (· == d) := by
  intro c c' wide wide'
  have ne : ∀ {c : Char}, ¬ Narrow c → (c == d) = false := fun wide =>
    beq_eq_false_iff_ne.mpr (by rintro rfl; exact wide narrow)
  exact (ne wide).trans (ne wide').symm

/-! ## Looking for a mark -/

/-- A byte is that of a character of one byte exactly when it is taken for it. -/
theorem toUInt8_eq_iff (narrow : Narrow c) {b : UInt8} : c.toUInt8 = b ↔ Char.ofUInt8 b = c := by
  constructor
  · rintro rfl
    exact narrow.ofUInt8
  · rintro rfl
    exact UInt8.toUInt8_toUInt32 b

theorem isPrefixOf_encode (narrow : ∀ c ∈ mark, Narrow c) (cs : List Char) :
    (mark.map Char.toUInt8).isPrefixOf (encode cs) = mark.isPrefixOf cs := by
  induction mark generalizing cs with
  | nil => rfl
  | cons m mark ih =>
      have narrow_m := narrow m List.mem_cons_self
      cases cs with
      | nil => rfl
      | cons c cs =>
          by_cases same : m = c
          · subst same
            simp [narrow_m.encode, List.isPrefixOf,
              ih fun c mem => narrow c (List.mem_cons_of_mem _ mem)]
          · obtain ⟨b, others, eq⟩ := exists_bytes c
            have byte : m.toUInt8 ≠ b := by
              intro h
              have taken := (blind_eq narrow_m).byte (eq ▸ List.mem_cons_self : b ∈ _)
              rw [(toUInt8_eq_iff narrow_m).mp h, beq_self_eq_true] at taken
              exact same (beq_iff_eq.mp taken.symm).symm
            simp [eq, List.isPrefixOf, beq_false_of_ne byte, beq_false_of_ne same]

/-- No occurrence of a mark begins within a longer character. -/
theorem find?_wide {bs tail : List UInt8} (narrow : ∀ c ∈ mark, Narrow c) (nonempty : mark ≠ [])
    (wide : ∀ b ∈ bs, 0x80 ≤ b.toNat) :
    find? mark (bs ++ tail) = (find? mark tail).map (· + bs.length) := by
  obtain ⟨m, others, rfl⟩ := List.exists_cons_of_ne_nil nonempty
  induction bs with
  | nil => simp
  | cons b bs ih =>
      have byte : m.toUInt8 ≠ b := by
        intro eq
        have taken := (toUInt8_eq_iff (narrow m List.mem_cons_self)).mp eq
        exact not_narrow_ofUInt8 (wide b List.mem_cons_self)
          (taken ▸ narrow m List.mem_cons_self)
      rw [List.cons_append, find?, ih fun b mem => wide b (List.mem_cons_of_mem _ mem)]
      simp [List.isPrefixOf, beq_false_of_ne byte, Function.comp_def, Nat.add_assoc]

theorem find?_skip (narrow : ∀ c ∈ mark, Narrow c) (nonempty : mark ≠ [])
    (absent : ¬ mark.isPrefixOf (c :: cs)) : find? mark (encode (c :: cs)) =
      (find? mark (encode cs)).map (· + (String.utf8EncodeChar c).length) := by
  by_cases narrow_c : Narrow c
  · rw [← isPrefixOf_encode narrow, encode_cons, narrow_c.encode] at absent
    rw [encode_cons, narrow_c.encode]
    exact if_neg absent
  · exact find?_wide narrow nonempty (wide_bytes narrow_c)

theorem size_narrow (narrow : ∀ c ∈ cs, Narrow c) : size cs = cs.length := by
  induction cs with
  | nil => rfl
  | cons c cs ih =>
      rw [size_cons, (narrow c List.mem_cons_self).encode,
        ih fun c mem => narrow c (List.mem_cons_of_mem _ mem)]
      exact Nat.add_comm 1 _

/-- As many bytes lie before the end of a mark as those of the characters before it. -/
theorem find?_encode (narrow : ∀ c ∈ mark, Narrow c) (nonempty : mark ≠ []) (cs : List Char) :
    ((find? mark (encode cs)).map (· + mark.length)).getD (size cs) = size (splitPast mark cs).1 := by
  induction cs with
  | nil => rfl
  | cons c cs ih =>
      rw [splitPast]
      split
      · rename_i isPrefix
        have here : find? mark (encode (c :: cs)) = some 0 := by
          obtain ⟨b, others, eq⟩ := exists_bytes c
          rw [← isPrefixOf_encode narrow] at isPrefix
          rw [encode_cons, eq] at isPrefix ⊢
          exact if_pos isPrefix
        have taken := (List.prefix_iff_eq_take.mp (List.isPrefixOf_iff_prefix.mp isPrefix)).symm
        rw [here, taken, size_narrow narrow]
        simp
      · rename_i absent
        rw [find?_skip narrow nonempty absent, size_cons, size_cons, ← ih]
        cases find? mark (encode cs) with
        | none => rfl
        | some n => simp only [Option.map_some, Option.getD_some]; omega

/-- Where the bytes of a text begin. -/
structure Here (bytes : List UInt8) (i : Nat) (cs : List Char) : Prop where
  drop : bytes.drop i = encode cs
  le : i ≤ bytes.length

theorem Here.length {bytes : List UInt8} {i : Nat} (here : Here bytes i cs) :
    bytes.length = i + size cs := by
  have := congrArg List.length here.drop
  have := here.le
  rw [List.length_drop] at *
  unfold size
  omega

theorem Here.skipPast {bytes : List UInt8} {i : Nat} (here : Here bytes i cs)
    (narrow : ∀ c ∈ mark, Narrow c) (nonempty : mark ≠ []) :
    skipPast bytes i mark = i + size (splitPast mark cs).1 := by
  rw [Bytes.skipPast, here.drop, ← find?_encode narrow nonempty, here.length]
  cases find? mark (encode cs) with
  | none => rfl
  | some n => exact Nat.add_assoc i n mark.length

/-! ## Looking at a character -/

theorem Here.tail {bytes : List UInt8} {i : Nat} (here : Here bytes i (c :: cs)) :
    Here bytes (i + (String.utf8EncodeChar c).length) cs where
  drop := by rw [← List.drop_drop, here.drop, encode_cons, List.drop_left]
  le := by
    have := here.length
    rw [size_cons] at this
    omega

theorem Here.next {bytes : List UInt8} {i : Nat} (here : Here bytes i cs) {P : Char → Bool}
    (blind : Blind P) : (bytes[i]?.map Char.ofUInt8).any P = cs.head?.any P := by
  rw [← blind.head, ← here.drop, List.head?_drop]

theorem Here.next_eq {bytes : List UInt8} {i : Nat} (here : Here bytes i cs) (narrow : Narrow d) :
    bytes[i]?.map Char.ofUInt8 = some d ↔ cs.head? = some d := by
  have any_beq (o : Option Char) : o.any (· == d) ↔ o = some d := by cases o <;> simp
  rw [← any_beq, here.next (blind_eq narrow), any_beq]

theorem length_takeWhile_encode (cs : List Char) :
    ((encode cs).takeWhile (isNameRest <| .ofUInt8 ·)).length = size (cs.takeWhile isNameRest) := by
  induction cs with
  | nil => rfl
  | cons c cs ih =>
      have byte : ∀ b ∈ String.utf8EncodeChar c, isNameRest (.ofUInt8 b) = isNameRest c :=
        fun b mem => blind_isNameRest.byte mem
      rw [encode_cons]
      cases named : isNameRest c with
      | true =>
          rw [List.takeWhile_append_of_pos fun b mem => (byte b mem).trans named,
            List.takeWhile_cons_of_pos named, List.length_append, ih, size_cons]
      | false =>
          obtain ⟨b, others, eq⟩ := exists_bytes c
          have first : isNameRest (.ofUInt8 b) = false :=
            (byte b (eq ▸ List.mem_cons_self)).trans named
          rw [eq, List.cons_append, List.takeWhile_cons_of_neg (by rw [first]; decide),
            List.takeWhile_cons_of_neg (by rw [named]; decide)]
          rfl

/-- What is found at a character of one byte, told by the characters. -/
theorem look_narrow {bytes : List UInt8} {i : Nat} (here : Here bytes i (c :: cs))
    (narrow : Narrow c) : look bytes i c.toUInt8 =
      if c = '\x27' ∨ c = '"' ∨ c = '\x60' then .plain (i + 1 + size (splitPast [c] cs).1)
      else if c = '[' then .plain (i + 1 + size (splitPast [']'] cs).1)
      else if c = '-' ∧ cs.head? = some '-' then .plain (i + 2 + size (splitPast ['\n'] cs.tail).1)
      else if c = '/' ∧ cs.head? = some '*' then
        .plain (i + 2 + size (splitPast ['*', '/'] cs.tail).1)
      else if c = '?' then .positional .question
      else if c = '$' ∧ cs.head?.any Char.isDigit then .positional .dollar
      else if isSigil c ∧ cs.head?.any isNameStart then
        .named (i + 1 + size (cs.takeWhile isNameRest))
      else .plain (i + 1) := by
  have tail : Here bytes (i + 1) cs := by
    have tail := here.tail
    rwa [narrow.encode] at tail
  have second (d : Char) (narrow_d : Narrow d) (head : cs.head? = some d) :
      Here bytes (i + 2) cs.tail := by
    obtain ⟨rest, rfl⟩ := List.head?_eq_some_iff.mp head
    have second := tail.tail
    rwa [narrow_d.encode] at second
  have minus : Narrow '-' := by decide
  have star : Narrow '*' := by decide
  simp only [look, narrow.ofUInt8, tail.next_eq minus, tail.next_eq star, tail.next blind_isDigit,
    tail.next blind_isNameStart, tail.drop, length_takeWhile_encode]
  refine ite_congr rfl (fun _ => ?_) fun _ => ite_congr rfl (fun _ => ?_) fun _ =>
    ite_congr rfl (fun line => ?_) fun _ => ite_congr rfl (fun block => ?_) fun _ => rfl
  · rw [tail.skipPast (by simpa using narrow) (List.cons_ne_nil c [])]
  · rw [tail.skipPast (by simp [Narrow]) (List.cons_ne_nil _ _)]
  · rw [(second '-' minus line.2).skipPast (by simp [Narrow]) (List.cons_ne_nil _ _)]
  · rw [(second '*' star block.2).skipPast (by simp [Narrow]) (List.cons_ne_nil _ _)]

/-- A byte of a longer character is passed over. -/
theorem look_wide {bytes : List UInt8} {b : UInt8} (i : Nat) (wide : 0x80 ≤ b.toNat) :
    look bytes i b = .plain (i + 1) := by
  have ne : ∀ d ∈ ['\x27', '"', '\x60', '[', '-', '/', '?', ':', '@', '$'],
      Char.ofUInt8 b ≠ d := fun d mem eq => not_narrow_ofUInt8 wide
    (eq ▸ (by simp [Narrow] :
      ∀ d ∈ ['\x27', '"', '\x60', '[', '-', '/', '?', ':', '@', '$'], Narrow d) d mem)
  simp only [List.mem_cons, List.not_mem_nil, or_false, forall_eq_or_imp, forall_eq] at ne
  simp [look, isSigil, ne]

/-- Where a region begins, the pass goes on behind it. -/
theorem look_region {bytes : List UInt8} {i width : Nat} (here : Here bytes i (c :: cs))
    (narrow : Narrow c) (opens : opening? (c :: cs) = some (width, mark)) :
    look bytes i c.toUInt8 = .plain
      (i + size ((c :: cs).take width ++ (splitPast mark (cs.drop (width - 1))).1)) := by
  rw [look_narrow here narrow, size_append, ← Nat.add_assoc]
  obtain ⟨f, mem, ⟨rest, eq⟩, rfl, rfl⟩ := opening?_eq_some_iff.mp opens
  simp only [fences, List.mem_cons, List.not_mem_nil, or_false] at mem
  rcases mem with rfl | rfl | rfl | rfl | rfl | rfl <;>
    · obtain ⟨rfl, rfl⟩ := List.cons.inj eq
      simp [size, encode, Char.utf8Size]

/-- What a token of code is for the pass. -/
def ofToken (i : Nat) : Token → Found
  | .positional m => .positional m
  | .named _ name => .named (i + 1 + size name)
  | _ => .plain (i + 1)

/-- In code the pass finds the next token. -/
theorem look_code {bytes : List UInt8} {i : Nat} (here : Here bytes i (c :: cs))
    (narrow : Narrow c) (code : opening? (c :: cs) = none) :
    look bytes i c.toUInt8 = ofToken i (Token.next c cs).1 := by
  rw [look_narrow here narrow]
  have closed := opening?_eq_none_iff.mp code
  simp only [Opens, fences, List.mem_cons, List.not_mem_nil, or_false, not_exists, not_and,
    forall_eq_or_imp, forall_eq, List.cons_prefix_cons, List.nil_prefix, and_true] at closed
  obtain ⟨single, double, back, bracket, line, block⟩ := closed
  have second {d : Char} (absent : ¬ [d] <+: cs) : cs.head? ≠ some d := fun head => by
    obtain ⟨rest, rfl⟩ := List.head?_eq_some_iff.mp head
    exact absent ⟨rest, rfl⟩
  rw [if_neg (by simp [Ne.symm single, Ne.symm double, Ne.symm back]), if_neg (Ne.symm bracket),
    if_neg fun opens => second (line opens.1.symm) opens.2,
    if_neg fun opens => second (block opens.1.symm) opens.2, Token.next]
  repeat' split
  all_goals rfl

/-! ## Slices -/

/-- A position where characters begin is no position within a character. -/
theorem isValid_size {sql : String} (eq : sql.toList = front ++ rest) :
    String.Pos.Raw.IsValid sql ⟨size front⟩ := by
  refine String.Pos.Raw.isValid_iff_exists_append.mpr
    ⟨String.ofList front, String.ofList rest, ?_, ?_⟩
  · rw [← String.ofList_append, ← eq, String.ofList_toList]
  · rw [size, ← String.toList_ofList (l := front), ← bytes_eq, String.toList_ofList]
    rfl

theorem slice_eq {sql : String} {mid : List Char} (eq : sql.toList = front ++ mid ++ rest) :
    slice sql (size front) (size (front ++ mid)) = .ok (String.ofList mid) := by
  have start : String.Pos.Raw.IsValid sql ⟨size front⟩ :=
    isValid_size (eq.trans (List.append_assoc ..))
  have stop : String.Pos.Raw.IsValid sql ⟨size (front ++ mid)⟩ := isValid_size eq
  have le : size front ≤ size (front ++ mid) := by
    rw [size_append]
    exact Nat.le_add_right _ _
  rw [slice, dif_pos ⟨le, start, stop⟩]
  refine congrArg Except.ok (String.toByteArray_inj.mp (ByteArray.ext (Array.toList_inj.mp ?_)))
  rw [String.toByteArray_extract, ByteArray.data_extract, Array.toList_extract, bytes_eq, bytes_eq,
    String.toList_ofList, eq]
  show (encode (front ++ mid ++ rest)).extract (size front) (size (front ++ mid)) = encode mid
  rw [List.extract_eq_take_drop, encode_append, encode_append, List.append_assoc, size_append]
  rw [size, List.drop_left, Nat.add_sub_cancel_left, size, List.take_left]

/-! ## The pass and the scan -/

/-- The names and values of a pass are those of the slots. -/
def Agrees (p : Pass) (slots : Slots) : Prop :=
  p.numbers = (slots.zipIdx 1).map (fun s => (String.ofList s.1.1, s.2)) ∧
    p.values = slots.map Prod.snd

variable {sql : String} {args : Record Value} {p : Pass} {slots : Slots}

theorem find_numbers (slots : Slots) (name : List Char) (k : Nat) :
    ((slots.zipIdx k).map fun s => (String.ofList s.1.1, s.2)).find? (·.1 == String.ofList name) =
      (slots.findIdx? (·.1 == name)).map fun n => (String.ofList name, n + k) := by
  induction slots generalizing k with
  | nil => rfl
  | cons s slots ih =>
      rw [List.zipIdx_cons, List.map_cons, List.find?_cons, List.findIdx?_cons]
      by_cases same : s.1 = name
      · simp [same]
      · have other : (String.ofList s.1 == String.ofList name) = false :=
          beq_false_of_ne fun eq => same (String.ofList_inj.mp eq)
        simp [other, beq_false_of_ne same, ih, Function.comp_def, Nat.add_assoc, Nat.add_comm 1]

theorem value_eq {sigil : Char} {name : List Char}
    (eq : sql.toList = front ++ (sigil :: name) ++ rest) (position : p.position = size front) :
    p.value sql args (size (front ++ (sigil :: name))) (String.ofList name) =
      .ok (valueFor args sigil name) := by
  rw [Pass.value, valueFor, position, slice_eq eq]
  cases args.get? (String.ofList name) <;> rfl

theorem number_eq (args : Record Value) {sigil : Char} {name : List Char} (agrees : Agrees p slots)
    (eq : sql.toList = front ++ (sigil :: name) ++ rest) (position : p.position = size front) :
    ∃ q, p.number sql args (size (front ++ (sigil :: name))) (String.ofList name) =
        .ok ((slots.rank args sigil name).1 + 1, q) ∧
      Agrees q (slots.rank args sigil name).2 ∧ q.out = p.out ∧ q.copied = p.copied ∧
      q.position = p.position := by
  have found := find_numbers slots name 1
  rw [← agrees.1] at found
  rw [Pass.number, found, Slots.rank]
  cases slots.findIdx? (·.1 == name) with
  | some n => exact ⟨p, rfl, agrees, rfl, rfl, rfl⟩
  | none =>
      have length : p.values.length = slots.length := by rw [agrees.2, List.length_map]
      rw [value_eq eq position]
      refine ⟨{ p with
        numbers := p.numbers ++ [(String.ofList name, p.values.length + 1)]
        values := p.values ++ [valueFor args sigil name] }, ?_, ⟨?_, ?_⟩, rfl, rfl, rfl⟩
      · rw [length]
        rfl
      · simp [agrees.1, length, List.zipIdx_append, Nat.add_comm 1]
      · simp [agrees.2]

theorem replace_eq (args : Record Value) {sigil : Char} {name mid : List Char} (agrees : Agrees p slots)
    (one : String.utf8EncodeChar sigil = [sigil.toUInt8])
    (eq : sql.toList = front ++ mid ++ (sigil :: name) ++ rest)
    (position : p.position = size (front ++ mid)) (copied : p.copied = size front) :
    ∃ q, p.replace sql args (size (front ++ mid ++ (sigil :: name))) = .ok q ∧
      Agrees q (slots.rank args sigil name).2 ∧
      q.out = p.out ++ String.ofList (mid ++ slot (slots.rank args sigil name).1) := by
  obtain ⟨q, number, agrees', out, copied', position'⟩ :=
    number_eq args agrees eq position
  have bare : slice sql (p.position + 1) (size (front ++ mid ++ (sigil :: name))) =
      .ok (String.ofList name) := by
    have := slice_eq (show sql.toList = front ++ mid ++ [sigil] ++ name ++ rest by simpa using eq)
    simpa [position, one, Nat.add_assoc] using this
  have before : slice sql q.copied q.position = .ok (String.ofList mid) := by
    rw [copied', copied, position', position]
    exact slice_eq (show sql.toList = front ++ mid ++ ((sigil :: name) ++ rest) by simpa using eq)
  refine ⟨{ q with
    out := q.out ++ String.ofList mid ++ "?" ++ toString ((slots.rank args sigil name).1 + 1) },
    ?_, agrees', ?_⟩
  · simp only [Pass.replace, bare, number, before, bind, Except.bind]
  · rw [out, slot]
    simp [← String.toList_inj]

/-- What tokens lead to, after some text that is not copied yet. -/
def outcome (args : Record Value) (out : String) (mid : List Char) (slots : Slots)
    (tokens : List Token) : Except Failure (String × List Value) :=
  match tokens.findSome? Token.mark? with
  | some m => .error (.refused m)
  | none => .ok (out ++ String.ofList (mid ++ (rewrite args slots tokens).1),
      (rewrite args slots tokens).2.map Prod.snd)

variable {out : String} {mid : List Char} {tokens : List Token}

theorem outcome_region (text : List Char) :
    outcome args out mid slots (.region text :: tokens) =
      outcome args out (mid ++ text) slots tokens := by
  simp [outcome, List.findSome?_cons, Token.mark?, rewrite, Token.text]

theorem outcome_plain (c : Char) :
    outcome args out mid slots (.plain c :: tokens) =
      outcome args out (mid ++ [c]) slots tokens := by
  simp [outcome, List.findSome?_cons, Token.mark?, rewrite, Token.text]

theorem outcome_named (sigil : Char) (name : List Char) :
    outcome args out mid slots (.named sigil name :: tokens) =
      outcome args (out ++ String.ofList (mid ++ slot (slots.rank args sigil name).1)) []
        (slots.rank args sigil name).2 tokens := by
  simp [outcome, List.findSome?_cons, Token.mark?, rewrite, String.append_assoc]

theorem run_end {bytes : List UInt8} (ended : bytes[p.position]? = none) :
    Pass.run sql args bytes p = .ok p := by
  rw [Pass.run]
  split
  · rfl
  · rename_i found
    rw [ended] at found
    cases found

theorem run_found {bytes : List UInt8} {b : UInt8} (here : bytes[p.position]? = some b) :
    Pass.run sql args bytes p =
      match look bytes p.position b with
      | .plain next => Pass.run sql args bytes { p with position := next }
      | .positional m => .error (.refused m)
      | .named stop =>
        match p.replace sql args stop with
        | .error failure => .error failure
        | .ok p => Pass.run sql args bytes { p with position := stop, copied := stop } := by
  rw [Pass.run]
  split
  · rename_i none
    rw [here] at none
    cases none
  · rename_i b' here'
    obtain rfl := Option.some.inj (here.symm.trans here')
    split <;> grind

/-- Bytes of longer characters are passed over. -/
theorem run_wide {bytes bs tail : List UInt8} (wide : ∀ b ∈ bs, 0x80 ≤ b.toNat)
    (here : bytes.drop p.position = bs ++ tail) :
    Pass.run sql args bytes p =
      Pass.run sql args bytes { p with position := p.position + bs.length } := by
  induction bs generalizing p with
  | nil => rfl
  | cons b bs ih =>
      have first : bytes[p.position]? = some b := by
        rw [← List.head?_drop, here]
        rfl
      have rest : bytes.drop (p.position + 1) = bs ++ tail := by
        rw [← List.drop_drop, here]
        rfl
      rw [run_found first, look_wide p.position (wide b List.mem_cons_self)]
      refine (ih (fun b mem => wide b (List.mem_cons_of_mem _ mem)) rest).trans ?_
      rw [List.length_cons, Nat.add_right_comm, Nat.add_assoc]

theorem next_ne_region (c : Char) (cs text : List Char) :
    (Token.next c cs).1 ≠ .region text := by
  unfold Token.next
  repeat' split
  all_goals exact Token.noConfusion

theorem next_wide (wide : ¬ Narrow c) (cs : List Char) : Token.next c cs = (.plain c, cs) := by
  have ne : ∀ d ∈ ['?', '$', ':', '@'], c ≠ d := by
    rintro d mem rfl
    exact wide ((by simp [Narrow] : ∀ d ∈ ['?', '$', ':', '@'], Narrow d) c mem)
  simp only [List.mem_cons, List.not_mem_nil, or_false, forall_eq_or_imp, forall_eq] at ne
  simp [Token.next, isSigil, ne]

theorem narrow_of_opening? {width : Nat} (opens : opening? (c :: cs) = some (width, mark)) :
    Narrow c := by
  obtain ⟨f, mem, ⟨rest, eq⟩, -⟩ := opening?_eq_some_iff.mp opens
  simp only [fences, List.mem_cons, List.not_mem_nil, or_false] at mem
  rcases mem with rfl | rfl | rfl | rfl | rfl | rfl <;>
    · obtain ⟨rfl, -⟩ := List.cons.inj eq
      decide

/-- Where the characters before are known, what follows begins. -/
theorem here_of_eq {bytes : List UInt8} (whole : bytes = encode sql.toList)
    (eq : sql.toList = front ++ rest) : Here bytes (size front) rest where
  drop := by rw [whole, eq, encode_append, size, List.drop_left]
  le := by
    rw [whole, eq, encode_append, List.length_append]
    exact Nat.le_add_right _ _

theorem Here.first {bytes : List UInt8} {i : Nat} (here : Here bytes i (c :: cs))
    (narrow : Narrow c) : bytes[i]? = some c.toUInt8 := by
  rw [← List.head?_drop, here.drop, encode_cons, narrow.encode]
  rfl

theorem region_append {width : Nat} (opens : opening? (c :: cs) = some (width, mark)) :
    (c :: cs).take width ++ (splitPast mark (cs.drop (width - 1))).1 ++
      (splitPast mark (cs.drop (width - 1))).2 = c :: cs := by
  obtain ⟨n, rfl⟩ := Nat.exists_eq_add_one.mpr (width_pos_of_opening? opens)
  rw [List.append_assoc, append_splitPast, Nat.add_sub_cancel, List.take_succ_cons,
    List.cons_append, List.take_append_drop]

/-- A pass over what is left of a text does with it what a scan finds. -/
theorem run_scan (args : Record Value) {bytes : List UInt8} (whole : bytes = encode sql.toList)
    (agrees : Agrees p slots) (eq : sql.toList = front ++ mid ++ cs)
    (position : p.position = size (front ++ mid)) (copied : p.copied = size front) :
    (do let q ← Pass.run sql args bytes p; q.finish sql bytes) =
      outcome args p.out mid slots (Token.scan cs) := by
  fun_induction Token.scan cs generalizing p slots front mid with
  | case1 =>
      have here := here_of_eq whole eq
      have ended : bytes[p.position]? = none := by
        rw [← List.head?_drop, position, here.drop]
        rfl
      have rest : slice sql p.copied bytes.length = .ok (String.ofList mid) := by
        rw [copied, here.length, size_nil, Nat.add_zero]
        exact slice_eq eq
      rw [run_end ended]
      show p.finish sql bytes = _
      rw [Pass.finish, rest]
      simp [outcome, rewrite, agrees.2, bind, Except.bind]
  | case2 c rest width mark opens ih =>
      have here := here_of_eq whole eq
      have narrow := narrow_of_opening? opens
      rw [← position] at here
      have split := region_append opens
      rw [run_found (here.first narrow), look_region here narrow opens, outcome_region]
      refine ih (p := { p with position := _ }) agrees ?_ ?_ copied
      · rw [eq, List.append_assoc front (mid ++ _), List.append_assoc mid, split,
          List.append_assoc]
      · rw [position, ← size_append, List.append_assoc]
  | case3 c rest code ih =>
      have here := here_of_eq whole eq
      rw [← position] at here
      by_cases narrow : Narrow c
      · have found := look_code here narrow code
        have text := Token.text_next c rest
        rw [run_found (here.first narrow), found]
        cases token : (Token.next c rest).1 with
        | region text => exact absurd token (next_ne_region c rest text)
        | positional m => rfl
        | plain d =>
            rw [token] at text
            obtain ⟨rfl, after⟩ := List.cons.inj text
            have width : size [d] = 1 := by rw [size_cons, narrow.encode]; rfl
            rw [outcome_plain]
            refine ih (p := { p with position := _ }) agrees ?_ ?_ copied
            · rw [eq, List.append_assoc front (mid ++ [d]), List.append_assoc mid, ← text,
                List.append_assoc]
              rfl
            · rw [← List.append_assoc, size_append, width, ← position]
        | named sigil name =>
            rw [token] at text
            obtain ⟨rfl, after⟩ := List.cons.inj text
            have whole_eq : sql.toList =
                front ++ mid ++ (sigil :: name) ++ (Token.next sigil rest).2 := by
              rw [eq, ← text, ← List.append_assoc]
              rfl
            have stop : p.position + 1 + size name = size (front ++ mid ++ (sigil :: name)) := by
              rw [position, size_append (front ++ mid), size_cons, narrow.encode, Nat.add_assoc]
              rfl
            obtain ⟨q, replaced, agrees', out⟩ :=
              replace_eq args agrees narrow.encode whole_eq position copied
            rw [outcome_named, ← out]
            simp only [ofToken, stop, replaced]
            exact ih (p := { q with position := _, copied := _ }) agrees'
              (by rw [List.append_nil, whole_eq]) (by rw [List.append_nil]) rfl
      · rw [next_wide narrow] at ih ⊢
        have bytes_c := here.drop
        rw [encode_cons] at bytes_c
        rw [run_wide (wide_bytes narrow) bytes_c, outcome_plain]
        refine ih (p := { p with position := _ }) agrees ?_ ?_ copied
        · rw [eq]
          simp
        · rw [position]
          simp [size, Nat.add_assoc]

/-- A pass over the bytes of a text does what `expand` does with its characters, and takes no
slice that tears one. -/
theorem expand_eq (sql : String) (args : Record Value) :
    Bytes.expand sql args = (Placeholder.expand sql args).mapError .refused := by
  have start : Agrees {} [] := ⟨rfl, rfl⟩
  have run := run_scan args (bytes_eq sql) start
    (show sql.toList = [] ++ [] ++ sql.toList from rfl) rfl rfl
  rw [Bytes.expand, Placeholder.expand]
  refine run.trans ?_
  rw [outcome]
  cases (Token.scan sql.toList).findSome? Token.mark? with
  | some m => rfl
  | none =>
      simp only [List.nil_append, String.empty_append]
      rfl

end Bytes

end Placeholder

end ConnectionPool
