import ConnectionPool.Json.Reader
import ConnectionPool.Proofs.Double.Shortest
import Mathlib.Tactic.IntervalCases

/-!
# Numbers read back

A `Numeral` is what the text of a number consists of: an integer part, the places behind the
point and an exponent.  Reading the text of a numeral gives its decimal, and an integer when it
has neither places nor exponent (`unsigned?_text`).

An integer is written as a numeral without places and exponent.  A double is written in one of
five layouts, and each of them is a numeral with places or an exponent which stands for the same
number as the decimal that is laid out (`exists_numeral`).  So integers and doubles are told
apart when they are read, and both come back as they were (`number?_writeInt`,
`number?_writeDouble`).
-/

namespace ConnectionPool

namespace Json

variable {cs rest digits : List Char} {c : Char} {n : Nat} {d : Decimal}

/-! ## Digits -/

/-- Every character is a decimal digit. -/
def IsDigits (cs : List Char) : Prop := ∀ c ∈ cs, c.isDigit = true

/-- What follows is no digit. -/
def StopsDigits (cs : List Char) : Prop := ∀ c ∈ cs.head?, c.isDigit = false

theorem takeWhile_digits (isDigits : IsDigits digits) (stops : StopsDigits rest) :
    (digits ++ rest).takeWhile Char.isDigit = digits := by
  rw [List.takeWhile_append_of_pos isDigits]
  cases rest with
  | nil => simp
  | cons c rest => simp [stops c rfl]

theorem dropWhile_digits (isDigits : IsDigits digits) (stops : StopsDigits rest) :
    (digits ++ rest).dropWhile Char.isDigit = rest := by
  rw [List.dropWhile_append_of_pos isDigits]
  cases rest with
  | nil => simp
  | cons c rest => simp [stops c rfl]

theorem isDigits_digitsOf (n : Nat) : IsDigits (Decimal.digitsOf n) := fun _ mem =>
  Nat.isDigit_of_mem_toDigits (by omega) (by omega) mem

theorem isDigits_zeros (n : Nat) : IsDigits (List.replicate n '0') := fun c mem => by
  rw [List.eq_of_mem_replicate mem]
  rfl

@[simp] theorem digitsOf_ne_nil (n : Nat) : Decimal.digitsOf n ≠ [] := Nat.toDigits_ne_nil

theorem digitsValue_digitsOf (n : Nat) : digitsValue (Decimal.digitsOf n) = n :=
  Nat.ofDigitChars_ten_toDigits

theorem digitsValue_zeros_append (n : Nat) (cs : List Char) :
    digitsValue (List.replicate n '0' ++ cs) = digitsValue cs := by
  change Nat.ofDigitChars 10 _ 0 = Nat.ofDigitChars 10 _ 0
  rw [Nat.ofDigitChars_append, Nat.ofDigitChars_replicate_zero, Nat.mul_zero]

theorem digitsValue_append_zeros (cs : List Char) (n : Nat) :
    digitsValue (cs ++ List.replicate n '0') = digitsValue cs * 10 ^ n := by
  change Nat.ofDigitChars 10 _ 0 = Nat.ofDigitChars 10 _ 0 * 10 ^ n
  rw [Nat.ofDigitChars_append, Nat.ofDigitChars_replicate_zero, Nat.mul_comm]

/-- Only zero is written with a leading zero. -/
theorem head_digitsOf (nonzero : n ≠ 0) : (Decimal.digitsOf n).head? ≠ some '0' := by
  induction n using Nat.strongRecOn with
  | ind n ih =>
    rw [Decimal.digitsOf]
    rcases Nat.lt_or_ge n 10 with small | large
    · rw [Nat.toDigits_of_lt_base small]
      interval_cases n <;> simp_all [Nat.digitChar]
    · have shorter := ih (n / 10) (by omega) (by omega)
      rw [Nat.toDigits_of_base_le (by omega) large, List.head?_append]
      rw [Decimal.digitsOf] at shorter
      cases front : (Nat.toDigits 10 (n / 10)).head? with
      | none => exact absurd (List.head?_eq_none_iff.mp front) Nat.toDigits_ne_nil
      | some c => simpa [front] using shorter

/-! ## Numerals -/

/-- The text of a number without its sign, in parts. -/
structure Numeral where
  /-- The digits before the point. -/
  whole : List Char
  /-- The digits behind it. -/
  places : List Char
  /-- The exponent, if one is written. -/
  power : Option Int
  isDigits_whole : IsDigits whole
  isDigits_places : IsDigits places
  whole_ne_nil : whole ≠ []
  /-- A leading zero stands alone. -/
  leading_zero : whole.head? = some '0' → whole.length = 1

namespace Numeral

/-- The point with the places, when there are any. -/
def pointText (places : List Char) : List Char := if places.isEmpty then [] else '.' :: places

/-- The exponent behind its sign. -/
def powerText : Option Int → List Char
  | none => []
  | some p => 'e' :: (if p < 0 then '-' else '+') :: Decimal.digitsOf p.natAbs

/-- The whole text. -/
def text (n : Numeral) : List Char := n.whole ++ (pointText n.places ++ powerText n.power)

/-- The number it stands for. -/
def decimal (n : Numeral) : Decimal :=
  ⟨digitsValue (n.whole ++ n.places), n.power.getD 0 - n.places.length⟩

/-- There are neither places nor an exponent. -/
def isInteger (n : Numeral) : Bool := n.places.isEmpty && n.power.isNone

/-- The digits of a natural number. -/
def ofNat (n : Nat) : Numeral where
  whole := Decimal.digitsOf n
  places := []
  power := none
  isDigits_whole := isDigits_digitsOf n
  isDigits_places := by simp [IsDigits]
  whole_ne_nil := digitsOf_ne_nil n
  leading_zero := fun zero => by
    rcases Nat.eq_zero_or_pos n with rfl | positive
    · rfl
    · exact absurd zero (head_digitsOf positive.ne')

end Numeral

/-! ## Reading a numeral -/

/-- What may follow a value: nothing, or what ends an item of an array or an object. -/
inductive Ended : List Char → Prop where
  | nil : Ended []
  | comma (rest : List Char) : Ended (',' :: rest)
  | bracket (rest : List Char) : Ended (']' :: rest)
  | brace (rest : List Char) : Ended ('\x7d' :: rest)

theorem Ended.stopsDigits (ended : Ended rest) : StopsDigits rest := by
  cases ended <;> simp [StopsDigits]

theorem Ended.fraction? (ended : Ended rest) : fraction? rest = some ([], rest) := by
  cases ended <;> rfl

theorem Ended.exponent? (ended : Ended rest) : exponent? rest = some (none, rest) := by
  cases ended <;> rfl

theorem fraction?_pointText {places : List Char} (isDigits : IsDigits places)
    (stops : StopsDigits rest) (plain : fraction? rest = some ([], rest)) :
    fraction? (Numeral.pointText places ++ rest) = some (places, rest) := by
  cases places with
  | nil => exact plain
  | cons c places =>
    have taken := takeWhile_digits isDigits stops
    have left := dropWhile_digits isDigits stops
    rw [List.cons_append] at taken left
    simp [Numeral.pointText, fraction?, taken, left]

theorem exponent?_powerText (power : Option Int) (ended : Ended rest) :
    exponent? (Numeral.powerText power ++ rest) = some (power, rest) := by
  cases power with
  | none => exact ended.exponent?
  | some p =>
    have taken := takeWhile_digits (isDigits_digitsOf p.natAbs) ended.stopsDigits
    have left := dropWhile_digits (isDigits_digitsOf p.natAbs) ended.stopsDigits
    rcases lt_or_ge p 0 with negative | nonneg
    · simp [Numeral.powerText, negative, exponent?, taken, left, digitsValue_digitsOf,
        abs_of_neg negative]
    · simp [Numeral.powerText, not_lt.mpr nonneg, exponent?, taken, left,
        digitsValue_digitsOf, abs_of_nonneg nonneg]

theorem stopsDigits_powerText (power : Option Int) (ended : Ended rest) :
    StopsDigits (Numeral.powerText power ++ rest) := by
  cases power with
  | none => exact ended.stopsDigits
  | some p =>
    simp [Numeral.powerText, StopsDigits]

theorem fraction?_powerText (power : Option Int) (ended : Ended rest) :
    fraction? (Numeral.powerText power ++ rest) = some ([], Numeral.powerText power ++ rest) := by
  cases power with
  | none => exact ended.fraction?
  | some p => rfl

theorem stopsDigits_pointText (places : List Char) (stops : StopsDigits rest) :
    StopsDigits (Numeral.pointText places ++ rest) := by
  cases places with
  | nil => exact stops
  | cons c places =>
    simp [Numeral.pointText, StopsDigits]

/-- Reading the text of a numeral. -/
theorem unsigned?_text (numeral : Numeral) (negative : Bool) (ended : Ended rest) :
    unsigned? negative (numeral.text ++ rest) =
      (if numeral.isInteger then integer? negative (digitsValue numeral.whole)
        else (Double.ofDecimal? negative numeral.decimal).map .real).map fun j => (j, rest) := by
  have stops := stopsDigits_pointText numeral.places
    (stopsDigits_powerText numeral.power ended)
  have taken := takeWhile_digits numeral.isDigits_whole stops
  have left := dropWhile_digits numeral.isDigits_whole stops
  have fraction := fraction?_pointText numeral.isDigits_places
    (stopsDigits_powerText numeral.power ended) (fraction?_powerText numeral.power ended)
  have proper : (numeral.whole.isEmpty ||
      numeral.whole.head? == some '0' && decide (1 < numeral.whole.length)) = false := by
    have nonempty := numeral.whole_ne_nil
    have leading := numeral.leading_zero
    simp only [Bool.or_eq_false_iff, List.isEmpty_eq_false_iff, Bool.and_eq_false_imp, beq_iff_eq,
      decide_eq_false_iff_not]
    exact ⟨nonempty, fun zero => by rw [leading zero]; omega⟩
  simp only [unsigned?, Numeral.text, List.append_assoc, taken, left, proper, Bool.false_eq_true,
    if_false, fraction, Option.bind_eq_bind, Option.bind_some,
    exponent?_powerText numeral.power ended, Numeral.isInteger, Numeral.decimal]
  by_cases integer : (numeral.places.isEmpty && numeral.power.isNone) = true
  · simp only [integer, if_true]
    cases integer? negative (digitsValue numeral.whole) <;> rfl
  · simp only [integer, Bool.false_eq_true, if_false]
    cases Double.ofDecimal? negative _ <;> rfl

/-- The text of a numeral begins with a digit. -/
theorem Numeral.exists_head (numeral : Numeral) :
    ∃ c tail, numeral.text = c :: tail ∧ c.isDigit = true := by
  cases whole : numeral.whole with
  | nil => exact absurd whole numeral.whole_ne_nil
  | cons c cs =>
    exact ⟨c, _, by rw [text, whole]; rfl, numeral.isDigits_whole c (by rw [whole]; simp)⟩

/-- A sign is read first. -/
theorem number?_signed (numeral : Numeral) (negative : Bool) (rest : List Char) :
    number? ((if negative then ['-'] else []) ++ (numeral.text ++ rest)) =
      unsigned? negative (numeral.text ++ rest) := by
  cases negative with
  | true => rfl
  | false =>
    obtain ⟨c, tail, text, isDigit⟩ := numeral.exists_head
    have noSign : c ≠ '-' := by
      rintro rfl
      exact absurd isDigit (by decide)
    simp [text, number?, noSign]

/-! ## Integers -/

theorem writeInt_eq (i : Int) :
    writeInt i = (if decide (i < 0) then ['-'] else []) ++ (Numeral.ofNat i.natAbs).text := by
  by_cases negative : i < 0 <;>
    simp [writeInt, negative, Numeral.text, Numeral.ofNat, Numeral.pointText, Numeral.powerText]

/-- The integers that are written and read as such: signed or unsigned in 64 bits. -/
def FitsInteger (i : Int) : Prop := Int64.minValue.toInt ≤ i ∧ i < UInt64.size

/-- An integer reads back. -/
theorem number?_writeInt {i : Int} (fits : FitsInteger i) (ended : Ended rest) :
    number? (writeInt i ++ rest) = some (.int i, rest) := by
  rw [writeInt_eq, List.append_assoc, number?_signed, unsigned?_text _ _ ended]
  obtain ⟨least, greatest⟩ := fits
  have whole : digitsValue (Numeral.ofNat i.natAbs).whole = i.natAbs := digitsValue_digitsOf _
  have integer : integer? (decide (i < 0)) i.natAbs = some (.int i) := by
    rcases lt_or_ge i 0 with negative | nonneg
    · simpa [integer?, negative, abs_of_neg negative, negative.ne] using least
    · have below : i.natAbs < UInt64.size := by omega
      simp [integer?, not_lt.mpr nonneg, abs_of_nonneg nonneg, below]
  rw [whole, integer]
  rfl

/-! ## Doubles -/

theorem isDigits_append (left : IsDigits cs) (right : IsDigits digits) : IsDigits (cs ++ digits) :=
  fun c mem => (List.mem_append.mp mem).elim (left c) (right c)

theorem isDigits_sublist (sublist : List.Sublist cs digits) (isDigits : IsDigits digits) :
    IsDigits cs := fun c mem => isDigits c (sublist.mem mem)

theorem isDigits_zero : IsDigits ['0'] := isDigits_zeros 1

namespace Numeral

/-- Zero before the point. -/
def zeroPoint (places : List Char) (isDigits : IsDigits places) : Numeral where
  whole := ['0']
  places := places
  power := none
  isDigits_whole := isDigits_zero
  isDigits_places := isDigits
  whole_ne_nil := by simp
  leading_zero := fun _ => rfl

/-- The leading digit before the point and an exponent behind the others. -/
def scientific (n : Nat) (power : Int) : Numeral where
  whole := (Decimal.digitsOf n).take 1
  places := (Decimal.digitsOf n).drop 1
  power := some power
  isDigits_whole := isDigits_sublist (List.take_sublist _ _) (isDigits_digitsOf n)
  isDigits_places := isDigits_sublist (List.drop_sublist _ _) (isDigits_digitsOf n)
  whole_ne_nil := by simp
  leading_zero := fun _ => by
    have : 0 < (Decimal.digitsOf n).length := Nat.length_toDigits_pos
    rw [List.length_take]
    omega

/-- Digits of a number other than zero before the point. -/
def leading (n : Nat) (nonzero : n ≠ 0) (whole places : List Char) (isDigits : IsDigits whole)
    (isPlaces : IsDigits places) (head : whole.head? = (Decimal.digitsOf n).head?) : Numeral where
  whole := whole
  places := places
  power := none
  isDigits_whole := isDigits
  isDigits_places := isPlaces
  whole_ne_nil := by
    rintro rfl
    exact digitsOf_ne_nil n (List.head?_eq_none_iff.mp head.symm)
  leading_zero := fun zero => absurd (head ▸ zero) (head_digitsOf nonzero)

end Numeral

theorem scientific_decimal (d : Decimal) :
    (Numeral.scientific d.digits ((Decimal.digitsOf d.digits).length - 1 + d.exponent)).decimal = d := by
  have count : 0 < (Decimal.digitsOf d.digits).length := Nat.length_toDigits_pos
  simp only [Numeral.decimal, Numeral.scientific, List.take_append_drop, digitsValue_digitsOf,
    Option.getD_some, List.length_drop]
  rw [show ((Decimal.digitsOf d.digits).length : Int) - 1 + d.exponent -
    ((Decimal.digitsOf d.digits).length - 1 : Nat) = d.exponent by omega]

theorem scientific_text (n : Nat) (power : Int) :
    (Numeral.scientific n power).text =
      (String.ofList ((Decimal.digitsOf n).take 1 ++
          if ((Decimal.digitsOf n).drop 1).isEmpty then [] else '.' :: (Decimal.digitsOf n).drop 1) ++
        (if power < 0 then numberLayout.negativeMark else numberLayout.positiveMark) ++
        toString power.natAbs).toList := by
  have mark : (if power < 0 then numberLayout.negativeMark else numberLayout.positiveMark).toList =
      ['e', if power < 0 then '-' else '+'] := by
    split <;> rfl
  simp only [Numeral.text, Numeral.scientific, Numeral.pointText, Numeral.powerText,
    String.toList_append, String.toList_ofList, mark, Nat.toString_eq_ofList_toDigits,
    Decimal.digitsOf, List.append_assoc, List.cons_append, List.nil_append]
  rfl

/-- A layout without an exponent is an integer part, a point and places. -/
theorem leading_text {nonzero : n ≠ 0} {whole places : List Char} {isDigits : IsDigits whole}
    {isPlaces : IsDigits places} {head : whole.head? = (Decimal.digitsOf n).head?}
    (somePlaces : places ≠ []) :
    (Numeral.leading n nonzero whole places isDigits isPlaces head).text =
      whole ++ '.' :: places := by
  simp [Numeral.text, Numeral.leading, Numeral.pointText, Numeral.powerText, somePlaces]

/-- A whole number other than zero, written out with `.0` behind it. -/
theorem exists_numeral_whole (nonzero : d.digits ≠ 0) (whole : 0 ≤ d.exponent) :
    ∃ numeral : Numeral,
      numeral.text = (String.ofList (Double.padded (Decimal.digitsOf d.digits) d.exponent.toNat) ++
        numberLayout.integerTail).toList ∧
      numeral.isInteger = false ∧ numeral.decimal.value = d.value := by
  have isDigits : IsDigits (Double.padded (Decimal.digitsOf d.digits) d.exponent.toNat) :=
    isDigits_append (isDigits_digitsOf _) (isDigits_zeros _)
  have head : (Double.padded (Decimal.digitsOf d.digits) d.exponent.toNat).head? =
      (Decimal.digitsOf d.digits).head? := by
    rw [Double.padded, List.head?_append_of_ne_nil _ (digitsOf_ne_nil _)]
  refine ⟨.leading d.digits nonzero _ ['0'] isDigits isDigits_zero head, ?_, rfl, ?_⟩
  · rw [leading_text (by simp), String.toList_append, String.toList_ofList]
    rfl
  · obtain ⟨e, exponent⟩ := Int.eq_ofNat_of_zero_le whole
    have zeros : Double.padded (Decimal.digitsOf d.digits) e ++ ['0'] =
        Decimal.digitsOf d.digits ++ List.replicate (e + 1) '0' := by
      rw [Double.padded, List.replicate_succ', List.append_assoc]
    simp only [Numeral.decimal, Numeral.leading, exponent, Int.toNat_natCast, zeros,
      digitsValue_append_zeros, digitsValue_digitsOf, Decimal.value, Option.getD_none,
      List.length_singleton, zpow_natCast]
    push_cast
    ring

/-- A number whose point stands between its digits. -/
theorem exists_numeral_inside (nonzero : d.digits ≠ 0) (fractional : d.exponent < 0)
    (inside : (-d.exponent).toNat < (Decimal.digitsOf d.digits).length) :
    ∃ numeral : Numeral,
      numeral.text = (String.ofList
        ((Decimal.digitsOf d.digits).take ((Decimal.digitsOf d.digits).length - (-d.exponent).toNat) ++
          '.' :: (Decimal.digitsOf d.digits).drop
            ((Decimal.digitsOf d.digits).length - (-d.exponent).toNat))).toList ∧
      numeral.isInteger = false ∧ numeral.decimal.value = d.value := by
  generalize point : (Decimal.digitsOf d.digits).length - (-d.exponent).toNat = k
  have head : ((Decimal.digitsOf d.digits).take k).head? = (Decimal.digitsOf d.digits).head? :=
    by rw [List.head?_take, if_neg (by omega)]
  have places : ((Decimal.digitsOf d.digits).drop k).length = (-d.exponent).toNat := by
    rw [List.length_drop]
    omega
  have somePlaces : (Decimal.digitsOf d.digits).drop k ≠ [] := by
    rw [ne_eq, ← List.length_eq_zero_iff, places]
    omega
  refine ⟨.leading d.digits nonzero _ ((Decimal.digitsOf d.digits).drop k)
    (isDigits_sublist (List.take_sublist _ _) (isDigits_digitsOf _))
    (isDigits_sublist (List.drop_sublist _ _) (isDigits_digitsOf _)) head, ?_, ?_, ?_⟩
  · rw [leading_text somePlaces, String.toList_ofList]
  · simp [Numeral.isInteger, Numeral.leading, List.isEmpty_eq_false_iff.mpr somePlaces]
  · simp only [Numeral.decimal, Numeral.leading, List.take_append_drop, digitsValue_digitsOf, places,
      Option.getD_none, Decimal.value]
    rw [show (0 : Int) - ((-d.exponent).toNat : Nat) = d.exponent by omega]

/-- A number below one, with zeros between the point and its digits. -/
theorem exists_numeral_outside (fractional : d.exponent < 0)
    (outside : (Decimal.digitsOf d.digits).length ≤ (-d.exponent).toNat) :
    ∃ numeral : Numeral,
      numeral.text = (String.ofList ('0' :: '.' ::
        (List.replicate ((-d.exponent).toNat - (Decimal.digitsOf d.digits).length) '0' ++
          Decimal.digitsOf d.digits))).toList ∧
      numeral.isInteger = false ∧ numeral.decimal.value = d.value := by
  generalize zeros : (-d.exponent).toNat - (Decimal.digitsOf d.digits).length = k
  have isDigits : IsDigits (List.replicate k '0' ++ Decimal.digitsOf d.digits) :=
    isDigits_append (isDigits_zeros _) (isDigits_digitsOf _)
  refine ⟨.zeroPoint _ isDigits, ?_, ?_, ?_⟩
  · simp [Numeral.zeroPoint, Numeral.text, Numeral.pointText, Numeral.powerText]
  · simp [Numeral.isInteger, Numeral.zeroPoint]
  · have digits : digitsValue (['0'] ++ (List.replicate k '0' ++ Decimal.digitsOf d.digits)) =
        d.digits := by
      rw [← List.append_assoc, ← List.replicate_one, List.replicate_append_replicate,
        digitsValue_zeros_append, digitsValue_digitsOf]
    simp only [Numeral.decimal, Numeral.zeroPoint, digits, Option.getD_none, List.length_append,
      List.length_replicate, Decimal.value]
    rw [show (0 : Int) - (k + (Decimal.digitsOf d.digits).length : Nat) = d.exponent by omega]

/-- Every layout of a decimal is a numeral that is no integer and stands for the same number. -/
theorem exists_numeral (d : Decimal) : ∃ numeral : Numeral,
    numeral.text = (numberLayout.write d).toList ∧ numeral.isInteger = false ∧
      numeral.decimal.value = d.value := by
  simp only [Double.Layout.write]
  by_cases zero : d.digits = 0
  · refine ⟨.zeroPoint ['0'] isDigits_zero, ?_, rfl, ?_⟩
    · rw [if_pos zero]
      rfl
    · rw [Decimal.value_eq_zero.mpr zero, Decimal.value_eq_zero]
      rfl
  rw [if_neg zero]
  split
  next far =>
    refine ⟨.scientific d.digits ((Decimal.digitsOf d.digits).length - 1 + d.exponent),
      scientific_text .., ?_, by rw [scientific_decimal]⟩
    simp [Numeral.isInteger, Numeral.scientific]
  next near =>
    split
    next whole => exact exists_numeral_whole zero whole
    next fractional =>
      split
      next inside => exact exists_numeral_inside zero (not_le.mp fractional) inside
      next outside => exact exists_numeral_outside (not_le.mp fractional) (not_lt.mp outside)

/-- A finite double reads back, and not as an integer. -/
theorem number?_writeDouble {x : Double} (finite : x.isFinite) (ended : Ended rest) :
    number? (writeDouble x ++ rest) = some (.real x, rest) := by
  obtain ⟨numeral, text, real, value⟩ := exists_numeral x.shortest
  rw [writeDouble, if_pos finite, ← text, List.append_assoc, number?_signed,
    unsigned?_text _ _ ended, real, Double.ofDecimal?_of_shortest finite value]
  rfl

end Json

end ConnectionPool
