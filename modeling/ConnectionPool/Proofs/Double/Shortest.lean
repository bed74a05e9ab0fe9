import ConnectionPool.Double.Decimal
import ConnectionPool.Proofs.Double.Rounding

/-!
# The shortest decimal reads back

Which double a decimal is read as depends on the number it stands for and not on how the number
is split into digits and exponent (`wordOfDecimal?_congr`).  The bounds on the exponent beyond
which no power of ten is computed depend on the number too, and every finite double lies well
within them.

So the decimal that the search for few digits finds keeps reading back when its trailing zeros
are dropped, and so does the exact expansion that is taken when the search finds none
(`wordOfDecimal?_shortest`).
-/

namespace ConnectionPool

variable {d d' : Decimal} {word num den : Nat} {e : Int}

namespace Decimal

/-! ## The number a decimal stands for -/

/-- The number. -/
def value (d : Decimal) : ℚ := d.digits * (10 : ℚ) ^ d.exponent

theorem ratio_value (d : Decimal) : (d.ratio.1 : ℚ) / d.ratio.2 = d.value := by
  have moved := Double.div_mul_zpow (b := 10) (by omega) d.digits 1 d.exponent
  simpa [ratio, value] using moved.symm

theorem value_eq_zero : d.value = 0 ↔ d.digits = 0 := by
  simp [value, zpow_ne_zero]

theorem ratio_den_pos (d : Decimal) : 0 < d.ratio.2 := Nat.pow_pos (by omega)

/-- The digits of a number are as many as the powers of ten below it. -/
theorem pow_length_digitsOf {n : Nat} (nonzero : n ≠ 0) :
    10 ^ ((digitsOf n).length - 1) ≤ n ∧ n < 10 ^ (digitsOf n).length := by
  have positive : 0 < (digitsOf n).length := Nat.length_toDigits_pos
  refine ⟨?_, (Nat.length_toDigits_le_iff (by omega) positive).mp (le_refl _)⟩
  rcases Nat.eq_zero_or_pos ((digitsOf n).length - 1) with one | more
  · rw [one, Nat.pow_zero]
    omega
  · by_contra below
    have := (Nat.length_toDigits_le_iff (by omega) more).mpr (Nat.lt_of_not_le below)
    rw [← digitsOf] at this
    omega

/-- The number of digits before the point is one more than the decimal logarithm. -/
theorem size_eq (nonzero : d.digits ≠ 0) :
    ((digitsOf d.digits).length : Int) + d.exponent = Int.log 10 d.value + 1 := by
  obtain ⟨lower, upper⟩ := pow_length_digitsOf nonzero
  have positive : 0 < (digitsOf d.digits).length := Nat.length_toDigits_pos
  have power : (0 : ℚ) < 10 ^ d.exponent := zpow_pos (by norm_num) _
  have logarithm : Int.log 10 d.value = ((digitsOf d.digits).length - 1 : Nat) + d.exponent := by
    apply Double.log_eq (by omega) <;> rw [value, Nat.cast_ofNat]
    · rw [zpow_add₀ (by norm_num), zpow_natCast]
      gcongr
      exact_mod_cast lower
    · rw [add_right_comm, ← Nat.cast_succ, Nat.succ_eq_add_one, Nat.sub_add_cancel positive,
        zpow_add₀ (by norm_num), zpow_natCast]
      gcongr
      exact_mod_cast upper
  omega

/-- Dropping trailing zeros changes the notation only. -/
theorem trim_value (fuel : Nat) (d : Decimal) : (trim fuel d).value = d.value := by
  induction fuel generalizing d with
  | zero => rfl
  | succ fuel ih =>
    rw [trim]
    split
    next trailing =>
      rw [ih, value, value]
      have whole : d.digits / 10 * 10 = d.digits := Nat.div_mul_cancel (Nat.dvd_of_mod_eq_zero trailing.2)
      calc ((d.digits / 10 : Nat) : ℚ) * 10 ^ (d.exponent + 1)
          = ((d.digits / 10 * 10 : Nat) : ℚ) * 10 ^ d.exponent := by
            rw [zpow_add_one₀ (by norm_num)]
            push_cast
            ring
        _ = d.digits * 10 ^ d.exponent := by rw [whole]
    next => rfl

end Decimal

namespace Double

/-! ## Reading a decimal -/

/-- Which double is nearest depends on the number alone. -/
theorem wordOfDecimal?_congr (same : d.value = d'.value) : wordOfDecimal? d = wordOfDecimal? d' := by
  by_cases zero : d.digits = 0
  · have zero' : d'.digits = 0 := by
      rw [← Decimal.value_eq_zero, ← same, Decimal.value_eq_zero.mpr zero]
    simp [wordOfDecimal?, zero, zero']
  · have nonzero' : d'.digits ≠ 0 := by
      rwa [ne_eq, ← Decimal.value_eq_zero, ← same, Decimal.value_eq_zero]
    have rounded : roundRatio d.ratio.1 d.ratio.2 = roundRatio d'.ratio.1 d'.ratio.2 :=
      roundRatio_congr d.ratio_den_pos d'.ratio_den_pos (by rw [d.ratio_value, d'.ratio_value, same])
    simp only [wordOfDecimal?, if_neg zero, if_neg nonzero', Decimal.size_eq zero,
      Decimal.size_eq nonzero', same, rounded]

theorem ofDecimal?_congr (same : d.value = d'.value) (negative : Bool) :
    ofDecimal? negative d = ofDecimal? negative d' := by
  rw [ofDecimal?, ofDecimal?, wordOfDecimal?_congr same]

/-- Three powers of two are less than one of ten. -/
theorem two_zpow_lt {n : Int} (small : n ≤ 1200) : (2 : ℚ) ^ n < 10 ^ (400 : Int) :=
  calc (2 : ℚ) ^ n ≤ 2 ^ ((3 * 400 : Nat) : Int) := by gcongr <;> norm_num; exact small
    _ = 8 ^ 400 := by rw [zpow_natCast, pow_mul]; norm_num
    _ < 10 ^ 400 := by gcongr; norm_num
    _ = 10 ^ (400 : Int) := (zpow_natCast _ _).symm

/-- The decimal logarithm of a finite double is far within the bounds. -/
theorem log_value_bounds (finite : word < infinityWord) (nonzero : word ≠ 0) :
    -400 ≤ Int.log 10 (magnitudeOfWord word).value ∧
      Int.log 10 (magnitudeOfWord word).value < 400 := by
  have least := le_value nonzero
  have positive : 0 < (magnitudeOfWord word).value :=
    lt_of_lt_of_le (zpow_pos (by norm_num) _) least
  constructor
  · rw [← Int.zpow_le_iff_le_log (by omega) positive]
    refine le_trans ?_ least
    rw [zpow_neg, zpow_neg]
    gcongr
    exact (two_zpow_lt (by norm_num)).le
  · rw [← Int.lt_zpow_iff_log_lt (by omega) positive]
    exact lt_trans (value_lt finite) (two_zpow_lt (by norm_num))

/-- A decimal that stands for the value of a finite double is read as the double. -/
theorem wordOfDecimal?_of_value (finite : word < infinityWord) (nonzero : word ≠ 0)
    (value : d.value = (magnitudeOfWord word).value) : wordOfDecimal? d = some word := by
  have positive : 0 < (magnitudeOfWord word).value :=
    lt_of_lt_of_le (zpow_pos (by norm_num) _) (le_value nonzero)
  have digits : d.digits ≠ 0 := by
    rw [ne_eq, ← Decimal.value_eq_zero, value]
    exact positive.ne'
  obtain ⟨lower, upper⟩ := log_value_bounds finite nonzero
  have rounded : roundRatio d.ratio.1 d.ratio.2 = word :=
    roundRatio_of_value d.ratio_den_pos (d.ratio_value.trans value)
  simp only [wordOfDecimal?, if_neg digits, Decimal.size_eq digits, value, rounded, if_pos finite]
  rw [if_neg (by omega), if_neg (by omega)]

/-! ## The decimal that is written -/

theorem exactDecimal_value (m : Magnitude) : (exactDecimal m).value = m.value := by
  have two : (2 : ℚ) ^ m.exponent = 2 ^ m.exponent.toNat / 2 ^ (-m.exponent).toNat := by
    exact_mod_cast zpow_eq_div (b := 2) (by omega) m.exponent
  simp only [exactDecimal, Decimal.value, Magnitude.value, two, Nat.pow_eq, zpow_neg, zpow_natCast]
  push_cast
  rw [show (10 : ℚ) = 2 * 5 by norm_num, mul_pow]
  field_simp

/-- What is found on a grid reads back. -/
theorem wordOfDecimal?_of_onGrid? (found : onGrid? word num den e = some d) :
    wordOfDecimal? d = some word := by
  simp only [onGrid?] at found
  split at found
  next => cases found
  next low _ =>
    cases found
    simpa using low
  next _ high =>
    cases found
    simpa using high
  next low high =>
    split at found
    · cases found
      simpa using low
    · split at found
      · cases found
        simpa using high
      · split at found <;> cases found
        · simpa using low
        · simpa using high

theorem wordOfDecimal?_shortestOfWord (finite : word < infinityWord) (nonzero : word ≠ 0) :
    wordOfDecimal? (shortestOfWord word) = some word := by
  simp only [shortestOfWord]
  rw [wordOfDecimal?_congr (Decimal.trim_value ..)]
  generalize search : List.findSome? _ _ = found
  cases found with
  | none => exact wordOfDecimal?_of_value finite nonzero (exactDecimal_value _)
  | some d =>
    obtain ⟨n, _, grid⟩ := List.exists_of_findSome?_eq_some search
    exact wordOfDecimal?_of_onGrid? grid

/-- The shortest decimal of a finite double reads back as its magnitude. -/
theorem wordOfDecimal?_shortest {x : Double} (finite : x.isFinite) :
    wordOfDecimal? x.shortest = some x.magnitudeWord := by
  rw [shortest]
  split
  next zero => rw [zero, wordOfDecimal?, if_pos rfl]
  next nonzero => exact wordOfDecimal?_shortestOfWord (by simpa [isFinite] using finite) nonzero

/-- A double is its sign and its magnitude. -/
theorem ofWord_magnitudeWord (x : Double) : ofWord x.isNegative x.magnitudeWord = x := by
  have bound : x.bits.toNat < 2 * signWord := x.bits.toNat_lt
  have word : (if x.isNegative then signWord + x.magnitudeWord else x.magnitudeWord) =
      x.bits.toNat := by
    simp only [isNegative, magnitudeWord, decide_eq_true_eq]
    split
    next high => rw [Nat.mod_eq_sub_mod high, Nat.mod_eq_of_lt (by omega)]; omega
    next low => exact Nat.mod_eq_of_lt (by omega)
  rw [ofWord, word, UInt64.ofNat_toNat]

/-- A finite double is what any decimal of the same value as its shortest one is read as,
behind its sign. -/
theorem ofDecimal?_of_shortest {x : Double} (finite : x.isFinite)
    (same : d.value = x.shortest.value) : ofDecimal? x.isNegative d = some x := by
  rw [ofDecimal?_congr same, ofDecimal?, wordOfDecimal?_shortest finite, Option.map_some,
    ofWord_magnitudeWord]

end Double

end ConnectionPool
