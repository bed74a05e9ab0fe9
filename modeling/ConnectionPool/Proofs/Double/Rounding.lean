import ConnectionPool.Double
import Mathlib.Algebra.Order.Field.Power
import Mathlib.Data.Int.Log
import Mathlib.Data.Rat.Floor
import Mathlib.Tactic.Linarith
import Mathlib.Tactic.NormNum
import Mathlib.Tactic.Positivity

/-!
# Rounding a ratio to a double

Rounding reads a numerator and a denominator, and what comes out depends on their quotient
alone (`roundRatio_congr`).  The binary logarithm that the rounding starts from is the exact
one (`floorLog2_eq`), whatever its first guess was.

A quotient that is the value of a magnitude word is rounded to that word
(`roundRatio_of_value`): nothing is lost where a double is the answer already.
-/

namespace ConnectionPool

namespace Double

variable {num den num' den' m word : Nat} {q : Int}

/-! ## Integer powers -/

/-- An integer power as a quotient of two natural ones. -/
theorem zpow_eq_div {b : Nat} (positive : 0 < b) (e : Int) :
    (b : ℚ) ^ e = ((b ^ e.toNat : Nat) : ℚ) / ((b ^ (-e).toNat : Nat) : ℚ) := by
  have nonzero : (b : ℚ) ≠ 0 := by exact_mod_cast positive.ne'
  rcases le_total 0 e with nonneg | nonpos
  · obtain ⟨n, rfl⟩ := Int.eq_ofNat_of_zero_le nonneg
    simp
  · obtain ⟨n, equal⟩ := Int.eq_ofNat_of_zero_le (Int.neg_nonneg.mpr nonpos)
    obtain rfl : e = -n := by omega
    simp

/-- The quotient times an integer power, as a quotient of natural numbers again. -/
theorem div_mul_zpow {b : Nat} (positive : 0 < b) (num den : Nat) (e : Int) :
    (num : ℚ) / den * (b : ℚ) ^ e =
      ((num * Nat.pow b e.toNat : Nat) : ℚ) / ((den * Nat.pow b (-e).toNat : Nat) : ℚ) := by
  simp only [zpow_eq_div positive, Nat.pow_eq]
  push_cast
  rw [div_mul_div_comm]

/-- Comparing with an integer power by two natural products. -/
theorem zpow_le_div_iff {b : Nat} (positive : 0 < b) (hd : 0 < den) (num : Nat) (e : Int) :
    (b : ℚ) ^ e ≤ (num : ℚ) / den ↔
      den * Nat.pow b e.toNat ≤ num * Nat.pow b (-e).toNat := by
  have upper : (0 : ℚ) < ((b ^ (-e).toNat : Nat) : ℚ) := by exact_mod_cast Nat.pow_pos positive
  have below : (0 : ℚ) < den := by exact_mod_cast hd
  rw [zpow_eq_div positive, div_le_div_iff₀ upper below, Nat.pow_eq, Nat.pow_eq]
  norm_cast
  rw [Nat.mul_comm]

/-! ## The binary logarithm -/

/-- An exponent whose power is just below a number is its logarithm. -/
theorem log_eq {b : Nat} {r : ℚ} {e : Int} (base : 1 < b) (least : (b : ℚ) ^ e ≤ r)
    (greatest : r < (b : ℚ) ^ (e + 1)) : Int.log b r = e := by
  have positive : 0 < r := lt_of_lt_of_le (zpow_pos (by exact_mod_cast by omega) e) least
  have lower := (Int.zpow_le_iff_le_log base positive).mp least
  have upper := (Int.lt_zpow_iff_log_lt base positive).mp greatest
  omega

/-- The first guess is the logarithm or the number after it. -/
theorem guess_bounds (hn : 0 < num) (hd : 0 < den) :
    (2 : ℚ) ^ ((Nat.log2 num : Int) - Nat.log2 den - 1) ≤ (num : ℚ) / den ∧
      (num : ℚ) / den < (2 : ℚ) ^ ((Nat.log2 num : Int) - Nat.log2 den + 1) := by
  have below : (0 : ℚ) < den := by exact_mod_cast hd
  have numLow : (2 : ℚ) ^ num.log2 ≤ num := by exact_mod_cast Nat.log2_self_le hn.ne'
  have numHigh : (num : ℚ) < 2 ^ (num.log2 + 1) := by exact_mod_cast Nat.lt_log2_self
  have denLow : (2 : ℚ) ^ den.log2 ≤ den := by exact_mod_cast Nat.log2_self_le hd.ne'
  have denHigh : (den : ℚ) < 2 ^ (den.log2 + 1) := by exact_mod_cast Nat.lt_log2_self
  constructor
  · rw [le_div_iff₀ below]
    calc (2 : ℚ) ^ ((num.log2 : Int) - den.log2 - 1) * den
        ≤ 2 ^ ((num.log2 : Int) - den.log2 - 1) * 2 ^ (den.log2 + 1) := by gcongr
      _ = 2 ^ num.log2 := by
        rw [← zpow_natCast, ← zpow_natCast, ← zpow_add₀ (by norm_num)]
        congr 1
        push_cast
        omega
      _ ≤ num := numLow
  · rw [div_lt_iff₀ below]
    calc (num : ℚ) < 2 ^ (num.log2 + 1) := numHigh
      _ = 2 ^ ((num.log2 : Int) - den.log2 + 1) * 2 ^ den.log2 := by
        rw [← zpow_natCast, ← zpow_natCast, ← zpow_add₀ (by norm_num)]
        congr 1
        push_cast
        omega
      _ ≤ 2 ^ ((num.log2 : Int) - den.log2 + 1) * den := by gcongr

/-- The binary logarithm of a quotient is exact. -/
theorem floorLog2_eq (hn : 0 < num) (hd : 0 < den) :
    floorLog2 num den = Int.log 2 ((num : ℚ) / den) := by
  obtain ⟨lower, upper⟩ := guess_bounds hn hd
  have decided := zpow_le_div_iff (b := 2) (by omega) hd num (num.log2 - den.log2)
  simp only [floorLog2]
  split
  next fits => exact (log_eq Nat.one_lt_two (decided.mpr fits) upper).symm
  next above =>
    refine (log_eq Nat.one_lt_two lower ?_).symm
    rw [sub_add_cancel]
    exact not_le.mp fun fits => above (decided.mp fits)

/-! ## Rounding depends on the quotient -/

/-- Two quotients of natural numbers are equal when the products across are. -/
theorem div_eq_div_iff_mul_eq (hd : 0 < den) (hd' : 0 < den') :
    (num : ℚ) / den = (num' : ℚ) / den' ↔ num * den' = num' * den := by
  rw [div_eq_div_iff (by exact_mod_cast hd.ne') (by exact_mod_cast hd'.ne')]
  exact_mod_cast Iff.rfl

theorem roundDiv_mul_left {k : Nat} (hk : 0 < k) (num den : Nat) :
    roundDiv (k * num) (k * den) = roundDiv num den := by
  have scaled : 2 * (k * num % (k * den)) = k * (2 * (num % den)) := by
    rw [Nat.mul_mod_mul_left, Nat.mul_left_comm]
  simp only [roundDiv, Nat.mul_div_mul_left _ _ hk, scaled, Nat.mul_lt_mul_left hk]

/-- Division with rounding depends on the quotient alone. -/
theorem roundDiv_congr (hd : 0 < den) (hd' : 0 < den')
    (same : (num : ℚ) / den = (num' : ℚ) / den') : roundDiv num den = roundDiv num' den' := by
  have across := (div_eq_div_iff_mul_eq hd hd').mp same
  calc roundDiv num den = roundDiv (den' * num) (den' * den) := (roundDiv_mul_left hd' ..).symm
    _ = roundDiv (den * num') (den * den') := by
      rw [Nat.mul_comm den' num, across, Nat.mul_comm num' den, Nat.mul_comm den' den]
    _ = roundDiv num' den' := roundDiv_mul_left hd ..

/-- A quotient that is an integer is rounded to it. -/
theorem roundDiv_of_eq (hd : 0 < den) (whole : (num : ℚ) / den = m) : roundDiv num den = m := by
  calc roundDiv num den = roundDiv m 1 := roundDiv_congr hd Nat.one_pos (by simpa using whole)
    _ = m := by simp [roundDiv, Nat.mod_one]

/-- The mantissa of a quotient in units of a power of two. -/
theorem roundRatio_eq (hn : 0 < num) :
    roundRatio num den =
      (max (floorLog2 num den - 52) (-1074) + 1074).toNat * fractionCount +
        roundDiv (num * Nat.pow 2 (-max (floorLog2 num den - 52) (-1074)).toNat)
          (den * Nat.pow 2 (max (floorLog2 num den - 52) (-1074)).toNat) := by
  simp only [roundRatio, if_neg hn.ne']

/-- The value of a quotient counted in units of a power of two. -/
theorem ratio_in_units (num den : Nat) (unit : Int) :
    ((num * Nat.pow 2 (-unit).toNat : Nat) : ℚ) / ((den * Nat.pow 2 unit.toNat : Nat) : ℚ) =
      (num : ℚ) / den * (2 : ℚ) ^ (-unit) := by
  have moved := div_mul_zpow (b := 2) (by omega) num den (-unit)
  rw [neg_neg] at moved
  exact moved.symm

/-- Rounding depends on the quotient alone. -/
theorem roundRatio_congr (hd : 0 < den) (hd' : 0 < den')
    (same : (num : ℚ) / den = (num' : ℚ) / den') : roundRatio num den = roundRatio num' den' := by
  have zero_iff : num = 0 ↔ num' = 0 := by
    have quotients := congrArg (· = 0) same
    simpa [hd.ne', hd'.ne'] using quotients
  rcases Nat.eq_zero_or_pos num with rfl | hn
  · rw [zero_iff.mp rfl, roundRatio, roundRatio, if_pos rfl, if_pos rfl]
  · have hn' : 0 < num' := Nat.pos_of_ne_zero (mt zero_iff.mpr hn.ne')
    have logs : floorLog2 num den = floorLog2 num' den' := by
      rw [floorLog2_eq hn hd, floorLog2_eq hn' hd', same]
    rw [roundRatio_eq hn, roundRatio_eq hn', logs]
    congr 1
    apply roundDiv_congr
    · exact Nat.mul_pos hd (Nat.pow_pos (by omega))
    · exact Nat.mul_pos hd' (Nat.pow_pos (by omega))
    · rw [ratio_in_units, ratio_in_units, same]

/-! ## Values of words -/

/-- The value of a magnitude. -/
def Magnitude.value (m : Magnitude) : ℚ := m.mantissa * (2 : ℚ) ^ m.exponent

/-- The ratio of a magnitude is its value. -/
theorem Magnitude.ratio_value (m : Magnitude) :
    (m.ratio.1 : ℚ) / m.ratio.2 = m.value := by
  have moved := div_mul_zpow (b := 2) (by omega) m.mantissa 1 m.exponent
  simpa [Magnitude.ratio, Magnitude.value] using moved.symm

theorem Magnitude.value_eq_zero_iff (m : Magnitude) : m.value = 0 ↔ m.mantissa = 0 := by
  simp [value, zpow_ne_zero]

/-- What the magnitude of a finite word is: the word is its mantissa behind its exponent, and
the mantissa fills its bits unless the exponent is the least. -/
structure Encodes (m : Magnitude) (word : Nat) : Prop where
  /-- The exponent is in range. -/
  least : -1074 ≤ m.exponent
  /-- The mantissa has at most fifty-three bits. -/
  small : m.mantissa < 2 ^ 53
  /-- It has fewer only with the least exponent. -/
  full : m.exponent = -1074 ∨ 2 ^ 52 ≤ m.mantissa
  /-- The word is one formula of both. -/
  word_eq : (m.exponent + 1074).toNat * fractionCount + m.mantissa = word

theorem encodes_magnitudeOfWord (word : Nat) : Encodes (magnitudeOfWord word) word := by
  have split := Nat.div_add_mod word fractionCount
  have below : word % fractionCount < fractionCount := Nat.mod_lt _ (by decide)
  simp only [magnitudeOfWord]
  generalize word / fractionCount = field at split ⊢
  generalize word % fractionCount = fraction at split below ⊢
  simp only [fractionCount] at split below ⊢
  split
  · refine ⟨le_refl _, ?_, .inl rfl, ?_⟩ <;> simp only [fractionCount] <;> omega
  · refine ⟨?_, ?_, .inr ?_, ?_⟩ <;> simp only [fractionCount] <;> omega

theorem Encodes.mantissa_eq_zero_iff {m : Magnitude} (encodes : Encodes m word) :
    m.mantissa = 0 ↔ word = 0 := by
  have least := encodes.least
  have full := encodes.full
  have word_eq := encodes.word_eq
  simp only [fractionCount] at word_eq
  omega

/-- The place of the last digit of an encoded magnitude is the exponent of its logarithm. -/
theorem unit_eq {m : Magnitude} (encodes : Encodes m word) (positive : 0 < m.mantissa) :
    max (Int.log 2 m.value - 52) (-1074) = m.exponent := by
  have low : (2 : ℚ) ^ m.mantissa.log2 ≤ m.mantissa := by
    exact_mod_cast Nat.log2_self_le positive.ne'
  have high : (m.mantissa : ℚ) < 2 ^ (m.mantissa.log2 + 1) := by exact_mod_cast Nat.lt_log2_self
  have exponentPositive : (0 : ℚ) < 2 ^ m.exponent := zpow_pos (by norm_num) _
  have logarithm : Int.log 2 m.value = m.mantissa.log2 + m.exponent := by
    apply log_eq (by omega) <;> rw [Magnitude.value]
    · rw [Nat.cast_ofNat, zpow_add₀ (by norm_num), zpow_natCast]
      gcongr
    · rw [Nat.cast_ofNat, add_right_comm, zpow_add₀ (by norm_num)]
      gcongr
      exact_mod_cast high
  have bits : m.mantissa.log2 < 53 := (Nat.log2_lt positive.ne').mpr encodes.small
  rw [logarithm]
  rcases encodes.full with least | full
  · omega
  · have : 52 ≤ m.mantissa.log2 := (Nat.le_log2 positive.ne').mpr full
    have := encodes.least
    omega

/-- A quotient that is the value of a word is rounded to the word. -/
theorem roundRatio_of_value (hd : 0 < den)
    (value : (num : ℚ) / den = (magnitudeOfWord word).value) : roundRatio num den = word := by
  have encodes := encodes_magnitudeOfWord word
  generalize magnitudeOfWord word = m at value encodes
  have zero_iff : num = 0 ↔ m.mantissa = 0 := by
    rw [← m.value_eq_zero_iff, ← value]
    simp [hd.ne']
  rcases Nat.eq_zero_or_pos num with rfl | hn
  · rw [encodes.mantissa_eq_zero_iff.mp (zero_iff.mp rfl), roundRatio, if_pos rfl]
  · have positive : 0 < m.mantissa := Nat.pos_of_ne_zero (mt zero_iff.mpr hn.ne')
    have unit : max (floorLog2 num den - 52) (-1074) = m.exponent := by
      rw [floorLog2_eq hn hd, value, unit_eq encodes positive]
    rw [roundRatio_eq hn, unit, ← encodes.word_eq]
    congr 1
    refine roundDiv_of_eq (Nat.mul_pos hd ?_) ?_
    · exact Nat.pow_pos (by omega)
    rw [ratio_in_units, value, Magnitude.value, mul_assoc, ← zpow_add₀ (by norm_num)]
    simp

/-! ## The range of finite doubles -/

/-- A finite word has a value below `2 ^ 1024`. -/
theorem value_lt (finite : word < infinityWord) :
    (magnitudeOfWord word).value < (2 : ℚ) ^ (1024 : Int) := by
  have encodes := encodes_magnitudeOfWord word
  generalize magnitudeOfWord word = m at encodes
  have mantissa : (m.mantissa : ℚ) < 2 ^ 53 := by exact_mod_cast encodes.small
  have exponent : m.exponent ≤ 971 := by
    have := encodes.word_eq
    have := encodes.full
    simp only [infinityWord, fractionCount] at *
    omega
  have power : (0 : ℚ) < 2 ^ m.exponent := zpow_pos (by norm_num) _
  calc m.value = m.mantissa * (2 : ℚ) ^ m.exponent := rfl
    _ < 2 ^ 53 * (2 : ℚ) ^ m.exponent := by gcongr
    _ ≤ 2 ^ 53 * (2 : ℚ) ^ (971 : Int) := by gcongr; norm_num
    _ = 2 ^ (1024 : Int) := by rw [← zpow_natCast, ← zpow_add₀ (by norm_num)]; rfl

/-- A word other than zero has a value of at least `2 ^ (-1074)`. -/
theorem le_value (nonzero : word ≠ 0) : (2 : ℚ) ^ (-1074 : Int) ≤ (magnitudeOfWord word).value := by
  have encodes := encodes_magnitudeOfWord word
  generalize magnitudeOfWord word = m at encodes
  have positive : 1 ≤ m.mantissa := Nat.pos_of_ne_zero (mt encodes.mantissa_eq_zero_iff.mp nonzero)
  have least : (2 : ℚ) ^ (-1074 : Int) ≤ 2 ^ m.exponent := by
    have := encodes.least
    gcongr
    norm_num
  calc (2 : ℚ) ^ (-1074 : Int) ≤ 2 ^ m.exponent := least
    _ ≤ m.mantissa * (2 : ℚ) ^ m.exponent :=
      le_mul_of_one_le_left (zpow_nonneg (by norm_num) _) (by exact_mod_cast positive)

end Double

end ConnectionPool
