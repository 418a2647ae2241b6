import Alus.Lib.Binary32

/-!
# Double precision rounding

A `double` is a rational with a significand of 53 bits, to which exact results are rounded as they
are to a `float`. Exponents are not bounded here.

Rounding does not cross fractions with few binary places, so that a product is converted to the
integer that the exact product is, unless it comes very near to the next one.
-/

namespace Alus.Lib.Binary64

open Binary32 (roundHalfEven floor_le_roundHalfEven roundHalfEven_le_ceil roundHalfEven_intCast)

/-- The exponent of the last significand bit of the `double` nearest to `q`. -/
def lastExponent (q : ℚ) : ℤ :=
  Int.log 2 |q| - 52

/-- The `double` nearest to `q`. -/
def round (q : ℚ) : ℚ :=
  roundHalfEven (q / 2 ^ lastExponent q) * 2 ^ lastExponent q

theorem zpow_lastExponent_pos (q : ℚ) : (0 : ℚ) < 2 ^ lastExponent q :=
  zpow_pos (by norm_num) _

/-- The significand has 53 bits. -/
theorem le_significand {q : ℚ} (hq : 0 < q) : 2 ^ 52 * 2 ^ lastExponent q ≤ q := by
  have hlow : (2 : ℚ) ^ Int.log 2 q ≤ q := by
    exact_mod_cast Int.zpow_log_le_self (by norm_num) hq
  have hsplit : (2 : ℚ) ^ (52 : ℕ) * 2 ^ lastExponent q = 2 ^ Int.log 2 q := by
    rw [← zpow_natCast, ← zpow_add₀ (by norm_num), lastExponent, abs_of_pos hq]
    congr 1
    push_cast
    ring
  rw [hsplit]
  exact hlow

/-- A fraction with few binary places is a whole number of last bits, unless these are larger. -/
theorem exists_significand {q : ℚ} {k : ℕ} (hexp : lastExponent q ≤ -k) (m : ℤ) :
    ∃ n : ℤ, (m : ℚ) / 2 ^ k = n * 2 ^ lastExponent q := by
  obtain ⟨j, hj⟩ := Int.eq_ofNat_of_zero_le (show 0 ≤ -k - lastExponent q by omega)
  refine ⟨m * 2 ^ j, ?_⟩
  have hpow : (2 : ℚ) ^ lastExponent q = 1 / (2 ^ k * 2 ^ j) := by
    rw [show lastExponent q = -((k + j : ℕ) : ℤ) by push_cast; omega, zpow_neg, zpow_natCast,
      pow_add, one_div]
  rw [hpow]
  push_cast
  field_simp

/-- Larger last bits make a significand that no such fraction exceeds. -/
theorem fraction_le_significand {q : ℚ} {m : ℤ} {k : ℕ} (hm : m ≤ 2 ^ 53)
    (hexp : -(k : ℤ) < lastExponent q) : (m : ℚ) / 2 ^ k ≤ 2 ^ 52 * 2 ^ lastExponent q := by
  have hmq : (m : ℚ) ≤ 2 ^ 53 := by exact_mod_cast hm
  have hpow : (2 : ℚ) ^ (1 - (k : ℤ)) ≤ 2 ^ lastExponent q :=
    zpow_le_zpow_right₀ (by norm_num) (by omega)
  have hk : (2 : ℚ) ^ (1 - (k : ℤ)) = 2 / 2 ^ k := by
    rw [zpow_sub₀ (by norm_num), zpow_one, zpow_natCast]
  rw [hk] at hpow
  calc (m : ℚ) / 2 ^ k ≤ 2 ^ 53 / 2 ^ k := by gcongr
    _ = 2 ^ 52 * (2 / 2 ^ k) := by ring
    _ ≤ 2 ^ 52 * 2 ^ lastExponent q := by gcongr

/-! ## Rounding does not cross such fractions -/

theorem le_round {q : ℚ} {m : ℤ} {k : ℕ} (hm : m ≤ 2 ^ 53) (hq : 0 < q) (h : (m : ℚ) / 2 ^ k ≤ q) :
    (m : ℚ) / 2 ^ k ≤ round q := by
  have hp := zpow_lastExponent_pos q
  by_cases hexp : lastExponent q ≤ -k
  · obtain ⟨n, hn⟩ := exists_significand hexp m
    have hfloor : n ≤ ⌊q / 2 ^ lastExponent q⌋ := by
      rw [Int.le_floor, le_div_iff₀ hp, ← hn]
      exact h
    have hle : (n : ℚ) ≤ roundHalfEven (q / 2 ^ lastExponent q) := by
      exact_mod_cast hfloor.trans (floor_le_roundHalfEven _)
    rw [hn, round]
    gcongr
  · have hfloor : (2 ^ 52 : ℤ) ≤ ⌊q / 2 ^ lastExponent q⌋ := by
      rw [Int.le_floor, le_div_iff₀ hp]
      exact_mod_cast le_significand hq
    have hle : (2 ^ 52 : ℚ) ≤ roundHalfEven (q / 2 ^ lastExponent q) := by
      exact_mod_cast hfloor.trans (floor_le_roundHalfEven _)
    calc (m : ℚ) / 2 ^ k ≤ 2 ^ 52 * 2 ^ lastExponent q :=
          fraction_le_significand hm (not_le.mp hexp)
      _ ≤ round q := by
        unfold round
        gcongr

theorem round_le {q : ℚ} {m : ℤ} {k : ℕ} (hm : m ≤ 2 ^ 53) (hq : 0 < q) (h : q ≤ (m : ℚ) / 2 ^ k) :
    round q ≤ (m : ℚ) / 2 ^ k := by
  have hp := zpow_lastExponent_pos q
  by_cases hexp : lastExponent q ≤ -k
  · obtain ⟨n, hn⟩ := exists_significand hexp m
    have hceil : ⌈q / 2 ^ lastExponent q⌉ ≤ n := by
      rw [Int.ceil_le, div_le_iff₀ hp, ← hn]
      exact h
    have hle : (roundHalfEven (q / 2 ^ lastExponent q) : ℚ) ≤ n := by
      exact_mod_cast (roundHalfEven_le_ceil _).trans hceil
    rw [hn, round]
    gcongr
  -- the number is the least with its exponent, which is not rounded
  · have hsame : q = 2 ^ 52 * 2 ^ lastExponent q :=
      le_antisymm (h.trans (fraction_le_significand hm (not_le.mp hexp))) (le_significand hq)
    have hexact : round q = q := by
      have hquotient : q / 2 ^ lastExponent q = ((2 ^ 52 : ℤ) : ℚ) := by
        rw [div_eq_iff hp.ne']
        exact_mod_cast hsame
      rw [round, hquotient, roundHalfEven_intCast]
      exact_mod_cast hsame.symm
    rw [hexact]
    exact h

/-- A number that stays away from the next integer is rounded to one with the same whole part. -/
theorem floor_round {q : ℚ} {n m : ℤ} {k : ℕ} (hq : 0 < q) (hm : m ≤ 2 ^ 53) (hn : n ≤ 2 ^ 53)
    (hlow : n ≤ q) (hhigh : q ≤ (m : ℚ) / 2 ^ k) (hnext : (m : ℚ) / 2 ^ k < n + 1) :
    ⌊round q⌋ = n := by
  rw [Int.floor_eq_iff]
  apply And.intro
  · have hle := le_round (k := 0) hn hq (by simpa using hlow)
    simpa using hle
  · exact (round_le hm hq hhigh).trans_lt hnext

/-- An integer of 53 bits is a `double`. -/
theorem round_intCast {n : ℤ} (h0 : 0 < n) (h : n ≤ 2 ^ 53) : round n = n := by
  have hq : (0 : ℚ) < n := by exact_mod_cast h0
  apply le_antisymm
  · have hle := round_le (k := 0) h hq (by simp)
    simpa using hle
  · have hle := le_round (k := 0) h hq (by simp)
    simpa using hle

end Alus.Lib.Binary64
