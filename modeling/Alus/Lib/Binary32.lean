import Mathlib.Algebra.Order.Floor.Ring
import Mathlib.Data.Int.Log
import Mathlib.Data.Rat.Floor
import Mathlib.Tactic.Linarith
import Mathlib.Tactic.Positivity

/-!
# Single precision rounding

A `float` is a rational with a significand of 24 bits. Conversions from integers and the four
operations round the exact result to the nearest such rational, ties to the even significand.
Exponents are not bounded here: every value this library is used for lies far inside the range
of the format.

The lemmas say when rounding does not matter: integers up to `2 ^ 24` are exact, rounding does
not cross them, and the ceiling of a rounded quotient of two of them is the exact ceiling. For
larger quotients, `round_le_iff` says which numbers are rounded to at most an integer. A `float`
that is written to a stream keeps six decimal digits.
-/

namespace Alus.Lib.Binary32

/-- The integer nearest to `q`, the even one of two. -/
def roundHalfEven (q : ℚ) : ℤ :=
  let below := ⌊q⌋
  if q - below < 1 / 2 then below
  else if 1 / 2 < q - below then below + 1
  else if below % 2 = 0 then below
  else below + 1

/-- The exponent of the last significand bit of the `float` nearest to `q`. -/
def lastExponent (q : ℚ) : ℤ :=
  Int.log 2 |q| - 23

/-- The `float` nearest to `q`. -/
def round (q : ℚ) : ℚ :=
  roundHalfEven (q / 2 ^ lastExponent q) * 2 ^ lastExponent q

/-- `static_cast<float>` of an integer. -/
def ofInt (z : ℤ) : ℚ := round z

/-- The part of a number in front of the point: what a conversion to an integer type keeps. -/
def trunc (q : ℚ) : ℤ :=
  if 0 ≤ q then ⌊q⌋ else ⌈q⌉

/-! ## Nearest integers -/

theorem floor_le_roundHalfEven (q : ℚ) : ⌊q⌋ ≤ roundHalfEven q := by
  unfold roundHalfEven
  simp only
  split
  · exact le_refl _
  · split
    · omega
    · split <;> omega

theorem roundHalfEven_le_ceil (q : ℚ) : roundHalfEven q ≤ ⌈q⌉ := by
  have hfloor : ⌊q⌋ ≤ ⌈q⌉ := Int.floor_le_ceil q
  unfold roundHalfEven
  simp only
  split
  · exact hfloor
  -- the fractional part is at least a half, so the ceiling is the next integer
  · rename_i hfrac
    have hlt : ⌊q⌋ < ⌈q⌉ := by
      rw [Int.lt_ceil]
      linarith
    split
    · omega
    · split <;> omega

theorem roundHalfEven_intCast (z : ℤ) : roundHalfEven z = z := by
  have h1 := floor_le_roundHalfEven (z : ℚ)
  have h2 := roundHalfEven_le_ceil (z : ℚ)
  rw [Int.floor_intCast] at h1
  rw [Int.ceil_intCast] at h2
  omega

/-- More than half a step above an integer is not rounded down to it. -/
theorem lt_roundHalfEven {z : ℤ} {q : ℚ} (h : z + 1 / 2 < q) : z < roundHalfEven q := by
  have hz : z ≤ ⌊q⌋ := Int.le_floor.mpr (by linarith)
  rcases lt_or_eq_of_le hz with hlt | heq
  · exact lt_of_lt_of_le hlt (floor_le_roundHalfEven q)
  · unfold roundHalfEven
    simp only [← heq]
    rw [if_neg (by linarith), if_pos (by linarith)]
    omega

/-! ## The significand -/

theorem zpow_lastExponent_pos (q : ℚ) : (0 : ℚ) < 2 ^ lastExponent q :=
  zpow_pos (by norm_num) _

theorem lastExponent_of_pos {q : ℚ} (hq : 0 < q) : lastExponent q = Int.log 2 q - 23 := by
  rw [lastExponent, abs_of_pos hq]

/-- The significand has 24 bits. -/
theorem significand_bounds {q : ℚ} (hq : 0 < q) :
    2 ^ 23 * 2 ^ lastExponent q ≤ q ∧ q < 2 ^ 24 * 2 ^ lastExponent q := by
  have hlow : (2 : ℚ) ^ Int.log 2 q ≤ q := by
    exact_mod_cast Int.zpow_log_le_self (by norm_num) hq
  have hhigh : q < (2 : ℚ) ^ (Int.log 2 q + 1) := by
    exact_mod_cast Int.lt_zpow_succ_log_self (by norm_num) q
  have hsplit : ∀ n : ℕ, (2 : ℚ) ^ n * 2 ^ lastExponent q = 2 ^ (n + lastExponent q) := fun n => by
    rw [zpow_add₀ (by norm_num), zpow_natCast]
  rw [hsplit, hsplit, lastExponent_of_pos hq]
  refine ⟨?_, ?_⟩
  · rw [show ((23 : ℕ) : ℤ) + (Int.log 2 q - 23) = Int.log 2 q by omega]
    exact hlow
  · rw [show ((24 : ℕ) : ℤ) + (Int.log 2 q - 23) = Int.log 2 q + 1 by omega]
    exact hhigh

/-- Below `2 ^ 24` the last bit is worth at most one. -/
theorem lastExponent_nonpos {q : ℚ} (hq : 0 < q) (h : q < 2 ^ 24) : lastExponent q ≤ 0 := by
  by_contra hpos
  have hge : (2 : ℚ) ^ (1 : ℤ) ≤ 2 ^ lastExponent q :=
    zpow_le_zpow_right₀ (by norm_num) (by omega)
  have hlow := (significand_bounds hq).1
  norm_num at hge hlow h
  linarith

/-- An integer is a whole number of last bits, below `2 ^ 24`. -/
theorem exists_significand {q : ℚ} (hexp : lastExponent q ≤ 0) (n : ℤ) :
    ∃ m : ℤ, (n : ℚ) = m * 2 ^ lastExponent q := by
  obtain ⟨k, hk⟩ := Int.eq_ofNat_of_zero_le (show 0 ≤ -lastExponent q by omega)
  refine ⟨n * 2 ^ k, ?_⟩
  rw [show lastExponent q = -(k : ℤ) by omega, zpow_neg, zpow_natCast]
  push_cast
  field_simp

/-! ## Rounding does not cross integers -/

theorem le_round {q : ℚ} {n : ℤ} (hn : n ≤ 2 ^ 24) (h0 : 0 ≤ n) (h : n ≤ q) : n ≤ round q := by
  rcases eq_or_lt_of_le (show (0 : ℚ) ≤ q from le_trans (by exact_mod_cast h0) h) with hq | hq
  · have hzero : round q = 0 := by simp [round, ← hq, roundHalfEven]
    rw [hzero, hq]
    exact h
  · have hp := zpow_lastExponent_pos q
    have hfloor : (⌊q / 2 ^ lastExponent q⌋ : ℚ) * 2 ^ lastExponent q ≤ round q := by
      unfold round
      gcongr
      exact floor_le_roundHalfEven _
    refine le_trans ?_ hfloor
    by_cases hexp : lastExponent q ≤ 0
    · obtain ⟨m, hm⟩ := exists_significand hexp n
      rw [hm]
      gcongr
      rw [Int.le_floor, le_div_iff₀ hp, ← hm]
      exact h
    -- at least `2 ^ 24`: the significand alone is large enough
    · have hge : (2 : ℚ) ^ (1 : ℤ) ≤ 2 ^ lastExponent q :=
        zpow_le_zpow_right₀ (by norm_num) (by omega)
      have hsig : (2 ^ 23 : ℤ) ≤ ⌊q / 2 ^ lastExponent q⌋ := by
        rw [Int.le_floor, le_div_iff₀ hp]
        exact_mod_cast (significand_bounds hq).1
      have hsig' : ((2 : ℚ) ^ 23) ≤ ⌊q / 2 ^ lastExponent q⌋ := by exact_mod_cast hsig
      have hn' : (n : ℚ) ≤ 2 ^ 24 := by exact_mod_cast hn
      calc (n : ℚ) ≤ 2 ^ 23 * 2 ^ (1 : ℤ) := by norm_num at hn' ⊢; exact hn'
        _ ≤ ⌊q / 2 ^ lastExponent q⌋ * 2 ^ lastExponent q := by gcongr

theorem round_le {q : ℚ} {n : ℤ} (hn : n ≤ 2 ^ 24) (hq : 0 ≤ q) (h : q ≤ n) : round q ≤ n := by
  rcases eq_or_lt_of_le hq with hq | hq
  · have hzero : round q = 0 := by simp [round, ← hq, roundHalfEven]
    rw [hzero, hq]
    exact h
  · have hp := zpow_lastExponent_pos q
    have hceil : round q ≤ (⌈q / 2 ^ lastExponent q⌉ : ℚ) * 2 ^ lastExponent q := by
      unfold round
      gcongr
      exact roundHalfEven_le_ceil _
    obtain ⟨m, hm⟩ : ∃ m : ℤ, (n : ℚ) = m * 2 ^ lastExponent q := by
      by_cases hexp : lastExponent q ≤ 0
      · exact exists_significand hexp n
      -- only `2 ^ 24` itself is left
      · have hn' : (n : ℚ) ≤ 2 ^ 24 := by exact_mod_cast hn
        have hge : ¬ q < 2 ^ 24 := fun hlt => hexp (lastExponent_nonpos hq hlt)
        have hone : lastExponent q = 1 := by
          by_contra hne
          have htwo : (2 : ℚ) ^ (2 : ℤ) ≤ 2 ^ lastExponent q :=
            zpow_le_zpow_right₀ (by norm_num) (by omega)
          have hlow := (significand_bounds hq).1
          norm_num at htwo hlow hn'
          linarith
        refine ⟨2 ^ 23, ?_⟩
        rw [hone]
        norm_num at hn' hge ⊢
        linarith
    refine le_trans hceil ?_
    rw [hm]
    gcongr
    rw [Int.ceil_le, div_le_iff₀ hp, ← hm]
    exact h

/-- Integers up to `2 ^ 24` are exact. -/
theorem round_intCast {n : ℤ} (h0 : 0 ≤ n) (hn : n ≤ 2 ^ 24) : round n = n :=
  le_antisymm (round_le hn (by exact_mod_cast h0) (le_refl _)) (le_round hn h0 (le_refl _))

theorem ofInt_eq {n : ℤ} (h0 : 0 ≤ n) (hn : n ≤ 2 ^ 24) : ofInt n = n :=
  round_intCast h0 hn

/-- Halves of integers below `2 ^ 24` are exact. -/
theorem round_half {n : ℤ} (h0 : 0 < n) (hn : n < 2 ^ 24) : round (n / 2) = n / 2 := by
  have hn' : (n : ℚ) < 2 ^ 24 := by exact_mod_cast hn
  have hq : (0 : ℚ) < n / 2 := div_pos (by exact_mod_cast h0) (by norm_num)
  have hp := zpow_lastExponent_pos (n / 2 : ℚ)
  have hexp : lastExponent (n / 2 : ℚ) < 0 := by
    by_contra hge
    have hone : (2 : ℚ) ^ (0 : ℤ) ≤ 2 ^ lastExponent (n / 2 : ℚ) :=
      zpow_le_zpow_right₀ (by norm_num) (by omega)
    have hlow := (significand_bounds hq).1
    rw [zpow_zero] at hone
    norm_num at hlow hn'
    linarith
  obtain ⟨k, hk⟩ := Int.eq_ofNat_of_zero_le (show 0 ≤ -lastExponent (n / 2 : ℚ) - 1 by omega)
  have hsig : (n / 2 : ℚ) / 2 ^ lastExponent (n / 2 : ℚ) = ((n * 2 ^ k : ℤ) : ℚ) := by
    rw [div_eq_iff hp.ne', show lastExponent (n / 2 : ℚ) = -(k : ℤ) - 1 by omega,
      zpow_sub₀ (by norm_num), zpow_neg, zpow_natCast]
    push_cast
    field_simp
  rw [round, hsig, roundHalfEven_intCast, ← hsig, div_mul_cancel₀ _ hp.ne']

theorem round_pos {q : ℚ} (hq : 0 < q) : 0 < round q := by
  have hp := zpow_lastExponent_pos q
  have hsig : (2 ^ 23 : ℤ) ≤ ⌊q / 2 ^ lastExponent q⌋ := by
    rw [Int.le_floor, le_div_iff₀ hp]
    exact_mod_cast (significand_bounds hq).1
  have hround : 0 < roundHalfEven (q / 2 ^ lastExponent q) :=
    lt_of_lt_of_le (by norm_num) (le_trans hsig (floor_le_roundHalfEven _))
  exact mul_pos (by exact_mod_cast hround) hp

/-- The power of two below a number that is not an integer lies below its integer part. -/
theorem two_pow_le_of_lt {q : ℚ} {k : ℤ} (hlt : (k - 1 : ℚ) < q) (hnot : q < k) (hk : 1 < k) :
    (2 : ℚ) ^ 23 * 2 ^ lastExponent q ≤ k - 1 := by
  have hk' : (1 : ℚ) ≤ k - 1 := by
    have h : (2 : ℚ) ≤ k := by exact_mod_cast hk
    linarith
  obtain ⟨hlow, hhigh⟩ := significand_bounds (show 0 < q by linarith)
  have hexp : 0 ≤ 23 + lastExponent q := by
    by_contra hneg
    have hle : (2 : ℚ) ^ lastExponent q ≤ 2 ^ (-24 : ℤ) :=
      zpow_le_zpow_right₀ (by norm_num) (by omega)
    norm_num at hle hhigh
    linarith
  obtain ⟨n, hn⟩ := Int.eq_ofNat_of_zero_le hexp
  have hpow : (2 : ℚ) ^ 23 * 2 ^ lastExponent q = ((2 ^ n : ℤ) : ℚ) := by
    rw [show lastExponent q = (n : ℤ) - 23 by omega, zpow_sub₀ (by norm_num), zpow_natCast]
    push_cast
    norm_num
    ring
  rw [hpow] at hlow ⊢
  have hlt' : (2 ^ n : ℤ) < k := by exact_mod_cast lt_of_le_of_lt hlow hnot
  have hle : (2 ^ n : ℤ) ≤ k - 1 := by omega
  exact_mod_cast hle

/-- The ceiling of a quotient of integers up to `2 ^ 24` survives rounding. -/
theorem ceil_round_div {a b : ℤ} (ha : 0 < a) (hb : 0 < b) (ha24 : a ≤ 2 ^ 24) :
    ⌈round (a / b)⌉ = ⌈(a / b : ℚ)⌉ := by
  have hb' : (0 : ℚ) < b := by exact_mod_cast hb
  have ha' : (0 : ℚ) < a := by exact_mod_cast ha
  have hq : (0 : ℚ) < a / b := div_pos ha' hb'
  obtain ⟨k, hk⟩ : ∃ k : ℤ, k = ⌈(a / b : ℚ)⌉ := ⟨_, rfl⟩
  have hle : (a / b : ℚ) ≤ k := hk ▸ Int.le_ceil _
  have hlt : (k - 1 : ℚ) < a / b := by
    have h := Int.ceil_lt_add_one (a / b : ℚ)
    rw [← hk] at h
    linarith
  -- the ceiling is not above the dividend, so it is representable
  have hka : k ≤ a := by
    rw [hk, Int.ceil_le, div_le_iff₀ hb']
    have h1 : (1 : ℚ) ≤ b := by exact_mod_cast hb
    nlinarith
  have hk24 : k ≤ 2 ^ 24 := le_trans hka ha24
  have hkpos : 0 < k := by
    have h : (0 : ℚ) < k := lt_of_lt_of_le hq hle
    exact_mod_cast h
  rw [← hk, Int.ceil_eq_iff]
  refine ⟨?_, round_le hk24 hq.le hle⟩
  rcases eq_or_lt_of_le hle with heq | hnot
  -- an exact quotient
  · rw [heq, round_intCast hkpos.le hk24]
    linarith
  · by_cases hone : k = 1
    · simpa [hone] using round_pos hq
    -- the quotient lies at least `1 / b` above `k - 1`, more than half a step
    · have hq24 : (a / b : ℚ) < 2 ^ 24 :=
        lt_of_lt_of_le hnot (by exact_mod_cast hk24)
      have hexp := lastExponent_nonpos hq hq24
      have hp := zpow_lastExponent_pos (a / b : ℚ)
      obtain ⟨m, hm⟩ := exists_significand hexp (k - 1)
      -- both are integers, so the strict inequality is one by at least 1
      have hgap : (k - 1 : ℚ) * b + 1 ≤ a := by
        have h : (k - 1 : ℚ) * b < a := by rwa [lt_div_iff₀ hb'] at hlt
        have h' : (k - 1) * b < a := by exact_mod_cast h
        exact_mod_cast h'
      have hsig := two_pow_le_of_lt hlt hnot (by omega)
      have ha24' : (a : ℚ) ≤ 2 ^ 24 := by exact_mod_cast ha24
      have hstep : (k - 1 : ℚ) + 2 ^ lastExponent (a / b : ℚ) / 2 < a / b := by
        rw [lt_div_iff₀ hb']
        nlinarith
      have hround : m < roundHalfEven (a / b / 2 ^ lastExponent (a / b : ℚ)) := by
        refine lt_roundHalfEven ?_
        rw [lt_div_iff₀ hp]
        push_cast at hm
        linarith
      unfold round
      push_cast at hm
      rw [hm]
      have hround' : (m : ℚ) < roundHalfEven (a / b / 2 ^ lastExponent (a / b : ℚ)) := by
        exact_mod_cast hround
      gcongr

/-! ## Ceilings of rounded numbers -/

/-- Less than half a step above an integer, or half a step above an even one, is rounded down. -/
theorem roundHalfEven_le {z : ℤ} {q : ℚ} (heven : z % 2 = 0) (h : q ≤ z + 1 / 2) :
    roundHalfEven q ≤ z := by
  have hfloor : (⌊q⌋ : ℚ) ≤ q := Int.floor_le q
  have hlt : ⌊q⌋ < z + 1 := Int.floor_lt.mpr (by push_cast; linarith)
  unfold roundHalfEven
  simp only
  split
  · omega
  next hhalf =>
    rcases eq_or_lt_of_le (show ⌊q⌋ ≤ z by omega) with heq | hbelow
    · rw [heq] at hhalf ⊢
      rw [if_neg (by linarith), if_pos heven]
    · split
      · omega
      · split <;> omega

/-- Between two powers of two the last bit is worth the same. -/
theorem lastExponent_eq {q : ℚ} {m : ℕ} (hlow : 2 ^ m ≤ q) (hhigh : q < 2 ^ (m + 1)) :
    lastExponent q = m - 23 := by
  have hq : 0 < q := lt_of_lt_of_le (by positivity) hlow
  have hle : (m : ℤ) ≤ Int.log 2 q :=
    (Int.zpow_le_iff_le_log (by norm_num) hq).mp (by exact_mod_cast hlow)
  have hlt : Int.log 2 q < m + 1 :=
    (Int.lt_zpow_iff_log_lt (by norm_num) hq).mp (by exact_mod_cast hhigh)
  rw [lastExponent_of_pos hq]
  omega

/-- What is rounded to at most an integer of fewer than 24 bits: the numbers up to half a step
above it. -/
theorem round_le_iff {q : ℚ} {n m : ℕ} (hlow : 2 ^ m ≤ n) (hhigh : n < 2 ^ (m + 1)) (hm : m ≤ 22)
    (hq : 0 < q) : round q ≤ n ↔ q ≤ n + 2 ^ ((m : ℤ) - 24) := by
  have hstep : (2 : ℚ) ^ ((m : ℤ) - 24) = 2 ^ ((m : ℤ) - 23) / 2 := by
    rw [show (m : ℤ) - 24 = m - 23 - 1 by omega, zpow_sub_one₀ (by norm_num)]
    rfl
  have hpos : (0 : ℚ) < 2 ^ ((m : ℤ) - 23) := zpow_pos (by norm_num) _
  have hone : (2 : ℚ) ^ ((m : ℤ) - 23) ≤ 1 := zpow_le_one_of_nonpos₀ (by norm_num) (by omega)
  have hpow : (2 : ℕ) ^ (m + 1) ≤ 2 ^ 23 := Nat.pow_le_pow_right (by norm_num) (by omega)
  have hlow' : (2 : ℚ) ^ m ≤ n := by exact_mod_cast hlow
  have hnext : (n : ℚ) + 1 ≤ 2 ^ (m + 1) := by exact_mod_cast hhigh
  -- the integer is an even multiple of the step
  obtain ⟨k, hk⟩ : ∃ k : ℕ, (k : ℤ) = 23 - m := ⟨23 - m, by omega⟩
  have hsig : (n : ℚ) = ((n * 2 ^ k : ℤ) : ℚ) * 2 ^ ((m : ℤ) - 23) := by
    rw [show (m : ℤ) - 23 = -(k : ℤ) by omega, zpow_neg, zpow_natCast]
    push_cast
    field_simp
  have heven : (n * 2 ^ k : ℤ) % 2 = 0 := by
    obtain ⟨j, rfl⟩ : ∃ j, k = j + 1 := ⟨k - 1, by omega⟩
    rw [pow_succ, ← mul_assoc]
    exact Int.mul_emod_left _ 2
  constructor
  · intro h
    by_contra hgt
    rw [not_le] at hgt
    by_cases hfar : (n : ℚ) + 1 ≤ q
    · have hround : ((n + 1 : ℤ) : ℚ) ≤ round q :=
        le_round (by omega) (by omega) (by push_cast; exact hfar)
      push_cast at hround
      linarith
    · have hexp := lastExponent_eq (show 2 ^ m ≤ q by linarith) (by linarith)
      have hup : (n * 2 ^ k : ℤ) < roundHalfEven (q / 2 ^ lastExponent q) := by
        refine lt_roundHalfEven ?_
        rw [hexp, lt_div_iff₀ hpos]
        linarith
      have hup' : ((n * 2 ^ k : ℤ) : ℚ) < roundHalfEven (q / 2 ^ lastExponent q) := by
        exact_mod_cast hup
      have hround : (n : ℚ) < round q := by
        rw [round, hsig]
        rw [hexp] at hup' ⊢
        exact mul_lt_mul_of_pos_right hup' hpos
      linarith
  · intro h
    by_cases hbelow : q ≤ n
    · have hround : round q ≤ ((n : ℤ) : ℚ) :=
        round_le (by omega) hq.le (by push_cast; exact hbelow)
      push_cast at hround
      exact hround
    · have hexp := lastExponent_eq (show 2 ^ m ≤ q by linarith) (by linarith)
      have hdown : roundHalfEven (q / 2 ^ lastExponent q) ≤ n * 2 ^ k := by
        refine roundHalfEven_le heven ?_
        rw [hexp, div_le_iff₀ hpos]
        linarith
      have hdown' : (roundHalfEven (q / 2 ^ lastExponent q) : ℚ) ≤ ((n * 2 ^ k : ℤ) : ℚ) := by
        exact_mod_cast hdown
      rw [round, hsig]
      rw [hexp] at hdown' ⊢
      exact mul_le_mul_of_nonneg_right hdown' hpos.le

/-! ## Text -/

/-- The exponent of the last of six significant decimal digits. -/
def lastDecimal (q : ℚ) : ℤ :=
  Int.log 10 |q| - 5

/-- The number that `<<` writes for a `float`: it has six significant digits, the precision of a
stream that nothing was set in. -/
def streamed (q : ℚ) : ℚ :=
  roundHalfEven (q / 10 ^ lastDecimal q) * 10 ^ lastDecimal q

/-- A natural number of at most six digits is written exactly. -/
theorem streamed_natCast {n : ℕ} (hn : n < 10 ^ 6) : streamed n = n := by
  have hlog : Nat.log 10 n ≤ 5 :=
    Nat.le_of_lt_succ (Nat.log_lt_of_lt_pow' (by decide) hn)
  obtain ⟨k, hk⟩ : ∃ k : ℕ, lastDecimal (n : ℚ) = -k := by
    refine ⟨5 - Nat.log 10 n, ?_⟩
    rw [lastDecimal, Nat.abs_cast, Int.log_natCast]
    omega
  have hpow : (10 : ℚ) ^ k ≠ 0 := pow_ne_zero k (by norm_num)
  -- the last digit is that of a power of ten below one, so it divides the number
  have hscaled : (n : ℚ) / 10 ^ (-(k : ℤ)) = ((n * 10 ^ k : ℤ) : ℚ) := by
    rw [zpow_neg, zpow_natCast, div_inv_eq_mul]
    push_cast
    rfl
  rw [streamed, hk, hscaled, roundHalfEven_intCast, zpow_neg, zpow_natCast]
  push_cast
  rw [mul_assoc, mul_inv_cancel₀ hpow, mul_one]

end Alus.Lib.Binary32
