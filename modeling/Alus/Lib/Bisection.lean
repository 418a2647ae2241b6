import Mathlib.Algebra.Order.Field.Basic
import Mathlib.Tactic.FieldSimp
import Mathlib.Tactic.Linarith
import Mathlib.Tactic.LinearCombination
import Mathlib.Tactic.Ring
import Alus.Lib.Numerals

/-!
# Bisection

Halving an interval again and again splits it at dyadic fractions of its length, and at nothing
else. Every split keeps one half, and the length after so many splits is known.
-/

namespace Alus.Lib

section SplitPoints

variable {R : Type} [Field R]

/-- `x` is where an interval is split, when its halves are split as well. -/
inductive SplitPoint : R → R → R → Prop
  | mid (lo hi : R) : SplitPoint lo hi ((lo + hi) / 2)
  | lower {lo hi x : R} (h : SplitPoint lo ((lo + hi) / 2) x) : SplitPoint lo hi x
  | upper {lo hi x : R} (h : SplitPoint ((lo + hi) / 2) hi x) : SplitPoint lo hi x

variable [LinearOrder R] [IsStrictOrderedRing R] {lo hi x : R}

theorem SplitPoint.exists_fraction (h : SplitPoint lo hi x) :
    ∃ j k : Nat, (0 < k ∧ k < 2 ^ j) ∧ x = lo + (hi - lo) * (k / 2 ^ j) := by
  induction h with
  | mid lo hi => exact ⟨1, 1, by decide, by push_cast; ring⟩
  | @lower lo hi x _ ih =>
    obtain ⟨j, k, ⟨hk, hlt⟩, rfl⟩ := ih
    refine ⟨j + 1, k, ⟨hk, by rw [pow_succ]; omega⟩, ?_⟩
    rw [pow_succ]
    field_simp
    ring
  | @upper lo hi x _ ih =>
    obtain ⟨j, k, ⟨hk, hlt⟩, rfl⟩ := ih
    refine ⟨j + 1, 2 ^ j + k, ⟨by omega, by rw [pow_succ]; omega⟩, ?_⟩
    rw [pow_succ]
    push_cast
    field_simp
    ring

theorem splitPoint_fraction (lo hi : R) {j k : Nat} (hk : 0 < k) (hlt : k < 2 ^ j) :
    SplitPoint lo hi (lo + (hi - lo) * (k / 2 ^ j)) := by
  induction j generalizing lo hi k with
  | zero => omega
  | succ j ih =>
    rw [pow_succ] at hlt
    rcases lt_trichotomy k (2 ^ j) with hlow | rfl | hhigh
    · have hhalf := ih lo ((lo + hi) / 2) hk hlow
      refine SplitPoint.lower ?_
      convert hhalf using 1
      rw [pow_succ]
      field_simp
      ring
    · convert SplitPoint.mid lo hi using 1
      rw [pow_succ]
      push_cast
      field_simp
      ring
    · obtain ⟨k, rfl⟩ := Nat.exists_eq_add_of_lt hhigh
      have hhalf := ih ((lo + hi) / 2) hi (k := k + 1) (by omega) (by omega)
      refine SplitPoint.upper ?_
      convert hhalf using 1
      rw [pow_succ]
      push_cast
      field_simp
      ring

/-- **The split points are the dyadic fractions.** -/
theorem splitPoint_iff : SplitPoint lo hi x ↔
    ∃ j k : Nat, (0 < k ∧ k < 2 ^ j) ∧ x = lo + (hi - lo) * (k / 2 ^ j) :=
  ⟨SplitPoint.exists_fraction, fun ⟨_, _, ⟨hk, hlt⟩, hx⟩ => hx ▸ splitPoint_fraction lo hi hk hlt⟩

theorem SplitPoint.mem_Ioo (h : SplitPoint lo hi x) (hlt : lo < hi) : lo < x ∧ x < hi := by
  induction h with
  | mid lo hi => constructor <;> linarith
  | @lower lo hi x _ ih =>
    obtain ⟨hlo, hhi⟩ := ih (by linarith)
    exact ⟨hlo, by linarith⟩
  | @upper lo hi x _ ih =>
    obtain ⟨hlo, hhi⟩ := ih (by linarith)
    exact ⟨by linarith, hhi⟩

end SplitPoints

/-! ## Secants -/

section Secant

variable {R : Type} [Field R]

/-- Where the line through two points is zero. -/
def secant (t0 t1 v0 v1 : R) : R := t0 - v0 * (t1 - t0) / (v1 - v0)

variable [LinearOrder R] [IsStrictOrderedRing R] {t0 t1 v0 v1 w0 w1 : R}

theorem sub_ne_zero_of_opposite (h : v0 * v1 < 0) : v1 - v0 ≠ 0 := by
  intro heq
  rw [sub_eq_zero.mp heq] at h
  exact absurd h (not_lt.mpr (mul_self_nonneg v0))

/-- A value is zero, or on the side of one of two opposite values. -/
theorem side_of_opposite (h : v0 * v1 < 0) (v : R) :
    v = 0 ∨ (0 < v * v0 ∧ v * v1 < 0) ∨ (v * v0 < 0 ∧ 0 < v * v1) := by
  rcases lt_trichotomy v 0 with hv | hv | hv
  · rcases mul_neg_iff.mp h with ⟨h0, h1⟩ | ⟨h0, h1⟩
    · exact .inr (.inr ⟨mul_neg_of_neg_of_pos hv h0, mul_pos_of_neg_of_neg hv h1⟩)
    · exact .inr (.inl ⟨mul_pos_of_neg_of_neg hv h0, mul_neg_of_neg_of_pos hv h1⟩)
  · exact .inl hv
  · rcases mul_neg_iff.mp h with ⟨h0, h1⟩ | ⟨h0, h1⟩
    · exact .inr (.inl ⟨mul_pos hv h0, mul_neg_of_pos_of_neg hv h1⟩)
    · exact .inr (.inr ⟨mul_neg_of_pos_of_neg hv h0, mul_pos hv h1⟩)

/-- Values of one sign are on one side of a third one. -/
theorem pos_trans_of_side {a b c : R} (h : 0 < a * b) (h' : 0 < b * c) : 0 < a * c := by
  have hb : b ≠ 0 := right_ne_zero_of_mul h.ne'
  have hprod : 0 < a * c * (b * b) := by
    rw [show a * c * (b * b) = a * b * (b * c) by ring]
    exact mul_pos h h'
  exact pos_of_mul_pos_left hprod (mul_self_nonneg b)

/-- Between opposite values, the zero is strictly between the points. -/
theorem secant_mem_Ioo (h : v0 * v1 < 0) (hlt : t0 < t1) :
    t0 < secant t0 t1 v0 v1 ∧ secant t0 t1 v0 v1 < t1 := by
  have hfrac : 0 < v0 / (v0 - v1) ∧ v0 / (v0 - v1) < 1 := by
    rcases mul_neg_iff.mp h with ⟨h0, h1⟩ | ⟨h0, h1⟩
    · have hpos : 0 < v0 - v1 := by linarith
      exact ⟨div_pos h0 hpos, (div_lt_one hpos).mpr (by linarith)⟩
    · have hneg : v0 - v1 < 0 := by linarith
      exact ⟨div_pos_of_neg_of_neg h0 hneg, (div_lt_one_of_neg hneg).mpr (by linarith)⟩
  have hsecant : secant t0 t1 v0 v1 = t0 + v0 / (v0 - v1) * (t1 - t0) := by
    have hne := sub_ne_zero_of_opposite h
    have hne' : v0 - v1 ≠ 0 := fun h0 => hne (by rw [← neg_sub, h0, neg_zero])
    rw [secant]
    field_simp
    ring
  have hlen : 0 < t1 - t0 := sub_pos.mpr hlt
  rw [hsecant]
  constructor
  · have := mul_pos hfrac.1 hlen
    linarith
  · have := mul_lt_of_lt_one_left hlen hfrac.2
    linarith

/-- Two lines cross zero at the same place when their values have one ratio. -/
theorem secant_eq_iff (h : v0 * v1 < 0) (h' : w0 * w1 < 0) (hne : t0 ≠ t1) :
    secant t0 t1 v0 v1 = secant t0 t1 w0 w1 ↔ v0 * w1 = w0 * v1 := by
  have hv := sub_ne_zero_of_opposite h
  have hw := sub_ne_zero_of_opposite h'
  have hlen : t1 - t0 ≠ 0 := sub_ne_zero.mpr hne.symm
  rw [secant, secant, sub_right_inj, div_eq_div_iff hv hw, mul_right_comm, mul_right_comm w0,
    mul_left_inj' hlen, mul_sub, mul_sub]
  constructor
  · intro heq
    linear_combination heq
  · intro heq
    linear_combination heq

end Secant

/-! ## Halving an integer -/

/-- What is left of a number that is halved again and again is itself halved. -/
theorem exists_halving_iff {p : Nat → Prop} {u : Nat} :
    (∃ j, p (u / 2 ^ (j + 1))) ↔ p (u / 2) ∨ ∃ j, p (u / 2 / 2 ^ (j + 1)) := by
  have hshift : ∀ j, u / 2 ^ (j + 1 + 1) = u / 2 / 2 ^ (j + 1) := fun j => by
    rw [Nat.div_div_eq_div_mul, ← pow_succ']
  constructor
  · rintro ⟨_ | j, hp⟩
    · exact .inl (by rwa [zero_add, pow_one] at hp)
    · exact .inr ⟨j, hshift j ▸ hp⟩
  · rintro (hp | ⟨j, hp⟩)
    · exact ⟨0, by rwa [zero_add, pow_one]⟩
    · exact ⟨j + 1, (hshift j).symm ▸ hp⟩

/-- A number halved so many times, rounded up. -/
def ceilHalves (d j : Nat) : Nat := (d + 2 ^ j - 1) / 2 ^ j

@[simp] theorem ceilHalves_zero (d : Nat) : ceilHalves d 0 = d := by
  simp [ceilHalves]

theorem ceilHalves_succ (d j : Nat) : ceilHalves d (j + 1) = ceilHalves ((d + 1) / 2) j := by
  have hpos : 0 < 2 ^ j := Nat.two_pow_pos j
  rw [ceilHalves, ceilHalves, pow_succ', ← Nat.div_div_eq_div_mul]
  congr 1
  omega

theorem ceilHalves_le (d j : Nat) : ceilHalves d j ≤ d := by
  induction j generalizing d with
  | zero => rw [ceilHalves_zero]
  | succ j ih =>
    rw [ceilHalves_succ]
    exact (ih _).trans (by omega)

theorem ceilHalves_one (j : Nat) : ceilHalves 1 j = 1 := by
  rw [ceilHalves, Nat.add_sub_cancel_left, Nat.div_self (Nat.two_pow_pos j)]

theorem exists_ceilHalves_iff {p : Nat → Nat → Prop} {d : Nat} :
    (∃ j, p (ceilHalves d j) (ceilHalves d (j + 1))) ↔
      p d ((d + 1) / 2) ∨
        ∃ j, p (ceilHalves ((d + 1) / 2) j) (ceilHalves ((d + 1) / 2) (j + 1)) := by
  constructor
  · rintro ⟨_ | j, hp⟩
    · exact .inl (by rwa [ceilHalves_succ, ceilHalves_zero, ceilHalves_zero] at hp)
    · exact .inr ⟨j, by rwa [ceilHalves_succ d (j + 1), ceilHalves_succ d j] at hp⟩
  · rintro (hp | ⟨j, hp⟩)
    · exact ⟨0, by rwa [ceilHalves_succ, ceilHalves_zero, ceilHalves_zero]⟩
    · exact ⟨j + 1, by rwa [ceilHalves_succ d (j + 1), ceilHalves_succ d j]⟩

end Alus.Lib
