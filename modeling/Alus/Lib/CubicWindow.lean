import Mathlib.Topology.LocallyFinite
import Mathlib.Topology.Instances.Real.Lemmas
import Mathlib.Tactic.LinearCombination
import Alus.Lib.Rounding

/-!
# Cubic interpolation in a moving window

Values at `0, 1, .. n` are interpolated by a cubic through a window of four of them. The window
starts one value before the cell of the position, but not before the first value, and past the last
value it repeats it. Its cubic takes the second and the third value of the window where they belong.

So the interpolant goes through every value but the first, where it is off by a third difference. It
is continuous, also in parameters of the values.
-/

namespace Alus.Lib

section Cubic

variable {R : Type*} [Field R]

/-- The cubic through the second and the third of four values. -/
def cubic (y0 y1 y2 y3 mu : R) : R :=
  (-(1 / 2) * y0 + 3 / 2 * y1 - 3 / 2 * y2 + 1 / 2 * y3) * mu * mu * mu +
    (y0 - 5 / 2 * y1 + 2 * y2 - 1 / 2 * y3) * (mu * mu) + (-(1 / 2) * y0 + 1 / 2 * y2) * mu + y1

/-- What a sequence lacks to begin like a quadratic. -/
def thirdDifference (y : Int → R) : R := y 0 - 3 * y 1 + 3 * y 2 - y 3

@[simp] theorem cubic_zero (y0 y1 y2 y3 : R) : cubic y0 y1 y2 y3 0 = y1 := by
  unfold cubic
  ring

theorem cubic_one [CharZero R] (y0 y1 y2 y3 : R) : cubic y0 y1 y2 y3 1 = y2 := by
  unfold cubic
  ring

/-- The cubic one step before its first inner value. -/
theorem cubic_neg_one [CharZero R] (y : Int → R) :
    cubic (y 0) (y 1) (y 2) (y 3) (-1) = y 0 + thirdDifference y := by
  unfold cubic thirdDifference
  ring

end Cubic

section Window

variable {R : Type*} [Field R] [LinearOrder R] [FloorRing R]

/-- The first value of the window for a position. -/
def windowStart (t : R) : Int := max (toInt t - 1) 0

/-- The cubic of the window that starts at `s`. -/
def windowCubic (n : Int) (y : Int → R) (s : Int) (t : R) : R :=
  cubic (y (min s n)) (y (min (s + 1) n)) (y (min (s + 2) n)) (y (min (s + 3) n)) (t - (s + 1))

/-- The interpolant. -/
def windowed (n : Int) (y : Int → R) (t : R) : R := windowCubic n y (windowStart t) t

variable [IsStrictOrderedRing R] {n k : Int} {y : Int → R} {t : R}

theorem windowStart_of_cell (hk : 0 ≤ k) (hlow : (k : R) ≤ t) (hhigh : t < k + 1) :
    windowStart t = max (k - 1) 0 := by
  have ht : 0 ≤ t := le_trans (by exact_mod_cast hk) hlow
  have hfloor : ⌊t⌋ = k := Int.floor_eq_iff.mpr ⟨hlow, hhigh⟩
  rw [windowStart, toInt_of_nonneg ht, hfloor]

theorem windowStart_intCast (hk : 0 ≤ k) : windowStart (k : R) = max (k - 1) 0 :=
  windowStart_of_cell hk le_rfl (lt_add_one _)

omit [IsStrictOrderedRing R] in
/-- The windows on both sides of a value agree there. -/
theorem windowCubic_right (hk : 0 ≤ k) (hn : k + 1 ≤ n) :
    windowCubic n y (max (k - 1) 0) ((k : R) + 1) = y (k + 1) := by
  unfold windowCubic
  cases lt_or_eq_of_le hk with
  | inl hpos =>
    rw [max_eq_left (by omega), min_eq_left (show k - 1 + 2 ≤ n by omega)]
    have hmu : (k : R) + 1 - (((k - 1 : Int) : R) + 1) = 1 := by
      push_cast
      ring
    rw [hmu, cubic_one]
    congr 1
    omega
  | inr hzero =>
    subst hzero
    rw [max_eq_right (by omega), min_eq_left (show 0 + 1 ≤ n by omega)]
    have hmu : ((0 : Int) : R) + 1 - (((0 : Int) : R) + 1) = 0 := sub_self _
    rw [hmu, cubic_zero]

/-- The interpolant goes through every value but the first. -/
theorem windowed_intCast (hk : 1 ≤ k) (hn : k ≤ n) : windowed n y (k : R) = y k := by
  rw [windowed, windowStart_intCast (by omega), max_eq_left (by omega), windowCubic,
    min_eq_left (show k - 1 + 1 ≤ n by omega)]
  have hmu : (k : R) - (((k - 1 : Int) : R) + 1) = 0 := by
    push_cast
    ring
  rw [hmu, cubic_zero, sub_add_cancel]

/-- At the first value the interpolant is off by the third difference. -/
theorem windowed_zero (hn : 3 ≤ n) : windowed n y (0 : R) = y 0 + thirdDifference y := by
  have hstart : windowStart (0 : R) = 0 := by
    rw [← Int.cast_zero, windowStart_intCast le_rfl]
    omega
  rw [windowed, hstart, windowCubic, min_eq_left (by omega), min_eq_left (by omega),
    min_eq_left (by omega), min_eq_left (by omega)]
  have hmu : (0 : R) - (((0 : Int) : R) + 1) = -1 := by
    push_cast
    ring
  rw [hmu]
  exact cubic_neg_one y

/-- On a cell with both its ends the interpolant is one cubic. -/
theorem windowed_of_closedCell (hk : 0 ≤ k) (hn : k + 1 ≤ n) (hlow : (k : R) ≤ t)
    (hhigh : t ≤ k + 1) : windowed n y t = windowCubic n y (max (k - 1) 0) t := by
  cases lt_or_eq_of_le hhigh with
  | inl hlt => rw [windowed, windowStart_of_cell hk hlow hlt]
  | inr heq =>
    have hend : ((k + 1 : Int) : R) = k + 1 := by push_cast; rfl
    rw [heq, windowCubic_right hk hn, ← hend, windowed_intCast (by omega) hn]

omit [IsStrictOrderedRing R] in
/-- The interpolant depends on the values it is about only. -/
theorem windowed_congr {y' : Int → R} (hn : 0 ≤ n) (h : ∀ i, 0 ≤ i → i ≤ n → y i = y' i) :
    windowed n y t = windowed n y' t := by
  have hstart : 0 ≤ windowStart t := le_max_right _ _
  unfold windowed windowCubic
  rw [h (min (windowStart t) n) (by omega) (by omega),
    h (min (windowStart t + 1) n) (by omega) (by omega),
    h (min (windowStart t + 2) n) (by omega) (by omega),
    h (min (windowStart t + 3) n) (by omega) (by omega)]

end Window

/-! ## Continuity -/

section Continuity

variable {X : Type*} [TopologicalSpace X] {S : Set X} {Y : Int → X → ℝ}

/-- The cubic is continuous in its values and its position. -/
theorem continuousOn_cubic {f0 f1 f2 f3 mu : X → ℝ} (h0 : ContinuousOn f0 S)
    (h1 : ContinuousOn f1 S) (h2 : ContinuousOn f2 S) (h3 : ContinuousOn f3 S)
    (hmu : ContinuousOn mu S) :
    ContinuousOn (fun x => cubic (f0 x) (f1 x) (f2 x) (f3 x) (mu x)) S := by
  unfold cubic
  fun_prop

theorem continuousOn_windowCubic (hY : ∀ i, ContinuousOn (Y i) S) (n s : Int) (I : Set ℝ) :
    ContinuousOn (fun p : X × ℝ => windowCubic n (fun i => Y i p.1) s p.2) (S ×ˢ I) := by
  have hvalue : ∀ i, ContinuousOn (fun p : X × ℝ => Y i p.1) (S ×ˢ I) := fun i =>
    (hY i).comp continuousOn_fst fun p hp => hp.1
  apply continuousOn_cubic (hvalue _) (hvalue _) (hvalue _) (hvalue _)
  exact (continuous_snd.sub continuous_const).continuousOn

/-- The interpolant is continuous in the position and in the parameter of its values. -/
theorem continuousOn_windowed (hS : IsClosed S) (hY : ∀ i, ContinuousOn (Y i) S) {n : Int}
    (hn : 0 < n) :
    ContinuousOn (fun p : X × ℝ => windowed n (fun i => Y i p.1) p.2)
      (S ×ˢ Set.Icc 0 (n : ℝ)) := by
  -- the cells are closed and there are finitely many
  let cell : Fin n.toNat → Set (X × ℝ) := fun k => S ×ˢ Set.Icc (k : ℝ) (k + 1)
  have hcell : ∀ k, ContinuousOn (fun p : X × ℝ => windowed n (fun i => Y i p.1) p.2) (cell k) := by
    intro k
    apply (continuousOn_windowCubic hY n (max ((k : Int) - 1) 0) _).congr
    intro p hp
    apply windowed_of_closedCell
    · exact Int.natCast_nonneg _
    · have := k.isLt
      omega
    · exact_mod_cast hp.2.1
    · exact_mod_cast hp.2.2
  have hunion : ContinuousOn (fun p : X × ℝ => windowed n (fun i => Y i p.1) p.2) (⋃ k, cell k) :=
    (locallyFinite_of_finite cell).continuousOn_iUnion (fun k => hS.prod isClosed_Icc) hcell
  apply hunion.mono
  intro p hp
  apply Set.mem_iUnion.mpr
  have hp0 : 0 ≤ p.2 := hp.2.1
  have hcast : ((n.toNat : Nat) : ℝ) = n := by exact_mod_cast Int.toNat_of_nonneg hn.le
  have hpn : p.2 ≤ (n.toNat : ℝ) := hcast ▸ hp.2.2
  cases lt_or_eq_of_le hpn with
  | inl hlt =>
    have hfloor : ⌊p.2⌋₊ < n.toNat := (Nat.floor_lt hp0).mpr hlt
    exact ⟨⟨⌊p.2⌋₊, hfloor⟩, hp.1, Nat.floor_le hp0, (Nat.lt_floor_add_one p.2).le⟩
  | inr heq =>
    -- the last value belongs to the last cell
    refine ⟨⟨n.toNat - 1, by omega⟩, hp.1, ?_, ?_⟩
    · show ((n.toNat - 1 : Nat) : ℝ) ≤ p.2
      rw [heq]
      exact_mod_cast Nat.sub_le n.toNat 1
    · show p.2 ≤ ((n.toNat - 1 : Nat) : ℝ) + 1
      rw [heq]
      exact_mod_cast (by omega : n.toNat ≤ n.toNat - 1 + 1)

end Continuity

end Alus.Lib
