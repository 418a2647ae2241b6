import Mathlib.Algebra.BigOperators.Group.Finset.Basic
import Mathlib.Algebra.BigOperators.Ring.Finset
import Mathlib.Algebra.Order.AbsoluteValue.Basic
import Mathlib.Data.Nat.Prime.Basic
import Mathlib.Data.Rat.Floor
import Mathlib.Order.Interval.Set.Basic
import Mathlib.Tactic.NormNum
import Alus.Lib.Bisection
import Alus.Lib.Loop

/-!
# The ground range of a slant range

`ComputeGroundRange` (`range-doppler-terrain-correction/include/get_position.cuh`) inverts the
polynomial that converts ground range to slant range, by bisection. The tolerance is only looked at
where the polynomial has exactly the value that is looked for, so the loop goes on until it splits
at the solution. Evaluation is exact.
-/

namespace Alus.TerrainCorrection

open Alus.Lib

/-! ## The code -/

section Code

variable {R : Type} [Field R]

/-- `polynomials::CalculateValue`, from the last coefficient to the first. -/
def calculateValue (x : R) (coefficients : List R) : Outcome R := do
  let val ← (List.range' 1 (coefficients.length - 1)).reverse.foldlM (fun val (i : Nat) => do
    return (val + (← vectorIndex coefficients i)) * x) 0
  return val + (← vectorIndex coefficients 0)

variable [LinearOrder R]

/-- The interval that the search has come down to. -/
structure RangeBounds (R : Type) where
  lowerBound : R
  upperBound : R

/-- A pass of the search. -/
def groundRangePass (slantRange : R) (srgrCoefficients : List R) (b : RangeBounds R) :
    Outcome (Pass (RangeBounds R) R) :=
  if b.upperBound - b.lowerBound > 0 then do
    let mid := (b.lowerBound + b.upperBound) / 2
    let midSlantRange ← calculateValue mid srgrCoefficients
    if midSlantRange < slantRange then return .next { b with lowerBound := mid }
    else if midSlantRange > slantRange then return .next { b with upperBound := mid }
    else
      let a := midSlantRange - slantRange
      if (a > 0 ∧ a < 0.1) ∨ (a ≤ 0 ∧ 0 - a < 0.1) then return .done mid
      else return .next b
  else return .done (-1)

/-- `ComputeGroundRange`, with at most the given number of passes. -/
def computeGroundRange (sourceImageWidth : Int) (groundRangeSpacing slantRange : R)
    (srgrCoefficients : List R) (groundRangeOrigin : R) (passes : Nat) : Outcome (Option R) := do
  let lowerBound := groundRangeOrigin
  let lowerBoundSlantRange ← calculateValue lowerBound srgrCoefficients
  if slantRange < lowerBoundSlantRange then return some (-1)
  else
    let upperBound := groundRangeOrigin + sourceImageWidth * groundRangeSpacing
    let upperBoundSlantRange ← calculateValue upperBound srgrCoefficients
    if slantRange > upperBoundSlantRange then return some (-1)
    else runLoop (groundRangePass slantRange srgrCoefficients) passes ⟨lowerBound, upperBound⟩

end Code

/-! ## The polynomial -/

section Polynomial

variable {R : Type} [Field R]

/-- `c0 + c1*x + c2*x^2 + ... + cn*x^n`. -/
def srgrPolynomial (coefficients : List R) (x : R) : R :=
  ∑ i ∈ Finset.range coefficients.length, coefficients.getD i 0 * x ^ i

theorem srgrPolynomial_cons (c : R) (coefficients : List R) (x : R) :
    srgrPolynomial (c :: coefficients) x = srgrPolynomial coefficients x * x + c := by
  simp only [srgrPolynomial, List.length_cons, Finset.sum_range_succ', List.getD_cons_succ,
    List.getD_cons_zero, pow_zero, mul_one, pow_succ, Finset.sum_mul, mul_assoc]

omit [Field R] in
theorem vectorIndex_cons_succ (c : R) (v : List R) (i : Nat) :
    vectorIndex (c :: v) ((i + 1 : Nat) : Int) = vectorIndex v (i : Int) := by
  simp only [vectorIndex, Int.toNat_natCast, List.getElem?_cons_succ, Int.natCast_nonneg, if_true]

/-- The loop over one more coefficient goes through the others first. -/
theorem calculateValue_cons_cons (x c c' : R) (coefficients : List R) :
    calculateValue x (c :: c' :: coefficients) = (do
      let val ← calculateValue x (c' :: coefficients)
      return val * x + c) := by
  let pass (v : List R) (val : R) (i : Nat) : Outcome R := do
    return (val + (← vectorIndex v i)) * x
  -- up to its last pass, the loop reads the coefficients of the shorter list
  have hshift : ∀ (l : List Nat) (val : R),
      (l.map (1 + ·)).foldlM (pass (c :: c' :: coefficients)) val =
        l.foldlM (pass (c' :: coefficients)) val := by
    intro l val
    rw [List.foldlM_map]
    refine congrArg (fun f => List.foldlM f val l) (funext fun val => funext fun i => ?_)
    simp only [pass]
    rw [Nat.add_comm 1 i, vectorIndex_cons_succ]
  have hindices : (List.range' 1 (coefficients.length + 1)).reverse =
      (List.range' 1 coefficients.length).reverse.map (1 + ·) ++ [1] := by
    rw [List.range'_succ, List.reverse_cons, List.map_reverse, List.map_add_range']
  have hfirst : ∀ v : R, [1].foldlM (pass (c :: c' :: coefficients)) v = .ok ((v + c') * x) :=
    fun _ => rfl
  show (do
    let val ← (List.range' 1 (coefficients.length + 1)).reverse.foldlM
      (pass (c :: c' :: coefficients)) 0
    return val + (← vectorIndex (c :: c' :: coefficients) 0)) = do
      let val ← (do
        let val ← (List.range' 1 coefficients.length).reverse.foldlM
          (pass (c' :: coefficients)) 0
        return val + (← vectorIndex (c' :: coefficients) 0) : Outcome R)
      return val * x + c
  rw [hindices, List.foldlM_append, hshift]
  cases (List.range' 1 coefficients.length).reverse.foldlM (pass (c' :: coefficients)) 0 with
  | ok v =>
    rw [Outcome.ok_bind, hfirst]
    rfl
  | throws => rfl
  | undefined => rfl

/-- The loop computes the polynomial. -/
theorem calculateValue_eq {coefficients : List R} (h : coefficients ≠ []) (x : R) :
    calculateValue x coefficients = .ok (srgrPolynomial coefficients x) := by
  induction coefficients with
  | nil => exact absurd rfl h
  | cons c coefficients ih =>
    cases coefficients with
    | nil =>
      rw [srgrPolynomial_cons]
      simp [calculateValue, vectorIndex, srgrPolynomial]
    | cons c' coefficients =>
      rw [calculateValue_cons_cons, ih (List.cons_ne_nil c' coefficients), srgrPolynomial_cons c]
      rfl

end Polynomial

/-! ## The search -/

section Inverse

variable {R : Type} [Field R] [LinearOrder R]

/-- The upper end of the interval that is searched. -/
def upperGroundRange (sourceImageWidth : Int) (groundRangeSpacing groundRangeOrigin : R) : R :=
  groundRangeOrigin + sourceImageWidth * groundRangeSpacing

/-- `ComputeGroundRange` returns a ground range of the slant range, or -1 where there is none. -/
structure InvertsSrgr (sourceImageWidth : Int) (groundRangeSpacing slantRange : R)
    (srgrCoefficients : List R) (groundRangeOrigin : R) : Prop where
  inside : srgrPolynomial srgrCoefficients groundRangeOrigin ≤ slantRange →
    slantRange ≤ srgrPolynomial srgrCoefficients
      (upperGroundRange sourceImageWidth groundRangeSpacing groundRangeOrigin) →
    ∃ passes groundRange, computeGroundRange sourceImageWidth groundRangeSpacing slantRange
        srgrCoefficients groundRangeOrigin passes = .ok (some groundRange) ∧
      (groundRangeOrigin ≤ groundRange ∧ groundRange ≤
        upperGroundRange sourceImageWidth groundRangeSpacing groundRangeOrigin) ∧
      |srgrPolynomial srgrCoefficients groundRange - slantRange| < 0.1
  outside : slantRange < srgrPolynomial srgrCoefficients groundRangeOrigin ∨
      srgrPolynomial srgrCoefficients
        (upperGroundRange sourceImageWidth groundRangeSpacing groundRangeOrigin) < slantRange →
    ∃ passes, computeGroundRange sourceImageWidth groundRangeSpacing slantRange srgrCoefficients
      groundRangeOrigin passes = .ok (some (-1))

/-- The slant range is not that of the interval, or the interval is split exactly at its ground
range. The last case is the interval of the point -1. -/
def SolutionSplits (sourceImageWidth : Int) (groundRangeSpacing slantRange : R)
    (srgrCoefficients : List R) (groundRangeOrigin : R) : Prop :=
  let upper := upperGroundRange sourceImageWidth groundRangeSpacing groundRangeOrigin
  slantRange < srgrPolynomial srgrCoefficients groundRangeOrigin ∨
    srgrPolynomial srgrCoefficients upper < slantRange ∨
    (groundRangeOrigin < upper ∧ ∃ j k : Nat, (0 < k ∧ k < 2 ^ j) ∧
      srgrPolynomial srgrCoefficients
        (groundRangeOrigin + (upper - groundRangeOrigin) * (k / 2 ^ j)) = slantRange) ∨
    (groundRangeOrigin = -1 ∧ upper = -1)

variable {sourceImageWidth : Int} {groundRangeSpacing slantRange groundRangeOrigin : R}
  {srgrCoefficients : List R}

variable (sourceImageWidth groundRangeSpacing slantRange groundRangeOrigin) in
theorem computeGroundRange_eq (hne : srgrCoefficients ≠ []) (passes : Nat) :
    computeGroundRange sourceImageWidth groundRangeSpacing slantRange srgrCoefficients
        groundRangeOrigin passes =
      if slantRange < srgrPolynomial srgrCoefficients groundRangeOrigin then .ok (some (-1))
      else if srgrPolynomial srgrCoefficients
          (upperGroundRange sourceImageWidth groundRangeSpacing groundRangeOrigin) < slantRange
        then .ok (some (-1))
      else runLoop (groundRangePass slantRange srgrCoefficients) passes
        ⟨groundRangeOrigin,
          upperGroundRange sourceImageWidth groundRangeSpacing groundRangeOrigin⟩ := by
  simp only [computeGroundRange, calculateValue_eq hne, Outcome.ok_bind, Outcome.pure_eq,
    upperGroundRange, gt_iff_lt]
  rfl

variable (sourceImageWidth groundRangeSpacing slantRange groundRangeOrigin) in
/-- Whether or not the search ends, it reads no coefficient that there is not. -/
theorem exists_computeGroundRange (hne : srgrCoefficients ≠ []) (passes : Nat) :
    ∃ r, computeGroundRange sourceImageWidth groundRangeSpacing slantRange srgrCoefficients
      groundRangeOrigin passes = .ok r := by
  rw [computeGroundRange_eq _ _ _ _ hne]
  split
  · exact ⟨_, rfl⟩
  · split
    · exact ⟨_, rfl⟩
    · refine exists_runLoop (fun b => ?_) passes _
      simp only [groundRangePass, calculateValue_eq hne, Outcome.ok_bind, Outcome.pure_eq]
      split
      · split
        · exact ⟨_, rfl⟩
        · split
          · exact ⟨_, rfl⟩
          · split <;> exact ⟨_, rfl⟩
      · exact ⟨_, rfl⟩

variable [IsStrictOrderedRing R] {lo hi : R}

variable (slantRange) in
/-- A pass ends the search where the polynomial has exactly the value, and nowhere else. -/
theorem groundRangePass_eq (hne : srgrCoefficients ≠ []) (hlt : lo < hi) :
    groundRangePass slantRange srgrCoefficients ⟨lo, hi⟩ =
      .ok (if srgrPolynomial srgrCoefficients ((lo + hi) / 2) < slantRange then
          .next ⟨(lo + hi) / 2, hi⟩
        else if slantRange < srgrPolynomial srgrCoefficients ((lo + hi) / 2) then
          .next ⟨lo, (lo + hi) / 2⟩
        else .done ((lo + hi) / 2)) := by
  have hopen : hi - lo > 0 := sub_pos.mpr hlt
  simp only [groundRangePass, if_pos hopen, calculateValue_eq hne, Outcome.ok_bind,
    Outcome.pure_eq, gt_iff_lt]
  split
  · rfl
  · next hge =>
    split
    · rfl
    · next hle =>
      have heq := le_antisymm (not_lt.mp hle) (not_lt.mp hge)
      rw [if_pos]
      exact .inr ⟨by rw [heq, sub_self], by rw [heq, sub_self]; norm_num⟩

/-- The search finds a solution that it splits at. -/
theorem runLoop_of_splitPoint (hne : srgrCoefficients ≠ []) {x : R} (hx : SplitPoint lo hi x)
    (hlt : lo < hi) (hmono : StrictMonoOn (srgrPolynomial srgrCoefficients) (Set.Icc lo hi))
    (hvalue : srgrPolynomial srgrCoefficients x = slantRange) :
    ∃ passes, runLoop (groundRangePass slantRange srgrCoefficients) passes ⟨lo, hi⟩ =
      .ok (some x) := by
  induction hx with
  | mid lo hi =>
    refine ⟨1, runLoop_done ?_⟩
    rw [groundRangePass_eq _ hne hlt, hvalue, if_neg (lt_irrefl _), if_neg (lt_irrefl _)]
  | @lower lo hi x h ih =>
    -- the solution is in the lower half, where the polynomial is smaller than in the middle
    have hmid : lo < (lo + hi) / 2 ∧ (lo + hi) / 2 < hi := by constructor <;> linarith
    obtain ⟨hlox, hxmid⟩ := h.mem_Ioo hmid.1
    have hbig : slantRange < srgrPolynomial srgrCoefficients ((lo + hi) / 2) := by
      rw [← hvalue]
      exact hmono ⟨hlox.le, (hxmid.trans hmid.2).le⟩ ⟨hmid.1.le, hmid.2.le⟩ hxmid
    obtain ⟨passes, hrun⟩ :=
      ih hmid.1 (hmono.mono (Set.Icc_subset_Icc le_rfl hmid.2.le)) hvalue
    refine ⟨passes + 1, ?_⟩
    rw [runLoop_next, hrun]
    rw [groundRangePass_eq _ hne hlt, if_neg hbig.not_gt, if_pos hbig]
  | @upper lo hi x h ih =>
    have hmid : lo < (lo + hi) / 2 ∧ (lo + hi) / 2 < hi := by constructor <;> linarith
    obtain ⟨hmidx, hxhi⟩ := h.mem_Ioo hmid.2
    have hsmall : srgrPolynomial srgrCoefficients ((lo + hi) / 2) < slantRange := by
      rw [← hvalue]
      exact hmono ⟨hmid.1.le, hmid.2.le⟩ ⟨(hmid.1.trans hmidx).le, hxhi.le⟩ hmidx
    obtain ⟨passes, hrun⟩ :=
      ih hmid.2 (hmono.mono (Set.Icc_subset_Icc hmid.1.le le_rfl)) hvalue
    refine ⟨passes + 1, ?_⟩
    rw [runLoop_next, hrun]
    rw [groundRangePass_eq _ hne hlt, if_pos hsmall]

/-- The search returns nothing but solutions that it splits at. -/
theorem splitPoint_of_runLoop (hne : srgrCoefficients ≠ []) {passes : Nat} {g : R}
    (h : runLoop (groundRangePass slantRange srgrCoefficients) passes ⟨lo, hi⟩ = .ok (some g))
    (hlt : lo < hi) :
    SplitPoint lo hi g ∧ srgrPolynomial srgrCoefficients g = slantRange := by
  induction passes generalizing lo hi with
  | zero => cases h
  | succ passes ih =>
    have hmid : lo < (lo + hi) / 2 ∧ (lo + hi) / 2 < hi := by constructor <;> linarith
    have hpass := groundRangePass_eq slantRange hne hlt
    split at hpass
    · rw [runLoop_next hpass] at h
      obtain ⟨hsplit, hvalue⟩ := ih h hmid.2
      exact ⟨.upper hsplit, hvalue⟩
    · next hge =>
      split at hpass
      · rw [runLoop_next hpass] at h
        obtain ⟨hsplit, hvalue⟩ := ih h hmid.1
        exact ⟨.lower hsplit, hvalue⟩
      · next hle =>
        rw [runLoop_done hpass, Outcome.ok.injEq, Option.some.injEq] at h
        subst h
        exact ⟨.mid lo hi, le_antisymm (not_lt.mp hle) (not_lt.mp hge)⟩

/-- An interval without length is not searched. -/
theorem runLoop_of_le (hle : hi ≤ lo) (passes : Nat) :
    runLoop (groundRangePass slantRange srgrCoefficients) (passes + 1) ⟨lo, hi⟩ =
      .ok (some (-1)) := by
  refine runLoop_done ?_
  rw [groundRangePass, if_neg (not_lt.mpr (sub_nonpos.mpr hle))]
  rfl

theorem solutionSplits_of_invertsSrgr (hne : srgrCoefficients ≠ [])
    (h : InvertsSrgr sourceImageWidth groundRangeSpacing slantRange srgrCoefficients
      groundRangeOrigin) :
    SolutionSplits sourceImageWidth groundRangeSpacing slantRange srgrCoefficients
      groundRangeOrigin := by
  by_contra hnot
  simp only [SolutionSplits] at hnot
  push Not at hnot
  obtain ⟨hlow, hhigh, hsplits, hpoint⟩ := hnot
  obtain ⟨passes, g, hrun, ⟨hog, hgu⟩, -⟩ := h.inside hlow hhigh
  rw [computeGroundRange_eq _ _ _ _ hne, if_neg hlow.not_gt, if_neg hhigh.not_gt] at hrun
  rcases (hog.trans hgu).lt_or_eq with hlt | heq
  · obtain ⟨hsplit, hvalue⟩ := splitPoint_of_runLoop hne hrun hlt
    obtain ⟨j, k, hk, rfl⟩ := splitPoint_iff.mp hsplit
    exact hsplits hlt j k hk hvalue
  -- the only ground range of the interval is -1
  · cases passes with
    | zero => cases hrun
    | succ passes =>
      rw [runLoop_of_le heq.ge, Outcome.ok.injEq, Option.some.injEq] at hrun
      subst hrun
      have ho : groundRangeOrigin = -1 := le_antisymm hog (heq ▸ hgu)
      exact hpoint ho (heq ▸ ho)

theorem invertsSrgr_of_solutionSplits (hne : srgrCoefficients ≠ [])
    (hmono : StrictMonoOn (srgrPolynomial srgrCoefficients) (Set.Icc groundRangeOrigin
      (upperGroundRange sourceImageWidth groundRangeSpacing groundRangeOrigin)))
    (h : SolutionSplits sourceImageWidth groundRangeSpacing slantRange srgrCoefficients
      groundRangeOrigin) :
    InvertsSrgr sourceImageWidth groundRangeSpacing slantRange srgrCoefficients
      groundRangeOrigin where
  inside hlow hhigh := by
    have heq := computeGroundRange_eq sourceImageWidth groundRangeSpacing slantRange
      groundRangeOrigin hne
    simp only [if_neg hlow.not_gt, if_neg hhigh.not_gt] at heq
    simp only [heq]
    -- the slant range lies outside, or at a point that the bisection meets, or both ends are zero
    rcases h with h | h | ⟨hlt, j, k, ⟨hk, hkj⟩, hvalue⟩ | ⟨ho, hu⟩
    · exact absurd h hlow.not_gt
    · exact absurd h hhigh.not_gt
    · have hsplit := splitPoint_fraction groundRangeOrigin
        (upperGroundRange sourceImageWidth groundRangeSpacing groundRangeOrigin) hk hkj
      obtain ⟨passes, hrun⟩ := runLoop_of_splitPoint hne hsplit hlt hmono hvalue
      obtain ⟨hog, hgu⟩ := hsplit.mem_Ioo hlt
      refine ⟨passes, _, hrun, ⟨hog.le, hgu.le⟩, ?_⟩
      rw [hvalue, sub_self, abs_zero]
      norm_num
    · refine ⟨1, -1, runLoop_of_le (hu.trans ho.symm).le 0, ⟨ho.le, hu.ge⟩, ?_⟩
      rw [ho] at hlow
      rw [hu] at hhigh
      rw [le_antisymm hlow hhigh, sub_self, abs_zero]
      norm_num
  outside hout := by
    refine ⟨0, ?_⟩
    rw [computeGroundRange_eq _ _ _ _ hne]
    split
    · rfl
    · next hlow => rw [if_pos (hout.resolve_left hlow)]

end Inverse

/-! ## Slant ranges that are ground ranges -/

theorem srgrPolynomial_identity (x : ℚ) : srgrPolynomial [0, 1] x = x := by
  rw [srgrPolynomial_cons, srgrPolynomial_cons]
  simp [srgrPolynomial]

theorem strictMonoOn_identity (s : Set ℚ) : StrictMonoOn (srgrPolynomial [(0 : ℚ), 1]) s := by
  intro x _ y _ hxy
  rw [srgrPolynomial_identity, srgrPolynomial_identity]
  exact hxy

end Alus.TerrainCorrection
