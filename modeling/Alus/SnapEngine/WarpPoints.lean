import Mathlib.Data.Rat.Floor
import Mathlib.Data.List.ProdSigma
import Mathlib.Order.Interval.Finset.Basic
import Mathlib.Tactic.Ring
import Alus.Lib.Binary32
import Alus.Lib.IntRange
import Alus.Lib.Loop
import Alus.SnapEngine.TiePointGrid

/-!
# Warp points of tie point geo-coding

`InitApproximations` (`tie_point_geo_coding.cc`) cuts the tie point grid into rectangles, and
collects the tie points of each, thinned out in steps along both axes so that there are not too
many of them. Positions and values are exact numbers; the rectangles are computed in single
precision.
-/

namespace Alus.SnapEngine

open Alus.Lib

/-! ## The steps -/

/-- `MAX_NUM_POINTS_PER_TILE`. -/
def maxNumPointsPerTile : Int := 1000

/-- What `DetermineWarpParameters` returns. -/
structure WarpParameters where
  numU : Int
  numV : Int
  stepI : Int
  stepJ : Int
  deriving DecidableEq, Repr

/-- Where the loops are: at the test of the outer one, or in one of the inner two. -/
inductive WarpLoop where
  | outer
  | raiseU
  | raiseV
  deriving DecidableEq, Repr

structure WarpState extends WarpParameters where
  loop : WarpLoop
  deriving DecidableEq, Repr

/-- A pass of the loops of `DetermineWarpParameters`. -/
def warpPass (sw sh : Int) (s : WarpState) : Outcome (Pass WarpState WarpParameters) :=
  match s.loop with
  | .outer => do
    let product ← int32 (s.numU * s.numV)
    if product > maxNumPointsPerTile then
      -- `adjust_step_i`
      if s.numU ≥ s.numV then do
        let stepI ← int32 (s.stepI + 1)
        return .next { s with stepI := stepI, numU := sw.tdiv stepI, loop := .raiseU }
      else do
        let stepJ ← int32 (s.stepJ + 1)
        return .next { s with stepJ := stepJ, numV := sh.tdiv stepJ, loop := .raiseV }
    else return .done s.toWarpParameters
  | .raiseU => do
    let covered ← int32 (s.numU * s.stepI)
    if covered < sw then do
      let numU ← int32 (s.numU + 1)
      return .next { s with numU := numU }
    else return .next { s with loop := .outer }
  | .raiseV => do
    let covered ← int32 (s.numV * s.stepJ)
    if covered < sh then do
      let numV ← int32 (s.numV + 1)
      return .next { s with numV := numV }
    else return .next { s with loop := .outer }

/-- Before the loops. -/
def warpStart (sw sh : Int) : WarpState := ⟨⟨sw, sh, 1, 1⟩, .outer⟩

/-- `DetermineWarpParameters` ends with these parameters. -/
def DeterminesWarpParameters (sw sh : Int) (p : WarpParameters) : Prop :=
  EndsWith (warpPass sw sh) (warpStart sw sh) p

/-- `n` is the quotient of `a` and `b`, rounded up. -/
def IsCeilDiv (n a b : Int) : Prop := (n - 1) * b < a ∧ a ≤ n * b

theorem isCeilDiv_iff {n a b : Int} (hb : 0 < b) : IsCeilDiv n a b ↔ n = ⌈(a : ℚ) / b⌉ := by
  have hb' : (0 : ℚ) < b := by exact_mod_cast hb
  rw [eq_comm, Int.ceil_eq_iff, lt_div_iff₀ hb', div_le_iff₀ hb']
  unfold IsCeilDiv
  norm_cast

theorem isCeilDiv_one (a : Int) : IsCeilDiv a a 1 := by
  unfold IsCeilDiv
  omega

theorem IsCeilDiv.eq_of_one {n a : Int} (h : IsCeilDiv n a 1) : n = a := by
  unfold IsCeilDiv at h
  omega

theorem IsCeilDiv.pos {n a b : Int} (h : IsCeilDiv n a b) (ha : 0 < a) (hb : 0 < b) : 0 < n := by
  by_contra hn
  have := Int.mul_nonpos_of_nonpos_of_nonneg (show n ≤ 0 by omega) (show 0 ≤ b by omega)
  have := h.2
  omega

/-- What holds along one axis while its number of points is raised from the quotient that is
rounded down, after the step has become one larger. -/
structure Raising (n extent step before : Int) : Prop where
  two_le_step : 2 ≤ step
  nonneg : 0 ≤ n
  below : (n - 1) * step < extent
  above : extent < (n + 1) * step
  previous : (before - 1) * (step - 1) < extent

theorem Raising.start {n extent step : Int} (h : IsCeilDiv n extent step) (hextent : 0 < extent)
    (hstep : 1 ≤ step) : Raising (extent.tdiv (step + 1)) extent (step + 1) n := by
  have hdiv : extent.tdiv (step + 1) = extent / (step + 1) :=
    Int.tdiv_eq_ediv_of_nonneg (by omega)
  have hle := Int.ediv_mul_le extent (show step + 1 ≠ 0 by omega)
  have hlt := Int.lt_ediv_add_one_mul_self extent (show 0 < step + 1 by omega)
  have hexpand : (extent / (step + 1) - 1) * (step + 1) =
      extent / (step + 1) * (step + 1) - (step + 1) := by ring
  rw [hdiv]
  exact ⟨by omega, Int.ediv_nonneg (by omega) (by omega), by omega, hlt,
    by rw [Int.add_sub_cancel]; exact h.1⟩

theorem Raising.raise {n extent step before : Int} (h : Raising n extent step before)
    (hlt : n * step < extent) : Raising (n + 1) extent step before where
  two_le_step := h.two_le_step
  nonneg := by
    have := h.nonneg
    omega
  below := by
    rw [Int.add_sub_cancel]
    exact hlt
  above := by
    have hexpand : (n + 1 + 1) * step = (n + 1) * step + step := by ring
    have := h.above
    have := h.two_le_step
    omega
  previous := h.previous

theorem Raising.isCeilDiv {n extent step before : Int} (h : Raising n extent step before)
    (hle : extent ≤ n * step) : IsCeilDiv n extent step := ⟨h.below, hle⟩

/-- At least half of the points before are left. -/
theorem Raising.half {n extent step before : Int} (h : Raising n extent step before)
    (hle : extent ≤ n * step) : before ≤ 2 * n := by
  by_contra hlt
  have hstep := h.two_le_step
  have hprevious := h.previous
  have hmul : (2 * n) * (step - 1) ≤ (before - 1) * (step - 1) :=
    Int.mul_le_mul_of_nonneg_right (by omega) (by omega)
  have hexpand : (2 * n) * (step - 1) = n * step + n * (step - 2) := by ring
  have hnonneg : 0 ≤ n * (step - 2) := Int.mul_nonneg h.nonneg (by omega)
  omega

/-- So more than half of the allowed number of points is left, if there were too many before. -/
theorem Raising.large {n extent step before other : Int} (h : Raising n extent step before)
    (hle : extent ≤ n * step) (hother : 0 < other)
    (hbefore : maxNumPointsPerTile < before * other) :
    maxNumPointsPerTile < 2 * (n * other) := by
  have hmul : before * other ≤ 2 * n * other :=
    Int.mul_le_mul_of_nonneg_right (h.half hle) hother.le
  rw [Int.mul_assoc] at hmul
  exact lt_of_lt_of_le hbefore hmul

/-- The numbers of points are the extents over the steps, rounded up, and no step has been taken
or more than half of the allowed number of points is left. -/
structure Stepped (sw sh : Int) (p : WarpParameters) : Prop where
  one_le_stepI : 1 ≤ p.stepI
  one_le_stepJ : 1 ≤ p.stepJ
  ceilU : IsCeilDiv p.numU sw p.stepI
  ceilV : IsCeilDiv p.numV sh p.stepJ
  large : (p.stepI = 1 ∧ p.stepJ = 1) ∨ maxNumPointsPerTile < 2 * (p.numU * p.numV)

/-- The invariant of the loops. -/
def WarpInvariant (sw sh : Int) (s : WarpState) : Prop :=
  match s.loop with
  | .outer => Stepped sw sh s.toWarpParameters
  | .raiseU => 1 ≤ s.stepJ ∧ IsCeilDiv s.numV sh s.stepJ ∧
      ∃ before, maxNumPointsPerTile < before * s.numV ∧ Raising s.numU sw s.stepI before
  | .raiseV => 1 ≤ s.stepI ∧ IsCeilDiv s.numU sw s.stepI ∧
      ∃ before, maxNumPointsPerTile < s.numU * before ∧ Raising s.numV sh s.stepJ before

theorem warpInvariant_start (sw sh : Int) : WarpInvariant sw sh (warpStart sw sh) :=
  show Stepped sw sh ⟨sw, sh, 1, 1⟩ from
    ⟨le_refl _, le_refl _, isCeilDiv_one sw, isCeilDiv_one sh, .inl ⟨rfl, rfl⟩⟩

/-- What a pass does that does not end the loops. -/
inductive WarpMove (sw sh : Int) : WarpState → WarpState → Prop where
  | stepI {numU numV stepI stepJ : Int} (hlarge : maxNumPointsPerTile < numU * numV)
      (hadjust : numV ≤ numU) :
      WarpMove sw sh ⟨⟨numU, numV, stepI, stepJ⟩, .outer⟩
        ⟨⟨sw.tdiv (stepI + 1), numV, stepI + 1, stepJ⟩, .raiseU⟩
  | stepJ {numU numV stepI stepJ : Int} (hlarge : maxNumPointsPerTile < numU * numV)
      (hadjust : numU < numV) :
      WarpMove sw sh ⟨⟨numU, numV, stepI, stepJ⟩, .outer⟩
        ⟨⟨numU, sh.tdiv (stepJ + 1), stepI, stepJ + 1⟩, .raiseV⟩
  | raiseU {numU numV stepI stepJ : Int} (hlt : numU * stepI < sw) :
      WarpMove sw sh ⟨⟨numU, numV, stepI, stepJ⟩, .raiseU⟩
        ⟨⟨numU + 1, numV, stepI, stepJ⟩, .raiseU⟩
  | endU {numU numV stepI stepJ : Int} (hle : sw ≤ numU * stepI) :
      WarpMove sw sh ⟨⟨numU, numV, stepI, stepJ⟩, .raiseU⟩ ⟨⟨numU, numV, stepI, stepJ⟩, .outer⟩
  | raiseV {numU numV stepI stepJ : Int} (hlt : numV * stepJ < sh) :
      WarpMove sw sh ⟨⟨numU, numV, stepI, stepJ⟩, .raiseV⟩
        ⟨⟨numU, numV + 1, stepI, stepJ⟩, .raiseV⟩
  | endV {numU numV stepI stepJ : Int} (hle : sh ≤ numV * stepJ) :
      WarpMove sw sh ⟨⟨numU, numV, stepI, stepJ⟩, .raiseV⟩ ⟨⟨numU, numV, stepI, stepJ⟩, .outer⟩

theorem warpPass_next {sw sh : Int} {s s' : WarpState}
    (h : warpPass sw sh s = .ok (.next s')) : WarpMove sw sh s s' := by
  obtain ⟨⟨numU, numV, stepI, stepJ⟩, loop⟩ := s
  -- the step grows along the axis with more points
  cases loop with
  | outer =>
    refine Outcome.of_bind_eq_ok h fun product hproduct h => ?_
    obtain ⟨-, rfl⟩ := int32_eq_ok.mp hproduct
    dsimp only at h
    split at h
    · rename_i hlarge
      split at h
      · rename_i hadjust
        refine Outcome.of_bind_eq_ok h fun stepI' hstepI h => ?_
        obtain ⟨-, rfl⟩ := int32_eq_ok.mp hstepI
        cases h
        exact .stepI hlarge hadjust
      · rename_i hadjust
        refine Outcome.of_bind_eq_ok h fun stepJ' hstepJ h => ?_
        obtain ⟨-, rfl⟩ := int32_eq_ok.mp hstepJ
        cases h
        exact .stepJ hlarge (Int.not_le.mp hadjust)
    · cases h
  | raiseU =>
    refine Outcome.of_bind_eq_ok h fun covered hcovered h => ?_
    obtain ⟨-, rfl⟩ := int32_eq_ok.mp hcovered
    dsimp only at h
    split at h
    · refine Outcome.of_bind_eq_ok h fun numU' hnumU h => ?_
      obtain ⟨-, rfl⟩ := int32_eq_ok.mp hnumU
      cases h
      exact .raiseU ‹_›
    · rename_i hle
      cases h
      exact .endU (Int.not_lt.mp hle)
  | raiseV =>
    refine Outcome.of_bind_eq_ok h fun covered hcovered h => ?_
    obtain ⟨-, rfl⟩ := int32_eq_ok.mp hcovered
    dsimp only at h
    split at h
    · refine Outcome.of_bind_eq_ok h fun numV' hnumV h => ?_
      obtain ⟨-, rfl⟩ := int32_eq_ok.mp hnumV
      cases h
      exact .raiseV ‹_›
    · rename_i hle
      cases h
      exact .endV (Int.not_lt.mp hle)

/-- A pass keeps the invariant. -/
theorem warpInvariant_next {sw sh : Int} (hsw : 0 < sw) (hsh : 0 < sh) (s s' : WarpState)
    (hs : WarpInvariant sw sh s) (h : warpPass sw sh s = .ok (.next s')) :
    WarpInvariant sw sh s' := by
  cases warpPass_next h with
  | stepI hlarge _ =>
    have hstepped : Stepped sw sh _ := hs
    exact ⟨hstepped.one_le_stepJ, hstepped.ceilV, _, hlarge,
      Raising.start hstepped.ceilU hsw hstepped.one_le_stepI⟩
  | stepJ hlarge _ =>
    have hstepped : Stepped sw sh _ := hs
    exact ⟨hstepped.one_le_stepI, hstepped.ceilU, _, hlarge,
      Raising.start hstepped.ceilV hsh hstepped.one_le_stepJ⟩
  | raiseU hlt =>
    -- one point more does not change the steps
    have ⟨hstepJ, hceil, before, hbefore, hraising⟩ := hs
    exact ⟨hstepJ, hceil, before, hbefore, hraising.raise hlt⟩
  | raiseV hlt =>
    have ⟨hstepI, hceil, before, hbefore, hraising⟩ := hs
    exact ⟨hstepI, hceil, before, hbefore, hraising.raise hlt⟩
  | endU hle =>
    -- the raising stops at the quotient rounded up
    have ⟨hstepJ, hceil, before, hbefore, hraising⟩ := hs
    exact
      { one_le_stepI := by
          have := hraising.two_le_step
          dsimp only at this ⊢
          omega
        one_le_stepJ := hstepJ
        ceilU := hraising.isCeilDiv hle
        ceilV := hceil
        large := .inr (hraising.large hle (hceil.pos hsh hstepJ) hbefore) }
  | endV hle =>
    have ⟨hstepI, hceil, before, hbefore, hraising⟩ := hs
    rw [Int.mul_comm] at hbefore
    have hlarge := hraising.large hle (hceil.pos hsw hstepI) hbefore
    rw [Int.mul_comm (WarpParameters.numV _)] at hlarge
    exact
      { one_le_stepI := hstepI
        one_le_stepJ := by
          have := hraising.two_le_step
          dsimp only at this ⊢
          omega
        ceilU := hceil
        ceilV := hraising.isCeilDiv hle
        large := .inr hlarge }

/-- The loops end at the test of the outer one, with few enough points. -/
theorem warpPass_done {sw sh : Int} {s : WarpState} {p : WarpParameters}
    (h : warpPass sw sh s = .ok (.done p)) :
    s = ⟨p, .outer⟩ ∧ p.numU * p.numV ≤ maxNumPointsPerTile := by
  obtain ⟨⟨numU, numV, stepI, stepJ⟩, loop⟩ := s
  cases loop with
  | outer =>
    refine Outcome.of_bind_eq_ok h fun product hproduct h => ?_
    obtain ⟨-, rfl⟩ := int32_eq_ok.mp hproduct
    dsimp only at h
    split at h
    · split at h
      · exact Outcome.of_bind_eq_ok h fun _ _ h => nomatch h
      · exact Outcome.of_bind_eq_ok h fun _ _ h => nomatch h
    · rename_i hle
      cases h
      exact ⟨rfl, Int.not_lt.mp hle⟩
  | raiseU =>
    refine Outcome.of_bind_eq_ok h fun _ _ h => ?_
    dsimp only at h
    split at h
    · exact Outcome.of_bind_eq_ok h fun _ _ h => nomatch h
    · cases h
  | raiseV =>
    refine Outcome.of_bind_eq_ok h fun _ _ h => ?_
    dsimp only at h
    split at h
    · exact Outcome.of_bind_eq_ok h fun _ _ h => nomatch h
    · cases h

/-- What the parameters are when the loops end. -/
theorem DeterminesWarpParameters.stepped {sw sh : Int} {p : WarpParameters} (hsw : 0 < sw)
    (hsh : 0 < sh) (h : DeterminesWarpParameters sw sh p) :
    Stepped sw sh p ∧ p.numU * p.numV ≤ maxNumPointsPerTile := by
  obtain ⟨passes, hrun⟩ := h
  obtain ⟨s, hs, hdone⟩ :=
    runLoop_inv (warpInvariant_next hsw hsh) (warpInvariant_start sw sh) hrun
  obtain ⟨rfl, hle⟩ := warpPass_done hdone
  exact ⟨hs, hle⟩

/-! ### The loops end -/

/-- The products of the inner loops are numbers of `int`, up to extents of `2 ^ 30`. -/
theorem Raising.fits {n extent step before : Int} (h : Raising n extent step before)
    (hstep : step ≤ extent) (hextent : extent ≤ 1073741824) : Fits 32 (n * step) := by
  have hnonneg := Int.mul_nonneg h.nonneg (show 0 ≤ step by have := h.two_le_step; omega)
  have hbelow := h.below
  have hexpand : (n - 1) * step = n * step - step := by ring
  rw [fits32_iff]
  omega

theorem Raising.lt_extent {n extent step before : Int} (h : Raising n extent step before)
    (hlt : n * step < extent) : n < extent := by
  have hmul : n * 1 ≤ n * step :=
    Int.mul_le_mul_of_nonneg_left (by have := h.two_le_step; omega) h.nonneg
  omega

/-- A step that still leaves too many points is smaller than the extent. -/
theorem IsCeilDiv.step_lt {n extent step other : Int} (h : IsCeilDiv n extent step)
    (hstep : 1 ≤ step) (hother : 0 < other) (hle : other ≤ n)
    (hlarge : maxNumPointsPerTile < n * other) : step < extent := by
  have htwo : 2 ≤ n := by
    by_contra hlt
    have hone : n = 1 := by omega
    have hother1 : other = 1 := by omega
    rw [hone, hother1] at hlarge
    exact absurd hlarge (by decide)
  have hmul : 1 * step ≤ (n - 1) * step :=
    Int.mul_le_mul_of_nonneg_right (by omega) (by omega)
  have := h.1
  omega

/-- The invariant, with the bounds that keep the arithmetic exact. -/
structure WarpBounded (sw sh : Int) (s : WarpState) : Prop where
  invariant : WarpInvariant sw sh s
  stepI_le : s.stepI ≤ sw
  stepJ_le : s.stepJ ≤ sh
  numU_le : s.numU ≤ sw
  numV_le : s.numV ≤ sh

/-- The passes that are left, three for each step. -/
def warpVariant (sw sh : Int) (s : WarpState) : Nat :=
  3 * ((sw - s.stepI) + (sh - s.stepJ)).toNat +
    match s.loop with
    | .outer => 0
    | .raiseU => if s.numU * s.stepI < sw then 2 else 1
    | .raiseV => if s.numV * s.stepJ < sh then 2 else 1

section Ends

variable {sw sh : Int} {s s' : WarpState} (hsw : 0 < sw) (hsh : 0 < sh)
  (hsw30 : sw ≤ 1073741824) (hsh30 : sh ≤ 1073741824) (hfits : sw * sh < 2147483648)

include hsw hsh hsw30 hsh30 hfits in
/-- Within the bounds a pass computes with numbers of `int`. -/
theorem exists_warpPass (hs : WarpBounded sw sh s) :
    (∃ p, warpPass sw sh s = .ok (.done p)) ∨ ∃ s', warpPass sw sh s = .ok (.next s') := by
  obtain ⟨⟨numU, numV, stepI, stepJ⟩, loop⟩ := s
  have hstepI : stepI ≤ sw := hs.stepI_le
  have hstepJ : stepJ ≤ sh := hs.stepJ_le
  have hnumU : numU ≤ sw := hs.numU_le
  have hnumV : numV ≤ sh := hs.numV_le
  cases loop with
  | outer =>
    have hstepped : Stepped sw sh ⟨numU, numV, stepI, stepJ⟩ := hs.invariant
    have hposU : 0 < numU := hstepped.ceilU.pos hsw hstepped.one_le_stepI
    have hposV : 0 < numV := hstepped.ceilV.pos hsh hstepped.one_le_stepJ
    have honeI : 1 ≤ stepI := hstepped.one_le_stepI
    have honeJ : 1 ≤ stepJ := hstepped.one_le_stepJ
    -- there are at most as many points as pixels
    have hproduct : Fits 32 (numU * numV) := by
      have hnonneg := Int.mul_nonneg hposU.le hposV.le
      have hle : numU * numV ≤ sw * sh := Int.mul_le_mul hnumU hnumV hposV.le hsw.le
      rw [fits32_iff]
      omega
    have hnextI : Fits 32 (stepI + 1) := by
      rw [fits32_iff]
      omega
    have hnextJ : Fits 32 (stepJ + 1) := by
      rw [fits32_iff]
      omega
    simp only [warpPass, int32_of_fits hproduct, int32_of_fits hnextI, int32_of_fits hnextJ,
      Outcome.ok_bind]
    split
    · split
      · exact .inr ⟨_, rfl⟩
      · exact .inr ⟨_, rfl⟩
    · exact .inl ⟨_, rfl⟩
  | raiseU =>
    -- one point less does not reach over the raster, so the product is an `int`
    have ⟨_, _, before, _, hraising⟩ := hs.invariant
    have hnonneg : 0 ≤ numU := hraising.nonneg
    have hone : Fits 32 (numU + 1) := by
      rw [fits32_iff]
      omega
    simp only [warpPass, int32_of_fits (hraising.fits hstepI hsw30), int32_of_fits hone,
      Outcome.ok_bind]
    split
    · exact .inr ⟨_, rfl⟩
    · exact .inr ⟨_, rfl⟩
  | raiseV =>
    -- the same along the other axis
    have ⟨_, _, before, _, hraising⟩ := hs.invariant
    have hnonneg : 0 ≤ numV := hraising.nonneg
    have hone : Fits 32 (numV + 1) := by
      rw [fits32_iff]
      omega
    simp only [warpPass, int32_of_fits (hraising.fits hstepJ hsh30), int32_of_fits hone,
      Outcome.ok_bind]
    split
    · exact .inr ⟨_, rfl⟩
    · exact .inr ⟨_, rfl⟩

include hsw hsh in
/-- A pass stays within the bounds. -/
theorem WarpBounded.next (hs : WarpBounded sw sh s) (h : warpPass sw sh s = .ok (.next s')) :
    WarpBounded sw sh s' := by
  have hinvariant := warpInvariant_next hsw hsh s s' hs.invariant h
  cases warpPass_next h with
  | stepI hlarge hadjust =>
    have hstepped : Stepped sw sh _ := hs.invariant
    have hposV := hstepped.ceilV.pos hsh hstepped.one_le_stepJ
    exact ⟨hinvariant, hstepped.ceilU.step_lt hstepped.one_le_stepI hposV hadjust hlarge,
      hs.stepJ_le, Int.tdiv_le_self _ hsw.le, hs.numV_le⟩
  | stepJ hlarge hadjust =>
    have hstepped : Stepped sw sh _ := hs.invariant
    have hposU := hstepped.ceilU.pos hsw hstepped.one_le_stepI
    rw [Int.mul_comm] at hlarge
    exact ⟨hinvariant, hs.stepI_le,
      hstepped.ceilV.step_lt hstepped.one_le_stepJ hposU hadjust.le hlarge, hs.numU_le,
      Int.tdiv_le_self _ hsh.le⟩
  | raiseU hlt =>
    have ⟨_, _, before, _, hraising⟩ := hs.invariant
    exact ⟨hinvariant, hs.stepI_le, hs.stepJ_le, hraising.lt_extent hlt, hs.numV_le⟩
  | raiseV hlt =>
    have ⟨_, _, before, _, hraising⟩ := hs.invariant
    exact ⟨hinvariant, hs.stepI_le, hs.stepJ_le, hs.numU_le, hraising.lt_extent hlt⟩
  | endU _ => exact ⟨hinvariant, hs.stepI_le, hs.stepJ_le, hs.numU_le, hs.numV_le⟩
  | endV _ => exact ⟨hinvariant, hs.stepI_le, hs.stepJ_le, hs.numU_le, hs.numV_le⟩

/-- Every pass leaves fewer of them. An inner loop is raised once at most: its first pass has the
number of points next to the quotient. -/
theorem warpVariant_next (hs : WarpBounded sw sh s) (hs' : WarpBounded sw sh s')
    (h : warpPass sw sh s = .ok (.next s')) : warpVariant sw sh s' < warpVariant sw sh s := by
  have hstepI := hs'.stepI_le
  have hstepJ := hs'.stepJ_le
  -- a longer step counts for more than the raising that follows it
  cases warpPass_next h with
  | stepI _ _ =>
    unfold warpVariant
    dsimp only at hstepI hstepJ ⊢
    split <;> omega
  | stepJ _ _ =>
    unfold warpVariant
    dsimp only at hstepI hstepJ ⊢
    split <;> omega
  | raiseU hlt =>
    have ⟨_, _, before, _, hraising⟩ := hs.invariant
    have habove := hraising.above
    unfold warpVariant
    dsimp only at habove ⊢
    rw [if_pos hlt, if_neg (by omega)]
    omega
  | raiseV hlt =>
    have ⟨_, _, before, _, hraising⟩ := hs.invariant
    have habove := hraising.above
    unfold warpVariant
    dsimp only at habove ⊢
    rw [if_pos hlt, if_neg (by omega)]
    omega
  | endU hle =>
    unfold warpVariant
    dsimp only
    rw [if_neg (Int.not_lt.mpr hle)]
    omega
  | endV hle =>
    unfold warpVariant
    dsimp only
    rw [if_neg (Int.not_lt.mpr hle)]
    omega

include hsw hsh hsw30 hsh30 hfits in
/-- `DetermineWarpParameters` ends, for extents up to `2 ^ 30`. -/
theorem exists_determinesWarpParameters : ∃ p, DeterminesWarpParameters sw sh p := by
  have hstart : WarpBounded sw sh (warpStart sw sh) :=
    ⟨warpInvariant_start sw sh, show 1 ≤ sw by omega, show 1 ≤ sh by omega, le_refl sw,
      le_refl sh⟩
  obtain ⟨p, hp⟩ := runLoop_of_variant (warpVariant sw sh) (fun s hs => by
    cases exists_warpPass hsw hsh hsw30 hsh30 hfits hs with
    | inl hdone => exact .inl hdone
    | inr hnext =>
      obtain ⟨s', hpass⟩ := hnext
      have hs' := hs.next hsw hsh hpass
      exact .inr ⟨s', hpass, hs', warpVariant_next hs hs' hpass⟩) hstart (Nat.lt_succ_self _)
  exact ⟨p, _, hp⟩

end Ends

/-! ## The points -/

section Points

variable {T : Type} [Field T] [LinearOrder T]

/-- The grids of a geo-coding. The constructor of a grid has compared the number of its tie points
with a product of type `int`. -/
structure GeoCodingGrids (T : Type) [Field T] [LinearOrder T] where
  latGrid : TiePointGrid T
  lonGrid : TiePointGrid T
  same_width : lonGrid.x.size = latGrid.x.size
  same_height : lonGrid.y.size = latGrid.y.size
  size_lt : latGrid.x.size * latGrid.y.size < 2147483648

/-- `data.at(k).at(column) = value`. -/
def setAt (data : List (List T)) (k column : Int) (value : T) : Outcome (List (List T)) := do
  let row ← vectorAt data k
  if 0 ≤ column ∧ column < row.length then
    return data.set k.toNat (row.set column.toNat value)
  else Outcome.throws

/-- A position, moved to the border of the rectangle where it lies beyond. -/
def adjustBorder (position last : Int) : Int := if position > last then last else position

/-- A pass of the inner loop: the point in column `u` and row `v` of the selection. -/
def storeWarpPoint (g : GeoCodingGrids T) (rect : Rectangle) (p : WarpParameters)
    (s : List (List T) × Int) (vu : Int × Int) : Outcome (List (List T) × Int) := do
  let w := g.latGrid.x.size
  let offsetJ ← int32 (vu.1 * p.stepJ)
  let positionJ ← int32 (rect.y + offsetJ)
  let j := adjustBorder positionJ (rect.y + rect.height - 1)
  let offsetI ← int32 (vu.2 * p.stepI)
  let positionI ← int32 (rect.x + offsetI)
  let i := adjustBorder positionI (rect.x + rect.width - 1)
  let row ← int32 (j * w)
  let index ← int32 (row + i)
  let lat ← vectorAt g.latGrid.tiePoints index
  let lon ← vectorAt g.lonGrid.tiePoints index
  let x := g.latGrid.x.offset + (i : T) * g.latGrid.x.subSampling
  let y := g.latGrid.y.offset + (j : T) * g.latGrid.y.subSampling
  let data ← setAt s.1 s.2 0 lat
  let data ← setAt data s.2 1 lon
  let data ← setAt data s.2 2 x
  let data ← setAt data s.2 3 y
  let k ← int32 (s.2 + 1)
  return (data, k)

/-- `CreateWarpPoints`, after `DetermineWarpParameters`. -/
def createWarpPoints (g : GeoCodingGrids T) (rect : Rectangle) (p : WarpParameters) :
    Outcome (List (List T)) := do
  let m ← int32 (p.numU * p.numV)
  let data := List.replicate 4 (List.replicate m.toNat (0 : T))
  let stored ← (intRange 0 p.numV ×ˢ intRange 0 p.numU).foldlM (storeWarpPoint g rect p) (data, 0)
  return stored.1

namespace GeoCodingGrids

variable (g : GeoCodingGrids T)

/-- The rectangle is a part of the grid, and not empty. -/
structure Covers (rect : Rectangle) : Prop where
  width_pos : 0 < rect.width
  height_pos : 0 < rect.height
  x_nonneg : 0 ≤ rect.x
  y_nonneg : 0 ≤ rect.y
  right_le : rect.x + rect.width ≤ g.latGrid.x.size
  bottom_le : rect.y + rect.height ≤ g.latGrid.y.size

/-- What is collected of the tie point in column `i` and row `j`. -/
def warpPoint (i j : Int) : List T :=
  [g.latGrid.node i j, g.lonGrid.node i j,
    g.latGrid.x.offset + (i : T) * g.latGrid.x.subSampling,
    g.latGrid.y.offset + (j : T) * g.latGrid.y.subSampling]

/-- The tie point in column `u` and row `v` of a selection. -/
def selectedPoint (rect : Rectangle) (p : WarpParameters) (v u : Int) : List T :=
  g.warpPoint (min (rect.x + u * p.stepI) (rect.x + rect.width - 1))
    (min (rect.y + v * p.stepJ) (rect.y + rect.height - 1))

end GeoCodingGrids

/-- The warp points of a rectangle are determined and collected completely. -/
def WarpPointsComplete (g : GeoCodingGrids T) (rect : Rectangle) : Prop :=
  ∃ p data, DeterminesWarpParameters rect.width rect.height p ∧
    p.numU * p.numV ≤ maxNumPointsPerTile ∧
    p.numU = ⌈(rect.width : ℚ) / p.stepI⌉ ∧ p.numV = ⌈(rect.height : ℚ) / p.stepJ⌉ ∧
    createWarpPoints g rect p = .ok data ∧ (data.length : Int) = p.numU * p.numV ∧
    ∀ u v : Nat, (u : Int) < p.numU → (v : Int) < p.numV →
      data[v * p.numU.toNat + u]? = some (g.selectedPoint rect p v u)

/-! ### The container -/

variable {g : GeoCodingGrids T} {rect : Rectangle} {p : WarpParameters}

/-- Four vectors of the same length. -/
structure FourRows (m : Nat) (data : List (List T)) : Prop where
  length_eq : data.length = 4
  row_length : ∀ row ∈ data, row.length = m

omit [Field T] [LinearOrder T] in
theorem setAt_eq_ok {data data' : List (List T)} {k column : Int} {value : T} :
    setAt data k column value = .ok data' ↔ ∃ row, vectorAt data k = .ok row ∧
      (0 ≤ column ∧ column < row.length) ∧
      data' = data.set k.toNat (row.set column.toNat value) := by
  unfold setAt
  rw [Outcome.bind_eq_ok]
  refine exists_congr fun row => and_congr_right fun _ => ?_
  split
  · simp [*, eq_comm]
  · simp [*]

omit [Field T] [LinearOrder T] in
/-- A place that can be set is one of the first four vectors, within their length. -/
theorem FourRows.of_setAt {m : Nat} {data data' : List (List T)} {k column : Int} {value : T}
    (hdata : FourRows m data) (h : setAt data k column value = .ok data') :
    FourRows m data' ∧ k < 4 ∧ column < m := by
  obtain ⟨row, hrow, hcolumn, rfl⟩ := setAt_eq_ok.mp h
  obtain ⟨hk, hget⟩ := vectorAt_eq_ok.mp hrow
  have hlt := (List.getElem?_eq_some_iff.mp hget).1
  have hlength := hdata.row_length row (List.mem_of_getElem? hget)
  rw [hdata.length_eq] at hlt
  refine ⟨⟨by rw [List.length_set, hdata.length_eq], ?_⟩, by omega, by omega⟩
  intro row' hrow'
  cases List.mem_or_eq_of_mem_set hrow' with
  | inl hmem => exact hdata.row_length row' hmem
  | inr heq => rw [heq, List.length_set, hlength]

/-- A pass needs a vector of its own, with room for four values. -/
theorem FourRows.of_pass {m : Nat} {s s' : List (List T) × Int} {vu : Int × Int}
    (hs : FourRows m s.1) (h : storeWarpPoint g rect p s vu = .ok s') :
    FourRows m s'.1 ∧ s'.2 = s.2 + 1 ∧ s.2 < 4 ∧ 4 ≤ m := by
  -- the position and what is read there
  iterate 8 refine Outcome.of_bind_eq_ok h fun _ _ h => ?_
  refine Outcome.of_bind_eq_ok h fun data₀ h0 h => ?_
  refine Outcome.of_bind_eq_ok h fun data₁ h1 h => ?_
  refine Outcome.of_bind_eq_ok h fun data₂ h2 h => ?_
  refine Outcome.of_bind_eq_ok h fun data₃ h3 h => ?_
  refine Outcome.of_bind_eq_ok h fun k hk h => ?_
  have hrows₀ := (hs.of_setAt h0).1
  have hrows₁ := (hrows₀.of_setAt h1).1
  have hrows₂ := (hrows₁.of_setAt h2).1
  obtain ⟨hrows₃, hlt, hcolumn⟩ := hrows₂.of_setAt h3
  obtain ⟨-, rfl⟩ := int32_eq_ok.mp hk
  cases h
  exact ⟨hrows₃, rfl, hlt, by omega⟩

/-- The loops need as many vectors as there are points. -/
theorem FourRows.of_passes {m : Nat} {l : List (Int × Int)}
    {s s' : List (List T) × Int} (hs : FourRows m s.1)
    (h : l.foldlM (storeWarpPoint g rect p) s = .ok s') :
    FourRows m s'.1 ∧ (l = [] ∨ (s.2 + l.length ≤ 4 ∧ 4 ≤ m)) := by
  induction l generalizing s with
  | nil =>
    cases h
    exact ⟨hs, .inl rfl⟩
  | cons vu l ih =>
    rw [List.foldlM_cons] at h
    refine Outcome.of_bind_eq_ok h fun s₁ hfirst hrest => ?_
    obtain ⟨hs₁, hk, hlt, hm⟩ := hs.of_pass hfirst
    obtain ⟨hs', hcases⟩ := ih hs₁ hrest
    refine ⟨hs', .inr ?_⟩
    rw [List.length_cons]
    cases hcases with
    | inl hnil =>
      rw [hnil]
      exact ⟨by simp; omega, hm⟩
    | inr hle => exact ⟨by push_cast; omega, hm⟩

omit [LinearOrder T] in
theorem fourRows_zero (m : Nat) :
    FourRows m (List.replicate 4 (List.replicate m (0 : T))) where
  length_eq := List.length_replicate
  row_length row hrow := by rw [List.eq_of_mem_replicate hrow, List.length_replicate]

/-- Points are returned only when there are four of them. -/
theorem four_of_createWarpPoints {data : List (List T)} (hU : 0 < p.numU) (hV : 0 < p.numV)
    (h : createWarpPoints g rect p = .ok data) : p.numU * p.numV = 4 := by
  refine Outcome.of_bind_eq_ok h fun m hm h => ?_
  obtain ⟨-, rfl⟩ := int32_eq_ok.mp hm
  refine Outcome.of_bind_eq_ok h fun stored hstored _ => ?_
  obtain ⟨-, hcases⟩ := (fourRows_zero _).of_passes hstored
  have hlength : ((intRange 0 p.numV ×ˢ intRange 0 p.numU).length : Int) = p.numU * p.numV := by
    rw [List.length_product, length_intRange, length_intRange, Nat.mul_comm]
    push_cast
    rw [Int.toNat_of_nonneg (by omega), Int.toNat_of_nonneg (by omega)]
    ring
  have hpos : 0 < p.numU * p.numV := Int.mul_pos hU hV
  cases hcases with
  | inl hnil =>
    rw [hnil, List.length_nil] at hlength
    omega
  | inr hle =>
    dsimp only at hle
    omega

/-- Up to the number of points that a rectangle may have, no step is taken. -/
theorem DeterminesWarpParameters.four {sw sh : Int} (hsw : 0 < sw) (hsh : 0 < sh)
    (h : DeterminesWarpParameters sw sh p) (hfour : p.numU * p.numV = 4) : sw * sh = 4 := by
  have hstepped := (h.stepped hsw hsh).1
  cases hstepped.large with
  | inl hone =>
    have hU := hstepped.ceilU
    have hV := hstepped.ceilV
    rw [hone.1] at hU
    rw [hone.2] at hV
    rw [← hU.eq_of_one, ← hV.eq_of_one]
    exact hfour
  | inr hlarge =>
    rw [hfour] at hlarge
    exact absurd hlarge (by decide)

/-! ### Four points -/

omit [Field T] [LinearOrder T] in
theorem setAt_row (done rest : List (List T)) (row : List T) (column : Nat) (value : T)
    (hcolumn : column < row.length) :
    setAt (done ++ row :: rest) done.length column value =
      .ok (done ++ row.set column value :: rest) := by
  refine setAt_eq_ok.mpr ⟨row, ?_, ⟨by omega, by omega⟩, ?_⟩
  · rw [vectorAt_eq_ok]
    exact ⟨by omega, by simp⟩
  · simp

theorem adjustBorder_eq (position last : Int) : adjustBorder position last = min position last := by
  unfold adjustBorder
  split <;> omega

theorem GeoCodingGrids.two_mul_size_le (g : GeoCodingGrids T) :
    2 * g.latGrid.x.size ≤ g.latGrid.x.size * g.latGrid.y.size ∧
      2 * g.latGrid.y.size ≤ g.latGrid.x.size * g.latGrid.y.size := by
  have hx := g.latGrid.x.two_le_size
  have hy := g.latGrid.y.two_le_size
  constructor
  · rw [Int.mul_comm]
    exact Int.mul_le_mul_of_nonneg_left hy (by omega)
  · exact Int.mul_le_mul_of_nonneg_right hx (by omega)

/-- The sizes of a grid are far below the largest `int`. -/
theorem GeoCodingGrids.sizes_lt (g : GeoCodingGrids T) :
    g.latGrid.x.size < 1073741824 ∧ g.latGrid.y.size < 1073741824 := by
  have hsize := g.size_lt
  have htwice := g.two_mul_size_le
  omega

/-- The values of both grids are read at the index of a column and a row. -/
theorem GeoCodingGrids.vectorAt_index (g : GeoCodingGrids T) {i j : Int}
    (hcolumn : 0 ≤ i ∧ i < g.latGrid.x.size) (hrow : 0 ≤ j ∧ j < g.latGrid.y.size) :
    (Fits 32 (j * g.latGrid.x.size) ∧ Fits 32 (j * g.latGrid.x.size + i)) ∧
      vectorAt g.latGrid.tiePoints (j * g.latGrid.x.size + i) = .ok (g.latGrid.node i j) ∧
      vectorAt g.lonGrid.tiePoints (j * g.latGrid.x.size + i) = .ok (g.lonGrid.node i j) := by
  have hsize := g.size_lt
  have hnonneg : 0 ≤ j * g.latGrid.x.size := Int.mul_nonneg hrow.1 (by omega)
  have hend : (j + 1) * g.latGrid.x.size ≤ g.latGrid.y.size * g.latGrid.x.size :=
    Int.mul_le_mul_of_nonneg_right (by omega) (by omega)
  rw [Int.add_mul, Int.one_mul, Int.mul_comm g.latGrid.y.size] at hend
  have hlat := g.latGrid.vectorAt_tiePoints hcolumn.1 hcolumn.2 hrow.1 hrow.2
  have hlon := g.lonGrid.vectorAt_tiePoints hcolumn.1 (by rw [g.same_width]; exact hcolumn.2)
    hrow.1 (by rw [g.same_height]; exact hrow.2)
  rw [g.same_width] at hlon
  rw [fits32_iff, fits32_iff]
  refine ⟨⟨by omega, by omega⟩, ?_⟩
  rw [Int.add_comm (j * _) i]
  exact ⟨hlat, hlon⟩

omit [Field T] [LinearOrder T] in
/-- The four values of a point are written to its vector. -/
theorem setAt_point {α : Type} (done rest : List (List T)) (a b c d lat lon x y : T)
    (next : List (List T) → Outcome α) :
    (setAt (done ++ [a, b, c, d] :: rest) done.length 0 lat >>= fun data =>
      setAt data done.length 1 lon >>= fun data =>
      setAt data done.length 2 x >>= fun data =>
      setAt data done.length 3 y >>= next) = next (done ++ [lat, lon, x, y] :: rest) := by
  have h0 := setAt_row done rest [a, b, c, d] 0 lat (by simp)
  have h1 := setAt_row done rest [lat, b, c, d] 1 lon (by simp)
  have h2 := setAt_row done rest [lat, lon, c, d] 2 x (by simp)
  have h3 := setAt_row done rest [lat, lon, x, d] 3 y (by simp)
  simp only [Nat.cast_zero, Nat.cast_one, Nat.cast_ofNat, List.set_cons_zero,
    List.set_cons_succ] at h0 h1 h2 h3
  rw [h0, Outcome.ok_bind, h1, Outcome.ok_bind, h2, Outcome.ok_bind, h3, Outcome.ok_bind]

/-- A pass that has a vector for its point fills it. -/
theorem storeWarpPoint_eq {u v : Int} {done rest : List (List T)} {a b c d : T}
    (hcovers : g.Covers rect) (hi : 0 ≤ u * p.stepI) (hj : 0 ≤ v * p.stepJ)
    (hiw : u * p.stepI < rect.width) (hjh : v * p.stepJ < rect.height)
    (hdone : done.length < 4) :
    storeWarpPoint g rect p (done ++ [a, b, c, d] :: rest, (done.length : Int)) (v, u) =
      .ok (done ++ g.selectedPoint rect p v u :: rest, (done.length : Int) + 1) := by
  obtain ⟨hwidth, hheight, hx, hy, hright, hbottom⟩ := hcovers
  have hsizes := g.sizes_lt
  -- no position lies beyond the border
  have hminI : min (rect.x + u * p.stepI) (rect.x + rect.width - 1) = rect.x + u * p.stepI := by
    omega
  have hminJ : min (rect.y + v * p.stepJ) (rect.y + rect.height - 1) = rect.y + v * p.stepJ := by
    omega
  have hselected : g.selectedPoint rect p v u =
      g.warpPoint (rect.x + u * p.stepI) (rect.y + v * p.stepJ) := by
    rw [GeoCodingGrids.selectedPoint, hminI, hminJ]
  rw [hselected]
  have hoffsetI : Fits 32 (u * p.stepI) := by
    rw [fits32_iff]
    omega
  have hoffsetJ : Fits 32 (v * p.stepJ) := by
    rw [fits32_iff]
    omega
  have hposI : Fits 32 (rect.x + u * p.stepI) := by
    rw [fits32_iff]
    omega
  have hposJ : Fits 32 (rect.y + v * p.stepJ) := by
    rw [fits32_iff]
    omega
  have hkFits : Fits 32 ((done.length : Int) + 1) := by
    rw [fits32_iff]
    omega
  have ⟨hindex, hlat, hlon⟩ := g.vectorAt_index
    (show 0 ≤ rect.x + u * p.stepI ∧ rect.x + u * p.stepI < g.latGrid.x.size by omega)
    (show 0 ≤ rect.y + v * p.stepJ ∧ rect.y + v * p.stepJ < g.latGrid.y.size by omega)
  unfold storeWarpPoint
  dsimp only
  rw [int32_of_fits hoffsetJ, Outcome.ok_bind, int32_of_fits hposJ, Outcome.ok_bind,
    int32_of_fits hoffsetI, Outcome.ok_bind, int32_of_fits hposI, Outcome.ok_bind,
    adjustBorder_eq, adjustBorder_eq, hminI, hminJ, int32_of_fits hindex.1, Outcome.ok_bind,
    int32_of_fits hindex.2, Outcome.ok_bind, hlat, Outcome.ok_bind, hlon, Outcome.ok_bind,
    setAt_point, int32_of_fits hkFits]
  rfl

/-- The loops fill the vectors in order, as long as there are some. -/
theorem foldlM_storeWarpPoint {l : List (Int × Int)} (done : List (List T))
    {rest : List (List T)} (hcovers : g.Covers rect)
    (hl : ∀ vu ∈ l, (0 ≤ vu.2 * p.stepI ∧ vu.2 * p.stepI < rect.width) ∧
      0 ≤ vu.1 * p.stepJ ∧ vu.1 * p.stepJ < rect.height)
    (hrest : rest = List.replicate l.length [0, 0, 0, 0]) (hlength : done.length + l.length ≤ 4) :
    l.foldlM (storeWarpPoint g rect p) (done ++ rest, (done.length : Int)) =
      .ok (done ++ l.map fun vu => g.selectedPoint rect p vu.1 vu.2,
        (done.length : Int) + l.length) := by
  induction l generalizing done rest with
  | nil =>
    rw [hrest]
    simp
  | cons vu l ih =>
    obtain ⟨v, u⟩ := vu
    have hvu := hl (v, u) List.mem_cons_self
    rw [List.length_cons] at hlength hrest
    rw [List.replicate_succ] at hrest
    rw [hrest, List.foldlM_cons, storeWarpPoint_eq hcovers hvu.1.1 hvu.2.1 hvu.1.2 hvu.2.2
      (by omega), Outcome.ok_bind]
    have hrun := ih (done ++ [g.selectedPoint rect p v u])
      (fun vu hvu => hl vu (List.mem_cons_of_mem _ hvu)) rfl
      (by rw [List.length_append, List.length_singleton]; omega)
    rw [List.length_append, List.length_singleton, List.append_assoc, List.singleton_append,
      List.append_assoc, List.singleton_append, Nat.cast_add, Nat.cast_one] at hrun
    rw [hrun, List.map_cons, List.length_cons]
    congr 2
    push_cast
    ring

/-- The selection in column `u` and row `v`, in the order of the loops. -/
theorem getElem?_rows (columns rows : Nat) {u v : Nat} (hu : u < columns) (hv : v < rows) :
    (intRange 0 rows ×ˢ intRange 0 columns)[v * columns + u]? = some ((v : Int), (u : Int)) := by
  have hrow : (intRange 0 rows)[v]? = some (v : Int) := by
    rw [getElem?_intRange (by omega), Int.zero_add]
  have hcolumn : (intRange 0 columns)[u]? = some (u : Int) := by
    rw [getElem?_intRange (by omega), Int.zero_add]
  show ((intRange 0 rows).flatMap fun b => (intRange 0 columns).map (Prod.mk b))[_]? = _
  rw [getElem?_flatMap_block (fun b _ => by simp [length_intRange]) hu, hrow, Option.bind_some,
    List.getElem?_map, hcolumn, Option.map_some]

/-- Four points are collected, each in its place. -/
theorem createWarpPoints_four (hcovers : g.Covers rect) (hU : p.numU = rect.width)
    (hV : p.numV = rect.height) (hI : p.stepI = 1) (hJ : p.stepJ = 1)
    (hfour : p.numU * p.numV = 4) : ∃ data, createWarpPoints g rect p = .ok data ∧
      data.length = 4 ∧ ∀ u v : Nat, (u : Int) < p.numU → (v : Int) < p.numV →
        data[v * p.numU.toNat + u]? = some (g.selectedPoint rect p v u) := by
  have hUpos := hcovers.width_pos
  have hVpos := hcovers.height_pos
  have hlength : (intRange 0 p.numV ×ˢ intRange 0 p.numU).length = 4 := by
    have hcast : (((intRange 0 p.numV ×ˢ intRange 0 p.numU).length : Nat) : Int) = 4 := by
      rw [List.length_product, length_intRange, length_intRange]
      push_cast
      rw [Int.sub_zero, Int.sub_zero, Int.toNat_of_nonneg (by omega),
        Int.toNat_of_nonneg (by omega), Int.mul_comm, hfour]
    exact_mod_cast hcast
  -- with steps of one every point is a pixel of the rectangle
  have hmem : ∀ vu ∈ intRange 0 p.numV ×ˢ intRange 0 p.numU,
      (0 ≤ vu.2 * p.stepI ∧ vu.2 * p.stepI < rect.width) ∧
        0 ≤ vu.1 * p.stepJ ∧ vu.1 * p.stepJ < rect.height := by
    intro vu hvu
    have hboth := List.mem_product.mp hvu
    rw [mem_intRange, mem_intRange] at hboth
    rw [hI, hJ, Int.mul_one, Int.mul_one]
    omega
  have hrun := foldlM_storeWarpPoint (g := g) [] hcovers hmem rfl
    (by rw [hlength, List.length_nil])
  rw [List.nil_append, List.nil_append, hlength] at hrun
  refine ⟨(intRange 0 p.numV ×ˢ intRange 0 p.numU).map fun vu => g.selectedPoint rect p vu.1 vu.2,
    ?_, by rw [List.length_map, hlength], ?_⟩
  · unfold createWarpPoints
    rw [hfour, int32_of_fits (by decide), Outcome.ok_bind]
    exact Outcome.bind_eq_ok.mpr ⟨_, hrun, rfl⟩
  · intro u v hu hv
    have hcolumns : ((p.numU.toNat : Nat) : Int) = p.numU := Int.toNat_of_nonneg (by omega)
    have hrows : ((p.numV.toNat : Nat) : Int) = p.numV := Int.toNat_of_nonneg (by omega)
    have hget := getElem?_rows p.numU.toNat p.numV.toNat (u := u) (v := v) (by omega) (by omega)
    rw [hcolumns, hrows] at hget
    rw [List.getElem?_map, hget, Option.map_some]

/-- The warp points of a rectangle are complete exactly when it has four tie points. -/
theorem warpPointsComplete_iff_four (hcovers : g.Covers rect) :
    WarpPointsComplete g rect ↔ rect.width * rect.height = 4 := by
  have hwidth := hcovers.width_pos
  have hheight := hcovers.height_pos
  constructor
  · rintro ⟨p, data, hdetermines, -, -, -, hcreate, -, -⟩
    have hstepped := (hdetermines.stepped hwidth hheight).1
    exact hdetermines.four hwidth hheight (four_of_createWarpPoints
      (hstepped.ceilU.pos hwidth hstepped.one_le_stepI)
      (hstepped.ceilV.pos hheight hstepped.one_le_stepJ) hcreate)
  · intro hfour
    have hdone : warpPass rect.width rect.height (warpStart rect.width rect.height) =
        .ok (.done ⟨rect.width, rect.height, 1, 1⟩) := by
      simp only [warpPass, warpStart, hfour, int32_of_fits (show Fits 32 4 by decide),
        Outcome.ok_bind]
      rfl
    obtain ⟨data, hcreate, hlength, hpoints⟩ :=
      createWarpPoints_four (p := ⟨rect.width, rect.height, 1, 1⟩) hcovers rfl rfl rfl rfl hfour
    refine ⟨_, data, (endsWith_done hdone).mpr rfl, ?_, ?_, ?_, hcreate, ?_, hpoints⟩
    · show rect.width * rect.height ≤ maxNumPointsPerTile
      rw [hfour]
      decide
    · exact (isCeilDiv_iff Int.one_pos).mp (isCeilDiv_one rect.width)
    · exact (isCeilDiv_iff Int.one_pos).mp (isCeilDiv_one rect.height)
    · rw [hlength]
      exact hfour.symm

end Points

/-! ## The rectangles -/

/-- `SubdivideRectangle` along one axis: the part with index `k`, with its border. -/
def tileSpan (size : Int) (extent : ℚ) (extraBorder k : Int) : Outcome (Int × Int) := do
  let first ← int32 ⌊Binary32.round (Binary32.ofInt k * extent)⌋
  let next ← int32 ⌊Binary32.round (Binary32.ofInt (k + 1) * extent)⌋
  let last := next - 1
  let last := if last < first then first else last
  let first := first - extraBorder
  let last := last + extraBorder
  let first := if first < 0 then 0 else first
  let last := if last > size - 1 then size - 1 else last
  return (first, last)

/-- `SubdivideRectangle`. The part of a row does not depend on the column. -/
def subdivideRectangle (width height numTilesX numTilesY extraBorder : Int) :
    Outcome (List Rectangle) := do
  let _ ← int32 (numTilesX * numTilesY)
  let w := Binary32.round (Binary32.ofInt width / Binary32.ofInt numTilesX)
  let h := Binary32.round (Binary32.ofInt height / Binary32.ofInt numTilesY)
  let rows ← Outcome.collect ((intRange 0 numTilesY).map (tileSpan height h extraBorder))
  let columns ← Outcome.collect ((intRange 0 numTilesX).map (tileSpan width w extraBorder))
  return rows.flatMap fun y => columns.map fun x =>
    ⟨x.1, y.1, x.2 - x.1 + 1, y.2 - y.1 + 1⟩

/-- `custom::Dimension`, as `FitDimension` returns it for a positive number of tiles. -/
structure Dimension where
  width : Int
  height : Int
  width_pos : 0 < width
  height_pos : 0 < height

/-- The tiles of `InitApproximations`: how many along each axis. -/
structure TileCounts where
  numTiles : Int
  numTilesI : Int
  numTilesJ : Int

/-- The loop over the number of tiles, from `numTiles` down. -/
def tileCounts (fitDimension : Nat → Outcome Dimension) (numPoints : Int) :
    Nat → Outcome TileCounts
  | 0 => .ok ⟨0, 1, 1⟩
  | 1 => .ok ⟨1, 1, 1⟩
  | n + 2 => do
    let tileDim ← fitDimension (n + 2)
    let newNumTiles ← int32 (tileDim.width * tileDim.height)
    if numPoints.tdiv newNumTiles ≥ 10 then
      return ⟨newNumTiles, tileDim.width, tileDim.height⟩
    else tileCounts fitDimension numPoints (n + 1)

/-- `InitApproximations`, up to the rectangles that it passes on. -/
def initRectangles {T : Type} [Field T] [LinearOrder T] (g : GeoCodingGrids T)
    (fitDimension : Nat → Outcome Dimension) : Outcome (List Rectangle) := do
  let numPoints ← int32 g.latGrid.tiePoints.length
  let numTiles := min (max 1 ⌈(numPoints : ℚ) / 10⌉) 300
  let counts ← tileCounts fitDimension numPoints numTiles.toNat
  subdivideRectangle g.latGrid.x.size g.latGrid.y.size counts.numTilesI counts.numTilesJ 1

section Rectangles

variable {T : Type} [Field T] [LinearOrder T]

/-- The warp points of a grid are collected completely: those of every rectangle that is passed
on, and the rectangles lie in the grid and contain every tie point. -/
def WarpPointsCollected (g : GeoCodingGrids T) (fitDimension : Nat → Outcome Dimension) : Prop :=
  ∃ rectangles, initRectangles g fitDimension = .ok rectangles ∧
    (∀ rect ∈ rectangles, 0 < rect.width → 0 < rect.height → WarpPointsComplete g rect) ∧
    (∀ rect ∈ rectangles, (0 ≤ rect.x ∧ rect.x + rect.width ≤ g.latGrid.x.size) ∧
      0 ≤ rect.y ∧ rect.y + rect.height ≤ g.latGrid.y.size) ∧
    ∀ i j : Int, 0 ≤ i → i < g.latGrid.x.size → 0 ≤ j → j < g.latGrid.y.size →
      ∃ rect ∈ rectangles, (rect.x ≤ i ∧ i < rect.x + rect.width) ∧
        rect.y ≤ j ∧ j < rect.y + rect.height

theorem length_of_collect {α : Type} {xs : List (Outcome α)} {as : List α}
    (h : Outcome.collect xs = .ok as) : as.length = xs.length := by
  rw [Outcome.collect_eq_ok.mp h, List.length_map]

theorem length_subdivideRectangle {width height numTilesX numTilesY extraBorder : Int}
    {rectangles : List Rectangle}
    (h : subdivideRectangle width height numTilesX numTilesY extraBorder = .ok rectangles) :
    rectangles.length = numTilesY.toNat * numTilesX.toNat := by
  refine Outcome.of_bind_eq_ok h fun _ _ h => ?_
  refine Outcome.of_bind_eq_ok h fun rows hrows h => ?_
  refine Outcome.of_bind_eq_ok h fun columns hcolumns h => ?_
  have hrowsLength := length_of_collect hrows
  have hcolumnsLength := length_of_collect hcolumns
  rw [List.length_map, length_intRange, Int.sub_zero] at hrowsLength hcolumnsLength
  cases h
  rw [List.length_flatMap]
  simp [hrowsLength, hcolumnsLength]

/-- There is one tile, or there are ten tie points for each. -/
theorem tileCounts_spec {fitDimension : Nat → Outcome Dimension} {numPoints : Int} {n : Nat}
    {counts : TileCounts} (hpoints : 0 ≤ numPoints)
    (h : tileCounts fitDimension numPoints n = .ok counts) :
    (0 < counts.numTilesI ∧ 0 < counts.numTilesJ) ∧
      (counts.numTilesI * counts.numTilesJ = 1 ∨
        10 * (counts.numTilesI * counts.numTilesJ) ≤ numPoints) := by
  induction n with
  | zero =>
    cases h
    exact ⟨⟨Int.one_pos, Int.one_pos⟩, .inl rfl⟩
  | succ n ih =>
    cases n with
    | zero =>
      cases h
      exact ⟨⟨Int.one_pos, Int.one_pos⟩, .inl rfl⟩
    | succ n =>
      refine Outcome.of_bind_eq_ok h fun tileDim _ h => ?_
      refine Outcome.of_bind_eq_ok h fun newNumTiles hnew h => ?_
      obtain ⟨-, rfl⟩ := int32_eq_ok.mp hnew
      split at h
      · rename_i hten
        cases h
        have hpos : 0 < tileDim.width * tileDim.height :=
          Int.mul_pos tileDim.width_pos tileDim.height_pos
        refine ⟨⟨tileDim.width_pos, tileDim.height_pos⟩, .inr ?_⟩
        rw [Int.tdiv_eq_ediv_of_nonneg hpoints] at hten
        exact (Int.le_ediv_iff_mul_le hpos).mp hten
      · exact ih h

/-- The tie points of a rectangle. -/
def Rectangle.points (rect : Rectangle) : Finset (Int × Int) :=
  (intRange rect.x (rect.x + rect.width)).toFinset ×ˢ
    (intRange rect.y (rect.y + rect.height)).toFinset

theorem Rectangle.card_points (rect : Rectangle) :
    rect.points.card = rect.width.toNat * rect.height.toNat := by
  unfold Rectangle.points
  rw [Finset.card_product, List.toFinset_card_of_nodup (nodup_intRange _ _),
    List.toFinset_card_of_nodup (nodup_intRange _ _), length_intRange, length_intRange,
    add_sub_cancel_left, add_sub_cancel_left]

theorem Rectangle.card_points_le {rect : Rectangle}
    (h : 0 < rect.width → 0 < rect.height → rect.width * rect.height = 4) :
    rect.points.card ≤ 4 := by
  rw [rect.card_points]
  by_cases hboth : 0 < rect.width ∧ 0 < rect.height
  · have hfour := h hboth.1 hboth.2
    have hcast : ((rect.width.toNat * rect.height.toNat : Nat) : Int) = 4 := by
      push_cast
      rw [Int.toNat_of_nonneg (by omega), Int.toNat_of_nonneg (by omega), hfour]
    omega
  · have hzero : rect.width.toNat = 0 ∨ rect.height.toNat = 0 := by omega
    cases hzero with
    | inl hw => rw [hw, Nat.zero_mul]; omega
    | inr hh => rw [hh, Nat.mul_zero]; omega

/-- Rectangles of four points that contain the grid are a quarter as many as its tie points. -/
theorem size_le_of_contains {width height : Int} {rectangles : List Rectangle}
    (hwidth : 0 ≤ width) (hheight : 0 ≤ height)
    (hfour : ∀ rect ∈ rectangles, 0 < rect.width → 0 < rect.height →
      rect.width * rect.height = 4)
    (hcontains : ∀ i j : Int, 0 ≤ i → i < width → 0 ≤ j → j < height →
      ∃ rect ∈ rectangles, (rect.x ≤ i ∧ i < rect.x + rect.width) ∧
        rect.y ≤ j ∧ j < rect.y + rect.height) :
    width * height ≤ 4 * rectangles.length := by
  have hsub : (⟨0, 0, width, height⟩ : Rectangle).points ⊆
      rectangles.toFinset.biUnion Rectangle.points := by
    intro ⟨i, j⟩ hij
    simp only [Rectangle.points, Finset.mem_product, List.mem_toFinset, mem_intRange,
      Int.zero_add] at hij
    obtain ⟨rect, hrect, hi, hj⟩ := hcontains i j hij.1.1 hij.1.2 hij.2.1 hij.2.2
    rw [Finset.mem_biUnion]
    refine ⟨rect, List.mem_toFinset.mpr hrect, ?_⟩
    simp only [Rectangle.points, Finset.mem_product, List.mem_toFinset, mem_intRange]
    exact ⟨hi, hj⟩
  have hcard := (Finset.card_le_card hsub).trans
    (Finset.card_biUnion_le_card_mul _ _ 4 fun rect hrect =>
      Rectangle.card_points_le (hfour rect (List.mem_toFinset.mp hrect)))
  have hlength := List.toFinset_card_le rectangles
  rw [Rectangle.card_points] at hcard
  dsimp only at hcard
  have hcast : ((width.toNat * height.toNat : Nat) : Int) = width * height := by
    push_cast
    rw [Int.toNat_of_nonneg hwidth, Int.toNat_of_nonneg hheight]
  omega

/-- The one tile of a grid of two rows and two columns. -/
theorem subdivideRectangle_two : subdivideRectangle 2 2 1 1 1 = .ok [⟨0, 0, 2, 2⟩] := by
  have h0 : Binary32.ofInt 0 = 0 := Binary32.ofInt_eq (le_refl 0) (by norm_num)
  have h1 : Binary32.ofInt 1 = 1 := Binary32.ofInt_eq (by norm_num) (by norm_num)
  have h2 : Binary32.ofInt 2 = 2 := Binary32.ofInt_eq (by norm_num) (by norm_num)
  have hround0 : Binary32.round 0 = 0 := h0
  have hround2 : Binary32.round 2 = 2 := h2
  have hspan : tileSpan 2 2 1 0 = .ok (0, 1) := by
    unfold tileSpan
    rw [h0, Int.zero_add, h1, zero_mul, one_mul, hround0, hround2]
    rfl
  unfold subdivideRectangle
  rw [h1, h2, div_one, hround2, show intRange 0 1 = [0] from rfl]
  simp only [List.map_cons, List.map_nil, hspan]
  rfl

/-- The number of tie points, and the rectangles of a grid with four of them. -/
theorem initRectangles_four {g : GeoCodingGrids T} (fitDimension : Nat → Outcome Dimension)
    (h : g.latGrid.x.size * g.latGrid.y.size = 4) :
    initRectangles g fitDimension = .ok [⟨0, 0, 2, 2⟩] ∧ g.latGrid.x.size = 2 ∧
      g.latGrid.y.size = 2 := by
  have hx := g.latGrid.x.two_le_size
  have hy := g.latGrid.y.two_le_size
  have htwice := g.two_mul_size_le
  have hx2 : g.latGrid.x.size = 2 := by omega
  have hy2 : g.latGrid.y.size = 2 := by omega
  refine ⟨?_, hx2, hy2⟩
  have hlength : (g.latGrid.tiePoints.length : Int) = 4 := by rw [g.latGrid.length_tiePoints, h]
  have hceil : ⌈((4 : Int) : ℚ) / 10⌉ = 1 := by
    rw [Int.ceil_eq_iff]
    norm_num
  unfold initRectangles
  rw [hlength, int32_of_fits (by decide), Outcome.ok_bind, hceil, hx2, hy2]
  exact subdivideRectangle_two

/-- The warp points of a grid are collected completely exactly when it has four tie points. -/
theorem warpPointsCollected_iff_four (g : GeoCodingGrids T)
    (fitDimension : Nat → Outcome Dimension) :
    WarpPointsCollected g fitDimension ↔ g.latGrid.x.size * g.latGrid.y.size = 4 := by
  have hx := g.latGrid.x.two_le_size
  have hy := g.latGrid.y.two_le_size
  constructor
  · rintro ⟨rectangles, hrectangles, hcomplete, hinside, hcontains⟩
    -- a rectangle with pixels is complete only with four of them
    have hfour : ∀ rect ∈ rectangles, 0 < rect.width → 0 < rect.height →
        rect.width * rect.height = 4 := by
      intro rect hrect hwidth hheight
      obtain ⟨⟨hx0, hxw⟩, hy0, hyh⟩ := hinside rect hrect
      exact (warpPointsComplete_iff_four ⟨hwidth, hheight, hx0, hy0, hxw, hyh⟩).mp
        (hcomplete rect hrect hwidth hheight)
    have hle := size_le_of_contains (by omega) (by omega) hfour hcontains
    refine Outcome.of_bind_eq_ok hrectangles fun numPoints hpoints h => ?_
    obtain ⟨-, rfl⟩ := int32_eq_ok.mp hpoints
    refine Outcome.of_bind_eq_ok h fun counts hcounts h => ?_
    -- there are at most as many rectangles as the counts of tiles allow
    obtain ⟨⟨hI, hJ⟩, hcases⟩ := tileCounts_spec (Int.natCast_nonneg _) hcounts
    have hlength : (rectangles.length : Int) = counts.numTilesI * counts.numTilesJ := by
      rw [length_subdivideRectangle h, Int.mul_comm]
      push_cast
      rw [Int.toNat_of_nonneg hI.le, Int.toNat_of_nonneg hJ.le]
    rw [hlength] at hle
    rw [g.latGrid.length_tiePoints] at hcases
    have htiles : 0 < counts.numTilesI * counts.numTilesJ := Int.mul_pos hI hJ
    have hmin : 2 * 2 ≤ g.latGrid.x.size * g.latGrid.y.size :=
      Int.mul_le_mul hx hy (by omega) (by omega)
    omega
  · intro h
    obtain ⟨hrectangles, hx2, hy2⟩ := initRectangles_four fitDimension h
    refine ⟨_, hrectangles, ?_, ?_, ?_⟩
    · intro rect hrect _ _
      rw [List.mem_singleton] at hrect
      subst hrect
      exact (warpPointsComplete_iff_four ⟨by decide, by decide, by decide, by decide,
        by rw [hx2]; decide, by rw [hy2]; decide⟩).mpr rfl
    · intro rect hrect
      rw [List.mem_singleton] at hrect
      subst hrect
      rw [hx2, hy2]
      decide
    · intro i j hi hi' hj hj'
      refine ⟨_, List.mem_singleton.mpr rfl, ?_⟩
      show (0 ≤ i ∧ i < 0 + 2) ∧ 0 ≤ j ∧ j < 0 + 2
      omega

/-- Complete warp points of a rectangle, and of a whole grid with all its rectangles. -/
theorem warpPoints_complete_iff (g : GeoCodingGrids T) (fitDimension : Nat → Outcome Dimension) :
    (∀ rect : { rect : Rectangle // g.Covers rect },
      WarpPointsComplete g rect.val ↔ rect.val.width * rect.val.height = 4) ∧
    (WarpPointsCollected g fitDimension ↔ g.latGrid.x.size * g.latGrid.y.size = 4) :=
  ⟨fun rect => warpPointsComplete_iff_four rect.property,
    warpPointsCollected_iff_four g fitDimension⟩

end Rectangles

/-- A grid of three columns and two rows. -/
def sixTiePoints : TiePointGrid ℚ where
  name := "latitude"
  x := ⟨3, 0, 1, threePoints_le, wholePixel_pos⟩
  y := ⟨2, 0, 1, twoPoints_le, wholePixel_pos⟩
  sceneRaster := none
  tiePoints := [0, 1, 2, 3, 4, 5]
  length_tiePoints := rfl

def sixPointGrids : GeoCodingGrids ℚ where
  latGrid := sixTiePoints
  lonGrid := sixTiePoints
  same_width := rfl
  same_height := rfl
  size_lt := by decide

/-- Its six warp points do not fit into the four vectors. -/
theorem warpPoints_six : ¬ WarpPointsComplete sixPointGrids ⟨0, 0, 3, 2⟩ ∧
    ¬ WarpPointsCollected sixPointGrids fun _ => .undefined := by
  refine ⟨fun h => ?_, fun h => ?_⟩
  · have hsize := (warpPointsComplete_iff_four ⟨by decide, by decide, by decide, by decide,
      by decide, by decide⟩).mp h
    exact absurd hsize (by decide)
  · exact absurd ((warpPointsCollected_iff_four sixPointGrids _).mp h) (by decide)

end Alus.SnapEngine
