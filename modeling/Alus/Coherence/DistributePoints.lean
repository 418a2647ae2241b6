import Mathlib.Analysis.Real.Sqrt
import Alus.Lib.Loop

/-!
# The fitting points of a burst

`CohCuda::DistributePoints` (`coherence_calc_cuda.cc`) walks along the lines of a virtual band, laid
end to end, by steps of one length, and takes for each point the column it has come to and a line of
the band for the lines that it has passed. The virtual band has as many lines as a square root says,
but at least as many as there are points on one of them.

The arithmetic of `double` is exact, and that of `int` is a parameter.
-/

namespace Alus.Coherence

open Alus.Lib
open Outcome (require)

/-! ## The function -/

/-- A division that divides by no zero. -/
noncomputable def divide (a b : ℝ) : Outcome ℝ := if b = 0 then .undefined else .ok (a / b)

/-- How far the walk has come in its line, and how often it has wrapped. -/
structure Walk where
  pix : ℝ
  lCounter : Int

/-- The variables of the loop over the points. -/
structure Distribution where
  walk : Walk
  resultLines : List Int
  resultPixels : List Int

section Computation

variable (int : Int → Outcome Int)

/-- A pass of the inner loop. -/
noncomputable def wrapPass (bandXSize : Int) (walk : Walk) : Outcome (Pass Walk Walk) :=
  if ⌊walk.pix⌋ ≥ bandXSize then do
    let lCounter ← int (walk.lCounter + 1)
    return .next ⟨walk.pix - bandXSize, lCounter⟩
  else return .done walk

/-- A round of the loop over the points, with at most so many passes of the inner loop. It is `none`
when these were not enough. -/
noncomputable def pointRound (passes : Nat) (deltaPix deltaLin : ℝ)
    (bandXSize bandXMin bandYMin : Int) (state : Option Distribution) :
    Outcome (Option Distribution) :=
  match state with
  | none => return none
  | some s => do
    let stepped : Walk := ⟨s.walk.pix + deltaPix, s.walk.lCounter⟩
    match ← runLoop (wrapPass int bandXSize) passes stepped with
    | none => return none
    | some walk =>
      let lin := walk.lCounter * deltaLin
      let line ← int ⌊lin⌋
      let line ← int (line + bandYMin)
      let pixel ← int ⌊walk.pix⌋
      let pixel ← int (pixel + bandXMin)
      return some ⟨walk, s.resultLines ++ [line], s.resultPixels ++ [pixel]⟩

/-- `DistributePoints`. -/
noncomputable def distributePoints (passes : Nat)
    (numOfPoints bandXSize bandXMin bandYSize bandYMin : Int) :
    Outcome (Option (List Int × List Int)) := do
  -- `reserve` of a negative number
  require (0 ≤ numOfPoints)
  let ratio ← divide bandYSize bandXSize
  let area ← divide numOfPoints ratio
  let winP := √area
  let winL ← divide numOfPoints winP
  let winL := if winL < winP then winP else winL
  let winLInt ← int ⌊winL⌋
  let lastLine ← int (bandYSize - 1)
  let lastWinLine ← int (winLInt - 1)
  let deltaLin ← divide lastLine lastWinLine
  let product ← int (bandXSize * winLInt)
  let totalPix ← int ⌊(product : ℝ)⌋
  let lastPix ← int (totalPix - 1)
  let lastPoint ← int (numOfPoints - 1)
  let deltaPix ← divide lastPix lastPoint
  let start : Distribution := ⟨⟨-deltaPix, 0⟩, [], []⟩
  let state ← (List.range numOfPoints.toNat).foldlM
    (fun state _ => pointRound int passes deltaPix deltaLin bandXSize bandXMin bandYMin state)
    (some start)
  return state.map fun s => (s.resultLines, s.resultPixels)

end Computation

/-! ## What is promised -/

/-- So many points in the band, the lines in order, from the first line and column to the last ones.
-/
structure IsSpread (numOfPoints bandXSize bandXMin bandYSize bandYMin : Int)
    (lines pixels : List Int) : Prop where
  length_lines : (lines.length : Int) = numOfPoints
  length_pixels : (pixels.length : Int) = numOfPoints
  lines_mem : ∀ line ∈ lines, bandYMin ≤ line ∧ line < bandYMin + bandYSize
  pixels_mem : ∀ pixel ∈ pixels, bandXMin ≤ pixel ∧ pixel < bandXMin + bandXSize
  ascending : lines.Pairwise (· ≤ ·)
  first_line : lines.head? = some bandYMin
  first_pixel : pixels.head? = some bandXMin
  last_line : lines.getLast? = some (bandYMin + bandYSize - 1)
  last_pixel : pixels.getLast? = some (bandXMin + bandXSize - 1)

/-- `DistributePoints` divides by no zero, its inner loops end, and its points are spread over the
band. -/
def SpreadsPoints (int : Int → Outcome Int)
    (numOfPoints bandXSize bandXMin bandYSize bandYMin : Int) : Prop :=
  ∃ passes lines pixels,
    distributePoints int passes numOfPoints bandXSize bandXMin bandYSize bandYMin =
      .ok (some (lines, pixels)) ∧
    IsSpread numOfPoints bandXSize bandXMin bandYSize bandYMin lines pixels

/-- The lines of the virtual band. -/
noncomputable def virtualLines (numOfPoints bandXSize bandYSize : Int) : Int :=
  let winP := √((numOfPoints : ℝ) / (bandYSize / bandXSize))
  ⌊if numOfPoints / winP < winP then winP else numOfPoints / winP⌋

/-- The numbers that the computation makes are the exact ones. -/
structure Computes (int : Int → Outcome Int)
    (numOfPoints bandXSize bandXMin bandYSize bandYMin : Int) : Prop where
  sizes : ∀ z, 0 ≤ z → z ≤ bandXSize * virtualLines numOfPoints bandXSize bandYSize ∨
    z ≤ numOfPoints ∨ z ≤ bandYSize → int z = .ok z
  lines : ∀ z, bandYMin ≤ z → z < bandYMin + bandYSize → int z = .ok z
  pixels : ∀ z, bandXMin ≤ z → z < bandXMin + bandXSize → int z = .ok z

/-! ## The virtual band -/

section Lines

variable {n w h : Int} (hn : 4 ≤ n) (hw : 2 ≤ w) (hh : 2 ≤ h)

include hn hw hh

/-- A number or its quotient from the product is at least the root of the product. -/
theorem two_le_virtualLines : 2 ≤ virtualLines n w h := by
  have hn' : (4 : ℝ) ≤ n := by exact_mod_cast hn
  have hw' : (2 : ℝ) ≤ w := by exact_mod_cast hw
  have hh' : (2 : ℝ) ≤ h := by exact_mod_cast hh
  have hwinP : 0 < √((n : ℝ) / (h / w)) := by positivity
  unfold virtualLines
  generalize √((n : ℝ) / (h / w)) = winP at hwinP
  rw [Int.le_floor]
  have hproduct : (n : ℝ) / winP * winP = n := div_mul_cancel₀ _ hwinP.ne'
  have hpos : 0 < (n : ℝ) / winP := by positivity
  show ((2 : Int) : ℝ) ≤ _
  push_cast
  split
  · next hlt => nlinarith
  · next hge =>
    rw [not_lt] at hge
    nlinarith

end Lines

/-! ## The walk -/

section Walk

variable {int : Int → Outcome Int} {w : Int} {x : ℝ}

/-- How many lines of the virtual band lie before a distance from its start. -/
noncomputable def linesBefore (w : Int) (x : ℝ) : Nat := ⌊x / w⌋₊

/-- The walk at a distance from the start. -/
noncomputable def walkAt (w : Int) (x : ℝ) : Walk := ⟨x - linesBefore w x * w, linesBefore w x⟩

theorem linesBefore_le_iff (hw : 2 ≤ w) (hx : 0 ≤ x) (k : Nat) :
    k ≤ linesBefore w x ↔ (k : ℝ) * w ≤ x := by
  have hw' : (2 : ℝ) ≤ w := by exact_mod_cast hw
  rw [linesBefore, Nat.le_floor_iff (by positivity), le_div_iff₀ (by linarith)]

theorem linesBefore_mono (hw : 2 ≤ w) {y : ℝ} (h : x ≤ y) : linesBefore w x ≤ linesBefore w y := by
  have hw' : (2 : ℝ) ≤ w := by exact_mod_cast hw
  exact Nat.floor_mono (by gcongr)

/-- The walk stays in its line. -/
theorem walkAt_pix_mem (hw : 2 ≤ w) (hx : 0 ≤ x) :
    0 ≤ (walkAt w x).pix ∧ (walkAt w x).pix < w := by
  have hlow := (linesBefore_le_iff hw hx (linesBefore w x)).mp (le_refl _)
  have hhigh := mt (linesBefore_le_iff hw hx (linesBefore w x + 1)).mpr (Nat.not_succ_le_self _)
  rw [not_le] at hhigh
  push_cast at hhigh
  unfold walkAt
  constructor
  · linarith
  · show x - linesBefore w x * w < w
    linarith

/-- Before the start the walk has not wrapped. -/
theorem linesBefore_of_nonpos (hw : 2 ≤ w) (hx : x ≤ 0) : linesBefore w x = 0 := by
  have hw' : (2 : ℝ) ≤ w := by exact_mod_cast hw
  exact Nat.floor_of_nonpos (div_nonpos_of_nonpos_of_nonneg hx (by linarith))

/-- The inner loop wraps the walk to the line it has come to. -/
theorem runLoop_wrapPass (hw : 2 ≤ w) (hx : 0 ≤ x) {passed : Nat}
    (hpassed : passed ≤ linesBefore w x)
    (hint : ∀ z : Int, 0 ≤ z → z ≤ linesBefore w x → int z = .ok z) {passes : Nat}
    (hpasses : linesBefore w x < passes) :
    runLoop (wrapPass int w) passes ⟨x - passed * w, passed⟩ = .ok (some (walkAt w x)) := by
  have hnext : ∀ k < linesBefore w x - passed,
      wrapPass int w ⟨x - (passed + k : Nat) * w, (passed + k : Nat)⟩ =
        .ok (.next ⟨x - (passed + (k + 1) : Nat) * w, (passed + (k + 1) : Nat)⟩) := by
    intro k hk
    have hle := (linesBefore_le_iff hw hx (passed + k + 1)).mp (by omega)
    have hfloor : ⌊x - (passed + k : Nat) * (w : ℝ)⌋ ≥ w := by
      rw [ge_iff_le, Int.le_floor]
      push_cast at hle ⊢
      linarith
    have hcount : int ((passed + k : Nat) + 1) = .ok ((passed + k : Nat) + 1) :=
      hint _ (by omega) (by omega)
    rw [wrapPass, if_pos hfloor]
    dsimp only
    rw [hcount, Outcome.ok_bind, Outcome.pure_eq]
    push_cast
    congr 3
    ring
  have hdone : wrapPass int w ⟨x - (passed + (linesBefore w x - passed) : Nat) * w,
      (passed + (linesBefore w x - passed) : Nat)⟩ = .ok (.done (walkAt w x)) := by
    have hlt := (walkAt_pix_mem hw hx).2
    rw [Nat.add_sub_cancel' hpassed, wrapPass, if_neg, Outcome.pure_eq]
    · rfl
    · rw [ge_iff_le, not_le, Int.floor_lt]
      exact hlt
  exact runLoop_of_states
    (fun k => (⟨x - (passed + k : Nat) * w, (passed + k : Nat)⟩ : Walk)) hnext hdone (by omega)

end Walk

/-! ## The points -/

section Points

variable {int : Int → Outcome Int} {w xMin yMin : Int} {deltaPix deltaLin : ℝ}

/-- The line of a point. -/
noncomputable def pointLine (w yMin : Int) (deltaPix deltaLin : ℝ) (i : Nat) : Int :=
  ⌊linesBefore w (i * deltaPix) * deltaLin⌋ + yMin

/-- The column of a point. -/
noncomputable def pointPixel (w xMin : Int) (deltaPix : ℝ) (i : Nat) : Int :=
  ⌊(walkAt w (i * deltaPix)).pix⌋ + xMin

/-- The variables before round `n`: the walk is one step behind. -/
noncomputable def distributionAt (w xMin yMin : Int) (deltaPix deltaLin : ℝ) (n : Nat) :
    Distribution :=
  ⟨walkAt w ((n - 1) * deltaPix), (List.range n).map (pointLine w yMin deltaPix deltaLin),
    (List.range n).map (pointPixel w xMin deltaPix)⟩

/-- A round adds a point. -/
theorem pointRound_eq (hw : 2 ≤ w) (hdelta : 0 ≤ deltaPix) {n passes : Nat}
    (hpasses : linesBefore w (n * deltaPix) < passes)
    (hwraps : ∀ z : Int, 0 ≤ z → z ≤ linesBefore w (n * deltaPix) → int z = .ok z)
    (hline : int ⌊linesBefore w (n * deltaPix) * deltaLin⌋ =
      .ok ⌊linesBefore w (n * deltaPix) * deltaLin⌋)
    (hline' : int (pointLine w yMin deltaPix deltaLin n) =
      .ok (pointLine w yMin deltaPix deltaLin n))
    (hpixel : int ⌊(walkAt w (n * deltaPix)).pix⌋ = .ok ⌊(walkAt w (n * deltaPix)).pix⌋)
    (hpixel' : int (pointPixel w xMin deltaPix n) = .ok (pointPixel w xMin deltaPix n)) :
    pointRound int passes deltaPix deltaLin w xMin yMin
        (some (distributionAt w xMin yMin deltaPix deltaLin n)) =
      .ok (some (distributionAt w xMin yMin deltaPix deltaLin (n + 1))) := by
  have hx : 0 ≤ (n : ℝ) * deltaPix := by positivity
  have hpassed : linesBefore w ((n - 1) * deltaPix) ≤ linesBefore w (n * deltaPix) :=
    linesBefore_mono hw (by linarith)
  have hloop := runLoop_wrapPass hw hx hpassed hwraps hpasses
  have hstart : ((n : ℝ) - 1) * deltaPix - linesBefore w ((n - 1) * deltaPix) * w + deltaPix =
      n * deltaPix - linesBefore w ((n - 1) * deltaPix) * w := by ring
  have hcounter : ((walkAt w (n * deltaPix)).lCounter : ℝ) = linesBefore w (n * deltaPix) :=
    Int.cast_natCast _
  rw [pointRound, distributionAt, walkAt]
  dsimp only
  rw [hstart, hloop, Outcome.ok_bind]
  dsimp only
  rw [hcounter, hline, Outcome.ok_bind]
  unfold pointLine at hline'
  unfold pointPixel at hpixel'
  rw [hline', Outcome.ok_bind, hpixel, Outcome.ok_bind, hpixel', Outcome.ok_bind, Outcome.pure_eq,
    distributionAt, List.range_succ, List.map_append, List.map_append, Nat.cast_succ,
    add_sub_cancel_right]
  rfl

end Points

/-! ## Where the points lie -/

/-- The steps of the walk: the last point comes to the last column of the last virtual line, and
this line is the last one of the band. -/
structure Steps (n w h winL : Int) (deltaPix deltaLin : ℝ) : Prop where
  points : 4 ≤ n
  width : 2 ≤ w
  height : 2 ≤ h
  lines : 2 ≤ winL
  pix : (n - 1) * deltaPix = w * winL - 1
  lin : (winL - 1) * deltaLin = h - 1

namespace Steps

variable {n w h winL xMin yMin : Int} {deltaPix deltaLin : ℝ}
  (hs : Steps n w h winL deltaPix deltaLin) {i : Nat}

include hs

theorem deltaPix_pos : 0 < deltaPix := by
  have hn : (4 : ℝ) ≤ n := by exact_mod_cast hs.points
  have hw : (2 : ℝ) ≤ w := by exact_mod_cast hs.width
  have hl : (2 : ℝ) ≤ winL := by exact_mod_cast hs.lines
  have hproduct : 0 < ((n : ℝ) - 1) * deltaPix := by
    rw [hs.pix]
    nlinarith
  exact pos_of_mul_pos_right hproduct (by linarith)

theorem deltaLin_pos : 0 < deltaLin := by
  have hh : (2 : ℝ) ≤ h := by exact_mod_cast hs.height
  have hl : (2 : ℝ) ≤ winL := by exact_mod_cast hs.lines
  have hproduct : 0 < ((winL : ℝ) - 1) * deltaLin := by
    rw [hs.lin]
    linarith
  exact pos_of_mul_pos_right hproduct (by linarith)

theorem distance_nonneg (i : Nat) : 0 ≤ (i : ℝ) * deltaPix :=
  mul_nonneg i.cast_nonneg hs.deltaPix_pos.le

/-- No point comes to a line behind the last one. -/
theorem linesBefore_lt (hi : (i : Int) < n) : (linesBefore w (i * deltaPix) : Int) < winL := by
  by_contra hge
  have hi' : (i : ℝ) ≤ (n : ℝ) - 1 := by
    have : (i : Int) ≤ n - 1 := by omega
    exact_mod_cast this
  have hend : (i : ℝ) * deltaPix ≤ w * winL - 1 := by
    rw [← hs.pix]
    exact mul_le_mul_of_nonneg_right hi' hs.deltaPix_pos.le
  have hl := hs.lines
  have hlines := (linesBefore_le_iff hs.width (hs.distance_nonneg i) winL.toNat).mp (by omega)
  have hcast : ((winL.toNat : Nat) : ℝ) = winL := by
    rw [← Int.cast_natCast, Int.toNat_of_nonneg (by omega)]
  rw [hcast] at hlines
  linarith

/-- The lines that a point has passed stand for a line of the band. -/
theorem line_mem (hi : (i : Int) < n) :
    0 ≤ ⌊linesBefore w (i * deltaPix) * deltaLin⌋ ∧
      ⌊linesBefore w (i * deltaPix) * deltaLin⌋ < h := by
  have hpos := hs.deltaLin_pos
  have hle : ((linesBefore w (i * deltaPix) : Nat) : ℝ) ≤ winL - 1 := by
    have : (linesBefore w (i * deltaPix) : Int) ≤ winL - 1 := by
      have hlt := hs.linesBefore_lt hi
      omega
    exact_mod_cast this
  have hlin := mul_le_mul_of_nonneg_right hle hpos.le
  rw [hs.lin] at hlin
  refine ⟨Int.floor_nonneg.mpr (by positivity), ?_⟩
  rw [Int.floor_lt]
  linarith

theorem pixel_mem (i : Nat) :
    0 ≤ ⌊(walkAt w (i * deltaPix)).pix⌋ ∧ ⌊(walkAt w (i * deltaPix)).pix⌋ < w := by
  obtain ⟨hlow, hhigh⟩ := walkAt_pix_mem hs.width (hs.distance_nonneg i)
  exact ⟨Int.floor_nonneg.mpr hlow, Int.floor_lt.mpr hhigh⟩

theorem pointLine_mem (yMin : Int) (hi : (i : Int) < n) :
    yMin ≤ pointLine w yMin deltaPix deltaLin i ∧
      pointLine w yMin deltaPix deltaLin i < yMin + h := by
  have hline := hs.line_mem hi
  unfold pointLine
  omega

theorem pointPixel_mem (xMin : Int) (i : Nat) :
    xMin ≤ pointPixel w xMin deltaPix i ∧ pointPixel w xMin deltaPix i < xMin + w := by
  have hpixel := hs.pixel_mem i
  unfold pointPixel
  omega

theorem pointLine_mono {j : Nat} (hij : i ≤ j) :
    pointLine w yMin deltaPix deltaLin i ≤ pointLine w yMin deltaPix deltaLin j := by
  have hpix := hs.deltaPix_pos
  have hpos := hs.deltaLin_pos
  have hdistance : (i : ℝ) * deltaPix ≤ j * deltaPix := by gcongr
  have hlines : ((linesBefore w (i * deltaPix) : Nat) : ℝ) ≤ linesBefore w (j * deltaPix) :=
    Nat.cast_le.mpr (linesBefore_mono hs.width hdistance)
  unfold pointLine
  gcongr

theorem pointLine_zero : pointLine w yMin deltaPix deltaLin 0 = yMin := by
  rw [pointLine, Nat.cast_zero, zero_mul, linesBefore_of_nonpos hs.width (le_refl _),
    Nat.cast_zero, zero_mul, Int.floor_zero, zero_add]

theorem pointPixel_zero : pointPixel w xMin deltaPix 0 = xMin := by
  rw [pointPixel, walkAt, Nat.cast_zero, zero_mul, linesBefore_of_nonpos hs.width (le_refl _)]
  simp

/-- The last point has passed all lines but one. -/
theorem linesBefore_last : (linesBefore w ((n - 1) * deltaPix) : Int) = winL - 1 := by
  have hn := hs.points
  have hl := hs.lines
  have hw : (2 : ℝ) ≤ w := by exact_mod_cast hs.width
  have hcast : (((n - 1).toNat : Nat) : ℝ) = n - 1 := by
    rw [← Int.cast_natCast, Int.toNat_of_nonneg (by omega)]
    push_cast
    rfl
  have hlast : (((winL - 1).toNat : Nat) : ℝ) = winL - 1 := by
    rw [← Int.cast_natCast, Int.toNat_of_nonneg (by omega)]
    push_cast
    rfl
  have hlt := hs.linesBefore_lt (i := (n - 1).toNat) (by omega)
  have hnonneg := hs.distance_nonneg (n - 1).toNat
  rw [hcast] at hlt hnonneg
  have hle : (winL - 1).toNat ≤ linesBefore w ((n - 1) * deltaPix) := by
    rw [linesBefore_le_iff hs.width hnonneg, hlast, hs.pix]
    linarith
  omega

/-- The points are spread over the band. -/
theorem isSpread : IsSpread n w xMin h yMin
    ((List.range n.toNat).map (pointLine w yMin deltaPix deltaLin))
    ((List.range n.toNat).map (pointPixel w xMin deltaPix)) := by
  have hn := hs.points
  obtain ⟨m, rfl⟩ : ∃ m : Nat, n = (m + 1 : Nat) := ⟨n.toNat - 1, by omega⟩
  have hlines := hs.linesBefore_last
  have hlast : (((m + 1 : Nat) : Int) : ℝ) - 1 = m := by push_cast; ring
  have hpix := hs.pix
  rw [hlast] at hlines hpix
  have hlines' : ((linesBefore w (m * deltaPix) : Nat) : ℝ) = winL - 1 := by
    exact_mod_cast hlines
  -- the last point is on the last line
  have hpointLine : pointLine w yMin deltaPix deltaLin m = yMin + h - 1 := by
    rw [pointLine, hlines', hs.lin, show (h : ℝ) - 1 = ((h - 1 : Int) : ℝ) by push_cast; rfl,
      Int.floor_intCast]
    omega
  -- and in the last column
  have hpointPixel : pointPixel w xMin deltaPix m = xMin + w - 1 := by
    have hcolumn : (walkAt w (m * deltaPix)).pix = ((w - 1 : Int) : ℝ) := by
      rw [walkAt, hlines', hpix]
      push_cast
      ring
    rw [pointPixel, hcolumn, Int.floor_intCast]
    omega
  rw [Int.toNat_natCast]
  refine ⟨by rw [List.length_map, List.length_range], by rw [List.length_map, List.length_range],
    ?_, ?_, ?_, ?_, ?_, ?_, ?_⟩
  · intro line hline
    obtain ⟨i, hi, rfl⟩ := List.mem_map.mp hline
    rw [List.mem_range] at hi
    exact hs.pointLine_mem yMin (by omega)
  · intro pixel hpixel
    obtain ⟨i, -, rfl⟩ := List.mem_map.mp hpixel
    exact hs.pointPixel_mem xMin i
  · rw [List.pairwise_map]
    exact List.pairwise_lt_range.imp fun hij => hs.pointLine_mono (Nat.le_of_lt hij)
  · rw [List.range_succ_eq_map, List.map_cons, List.head?_cons, hs.pointLine_zero]
  · rw [List.range_succ_eq_map, List.map_cons, List.head?_cons, hs.pointPixel_zero]
  · rw [List.range_succ, List.map_append, List.map_singleton, List.getLast?_concat, hpointLine]
  · rw [List.range_succ, List.map_append, List.map_singleton, List.getLast?_concat, hpointPixel]

end Steps

/-! ## The whole computation -/

section Whole

variable {int : Int → Outcome Int} {n w h xMin yMin : Int}

theorem divide_of_ne {a b : ℝ} (hb : b ≠ 0) : divide a b = .ok (a / b) := if_neg hb

/-- The loop over the points returns those of its rounds. -/
theorem foldlM_pointRound {winL : Int} {deltaPix deltaLin : ℝ}
    (hs : Steps n w h winL deltaPix deltaLin) (hle : winL ≤ w * winL)
    (hsizes : ∀ z, 0 ≤ z → z ≤ w * winL ∨ z ≤ n ∨ z ≤ h → int z = .ok z)
    (hlines : ∀ z, yMin ≤ z → z < yMin + h → int z = .ok z)
    (hpixels : ∀ z, xMin ≤ z → z < xMin + w → int z = .ok z) {k : Nat} (hk : (k : Int) ≤ n) :
    (List.range k).foldlM
        (fun state _ => pointRound int winL.toNat deltaPix deltaLin w xMin yMin state)
        (some ⟨⟨-deltaPix, 0⟩, [], []⟩) =
      .ok (some (distributionAt w xMin yMin deltaPix deltaLin k)) := by
  induction k with
  | zero =>
    have hpos := hs.deltaPix_pos
    -- before the first round the walk stands one step back
    have hnone : linesBefore w (-deltaPix) = 0 := linesBefore_of_nonpos hs.width (by linarith)
    rw [List.range_zero, List.foldlM_nil, distributionAt, walkAt, Nat.cast_zero, zero_sub,
      neg_one_mul, hnone, Nat.cast_zero, zero_mul, sub_zero]
    rfl
  | succ k ih =>
    have hlt := hs.linesBefore_lt (i := k) (by omega)
    have hline := hs.line_mem (i := k) (by omega)
    have hline' := hs.pointLine_mem yMin (i := k) (by omega)
    have hpixel := hs.pixel_mem k
    have hpixel' := hs.pointPixel_mem xMin k
    have hw := hs.width
    have hwide : w ≤ w * winL := by
      have := Int.mul_le_mul_of_nonneg_left (show 1 ≤ winL by have := hs.lines; omega)
        (show 0 ≤ w by omega)
      omega
    -- every number of the round is one of `int`
    rw [List.range_succ, List.foldlM_append, ih (by omega), Outcome.ok_bind, List.foldlM_cons,
      pointRound_eq hw hs.deltaPix_pos.le (by omega)
        (fun z hz hz' => hsizes z hz (.inl (by omega)))
        (hsizes _ hline.1 (.inr (.inr hline.2.le))) (hlines _ hline'.1 hline'.2)
        (hsizes _ hpixel.1 (.inl (by omega))) (hpixels _ hpixel'.1 hpixel'.2),
      Outcome.ok_bind, List.foldlM_nil, Outcome.pure_eq]

/-- The steps of the whole computation. -/
theorem steps_virtualLines (hn : 4 ≤ n) (hw : 2 ≤ w) (hh : 2 ≤ h) :
    Steps n w h (virtualLines n w h)
      (((w * virtualLines n w h - 1 : Int) : ℝ) / ((n - 1 : Int) : ℝ))
      (((h - 1 : Int) : ℝ) / ((virtualLines n w h - 1 : Int) : ℝ)) := by
  have hL := two_le_virtualLines hn hw hh
  have hn' : (4 : ℝ) ≤ n := by exact_mod_cast hn
  have hL' : (2 : ℝ) ≤ virtualLines n w h := by exact_mod_cast hL
  refine ⟨hn, hw, hh, hL, ?_, ?_⟩
  · have hne : (n : ℝ) - 1 ≠ 0 := by linarith
    push_cast
    field_simp
  · have hne : (virtualLines n w h : ℝ) - 1 ≠ 0 := by linarith
    push_cast
    field_simp

theorem virtualLines_le (hn : 4 ≤ n) (hw : 2 ≤ w) (hh : 2 ≤ h) :
    virtualLines n w h ≤ w * virtualLines n w h := by
  have hL := two_le_virtualLines hn hw hh
  have hproduct := Int.mul_le_mul_of_nonneg_right (show 1 ≤ w by omega)
    (show 0 ≤ virtualLines n w h by omega)
  omega

/-- Where the numbers are the exact ones, the points are spread over the band. -/
theorem spreadsPoints_of_computes (hn : 4 ≤ n) (hw : 2 ≤ w) (hh : 2 ≤ h)
    (hint : Computes int n w xMin h yMin) : SpreadsPoints int n w xMin h yMin := by
  have hL := two_le_virtualLines hn hw hh
  have hn' : (4 : ℝ) ≤ n := by exact_mod_cast hn
  have hw' : (2 : ℝ) ≤ w := by exact_mod_cast hw
  have hh' : (2 : ℝ) ≤ h := by exact_mod_cast hh
  have hL' : (2 : ℝ) ≤ virtualLines n w h := by exact_mod_cast hL
  -- no divisor of the computation is zero
  have hwinP : √((n : ℝ) / (h / w)) ≠ 0 := by positivity
  have hratio : (h : ℝ) / w ≠ 0 := by positivity
  have hsizes := hint.sizes
  have hle := virtualLines_le hn hw hh
  have hs := steps_virtualLines hn hw hh
  have hloop := foldlM_pointRound hs hle hsizes hint.lines hint.pixels (k := n.toNat) (by omega)
  -- the numbers that are converted are numbers of `int`
  have hlines : int (virtualLines n w h) = .ok (virtualLines n w h) :=
    hsizes _ (by omega) (.inl hle)
  have htotal : int (w * virtualLines n w h) = .ok (w * virtualLines n w h) :=
    hsizes _ (by omega) (.inl (le_refl _))
  have hlastLine : ((virtualLines n w h - 1 : Int) : ℝ) ≠ 0 := by
    push_cast
    linarith
  have hlastPoint : ((n - 1 : Int) : ℝ) ≠ 0 := by
    push_cast
    linarith
  refine ⟨(virtualLines n w h).toNat, _, _, ?_, hs.isSpread⟩
  unfold virtualLines at hlines
  dsimp only at hlines
  rw [distributePoints, Outcome.require_of (by omega), Outcome.ok_bind, divide_of_ne (by linarith),
    Outcome.ok_bind, divide_of_ne hratio, Outcome.ok_bind]
  dsimp only
  rw [divide_of_ne hwinP, Outcome.ok_bind, hlines, Outcome.ok_bind]
  rw [show ⌊if (n : ℝ) / √((n : ℝ) / (h / w)) < √((n : ℝ) / (h / w)) then √((n : ℝ) / (h / w))
    else (n : ℝ) / √((n : ℝ) / (h / w))⌋ = virtualLines n w h from rfl]
  rw [hsizes (h - 1) (by omega) (.inr (.inr (by omega))), Outcome.ok_bind,
    hsizes (virtualLines n w h - 1) (by omega) (.inl (by omega)), Outcome.ok_bind,
    divide_of_ne hlastLine, Outcome.ok_bind, htotal, Outcome.ok_bind, Int.floor_intCast, htotal,
    Outcome.ok_bind, hsizes (w * virtualLines n w h - 1) (by omega) (.inl (by omega)),
    Outcome.ok_bind, hsizes (n - 1) (by omega) (.inr (.inl (by omega))), Outcome.ok_bind,
    divide_of_ne hlastPoint, Outcome.ok_bind, hloop, Outcome.ok_bind]
  rfl

end Whole

/-- **The fitting points** are spread over the whole band. -/
theorem distributePoints_spreads {n w h : Int} (hn : 4 ≤ n) (hw : 2 ≤ w) (hh : 2 ≤ h)
    (xMin yMin : Int) : SpreadsPoints .ok n w xMin h yMin :=
  spreadsPoints_of_computes hn hw hh ⟨fun _ _ _ => rfl, fun _ _ _ => rfl, fun _ _ _ => rfl⟩

theorem distributePoints_spreads_four : SpreadsPoints .ok 4 2 0 2 0 :=
  distributePoints_spreads (by decide) (by decide) (by decide) 0 0

/-- In `int` the points are the same, as long as the length of the virtual band fits. -/
theorem spreadsPoints_int32 {n w h : Int} (hn : 4 ≤ n) (hw : 2 ≤ w) (hh : 2 ≤ h)
    (hpoints : n < 2147483648) (hheight : h < 2147483648)
    (hband : w * virtualLines n w h < 2147483648) : SpreadsPoints int32 n w 0 h 0 := by
  have hL := two_le_virtualLines hn hw hh
  have hwide : w ≤ w * virtualLines n w h := by
    have := Int.mul_le_mul_of_nonneg_left (show 1 ≤ virtualLines n w h by omega)
      (show 0 ≤ w by omega)
    omega
  refine spreadsPoints_of_computes hn hw hh ⟨fun z hz hle => ?_, fun z hz hlt => ?_,
    fun z hz hlt => ?_⟩
  · exact int32_of_bounds (by omega) (by omega)
  · exact int32_of_bounds (by omega) (by omega)
  · exact int32_of_bounds (by omega) (by omega)

end Alus.Coherence
