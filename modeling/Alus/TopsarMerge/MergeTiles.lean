import Mathlib.Algebra.Order.Ring.Star
import Mathlib.Data.List.Sort
import Mathlib.Data.Rat.Floor
import Mathlib.Data.Rat.Star
import Alus.Lib.Sampling
import Alus.TopsarMerge.Merge

/-!
# Which sub-swath a tile takes its pixels from

The corners of a tile decide which sub-swaths are looked at, and whether one is copied by rows.
This module gives the relation between sub-swaths and raster under which no tile is wrong: every
valid line of a column is seen from the lines above and below it, a corner without a sub-swath has
only one beside it, and the ranges that are copied by rows have nothing that is not valid.
-/

namespace Alus.TopsarMerge

open Alus.Lib

variable {T : Type} [Field T] [LinearOrder T] [IsStrictOrderedRing T] [FloorRing T]

namespace TopsarMergeOperator

variable (m : TopsarMergeOperator T)

/-! ## Columns and lines as times -/

section Times

omit [FloorRing T]

theorem targetDeltaSlrTime_pos : 0 < m.targetDeltaSlrTime := by
  have hlight : (0 : T) < (lightSpeed : T) := by
    unfold lightSpeed
    norm_num
  exact div_pos (m.info 0).spacing_pos hlight

omit [IsStrictOrderedRing T] in
theorem targetLineTimeInterval_pos : 0 < m.targetLineTimeInterval := (m.info 0).interval_pos

theorem slrTime_le_iff {x : Int} {t : T} :
    m.slrTime x ≤ t ↔ (x : T) ≤ (t - m.targetSlrTimeToFirstPixel) / m.targetDeltaSlrTime := by
  rw [le_div_iff₀ m.targetDeltaSlrTime_pos, slrTime, le_sub_iff_add_le']

theorem le_slrTime_iff {x : Int} {t : T} :
    t ≤ m.slrTime x ↔ (t - m.targetSlrTimeToFirstPixel) / m.targetDeltaSlrTime ≤ x := by
  rw [div_le_iff₀ m.targetDeltaSlrTime_pos, slrTime, sub_le_iff_le_add']

theorem lineTime_le_iff {y : Int} {t : T} :
    m.lineTime y ≤ t ↔ (y : T) ≤ (t - m.targetFirstLineTime) / m.targetLineTimeInterval := by
  rw [le_div_iff₀ m.targetLineTimeInterval_pos, lineTime, le_sub_iff_add_le']

theorem le_lineTime_iff {y : Int} {t : T} :
    t ≤ m.lineTime y ↔ (t - m.targetFirstLineTime) / m.targetLineTimeInterval ≤ y := by
  rw [div_le_iff₀ m.targetLineTimeInterval_pos, lineTime, sub_le_iff_le_add']

theorem slrTime_mono {x x' : Int} (h : x ≤ x') : m.slrTime x ≤ m.slrTime x' := by
  have hcast : (x : T) ≤ x' := by exact_mod_cast h
  have hpos := m.targetDeltaSlrTime_pos
  unfold slrTime
  gcongr

theorem ValidColumn.between {m : TopsarMergeOperator T} {i : Nat} {a b x : Int}
    (ha : m.ValidColumn i a) (hb : m.ValidColumn i b) (hax : a ≤ x) (hxb : x ≤ b) :
    m.ValidColumn i x :=
  ⟨le_trans ha.1 (m.slrTime_mono hax), le_trans (m.slrTime_mono hxb) hb.2⟩

omit [IsStrictOrderedRing T] in
theorem TestedLine.validLine {m : TopsarMergeOperator T} {i : Nat} {y : Int}
    (h : m.TestedLine i y) : m.ValidLine i y :=
  ⟨h.1, h.2.le⟩

end Times

/-! ## The ranges that are copied by rows -/

/-- The rounded ranges have every valid column. -/
theorem ValidColumn.in_range {m : TopsarMergeOperator T} {i : Nat} {x : Int}
    (h : m.ValidColumn i x) : m.computeXMin i ≤ x ∧ x ≤ m.computeXMax i :=
  ⟨stdRound_le (m.le_slrTime_iff.mp h.1), le_stdRound (m.slrTime_le_iff.mp h.2)⟩

theorem ValidLine.in_range {m : TopsarMergeOperator T} {i : Nat} {y : Int}
    (h : m.ValidLine i y) : m.computeYMin i ≤ y ∧ y ≤ m.computeYMax i :=
  ⟨stdRound_le (m.le_lineTime_iff.mp ((m.info i).firstLineTime_le.trans h.1)),
    le_stdRound (m.lineTime_le_iff.mp (h.2.trans (m.info i).lastValidLineTime_le))⟩

theorem sub_half_le_of_le_computeXMax {i : Nat} {x : Int} (h : x ≤ m.computeXMax i) :
    (x : T) - 1 / 2 ≤ ((m.info i).slrTimeToLastValidPixel - m.targetSlrTimeToFirstPixel) /
      m.targetDeltaSlrTime := by
  have hround := (abs_le.mp (abs_stdRound_sub_le (((m.info i).slrTimeToLastValidPixel -
    m.targetSlrTimeToFirstPixel) / m.targetDeltaSlrTime))).2
  have hcast : (x : T) ≤ m.computeXMax i := by exact_mod_cast h
  rw [computeXMax] at hcast
  linarith

/-- The ranges have at most one column on each side that is not valid. -/
theorem slrTime_pred_le {i : Nat} {x : Int} (h : x ≤ m.computeXMax i) :
    m.slrTime (x - 1) ≤ (m.info i).slrTimeToLastValidPixel := by
  have hcolumn := m.sub_half_le_of_le_computeXMax h
  apply m.slrTime_le_iff.mpr
  push_cast
  linarith

theorem le_slrTime_succ {i : Nat} {x : Int} (h : m.computeXMin i ≤ x) :
    (m.info i).slrTimeToFirstValidPixel ≤ m.slrTime (x + 1) := by
  have hround := (abs_le.mp (abs_stdRound_sub_le (((m.info i).slrTimeToFirstValidPixel -
    m.targetSlrTimeToFirstPixel) / m.targetDeltaSlrTime))).1
  have hcast : (m.computeXMin i : T) ≤ x := by exact_mod_cast h
  rw [computeXMin] at hcast
  apply m.le_slrTime_iff.mpr
  push_cast
  linarith

/-! ## Source samples -/

/-- The place of a column among the samples of a sub-swath. -/
def samplePos (i : Nat) (x : Int) : T :=
  (m.slrTime x - (m.info i).slrTimeToFirstPixel) / m.targetDeltaSlrTime

omit [FloorRing T] in
theorem samplePos_add (i : Nat) (x d : Int) : m.samplePos i (x + d) = m.samplePos i x + d := by
  have hne := m.targetDeltaSlrTime_pos.ne'
  rw [samplePos, samplePos, slrTime, slrTime]
  push_cast
  field_simp
  ring

omit [FloorRing T] in
theorem samplePos_shift (i : Nat) (firstX x : Int) : m.samplePos i x + 1 / 2 =
    m.samplePos i firstX + 1 / 2 + ((x - firstX : Int) : T) := by
  rw [show x = firstX + (x - firstX) by ring, samplePos_add]
  push_cast
  ring

omit [FloorRing T] in
theorem samplePos_mono (i : Nat) {x x' : Int} (h : x ≤ x') :
    m.samplePos i x ≤ m.samplePos i x' := by
  have hpos := m.targetDeltaSlrTime_pos
  have hmono := m.slrTime_mono h
  unfold samplePos
  gcongr

/-- A column of the copied range is not more than half a sample before the first one. -/
theorem neg_half_lt_samplePos {i : Nat} (hi : i < m.numberOfSubswaths) {x : Int}
    (h : m.computeXMin i ≤ x) : -(1 / 2) < m.samplePos i x := by
  have hpos := m.targetDeltaSlrTime_pos
  have hfirst : m.targetSlrTimeToFirstPixel ≤ (m.info i).slrTimeToFirstValidPixel := by
    cases i with
    | zero => exact le_refl _
    | succ i => exact (m.ordered 0 (i + 1) (Nat.succ_pos i) hi).1
  have hquot : 0 ≤ ((m.info i).slrTimeToFirstValidPixel - m.targetSlrTimeToFirstPixel) /
      m.targetDeltaSlrTime := div_nonneg (sub_nonneg.mpr hfirst) hpos.le
  -- the range starts less than half a column before the first valid sample, as a half rounds up
  have hstart : ((m.info i).slrTimeToFirstValidPixel - m.targetSlrTimeToFirstPixel) /
      m.targetDeltaSlrTime < m.computeXMin i + 1 / 2 := by
    rw [computeXMin, stdRound_eq_floor (by linarith)]
    linarith [Int.lt_floor_add_one (((m.info i).slrTimeToFirstValidPixel -
      m.targetSlrTimeToFirstPixel) / m.targetDeltaSlrTime + 1 / 2)]
  have hcast : (m.computeXMin i : T) ≤ x := by exact_mod_cast h
  have hlt := hstart.trans_le (add_le_add_left hcast (1 / 2))
  rw [div_lt_iff₀ hpos] at hlt
  rw [samplePos, lt_div_iff₀ hpos, slrTime]
  linarith [(m.info i).firstPixel_le]

omit [IsStrictOrderedRing T] in
theorem getSampleIndexInSourceProduct_eq_clampTo (i : Nat) (x : Int) :
    m.getSampleIndexInSourceProduct i x =
      clampTo 0 ((m.info i).numberOfSamples - 1) (toInt (m.samplePos i x + 1 / 2)) := rfl

theorem getSampleIndexInSourceProduct_mono (i : Nat) {x x' : Int} (h : x ≤ x') :
    m.getSampleIndexInSourceProduct i x ≤ m.getSampleIndexInSourceProduct i x' := by
  have hsamples := (m.info i).samples_pos
  apply clampTo_mono (by omega)
  exact toInt_mono (add_le_add_left (m.samplePos_mono i h) (1 / 2))

/-- A valid column has a sample of its own, which needs no limits. -/
theorem getSampleIndexInSourceProduct_eq {i : Nat} (hi : i < m.numberOfSubswaths) {x : Int}
    (h : m.ValidColumn i x) :
    m.getSampleIndexInSourceProduct i x = ⌊m.samplePos i x + 1 / 2⌋ := by
  have hpos := m.targetDeltaSlrTime_pos
  have hlow : 0 ≤ m.samplePos i x :=
    div_nonneg (sub_nonneg.mpr ((m.info i).firstPixel_le.trans h.1)) hpos.le
  have hhigh : m.samplePos i x ≤ ((m.info i).numberOfSamples - 1 : Int) := by
    have hlast := h.2.trans (m.info i).lastValidPixel_le
    rw [(m.info i).slrTimeToLastPixel_eq, m.sameSpacing i hi, mul_div_assoc] at hlast
    rw [samplePos, div_le_iff₀ hpos, sub_le_iff_le_add']
    exact hlast
  have hlt : ⌊m.samplePos i x + 1 / 2⌋ < (m.info i).numberOfSamples - 1 + 1 := by
    rw [Int.floor_lt]
    push_cast at hhigh ⊢
    linarith
  rw [getSampleIndexInSourceProduct_eq_clampTo, toInt_of_nonneg (by linarith)]
  exact clampTo_of_mem (Int.floor_nonneg.mpr (by linarith)) (by omega)

/-- The copied row has the samples of its valid columns. -/
theorem copied_sample_eq {i : Nat} (hi : i < m.numberOfSubswaths) {firstX x : Int}
    (hfirst : m.computeXMin i ≤ firstX) (h : m.ValidColumn i x) :
    stdRound (m.samplePos i firstX) + (x - firstX) = m.getSampleIndexInSourceProduct i x := by
  rw [m.getSampleIndexInSourceProduct_eq hi h, m.samplePos_shift i firstX x, Int.floor_add_intCast,
    stdRound_eq_floor (m.neg_half_lt_samplePos hi hfirst)]

theorem getLineIndexInSourceProduct_mono (i : Nat) {y y' : Int} (h : y ≤ y') :
    m.getLineIndexInSourceProduct i y ≤ m.getLineIndexInSourceProduct i y' := by
  have hpos := (m.info i).interval_pos
  have hinterval := m.targetLineTimeInterval_pos
  have hlines := (m.info i).lines_pos
  have hcast : (y : T) ≤ y' := by exact_mod_cast h
  apply clampTo_mono (by omega)
  apply toInt_mono
  unfold lineTime
  gcongr

/-! ## The sub-swaths found for a tile -/

/-- The sub-swath is valid at the column and one of the two lines passes its test. -/
def FoundAt (i : Nat) (x y y' : Int) : Prop :=
  i < m.numberOfSubswaths ∧ m.ValidColumn i x ∧ m.Tested i y y'

instance (i : Nat) (x y y' : Int) : Decidable (m.FoundAt i x y y') :=
  inferInstanceAs (Decidable (_ ∧ _ ∧ _))

/-- The indices for corner columns `x0` and `x1` and corner lines `y0` and `y1`. -/
inductive FindsSubSwaths (x0 x1 y0 y1 : Int) : Option Nat × Option Nat → Prop
  | both {f l : Nat} (hf : m.FoundAt f x0 y0 y1) (hfirst : ∀ j < f, ¬ m.FoundAt j x0 y0 y1)
      (hl : m.FoundAt l x1 y0 y1) (hlast : ∀ j, l < j → ¬ m.FoundAt j x1 y0 y1) :
      FindsSubSwaths x0 x1 y0 y1 (some f, some l)
  | firstOnly {f : Nat} (hf : m.FoundAt f x0 y0 y1) (hfirst : ∀ j < f, ¬ m.FoundAt j x0 y0 y1)
      (hnone : ∀ j, ¬ m.FoundAt j x1 y0 y1) : FindsSubSwaths x0 x1 y0 y1 (some f, some f)
  | lastOnly {l : Nat} (hnone : ∀ j, ¬ m.FoundAt j x0 y0 y1) (hl : m.FoundAt l x1 y0 y1)
      (hlast : ∀ j, l < j → ¬ m.FoundAt j x1 y0 y1) : FindsSubSwaths x0 x1 y0 y1 (some l, some l)
  | neither (hfirst : ∀ j, ¬ m.FoundAt j x0 y0 y1) (hlast : ∀ j, ¬ m.FoundAt j x1 y0 y1) :
      FindsSubSwaths x0 x1 y0 y1 (none, none)

section Found

omit [IsStrictOrderedRing T] [FloorRing T]

theorem firstValid_cases (x y y' : Int) :
    (m.firstValid x y y' = none ∧ ∀ j, ¬ m.FoundAt j x y y') ∨
      ∃ f, m.firstValid x y y' = some f ∧ m.FoundAt f x y y' ∧
        ∀ j < f, ¬ m.FoundAt j x y y' := by
  cases hfirst : m.firstValid x y y' with
  | none =>
    left
    rw [firstValid, List.find?_range_eq_none] at hfirst
    refine ⟨rfl, fun j hj => ?_⟩
    have hnot := hfirst j hj.1
    rw [decide_eq_true hj.2] at hnot
    exact absurd hnot Bool.false_ne_true
  | some f =>
    right
    rw [firstValid, List.find?_range_eq_some] at hfirst
    obtain ⟨hvalid, hf, hbefore⟩ := hfirst
    refine ⟨f, rfl, ⟨List.mem_range.mp hf, of_decide_eq_true hvalid⟩, fun j hj hfound => ?_⟩
    have hnot := hbefore j hj
    rw [decide_eq_true hfound.2] at hnot
    exact absurd hnot Bool.false_ne_true

/-- The loop that does not stop ends with the last one. -/
theorem foldl_last_cases (p : Nat → Prop) [DecidablePred p] (n : Nat) :
    ((List.range n).foldl (fun last i => if p i then some i else last) none = none ∧
        ∀ j < n, ¬ p j) ∨
      ∃ l, (List.range n).foldl (fun last i => if p i then some i else last) none = some l ∧
        (l < n ∧ p l) ∧ ∀ j, l < j → j < n → ¬ p j := by
  induction n with
  | zero => exact .inl ⟨rfl, fun j hj => absurd hj (Nat.not_lt_zero j)⟩
  | succ n ih =>
    rw [List.range_succ, List.foldl_append, List.foldl_cons, List.foldl_nil]
    by_cases hp : p n
    · rw [if_pos hp]
      exact .inr ⟨n, rfl, ⟨Nat.lt_succ_self n, hp⟩, fun j hj hjn => by omega⟩
    · rw [if_neg hp]
      cases ih with
      | inl hnone =>
        refine .inl ⟨hnone.1, fun j hj => ?_⟩
        rcases Nat.lt_succ_iff_lt_or_eq.mp hj with hlt | rfl
        · exact hnone.2 j hlt
        · exact hp
      | inr hsome =>
        obtain ⟨l, hl, ⟨hln, hpl⟩, hafter⟩ := hsome
        refine .inr ⟨l, hl, ⟨by omega, hpl⟩, fun j hlj hj => ?_⟩
        rcases Nat.lt_succ_iff_lt_or_eq.mp hj with hlt | rfl
        · exact hafter j hlj hlt
        · exact hp

theorem lastValid_cases (x y y' : Int) :
    (m.lastValid x y y' = none ∧ ∀ j, ¬ m.FoundAt j x y y') ∨
      ∃ l, m.lastValid x y y' = some l ∧ m.FoundAt l x y y' ∧
        ∀ j, l < j → ¬ m.FoundAt j x y y' := by
  rcases foldl_last_cases (fun i => m.ValidColumn i x ∧ m.Tested i y y') m.numberOfSubswaths with
    ⟨hnone, hall⟩ | ⟨l, hl, hfound, hafter⟩
  · exact .inl ⟨hnone, fun j hj => hall j hj.1 hj.2⟩
  · exact .inr ⟨l, hl, hfound, fun j hlj hj => hafter j hlj hj.1 hj.2⟩

theorem findsSubSwaths (x0 x1 y0 y1 : Int) :
    m.FindsSubSwaths x0 x1 y0 y1 (m.firstValid x0 y0 y1 <|> m.lastValid x1 y0 y1,
      m.lastValid x1 y0 y1 <|> m.firstValid x0 y0 y1) := by
  rcases m.firstValid_cases x0 y0 y1 with ⟨hfirst, hnone⟩ | ⟨f, hfirst, hf, hbefore⟩
  · rcases m.lastValid_cases x1 y0 y1 with ⟨hlast, hnone'⟩ | ⟨l, hlast, hl, hafter⟩
    · rw [hfirst, hlast]
      exact .neither hnone hnone'
    · rw [hfirst, hlast]
      exact .lastOnly hnone hl hafter
  · rcases m.lastValid_cases x1 y0 y1 with ⟨hlast, hnone'⟩ | ⟨l, hlast, hl, hafter⟩
    · rw [hfirst, hlast]
      exact .firstOnly hf hbefore hnone'
    · rw [hfirst, hlast]
      exact .both hf hbefore hl hafter

/-- The tile with the given corners. -/
def cornerTile (x0 x1 y0 y1 : Int) : Rectangle := ⟨x0, y0, x1 - x0 + 1, y1 - y0 + 1⟩

theorem cornerTile_inside {x0 x1 y0 y1 width height : Int} (hx0 : 0 ≤ x0) (hx : x0 ≤ x1)
    (hx1 : x1 < width) (hy0 : 0 ≤ y0) (hy : y0 ≤ y1) (hy1 : y1 < height) :
    (cornerTile x0 x1 y0 y1).Inside width height := by
  simp only [Rectangle.Inside, cornerTile]
  omega

theorem cornerTile_contains {x0 x1 y0 y1 x y : Int} :
    (cornerTile x0 x1 y0 y1).Contains x y ↔ (x0 ≤ x ∧ x ≤ x1) ∧ y0 ≤ y ∧ y ≤ y1 := by
  simp only [Rectangle.Contains, cornerTile]
  omega

theorem exists_cornerTile {tile : Rectangle} {width height : Int}
    (ht : tile.Inside width height) : ∃ x0 x1 y0 y1, tile = cornerTile x0 x1 y0 y1 ∧
      (0 ≤ x0 ∧ x0 ≤ x1 ∧ x1 < width) ∧ 0 ≤ y0 ∧ y0 ≤ y1 ∧ y1 < height := by
  refine ⟨tile.x, tile.x + tile.width - 1, tile.y, tile.y + tile.height - 1, ?_, ?_⟩
  · cases tile
    simp only [cornerTile, Rectangle.mk.injEq, true_and]
    omega
  · simp only [Rectangle.Inside] at ht
    omega

theorem findFirstAndLastSubSwathIndices_cornerTile (x0 x1 y0 y1 : Int) :
    m.FindsSubSwaths x0 x1 y0 y1
      (m.findFirstAndLastSubSwathIndices (cornerTile x0 x1 y0 y1)) := by
  have hx : x0 + (x1 - x0 + 1) - 1 = x1 := by omega
  have hy : y0 + (y1 - y0 + 1) - 1 = y1 := by omega
  have hfinds := m.findsSubSwaths x0 x1 y0 y1
  simp only [findFirstAndLastSubSwathIndices, cornerTile, hx, hy]
  exact hfinds

end Found

/-! ## The sub-swaths around those of the pixels -/

def InWidth (x : Int) : Prop := 0 ≤ x ∧ x < m.targetWidth

def InHeight (y : Int) : Prop := 0 ≤ y ∧ y < m.targetHeight

/-- The sub-swaths and the raster fit together. -/
structure TilesSafe : Prop where
  /-- Two lines around a line that is valid for a sub-swath find one not after it and one not
  before it at the column. -/
  lines : ∀ i < m.numberOfSubswaths, ∀ x y0 y y1, m.InWidth x → m.InHeight y0 → m.InHeight y1 →
    y0 ≤ y → y ≤ y1 → m.Covers i x y →
      (∃ j ≤ i, m.FoundAt j x y0 y1) ∧ ∃ k, i ≤ k ∧ m.FoundAt k x y0 y1
  /-- From a column where two lines find nothing, they find at most one sub-swath. -/
  gaps : ∀ x x' x'' y0 y1, m.InWidth x → m.InWidth x'' → m.InHeight y0 → m.InHeight y1 →
    y0 ≤ y1 → x < x' ∧ x' ≤ x'' ∨ x'' ≤ x' ∧ x' < x → (∀ j, ¬ m.FoundAt j x y0 y1) →
      ∀ i, m.FoundAt i x' y0 y1 → ∀ j, m.FoundAt j x'' y0 y1 ↔ j = i
  /-- A line that is copied but not valid is never alone with lines of its sub-swath. -/
  lineRange : ∀ i x y y', m.InWidth x → m.InHeight y → m.InHeight y' → m.FoundAt i x y' y' →
    m.computeYMin i ≤ y → y ≤ m.computeYMax i → ¬ m.ValidLine i y →
      ∃ j, j ≠ i ∧ m.FoundAt j x y y'
  /-- A column that is copied but not valid belongs to another sub-swath. -/
  rounding : ∀ i x x' y, m.InWidth x → m.InWidth x' → m.InHeight y → x' = x + 1 ∨ x = x' + 1 →
    m.FoundAt i x' y y → m.computeXMin i ≤ x → x ≤ m.computeXMax i → ¬ m.ValidColumn i x →
      ∃ j, m.FoundAt j x y y

/-- The sub-swaths found for the corners are around all those that cover a pixel between them. -/
def Surrounds (x0 x1 y0 y1 : Int) : Prop :=
  ∀ i < m.numberOfSubswaths, ∀ x y, (x0 ≤ x ∧ x ≤ x1) ∧ y0 ≤ y ∧ y ≤ y1 → m.Covers i x y →
    ∃ f l, m.findFirstAndLastSubSwathIndices (cornerTile x0 x1 y0 y1) = (some f, some l) ∧
      f ≤ i ∧ i ≤ l

section Surrounding

variable {m} {x0 x1 y0 y1 : Int}

omit [IsStrictOrderedRing T] [FloorRing T] in
theorem foundAt_covers {i : Nat} {x y y' : Int} (h : m.FoundAt i x y y') :
    m.Covers i x y ∨ m.Covers i x y' :=
  h.2.2.imp (fun htested => ⟨htested.validLine, h.2.1⟩) fun htested => ⟨htested.validLine, h.2.1⟩

omit [FloorRing T] in
/-- Left of a column, an earlier sub-swath is valid as far as a later one is. -/
theorem FoundAt.left {i j : Nat} {x : Int} (hi : m.FoundAt i x y0 y1) (hj : m.FoundAt j x0 y0 y1)
    (hij : i < j) (hx : x0 ≤ x) : m.FoundAt i x0 y0 y1 :=
  ⟨hi.1, ⟨((m.ordered i j hij hj.1).1).trans hj.2.1.1, (m.slrTime_mono hx).trans hi.2.1.2⟩, hi.2.2⟩

omit [FloorRing T] in
theorem FoundAt.right {i j : Nat} {x : Int} (hi : m.FoundAt i x y0 y1) (hj : m.FoundAt j x1 y0 y1)
    (hji : j < i) (hx : x ≤ x1) : m.FoundAt i x1 y0 y1 :=
  ⟨hi.1, ⟨hi.2.1.1.trans (m.slrTime_mono hx), hj.2.1.2.trans (m.ordered j i hji hi.1).2⟩, hi.2.2⟩

theorem TilesSafe.surrounds (h : m.TilesSafe) (hx : 0 ≤ x0 ∧ x0 ≤ x1 ∧ x1 < m.targetWidth)
    (hy : 0 ≤ y0 ∧ y0 ≤ y1 ∧ y1 < m.targetHeight) : m.Surrounds x0 x1 y0 y1 := by
  intro i hi x y hpix hcovers
  have hx0 : m.InWidth x0 := ⟨hx.1, by omega⟩
  have hx1 : m.InWidth x1 := ⟨by omega, hx.2.2⟩
  have hy0 : m.InHeight y0 := ⟨hy.1, by omega⟩
  have hy1 : m.InHeight y1 := ⟨by omega, hy.2.2⟩
  obtain ⟨⟨j, hji, hj⟩, k, hik, hk⟩ := h.lines i hi x y0 y y1 ⟨by omega, by omega⟩ hy0 hy1
    hpix.2.1 hpix.2.2 hcovers
  have hfinds := m.findFirstAndLastSubSwathIndices_cornerTile x0 x1 y0 y1
  cases hresult : m.findFirstAndLastSubSwathIndices (cornerTile x0 x1 y0 y1) with
  | mk first last =>
    rw [hresult] at hfinds
    cases hfinds with
    | @both f l hf hfirst hl hlast =>
      refine ⟨f, l, rfl, ?_, ?_⟩
      -- an earlier sub-swath at the pixel is found at the left corners as well
      · by_contra hlt
        exact hfirst j (by omega) (hj.left hf (by omega) hpix.1.1)
      · by_contra hlt
        exact hlast k (by omega) (hk.right hl (by omega) hpix.1.2)
    | @firstOnly f hf hfirst hnone =>
      -- nothing at the right corners: only one sub-swath from there to the left ones
      have hlt : x < x1 := by
        by_contra hge
        obtain rfl : x = x1 := by omega
        exact hnone j hj
      have hone := h.gaps x1 x x0 y0 y1 hx1 hx0 hy0 hy1 hy.2.1 (.inr ⟨hpix.1.1, hlt⟩) hnone
      have hfj := (hone j hj f).mp hf
      have hfk := (hone k hk f).mp hf
      exact ⟨f, f, rfl, by omega, by omega⟩
    | @lastOnly l hnone hl hlast =>
      have hlt : x0 < x := by
        by_contra hge
        obtain rfl : x = x0 := by omega
        exact hnone j hj
      have hone := h.gaps x0 x x1 y0 y1 hx0 hx1 hy0 hy1 hy.2.1 (.inl ⟨hlt, hpix.1.2⟩) hnone
      have hlj := (hone j hj l).mp hl
      have hlk := (hone k hk l).mp hl
      exact ⟨l, l, rfl, by omega, by omega⟩
    | neither hfirst hlast =>
      have hlt : x0 < x := by
        by_contra hge
        obtain rfl : x = x0 := by omega
        exact hfirst j hj
      have hone := h.gaps x0 x x1 y0 y1 hx0 hx1 hy0 hy1 hy.2.1 (.inl ⟨hlt, hpix.1.2⟩) hfirst
      exact absurd ((hone j hj j).mpr rfl) (hlast j)

omit [IsStrictOrderedRing T] [FloorRing T] in
/-- Where one sub-swath is found, no other covers a pixel. -/
theorem Surrounds.eq_of_one (h : m.Surrounds x0 x1 y0 y1) {i j : Nat}
    (hone : m.findFirstAndLastSubSwathIndices (cornerTile x0 x1 y0 y1) = (some i, some i))
    (hj : j < m.numberOfSubswaths) {x y : Int} (hpix : (x0 ≤ x ∧ x ≤ x1) ∧ y0 ≤ y ∧ y ≤ y1)
    (hcovers : m.Covers j x y) : j = i := by
  obtain ⟨f, l, hresult, hfj, hjl⟩ := h j hj x y hpix hcovers
  rw [hone] at hresult
  cases hresult
  omega

omit [IsStrictOrderedRing T] [FloorRing T] in
/-- The same for what is found at two lines. -/
theorem Surrounds.eq_of_foundAt (h : m.Surrounds x0 x1 y0 y1) {i j : Nat}
    (hone : m.findFirstAndLastSubSwathIndices (cornerTile x0 x1 y0 y1) = (some i, some i))
    {x y y' : Int} (hx : x0 ≤ x ∧ x ≤ x1) (hy : y0 ≤ y ∧ y ≤ y1) (hy' : y0 ≤ y' ∧ y' ≤ y1)
    (hj : m.FoundAt j x y y') : j = i := by
  rcases foundAt_covers hj with hcovers | hcovers
  · exact h.eq_of_one hone hj.1 ⟨hx, hy⟩ hcovers
  · exact h.eq_of_one hone hj.1 ⟨hx, hy'⟩ hcovers

omit [IsStrictOrderedRing T] [FloorRing T] in
/-- What is found for one column. -/
theorem lines_of_surrounds {x y : Int} (h : m.Surrounds x x y0 y1) (hy : y0 ≤ y ∧ y ≤ y1)
    {i : Nat} (hi : i < m.numberOfSubswaths) (hcovers : m.Covers i x y) :
    (∃ j ≤ i, m.FoundAt j x y0 y1) ∧ ∃ k, i ≤ k ∧ m.FoundAt k x y0 y1 := by
  obtain ⟨f, l, hresult, hfi, hil⟩ := h i hi x y ⟨⟨le_refl x, le_refl x⟩, hy⟩ hcovers
  have hfinds := m.findFirstAndLastSubSwathIndices_cornerTile x x y0 y1
  rw [hresult] at hfinds
  cases hfinds with
  | both hf hfirst hl hlast => exact ⟨⟨f, hfi, hf⟩, l, hil, hl⟩
  | firstOnly hf hfirst hnone => exact absurd hf (hnone f)
  | lastOnly hnone hl hlast => exact absurd hl (hnone f)

omit [IsStrictOrderedRing T] [FloorRing T] in
/-- A sub-swath found between corners that find nothing on one side is the only one there. -/
theorem one_of_surrounds (h : m.Surrounds x0 x1 y0 y1) (hy : y0 ≤ y1)
    (hnone : (∀ j, ¬ m.FoundAt j x0 y0 y1) ∨ ∀ j, ¬ m.FoundAt j x1 y0 y1) {i : Nat} {x : Int}
    (hx : x0 ≤ x ∧ x ≤ x1) (hi : m.FoundAt i x y0 y1) :
    m.findFirstAndLastSubSwathIndices (cornerTile x0 x1 y0 y1) = (some i, some i) ∧
      (m.FoundAt i x0 y0 y1 ∨ m.FoundAt i x1 y0 y1) := by
  obtain ⟨f, l, hresult, hfi, hil⟩ : ∃ f l, m.findFirstAndLastSubSwathIndices
      (cornerTile x0 x1 y0 y1) = (some f, some l) ∧ f ≤ i ∧ i ≤ l := by
    rcases foundAt_covers hi with hcovers | hcovers
    · exact h i hi.1 x y0 ⟨hx, le_refl y0, hy⟩ hcovers
    · exact h i hi.1 x y1 ⟨hx, hy, le_refl y1⟩ hcovers
  have hfinds := m.findFirstAndLastSubSwathIndices_cornerTile x0 x1 y0 y1
  rw [hresult] at hfinds ⊢
  cases hfinds with
  | both hf hfirst hl hlast =>
    cases hnone with
    | inl hleft => exact absurd hf (hleft f)
    | inr hright => exact absurd hl (hright l)
  | firstOnly hf hfirst hright =>
    obtain rfl : f = i := by omega
    exact ⟨rfl, .inl hf⟩
  | lastOnly hleft hl hlast =>
    obtain rfl : f = i := by omega
    exact ⟨rfl, .inr hl⟩

omit [IsStrictOrderedRing T] [FloorRing T] in
theorem gaps_of_surrounds (h : m.Surrounds x0 x1 y0 y1) (hx : x0 ≤ x1) (hy : y0 ≤ y1)
    {i : Nat} {x : Int} (hbetween : x0 ≤ x ∧ x ≤ x1) (hi : m.FoundAt i x y0 y1) :
    ((∀ j, ¬ m.FoundAt j x0 y0 y1) → ∀ j, m.FoundAt j x1 y0 y1 ↔ j = i) ∧
      ((∀ j, ¬ m.FoundAt j x1 y0 y1) → ∀ j, m.FoundAt j x0 y0 y1 ↔ j = i) := by
  refine ⟨fun hnone j => ?_, fun hnone j => ?_⟩
  · obtain ⟨hone, hfound⟩ := one_of_surrounds h hy (.inl hnone) hbetween hi
    refine ⟨h.eq_of_foundAt hone ⟨hx, le_refl x1⟩ ⟨le_refl y0, hy⟩ ⟨hy, le_refl y1⟩, ?_⟩
    rintro rfl
    exact hfound.resolve_left (hnone j)
  · obtain ⟨hone, hfound⟩ := one_of_surrounds h hy (.inr hnone) hbetween hi
    refine ⟨h.eq_of_foundAt hone ⟨le_refl x0, hx⟩ ⟨le_refl y0, hy⟩ ⟨hy, le_refl y1⟩, ?_⟩
    rintro rfl
    exact hfound.resolve_right (hnone j)

end Surrounding

/-! ## The two paths -/

section Paths

variable {m} {x0 x1 y0 y1 : Int}

/-- The pixel is in the part that is copied by rows. -/
def Copied (m : TopsarMergeOperator T) (i : Nat) (x y : Int) : Prop :=
  (m.computeYMin i ≤ y ∧ y ≤ m.computeYMax i) ∧ m.computeXMin i ≤ x ∧ x ≤ m.computeXMax i

instance (i : Nat) (x y : Int) : Decidable (m.Copied i x y) := inferInstanceAs (Decidable (_ ∧ _))

theorem Covers.copied {i : Nat} {x y : Int} (h : m.Covers i x y) : m.Copied i x y :=
  ⟨ValidLine.in_range h.1, ValidColumn.in_range h.2⟩

theorem readSource_ne_unwritten (i : Nat) (rect : Rectangle) (sx sy : Int) :
    readSource i rect sx sy ≠ .unwritten := by
  simp only [readSource]
  split
  · exact Sample.noConfusion
  · exact Sample.noConfusion

omit [IsStrictOrderedRing T] in
theorem computeTileInOneSwathFloat_eq {i : Nat} {x y : Int}
    (hpix : (x0 ≤ x ∧ x ≤ x1) ∧ y0 ≤ y ∧ y ≤ y1) :
    m.computeTileInOneSwathFloat (cornerTile x0 x1 y0 y1) i x y =
      if m.Copied i x y then
        readSource i (m.getSourceRectangle i (cornerTile x0 x1 y0 y1))
          (stdRound (m.samplePos i (max x0 (m.computeXMin i))) + (x - max x0 (m.computeXMin i)))
          (m.getLineIndexInSourceProduct i y)
      else .unwritten := by
  have hcopied : m.Copied i x y ↔ (max y0 (m.computeYMin i) ≤ y ∧
      y < min (y0 + (y1 - y0 + 1)) (m.computeYMax i + 1)) ∧ max x0 (m.computeXMin i) ≤ x ∧
        x < min (x0 + (x1 - x0 + 1)) (m.computeXMax i + 1) := by
    unfold Copied
    omega
  simp only [computeTileInOneSwathFloat, hcopied]
  rfl

omit [IsStrictOrderedRing T] in
theorem computeMultipleSubSwathFloat_one {i : Nat} {x y : Int} {tile : Rectangle} :
    m.computeMultipleSubSwathFloat tile i i x y =
      if m.Covers i x y then
        readSource i (m.getSourceRectangle i tile) (m.getSampleIndexInSourceProduct i x)
          (m.getLineIndexInSourceProduct i y)
      else .unwritten := by
  have hlength : i + 1 - i = 1 := Nat.add_sub_cancel_left i 1
  rw [computeMultipleSubSwathFloat, hlength, List.range'_one, getSubSwathIndex, subSwathLoop]
  by_cases hcovers : m.Covers i x y
  · rw [if_pos hcovers, if_pos hcovers]
    rfl
  · rw [if_neg hcovers, if_neg hcovers]
    rfl

/-- The paths agree where what is copied is valid. -/
theorem samePaths_iff {i : Nat} (hi : i < m.numberOfSubswaths) {x y : Int}
    (hpix : (x0 ≤ x ∧ x ≤ x1) ∧ y0 ≤ y ∧ y ≤ y1) :
    m.computeTileInOneSwathFloat (cornerTile x0 x1 y0 y1) i x y =
        m.computeMultipleSubSwathFloat (cornerTile x0 x1 y0 y1) i i x y ↔
      (m.Copied i x y → m.Covers i x y) := by
  rw [computeTileInOneSwathFloat_eq hpix, computeMultipleSubSwathFloat_one]
  by_cases hcovers : m.Covers i x y
  · have hsample := m.copied_sample_eq hi (le_max_right x0 (m.computeXMin i)) hcovers.2
    rw [if_pos hcovers, if_pos hcovers.copied, hsample]
    exact iff_of_true rfl fun _ => hcovers
  · rw [if_neg hcovers]
    by_cases hcopied : m.Copied i x y
    · rw [if_pos hcopied]
      exact iff_of_false (readSource_ne_unwritten _ _ _ _) fun h => hcovers (h hcopied)
    · rw [if_neg hcopied]
      exact iff_of_true rfl fun h => absurd h hcopied

omit [IsStrictOrderedRing T] [FloorRing T] in
theorem exists_foundAt_of_one {i : Nat}
    (hone : m.findFirstAndLastSubSwathIndices (cornerTile x0 x1 y0 y1) = (some i, some i)) :
    m.FoundAt i x0 y0 y1 ∨ m.FoundAt i x1 y0 y1 := by
  have hfinds := m.findFirstAndLastSubSwathIndices_cornerTile x0 x1 y0 y1
  rw [hone] at hfinds
  cases hfinds with
  | both hf hfirst hl hlast => exact .inl hf
  | firstOnly hf hfirst hnone => exact .inl hf
  | lastOnly hnone hl hlast => exact .inr hl

/-- What is copied beside a valid column is valid or next to a valid column. -/
theorem exists_next_validColumn {i : Nat} {x x' : Int} (hx' : m.ValidColumn i x')
    (hmin : m.computeXMin i ≤ x) (hmax : x ≤ m.computeXMax i) (hnot : ¬ m.ValidColumn i x) :
    (x' < x ∧ m.ValidColumn i (x - 1)) ∨ (x < x' ∧ m.ValidColumn i (x + 1)) := by
  rcases lt_trichotomy x' x with hlt | rfl | hlt
  · exact .inl ⟨hlt, hx'.1.trans (m.slrTime_mono (by omega)), m.slrTime_pred_le hmax⟩
  · exact absurd hx' hnot
  · exact .inr ⟨hlt, m.le_slrTime_succ hmin, (m.slrTime_mono (by omega)).trans hx'.2⟩

theorem TilesSafe.covers_of_copied (h : m.TilesSafe)
    (hx : 0 ≤ x0 ∧ x0 ≤ x1 ∧ x1 < m.targetWidth) (hy : 0 ≤ y0 ∧ y0 ≤ y1 ∧ y1 < m.targetHeight)
    {i : Nat}
    (hone : m.findFirstAndLastSubSwathIndices (cornerTile x0 x1 y0 y1) = (some i, some i))
    {x y : Int} (hpix : (x0 ≤ x ∧ x ≤ x1) ∧ y0 ≤ y ∧ y ≤ y1) (hcopied : m.Copied i x y) :
    m.Covers i x y := by
  have hsurrounds := h.surrounds hx hy
  -- the column of a corner and a corner line that the sub-swath was found at
  obtain ⟨x', hx', hfound⟩ : ∃ x', (x0 ≤ x' ∧ x' ≤ x1) ∧ m.FoundAt i x' y0 y1 := by
    cases exists_foundAt_of_one hone with
    | inl hfound => exact ⟨x0, ⟨le_refl x0, hx.2.1⟩, hfound⟩
    | inr hfound => exact ⟨x1, ⟨hx.2.1, le_refl x1⟩, hfound⟩
  obtain ⟨y', hy', htested⟩ : ∃ y', (y0 ≤ y' ∧ y' ≤ y1) ∧ m.TestedLine i y' := by
    cases hfound.2.2 with
    | inl htested => exact ⟨y0, ⟨le_refl y0, hy.2.1⟩, htested⟩
    | inr htested => exact ⟨y1, ⟨hy.2.1, le_refl y1⟩, htested⟩
  have hrow : m.InHeight y' := ⟨by omega, by omega⟩
  have hcol : m.InWidth x := ⟨by omega, by omega⟩
  by_cases hvalid : m.ValidColumn i x
  -- another sub-swath has the column at one of the two lines
  · refine ⟨?_, hvalid⟩
    by_contra hline
    obtain ⟨j, hne, hj⟩ := h.lineRange i x y y' hcol ⟨by omega, by omega⟩ hrow
      ⟨hfound.1, hvalid, .inl htested⟩ hcopied.1.1 hcopied.1.2 hline
    exact hne (hsurrounds.eq_of_foundAt hone hpix.1 hpix.2 hy' hj)
  -- another sub-swath has the column at the corner line
  · have hother : ∃ j, m.FoundAt j x y' y' := by
      rcases exists_next_validColumn hfound.2.1 hcopied.2.1 hcopied.2.2 hvalid with
        ⟨hlt, hnext⟩ | ⟨hlt, hnext⟩
      · exact h.rounding i x (x - 1) y' hcol ⟨by omega, by omega⟩ hrow (.inr (by omega))
          ⟨hfound.1, hnext, .inl htested⟩ hcopied.2.1 hcopied.2.2 hvalid
      · exact h.rounding i x (x + 1) y' hcol ⟨by omega, by omega⟩ hrow (.inl rfl)
          ⟨hfound.1, hnext, .inl htested⟩ hcopied.2.1 hcopied.2.2 hvalid
    obtain ⟨j, hj⟩ := hother
    have heq : j = i := hsurrounds.eq_of_foundAt hone hpix.1 hy' hy' hj
    rw [heq] at hj
    exact absurd hj.2.1 hvalid

end Paths

/-! ## The pixel without tiles -/

section Pixels

variable {m} {x0 x1 y0 y1 : Int}

omit [IsStrictOrderedRing T] [FloorRing T] in
theorem subSwathLoop_some (x y : Int) (is : List Nat) (swath0 : Nat) :
    m.subSwathLoop x y is (some swath0) =
      (some swath0, (is.filter fun i => m.Covers i x y).head?) := by
  induction is with
  | nil => rfl
  | cons i is ih =>
    by_cases hcovers : m.Covers i x y
    · rw [subSwathLoop, if_pos hcovers, List.filter_cons, if_pos (decide_eq_true hcovers)]
      rfl
    · rw [subSwathLoop, if_neg hcovers, ih, List.filter_cons, if_neg (by simpa using hcovers)]

omit [IsStrictOrderedRing T] [FloorRing T] in
/-- The loop finds the first two sub-swaths that cover the pixel. -/
theorem subSwathLoop_none (x y : Int) (is : List Nat) :
    m.subSwathLoop x y is none = ((is.filter fun i => m.Covers i x y).head?,
      (is.filter fun i => m.Covers i x y).tail.head?) := by
  induction is with
  | nil => rfl
  | cons i is ih =>
    by_cases hcovers : m.Covers i x y
    · rw [subSwathLoop, if_pos hcovers, subSwathLoop_some, List.filter_cons,
        if_pos (decide_eq_true hcovers)]
      rfl
    · rw [subSwathLoop, if_neg hcovers, ih, List.filter_cons, if_neg (by simpa using hcovers)]

/-- The sub-swath of a pixel, among all of them. -/
def pixelSubSwath (m : TopsarMergeOperator T) (x y : Int) : Option Nat :=
  m.getSubSwathIndex x y (List.range m.numberOfSubswaths)

/-- What a pixel holds, whatever its tile. -/
def pixelSource (m : TopsarMergeOperator T) (x y : Int) : Sample :=
  match m.pixelSubSwath x y with
  | none => .unwritten
  | some i => .source i (m.getSampleIndexInSourceProduct i x) (m.getLineIndexInSourceProduct i y)

omit [IsStrictOrderedRing T] [FloorRing T] in
/-- The sub-swaths around those that cover the pixel are enough. -/
theorem getSubSwathIndex_range' {x y : Int} {f l : Nat} (hl : l < m.numberOfSubswaths)
    (haround : ∀ i < m.numberOfSubswaths, m.Covers i x y → f ≤ i ∧ i ≤ l) :
    m.getSubSwathIndex x y (List.range' f (l + 1 - f)) = m.pixelSubSwath x y := by
  have hfilter : (List.range' f (l + 1 - f)).filter (fun i => m.Covers i x y) =
      (List.range m.numberOfSubswaths).filter fun i => m.Covers i x y := by
    refine List.Pairwise.eq_of_mem_iff ((List.pairwise_lt_range' ..).filter _)
      (List.pairwise_lt_range.filter _) fun {i} => ?_
    rw [List.mem_filter, List.mem_filter, List.mem_range'_1, List.mem_range, decide_eq_true_eq]
    refine ⟨fun h => ⟨by omega, h.2⟩, fun h => ⟨?_, h.2⟩⟩
    have hbounds := haround i h.1 h.2
    omega
  rw [pixelSubSwath, getSubSwathIndex, getSubSwathIndex, subSwathLoop_none, subSwathLoop_none,
    hfilter]

omit [IsStrictOrderedRing T] [FloorRing T] in
theorem chosenSubSwath_eq_none {x : Int} {is : List Nat} :
    m.chosenSubSwath x (is.head?, is.tail.head?) = none ↔ is = [] := by
  rcases is with _ | ⟨i, _ | ⟨j, rest⟩⟩
  · exact iff_of_true rfl rfl
  · exact iff_of_false (Option.some_ne_none i) (List.cons_ne_nil i [])
  · refine iff_of_false ?_ (List.cons_ne_nil i (j :: rest))
    simp only [chosenSubSwath, List.head?_cons, List.tail_cons]
    split
    · exact Option.some_ne_none j
    · exact Option.some_ne_none i

omit [IsStrictOrderedRing T] [FloorRing T] in
theorem pixelSubSwath_eq_none {x y : Int} :
    m.pixelSubSwath x y = none ↔ ∀ i < m.numberOfSubswaths, ¬ m.Covers i x y := by
  rw [pixelSubSwath, getSubSwathIndex, subSwathLoop_none, chosenSubSwath_eq_none,
    List.filter_eq_nil_iff]
  simp only [List.mem_range, decide_eq_true_eq]

/-- The source rectangle of a tile holds the source pixels of its pixels. -/
theorem readSource_eq (i : Nat) {x y : Int} (hpix : (x0 ≤ x ∧ x ≤ x1) ∧ y0 ≤ y ∧ y ≤ y1) :
    readSource i (m.getSourceRectangle i (cornerTile x0 x1 y0 y1))
        (m.getSampleIndexInSourceProduct i x) (m.getLineIndexInSourceProduct i y) =
      .source i (m.getSampleIndexInSourceProduct i x) (m.getLineIndexInSourceProduct i y) := by
  have hleft := m.getSampleIndexInSourceProduct_mono i hpix.1.1
  have hright := m.getSampleIndexInSourceProduct_mono i
    (show x ≤ x0 + (x1 - x0 + 1) - 1 by omega)
  have htop := m.getLineIndexInSourceProduct_mono i hpix.2.1
  have hbottom := m.getLineIndexInSourceProduct_mono i
    (show y ≤ y0 + (y1 - y0 + 1) - 1 by omega)
  have hcontains : (m.getSourceRectangle i (cornerTile x0 x1 y0 y1)).Contains
      (m.getSampleIndexInSourceProduct i x) (m.getLineIndexInSourceProduct i y) := by
    simp only [Rectangle.Contains, getSourceRectangle, cornerTile]
    omega
  obtain ⟨hindex, hcolumn, hline⟩ := Rectangle.flatIndex hcontains
  simp only [readSource]
  rw [if_pos hindex, hcolumn, hline]

theorem computeMultipleSubSwathFloat_eq {x y : Int} {f l : Nat} (hl : l < m.numberOfSubswaths)
    (hpix : (x0 ≤ x ∧ x ≤ x1) ∧ y0 ≤ y ∧ y ≤ y1)
    (haround : ∀ i < m.numberOfSubswaths, m.Covers i x y → f ≤ i ∧ i ≤ l) :
    m.computeMultipleSubSwathFloat (cornerTile x0 x1 y0 y1) f l x y = m.pixelSource x y := by
  rw [computeMultipleSubSwathFloat, getSubSwathIndex_range' hl haround, pixelSource]
  cases m.pixelSubSwath x y with
  | none => rfl
  | some i => exact readSource_eq i hpix

/-- **The pixels of a tile.** -/
theorem TilesSafe.computeTileStack_eq (h : m.TilesSafe)
    (hx : 0 ≤ x0 ∧ x0 ≤ x1 ∧ x1 < m.targetWidth) (hy : 0 ≤ y0 ∧ y0 ≤ y1 ∧ y1 < m.targetHeight)
    {x y : Int} (hpix : (x0 ≤ x ∧ x ≤ x1) ∧ y0 ≤ y ∧ y ≤ y1) :
    m.computeTileStack (cornerTile x0 x1 y0 y1) x y = m.pixelSource x y := by
  have hsurrounds := h.surrounds hx hy
  have hfinds := m.findFirstAndLastSubSwathIndices_cornerTile x0 x1 y0 y1
  have hempty : (∀ i < m.numberOfSubswaths, ¬ m.Covers i x y) →
      m.pixelSource x y = .unwritten := by
    intro hnone
    rw [pixelSource, pixelSubSwath_eq_none.mpr hnone]
  cases hresult : m.findFirstAndLastSubSwathIndices (cornerTile x0 x1 y0 y1) with
  | mk first last =>
    rw [hresult] at hfinds
    -- what is around the sub-swaths of the pixel, and what one sub-swath alone gives
    have haround : ∀ i < m.numberOfSubswaths, m.Covers i x y →
        ∃ f l, (first, last) = (some f, some l) ∧ f ≤ i ∧ i ≤ l := by
      intro i hi hcovers
      rw [← hresult]
      exact hsurrounds i hi x y hpix hcovers
    have hone : ∀ i, (first, last) = (some i, some i) → i < m.numberOfSubswaths →
        m.computeTileInOneSwathFloat (cornerTile x0 x1 y0 y1) i x y = m.pixelSource x y := by
      intro i heq hi
      rw [(samePaths_iff hi hpix).mpr (h.covers_of_copied hx hy (hresult.trans heq) hpix)]
      refine computeMultipleSubSwathFloat_eq hi hpix fun j hj hcovers => ?_
      have hji := hsurrounds.eq_of_one (hresult.trans heq) hj hpix hcovers
      omega
    rw [computeTileStack, hresult]
    cases hfinds with
    | @both f l hf hfirst hl hlast =>
      simp only
      -- the two may be one
      split
      · next heq =>
        subst heq
        exact hone _ rfl hf.1
      · refine computeMultipleSubSwathFloat_eq hl.1 hpix fun i hi hcovers => ?_
        obtain ⟨f', l', heq, hbounds⟩ := haround i hi hcovers
        cases heq
        exact hbounds
    | firstOnly hf hfirst hnone => exact (if_pos rfl).trans (hone _ rfl hf.1)
    | lastOnly hnone hl hlast => exact (if_pos rfl).trans (hone _ rfl hl.1)
    | neither hfirst hlast =>
      -- no sub-swath covers the pixel, as those that do are between two that are found
      refine (hempty fun i hi hcovers => ?_).symm
      obtain ⟨f, l, heq, -⟩ := haround i hi hcovers
      cases heq

end Pixels

/-! ## Results -/

section Results

variable {m}

omit [IsStrictOrderedRing T] [FloorRing T] in
theorem foundAt_min_max {i : Nat} {x y y' : Int} :
    m.FoundAt i x (min y y') (max y y') ↔ m.FoundAt i x y y' := by
  unfold FoundAt Tested
  rcases le_total y y' with hle | hle
  · rw [min_eq_left hle, max_eq_right hle]
  · rw [min_eq_right hle, max_eq_left hle, or_comm]

omit [IsStrictOrderedRing T] [FloorRing T] in
/-- In a tile of one column, a sub-swath that is found alone is the first and the last. -/
theorem one_of_alone {i : Nat} {x y0 y1 : Int} (hi : m.FoundAt i x y0 y1)
    (halone : ∀ j, m.FoundAt j x y0 y1 → j = i) :
    m.findFirstAndLastSubSwathIndices (cornerTile x x y0 y1) = (some i, some i) := by
  have hfinds := m.findFirstAndLastSubSwathIndices_cornerTile x x y0 y1
  cases hresult : m.findFirstAndLastSubSwathIndices (cornerTile x x y0 y1) with
  | mk first last =>
    rw [hresult] at hfinds
    cases hfinds with
    | both hf hfirst hl hlast => rw [halone _ hf, halone _ hl]
    | firstOnly hf hfirst hnone => exact absurd hi (hnone i)
    | lastOnly hnone hl hlast => exact absurd hi (hnone i)
    | neither hfirst hlast => exact absurd hi (hfirst i)

theorem mergeCorrect_of_tilesSafe (h : m.TilesSafe) : m.MergeCorrect := by
  -- every tile gives its pixels what they hold whatever the tile
  have hpixels : ∀ tile : Rectangle, tile.Inside m.targetWidth m.targetHeight → ∀ x y,
      tile.Contains x y → m.computeTileStack tile x y = m.pixelSource x y := by
    intro tile ht x y hpix
    obtain ⟨x0, x1, y0, y1, rfl, hx, hy⟩ := exists_cornerTile ht
    exact h.computeTileStack_eq hx hy (cornerTile_contains.mp hpix)
  have hindependent : TileIndependent m.computeTileStack (fun _ _ => .unwritten) m.targetWidth
      m.targetHeight := by
    refine (tileIndependent_iff _).mpr fun tile ht x y hpix => ?_
    have hunit : (Rectangle.unit x y).Inside m.targetWidth m.targetHeight := by
      simp only [Rectangle.Inside, Rectangle.Contains, Rectangle.unit] at ht hpix ⊢
      omega
    rw [hpixels tile ht x y hpix, hpixels _ hunit x y (Rectangle.unit_contains_self x y)]
  refine ⟨hindependent, ?_, ?_, ?_⟩
  · intro tiles hpart x y hx hxW hy hyH hcovered
    rw [compute, hindependent.image_eq _ hpart hx hxW hy hyH,
      hpixels _ (Rectangle.unit_inside hx hxW hy hyH) x y (Rectangle.unit_contains_self x y),
      pixelSource]
    cases hsource : m.pixelSubSwath x y with
    | none =>
      obtain ⟨i, hi, hcovers⟩ := hcovered
      exact absurd hcovers (pixelSubSwath_eq_none.mp hsource i hi)
    | some i => exact ⟨i, _, _, rfl⟩
  · intro tile ht i hi x y hpix hcovers
    obtain ⟨x0, x1, y0, y1, rfl, hx, hy⟩ := exists_cornerTile ht
    exact h.surrounds hx hy i hi x y (cornerTile_contains.mp hpix) hcovers
  · intro tile ht i hone x y hpix
    obtain ⟨x0, x1, y0, y1, rfl, hx, hy⟩ := exists_cornerTile ht
    have hi : i < m.numberOfSubswaths := by
      cases exists_foundAt_of_one hone with
      | inl hfound => exact hfound.1
      | inr hfound => exact hfound.1
    have hpix := cornerTile_contains.mp hpix
    exact (samePaths_iff hi hpix).mpr (h.covers_of_copied hx hy hone hpix)

/-- In a correct merge, what is copied in a tile of one sub-swath is valid. -/
theorem MergeCorrect.covers_of_copied (h : m.MergeCorrect) {x0 x1 y0 y1 : Int}
    (hx : 0 ≤ x0 ∧ x0 ≤ x1 ∧ x1 < m.targetWidth) (hy : 0 ≤ y0 ∧ y0 ≤ y1 ∧ y1 < m.targetHeight)
    {i : Nat} (hi : i < m.numberOfSubswaths)
    (hone : m.findFirstAndLastSubSwathIndices (cornerTile x0 x1 y0 y1) = (some i, some i))
    {x y : Int} (hpix : (x0 ≤ x ∧ x ≤ x1) ∧ y0 ≤ y ∧ y ≤ y1) (hcopied : m.Copied i x y) :
    m.Covers i x y := by
  apply (samePaths_iff hi hpix).mp _ hcopied
  exact h.samePaths _ (cornerTile_inside hx.1 hx.2.1 hx.2.2 hy.1 hy.2.1 hy.2.2) i hone x y
    (cornerTile_contains.mpr hpix)

omit [IsStrictOrderedRing T] in
theorem MergeCorrect.surrounds (h : m.MergeCorrect) {x0 x1 y0 y1 : Int}
    (hx : 0 ≤ x0 ∧ x0 ≤ x1 ∧ x1 < m.targetWidth)
    (hy : 0 ≤ y0 ∧ y0 ≤ y1 ∧ y1 < m.targetHeight) : m.Surrounds x0 x1 y0 y1 := by
  intro i hi x y hpix hcovers
  exact h.surrounded _ (cornerTile_inside hx.1 hx.2.1 hx.2.2 hy.1 hy.2.1 hy.2.2) i hi x y
    (cornerTile_contains.mpr hpix) hcovers

/-- A tile of one column, with the copied line and the line that is found. -/
theorem MergeCorrect.lineRange (h : m.MergeCorrect) {i : Nat} {x y y' : Int} (hx : m.InWidth x)
    (hy : m.InHeight y) (hy' : m.InHeight y') (hfound : m.FoundAt i x y' y')
    (hmin : m.computeYMin i ≤ y) (hmax : y ≤ m.computeYMax i) (hline : ¬ m.ValidLine i y) :
    ∃ j, j ≠ i ∧ m.FoundAt j x y y' := by
  by_contra hnone
  have halone : ∀ j, m.FoundAt j x (min y y') (max y y') → j = i := by
    intro j hj
    by_contra hne
    exact hnone ⟨j, hne, foundAt_min_max.mp hj⟩
  have hi : m.FoundAt i x (min y y') (max y y') :=
    foundAt_min_max.mpr ⟨hfound.1, hfound.2.1, .inr (or_self_iff.mp hfound.2.2)⟩
  have hcovers : m.Covers i x y := by
    apply h.covers_of_copied ⟨hx.1, le_refl x, hx.2⟩
      ⟨le_min hy.1 hy'.1, min_le_max, max_lt hy.2 hy'.2⟩ hfound.1 (one_of_alone hi halone)
    · exact ⟨⟨le_refl x, le_refl x⟩, min_le_left y y', le_max_left y y'⟩
    · exact ⟨⟨hmin, hmax⟩, ValidColumn.in_range hfound.2.1⟩
  exact hline hcovers.1

/-- A tile of one line, between a copied column that finds nothing and one that is found. -/
theorem MergeCorrect.rounding (h : m.MergeCorrect) {i : Nat} {x0 x1 x x' y : Int}
    (hx : 0 ≤ x0 ∧ x0 ≤ x1 ∧ x1 < m.targetWidth) (hy : m.InHeight y)
    (hends : x = x0 ∧ x' = x1 ∨ x = x1 ∧ x' = x0) (hfound : m.FoundAt i x' y y)
    (hmin : m.computeXMin i ≤ x) (hmax : x ≤ m.computeXMax i) (hcolumn : ¬ m.ValidColumn i x) :
    ∃ j, m.FoundAt j x y y := by
  by_contra hnone
  have hrow : 0 ≤ y ∧ y ≤ y ∧ y < m.targetHeight := ⟨hy.1, le_refl y, hy.2⟩
  have hside : (∀ j, ¬ m.FoundAt j x0 y y) ∨ ∀ j, ¬ m.FoundAt j x1 y y := by
    cases hends with
    | inl hleft => exact .inl fun j hj => hnone ⟨j, hleft.1 ▸ hj⟩
    | inr hright => exact .inr fun j hj => hnone ⟨j, hright.1 ▸ hj⟩
  have hone := (one_of_surrounds (h.surrounds hx hrow) (le_refl y) hside (x := x')
    (by omega) hfound).1
  have hcovers : m.Covers i x y := by
    apply h.covers_of_copied hx hrow hfound.1 hone
    · exact ⟨by omega, le_refl y, le_refl y⟩
    · exact ⟨ValidLine.in_range (or_self_iff.mp hfound.2.2).validLine, hmin, hmax⟩
  exact hcolumn hcovers.2

theorem tilesSafe_of_mergeCorrect (h : m.MergeCorrect) : m.TilesSafe where
  lines i hi x y0 y y1 hx hy0 hy1 hle hle' hcovers := by
    have hsurrounds : m.Surrounds x x y0 y1 :=
      h.surrounds ⟨hx.1, le_refl x, hx.2⟩ ⟨hy0.1, hle.trans hle', hy1.2⟩
    exact lines_of_surrounds hsurrounds ⟨hle, hle'⟩ hi hcovers
  gaps x x' x'' y0 y1 hx hx'' hy0 hy1 hy hbetween hnone i hi := by
    have hrow : 0 ≤ y0 ∧ y0 ≤ y1 ∧ y1 < m.targetHeight := ⟨hy0.1, hy, hy1.2⟩
    cases hbetween with
    | inl hright =>
      have hsurrounds : m.Surrounds x x'' y0 y1 := h.surrounds ⟨hx.1, by omega, hx''.2⟩ hrow
      exact (gaps_of_surrounds hsurrounds (by omega) hy ⟨by omega, by omega⟩ hi).1 hnone
    | inr hleft =>
      have hsurrounds : m.Surrounds x'' x y0 y1 := h.surrounds ⟨hx''.1, by omega, hx.2⟩ hrow
      exact (gaps_of_surrounds hsurrounds (by omega) hy ⟨by omega, by omega⟩ hi).2 hnone
  lineRange i x y y' hx hy hy' hfound hmin hmax hline :=
    h.lineRange hx hy hy' hfound hmin hmax hline
  rounding i x x' y hx hx' hy hnext hfound hmin hmax hcolumn := by
    cases hnext with
    | inl hright =>
      exact h.rounding ⟨hx.1, by omega, hx'.2⟩ hy (.inl ⟨rfl, rfl⟩) hfound hmin hmax hcolumn
    | inr hleft =>
      exact h.rounding ⟨hx'.1, by omega, hx.2⟩ hy (.inr ⟨rfl, rfl⟩) hfound hmin hmax hcolumn

/-- **When the merge does not depend on the tiles.** -/
theorem mergeCorrect_iff : m.MergeCorrect ↔ m.TilesSafe :=
  ⟨tilesSafe_of_mergeCorrect, mergeCorrect_of_tilesSafe⟩

end Results

end TopsarMergeOperator

theorem unitInterval_pos : (0 : ℚ) < 1 := one_pos

/-- The spacing of which the signal passes one in a unit of time. -/
theorem unitSpacing_pos : (0 : ℚ) < 299792458 := by norm_num

theorem fourLines_pos : (0 : Int) < 4 := by norm_num

/-- Two sub-swaths of four columns, which share one, on the lines from 0 to 3. -/
def twoSubSwaths (lastValid : ℚ) (hlast : lastValid ≤ 3) : TopsarMergeOperator ℚ where
  numberOfSubswaths := 2
  info i := {
    slrTimeToFirstValidPixel := 3 * i
    slrTimeToLastValidPixel := 3 * i + 3
    firstValidLineTime := 0
    lastValidLineTime := lastValid
    firstLineTime := 0
    lastLineTime := 3
    azimuthTimeInterval := 1
    slrTimeToFirstPixel := 3 * i
    slrTimeToLastPixel := 3 * i + 3
    numberOfSamples := 4
    numberOfLines := 4
    rangePixelSpacing := 299792458
    interval_pos := unitInterval_pos
    spacing_pos := unitSpacing_pos
    samples_pos := fourLines_pos
    lines_pos := fourLines_pos
    firstLineTime_le := le_refl 0
    lastValidLineTime_le := hlast
    firstPixel_le := le_refl _
    lastValidPixel_le := le_refl _
    slrTimeToLastPixel_eq := by norm_num [lightSpeed] }
  subswaths_pos := Nat.two_pos
  ordered i j hij _ := by
    have h : (i : ℚ) < j := by exact_mod_cast hij
    exact ⟨by linarith, by linarith⟩
  sameSpacing _ _ := rfl

section Example

open TopsarMergeOperator

variable (lastValid : ℚ) (hlast : lastValid ≤ 3)

theorem twoSubSwaths_slrTime (x : Int) : (twoSubSwaths lastValid hlast).slrTime x = x := by
  simp [slrTime, targetSlrTimeToFirstPixel, targetDeltaSlrTime, twoSubSwaths, lightSpeed]

theorem twoSubSwaths_lineTime (y : Int) : (twoSubSwaths lastValid hlast).lineTime y = y := by
  simp [lineTime, targetFirstLineTime, targetLineTimeInterval, twoSubSwaths, List.range_succ]

theorem twoSubSwaths_width : (twoSubSwaths lastValid hlast).targetWidth = 6 := by
  have hcolumns : ((twoSubSwaths lastValid hlast).targetSlrTimeToLastPixel -
      (twoSubSwaths lastValid hlast).targetSlrTimeToFirstPixel) /
      (twoSubSwaths lastValid hlast).targetDeltaSlrTime = ((6 : Int) : ℚ) := by
    norm_num [targetSlrTimeToLastPixel, targetSlrTimeToFirstPixel, targetDeltaSlrTime,
      twoSubSwaths, lightSpeed]
  rw [targetWidth, hcolumns, toInt_intCast]

theorem twoSubSwaths_height : (twoSubSwaths lastValid hlast).targetHeight = 3 := by
  have hlines : ((twoSubSwaths lastValid hlast).targetLastLineTime -
      (twoSubSwaths lastValid hlast).targetFirstLineTime) /
      (twoSubSwaths lastValid hlast).targetLineTimeInterval = ((3 : Int) : ℚ) := by
    norm_num [targetLastLineTime, targetFirstLineTime, targetLineTimeInterval, twoSubSwaths,
      List.range_succ]
  rw [targetHeight, hlines, toInt_intCast]

theorem twoSubSwaths_testedLine {i : Nat} {y : Int} :
    (twoSubSwaths lastValid hlast).TestedLine i y ↔ 0 ≤ y ∧ (y : ℚ) < lastValid := by
  rw [TestedLine, twoSubSwaths_lineTime]
  exact and_congr_left fun _ => Int.cast_nonneg_iff

/-- Every column of the raster is valid for one of the two. -/
theorem twoSubSwaths_validColumn {x : Int} (hx : (twoSubSwaths lastValid hlast).InWidth x) :
    ∃ i < 2, (twoSubSwaths lastValid hlast).ValidColumn i x := by
  rw [InWidth, twoSubSwaths_width] at hx
  have hlow : (0 : ℚ) ≤ x := by exact_mod_cast hx.1
  have hhigh : (x : ℚ) < 6 := by exact_mod_cast hx.2
  rcases le_total x 3 with hle | hle
  · have hcast : (x : ℚ) ≤ 3 := by exact_mod_cast hle
    refine ⟨0, Nat.two_pos, ?_⟩
    rw [ValidColumn, twoSubSwaths_slrTime]
    norm_num [twoSubSwaths]
    exact ⟨hx.1, hcast⟩
  · have hcast : (3 : ℚ) ≤ x := by exact_mod_cast hle
    refine ⟨1, Nat.one_lt_two, ?_⟩
    rw [ValidColumn, twoSubSwaths_slrTime]
    norm_num [twoSubSwaths]
    exact ⟨hcast, hhigh.le⟩

end Example

/-- When all the lines of the raster are before the last valid one, no tile is wrong. -/
theorem mergeCorrect_allLines : (twoSubSwaths 3 le_rfl).MergeCorrect := by
  have htested : ∀ i y, (twoSubSwaths 3 le_rfl).InHeight y →
      (twoSubSwaths 3 le_rfl).TestedLine i y := by
    intro i y hy
    rw [TopsarMergeOperator.InHeight, twoSubSwaths_height] at hy
    exact (twoSubSwaths_testedLine 3 le_rfl).mpr ⟨hy.1, by exact_mod_cast hy.2⟩
  have hfound : ∀ x y y', (twoSubSwaths 3 le_rfl).InWidth x →
      (twoSubSwaths 3 le_rfl).InHeight y → ∃ j, (twoSubSwaths 3 le_rfl).FoundAt j x y y' := by
    intro x y y' hx hy
    obtain ⟨i, hi, hcolumn⟩ := twoSubSwaths_validColumn 3 le_rfl hx
    exact ⟨i, hi, hcolumn, .inl (htested i y hy)⟩
  refine TopsarMergeOperator.mergeCorrect_iff.mpr ⟨?_, ?_, ?_, ?_⟩
  · intro i hi x y0 y y1 _ hy0 _ _ _ hcovers
    have hself : (twoSubSwaths 3 le_rfl).FoundAt i x y0 y1 :=
      ⟨hi, hcovers.2, .inl (htested i y0 hy0)⟩
    exact ⟨⟨i, le_refl i, hself⟩, i, le_refl i, hself⟩
  · intro x x' x'' y0 y1 hx _ hy0 _ _ _ hnone
    obtain ⟨j, hj⟩ := hfound x y0 y1 hx hy0
    exact absurd hj (hnone j)
  · intro i x y y' _ hy _ _ _ _ hline
    exact absurd (htested i y hy).validLine hline
  · intro i x x' y hx _ hy _ _ _ _ _
    exact hfound x y y hx hy

/-- The last valid line is on the raster, and a tile of that line finds no sub-swath. -/
theorem not_mergeCorrect_lastLine : ¬ (twoSubSwaths 2 (by norm_num)).MergeCorrect := by
  intro h
  have hx : (twoSubSwaths 2 (by norm_num)).InWidth 0 := by
    rw [TopsarMergeOperator.InWidth, twoSubSwaths_width]
    decide
  have hy : (twoSubSwaths 2 (by norm_num)).InHeight 2 := by
    rw [TopsarMergeOperator.InHeight, twoSubSwaths_height]
    decide
  have hcovers : (twoSubSwaths 2 (by norm_num)).Covers 0 0 2 := by
    rw [TopsarMergeOperator.Covers, TopsarMergeOperator.ValidLine,
      TopsarMergeOperator.ValidColumn, twoSubSwaths_lineTime, twoSubSwaths_slrTime]
    norm_num [twoSubSwaths]
  obtain ⟨⟨j, -, hj⟩, -⟩ := (TopsarMergeOperator.tilesSafe_of_mergeCorrect h).lines 0 Nat.two_pos
    0 2 2 2 hx hy hy (le_refl 2) (le_refl 2) hcovers
  have htested := (twoSubSwaths_testedLine 2 (by norm_num)).mp (or_self_iff.mp hj.2.2)
  norm_num at htested

end Alus.TopsarMerge
