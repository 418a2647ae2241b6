import Alus.TopsarDeburst.DeburstTiles

/-!
# The row copy of the deburst operator

The target raster of a product of several sub-swaths has the line times and the columns of the
first one, and a later one need not have its samples at the same columns. For each line of a tile
the operator copies a part of one row of the source rectangle. The rectangle is computed from the
corners of the tile, with clamped columns; the copy computes where its row begins on its own.
-/

namespace Alus.TopsarDeburst

open Alus.Lib SubSwathInfo

/-- A part of a row of the source that is copied to a line of the target. -/
structure RowCopy where
  y : Int
  sy : Int
  sx : Int
  length : Int
  deriving DecidableEq, Repr

/-- The sub-swaths of the product, from near to far range. -/
structure TOPSARDeburstOp (T : Type) [Field T] [LinearOrder T] where
  subSwaths : List (SubSwathInfo T)
  nonempty : subSwaths ≠ []
  samples_pos : ∀ s ∈ subSwaths, 0 < s.numOfSamples

namespace TOPSARDeburstOp

variable {T : Type} [Field T] [LinearOrder T] [IsStrictOrderedRing T] [FloorRing T]
  (op : TOPSARDeburstOp T)

/-! ## The target raster -/

/-- `su_->subswath_.at(0)`. -/
def first : SubSwathInfo T := op.subSwaths.head op.nonempty

def targetFirstLineTime : T :=
  op.subSwaths.tail.foldl (fun t s => if t > s.firstLineTime then s.firstLineTime else t)
    op.first.firstLineTime

def targetLineTimeInterval : T := op.first.azimuthTimeInterval

def targetSlantRangeTimeToFirstPixel : T := op.first.slrTimeToFirstPixel

def targetDeltaSlantRangeTime : T := op.first.rangePixelSpacing / (lightSpeed : T)

def lineTime (y : Int) : T := op.targetFirstLineTime + (y : T) * op.targetLineTimeInterval

/-- Where the column lies in the rows of the sub-swath, counted in columns from its first sample. -/
def samplePosition (s : SubSwathInfo T) (x : Int) : T :=
  (op.targetSlantRangeTimeToFirstPixel + (x : T) * op.targetDeltaSlantRangeTime -
    s.slrTimeToFirstPixel) / op.targetDeltaSlantRangeTime

def computeYMin (s : SubSwathInfo T) : Int :=
  toInt ((s.firstValidLineTime - op.targetFirstLineTime) / op.targetLineTimeInterval)

def computeYMax (s : SubSwathInfo T) : Int :=
  toInt ((s.lastValidLineTime - op.targetFirstLineTime) / op.targetLineTimeInterval)

def computeXMin (s : SubSwathInfo T) : Int :=
  toInt ((s.slrTimeToFirstValidPixel - op.targetSlantRangeTimeToFirstPixel) /
    op.targetDeltaSlantRangeTime)

def computeXMax (s : SubSwathInfo T) : Int :=
  toInt ((s.slrTimeToLastValidPixel - op.targetSlantRangeTimeToFirstPixel) /
    op.targetDeltaSlantRangeTime)

/-! ## One tile in one sub-swath -/

def getLineIndicesInSourceProduct (s : SubSwathInfo T) (ty : Int) (burstTimes : BurstInfo T) :
    Bool × BurstInfo T :=
  s.lineIndicesAt (op.lineTime ty) burstTimes

def getSampleIndexInSourceProduct (s : SubSwathInfo T) (tx : Int) : Int :=
  let sx := toInt (op.samplePosition s tx + 1 / 2)
  if sx < 0 then 0 else if sx > s.numOfSamples - 1 then s.numOfSamples - 1 else sx

def getSourceRectangle (s : SubSwathInfo T) (tile : Rectangle) : Rectangle :=
  let x0 := op.getSampleIndexInSourceProduct s tile.x
  let xMax := op.getSampleIndexInSourceProduct s (tile.x + tile.width - 1)
  let first := op.getLineIndicesInSourceProduct s tile.y initialBurstInfo
  let y0 := if first.2.sy0 = -1 ∧ first.2.sy1 = -1 then 0 else first.2.sy0
  let last := op.getLineIndicesInSourceProduct s (tile.y + tile.height - 1) first.2
  let yMax :=
    if last.2.sy0 = -1 ∧ last.2.sy1 = -1 then s.numOfLines - 1 else max last.2.sy0 last.2.sy1
  ⟨x0, y0, xMax - x0 + 1, yMax - y0 + 1⟩

/-- One round of the loop of `ComputeTileInOneSwathFloat`. -/
def copyRow (s : SubSwathInfo T) (firstX lastX : Int) (state : BurstInfo T × List RowCopy)
    (y : Int) : BurstInfo T × List RowCopy :=
  let result := op.getLineIndicesInSourceProduct s y state.1
  if result.1 then
    (result.2, state.2 ++ [⟨y, chosenLine result.2, stdRound (op.samplePosition s firstX),
      lastX - firstX⟩])
  else (result.2, state.2)

/-- `ComputeTileInOneSwathFloat`, as the copies that it makes. The record of the bursts is handed
over from band to band. -/
def computeTileInOneSwathFloat (s : SubSwathInfo T) (tile : Rectangle) (burstInfo : BurstInfo T) :
    BurstInfo T × List RowCopy :=
  let firstY := max tile.y (op.computeYMin s)
  let lastY := min (tile.y + tile.height) (op.computeYMax s + 1)
  let firstX := max tile.x (op.computeXMin s)
  let lastX := min (tile.x + tile.width) (op.computeXMax s + 1)
  if firstY ≥ lastY ∨ firstX ≥ lastX then (burstInfo, [])
  else (intRange firstY lastY).foldl (op.copyRow s firstX lastX) (burstInfo, [])

/-! ## What the copy should keep to -/

/-- The source lines of the tile are rows of its source rectangle. The copied parts lie in its
columns, so the elements of the source tile are those of the part. -/
structure StaysInside (s : SubSwathInfo T) (tile : Rectangle) : Prop where
  rows : ∀ y burstInfo, tile.y ≤ y → y < tile.y + tile.height →
    (op.getLineIndicesInSourceProduct s y burstInfo).1 →
    (op.getSourceRectangle s tile).y ≤
        chosenLine (op.getLineIndicesInSourceProduct s y burstInfo).2 ∧
      chosenLine (op.getLineIndicesInSourceProduct s y burstInfo).2 <
        (op.getSourceRectangle s tile).y + (op.getSourceRectangle s tile).height
  columns : ∀ burstInfo, ∀ c ∈ (op.computeTileInOneSwathFloat s tile burstInfo).2,
    (op.getSourceRectangle s tile).x ≤ c.sx ∧
      c.sx + c.length ≤ (op.getSourceRectangle s tile).x + (op.getSourceRectangle s tile).width
  samples : ∀ burstInfo, ∀ c ∈ (op.computeTileInOneSwathFloat s tile burstInfo).2,
    ∀ k, 0 ≤ k → k < c.length →
      readSource (op.getSourceRectangle s tile) (c.sx + k) c.sy = .source (c.sx + k) c.sy

/-- The pixel of the tile is copied. -/
structure Copied (s : SubSwathInfo T) (tile : Rectangle) (x y : Int) : Prop where
  column : tile.x ≤ x ∧ x < tile.x + tile.width
  line : tile.y ≤ y ∧ y < tile.y + tile.height
  valid_column : op.computeXMin s ≤ x ∧ x ≤ op.computeXMax s
  valid_line : op.computeYMin s ≤ y ∧ y ≤ op.computeYMax s
  burst : ∃ i < s.numOfBursts, s.BurstHolds i (op.lineTime y)

/-- Every copied pixel lies less than half a column from a sample of the sub-swath. -/
def OnSamples (s : SubSwathInfo T) (tile : Rectangle) : Prop :=
  ∀ x y, op.Copied s tile x y →
    -(1 / 2) < op.samplePosition s x ∧ op.samplePosition s x < (s.numOfSamples : T) - 1 / 2

/-! ## Rows -/

variable {op} {s : SubSwathInfo T} {tile : Rectangle}

variable (op) in
theorem lineTime_mono {y y' : Int} (h : y ≤ y') : op.lineTime y ≤ op.lineTime y' := by
  have hcast : (y : T) ≤ y' := by exact_mod_cast h
  have hpos : 0 < op.targetLineTimeInterval := op.first.interval_pos
  unfold lineTime
  gcongr

/-- The source rectangle of a tile has the line chosen for each of its lines. -/
theorem burstLine_mem_rectangle {y : Int} (hy : tile.y ≤ y) (hy' : y < tile.y + tile.height)
    {c : Nat} (hc : s.chosenBurst (op.lineTime y) = some c) :
    (op.getSourceRectangle s tile).y ≤ s.burstLine c (op.lineTime y) ∧
      s.burstLine c (op.lineTime y) <
        (op.getSourceRectangle s tile).y + (op.getSourceRectangle s tile).height := by
  have hfirst := s.firstRow_le initialBurstInfo (lineTime_mono op hy) hc
  have hlast := s.le_lastRow (s.lineIndicesAt (op.lineTime tile.y) initialBurstInfo).2
    (lineTime_mono op (Int.le_sub_one_of_lt hy')) hc
  simp only [getSourceRectangle, getLineIndicesInSourceProduct]
  omega

/-- The copy to a line, if a burst holds its time. -/
def rowOf (op : TOPSARDeburstOp T) (s : SubSwathInfo T) (firstX lastX y : Int) : Option RowCopy :=
  (s.chosenBurst (op.lineTime y)).map fun i =>
    ⟨y, s.burstLine i (op.lineTime y), stdRound (op.samplePosition s firstX), lastX - firstX⟩

variable (op s) in
theorem chosenLine_eq (y : Int) (b : BurstInfo T) :
    (if (op.getLineIndicesInSourceProduct s y b).1 then
      some (chosenLine (op.getLineIndicesInSourceProduct s y b).2) else none) =
      (s.chosenBurst (op.lineTime y)).map fun i => s.burstLine i (op.lineTime y) :=
  s.chosenLineAt_eq (op.lineTime y) b

/-- Where the search succeeds, the line is that of the burst chosen by time. -/
theorem exists_chosenBurst {y : Int} {b : BurstInfo T}
    (h : (op.getLineIndicesInSourceProduct s y b).1 = true) :
    ∃ i, s.chosenBurst (op.lineTime y) = some i ∧
      chosenLine (op.getLineIndicesInSourceProduct s y b).2 = s.burstLine i (op.lineTime y) := by
  have hline := chosenLine_eq op s y b
  rw [if_pos h] at hline
  obtain ⟨i, hi, heq⟩ := Option.map_eq_some_iff.mp hline.symm
  exact ⟨i, hi, heq.symm⟩

theorem copyRow_eq (firstX lastX : Int) (state : BurstInfo T × List RowCopy) (y : Int) :
    (op.copyRow s firstX lastX state y).2 = state.2 ++ (op.rowOf s firstX lastX y).toList := by
  simp only [copyRow, rowOf]
  by_cases hfound : (op.getLineIndicesInSourceProduct s y state.1).1 = true
  · obtain ⟨i, hi, heq⟩ := exists_chosenBurst hfound
    rw [if_pos hfound, hi, heq]
    rfl
  · have hline := chosenLine_eq op s y state.1
    rw [if_neg hfound] at hline
    rw [if_neg hfound, Option.map_eq_none_iff.mp hline.symm]
    exact (List.append_nil _).symm

theorem foldl_copyRow (firstX lastX : Int) (rows : List Int)
    (state : BurstInfo T × List RowCopy) :
    (rows.foldl (op.copyRow s firstX lastX) state).2 =
      state.2 ++ rows.flatMap fun y => (op.rowOf s firstX lastX y).toList := by
  induction rows generalizing state with
  | nil => exact (List.append_nil _).symm
  | cons y rows ih =>
    rw [List.foldl_cons, ih, copyRow_eq, List.flatMap_cons, List.append_assoc]

theorem mem_computeTile {c : RowCopy} {b : BurstInfo T} :
    c ∈ (op.computeTileInOneSwathFloat s tile b).2 ↔
      max tile.x (op.computeXMin s) < min (tile.x + tile.width) (op.computeXMax s + 1) ∧
      ∃ y, max tile.y (op.computeYMin s) ≤ y ∧
        y < min (tile.y + tile.height) (op.computeYMax s + 1) ∧
        op.rowOf s (max tile.x (op.computeXMin s))
          (min (tile.x + tile.width) (op.computeXMax s + 1)) y = some c := by
  simp only [computeTileInOneSwathFloat]
  split
  · next hempty =>
    constructor
    · intro h
      cases h
    · rintro ⟨hx, y, hy, hy', -⟩
      omega
  · next hfull =>
    rw [foldl_copyRow, List.nil_append, List.mem_flatMap]
    simp only [mem_intRange, Option.mem_toList, and_assoc]
    constructor
    · rintro ⟨y, h⟩
      exact ⟨by omega, y, h⟩
    · exact And.right

/-! ## Columns -/

omit [FloorRing T] in
variable (op) in
theorem delta_pos : 0 < op.targetDeltaSlantRangeTime := op.first.deltaSlantRangeTime_pos

omit [FloorRing T] in
/-- A column further on lies one sample further on. -/
theorem samplePosition_add (x k : Int) :
    op.samplePosition s (x + k) = op.samplePosition s x + k := by
  have hne : op.targetDeltaSlantRangeTime ≠ 0 := (delta_pos op).ne'
  rw [samplePosition, samplePosition]
  field_simp
  push_cast
  ring

theorem samplePosition_mono {x x' : Int} (h : x ≤ x') :
    op.samplePosition s x ≤ op.samplePosition s x' := by
  obtain ⟨k, rfl⟩ := Int.le.dest h
  rw [samplePosition_add]
  have hk : (0 : T) ≤ ((k : Int) : T) := by exact_mod_cast Int.natCast_nonneg k
  exact le_add_of_nonneg_right hk

omit [IsStrictOrderedRing T] in
variable (op) in
theorem sampleIndex_bounds (hsamples : 0 < s.numOfSamples) (x : Int) :
    0 ≤ op.getSampleIndexInSourceProduct s x ∧
      op.getSampleIndexInSourceProduct s x ≤ s.numOfSamples - 1 := by
  simp only [getSampleIndexInSourceProduct]
  split
  · omega
  · split <;> omega

/-- The clamped index of a column is at or before that of a later column which is not clamped at
the first sample. -/
theorem sampleIndex_le {x x' : Int} (h : x ≤ x') (hx' : -(1 / 2) < op.samplePosition s x') :
    op.getSampleIndexInSourceProduct s x ≤ ⌊op.samplePosition s x' + 1 / 2⌋ := by
  have hpos : 0 ≤ op.samplePosition s x' + 1 / 2 := by linarith
  have hfloor : 0 ≤ ⌊op.samplePosition s x' + 1 / 2⌋ := Int.floor_nonneg.mpr hpos
  have hle : toInt (op.samplePosition s x + 1 / 2) ≤ ⌊op.samplePosition s x' + 1 / 2⌋ := by
    rw [← toInt_of_nonneg hpos]
    exact toInt_mono (add_le_add_left (samplePosition_mono h) _)
  simp only [getSampleIndexInSourceProduct]
  split
  · exact hfloor
  · split <;> omega

/-- The clamped index of a column is at or behind that of an earlier column inside the samples. -/
theorem le_sampleIndex {x x' : Int} (h : x ≤ x') (hx : -(1 / 2) < op.samplePosition s x)
    (hend : ⌊op.samplePosition s x + 1 / 2⌋ ≤ s.numOfSamples - 1) :
    ⌊op.samplePosition s x + 1 / 2⌋ ≤ op.getSampleIndexInSourceProduct s x' := by
  have hpos : 0 ≤ op.samplePosition s x + 1 / 2 := by linarith
  have hfloor : 0 ≤ ⌊op.samplePosition s x + 1 / 2⌋ := Int.floor_nonneg.mpr hpos
  have hle : ⌊op.samplePosition s x + 1 / 2⌋ ≤ toInt (op.samplePosition s x' + 1 / 2) := by
    rw [← toInt_of_nonneg hpos]
    exact toInt_mono (add_le_add_left (samplePosition_mono h) _)
  simp only [getSampleIndexInSourceProduct]
  split
  · omega
  · split <;> omega

/-! ## The copied part of a row -/

omit [IsStrictOrderedRing T] in
theorem rowOf_eq_some {firstX lastX y : Int} {c : RowCopy}
    (h : op.rowOf s firstX lastX y = some c) :
    ∃ i, s.chosenBurst (op.lineTime y) = some i ∧ c = ⟨y, s.burstLine i (op.lineTime y),
      stdRound (op.samplePosition s firstX), lastX - firstX⟩ := by
  obtain ⟨i, hi, hc⟩ := Option.map_eq_some_iff.mp h
  exact ⟨i, hi, hc.symm⟩

/-- From a first column less than half a column before the samples, the rounded part of a row lies
between the clamped indices, as long as its last column is not behind the samples. -/
theorem part_inside {firstX lastX : Int} (hne : firstX < lastX) (hx : tile.x ≤ firstX)
    (hx' : lastX ≤ tile.x + tile.width) (hfirst : -(1 / 2) < op.samplePosition s firstX)
    (hlast : op.samplePosition s (lastX - 1) < (s.numOfSamples : T) - 1 / 2) :
    (op.getSourceRectangle s tile).x ≤ stdRound (op.samplePosition s firstX) ∧
      stdRound (op.samplePosition s firstX) + (lastX - firstX) ≤
        (op.getSourceRectangle s tile).x + (op.getSourceRectangle s tile).width := by
  have hshift : ⌊op.samplePosition s (lastX - 1) + 1 / 2⌋ =
      ⌊op.samplePosition s firstX + 1 / 2⌋ + (lastX - 1 - firstX) := by
    rw [show lastX - 1 = firstX + (lastX - 1 - firstX) by ring, samplePosition_add,
      add_right_comm, Int.floor_add_intCast]
    ring
  have hmono : op.samplePosition s firstX ≤ op.samplePosition s (lastX - 1) :=
    samplePosition_mono (by omega)
  have hend : ⌊op.samplePosition s (lastX - 1) + 1 / 2⌋ ≤ s.numOfSamples - 1 := by
    rw [← Int.lt_add_one_iff, sub_add_cancel, Int.floor_lt]
    linarith
  have hleft := sampleIndex_le (s := s) hx hfirst
  have hlastX : lastX - 1 ≤ tile.x + tile.width - 1 := by omega
  have hright := le_sampleIndex hlastX (hfirst.trans_le hmono) hend
  rw [stdRound_eq_floor hfirst]
  simp only [getSourceRectangle]
  omega

/-- A part of a row inside the clamped indices begins and ends on samples. -/
theorem ends_on_samples (hsamples : 0 < s.numOfSamples) {firstX lastX : Int}
    (hleft : (op.getSourceRectangle s tile).x ≤ stdRound (op.samplePosition s firstX))
    (hright : stdRound (op.samplePosition s firstX) + (lastX - firstX) ≤
      (op.getSourceRectangle s tile).x + (op.getSourceRectangle s tile).width) :
    -(1 / 2) < op.samplePosition s firstX ∧
      op.samplePosition s (lastX - 1) < (s.numOfSamples : T) - 1 / 2 := by
  have h0 := (sampleIndex_bounds op hsamples tile.x).1
  have hend := (sampleIndex_bounds op hsamples (tile.x + tile.width - 1)).2
  simp only [getSourceRectangle] at hleft hright
  have hfirst : -(1 / 2) < op.samplePosition s firstX := by
    by_contra hle
    have hneg := stdRound_neg (not_lt.mp hle)
    omega
  refine ⟨hfirst, ?_⟩
  rw [stdRound_eq_floor hfirst] at hright
  have hfloor : ⌊op.samplePosition s firstX + 1 / 2⌋ < s.numOfSamples - (lastX - 1 - firstX) := by
    omega
  rw [Int.floor_lt] at hfloor
  push_cast at hfloor
  rw [show lastX - 1 = firstX + (lastX - 1 - firstX) by ring, samplePosition_add]
  push_cast
  linarith

theorem onSamples_of_staysInside (hsamples : 0 < s.numOfSamples) (h : op.StaysInside s tile) :
    op.OnSamples s tile := by
  intro x y hxy
  obtain ⟨hx, hx'⟩ := hxy.column
  obtain ⟨hy, hy'⟩ := hxy.line
  obtain ⟨hmin, hmax⟩ := hxy.valid_column
  obtain ⟨hymin, hymax⟩ := hxy.valid_line
  obtain ⟨i, hi⟩ := Option.isSome_iff_exists.mp ((s.chosenBurst_isSome_iff _).mpr hxy.burst)
  -- the copy to the line of the pixel
  have hcopy := h.columns initialBurstInfo _ (mem_computeTile.mpr
    ⟨by omega, y, by omega, by omega, by rw [rowOf, hi]; rfl⟩)
  obtain ⟨hfirst, hlast⟩ := ends_on_samples hsamples hcopy.1 hcopy.2
  constructor
  · exact hfirst.trans_le (samplePosition_mono (by omega))
  · exact (samplePosition_mono (by omega)).trans_lt hlast

theorem staysInside_of_onSamples (h : op.OnSamples s tile) : op.StaysInside s tile := by
  have hcopies : ∀ b, ∀ c ∈ (op.computeTileInOneSwathFloat s tile b).2,
      ((op.getSourceRectangle s tile).x ≤ c.sx ∧ c.sx + c.length ≤
        (op.getSourceRectangle s tile).x + (op.getSourceRectangle s tile).width) ∧
      (op.getSourceRectangle s tile).y ≤ c.sy ∧
        c.sy < (op.getSourceRectangle s tile).y + (op.getSourceRectangle s tile).height := by
    intro b c hc
    obtain ⟨hne, y, hy, hy', hrow⟩ := mem_computeTile.mp hc
    obtain ⟨i, hi, rfl⟩ := rowOf_eq_some hrow
    have hburst := s.mem_bursts.mp (s.chosenBurst_mem hi)
    have hfirst := h (max tile.x (op.computeXMin s)) y
      ⟨by omega, by omega, by omega, by omega, i, hburst⟩
    have hlast := h (min (tile.x + tile.width) (op.computeXMax s + 1) - 1) y
      ⟨by omega, by omega, by omega, by omega, i, hburst⟩
    exact ⟨part_inside hne (by omega) (by omega) hfirst.1 hlast.2,
      burstLine_mem_rectangle (by omega) (by omega) hi⟩
  refine ⟨?_, fun b c hc => (hcopies b c hc).1, ?_⟩
  · intro y b hy hy' hfound
    obtain ⟨i, hi, heq⟩ := exists_chosenBurst hfound
    rw [heq]
    exact burstLine_mem_rectangle hy hy' hi
  · intro b c hc k hk hk'
    have hinside := hcopies b c hc
    exact readSource_eq (by omega) (by omega) hinside.2.1 hinside.2.2

end TOPSARDeburstOp

/-- Bursts as in `overlapSwath`, with valid pixels only and the first sample at the given time. -/
def swathFrom (start : ℚ) : SubSwathInfo ℚ :=
  { overlapSwath start (start + 2) with
    slrTimeToFirstPixel := start
    slrTimeToLastPixel := start + 2
    slrTimeToLastPixel_eq := by norm_num [overlapSwath, lightSpeed] }

/-- Two sub-swaths, of which the second one begins at the given column. -/
def swathsAt (start : ℚ) : TOPSARDeburstOp ℚ where
  subSwaths := [swathFrom 0, swathFrom start]
  nonempty := by simp
  samples_pos := by simp [swathFrom, overlapSwath]

/-- The second sub-swath begins six tenths of a column behind the column 2. -/
def unalignedSwaths : TOPSARDeburstOp ℚ := swathsAt (13 / 5)

namespace TOPSARDeburstOp

end TOPSARDeburstOp

end Alus.TopsarDeburst
