import Mathlib.Data.Rat.Cast.Defs
import Mathlib.Tactic.FieldSimp
import Alus.Lib.Interpolation
import Alus.Util.MathUtils
import Alus.Util.TileLists

/-!
# Calibration factor

The kernels look up the two calibration vectors around a line and the two pixels around a column,
and blend the four entries of the calibration table there. A line before the first vector, a line
from the last vector on and a column before the first pixel give the index `-1`, which nothing
checks. The numbers are elements of an ordered field: rounding is not modelled.
-/

namespace Alus.Calibrate

open Alus.Lib Alus.Mathutils Alus.Util

section Data

variable (T : Type) [Field T] [LinearOrder T]

/-- `CalibrationVectorComputation`; a table that was not copied to the device is empty. -/
structure CalibrationVector where
  timeMjd : T
  line : Int
  pixels : List Int
  sigmaNought : List T
  betaNought : List T
  gamma : List T
  dn : List T
  arraySize : Nat
  deriving DecidableEq

inductive CalType
  | sigma0 | beta0 | gamma | dn | none
  deriving DecidableEq, Repr

variable {T} in
/-- The table that `PopulateLUTs` selects. -/
def CalType.lut (cal : CalType) (vector : CalibrationVector T) : List T :=
  match cal with
  | .sigma0 => vector.sigmaNought
  | .beta0 => vector.betaNought
  | .gamma => vector.gamma
  | .dn => vector.dn
  | .none => []

/-- The parser compares the sizes of the tables with the attributes `count`, which are `int`. -/
structure CalibrationInfo (cal : CalType) where
  firstLineTime : T
  lineTimeInterval : T
  lineValues : List Int
  calibrationVectors : List (CalibrationVector T)
  pixels : List Int
  lines_eq : lineValues = calibrationVectors.map (·.line)
  lines_fit : ∀ line ∈ lineValues, Fits 32 line
  lines_increasing : lineValues.Pairwise (· < ·)
  times_increasing : (calibrationVectors.map (·.timeMjd)).Pairwise (· < ·)
  two_vectors : 2 ≤ calibrationVectors.length
  vectors_count : calibrationVectors.length < 2147483648
  common : ∀ v ∈ calibrationVectors, v.pixels = pixels
  pixels_increasing : pixels.Pairwise (· < ·)
  two_pixels : 2 ≤ pixels.length
  pixels_count : pixels.length < 2147483648
  sizes : ∀ v ∈ calibrationVectors,
    v.arraySize = v.pixels.length ∧ (cal.lut v).length = v.arraySize

structure CalibrationLineParameters where
  calibrationVector0 : CalibrationVector T
  calibrationVector1 : CalibrationVector T
  azimuthTime : T
  muY : T

end Data

variable {T : Type} [Field T] [LinearOrder T] {cal : CalType}

/-! ## The functions of the kernels -/

/-- `static_cast<int>` of a `size_t` value. -/
def castInt (n : Nat) : Int := Int.bmod n 4294967296

/-- The conversion of the result to `size_t` makes `-1` the greatest index. -/
def getCalibrationVectorIndex (y : Int) (count : Nat) (lineValues : List Int) : Outcome Int := do
  let index ← findFirstGreaterElement y (castInt count) lineValues
  return toSize (chooseOne (index = -1) (-1) (index - 1))

def setupTileLine (info : CalibrationInfo T cal) (subsetOffsetY y : Int) :
    Outcome (CalibrationLineParameters T) := do
  let yWithOffset ← int32 (y + subsetOffsetY)
  let calibrationVectorIndex ←
    getCalibrationVectorIndex yWithOffset info.lineValues.length info.lineValues
  let vector0 ← vectorIndex info.calibrationVectors calibrationVectorIndex
  let vector1 ← vectorIndex info.calibrationVectors (toSize (calibrationVectorIndex + 1))
  let azimuthTime := info.firstLineTime + yWithOffset * info.lineTimeInterval
  return ⟨vector0, vector1, azimuthTime,
    (azimuthTime - vector0.timeMjd) / (vector1.timeMjd - vector0.timeMjd)⟩

def getPixelIndex (x : Int) (vector : CalibrationVector T) : Outcome Int := do
  let found ← binarySearch x (castInt vector.arraySize) vector.pixels
  let index := chooseOne (found < 0) (found * -1 - 2) found
  return chooseOne (index ≥ castInt (vector.arraySize - 1)) (index - 1) index

/-- The second computation of the quotient, for an infinite one, is the first one again. -/
def calculateMuX (lineParameters : CalibrationLineParameters T) (x pixelIndex : Int) :
    Outcome T := do
  let pixel ← vectorIndex lineParameters.calibrationVector0.pixels pixelIndex
  let next ← vectorIndex lineParameters.calibrationVector0.pixels (pixelIndex + 1)
  let distance ← int32 (x - pixel)
  let width ← int32 (next - pixel)
  return distance / width

def calculateLutVal (cal : CalType) (lineParameters : CalibrationLineParameters T) (muX : T)
    (pixelIndex : Int) : Outcome T := do
  let vec0Lut := cal.lut lineParameters.calibrationVector0
  let vec1Lut := cal.lut lineParameters.calibrationVector1
  let muY := lineParameters.muY
  let lut00 ← vectorIndex vec0Lut pixelIndex
  let lut01 ← vectorIndex vec0Lut (pixelIndex + 1)
  let lut10 ← vectorIndex vec1Lut pixelIndex
  let lut11 ← vectorIndex vec1Lut (pixelIndex + 1)
  return (1 - muY) * ((1 - muX) * lut00 + muX * lut01) + muY * ((1 - muX) * lut10 + muX * lut11)

def calculateCalibrationFactor (cal : CalType) (x : Int)
    (lineParameters : CalibrationLineParameters T) : Outcome T := do
  let pixelIndex ← getPixelIndex x lineParameters.calibrationVector0
  let muX ← calculateMuX lineParameters x pixelIndex
  let lutVal ← calculateLutVal cal lineParameters muX pixelIndex
  return 1 / (lutVal * lutVal)

/-! ## What the factor should be -/

/-- `a` and `b` are the neighbours of `z` in the list, from index `k` on. Before the list and behind
it they are its first and its last two entries. -/
def Segment (l : List Int) (z : Int) (k : Nat) (a b : Int) : Prop :=
  (l[k]? = some a ∧ l[k + 1]? = some b) ∧ (k = 0 ∨ a ≤ z) ∧ (k + 2 = l.length ∨ z < b)

/-- The table of a vector along the line through the pixels `a` and `b` at the index `i`. -/
def lutAt (cal : CalType) (vector : CalibrationVector T) (i : Nat) (a b x : Int) : T :=
  lerp (a : T) b ((cal.lut vector).getD i 0) ((cal.lut vector).getD (i + 1) 0) x

/-- Two neighbouring vectors and two neighbouring pixels exist, and the factor is made of the four
entries there, bilinear in the line time and the pixel. -/
def Blends (info : CalibrationInfo T cal) (subsetOffsetY y x : Int) : Prop :=
  ∃ parameters k i a b, setupTileLine info subsetOffsetY y = .ok parameters ∧
    (info.calibrationVectors[k]? = some parameters.calibrationVector0 ∧
      info.calibrationVectors[k + 1]? = some parameters.calibrationVector1) ∧
    Segment info.lineValues (y + subsetOffsetY) k parameters.calibrationVector0.line
      parameters.calibrationVector1.line ∧
    getPixelIndex x parameters.calibrationVector0 = .ok (i : Nat) ∧
    Segment info.pixels x i a b ∧
    calculateCalibrationFactor cal x parameters = .ok (1 /
      lerp parameters.calibrationVector0.timeMjd parameters.calibrationVector1.timeMjd
        (lutAt cal parameters.calibrationVector0 i a b x)
        (lutAt cal parameters.calibrationVector1 i a b x)
        (info.firstLineTime + (y + subsetOffsetY : Int) * info.lineTimeInterval) ^ 2)

/-- The line lies from the first vector to before the last one and the column behind the first
pixel; the differences of the pixels around it are `int` values. -/
structure Covered (info : CalibrationInfo T cal) (subsetOffsetY y x : Int) : Prop where
  first_line : ∃ line ∈ info.lineValues, line ≤ y + subsetOffsetY
  last_line : ∃ line ∈ info.lineValues, y + subsetOffsetY < line
  first_pixel : ∃ pixel ∈ info.pixels, pixel ≤ x
  differences : ∀ i a b, Segment info.pixels x i a b → Fits 32 (x - a) ∧ Fits 32 (b - a)

/-! ## The two indices -/

theorem castInt_of_lt {n : Nat} (h : n < 2147483648) : castInt n = n := by
  exact Int.bmod_eq_of_le (by omega) (by omega)

theorem toSize_natCast {n : Nat} (h : n < 2147483648) : toSize n = n := by
  exact Int.emod_eq_of_lt (by omega) (by norm_num; omega)

theorem segment_unique {l : List Int} (hl : l.Pairwise (· < ·)) {z : Int} {k k' : Nat}
    {a b a' b' : Int} (h : Segment l z k a b) (h' : Segment l z k' a' b') : k = k' := by
  -- the one that comes first ends up to where the other one begins
  have hlt : ∀ {m n : Nat} {a b c d : Int}, Segment l z m a b → Segment l z n c d → ¬ m < n := by
    intro m n a b c d hm hn hmn
    obtain ⟨⟨-, hb⟩, -, hbehind⟩ := hm
    obtain ⟨⟨hc, hd⟩, hbefore, -⟩ := hn
    obtain ⟨hm, rfl⟩ := List.getElem?_eq_some_iff.mp hb
    obtain ⟨hn, rfl⟩ := List.getElem?_eq_some_iff.mp hc
    obtain ⟨hend, -⟩ := List.getElem?_eq_some_iff.mp hd
    have hle : l[m + 1] ≤ l[n] := by
      rcases Nat.lt_or_ge (m + 1) n with h | h
      · exact (List.pairwise_iff_getElem.mp hl _ _ hm hn h).le
      · obtain rfl : n = m + 1 := by omega
        exact le_rfl
    omega
  have h1 := hlt h h'
  have h2 := hlt h' h
  omega

theorem getCalibrationVectorIndex_outside {lines : List Int} (hlines : lines.Pairwise (· < ·))
    (hpos : 0 < lines.length) (hcount : lines.length < 2147483648) {y : Int}
    (h : (∀ line ∈ lines, line ≤ y) ∨ ∀ line ∈ lines, y < line) :
    getCalibrationVectorIndex y lines.length lines = .ok (2 ^ 64 - 1) := by
  rw [getCalibrationVectorIndex, castInt_of_lt hcount]
  by_cases hlast : lines[lines.length - 1] ≤ y
  · rw [findFirstGreaterElement_last hpos hlast]
    rfl
  · obtain ⟨n, hn, hlen, hbefore, -⟩ :=
      findFirstGreaterElement_spec (hlines.imp le_of_lt) hpos (not_le.mp hlast)
    have hfirst : n = 0 := by
      by_contra hne
      have hle := hbefore 0 hpos (by omega)
      rcases h with h | h
      · exact hlast (h _ (List.getElem_mem _))
      · exact (h _ (List.getElem_mem hpos)).not_ge hle
    rw [hn, hfirst]
    rfl

theorem getCalibrationVectorIndex_inside {lines : List Int} (hlines : lines.Pairwise (· < ·))
    (hcount : lines.length < 2147483648) {y : Int} (hfirst : ∃ line ∈ lines, line ≤ y)
    (hlast : ∃ line ∈ lines, y < line) :
    ∃ (k : Nat) (a b : Int), getCalibrationVectorIndex y lines.length lines = .ok k ∧
      Segment lines y k a b := by
  obtain ⟨line, hmem, hline⟩ := hlast
  obtain ⟨m, hm, rfl⟩ := List.getElem_of_mem hmem
  have hpos : 0 < lines.length := by omega
  have hbelow : y < lines[lines.length - 1] := by
    apply hline.trans_le
    rcases Nat.lt_or_ge m (lines.length - 1) with h | h
    · exact (List.pairwise_iff_getElem.mp hlines _ _ hm _ h).le
    · have hsame : m = lines.length - 1 := by omega
      simp only [hsame, le_refl]
  obtain ⟨n, hn, hlen, hbefore, hfrom⟩ :=
    findFirstGreaterElement_spec (hlines.imp le_of_lt) hpos hbelow
  have hne : n ≠ 0 := by
    rintro rfl
    obtain ⟨line, hmem, hline⟩ := hfirst
    obtain ⟨m, hm, rfl⟩ := List.getElem_of_mem hmem
    exact (hfrom m hm (by omega)).not_ge hline
  obtain ⟨k, rfl⟩ : ∃ k, n = k + 1 := ⟨n - 1, by omega⟩
  refine ⟨k, lines[k], lines[k + 1], ?_, ⟨List.getElem?_eq_getElem _, List.getElem?_eq_getElem _⟩,
    .inr (hbefore k (by omega) (by omega)), .inr (hfrom (k + 1) hlen (by omega))⟩
  rw [getCalibrationVectorIndex, castInt_of_lt hcount, hn, Outcome.ok_bind, chooseOne_eq,
    if_neg (by omega), show ((k + 1 : Nat) : Int) - 1 = k by omega, toSize_natCast (by omega)]
  rfl

section PixelIndex

variable {vector : CalibrationVector T} (hsize : vector.arraySize = vector.pixels.length)
  (hcount : vector.pixels.length < 2147483648) (hpixels : vector.pixels.Pairwise (· < ·))
  (htwo : 2 ≤ vector.pixels.length) {x : Int}

omit [Field T] [LinearOrder T]

include hsize hcount htwo

theorem getPixelIndex_of_search {found m : Int}
    (h : binarySearch x vector.pixels.length vector.pixels = .ok found)
    (hm : (if found < 0 then found * -1 - 2 else found) = m) :
    getPixelIndex x vector = .ok (if m + 1 ≥ vector.pixels.length then m - 1 else m) := by
  have hlast : ((vector.pixels.length - 1 : Nat) : Int) = vector.pixels.length - 1 := by omega
  rw [getPixelIndex, hsize, castInt_of_lt hcount, castInt_of_lt (by omega), h, Outcome.ok_bind,
    Outcome.pure_eq, chooseOne_eq, chooseOne_eq, hm, hlast]
  simp only [ge_iff_le, sub_le_iff_le_add]

include hpixels

theorem getPixelIndex_before (h : ∀ pixel ∈ vector.pixels, x < pixel) :
    getPixelIndex x vector = .ok (-1) := by
  obtain ⟨n, -, hn, hx⟩ | ⟨n, hsearch, -, hbefore, -⟩ := binarySearch_spec (hpixels.imp le_of_lt) x
  · exact absurd (h _ (List.getElem_mem hn)) (by omega)
  · have hfirst : n = 0 := by
      by_contra hne
      have hless := hbefore 0 (by omega) (by omega)
      have hgreater := h _ (List.getElem_mem (show 0 < vector.pixels.length by omega))
      omega
    subst hfirst
    rw [getPixelIndex_of_search hsize hcount htwo hsearch (m := -1) (by simp), if_neg (by omega)]

/-- The index of the last pixel up to the column, before it is moved off the last pixel. -/
theorem exists_pixel_upTo (h : ∃ pixel ∈ vector.pixels, pixel ≤ x) :
    ∃ (m : Nat) (hm : m < vector.pixels.length), vector.pixels[m] ≤ x ∧
      (∀ hnext : m + 1 < vector.pixels.length, x < vector.pixels[m + 1]) ∧
      getPixelIndex x vector =
        .ok (if (m : Int) + 1 ≥ vector.pixels.length then (m : Int) - 1 else m) := by
  obtain ⟨m, hsearch, hm, hx⟩ | ⟨n, hsearch, hn, hbefore, hfrom⟩ :=
    binarySearch_spec (hpixels.imp le_of_lt) x
  · refine ⟨m, hm, hx.le, fun hnext => ?_, ?_⟩
    · exact hx ▸ List.pairwise_iff_getElem.mp hpixels _ _ hm hnext (by omega)
    · exact getPixelIndex_of_search hsize hcount htwo hsearch (if_neg (by omega))
  · have hne : n ≠ 0 := by
      rintro rfl
      obtain ⟨pixel, hmem, hpixel⟩ := h
      obtain ⟨j, hj, rfl⟩ := List.getElem_of_mem hmem
      exact (hfrom j hj (by omega)).not_ge hpixel
    obtain ⟨m, rfl⟩ : ∃ m, n = m + 1 := ⟨n - 1, by omega⟩
    refine ⟨m, by omega, (hbefore m (by omega) (by omega)).le,
      fun hnext => hfrom (m + 1) hnext (by omega), ?_⟩
    apply getPixelIndex_of_search hsize hcount htwo hsearch
    rw [if_pos (by omega)]
    omega

theorem getPixelIndex_inside (h : ∃ pixel ∈ vector.pixels, pixel ≤ x) :
    ∃ (i : Nat) (a b : Int), getPixelIndex x vector = .ok i ∧ Segment vector.pixels x i a b := by
  obtain ⟨m, hm, hle, hbehind, hindex⟩ := exists_pixel_upTo hsize hcount hpixels htwo h
  by_cases hend : m + 1 < vector.pixels.length
  · refine ⟨m, vector.pixels[m], vector.pixels[m + 1], ?_,
      ⟨List.getElem?_eq_getElem _, List.getElem?_eq_getElem _⟩, .inr hle, .inr (hbehind hend)⟩
    rw [hindex, if_neg (by omega)]
  -- from the last pixel on, the segment is the last one
  · obtain ⟨i, rfl⟩ : ∃ i, m = i + 1 := ⟨m - 1, by omega⟩
    refine ⟨i, vector.pixels[i], vector.pixels[i + 1], ?_,
      ⟨List.getElem?_eq_getElem _, List.getElem?_eq_getElem _⟩, .inr ?_, .inl (by omega)⟩
    · rw [hindex, if_pos (by omega), show ((i + 1 : Nat) : Int) - 1 = i by omega]
    · exact (List.pairwise_iff_getElem.mp hpixels i (i + 1) _ hm (by omega)).le.trans hle

end PixelIndex

/-! ## The line parameters -/

variable {info : CalibrationInfo T cal} {subsetOffsetY y x : Int}

omit [Field T] in
theorem CalibrationInfo.length_lines (info : CalibrationInfo T cal) :
    info.lineValues.length = info.calibrationVectors.length := by
  rw [info.lines_eq, List.length_map]

omit [Field T] in
/-- Every line value is the line of the vector at its index. -/
theorem CalibrationInfo.line_eq (info : CalibrationInfo T cal) {k : Nat} {a : Int}
    (h : info.lineValues[k]? = some a) :
    ∃ v ∈ info.calibrationVectors, info.calibrationVectors[k]? = some v ∧ v.line = a := by
  rw [info.lines_eq, List.getElem?_map, Option.map_eq_some_iff] at h
  obtain ⟨v, hv, rfl⟩ := h
  exact ⟨v, List.mem_of_getElem? hv, hv, rfl⟩

theorem setupTileLine_inside (hfirst : ∃ line ∈ info.lineValues, line ≤ y + subsetOffsetY)
    (hlast : ∃ line ∈ info.lineValues, y + subsetOffsetY < line) :
    ∃ k v0 v1, info.calibrationVectors[k]? = some v0 ∧
      info.calibrationVectors[k + 1]? = some v1 ∧
      Segment info.lineValues (y + subsetOffsetY) k v0.line v1.line ∧
      setupTileLine info subsetOffsetY y = .ok ⟨v0, v1,
        info.firstLineTime + (y + subsetOffsetY : Int) * info.lineTimeInterval,
        (info.firstLineTime + (y + subsetOffsetY : Int) * info.lineTimeInterval - v0.timeMjd) /
          (v1.timeMjd - v0.timeMjd)⟩ := by
  have hcount := info.vectors_count
  have hfits : Fits 32 (y + subsetOffsetY) := by
    -- the line lies between two values of `int`
    obtain ⟨line, hmem, hline⟩ := hfirst
    obtain ⟨line', hmem', hline'⟩ := hlast
    have hlow := fits32_iff.mp (info.lines_fit line hmem)
    have hhigh := fits32_iff.mp (info.lines_fit line' hmem')
    exact fits32_iff.mpr (by omega)
  obtain ⟨k, a, b, hindex, hsegment⟩ := getCalibrationVectorIndex_inside info.lines_increasing
    (by rwa [info.length_lines]) hfirst hlast
  obtain ⟨v0, -, hv0, rfl⟩ := info.line_eq hsegment.1.1
  obtain ⟨v1, -, hv1, rfl⟩ := info.line_eq hsegment.1.2
  obtain ⟨hk0, hread0⟩ := List.getElem?_eq_some_iff.mp hv0
  obtain ⟨hk1, hread1⟩ := List.getElem?_eq_some_iff.mp hv1
  refine ⟨k, v0, v1, hv0, hv1, hsegment, ?_⟩
  have hnext : toSize ((k : Int) + 1) = (k + 1 : Nat) := by
    rw [← Int.natCast_succ, toSize_natCast (by omega)]
  rw [setupTileLine, int32_of_fits hfits, Outcome.ok_bind, hindex, Outcome.ok_bind, hnext,
    vectorIndex_natCast hk0, vectorIndex_natCast hk1, hread0, hread1]
  rfl

theorem setupTileLine_outside
    (h : (∀ line ∈ info.lineValues, line ≤ y + subsetOffsetY) ∨
      ∀ line ∈ info.lineValues, y + subsetOffsetY < line) :
    setupTileLine info subsetOffsetY y = .undefined := by
  have htwo := info.two_vectors
  have hcount := info.vectors_count
  have hlines := info.length_lines
  have hread : vectorIndex info.calibrationVectors (2 ^ 64 - 1) = .undefined := by
    rw [vectorIndex, if_pos (by norm_num), List.getElem?_eq_none (by norm_num; omega)]
  rw [setupTileLine]
  by_cases hfits : Fits 32 (y + subsetOffsetY)
  · rw [int32_of_fits hfits, Outcome.ok_bind, getCalibrationVectorIndex_outside
      info.lines_increasing (by omega) (by omega) h, Outcome.ok_bind, hread]
    rfl
  · rw [int32_of_not_fits hfits]
    rfl

/-! ## The factor -/

omit [LinearOrder T] in
theorem calculateMuX_eq_ok {parameters : CalibrationLineParameters T} {i : Nat} {a b : Int}
    (ha : parameters.calibrationVector0.pixels[i]? = some a)
    (hb : parameters.calibrationVector0.pixels[i + 1]? = some b) {muX : T} :
    calculateMuX parameters x i = .ok muX ↔
      (Fits 32 (x - a) ∧ Fits 32 (b - a)) ∧ muX = (x - a) / (b - a) := by
  obtain ⟨hi, hreadi⟩ := List.getElem?_eq_some_iff.mp ha
  obtain ⟨hnext, hreadnext⟩ := List.getElem?_eq_some_iff.mp hb
  rw [calculateMuX, vectorIndex_natCast hi, ← Int.natCast_succ, vectorIndex_natCast hnext, hreadi,
    hreadnext, Outcome.ok_bind, Outcome.ok_bind]
  constructor
  · intro h
    obtain ⟨distance, hdistance, h⟩ := Outcome.bind_eq_ok.mp h
    obtain ⟨width, hwidth, h⟩ := Outcome.bind_eq_ok.mp h
    obtain ⟨hfits, rfl⟩ := int32_eq_ok.mp hdistance
    obtain ⟨hfits', rfl⟩ := int32_eq_ok.mp hwidth
    cases h
    exact ⟨⟨hfits, hfits'⟩, by push_cast; rfl⟩
  · rintro ⟨⟨hfits, hfits'⟩, rfl⟩
    rw [int32_of_fits hfits, int32_of_fits hfits', Outcome.ok_bind, Outcome.ok_bind]
    push_cast
    rfl

omit [LinearOrder T] in
/-- The blend of the four entries is the interpolation along the pixels and then along the times. -/
theorem calculateLutVal_eq {parameters : CalibrationLineParameters T} {i : Nat} {a b : Int} {t : T}
    (h0 : i + 1 < (cal.lut parameters.calibrationVector0).length)
    (h1 : i + 1 < (cal.lut parameters.calibrationVector1).length)
    (hmuY : parameters.muY = (t - parameters.calibrationVector0.timeMjd) /
      (parameters.calibrationVector1.timeMjd - parameters.calibrationVector0.timeMjd)) :
    calculateLutVal cal parameters ((x - a) / (b - a)) i = .ok
      (lerp parameters.calibrationVector0.timeMjd parameters.calibrationVector1.timeMjd
        (lutAt cal parameters.calibrationVector0 i a b x)
        (lutAt cal parameters.calibrationVector1 i a b x) t) := by
  have hlerp : ∀ {l : List T} (hl : i + 1 < l.length),
      lerp (a : T) b (l.getD i 0) (l.getD (i + 1) 0) x =
        (1 - ((x : T) - a) / (b - a)) * l[i] + ((x : T) - a) / (b - a) * l[i + 1] := by
    intro l hl
    rw [lerp, List.getD_eq_getElem _ _ (by omega), List.getD_eq_getElem _ _ hl]
    ring
  rw [calculateLutVal, ← Int.natCast_succ, vectorIndex_natCast (by omega),
    vectorIndex_natCast h0, vectorIndex_natCast (by omega), vectorIndex_natCast h1]
  simp only [Outcome.ok_bind, Outcome.pure_eq, lutAt, hlerp h0, hlerp h1]
  rw [lerp, ← hmuY]
  congr 1
  ring

omit [LinearOrder T] in
/-- Where the pixels around the column are known, the factor exists when the differences fit. -/
theorem calculateCalibrationFactor_eq {parameters : CalibrationLineParameters T} {i : Nat}
    {a b : Int} {t : T} (hindex : getPixelIndex x parameters.calibrationVector0 = .ok i)
    (ha : parameters.calibrationVector0.pixels[i]? = some a)
    (hb : parameters.calibrationVector0.pixels[i + 1]? = some b)
    (h0 : i + 1 < (cal.lut parameters.calibrationVector0).length)
    (h1 : i + 1 < (cal.lut parameters.calibrationVector1).length)
    (hmuY : parameters.muY = (t - parameters.calibrationVector0.timeMjd) /
      (parameters.calibrationVector1.timeMjd - parameters.calibrationVector0.timeMjd))
    (hfits : Fits 32 (x - a) ∧ Fits 32 (b - a)) :
    calculateCalibrationFactor cal x parameters = .ok (1 /
      lerp parameters.calibrationVector0.timeMjd parameters.calibrationVector1.timeMjd
        (lutAt cal parameters.calibrationVector0 i a b x)
        (lutAt cal parameters.calibrationVector1 i a b x) t ^ 2) := by
  rw [calculateCalibrationFactor, hindex, Outcome.ok_bind,
    (calculateMuX_eq_ok ha hb).mpr ⟨hfits, rfl⟩, Outcome.ok_bind, calculateLutVal_eq h0 h1 hmuY,
    Outcome.ok_bind, sq]
  rfl

theorem covered_of_blends {info : CalibrationInfo T cal} {subsetOffsetY y x : Int}
    (h : Blends info subsetOffsetY y x) : Covered info subsetOffsetY y x := by
  have hcount := info.pixels_count
  have htwo := info.two_pixels
  have hpixels := info.pixels_increasing
  obtain ⟨parameters, k, i, a, b, hsetup, hvectors, hsegment, hindex, hpixel, hfactor⟩ := h
  have hmem := List.mem_of_getElem? hvectors.1
  have hcommon := info.common _ hmem
  refine ⟨?_, ?_, ?_, ?_⟩
  · by_contra! hnone
    rw [setupTileLine_outside (.inr hnone)] at hsetup
    cases hsetup
  · by_contra! hnone
    rw [setupTileLine_outside (.inl hnone)] at hsetup
    cases hsetup
  · by_contra! hnone
    rw [getPixelIndex_before (info.sizes _ hmem).1 (hcommon ▸ hcount) (hcommon ▸ hpixels)
      (hcommon ▸ htwo) (hcommon ▸ hnone)] at hindex
    cases hindex
  · intro j a' b' hsegment'
    -- only one pair of pixels is around the column
    obtain rfl := segment_unique hpixels hpixel hsegment'
    rw [calculateCalibrationFactor, hindex, Outcome.ok_bind] at hfactor
    obtain ⟨muX, hmuX, -⟩ := Outcome.bind_eq_ok.mp hfactor
    exact ((calculateMuX_eq_ok (by rw [hcommon, hsegment'.1.1])
      (by rw [hcommon, hsegment'.1.2])).mp hmuX).1

theorem blends_of_covered {info : CalibrationInfo T cal} {subsetOffsetY y x : Int}
    (h : Covered info subsetOffsetY y x) : Blends info subsetOffsetY y x := by
  have hcount := info.pixels_count
  have htwo := info.two_pixels
  have hpixels := info.pixels_increasing
  obtain ⟨hfirst, hlast, hpixel, hdifferences⟩ := h
  obtain ⟨k, v0, v1, hv0, hv1, hsegment, hsetup⟩ := setupTileLine_inside hfirst hlast
  have hmem0 := List.mem_of_getElem? hv0
  have hmem1 := List.mem_of_getElem? hv1
  have hcommon0 := info.common v0 hmem0
  have hcommon1 := info.common v1 hmem1
  have hsizes0 := info.sizes v0 hmem0
  have hsizes1 := info.sizes v1 hmem1
  obtain ⟨i, a, b, hindex, hpixel⟩ := getPixelIndex_inside hsizes0.1
    (hcommon0 ▸ hcount) (hcommon0 ▸ hpixels) (hcommon0 ▸ htwo) (hcommon0 ▸ hpixel)
  have hlen : i + 1 < v0.pixels.length := (List.getElem?_eq_some_iff.mp hpixel.1.2).1
  refine ⟨_, k, i, a, b, hsetup, ⟨hv0, hv1⟩, hsegment, hindex, hcommon0 ▸ hpixel, ?_⟩
  apply calculateCalibrationFactor_eq
  · exact hindex
  · exact hpixel.1.1
  · exact hpixel.1.2
  · rw [hsizes0.2, hsizes0.1]
    exact hlen
  · rw [hsizes1.2, hsizes1.1, hcommon1, ← hcommon0]
    exact hlen
  · rfl
  · exact hdifferences i a b (hcommon0 ▸ hpixel)

/-- **The calibration factor.** The four entries exist and are blended when the line lies from the
first vector to before the last one and the column from the first pixel on, and not elsewhere. -/
theorem blends_iff (info : CalibrationInfo T cal) (subsetOffsetY y x : Int) :
    Blends info subsetOffsetY y x ↔ Covered info subsetOffsetY y x :=
  ⟨covered_of_blends, blends_of_covered⟩

/-- Vectors at the lines 0 and 10 with two pixels each. -/
def twoVectors : CalibrationInfo ℚ .sigma0 where
  firstLineTime := 0
  lineTimeInterval := 1
  lineValues := [0, 10]
  calibrationVectors := [⟨0, 0, [0, 40], [1, 2], [], [], [], 2⟩,
    ⟨10, 10, [0, 40], [1, 3], [], [], [], 2⟩]
  pixels := [0, 40]
  lines_eq := rfl
  lines_fit := by simp [fits32_iff]
  lines_increasing := by decide
  times_increasing := by simp
  two_vectors := by decide
  vectors_count := by simp
  common := by simp
  pixels_increasing := by decide
  two_pixels := by decide
  pixels_count := by simp
  sizes := by simp [CalType.lut]

/-- At the last line of the table the index of the vector is `-1`. -/
theorem not_blends_lastLine : ¬ Blends twoVectors 0 10 20 := by
  rintro ⟨parameters, k, i, a, b, hsetup, -⟩
  rw [setupTileLine_outside (.inl (by simp [twoVectors]))] at hsetup
  cases hsetup

end Alus.Calibrate
