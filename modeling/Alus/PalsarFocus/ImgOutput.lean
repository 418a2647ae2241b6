import Mathlib.Data.Rat.Floor
import Alus.Lib.Machine
import Alus.Lib.Rounding
import Alus.PalsarFocus.StripedWriter

/-!
# The two write paths

`WriteTiff` (`palsar-focus/src/img_output.cc`) writes an image by rows through `WriteBlock`
(`WriteStripedDataset`), when the blocks of the dataset are its rows, and else from one host copy
of the image through `RasterIO`. The striped path prepares slices of ten rows in recycled
buffers: it clears the rows of the aperture and the left offsets, and converts to intensity in
place.

Memory is a function of the index of a sample. The values of a sample are any type with zero,
sum and product; the metadata are numbers of an ordered field.
-/

namespace Alus.PalsarFocus

open Alus.Lib

/-! ## Data -/

/-- `cufftComplex`. -/
structure CufftComplex (F : Type) where
  x : F
  y : F

structure DevicePaddedImage (F : Type) where
  xSize : Nat
  ySize : Nat
  xStride : Nat
  yStride : Nat
  xSize_le : xSize ≤ xStride
  ySize_le : ySize ≤ yStride
  data : Nat → CufftComplex F

/-- `SARMetadata`, as far as the image output reads it. -/
structure SarMetadata (R : Type) where
  leftRangeOffsets : List Nat
  slantRangeFirstSample : R
  rangeSpacing : R
  carrierFrequency : R
  pulseRepetitionFrequency : R
  azimuthBandwidthFraction : R
  vr : R
  dopplerCentroid : R

section Aperture

variable {R : Type} [Field R] [LinearOrder R] [FloorRing R] (metadata : SarMetadata R)

/-- `CalcR0`. -/
def calcR0 (rangePixel : Int) : R :=
  metadata.slantRangeFirstSample + rangePixel * metadata.rangeSpacing

/-- `CalcKa`, with `SOL` for the speed of light. -/
def calcKa (rangePixel : Int) : R :=
  (2 * metadata.carrierFrequency * metadata.vr * metadata.vr) /
    (299792458 * calcR0 metadata rangePixel)

/-- `CalcAperturePixels`. -/
def calcAperturePixels (rangePixel : Int) : Outcome Int :=
  let fmax := metadata.dopplerCentroid +
    (metadata.pulseRepetitionFrequency * metadata.azimuthBandwidthFraction) / 2
  int32 (stdRound ((fmax / calcKa metadata rangePixel) * metadata.pulseRepetitionFrequency))

end Aperture

/-- A pixel of the file. -/
inductive Pixel (F : Type) where
  | complex (sample : CufftComplex F)
  | intensity (value : F)

section Paths

variable {R F : Type} [Field R] [LinearOrder R] [FloorRing R] [Zero F] [Add F] [Mul F]
  (img : DevicePaddedImage F) (metadata : Option (SarMetadata R)) (complexOutput padding : Bool)

/-- The width of the dataset. -/
def datasetWidth : Nat := if padding then img.xStride else img.xSize

/-- The height of the dataset. -/
def datasetHeight : Nat := if padding then img.yStride else img.ySize

def intensity (sample : CufftComplex F) : F := sample.x * sample.x + sample.y * sample.y

/-- The pixel of a sample. -/
def toPixel (sample : CufftComplex F) : Pixel F :=
  if complexOutput then .complex sample else .intensity (intensity sample)

/-! ## The slow path -/

/-- `CopyToHostPaddedSize`, or `CopyToHostLogicalSize`. -/
def copyToHost (k : Nat) : CufftComplex F :=
  if padding then img.data k
  else img.data (k / img.xSize * img.xStride + k % img.xSize)

/-- A row that `RasterIO` writes from the host copy. -/
def rasterRow (y : Nat) : List (Pixel F) :=
  (List.range (datasetWidth img padding)).map fun x =>
    toPixel complexOutput (copyToHost img padding (y * datasetWidth img padding + x))

/-- The file of the slow path, row by row. -/
def rasterFile : Outcome (List (Nat × List (Pixel F))) := do
  let _ ← int32 (datasetWidth img padding * datasetHeight img padding)
  return (List.range (datasetHeight img padding)).map fun y =>
    (y, rasterRow img complexOutput padding y)

/-! ## The striped path -/

/-- `n_rows_per_slice`. -/
def nRowsPerSlice : Nat := 10

/-- `act_rows`. -/
def actRows (rowsTransferred : Nat) : Nat :=
  if rowsTransferred + nRowsPerSlice > img.ySize then img.ySize - rowsTransferred
  else nRowsPerSlice

/-- Clears `count` samples from `start` on. -/
def clearSamples (buffer : Nat → CufftComplex F) (start count k : Nat) : CufftComplex F :=
  if start ≤ k ∧ k < start + count then ⟨0, 0⟩ else buffer k

/-- How many samples of a row are cleared: the whole row near the top and the bottom, else the
left offset. -/
def clearedCount (aperatureSize : Int) (leftRangeOffsets : List Nat) (y : Nat) : Outcome Nat :=
  if y < aperatureSize then .ok img.xStride
  else do
    let bottom ← int32 (y + aperatureSize)
    if bottom > img.ySize then return img.xStride
    vectorAt leftRangeOffsets y

/-- The clearing of row `i` of a slice. A left offset may reach past its row, but not past the
buffer. -/
def clearRow (aperatureSize : Int) (leftRangeOffsets : List Nat) (rowsTransferred : Nat)
    (buffer : Nat → CufftComplex F) (i : Nat) : Outcome (Nat → CufftComplex F) := do
  let count ← clearedCount img aperatureSize leftRangeOffsets (rowsTransferred + i)
  if i * img.xStride + count ≤ nRowsPerSlice * img.xStride then
    return clearSamples buffer (i * img.xStride) count
  else .undefined

/-- The clearing of the rows of a slice, when there is metadata. -/
def clearSlice (rowsTransferred : Nat) (buffer : Nat → CufftComplex F) :
    Outcome (Nat → CufftComplex F) :=
  match metadata with
  | some metadata => do
    let aperatureSize ← calcAperturePixels metadata 0
    (List.range (actRows img rowsTransferred)).foldlM
      (clearRow img aperatureSize metadata.leftRangeOffsets rowsTransferred) buffer
  | none => .ok buffer

/-- One round of `InplaceComplexToIntensity`, on the samples from `base` on. -/
def inplaceStep (base : Nat) (data : Nat → CufftComplex F) (idx : Nat) : Nat → CufftComplex F :=
  let value := intensity (data (base + idx))
  let dest := base + idx / 2
  Function.update data dest
    (if idx % 2 = 0 then { data dest with x := value } else { data dest with y := value })

/-- `InplaceComplexToIntensity`. -/
def inplaceComplexToIntensity (data : Nat → CufftComplex F) (base n : Nat) :
    Nat → CufftComplex F :=
  (List.range n).foldl (inplaceStep base) data

/-- A host buffer as the producer leaves it for the writer. `old` is what the buffer held. -/
def prepareSlice (old : Nat → CufftComplex F) (rowsTransferred : Nat) :
    Outcome (Nat → CufftComplex F) := do
  let _ ← int32 (img.xStride * nRowsPerSlice)
  let _ ← int32 (rowsTransferred * img.xStride)
  let _ ← int32 (actRows img rowsTransferred * img.xStride * 8)
  -- past the rows of the slice, the buffer keeps what it held before
  let copied := fun k =>
    if k < actRows img rowsTransferred * img.xStride then
      img.data (rowsTransferred * img.xStride + k)
    else old k
  let cleared ← clearSlice img metadata rowsTransferred copied
  return if complexOutput then cleared
    else (List.range (actRows img rowsTransferred)).foldl (fun buffer i =>
      inplaceComplexToIntensity buffer (i * img.xStride) (datasetWidth img padding)) cleared

/-- The `k`-th value of the samples from `base` on, read as an array of `float`. -/
def floatAt (data : Nat → CufftComplex F) (base k : Nat) : F :=
  if k % 2 = 0 then (data (base + k / 2)).x else (data (base + k / 2)).y

/-- What `WriteBlock` reads from `base` on. -/
def blockPixels (buffer : Nat → CufftComplex F) (base : Nat) : List (Pixel F) :=
  (List.range (datasetWidth img padding)).map fun x =>
    if complexOutput then .complex (buffer (base + x)) else .intensity (floatAt buffer base x)

/-- A row of the striped path. Slices start at multiples of their height. -/
def stripedRow (old : Nat → CufftComplex F) (y : Nat) : Outcome (List (Pixel F)) := do
  let buffer ←
    prepareSlice img metadata complexOutput padding old (y / nRowsPerSlice * nRowsPerSlice)
  return blockPixels img complexOutput padding buffer (y % nRowsPerSlice * img.xStride)

/-- The call of the striped path, given its rows. -/
def stripedCall (row : Nat → List (Pixel F)) : WriteTiffCall (List (Pixel F)) where
  ySize := img.ySize
  yStride := img.yStride
  size_le_stride := img.ySize_le
  padding := padding
  nRowsPerSlice := nRowsPerSlice
  nRowsPerSlice_pos := by decide
  row := row

/-- The striped path prepares its rows whatever its buffers held before, and where its threads
come to an end without an error the file is that of the slow path. -/
def SamePixels : Prop :=
  ∃ file, rasterFile img complexOutput padding = .ok file ∧
    ∃ row, (∀ old, ∀ y < img.ySize,
        stripedRow img metadata complexOutput padding old y = .ok (row y)) ∧
      ∀ s, (stripedWriter (stripedCall img padding row)).Reachable s →
        (¬ ∃ t, (stripedWriter (stripedCall img padding row)).step s t) →
        s.gdalErr = false → s.stopFileWrite = false → s.file = file

end Paths

/-! ## The conversion in place -/

section Inplace

variable {F : Type} [Add F] [Mul F]

/-- The conversion leaves the intensities of the samples in the first floats of the array, in order;
the other floats, and what lies before the array, are as they were. -/
structure ConvertsInPlace (data : Nat → CufftComplex F) (base n : Nat) : Prop where
  intensities : ∀ k < n,
    floatAt (inplaceComplexToIntensity data base n) base k = intensity (data (base + k))
  rest : ∀ k, n ≤ k → floatAt (inplaceComplexToIntensity data base n) base k = floatAt data base k
  before : ∀ j < base, inplaceComplexToIntensity data base n j = data j

/-- A round writes one float. -/
theorem floatAt_inplaceStep (data : Nat → CufftComplex F) (base idx k : Nat) :
    floatAt (inplaceStep base data idx) base k =
      if k = idx then intensity (data (base + idx)) else floatAt data base k := by
  unfold floatAt inplaceStep
  rcases eq_or_ne (k / 2) (idx / 2) with hsame | hother
  · rw [hsame, Function.update_self]
    rcases Nat.mod_two_eq_zero_or_one k with hk | hk <;>
      rcases Nat.mod_two_eq_zero_or_one idx with hidx | hidx
    · rw [if_pos hk, if_pos hidx, if_pos (by omega)]
    -- the other component of the same sample
    · rw [if_pos hk, if_neg (by omega), if_neg (by omega), if_pos hk]
    · rw [if_neg (by omega), if_pos hidx, if_neg (by omega), if_neg (by omega)]
    · rw [if_neg (by omega), if_neg (by omega), if_pos (by omega)]
  · have hne : k ≠ idx := fun heq => hother (by rw [heq])
    rw [Function.update_of_ne (by omega), if_neg hne]

omit [Add F] [Mul F] in
/-- A sample is its two floats. -/
theorem sample_eq_of_floats {data data' : Nat → CufftComplex F} {base k : Nat}
    (hx : floatAt data base (2 * k) = floatAt data' base (2 * k))
    (hy : floatAt data base (2 * k + 1) = floatAt data' base (2 * k + 1)) :
    data (base + k) = data' (base + k) := by
  unfold floatAt at hx hy
  rw [if_pos (by omega), if_pos (by omega), Nat.mul_div_cancel_left k (by decide)] at hx
  rw [if_neg (by omega), if_neg (by omega), show (2 * k + 1) / 2 = k by omega] at hy
  cases hd : data (base + k) with
  | mk x y =>
    cases hd' : data' (base + k) with
    | mk x' y' =>
      rw [hd, hd'] at hx hy
      rw [show x = x' from hx, show y = y' from hy]

theorem inplaceComplexToIntensity_succ (data : Nat → CufftComplex F) (base n : Nat) :
    inplaceComplexToIntensity data base (n + 1) =
      inplaceStep base (inplaceComplexToIntensity data base n) n := by
  rw [inplaceComplexToIntensity, List.range_succ, List.foldl_append]
  rfl

/-- The floats from the number of rounds on are still those of the array; so is the sample that the
next round reads, whose first float lies at twice that number. -/
theorem convertsInPlace (data : Nat → CufftComplex F) (base n : Nat) :
    ConvertsInPlace data base n := by
  induction n with
  | zero => exact ⟨fun k hk => absurd hk (Nat.not_lt_zero k), fun k _ => rfl, fun j _ => rfl⟩
  | succ n ih =>
    have hunread : inplaceComplexToIntensity data base n (base + n) = data (base + n) :=
      sample_eq_of_floats (ih.rest _ (by omega)) (ih.rest _ (by omega))
    refine ⟨fun k hk => ?_, fun k hk => ?_, fun j hj => ?_⟩
    · rw [inplaceComplexToIntensity_succ, floatAt_inplaceStep, hunread]
      split
      · next heq => rw [heq]
      · exact ih.intensities k (by omega)
    · rw [inplaceComplexToIntensity_succ, floatAt_inplaceStep, if_neg (by omega)]
      exact ih.rest k (by omega)
    · rw [inplaceComplexToIntensity_succ, inplaceStep, Function.update_of_ne (by omega)]
      exact ih.before j hj

/-- Up to the sample that is read next, the values written are those of the samples read; the
samples outside are untouched. -/
theorem inplaceComplexToIntensity_spec (data : Nat → CufftComplex F) (base n : Nat) :
    (∀ k < n, floatAt (inplaceComplexToIntensity data base n) base k =
      intensity (data (base + k))) ∧
    ∀ j, (j < base ∨ base + n ≤ j) → inplaceComplexToIntensity data base n j = data j := by
  have h := convertsInPlace data base n
  refine ⟨h.intensities, fun j hj => ?_⟩
  rcases hj with hbefore | hbehind
  · exact h.before j hbefore
  · obtain ⟨k, rfl⟩ := Nat.exists_eq_add_of_le (show base ≤ j by omega)
    exact sample_eq_of_floats (h.rest _ (by omega)) (h.rest _ (by omega))

/-- An array of `n` samples. -/
def arraySamples (data : Nat → CufftComplex F) (base n : Nat) : List (CufftComplex F) :=
  (List.range n).map fun k => data (base + k)

/-- An array of `n` samples, read as an array of `float`. -/
def arrayFloats (data : Nat → CufftComplex F) (base n : Nat) : List F :=
  (List.range (2 * n)).map (floatAt data base)

/-- **The conversion in place.** The first half of the floats are the intensities of the samples, in
order, and the other half and what lies outside of the array are as they were. -/
theorem inplaceComplexToIntensity_array (data : Nat → CufftComplex F) (base n : Nat) :
    arrayFloats (inplaceComplexToIntensity data base n) base n =
        (arraySamples data base n).map intensity ++ (arrayFloats data base n).drop n ∧
      ∀ j, (j < base ∨ base + n ≤ j) → inplaceComplexToIntensity data base n j = data j := by
  have h := convertsInPlace data base n
  refine ⟨List.ext_getElem ?_ fun k hk hk' => ?_, (inplaceComplexToIntensity_spec data base n).2⟩
  · simp only [arrayFloats, arraySamples, List.length_map, List.length_range, List.length_append,
      List.length_drop]
    omega
  · have hlength : ((arraySamples data base n).map intensity).length = n := by
      rw [List.length_map, arraySamples, List.length_map, List.length_range]
    simp only [arrayFloats, List.length_map, List.length_range] at hk
    rcases Nat.lt_or_ge k n with hlt | hge
    · rw [List.getElem_append_left (by rwa [hlength])]
      simp only [arrayFloats, arraySamples, List.getElem_map, List.getElem_range]
      exact h.intensities k hlt
    · rw [List.getElem_append_right (by rwa [hlength])]
      simp only [arrayFloats, hlength, List.getElem_drop, List.getElem_map, List.getElem_range,
        Nat.add_sub_cancel' hge]
      exact h.rest k hge

/-- The rows of a slice do not share samples. -/
theorem inplaceRows_spec (data : Nat → CufftComplex F) {stride w : Nat} (hw : w ≤ stride)
    (rows : Nat) :
    (∀ i < rows, ∀ k < w, floatAt ((List.range rows).foldl (fun buffer i =>
        inplaceComplexToIntensity buffer (i * stride) w) data) (i * stride) k =
      intensity (data (i * stride + k))) ∧
    ∀ j, rows * stride ≤ j → (List.range rows).foldl (fun buffer i =>
        inplaceComplexToIntensity buffer (i * stride) w) data j = data j := by
  induction rows with
  | zero => exact ⟨fun i hi => absurd hi (Nat.not_lt_zero i), fun j _ => rfl⟩
  | succ rows ih =>
    obtain ⟨hread, hkept⟩ := ih
    rw [List.range_succ, List.foldl_append, List.foldl_cons, List.foldl_nil]
    generalize (List.range rows).foldl (fun buffer i =>
      inplaceComplexToIntensity buffer (i * stride) w) data = before at hread hkept
    obtain ⟨hrow, hothers⟩ := inplaceComplexToIntensity_spec before (rows * stride) w
    refine ⟨fun i hi k hk => ?_, fun j hj => ?_⟩
    · rcases Nat.lt_succ_iff_lt_or_eq.mp hi with hlt | rfl
      · have hend : (i + 1) * stride ≤ rows * stride := Nat.mul_le_mul_right stride hlt
        rw [Nat.succ_mul] at hend
        rw [← hread i hlt k hk, floatAt, floatAt, hothers _ (.inl (by omega))]
      · rw [hrow k hk, hkept _ (by omega)]
    · rw [Nat.succ_mul] at hj
      rw [hothers j (.inr (by omega)), hkept j (by omega)]

end Inplace

/-! ## The clearing -/

section Clearing

variable {F : Type} [Zero F] (img : DevicePaddedImage F) (aperatureSize : Int)
  (leftRangeOffsets : List Nat) (rowsTransferred : Nat)

/-- Row `i` of the slice clears the sample at `k`. -/
def Clears (i k : Nat) : Prop :=
  ∃ count, clearedCount img aperatureSize leftRangeOffsets (rowsTransferred + i) = .ok count ∧
    i * img.xStride ≤ k ∧ k < i * img.xStride + count

/-- The clearing of row `i` stays in the buffer. -/
def ClearsInside (i : Nat) : Prop :=
  ∃ count, clearedCount img aperatureSize leftRangeOffsets (rowsTransferred + i) = .ok count ∧
    i * img.xStride + count ≤ nRowsPerSlice * img.xStride

variable {img aperatureSize leftRangeOffsets rowsTransferred}

theorem clearRow_eq_ok {buffer buffer' : Nat → CufftComplex F} {i : Nat} :
    clearRow img aperatureSize leftRangeOffsets rowsTransferred buffer i = .ok buffer' ↔
      ∃ count, clearedCount img aperatureSize leftRangeOffsets (rowsTransferred + i) =
          .ok count ∧ i * img.xStride + count ≤ nRowsPerSlice * img.xStride ∧
        buffer' = clearSamples buffer (i * img.xStride) count := by
  rw [clearRow, Outcome.bind_eq_ok]
  refine exists_congr fun count => and_congr_right fun _ => ?_
  split
  · next hle => exact ⟨fun h => ⟨hle, (Outcome.ok.inj h).symm⟩, fun h => h.2 ▸ rfl⟩
  · next hgt => exact ⟨fun h => (nomatch h), fun h => absurd h.1 hgt⟩

omit [Zero F] in
theorem clears_iff {i count : Nat}
    (hcount : clearedCount img aperatureSize leftRangeOffsets (rowsTransferred + i) = .ok count)
    (k : Nat) :
    Clears img aperatureSize leftRangeOffsets rowsTransferred i k ↔
      i * img.xStride ≤ k ∧ k < i * img.xStride + count := by
  constructor
  · rintro ⟨count', hcount', hk⟩
    obtain rfl := Outcome.ok.inj (hcount.symm.trans hcount')
    exact hk
  · exact fun hk => ⟨count, hcount, hk⟩

/-- The rows of a slice are cleared one after the other. -/
theorem clearRows_spec (buffer : Nat → CufftComplex F) (rows : Nat) :
    (∀ buffer', (List.range rows).foldlM
        (clearRow img aperatureSize leftRangeOffsets rowsTransferred) buffer = .ok buffer' →
      (∀ i < rows, ClearsInside img aperatureSize leftRangeOffsets rowsTransferred i) ∧
      ∀ k, ((∃ i < rows, Clears img aperatureSize leftRangeOffsets rowsTransferred i k) →
          buffer' k = ⟨0, 0⟩) ∧
        ((¬ ∃ i < rows, Clears img aperatureSize leftRangeOffsets rowsTransferred i k) →
          buffer' k = buffer k)) ∧
    ((∀ i < rows, ClearsInside img aperatureSize leftRangeOffsets rowsTransferred i) →
      ∃ buffer', (List.range rows).foldlM
        (clearRow img aperatureSize leftRangeOffsets rowsTransferred) buffer = .ok buffer') := by
  induction rows with
  | zero =>
    refine ⟨fun buffer' h => ?_, fun _ => ⟨buffer, rfl⟩⟩
    obtain rfl := Outcome.ok.inj h
    exact ⟨fun i hi => absurd hi (Nat.not_lt_zero i),
      fun k => ⟨fun ⟨i, hi, _⟩ => absurd hi (Nat.not_lt_zero i), fun _ => rfl⟩⟩
  | succ rows ih =>
    obtain ⟨hspec, hexists⟩ := ih
    rw [List.range_succ, List.foldlM_append, Nat.forall_lt_succ_right]
    simp only [Nat.exists_lt_succ_right]
    constructor
    · intro buffer' h
      obtain ⟨before, hbefore, hrow⟩ := Outcome.bind_eq_ok.mp h
      obtain ⟨hinside, hcleared⟩ := hspec before hbefore
      rw [List.foldlM_cons, Outcome.bind_eq_ok] at hrow
      obtain ⟨after, hrow, hend⟩ := hrow
      obtain rfl := Outcome.ok.inj hend
      obtain ⟨count, hcount, hle, rfl⟩ := clearRow_eq_ok.mp hrow
      refine ⟨⟨hinside, count, hcount, hle⟩, fun k => ?_⟩
      rw [clears_iff hcount, clearSamples]
      -- the last row clears the sample, or leaves it to the rows before
      split
      · next hin => exact ⟨fun _ => rfl, fun hnone => absurd (.inr hin) hnone⟩
      · next hout =>
        constructor
        · rintro (hearlier | hlast)
          · exact (hcleared k).1 hearlier
          · exact absurd hlast hout
        · exact fun hnone => (hcleared k).2 fun hearlier => hnone (.inl hearlier)
    · rintro ⟨hinside, count, hcount, hle⟩
      obtain ⟨before, hbefore⟩ := hexists hinside
      refine ⟨clearSamples before (rows * img.xStride) count, ?_⟩
      rw [hbefore, Outcome.ok_bind, List.foldlM_cons,
        clearRow_eq_ok.mpr ⟨count, hcount, hle, rfl⟩]
      rfl

end Clearing

/-! ## One slice -/

section Slice

variable {R F : Type} [Field R] [LinearOrder R] [FloorRing R] [Zero F] [Add F] [Mul F]
  (img : DevicePaddedImage F) (metadata : Option (SarMetadata R)) (complexOutput padding : Bool)

/-- The products of the slice fit an `int`, and its clearing stays in the buffer. -/
structure SliceReady (rowsTransferred : Nat) : Prop where
  buffer_fits : Fits 32 (img.xStride * nRowsPerSlice)
  start_fits : Fits 32 (rowsTransferred * img.xStride)
  bytes_fit : Fits 32 (actRows img rowsTransferred * img.xStride * 8)
  inside : ∀ data, metadata = some data → ∃ aperatureSize,
    calcAperturePixels data 0 = .ok aperatureSize ∧
    ∀ i < actRows img rowsTransferred,
      ClearsInside img aperatureSize data.leftRangeOffsets rowsTransferred i

/-- The sample at `k` of the slice is cleared. -/
def SliceClears (rowsTransferred k : Nat) : Prop :=
  ∃ data aperatureSize, metadata = some data ∧ calcAperturePixels data 0 = .ok aperatureSize ∧
    ∃ i < actRows img rowsTransferred,
      Clears img aperatureSize data.leftRangeOffsets rowsTransferred i k

variable {img metadata complexOutput padding}

omit [Zero F] [Add F] [Mul F] in
theorem datasetWidth_le : datasetWidth img padding ≤ img.xStride := by
  unfold datasetWidth
  split
  · exact le_refl _
  · exact img.xSize_le

/-- What a prepared buffer holds for the writer. -/
theorem prepareSlice_pixels {old buffer : Nat → CufftComplex F} {rowsTransferred : Nat}
    (h : prepareSlice img metadata complexOutput padding old rowsTransferred = .ok buffer) :
    SliceReady img metadata rowsTransferred ∧ ∃ cleared : Nat → CufftComplex F,
      (∀ k < actRows img rowsTransferred * img.xStride,
        (SliceClears img metadata rowsTransferred k → cleared k = ⟨0, 0⟩) ∧
        (¬ SliceClears img metadata rowsTransferred k →
          cleared k = img.data (rowsTransferred * img.xStride + k))) ∧
      ∀ i < actRows img rowsTransferred,
        blockPixels img complexOutput padding buffer (i * img.xStride) =
          (List.range (datasetWidth img padding)).map fun x =>
            toPixel complexOutput (cleared (i * img.xStride + x)) := by
  simp only [prepareSlice, Outcome.bind_eq_ok, int32_eq_ok, Outcome.pure_eq,
    Outcome.ok.injEq] at h
  obtain ⟨_, ⟨hbuffer, -⟩, _, ⟨hstart, -⟩, _, ⟨hbytes, -⟩, cleared, hcleared, rfl⟩ := h
  have hpixels : ∀ i < actRows img rowsTransferred,
      blockPixels img complexOutput padding (if complexOutput then cleared
        else (List.range (actRows img rowsTransferred)).foldl (fun buffer i =>
          inplaceComplexToIntensity buffer (i * img.xStride) (datasetWidth img padding)) cleared)
        (i * img.xStride) =
      (List.range (datasetWidth img padding)).map fun x =>
        toPixel complexOutput (cleared (i * img.xStride + x)) := by
    intro i hi
    refine List.map_congr_left fun x hx => ?_
    cases complexOutput with
    | true => rfl
    | false =>
      show Pixel.intensity _ = Pixel.intensity _
      rw [if_neg Bool.false_ne_true,
        (inplaceRows_spec cleared datasetWidth_le _).1 i hi x (List.mem_range.mp hx)]
  -- without metadata no column is cleared
  cases metadata with
  | none =>
    obtain rfl := Outcome.ok.inj hcleared
    refine ⟨⟨hbuffer, hstart, hbytes, fun _ h => ?_⟩, _, fun k hk => ⟨?_, fun _ => if_pos hk⟩,
      hpixels⟩
    · cases h
    · rintro ⟨_, _, h, _⟩
      cases h
  | some data =>
    obtain ⟨aperatureSize, haperture, hrows⟩ := Outcome.bind_eq_ok.mp hcleared
    obtain ⟨hinside, hvalues⟩ := (clearRows_spec _ _).1 cleared hrows
    refine ⟨⟨hbuffer, hstart, hbytes, fun _ h => ?_⟩, cleared, fun k hk => ⟨?_, fun hnot => ?_⟩,
      hpixels⟩
    · obtain rfl := Option.some.inj h
      exact ⟨aperatureSize, haperture, hinside⟩
    · rintro ⟨_, _, h, haperture', hclears⟩
      obtain rfl := Option.some.inj h
      obtain rfl := Outcome.ok.inj (haperture.symm.trans haperture')
      exact (hvalues k).1 hclears
    · rw [(hvalues k).2 fun hclears => hnot ⟨data, aperatureSize, rfl, haperture, hclears⟩]
      exact if_pos hk

theorem exists_prepareSlice {rowsTransferred : Nat}
    (h : SliceReady img metadata rowsTransferred) (old : Nat → CufftComplex F) :
    ∃ buffer, prepareSlice img metadata complexOutput padding old rowsTransferred =
      .ok buffer := by
  have hclear : ∀ copied, ∃ cleared,
      clearSlice img metadata rowsTransferred copied = .ok cleared := by
    intro copied
    cases metadata with
    | none => exact ⟨copied, rfl⟩
    | some data =>
      obtain ⟨aperatureSize, haperture, hinside⟩ := h.inside data rfl
      obtain ⟨cleared, hcleared⟩ := (clearRows_spec copied _).2 hinside
      exact ⟨cleared, Outcome.bind_eq_ok.mpr ⟨aperatureSize, haperture, hcleared⟩⟩
  obtain ⟨cleared, hcleared⟩ := hclear fun k =>
    if k < actRows img rowsTransferred * img.xStride then
      img.data (rowsTransferred * img.xStride + k)
    else old k
  simp only [prepareSlice, int32_of_fits h.buffer_fits, int32_of_fits h.start_fits,
    int32_of_fits h.bytes_fit, Outcome.ok_bind, hcleared, Outcome.pure_eq]
  exact ⟨_, rfl⟩

end Slice

/-! ## One row -/

section Row

variable {R F : Type} [Field R] [LinearOrder R] [FloorRing R] [Zero F] [Add F] [Mul F]
  {img : DevicePaddedImage F} {metadata : Option (SarMetadata R)} {complexOutput padding : Bool}

omit [Zero F] in
/-- The host copy holds the rows of the image side by side. -/
theorem rasterRow_eq (y : Nat) :
    rasterRow img complexOutput padding y = (List.range (datasetWidth img padding)).map fun x =>
      toPixel complexOutput (img.data (y * img.xStride + x)) := by
  refine List.map_congr_left fun x hx => congrArg _ ?_
  have hlt := List.mem_range.mp hx
  cases padding with
  | true => rfl
  | false =>
    have hlt' : x < img.xSize := hlt
    show img.data ((y * img.xSize + x) / img.xSize * img.xStride + (y * img.xSize + x) % img.xSize)
      = img.data (y * img.xStride + x)
    rw [Nat.mul_comm y img.xSize, Nat.mul_add_div (by omega), Nat.div_eq_of_lt hlt',
      Nat.mul_add_mod, Nat.mod_eq_of_lt hlt', Nat.add_zero]

omit [Zero F] [Add F] [Mul F] in
theorem mod_lt_actRows {y : Nat} (hy : y < img.ySize) :
    y % nRowsPerSlice < actRows img (y / nRowsPerSlice * nRowsPerSlice) := by
  unfold actRows nRowsPerSlice
  split <;> omega

/-- A row of the striped path is that of the slow path when its slice can be prepared and what is
cleared in the row is zero. -/
theorem stripedRow_eq_iff {y : Nat} (hy : y < img.ySize) (old : Nat → CufftComplex F) :
    stripedRow img metadata complexOutput padding old y =
        .ok (rasterRow img complexOutput padding y) ↔
      SliceReady img metadata (y / nRowsPerSlice * nRowsPerSlice) ∧
      ∀ x < datasetWidth img padding,
        SliceClears img metadata (y / nRowsPerSlice * nRowsPerSlice)
          (y % nRowsPerSlice * img.xStride + x) →
        toPixel complexOutput (img.data (y * img.xStride + x)) =
          toPixel complexOutput ⟨0, 0⟩ := by
  have hrow := mod_lt_actRows hy
  -- the line's place in its slice
  have hindex : ∀ x, y / nRowsPerSlice * nRowsPerSlice * img.xStride +
      (y % nRowsPerSlice * img.xStride + x) = y * img.xStride + x := by
    intro x
    rw [← Nat.add_assoc, ← Nat.add_mul, Nat.div_add_mod']
  -- the slice has the whole line
  have hinside : ∀ x < datasetWidth img padding, y % nRowsPerSlice * img.xStride + x <
      actRows img (y / nRowsPerSlice * nRowsPerSlice) * img.xStride := by
    intro x hx
    have hend := Nat.mul_le_mul_right img.xStride (Nat.succ_le_of_lt hrow)
    have hw : datasetWidth img padding ≤ img.xStride := datasetWidth_le
    rw [Nat.succ_mul] at hend
    omega
  rw [stripedRow, Outcome.bind_eq_ok, rasterRow_eq]
  simp only [Outcome.pure_eq, Outcome.ok.injEq]
  refine ⟨fun ⟨buffer, hbuffer, hsame⟩ => ?_, fun ⟨hready, hzero⟩ => ?_⟩
  · obtain ⟨hready, cleared, hcleared, hpixels⟩ := prepareSlice_pixels hbuffer
    rw [hpixels _ hrow, List.map_inj_left] at hsame
    refine ⟨hready, fun x hx hclears => ?_⟩
    rw [← hsame x (List.mem_range.mpr hx), (hcleared _ (hinside x hx)).1 hclears]
  · obtain ⟨buffer, hbuffer⟩ := exists_prepareSlice hready old
    obtain ⟨-, cleared, hcleared, hpixels⟩ := prepareSlice_pixels hbuffer
    refine ⟨buffer, hbuffer, ?_⟩
    rw [hpixels _ hrow, List.map_inj_left]
    intro x hx
    have hlt := List.mem_range.mp hx
    by_cases hclears : SliceClears img metadata (y / nRowsPerSlice * nRowsPerSlice)
      (y % nRowsPerSlice * img.xStride + x)
    · rw [(hcleared _ (hinside x hlt)).1 hclears, hzero x hlt hclears]
    · rw [(hcleared _ (hinside x hlt)).2 hclears, hindex]

end Row

/-! ## Results -/

section Results

variable {R F : Type} [Field R] [LinearOrder R] [FloorRing R] [Zero F] [Add F] [Mul F]
  (img : DevicePaddedImage F) (metadata : Option (SarMetadata R)) (complexOutput padding : Bool)

/-- No row of the dataset is past the image, every slice can be prepared, and the clearing
changes no pixel. -/
structure ClearingChangesNothing : Prop where
  rows : padding = false ∨ img.yStride = img.ySize
  size_fits : Fits 32 (datasetWidth img padding * datasetHeight img padding)
  slices : ∀ y < img.ySize, SliceReady img metadata (y / nRowsPerSlice * nRowsPerSlice)
  zero : ∀ y < img.ySize, ∀ x < datasetWidth img padding,
    SliceClears img metadata (y / nRowsPerSlice * nRowsPerSlice)
      (y % nRowsPerSlice * img.xStride + x) →
    toPixel complexOutput (img.data (y * img.xStride + x)) = toPixel complexOutput ⟨0, 0⟩

variable {img metadata complexOutput padding} in
theorem SamePixels.clearingChangesNothing
    (h : SamePixels img metadata complexOutput padding) :
    ClearingChangesNothing img metadata complexOutput padding := by
  unfold SamePixels rasterFile at h
  simp only [Outcome.bind_eq_ok, int32_eq_ok, Outcome.pure_eq, Outcome.ok.injEq] at h
  obtain ⟨file, ⟨_, ⟨hfits, -⟩, rfl⟩, row, hrow, hend⟩ := h
  obtain ⟨s, hreach, hstuck, hgdal, hstop, hfile⟩ :=
    exists_end (stripedCall img padding row) fun _ _ => []
  rw [hend s hreach hstuck hgdal hstop] at hfile
  have hheight : datasetHeight img padding = img.ySize := by
    have hlength := congrArg List.length hfile
    rwa [List.length_map, List.length_map, List.length_range, List.length_range] at hlength
  rw [hheight] at hfile
  have hsame : ∀ y < img.ySize, rasterRow img complexOutput padding y = row y := by
    intro y hy
    have hpair := List.map_inj_left.mp hfile y (List.mem_range.mpr hy)
    exact congrArg Prod.snd hpair
  have hboth := fun y hy => (stripedRow_eq_iff hy fun _ => ⟨0, 0⟩).mp
    ((hsame y hy).symm ▸ hrow (fun _ => ⟨0, 0⟩) y hy)
  refine ⟨?_, hfits, fun y hy => (hboth y hy).1, fun y hy => (hboth y hy).2⟩
  exact (totalRows_eq_iff (stripedCall img padding row)).mp hheight

/-- **When the two write paths agree.** For every image, metadata, kind of output and padding, the
striped path writes the pixels of the slow path, in every run of its threads, exactly when the
dataset has no rows past the image, the slices fit their buffers, and the aperture rows and left
offsets that only the striped path clears have the value zero already. -/
theorem samePixels_iff :
    SamePixels img metadata complexOutput padding ↔
      ClearingChangesNothing img metadata complexOutput padding := by
  refine ⟨SamePixels.clearingChangesNothing, fun h => ?_⟩
  refine ⟨_, by rw [rasterFile, int32_of_fits h.size_fits, Outcome.ok_bind, Outcome.pure_eq],
    rasterRow img complexOutput padding, fun old y hy =>
      (stripedRow_eq_iff hy old).mpr ⟨h.slices y hy, h.zero y hy⟩,
    fun s hreach hstuck hgdal hstop => ?_⟩
  have htotal := (totalRows_eq_iff
    (stripedCall img padding (rasterRow img complexOutput padding))).mpr h.rows
  have hinv := stripedInv_of_reachable hreach
  -- a state without a step is final, so that the writer has returned after the last row
  have hfinal : s.Final := by
    by_contra hnot
    exact hstuck (hinv.progress htotal hnot)
  obtain ⟨held, hp⟩ := hfinal
  obtain ⟨held', hw⟩ := hinv.finished held hp
  have hat := hinv.writerAt
  simp only [StripedState.WriterAt, hw, hgdal, hstop, Bool.false_eq_true, or_false] at hat
  have hall : s.rowsWritten = datasetHeight img padding :=
    Nat.le_antisymm ((hinv.written_le.trans hinv.transferred_le).trans htotal.ge) hat
  rw [hinv.file_eq, hall]
  rfl

/-- An image of one sample. -/
def oneSample : DevicePaddedImage Int where
  xSize := 1
  ySize := 1
  xStride := 1
  yStride := 1
  xSize_le := le_refl 1
  ySize_le := le_refl 1
  data _ := ⟨1, 0⟩

/-- Metadata with an aperture of one row. -/
def oneRowAperture : SarMetadata ℚ where
  leftRangeOffsets := [0]
  slantRangeFirstSample := 2
  rangeSpacing := 1
  carrierFrequency := 299792458
  pulseRepetitionFrequency := 1
  azimuthBandwidthFraction := 2
  vr := 1
  dopplerCentroid := 0

/-- The striped path clears the sample, the slow path writes it. -/
theorem not_samePixels_oneSample : ¬ SamePixels oneSample (some oneRowAperture) true false := by
  intro h
  have haperture : calcAperturePixels oneRowAperture 0 = .ok 1 := by decide +kernel
  have hclears : SliceClears oneSample (some oneRowAperture) 0 0 :=
    ⟨oneRowAperture, 1, rfl, haperture, 0, by decide, 1, by decide, by decide, by decide⟩
  have hzero := h.clearingChangesNothing.zero 0 (by decide) 0 (by decide) hclears
  cases hzero

end Results

end Alus.PalsarFocus
