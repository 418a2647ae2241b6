import Alus.Lib.Kernel
import Alus.PalsarFocus.ImgOutput

/-!
# Raw samples

`FormatRawIQ8` (`palsar-focus/src/dc_bias.cu`) takes the samples out of the signal data records,
without their headers, and shifts each row to the right by the offset of its slant range.
`ApplyDCBias` turns the samples into numbers less the mean, in an image that it pads with zeros.

Device memory is a function of the index, that holds anything before it is written. An index is an
`int` where it is used.
-/

namespace Alus.PalsarFocus

open Alus.Lib

/-! ## Data -/

/-- `IQ8`. -/
structure Iq8 where
  i : UInt8
  q : UInt8
  deriving DecidableEq, Repr

/-- `NO_DATA`, for both of a pair. -/
def noData : Iq8 := ⟨0xFF, 0xFF⟩

/-- `ImgFormat`. The reader of the metadata throws for records with more than a header and the
samples. -/
structure ImgFormat where
  rangeSize : Nat
  azimuthSize : Nat
  dataLineOffset : Nat
  recordLength : Nat
  recordLength_eq : recordLength = rangeSize * 2 + dataLineOffset

/-- Bytes accessed via `IQ8*`. -/
def iq8At (bytes : Nat → UInt8) (k : Nat) : Iq8 := ⟨bytes (2 * k), bytes (2 * k + 1)⟩

/-- A sample of a record: the bytes after its header. -/
def ImgFormat.sample (img : ImgFormat) (bytes : Nat → UInt8) (x y : Nat) : Iq8 :=
  ⟨bytes (y * img.recordLength + img.dataLineOffset + 2 * x),
    bytes (y * img.recordLength + img.dataLineOffset + 2 * x + 1)⟩

/-! ## `FormatRawIQ8` -/

/-- `CorrectRawKernel`. -/
def correctRawKernel (dataIn : Nat → Iq8) (xSize ySize rowOffset : Nat) (offsets : Nat → Nat)
    (x y : Nat) : Outcome (Option (Nat × Iq8)) :=
  let offset := offsets y
  let inIdx := index32 (x + rowOffset + y * (xSize + rowOffset))
  if x < xSize ∧ y < ySize then do
    let outIdx ← index32 (x + y * xSize)
    if offset = 0 then
      return some (outIdx, dataIn (← inIdx))
    else if x < offset then
      return some (outIdx, noData)
    else
      let shifted ← index32 (offset + x)
      if shifted < xSize then
        return some (outIdx + offset, dataIn (← inIdx))
      else return none
  else return none

def formatRawIq8 (s : Scheduler) (signalIn : Nat → UInt8) (signalOut : Nat → Iq8)
    (img : ImgFormat) (offsets : Nat → Nat) : Outcome (Nat → Iq8) := do
  let grid : Dim3 :=
    ⟨(← index32 (img.rangeSize + 15)) / 16, (← index32 (img.azimuthSize + 15)) / 16⟩
  let rowOffset := img.dataLineOffset / 2
  let signalOut ← launchStores s grid ⟨16, 16⟩
    (correctRawKernel (iq8At signalIn) img.rangeSize img.azimuthSize rowOffset offsets) signalOut
  -- `cudaGetLastError` finds a launch that was refused
  Outcome.require grid.Valid
  return signalOut

/-- What the rows should hold: the marker up to the offset, and all the samples after it that
there is room for. -/
structure RowsShifted (img : ImgFormat) (offsets : Nat → Nat) (signalIn : Nat → UInt8)
    (signalOut : Nat → Iq8) : Prop where
  marked : ∀ x y, x < img.rangeSize → y < img.azimuthSize → x < offsets y →
    signalOut (y * img.rangeSize + x) = noData
  shifted : ∀ x y, x < img.rangeSize → y < img.azimuthSize → offsets y ≤ x →
    signalOut (y * img.rangeSize + x) = img.sample signalIn (x - offsets y) y
  noneLost : ∀ x y, y < img.azimuthSize → x + offsets y < img.rangeSize →
    signalOut (y * img.rangeSize + (x + offsets y)) = img.sample signalIn x y

/-- Whatever the records are and the output memory held before, the rows are shifted. -/
def FormatsRows (s : Scheduler) (img : ImgFormat) (offsets : Nat → Nat) : Prop :=
  ∀ signalIn memory, ∃ signalOut, formatRawIq8 s signalIn memory img offsets = .ok signalOut ∧
    RowsShifted img offsets signalIn signalOut

/-- No row has to be shifted within its width, the device takes the grid, and the indices fit. -/
structure RowsKept (img : ImgFormat) (offsets : Nat → Nat) : Prop where
  range : 0 < img.rangeSize ∧ img.rangeSize ≤ 2147483632
  azimuth : 0 < img.azimuthSize ∧ img.azimuthSize ≤ 1048560
  size : img.rangeSize * img.azimuthSize ≤ 2147483648
  offset : ∀ y < img.azimuthSize, offsets y = 0 ∨ img.rangeSize ≤ offsets y
  input : ∀ y < img.azimuthSize, offsets y = 0 → 2 ∣ img.dataLineOffset ∧
    (y + 1) * (img.rangeSize + img.dataLineOffset / 2) ≤ 2147483648

section Format

variable {dataIn : Nat → Iq8} {xSize ySize rowOffset : Nat} {offsets : Nat → Nat} {x y : Nat}

/-- What a thread stores: in its own place where the row has no offset or the place is before it,
else the offset further. -/
theorem correctRawKernel_eq_store {k : Nat} {a : Iq8}
    (h : correctRawKernel dataIn xSize ySize rowOffset offsets x y = .ok (some (k, a))) :
    (x < xSize ∧ y < ySize) ∧
      ((offsets y = 0 ∧ k = x + y * xSize ∧
          a = dataIn (x + rowOffset + y * (xSize + rowOffset))) ∨
        (x < offsets y ∧ k = x + y * xSize ∧ a = noData) ∨
        (0 < offsets y ∧ offsets y ≤ x ∧ offsets y + x < xSize ∧
          k = x + y * xSize + offsets y)) := by
  unfold correctRawKernel at h
  by_cases hin : x < xSize ∧ y < ySize
  · refine ⟨hin, ?_⟩
    simp only [if_pos hin, Outcome.bind_eq_ok, index32_eq_ok] at h
    -- the three branches: no offset, the columns before it, and those behind
    obtain ⟨outIdx, ⟨-, rfl⟩, h⟩ := h
    split at h
    · next h0 =>
      simp only [Outcome.bind_eq_ok, index32_eq_ok, Outcome.pure_eq, Outcome.ok.injEq,
        Option.some.injEq, Prod.mk.injEq] at h
      obtain ⟨inIdx, ⟨-, rfl⟩, rfl, rfl⟩ := h
      exact .inl ⟨h0, rfl, rfl⟩
    · next h0 =>
      split at h
      · next hlt =>
        simp only [Outcome.pure_eq, Outcome.ok.injEq, Option.some.injEq, Prod.mk.injEq] at h
        exact .inr (.inl ⟨hlt, h.1.symm, h.2.symm⟩)
      · next hge =>
        simp only [Outcome.bind_eq_ok, index32_eq_ok] at h
        obtain ⟨shifted, ⟨-, rfl⟩, h⟩ := h
        split at h
        · next hroom =>
          simp only [Outcome.bind_eq_ok, Outcome.pure_eq, Outcome.ok.injEq, Option.some.injEq,
            Prod.mk.injEq] at h
          obtain ⟨inIdx, -, rfl, -⟩ := h
          exact .inr (.inr ⟨by omega, by omega, hroom, rfl⟩)
        · cases h
  · rw [if_neg hin] at h
    cases h

/-- A thread that returns has an index that fits, and so has one that reads. -/
theorem index_of_correctRawKernel {w : Option (Nat × Iq8)}
    (h : correctRawKernel dataIn xSize ySize rowOffset offsets x y = .ok w) (hx : x < xSize)
    (hy : y < ySize) : x + y * xSize < 2147483648 ∧
      (offsets y = 0 → x + rowOffset + y * (xSize + rowOffset) < 2147483648) := by
  simp only [correctRawKernel, if_pos (And.intro hx hy), Outcome.bind_eq_ok, index32_eq_ok] at h
  obtain ⟨outIdx, ⟨hout, rfl⟩, h⟩ := h
  refine ⟨hout, fun h0 => ?_⟩
  simp only [if_pos h0, Outcome.bind_eq_ok, index32_eq_ok] at h
  obtain ⟨inIdx, ⟨hin, -⟩, -⟩ := h
  exact hin

end Format

section Rows

variable {s : Scheduler} {img : ImgFormat} {offsets : Nat → Nat}

/-- The kernel, as `FormatRawIQ8` launches it. -/
def formatKernel (img : ImgFormat) (offsets : Nat → Nat) (signalIn : Nat → UInt8) :
    Nat → Nat → Outcome (Option (Nat × Iq8)) :=
  correctRawKernel (iq8At signalIn) img.rangeSize img.azimuthSize (img.dataLineOffset / 2) offsets

/-- The grid of one thread a sample. -/
def formatGrid (img : ImgFormat) : Dim3 :=
  ⟨(img.rangeSize + 15) / 16, (img.azimuthSize + 15) / 16⟩

theorem formatRawIq8_eq_ok {signalIn : Nat → UInt8} {memory signalOut : Nat → Iq8} :
    formatRawIq8 s signalIn memory img offsets = .ok signalOut ↔
      (img.rangeSize + 15 < 2147483648 ∧ img.azimuthSize + 15 < 2147483648) ∧
        (formatGrid img).Valid ∧ launchStores s (formatGrid img) ⟨16, 16⟩
          (formatKernel img offsets signalIn) memory = .ok signalOut := by
  simp only [formatRawIq8, Outcome.bind_eq_ok, index32_eq_ok, Outcome.require_eq_ok,
    Outcome.pure_eq, Outcome.ok.injEq]
  constructor
  · rintro ⟨_, ⟨hx, rfl⟩, _, ⟨hy, rfl⟩, out, hrun, -, hvalid, rfl⟩
    exact ⟨⟨hx, hy⟩, hvalid, hrun⟩
  · rintro ⟨⟨hx, hy⟩, hvalid, hrun⟩
    exact ⟨_, ⟨hx, rfl⟩, _, ⟨hy, rfl⟩, signalOut, hrun, ⟨⟩, hvalid, rfl⟩

theorem formatGrid_valid_iff : (formatGrid img).Valid ∧ img.rangeSize + 15 < 2147483648 ↔
    (0 < img.rangeSize ∧ img.rangeSize ≤ 2147483632) ∧
      0 < img.azimuthSize ∧ img.azimuthSize ≤ 1048560 := by
  simp only [Dim3.Valid, formatGrid]
  omega

theorem lt_formatGrid {x y : Nat} (hx : x < img.rangeSize) (hy : y < img.azimuthSize) :
    x < (formatGrid img).x * 16 ∧ y < (formatGrid img).y * 16 := by
  simp only [formatGrid]
  omega

/-- With an even header, a sample of the record is one of the pairs that it is accessed by. -/
theorem iq8At_eq_sample (signalIn : Nat → UInt8) (hheader : 2 ∣ img.dataLineOffset) (x y : Nat) :
    iq8At signalIn (x + img.dataLineOffset / 2 +
      y * (img.rangeSize + img.dataLineOffset / 2)) = img.sample signalIn x y := by
  obtain ⟨half, hhalf⟩ := hheader
  have hindex : 2 * (x + half + y * (img.rangeSize + half)) =
      y * img.recordLength + img.dataLineOffset + 2 * x := by
    rw [img.recordLength_eq, hhalf]
    ring
  rw [iq8At, ImgFormat.sample, show img.dataLineOffset / 2 = half by omega, hindex]

/-- With rows kept, a thread stores what belongs in its own place. -/
theorem RowsKept.kernel_eq (h : RowsKept img offsets) (signalIn : Nat → UInt8) {x y : Nat}
    (hx : x < img.rangeSize) (hy : y < img.azimuthSize) :
    formatKernel img offsets signalIn x y = .ok (some (y * img.rangeSize + x,
      if x < offsets y then noData else img.sample signalIn (x - offsets y) y)) := by
  have hout : x + y * img.rangeSize < 2147483648 := by
    have hlt := row_index_lt hx hy
    have hsize := h.size
    omega
  rw [formatKernel, correctRawKernel, if_pos ⟨hx, hy⟩, index32_of_lt hout, Outcome.ok_bind,
    Nat.add_comm x (y * img.rangeSize)]
  rcases h.offset y hy with h0 | hfar
  · obtain ⟨heven, hfits⟩ := h.input y hy h0
    have hin : x + img.dataLineOffset / 2 +
        y * (img.rangeSize + img.dataLineOffset / 2) < 2147483648 := by
      rw [Nat.add_one_mul] at hfits
      omega
    rw [if_pos h0, index32_of_lt hin, if_neg (by omega), h0, Nat.sub_zero,
      ← iq8At_eq_sample signalIn heven]
    rfl
  · rw [if_neg (by omega), if_pos (by omega), if_pos (by omega)]
    rfl

theorem formatsRows_of_rowsKept (h : RowsKept img offsets) : FormatsRows s img offsets := by
  intro signalIn memory
  obtain ⟨hvalid, hrange⟩ := formatGrid_valid_iff.mpr ⟨h.range, h.azimuth⟩
  have hazimuth := h.azimuth
  -- every place is stored to by its own thread and no other
  have hfull : ∃ signalOut, launchStores s (formatGrid img) ⟨16, 16⟩
        (formatKernel img offsets signalIn) memory = .ok signalOut ∧
      ∀ x y, x < img.rangeSize → y < img.azimuthSize → signalOut (y * img.rangeSize + x) =
        if x < offsets y then noData else img.sample signalIn (x - offsets y) y := by
    apply exists_launchImage s hvalid
    · show img.rangeSize ≤ (img.rangeSize + 15) / 16 * 16
      omega
    · show img.azimuthSize ≤ (img.azimuthSize + 15) / 16 * 16
      omega
    · intro x y hx hy
      exact h.kernel_eq signalIn hx hy
    · intro x y hout w hw
      exact hout (correctRawKernel_eq_store hw).1
    · intro x _ y _
      by_cases hin : x < img.rangeSize ∧ y < img.azimuthSize
      · exact ⟨_, h.kernel_eq signalIn hin.1 hin.2⟩
      · exact ⟨none, by rw [formatKernel, correctRawKernel, if_neg hin]; rfl⟩
  obtain ⟨signalOut, hrun, hcell⟩ := hfull
  refine ⟨signalOut, formatRawIq8_eq_ok.mpr ⟨⟨hrange, by omega⟩, hvalid, hrun⟩, ?_⟩
  refine ⟨fun x y hx hy hlt => ?_, fun x y hx hy hle => ?_, fun x y hy hroom => ?_⟩
  · rw [hcell x y hx hy, if_pos hlt]
  · rw [hcell x y hx hy, if_neg (by omega)]
  · rw [hcell _ y hroom hy, if_neg (by omega), Nat.add_sub_cancel]

/-- In a row that is shifted within its width nothing is stored at the offset itself: the threads
before the offset store the marker before it, and the others at least twice the offset away. -/
theorem not_store_at_offset {signalIn : Nat → UInt8} {x y y' : Nat} {a : Iq8}
    (hpos : 0 < offsets y) (hlt : offsets y < img.rangeSize) :
    formatKernel img offsets signalIn x y' ≠ .ok (some (y * img.rangeSize + offsets y, a)) := by
  intro h
  obtain ⟨hin, hplace⟩ := correctRawKernel_eq_store h
  rcases hplace with ⟨h0, hk, -⟩ | ⟨hx, hk, -⟩ | ⟨-, hx, hroom, hk⟩
  -- the row of the place is shifted, that of the thread is not
  · rw [Nat.add_comm x] at hk
    obtain ⟨rfl, rfl⟩ := row_index_inj hlt hin.1 hk
    omega
  · rw [Nat.add_comm x] at hk
    obtain ⟨rfl, rfl⟩ := row_index_inj hlt hin.1 hk
    omega
  · rw [Nat.add_comm x, Nat.add_assoc] at hk
    obtain ⟨heq, rfl⟩ := row_index_inj hlt (show x + offsets y' < img.rangeSize by omega) hk
    omega

/-- In a row without offset each thread stores the pair that it reads, and no other thread stores
there. -/
theorem stored_of_zero_offset {signalIn : Nat → UInt8} {memory signalOut : Nat → Iq8}
    (hrun : launchStores s (formatGrid img) ⟨16, 16⟩ (formatKernel img offsets signalIn) memory =
      .ok signalOut) (hvalid : (formatGrid img).Valid) {x y : Nat} (hx : x < img.rangeSize)
    (hy : y < img.azimuthSize) (h0 : offsets y = 0) :
    signalOut (y * img.rangeSize + x) = iq8At signalIn (x + img.dataLineOffset / 2 +
      y * (img.rangeSize + img.dataLineOffset / 2)) := by
  obtain ⟨hxg, hyg⟩ := lt_formatGrid hx hy
  obtain ⟨w, hw⟩ := ok_of_launchStores hrun hvalid hxg hyg
  obtain ⟨hout, hin⟩ := index_of_correctRawKernel hw hx hy
  refine launchStores_stored hrun hvalid hxg hyg ?_ fun x' y' b hb => ?_
  · rw [formatKernel, correctRawKernel, if_pos ⟨hx, hy⟩, index32_of_lt hout, Outcome.ok_bind,
      if_pos h0, index32_of_lt (hin h0), Nat.add_comm x (y * img.rangeSize)]
    rfl
  · obtain ⟨hin', hplace⟩ := correctRawKernel_eq_store hb
    rcases hplace with ⟨-, hk, rfl⟩ | ⟨hlt, hk, -⟩ | ⟨hpos, -, hroom, hk⟩
    · rw [Nat.add_comm x'] at hk
      obtain ⟨rfl, rfl⟩ := row_index_inj hx hin'.1 hk
      rfl
    · rw [Nat.add_comm x'] at hk
      obtain ⟨rfl, rfl⟩ := row_index_inj hx hin'.1 hk
      omega
    · rw [Nat.add_comm x', Nat.add_assoc] at hk
      obtain ⟨-, rfl⟩ := row_index_inj hx (show x' + offsets y' < img.rangeSize by omega) hk
      omega

/-- With an odd header, the pair that is read for the first sample starts before it. -/
theorem two_mul_ne_recordStart (hodd : ¬ 2 ∣ img.dataLineOffset) (y : Nat) :
    2 * (img.dataLineOffset / 2 + y * (img.rangeSize + img.dataLineOffset / 2)) ≠
      y * img.recordLength + img.dataLineOffset := by
  obtain ⟨half, hhalf⟩ : ∃ half, img.dataLineOffset = 2 * half + 1 :=
    ⟨img.dataLineOffset / 2, by omega⟩
  have hlength : y * img.recordLength = 2 * (y * (img.rangeSize + half)) + y := by
    rw [img.recordLength_eq, hhalf]
    ring
  rw [hlength, show img.dataLineOffset / 2 = half by omega]
  omega

/-- A record with a one in its first sample shows what is read. -/
theorem FormatsRows.header_even (h : FormatsRows s img offsets) (hrange : 0 < img.rangeSize)
    (hvalid : (formatGrid img).Valid) {y : Nat} (hy : y < img.azimuthSize) (h0 : offsets y = 0) :
    2 ∣ img.dataLineOffset := by
  by_contra hodd
  obtain ⟨signalOut, hout, hrows⟩ :=
    h (fun k => if k = y * img.recordLength + img.dataLineOffset then 1 else 0) (fun _ => noData)
  obtain ⟨-, -, hrun⟩ := formatRawIq8_eq_ok.mp hout
  have hread := stored_of_zero_offset hrun hvalid (x := 0) hrange hy h0
  rw [hrows.shifted 0 y (by omega) hy (by omega)] at hread
  refine two_mul_ne_recordStart hodd y ?_
  simpa [ImgFormat.sample, iq8At, h0] using congrArg Iq8.i hread

theorem rowsKept_of_formatsRows (h : FormatsRows s img offsets) : RowsKept img offsets := by
  -- memory of ones under records of zeros shows what is not written
  obtain ⟨signalOut, hout, hrows⟩ := h (fun _ => 0) (fun _ => ⟨1, 1⟩)
  obtain ⟨⟨hrange, hazimuth⟩, hvalid, hrun⟩ := formatRawIq8_eq_ok.mp hout
  obtain ⟨hrangePos, hazimuthPos⟩ := formatGrid_valid_iff.mp ⟨hvalid, hrange⟩
  have hindex : ∀ x y, x < img.rangeSize → y < img.azimuthSize →
      x + y * img.rangeSize < 2147483648 ∧ (offsets y = 0 → x + img.dataLineOffset / 2 +
        y * (img.rangeSize + img.dataLineOffset / 2) < 2147483648) := by
    intro x y hx hy
    obtain ⟨hxg, hyg⟩ := lt_formatGrid hx hy
    obtain ⟨w, hw⟩ := ok_of_launchStores hrun hvalid hxg hyg
    exact index_of_correctRawKernel hw hx hy
  refine ⟨hrangePos, hazimuthPos, ?_, fun y hy => ?_, fun y hy h0 => ⟨?_, ?_⟩⟩
  -- the index of the last element
  · have hlast := (hindex (img.rangeSize - 1) (img.azimuthSize - 1) (by omega) (by omega)).1
    obtain ⟨lines, hlines⟩ : ∃ lines, img.azimuthSize = lines + 1 :=
      ⟨img.azimuthSize - 1, by omega⟩
    rw [hlines, Nat.add_sub_cancel] at hlast
    rw [hlines, Nat.mul_comm, Nat.add_one_mul]
    omega
  -- the place at the offset still holds a one, the record a zero
  · by_contra hnot
    push Not at hnot
    have hkept := launchStores_kept hrun (k := y * img.rangeSize + offsets y)
      fun x _ y' _ a => not_store_at_offset (by omega) hnot.2
    rw [hrows.shifted _ y hnot.2 hy (le_refl _)] at hkept
    cases hkept
  · exact h.header_even hrangePos.1 hvalid hy h0
  · have hlast := (hindex (img.rangeSize - 1) y (by omega) hy).2 h0
    rw [Nat.add_one_mul]
    omega

/-- **When the raw rows are formatted.** -/
theorem formatsRows_iff : FormatsRows s img offsets ↔ RowsKept img offsets :=
  ⟨rowsKept_of_formatsRows, formatsRows_of_rowsKept⟩

end Rows

/-- One record of three samples. -/
def oneRecord : ImgFormat := ⟨3, 1, 412, 418, rfl⟩

/-- Shifted by one sample, the row has a hole at the offset. -/
theorem not_formatsRows_oneRecord : ¬ FormatsRows .byPhase oneRecord fun _ => 1 := by
  intro h
  have hoffset := (rowsKept_of_formatsRows h).offset 0 (by decide)
  exact absurd hoffset (by decide)

/-! ## `ApplyDCBias` -/

section Bias

variable {F : Type} [Field F]

/-- The sample less the mean, and zero where there is no data. -/
def biasCorrected (iq8 : Iq8) (dcI dcQ : F) : CufftComplex F :=
  if iq8.i = 0xFF ∧ iq8.q = 0xFF then ⟨0, 0⟩
  else ⟨(iq8.i.toNat : F) - dcI, (iq8.q.toNat : F) - dcQ⟩

/-- `ApplyDCBiasKernel`. -/
def applyDcBiasKernel (src : Nat → Iq8) (srcXSize destXSize destXStride destYSize destYStride : Nat)
    (dcI dcQ : F) (x y : Nat) : Outcome (Option (Nat × CufftComplex F)) :=
  let dstIdx := index32 (y * destXStride + x)
  let srcIdx := index32 (y * srcXSize + x)
  if x < destXSize ∧ y < destYSize then do
    let iq8 := src (← srcIdx)
    return some (← dstIdx, biasCorrected iq8 dcI dcQ)
  else if x < destXStride ∧ y < destYStride then do
    -- the padding, both in range and azimuth
    return some (← dstIdx, ⟨0, 0⟩)
  else return none

/-- The grid of `ApplyDCBias`: 31 is taken off where it should be added. -/
def biasGrid (output : DevicePaddedImage F) : Dim3 :=
  ⟨(((output.xStride : Int) - 31).tdiv 32).toNat, (((output.yStride : Int) - 31).tdiv 32).toNat⟩

def applyDcBias (s : Scheduler) (signalData : Nat → Iq8) (dcI dcQ : F) (img : ImgFormat)
    (output : DevicePaddedImage F) : Outcome (DevicePaddedImage F) := do
  let data ← launchStores s (biasGrid output) ⟨32, 32⟩
    (applyDcBiasKernel signalData img.rangeSize output.xSize output.xStride output.ySize
      output.yStride dcI dcQ) output.data
  -- `cudaGetLastError` finds a launch that was refused
  Outcome.require (biasGrid output).Valid
  return { output with data }

/-- What the padded image should hold. -/
def DcBiasApplied (signalData : Nat → Iq8) (dcI dcQ : F) (img : ImgFormat)
    (output : DevicePaddedImage F) : Prop :=
  ∀ x < output.xStride, ∀ y < output.yStride, output.data (y * output.xStride + x) =
    if x < output.xSize ∧ y < output.ySize then
      biasCorrected (signalData (y * img.rangeSize + x)) dcI dcQ
    else ⟨0, 0⟩

/-- Whatever the memory of the image held before, all of it is written. -/
def InitialisesPadded (s : Scheduler) (signalData : Nat → Iq8) (dcI dcQ : F) (img : ImgFormat)
    (output : DevicePaddedImage F) : Prop :=
  ∀ memory, ∃ result, applyDcBias s signalData dcI dcQ img { output with data := memory } =
    .ok result ∧ DcBiasApplied signalData dcI dcQ img result

/-- The division truncates, so that sizes below 31 have no block either. -/
theorem biasBlocks_eq (n : Nat) : (((n : Int) - 31).tdiv 32).toNat = (n - 31) / 32 := by
  rcases le_or_gt 31 n with h | h
  · rw [Int.tdiv_eq_ediv_of_nonneg (by omega)]
    omega
  · have hneg : ((n : Int) - 31).tdiv 32 = 0 := by
      rw [show (n : Int) - 31 = -(31 - n) by ring, Int.neg_tdiv,
        Int.tdiv_eq_zero_of_lt (by omega) (by omega), neg_zero]
    rw [hneg]
    omega

variable {s : Scheduler} {signalData : Nat → Iq8} {dcI dcQ : F} {img : ImgFormat}
  {output result : DevicePaddedImage F}

/-- A thread stores in its own place. -/
theorem applyDcBiasKernel_eq_store {xSize xStride ySize yStride srcXSize x y k : Nat}
    {a : CufftComplex F} (hx : xSize ≤ xStride)
    (h : applyDcBiasKernel signalData srcXSize xSize xStride ySize yStride dcI dcQ x y =
      .ok (some (k, a))) : x < xStride ∧ k = y * xStride + x := by
  unfold applyDcBiasKernel at h
  split at h
  · next hin =>
    simp only [Outcome.bind_eq_ok, index32_eq_ok, Outcome.pure_eq, Outcome.ok.injEq,
      Option.some.injEq, Prod.mk.injEq] at h
    obtain ⟨_, -, _, ⟨-, rfl⟩, rfl, -⟩ := h
    exact ⟨by omega, rfl⟩
  · split at h
    · next hpad =>
      simp only [Outcome.bind_eq_ok, index32_eq_ok, Outcome.pure_eq, Outcome.ok.injEq,
        Option.some.injEq, Prod.mk.injEq] at h
      obtain ⟨_, ⟨-, rfl⟩, rfl, -⟩ := h
      exact ⟨hpad.1, rfl⟩
    · cases h

/-- The last column is in no block of the grid, so it keeps what the memory held. -/
theorem last_column_kept (h : applyDcBias s signalData dcI dcQ img output = .ok result) :
    (0 < output.xStride ∧ 0 < output.yStride) ∧ ∃ data, result = { output with data } ∧
      ∀ y, data (y * output.xStride + (output.xStride - 1)) =
        output.data (y * output.xStride + (output.xStride - 1)) := by
  simp only [applyDcBias, Outcome.bind_eq_ok, Outcome.require_eq_ok, Outcome.pure_eq,
    Outcome.ok.injEq] at h
  obtain ⟨data, hrun, -, hvalid, rfl⟩ := h
  have hsize : 0 < output.xStride ∧ 0 < output.yStride := by
    simp only [Dim3.Valid, biasGrid, biasBlocks_eq] at hvalid
    omega
  refine ⟨hsize, data, rfl, fun y => launchStores_kept hrun fun x hx y' _ a hstore => ?_⟩
  obtain ⟨hlt, hk⟩ := applyDcBiasKernel_eq_store output.xSize_le hstore
  obtain ⟨rfl, -⟩ := row_index_inj (by omega) hlt hk
  -- the threads of the grid end 31 samples before the stride or earlier
  simp only [biasGrid, biasBlocks_eq] at hx
  omega

/-- The last element of the first row cannot hold what it should whatever the memory held. -/
theorem false_of_initialisesPadded (h : InitialisesPadded s signalData dcI dcQ img output) :
    False := by
  let wanted : CufftComplex F :=
    if output.xStride - 1 < output.xSize ∧ 0 < output.ySize then
      biasCorrected (signalData (0 * img.rangeSize + (output.xStride - 1))) dcI dcQ
    else ⟨0, 0⟩
  -- memory that holds something else everywhere
  obtain ⟨result, hrun, happlied⟩ := h fun _ => ⟨wanted.x + 1, wanted.y⟩
  obtain ⟨⟨hx, hy⟩, data, rfl, hkept⟩ := last_column_kept hrun
  have hwritten : data (0 * output.xStride + (output.xStride - 1)) = wanted :=
    happlied (output.xStride - 1) (Nat.sub_lt hx Nat.one_pos) 0 hy
  rw [hkept 0] at hwritten
  have hreal : wanted.x + 1 = wanted.x := congrArg CufftComplex.x hwritten
  exact one_ne_zero (left_eq_add.mp hreal.symm)

/-- **The padded image is never initialised.** -/
theorem not_initialisesPadded (s : Scheduler) (signalData : Nat → Iq8) (dcI dcQ : F)
    (img : ImgFormat) (output : DevicePaddedImage F) :
    ¬ InitialisesPadded s signalData dcI dcQ img output :=
  false_of_initialisesPadded

end Bias

/-- A square of 64 samples a side without padding, of which the one block covers a quarter. -/
def squareImage : DevicePaddedImage ℚ := ⟨64, 64, 64, 64, le_refl 64, le_refl 64, fun _ => ⟨0, 0⟩⟩

theorem not_initialisesPadded_squareImage :
    ¬ InitialisesPadded .byPhase (fun _ => ⟨16, 16⟩) 15 15 ⟨64, 64, 412, 540, rfl⟩ squareImage :=
  false_of_initialisesPadded

end Alus.PalsarFocus
