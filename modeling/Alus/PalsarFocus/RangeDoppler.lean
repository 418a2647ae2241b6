import Mathlib.Analysis.SpecialFunctions.Trigonometric.Basic
import Alus.Lib.Kernel
import Alus.PalsarFocus.ImgOutput

/-!
# The frequency axis of azimuth focusing

After the azimuth transform a row is a frequency, known modulo the pulse repetition frequency.
`RangeCellMigrationCorrection` and `AzimuthReferenceMultiply` (`range_doppler_algorithm.cu`) take
the frequencies around the Doppler centroid, which is given in steps of a row. The second kernel
clears the rows outside of the processed bandwidth, whose limits it scales from the largest and the
smallest frequency. These are the limits of a band around the centroid only where that is zero.

Numbers are exact; `sinf`, `cosf` and the interpolation kernel are parameters.
-/

namespace Alus.PalsarFocus

open Alus.Lib

section Computation

variable {R : Type} [Field R]

structure KernelArgs (R : Type) where
  vr : R
  prf : R
  lambda : R
  rangeSpacing : R
  azimuthBandwidthFraction : R
  slantRange : R
  dcSteps : Int
  vvVhHalfPixelShift : Bool

/-- `fn` of `RangeCellMigrationCorrection`. -/
def migrationFrequency (args : KernelArgs R) (srcYSize dstY : Nat) : R :=
  let fftBinStep := args.prf / srcYSize
  if (dstY : Int) < ((srcYSize / 2 : Nat) : Int) + args.dcSteps then dstY * fftBinStep
  else (((dstY : Int) - srcYSize : Int) : R) * fftBinStep

/-- `fn` of `AzimuthReferenceMultiply`. -/
def azimuthFrequency (args : KernelArgs R) (srcHeight dstY : Nat) : R :=
  let fftBinStep := args.prf / srcHeight
  if (dstY : Int) < ((srcHeight / 2 : Nat) : Int) + args.dcSteps then dstY * fftBinStep
  else (((dstY : Int) - srcHeight : Int) : R) * fftBinStep

/-- `half_pixel_shift`. -/
def halfPixelShift (pi : R) (args : KernelArgs R) (srcHeight dstY : Nat) : R :=
  if args.vvVhHalfPixelShift then
    if (dstY : Int) < ((srcHeight / 2 : Nat) : Int) + args.dcSteps then -pi * dstY / srcHeight
    else -pi * (((dstY : Int) - srcHeight : Int) : R) / srcHeight
  else 0

/-- `cuCmulf`. -/
def cuCmulf (a b : CufftComplex R) : CufftComplex R :=
  ⟨a.x * b.x - a.y * b.y, a.x * b.y + a.y * b.x⟩

/-- `val`: the matched filter of the range Doppler domain. -/
def matchedFilter (pi : R) (sin cos : R → R) (args : KernelArgs R) (srcHeight dstX dstY : Nat) :
    CufftComplex R :=
  let fn := azimuthFrequency args srcHeight dstY
  let r0 := args.slantRange + args.rangeSpacing * dstX
  let ka := (2 * args.vr * args.vr) / (args.lambda * r0)
  let phase := (-pi * fn * fn) / ka
  let phase := if args.vvVhHalfPixelShift then phase + halfPixelShift pi args srcHeight dstY
    else phase
  ⟨cos phase, sin phase⟩

variable [LinearOrder R]

/-- The rows outside of the processed bandwidth. -/
def OutsideBandwidth (args : KernelArgs R) (srcHeight dstY : Nat) : Prop :=
  let fftBinStep := args.prf / srcHeight
  let maxFreq := ((srcHeight / 2 : Nat) : R) * fftBinStep + args.dcSteps * fftBinStep
  let minFreq := -((srcHeight / 2 : Nat) : R) * fftBinStep + args.dcSteps * fftBinStep
  azimuthFrequency args srcHeight dstY > args.azimuthBandwidthFraction * maxFreq ∨
    azimuthFrequency args srcHeight dstY < args.azimuthBandwidthFraction * minFreq

instance (args : KernelArgs R) (srcHeight dstY : Nat) :
    Decidable (OutsideBandwidth args srcHeight dstY) := inferInstanceAs (Decidable (_ ∨ _))

/-- A thread of `AzimuthReferenceMultiply`: what it stores, and where. -/
def azimuthReferenceMultiply (pi : R) (sin cos : R → R) (srcData : Nat → CufftComplex R)
    (srcWidth srcHeight srcXStride : Nat) (args : KernelArgs R) (dstX dstY : Nat) :
    Outcome (Option (Nat × CufftComplex R)) :=
  if dstX < srcWidth ∧ dstY < srcHeight then do
    let srcIdx ← index32 (dstX + srcXStride * dstY)
    if OutsideBandwidth args srcHeight dstY then return some (srcIdx, ⟨0, 0⟩)
    else
      return some (srcIdx,
        cuCmulf (srcData srcIdx) (matchedFilter pi sin cos args srcHeight dstX dstY))
  else return none

variable [FloorRing R]

/-- `WINDOW`. -/
def window : List R :=
  [-138777878 / 10 ^ 25, 167577197 / 10 ^ 10, 770724198 / 10 ^ 10, 200770143 / 10 ^ 9,
    394012424 / 10 ^ 9, 630000000 / 10 ^ 9, 849229857 / 10 ^ 9, 982157437 / 10 ^ 9,
    982157437 / 10 ^ 9, 849229857 / 10 ^ 9, 630000000 / 10 ^ 9, 394012424 / 10 ^ 9,
    200770143 / 10 ^ 9, 770724198 / 10 ^ 10, 167577197 / 10 ^ 10, -138777878 / 10 ^ 25]

/-- `i_sum`, `q_sum` and `norm_sum`. -/
structure InterpolatorSums (R : Type) where
  iSum : R
  qSum : R
  normSum : R

/-- The interpolator, for the values from `first_idx` on. -/
def interpolatorSums (sinc : R → R) (dataIn : Int → CufftComplex R) (srcXSize : Nat)
    (calcX firstIdx : Int) (sincOffset : R) : InterpolatorSums R :=
  (window.zipIdx).foldl (fun sums (weight, i) =>
    if calcX - 8 < 0 ∨ calcX + 8 ≥ srcXSize then sums
    else
      let data := dataIn (firstIdx + i)
      let mult := weight * sinc (sincOffset - i)
      ⟨sums.iSum + data.x * mult, sums.qSum + data.y * mult, sums.normSum + mult⟩) ⟨0, 0, 0⟩

/-- A thread of `RangeCellMigrationCorrection`. -/
def rangeCellMigrationCorrection (sinc : R → R) (dataIn : Int → CufftComplex R)
    (srcXSize srcXStride srcYSize dstXStride : Nat) (args : KernelArgs R) (dstX dstY : Nat) :
    Outcome (Option (Nat × CufftComplex R)) :=
  if dstX ≥ srcXSize ∨ dstY ≥ srcYSize then return none
  else do
    let fn := migrationFrequency args srcYSize dstY
    let r0 := args.slantRange + dstX * args.rangeSpacing
    let dR := (args.lambda * args.lambda * fn * fn) / (8 * args.vr * args.vr) * r0
    let shift := dR / args.rangeSpacing
    let rangeWalkPixels ← int32 (stdRound shift)
    let dstIdx ← index32 (dstX + dstY * dstXStride)
    let calcX ← int32 (dstX + rangeWalkPixels)
    let firstIdx ← int32 (calcX - 8 + dstY * srcXStride)
    let sums := interpolatorSums sinc dataIn srcXSize calcX firstIdx (shift - rangeWalkPixels + 8)
    if sums.normSum = 0 then return some (dstIdx, ⟨0, 0⟩)
    else return some (dstIdx, ⟨sums.iSum / sums.normSum, sums.qSum / sums.normSum⟩)

/-- The arguments that `RangeDopplerAlgorithm` launches the kernels with. -/
def kernelArgs (metadata : SarMetadata R) (wavelength : R) (polarisation : List Char)
    (yStride : Nat) : Outcome (KernelArgs R) := do
  let dcSteps ← int32 (toInt
    (metadata.dopplerCentroid / (metadata.pulseRepetitionFrequency / yStride)))
  return {
    vr := metadata.vr
    prf := metadata.pulseRepetitionFrequency
    lambda := wavelength
    rangeSpacing := metadata.rangeSpacing
    azimuthBandwidthFraction := 8 / 10
    slantRange := metadata.slantRangeFirstSample
    dcSteps
    vvVhHalfPixelShift := polarisation = "VV".toList ∨ polarisation = "VH".toList }

end Computation

/-! ## The frequency axis -/

section Axis

variable {R : Type} [Field R] [LinearOrder R]

/-- A row is one of the frequencies it stands for. -/
def OnAxis (args : KernelArgs R) (height row : Nat) (bin : Int) : Prop :=
  azimuthFrequency args height row = bin * (args.prf / height)

/-- The processed band, around the centroid. -/
def InBand (args : KernelArgs R) (height row : Nat) : Prop :=
  |azimuthFrequency args height row - args.dcSteps * (args.prf / height)| ≤
    args.azimuthBandwidthFraction * args.prf / 2

instance (args : KernelArgs R) (height row : Nat) : Decidable (InBand args height row) :=
  inferInstanceAs (Decidable (_ ≤ _))

/-- `bin` has as many neighbours on either side among the `length` bins from `first` on. -/
def InMiddle (first : Int) (length : Nat) (bin : Int) : Prop :=
  (first ≤ bin ∧ bin < first + length) ∧ |(bin - first) - (first + length - 1 - bin)| ≤ 1

/-- One axis of frequencies around the centroid, and the rows of the band around it kept. -/
structure FocusesAroundCentroid (pi : R) (sin cos : R → R) (args : KernelArgs R) (height : Nat) :
    Prop where
  same : ∀ row < height, migrationFrequency args height row = azimuthFrequency args height row
  congruent : ∀ row < height,
    ∃ k : Int, azimuthFrequency args height row = row * args.prf / height + k * args.prf
  run : ∃ first : Int,
    (∀ row < height, ∃ bin, (first ≤ bin ∧ bin < first + height) ∧ OnAxis args height row bin) ∧
    (∀ bin, first ≤ bin → bin < first + height → ∃ row < height, OnAxis args height row bin) ∧
    InMiddle first height args.dcSteps
  band : ∀ (srcData : Nat → CufftComplex R) (srcWidth srcXStride x srcIdx : Nat), x < srcWidth →
    ∀ row < height, index32 (x + srcXStride * row) = .ok srcIdx →
      azimuthReferenceMultiply pi sin cos srcData srcWidth height srcXStride args x row =
        .ok (some (srcIdx, if InBand args height row then
          cuCmulf (srcData srcIdx) (matchedFilter pi sin cos args height x row) else ⟨0, 0⟩))

/-- The limits that are scaled from the ends of the axis are those of the band, in whole rows. -/
def LimitsAgree [FloorRing R] (args : KernelArgs R) (height : Nat) : Prop :=
  let half := height / 2
  let low : Int := args.dcSteps - half
  let high : Int := args.dcSteps + half - 1
  let reach := ⌊args.azimuthBandwidthFraction * half⌋
  max ⌈args.azimuthBandwidthFraction * (args.dcSteps - half)⌉ low =
      max (args.dcSteps - reach) low ∧
    min ⌊args.azimuthBandwidthFraction * (args.dcSteps + half)⌋ high =
      min (args.dcSteps + reach) high

/-! ## Rows as steps of the axis -/

/-- The step of the axis that a row is given. -/
def rowBin (args : KernelArgs R) (height row : Nat) : Int :=
  if (row : Int) < ((height / 2 : Nat) : Int) + args.dcSteps then row else (row : Int) - height

variable {args : KernelArgs R} {height row : Nat} {bin : Int}

omit [LinearOrder R] in
theorem azimuthFrequency_eq (args : KernelArgs R) (height row : Nat) :
    azimuthFrequency args height row = rowBin args height row * (args.prf / height) := by
  unfold azimuthFrequency rowBin
  split
  · rw [Int.cast_natCast]
  · rfl

omit [Field R] [LinearOrder R] in
/-- The steps that the rows are given, without the last. -/
theorem rowBin_mem (hsteps : 2 * |args.dcSteps| ≤ height) (hrow : row < height) :
    args.dcSteps - (height - (height / 2 : Nat)) ≤ rowBin args height row ∧
      rowBin args height row < args.dcSteps + (height / 2 : Nat) := by
  have hlow := neg_abs_le args.dcSteps
  have hhigh := le_abs_self args.dcSteps
  unfold rowBin
  split <;> omega

omit [Field R] [LinearOrder R] in
theorem exists_rowBin (hsteps : 2 * |args.dcSteps| ≤ height)
    (hlow : args.dcSteps - (height - (height / 2 : Nat)) ≤ bin)
    (hhigh : bin < args.dcSteps + (height / 2 : Nat)) :
    ∃ row < height, rowBin args height row = bin := by
  have habsLow := neg_abs_le args.dcSteps
  have habsHigh := le_abs_self args.dcSteps
  cases lt_or_ge bin 0 with
  | inl hneg =>
    refine ⟨(bin + height).toNat, by omega, ?_⟩
    unfold rowBin
    rw [if_neg (by omega)]
    omega
  | inr hnonneg =>
    refine ⟨bin.toNat, by omega, ?_⟩
    unfold rowBin
    rw [if_pos (by omega)]
    omega

variable [IsStrictOrderedRing R]

theorem step_pos (hheight : 0 < height) (hprf : 0 < args.prf) : 0 < args.prf / height :=
  div_pos hprf (by exact_mod_cast hheight)

theorem onAxis_iff (hheight : 0 < height) (hprf : 0 < args.prf) :
    OnAxis args height row bin ↔ rowBin args height row = bin := by
  unfold OnAxis
  rw [azimuthFrequency_eq, mul_left_inj' (step_pos hheight hprf).ne']
  exact Int.cast_inj

/-- A row stands for the frequencies that differ by the pulse repetition frequency. -/
theorem azimuthFrequency_congruent (hheight : 0 < height) :
    ∃ k : Int, azimuthFrequency args height row = row * args.prf / height + k * args.prf := by
  have hne : (height : R) ≠ 0 := by exact_mod_cast hheight.ne'
  rw [azimuthFrequency_eq]
  unfold rowBin
  split
  · refine ⟨0, ?_⟩
    push_cast
    ring
  · refine ⟨-1, ?_⟩
    push_cast
    field_simp
    ring

section Limits

variable [FloorRing R]

/-- The rows that are kept. -/
theorem not_outsideBandwidth_iff (hheight : 0 < height) (hprf : 0 < args.prf) :
    ¬ OutsideBandwidth args height row ↔
      ⌈args.azimuthBandwidthFraction * (args.dcSteps - (height / 2 : Nat))⌉ ≤
          rowBin args height row ∧
        rowBin args height row ≤
          ⌊args.azimuthBandwidthFraction * (args.dcSteps + (height / 2 : Nat))⌋ := by
  have hstep := step_pos hheight hprf
  have hmax : args.azimuthBandwidthFraction *
      (((height / 2 : Nat) : R) * (args.prf / height) + args.dcSteps * (args.prf / height)) =
      args.azimuthBandwidthFraction * (args.dcSteps + (height / 2 : Nat)) *
        (args.prf / height) := by ring
  have hmin : args.azimuthBandwidthFraction *
      (-((height / 2 : Nat) : R) * (args.prf / height) + args.dcSteps * (args.prf / height)) =
      args.azimuthBandwidthFraction * (args.dcSteps - (height / 2 : Nat)) *
        (args.prf / height) := by ring
  unfold OutsideBandwidth
  dsimp only
  rw [not_or, not_lt, not_lt, azimuthFrequency_eq, hmax, hmin, mul_le_mul_iff_left₀ hstep,
    mul_le_mul_iff_left₀ hstep, Int.ceil_le, Int.le_floor, and_comm]

/-- The rows of the band, where the centre of the axis is a row. -/
theorem inBand_iff (hheight : 0 < height) (hprf : 0 < args.prf) (heven : height % 2 = 0) :
    InBand args height row ↔
      args.dcSteps - ⌊args.azimuthBandwidthFraction * ((height / 2 : Nat) : R)⌋ ≤
          rowBin args height row ∧
        rowBin args height row ≤
          args.dcSteps + ⌊args.azimuthBandwidthFraction * ((height / 2 : Nat) : R)⌋ := by
  have hstep := step_pos hheight hprf
  have hne : (height : R) ≠ 0 := by exact_mod_cast hheight.ne'
  have hhalf : (height : R) = 2 * ((height / 2 : Nat) : R) := by
    exact_mod_cast (by omega : height = 2 * (height / 2))
  have hlimit : args.azimuthBandwidthFraction * args.prf / 2 =
      args.azimuthBandwidthFraction * ((height / 2 : Nat) : R) * (args.prf / height) := by
    have htwo : ((height / 2 : Nat) : R) = height / 2 := by
      rw [hhalf]
      ring
    rw [htwo]
    field_simp
  have hdifference : azimuthFrequency args height row - args.dcSteps * (args.prf / height) =
      ((rowBin args height row - args.dcSteps : Int) : R) * (args.prf / height) := by
    rw [azimuthFrequency_eq]
    push_cast
    ring
  unfold InBand
  rw [hlimit, hdifference, abs_mul, abs_of_pos hstep, mul_le_mul_iff_left₀ hstep, ← Int.cast_abs,
    ← Int.le_floor, abs_le]
  constructor
  · intro h
    omega
  · intro h
    omega

/-- Two ranges agree on a run around a common member where they end in the same places. -/
theorem range_congr_iff {a b c d low high : Int} (middle : Int) (hc : c ≤ middle) (hd : middle ≤ d)
    (hlow : low ≤ middle) (hhigh : middle ≤ high) :
    (∀ k, low ≤ k → k ≤ high → (a ≤ k ∧ k ≤ b ↔ c ≤ k ∧ k ≤ d)) ↔
      max a low = max c low ∧ min b high = min d high := by
  constructor
  · intro h
    have hmiddle := (h middle hlow hhigh).mpr ⟨hc, hd⟩
    have h1 := h (max a low) (le_max_right _ _) (by omega)
    have h2 := h (max c low) (le_max_right _ _) (by omega)
    have h3 := h (min b high) (by omega) (min_le_right _ _)
    have h4 := h (min d high) (by omega) (min_le_right _ _)
    omega
  · intro h k hk hk'
    omega

end Limits

end Axis

/-! ## The band -/

section Band

variable {R : Type} [Field R] [LinearOrder R] [IsStrictOrderedRing R] [FloorRing R]
  {pi : R} {sin cos : R → R} {args : KernelArgs R} {height : Nat}

omit [LinearOrder R] [IsStrictOrderedRing R] [FloorRing R] in
/-- A phasor is not lost in a product. -/
theorem cuCmulf_one_ne {b : CufftComplex R} (h : ¬ (b.x = 0 ∧ b.y = 0)) :
    cuCmulf ⟨1, 0⟩ b ≠ ⟨0, 0⟩ := by
  intro hzero
  apply h
  have hx := congrArg CufftComplex.x hzero
  have hy := congrArg CufftComplex.y hzero
  simp only [cuCmulf, one_mul, zero_mul, sub_zero, add_zero] at hx hy
  exact ⟨hx, hy⟩

omit [IsStrictOrderedRing R] [FloorRing R] in
theorem azimuthReferenceMultiply_eq {srcData : Nat → CufftComplex R}
    {srcWidth srcXStride x row srcIdx : Nat} (hx : x < srcWidth) (hrow : row < height)
    (hindex : index32 (x + srcXStride * row) = .ok srcIdx) :
    azimuthReferenceMultiply pi sin cos srcData srcWidth height srcXStride args x row =
      .ok (some (srcIdx, if OutsideBandwidth args height row then ⟨0, 0⟩ else
        cuCmulf (srcData srcIdx) (matchedFilter pi sin cos args height x row))) := by
  unfold azimuthReferenceMultiply
  rw [if_pos ⟨hx, hrow⟩, hindex]
  show (if _ then _ else _) = _
  split
  · rfl
  · rfl

omit [IsStrictOrderedRing R] [FloorRing R] in
/-- The rows that the kernel keeps are those of the band. -/
theorem band_iff (hunit : ∀ phase, ¬ (cos phase = 0 ∧ sin phase = 0)) :
    (∀ (srcData : Nat → CufftComplex R) (srcWidth srcXStride x srcIdx : Nat), x < srcWidth →
      ∀ row < height, index32 (x + srcXStride * row) = .ok srcIdx →
        azimuthReferenceMultiply pi sin cos srcData srcWidth height srcXStride args x row =
          .ok (some (srcIdx, if InBand args height row then
            cuCmulf (srcData srcIdx) (matchedFilter pi sin cos args height x row) else ⟨0, 0⟩))) ↔
      ∀ row < height, (¬ OutsideBandwidth args height row ↔ InBand args height row) := by
  constructor
  · intro h row hrow
    have hindex : index32 (0 + 0 * row) = .ok 0 := by
      rw [Nat.zero_mul]
      rfl
    -- a sample of one shows whether the row is multiplied or cleared
    have hstored := h (fun _ => ⟨1, 0⟩) 1 0 0 0 Nat.one_pos row hrow hindex
    rw [azimuthReferenceMultiply_eq Nat.one_pos hrow hindex] at hstored
    have hne := cuCmulf_one_ne (b := matchedFilter pi sin cos args height 0 row) (hunit _)
    have hvalue := congrArg Prod.snd (Option.some.inj (Outcome.ok.inj hstored))
    dsimp only at hvalue
    split at hvalue
    · next hout =>
      split at hvalue
      · exact absurd hvalue.symm hne
      · next hin => exact iff_of_false (not_not.mpr hout) hin
    · next hkept =>
      split at hvalue
      · next hin => exact iff_of_true hkept hin
      · exact absurd hvalue hne
  · intro h srcData srcWidth srcXStride x srcIdx hx row hrow hindex
    rw [azimuthReferenceMultiply_eq hx hrow hindex]
    cases Decidable.em (InBand args height row) with
    | inl hin => rw [if_pos hin, if_neg ((h row hrow).mpr hin)]
    | inr hout =>
      have hout' : OutsideBandwidth args height row := not_not.mp fun hkept =>
        hout ((h row hrow).mp hkept)
      rw [if_neg hout, if_pos hout']

/-- The rows that are kept are those of the band where the limits agree. -/
theorem limitsAgree_iff (hheight : 0 < height) (hprf : 0 < args.prf)
    (hfraction : 0 ≤ args.azimuthBandwidthFraction) (hsteps : 2 * |args.dcSteps| ≤ height)
    (heven : height % 2 = 0) :
    (∀ row < height, (¬ OutsideBandwidth args height row ↔ InBand args height row)) ↔
      LimitsAgree args height := by
  have hlow := neg_abs_le args.dcSteps
  have hhigh := le_abs_self args.dcSteps
  have hreach : 0 ≤ ⌊args.azimuthBandwidthFraction * ((height / 2 : Nat) : R)⌋ :=
    Int.floor_nonneg.mpr (mul_nonneg hfraction (Nat.cast_nonneg _))
  have hagree : (∀ k : Int, args.dcSteps - (height / 2 : Nat) ≤ k →
      k ≤ args.dcSteps + (height / 2 : Nat) - 1 →
        (⌈args.azimuthBandwidthFraction * (args.dcSteps - (height / 2 : Nat))⌉ ≤ k ∧
            k ≤ ⌊args.azimuthBandwidthFraction * (args.dcSteps + (height / 2 : Nat))⌋ ↔
          args.dcSteps - ⌊args.azimuthBandwidthFraction * ((height / 2 : Nat) : R)⌋ ≤ k ∧
            k ≤ args.dcSteps + ⌊args.azimuthBandwidthFraction * ((height / 2 : Nat) : R)⌋)) ↔
      LimitsAgree args height :=
    range_congr_iff args.dcSteps (by omega) (by omega) (by omega) (by omega)
  rw [← hagree]
  constructor
  · intro h k hk hk'
    obtain ⟨row, hrow, hbin⟩ : ∃ row < height, rowBin args height row = k :=
      exists_rowBin hsteps (by omega) (by omega)
    have hkept := h row hrow
    rw [not_outsideBandwidth_iff hheight hprf, inBand_iff hheight hprf heven, hbin] at hkept
    exact hkept
  · intro h row hrow
    rw [not_outsideBandwidth_iff hheight hprf, inBand_iff hheight hprf heven]
    have hmem := rowBin_mem hsteps hrow
    exact h _ (by omega) (by omega)

/-- Around a centroid of zero the limits agree. -/
theorem limitsAgree_of_dcSteps_eq_zero (h : args.dcSteps = 0) : LimitsAgree args height := by
  unfold LimitsAgree
  dsimp only
  simp only [h, Int.cast_zero, zero_sub, mul_neg, Int.ceil_neg, zero_add, and_self]

omit [FloorRing R] in
/-- The centroid is in the middle of the axis where the number of rows is even. -/
theorem run_iff (hheight : 0 < height) (hprf : 0 < args.prf)
    (hsteps : 2 * |args.dcSteps| ≤ height) :
    (∃ first : Int,
      (∀ row < height, ∃ bin, (first ≤ bin ∧ bin < first + height) ∧ OnAxis args height row bin) ∧
      (∀ bin, first ≤ bin → bin < first + height → ∃ row < height, OnAxis args height row bin) ∧
      InMiddle first height args.dcSteps) ↔ height % 2 = 0 := by
  have hlow := neg_abs_le args.dcSteps
  have hhigh := le_abs_self args.dcSteps
  constructor
  · rintro ⟨first, -, honto, hmiddle, hneighbours⟩
    -- both ends of the run are steps of rows
    obtain ⟨row, hrow, haxis⟩ := honto first le_rfl (by omega)
    obtain ⟨row', hrow', haxis'⟩ := honto (first + height - 1) (by omega) (by omega)
    have hfirst := rowBin_mem hsteps hrow
    have hlast := rowBin_mem hsteps hrow'
    rw [(onAxis_iff hheight hprf).mp haxis] at hfirst
    rw [(onAxis_iff hheight hprf).mp haxis'] at hlast
    have hbound := abs_le.mp hneighbours
    omega
  · intro heven
    refine ⟨args.dcSteps - (height / 2 : Nat), ?_, ?_, ?_⟩
    · intro row hrow
      have hmem := rowBin_mem hsteps hrow
      exact ⟨_, ⟨by omega, by omega⟩, (onAxis_iff hheight hprf).mpr rfl⟩
    · intro bin hlow' hhigh'
      obtain ⟨row, hrow, hbin⟩ : ∃ row < height, rowBin args height row = bin :=
        exists_rowBin hsteps (by omega) (by omega)
      exact ⟨row, hrow, (onAxis_iff hheight hprf).mpr hbin⟩
    · refine ⟨⟨by omega, by omega⟩, abs_le.mpr ⟨by omega, by omega⟩⟩

/-- **The band lies around the centroid where its limits agree**: an even number of rows, and the
scaled limits those of the band. -/
theorem focusesAroundCentroid_iff (hheight : 0 < height) (hprf : 0 < args.prf)
    (hfraction : 0 ≤ args.azimuthBandwidthFraction) (hsteps : 2 * |args.dcSteps| ≤ height)
    (hunit : ∀ phase, ¬ (cos phase = 0 ∧ sin phase = 0)) :
    FocusesAroundCentroid pi sin cos args height ↔
      height % 2 = 0 ∧ LimitsAgree args height := by
  constructor
  · intro h
    have heven := (run_iff hheight hprf hsteps).mp h.run
    have hband := (band_iff hunit).mp h.band
    exact ⟨heven, (limitsAgree_iff hheight hprf hfraction hsteps heven).mp hband⟩
  · rintro ⟨heven, hlimits⟩
    exact {
      same := fun _ _ => rfl
      congruent := fun _ _ => azimuthFrequency_congruent hheight
      run := (run_iff hheight hprf hsteps).mpr heven
      band := (band_iff hunit).mpr
        ((limitsAgree_iff hheight hprf hfraction hsteps heven).mpr hlimits) }

/-- The launch takes a centroid of at most half of the pulse repetition frequency to steps of at
most half of the rows. -/
theorem kernelArgs_steps {metadata : SarMetadata R} {wavelength : R} {polarisation : List Char}
    (h : kernelArgs metadata wavelength polarisation height = .ok args)
    (hheight : 0 < height) (hprf : 0 < metadata.pulseRepetitionFrequency)
    (hcentroid : |metadata.dopplerCentroid| ≤ metadata.pulseRepetitionFrequency / 2) :
    (0 < args.prf ∧ 0 ≤ args.azimuthBandwidthFraction) ∧ 2 * |args.dcSteps| ≤ height := by
  obtain ⟨dcSteps, hsteps, hargs⟩ := Outcome.bind_eq_ok.mp h
  cases Outcome.ok.inj hargs
  refine ⟨⟨hprf, by norm_num⟩, ?_⟩
  show 2 * |dcSteps| ≤ height
  rw [(int32_eq_ok.mp hsteps).2]
  have hrows : (0 : R) < height := Nat.cast_pos.mpr hheight
  have hquotient : |metadata.dopplerCentroid / (metadata.pulseRepetitionFrequency / height)| ≤
      (height : R) / 2 := by
    rw [abs_div, abs_of_pos (div_pos hprf hrows), div_le_iff₀ (div_pos hprf hrows)]
    calc |metadata.dopplerCentroid| ≤ metadata.pulseRepetitionFrequency / 2 := hcentroid
      _ = (height : R) / 2 * (metadata.pulseRepetitionFrequency / height) := by
        field_simp
  have htruncated := (abs_toInt_le _).trans hquotient
  rw [le_div_iff₀ two_pos] at htruncated
  rw [mul_comm]
  exact_mod_cast htruncated

end Band

/-! ### A scene -/

theorem real_unit (phase : ℝ) : ¬ (Real.cos phase = 0 ∧ Real.sin phase = 0) := by
  rintro ⟨hcos, hsin⟩
  have hone := Real.sin_sq_add_cos_sq phase
  rw [hcos, hsin] at hone
  norm_num at hone

/-- Twenty rows, with the processed bandwidth of `RangeDopplerAlgorithm`. -/
noncomputable def sceneArgs (dcSteps : Int) : KernelArgs ℝ where
  vr := 7000
  prf := 2000
  lambda := 236 / 1000
  rangeSpacing := 5
  azimuthBandwidthFraction := 8 / 10
  slantRange := 850000
  dcSteps
  vvVhHalfPixelShift := false

theorem focusesAroundCentroid_scene :
    FocusesAroundCentroid Real.pi Real.sin Real.cos (sceneArgs 0) 20 ↔
      20 % 2 = 0 ∧ LimitsAgree (sceneArgs 0) 20 :=
  focusesAroundCentroid_iff (by decide) (by norm_num [sceneArgs]) (by norm_num [sceneArgs])
    (by norm_num [sceneArgs]) real_unit

/-- A centroid of five steps: the thirteenth row is in the band and is cleared. -/
theorem not_focusesAroundCentroid_scene :
    ¬ FocusesAroundCentroid Real.pi Real.sin Real.cos (sceneArgs 5) 20 := by
  intro h
  have hkept := (band_iff real_unit).mp h.band 13 (by decide)
  have hfrequency : azimuthFrequency (sceneArgs 5) 20 13 = 1300 := by
    norm_num [azimuthFrequency, sceneArgs]
  have hin : InBand (sceneArgs 5) 20 13 := by
    unfold InBand
    rw [hfrequency, abs_le]
    norm_num [sceneArgs]
  have hout : OutsideBandwidth (sceneArgs 5) 20 13 := by
    left
    rw [hfrequency]
    norm_num [sceneArgs]
  exact hkept.mpr hin hout

end Alus.PalsarFocus
