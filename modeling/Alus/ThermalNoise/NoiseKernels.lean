import Alus.Lib.GridRange
import Alus.ThermalNoise.NoiseLoops

/-!
# Noise vectors interpolated on the device

The kernels of the SLC noise table interpolate an azimuth noise vector over the lines of a tile, and
a range noise vector over its samples for each burst that the tile touches. A thread starts each
vector at the index of the tile's first line or sample, moves its own index on from one of its
positions to the next, and may pass several knots at once. The vectors on the host are interpolated
with one step for each position; both give the same values.
-/

namespace Alus.ThermalNoise

open Alus.Lib

variable {T : Type} [Field T] [LinearOrder T]

/-! ## The index of the segment -/

/-- The index before the first knot after the position, or the last but one, in `size_t`; zero when
there is no segment. -/
def sizeIndexBefore (s : Int) (knots : List Int) : Nat :=
  if knots.length < 2 then 0
  else
    match knots.findIdx? (s < ·) with
    | some i => if 0 < i then i - 1 else 0
    | none => knots.length - 2

def getLineIndex (line : Int) (lines : List Int) : Nat := sizeIndexBefore line lines

/-- `GetSampleIndex` of the kernels. -/
def deviceSampleIndex (sample : Int) (noiseVector : NoiseVector T) : Nat :=
  sizeIndexBefore sample noiseVector.pixels

/-- The `while` loop that moves the index on. It has `size - 2` less the index rounds at most; the
difference of unsigned numbers is not taken of fewer than two knots. -/
def moveIndex (knots : List Int) (s : Int) : Nat → Nat → Outcome Nat
  | 0, index => .ok index
  | rounds + 1, index => do
    let next ← vectorIndex knots (index + 1 : Nat)
    if s > next then moveIndex knots s rounds (index + 1) else return index

/-! ## The kernels -/

def interpolate (x1 x2 : Int) (y1 y2 : T) (x : Int) : T :=
  if x1 = x2 then 0 else y1 + ((x - x1 : Int) : T) / ((x2 - x1 : Int) : T) * (y2 - y1)

/-- The loop of a thread over its positions, counted from the first of the launch. -/
def interpolateShare (knots : List Int) (lut : List T) (first : Int) :
    Nat → List Nat → Outcome (List (Nat × T))
  | _, [] => .ok []
  | index, i :: share => do
    -- the sum is unsigned in the range kernel, and cast back to `int`
    let s := i + first
    let index ← moveIndex knots s (knots.length - 2 - index) index
    let x1 ← vectorIndex knots index
    let x2 ← vectorIndex knots (index + 1 : Nat)
    let y1 ← vectorIndex lut index
    let y2 ← vectorIndex lut (index + 1 : Nat)
    let stores ← interpolateShare knots lut first index share
    return (i, interpolate x1 x2 y1 y2 s) :: stores

def constantShare (lut : List T) (share : List Nat) : Outcome (List (Nat × T)) :=
  Outcome.collect (share.map fun i => do return (i, ← vectorIndex lut 0))

def interpolateNoiseAzimuthVectorSingleLine (v : NoiseAzimuthVector T) (share : List Nat) :
    Outcome (List (Nat × T)) :=
  constantShare v.noiseAzimuthLut share

def interpolateNoiseAzimuthVectorMultiLine (v : NoiseAzimuthVector T) (firstAzimuthLine : Int)
    (lineIndex : Nat) (share : List Nat) : Outcome (List (Nat × T)) :=
  interpolateShare v.lines v.noiseAzimuthLut firstAzimuthLine lineIndex share

def getSampleIndexKernel (burstIndices : List Int) (firstRangeSample : Int)
    (rangeVectors : List (NoiseVector T)) (share : List Nat) : Outcome (List (Nat × Nat)) :=
  Outcome.collect (share.map fun (index : Nat) => do
    let burstIndex ← vectorIndex burstIndices index
    let noiseRangeVector ← vectorIndex rangeVectors burstIndex
    return (index, deviceSampleIndex firstRangeSample noiseRangeVector))

/-- The loop of a thread over its samples. -/
def rangeShare (v : NoiseVector T) (firstRangeSample : Int) (sampleIndex : Nat)
    (share : List Nat) : Outcome (List (Nat × T)) :=
  if v.pixels.length < 2 then constantShare v.noiseLut share
  else interpolateShare v.pixels v.noiseLut firstRangeSample sampleIndex share

/-- A thread has a share of the burst indices and a share of the samples. The interpolated vectors
are stored by burst. -/
def interpolateNoiseRangeVectorKernel (burstIndices : List Int) (sampleIndices : Nat → Option Nat)
    (firstRangeSample : Int) (rangeVectors : List (NoiseVector T)) (thread : List Nat × List Nat) :
    Outcome (List ((Nat × Nat) × T)) := do
  let rows ← Outcome.collect (thread.1.map fun (index : Nat) => do
    let sampleIndex ← readCell sampleIndices index
    let burstIndex ← vectorIndex burstIndices index
    let noiseRangeVector ← vectorIndex rangeVectors burstIndex
    let stores ← rangeShare noiseRangeVector firstRangeSample sampleIndex thread.2
    return stores.map fun w => ((burstIndex.toNat, w.1), w.2))
  return rows.flatten

/-! ## The launches -/

/-- The threads of a launch, for each number of indices that they share. -/
abbrev Shares := ∀ count, ThreadShares count

/-- The interpolated vector, from the first line on. -/
def launchInterpolateNoiseAzimuthVectorKernel (d : StoreOrder) (parts : Shares)
    (v : NoiseAzimuthVector T) (firstAzimuthLine lastAzimuthLine : Int) (startingLineIndex : Nat) :
    Outcome (Nat → Option T) :=
  let count := lastAzimuthLine - firstAzimuthLine + 1
  -- the device refuses a launch without lines
  if count ≤ 0 then .throws
  else if v.lines.length < 2 then
    launchThreads d (interpolateNoiseAzimuthVectorSingleLine v) (parts count.toNat).shares
      fun _ => none
  else
    launchThreads d (interpolateNoiseAzimuthVectorMultiLine v firstAzimuthLine startingLineIndex)
      (parts count.toNat).shares fun _ => none

def launchGetSampleIndexKernel (d : StoreOrder) (parts : Shares) (tile : Rectangle)
    (rangeVectors : List (NoiseVector T)) (burstIndices : List Int) :
    Outcome (Nat → Option Nat) :=
  launchThreads d (getSampleIndexKernel burstIndices tile.x rangeVectors)
    (parts burstIndices.length).shares fun _ => none

def launchInterpolateNoiseRangeVectorsKernel (d : StoreOrder) (rows columns : Shares)
    (tile : Rectangle) (burstIndices : List Int) (sampleIndices : Nat → Option Nat)
    (rangeVectors : List (NoiseVector T)) : Outcome (Nat × Nat → Option T) :=
  if tile.width ≤ 0 ∨ burstIndices = [] then .throws
  else
    launchThreads d
      (interpolateNoiseRangeVectorKernel burstIndices sampleIndices tile.x rangeVectors)
      ((rows burstIndices.length).shares ×ˢ (columns tile.width.toNat).shares) fun _ => none

/-! ## What a thread computes -/

section Share

variable {knots : List Int}

theorem sizeIndexBefore_eq (h : knots.Pairwise (· < ·)) (hlen : 2 ≤ knots.length) (s : Int) :
    sizeIndexBefore s knots = knotsUpTo knots s := by
  have hindex := indexBefore_eq h hlen s
  rw [sizeIndexBefore, if_neg (by omega)]
  unfold indexBefore at hindex
  split <;> rename_i hfound
  · rw [hfound] at hindex
    split <;> rename_i hi
    · simp only [if_pos hi] at hindex
      omega
    · simp only [if_neg hi] at hindex
      omega
  · rw [hfound] at hindex
    simp only at hindex
    omega

/-- The loop stops at the segment of the position, or stays where it was if that is further on. -/
theorem moveIndex_eq (h : knots.Pairwise (· < ·)) (s : Int) (rounds : Nat) :
    ∀ c, rounds = knots.length - 2 - c →
      moveIndex knots s rounds c = .ok (max c (knotsBelow knots s)) := by
  have hlast : knotsBelow knots s ≤ knots.length - 2 :=
    (knotsBelow_le_knotsUpTo knots s).trans (knotsUpTo_le knots s)
  induction rounds with
  | zero =>
    intro c hc
    rw [moveIndex, max_eq_left (by omega)]
  | succ rounds ih =>
    intro c hc
    have hnext : c + 1 < knots.length := by omega
    rw [moveIndex, vectorIndex_natCast hnext, Outcome.ok_bind]
    by_cases hlt : c < knotsBelow knots s
    · obtain ⟨_, hknot⟩ := (lt_knotsBelow h).mp hlt
      rw [if_pos hknot, ih (c + 1) (by omega), max_eq_right hlt, max_eq_right hlt.le]
    · have hstop : ¬ s > knots[c + 1] := fun hknot =>
        hlt ((lt_knotsBelow h).mpr ⟨by omega, hknot⟩)
      rw [if_neg hstop, max_eq_left (by omega)]
      rfl

/-- The index is never past the segment of a position that is still to come. -/
theorem interpolateShare_eq [IsStrictOrderedRing T] (h : knots.Pairwise (· < ·))
    (hlen : 2 ≤ knots.length) (lut : List T) (hsize : lut.length = knots.length) (first : Int)
    {share : List Nat} (hshare : share.Pairwise (· < ·)) {c : Nat}
    (hc : ∀ i ∈ share, c ≤ knotsUpTo knots (i + first)) :
    interpolateShare knots lut first c share =
      .ok (share.map fun i => (i, interpolant (knots.map (Int.cast : Int → T)) lut
        ((i + first : Int) : T))) := by
  -- the induction is on the share, with the index moving on from where it stood
  induction share generalizing c with
  | nil => rfl
  | cons i share ih =>
    obtain ⟨hi, hshare⟩ := List.pairwise_cons.mp hshare
    set s : Int := i + first with hs
    set index := max c (knotsBelow knots s) with hindex
    have hloc : Locates knots index s :=
      ⟨le_max_right _ _, max_le (hc i List.mem_cons_self) (knotsBelow_le_knotsUpTo knots s)⟩
    have hbound : index + 1 < knots.length := by
      have hle := hloc.2.trans (knotsUpTo_le knots s)
      omega
    -- the index is not beyond the later samples of the share
    have hrest : ∀ j ∈ share, index ≤ knotsUpTo knots (j + first) := by
      intro j hj
      have hlater : s ≤ j + first := by
        have hij := hi j hj
        omega
      exact hloc.2.trans (knotsUpTo_mono knots hlater)
    have hknots : (knots.map (Int.cast : Int → T)).Pairwise (· < ·) :=
      h.map _ fun a b hab => Int.cast_lt.mpr hab
    have hvalue : interpolate knots[index] knots[index + 1] lut[index] lut[index + 1] s =
        interpolant (knots.map (Int.cast : Int → T)) lut (s : T) :=
      (interpolateNoise_eq h lut hsize hbound s).trans
        (onSegment_eq_interpolant hknots (by simpa using hlen) lut
          ((locates_map_intCast (T := T)).mpr hloc))
    rw [interpolateShare, ← hs, moveIndex_eq h s _ c rfl, Outcome.ok_bind, ← hindex,
      vectorIndex_natCast (by omega : index < knots.length), vectorIndex_natCast hbound,
      vectorIndex_natCast (by omega : index < lut.length),
      vectorIndex_natCast (by omega : index + 1 < lut.length)]
    simp only [Outcome.ok_bind, ih hshare hrest, hvalue]
    rfl

theorem constantShare_eq (h : knots.length = 1) (lut : List T) (hsize : lut.length = knots.length)
    (first : Int) (share : List Nat) :
    constantShare lut share =
      .ok (share.map fun i => (i, interpolant (knots.map (Int.cast : Int → T)) lut
        ((i + first : Int) : T))) := by
  obtain ⟨noise, rfl⟩ := List.length_eq_one_iff.mp (hsize.trans h)
  have hconst : ∀ t : T, interpolant (knots.map (Int.cast : Int → T)) [noise] t = noise :=
    fun t => if_pos (by rw [List.length_map]; omega)
  simp only [hconst]
  rw [constantShare, Outcome.collect_eq_ok, List.map_map]
  rfl

theorem sizeIndexBefore_le (h : knots.Pairwise (· < ·)) (hlen : 2 ≤ knots.length) {first s : Int}
    (hle : first ≤ s) : sizeIndexBefore first knots ≤ knotsUpTo knots s := by
  rw [sizeIndexBefore_eq h hlen]
  exact knotsUpTo_mono knots hle

end Share

variable [IsStrictOrderedRing T]

theorem rangeShare_eq (v : NoiseVector T) (first : Int) {share : List Nat}
    (hshare : share.Pairwise (· < ·)) :
    rangeShare v first (deviceSampleIndex first v) share =
      .ok (share.map fun (i : Nat) => (i, v.noise (i + first))) := by
  have hpos : 0 < v.pixels.length := List.length_pos_iff.mpr v.nonempty
  rw [rangeShare]
  by_cases hlen : v.pixels.length < 2
  · rw [if_pos hlen]
    exact constantShare_eq (by omega) v.noiseLut v.sizes first share
  · rw [if_neg hlen]
    exact interpolateShare_eq v.increasing (by omega) v.noiseLut v.sizes first hshare
      fun i _ => sizeIndexBefore_le v.increasing (by omega) (by omega)

/-! ## What a launch computes -/

theorem exists_azimuthLaunch (d : StoreOrder) (parts : Shares) (v : NoiseAzimuthVector T)
    {first last : Int} (h : first ≤ last) :
    ∃ m, launchInterpolateNoiseAzimuthVectorKernel d parts v first last
        (getLineIndex first v.lines) = .ok m ∧
      ∀ i < (last - first + 1).toNat, m i = some (v.noise (i + first)) := by
  have hpos : 0 < v.lines.length := List.length_pos_iff.mpr v.nonempty
  set count := last - first + 1 with hcount
  -- every line is in the share of some thread
  have hlines : ∀ {m : Nat → Option T},
      (∀ share ∈ (parts count.toNat).shares, ∀ i ∈ share, m i = some (v.noise (i + first))) →
      ∀ i < count.toNat, m i = some (v.noise (i + first)) := by
    intro m hm i hi
    obtain ⟨share, hshare, hmem⟩ := (parts count.toNat).exists_share.mpr hi
    exact hm share hshare i hmem
  rw [launchInterpolateNoiseAzimuthVectorKernel, if_neg (by omega)]
  -- a single value has a kernel of its own
  by_cases hlen : v.lines.length < 2
  · have hkernel : ∀ share ∈ (parts count.toNat).shares,
        interpolateNoiseAzimuthVectorSingleLine v share =
          .ok (share.map fun (i : Nat) => (i, v.noise (i + first))) :=
      fun share _ => constantShare_eq (by omega) v.noiseAzimuthLut v.sizes first share
    rw [if_pos hlen]
    obtain ⟨m, hm, hstored, -⟩ := exists_launchThreads d (fun share => share) hkernel
      fun _ => none
    exact ⟨m, hm, hlines hstored⟩
  · have hkernel : ∀ share ∈ (parts count.toNat).shares,
        interpolateNoiseAzimuthVectorMultiLine v first (getLineIndex first v.lines) share =
          .ok (share.map fun (i : Nat) => (i, v.noise (i + first))) :=
      fun share hshare => interpolateShare_eq v.increasing (by omega) v.noiseAzimuthLut v.sizes
        first ((parts count.toNat).increasing share hshare)
        fun i _ => sizeIndexBefore_le v.increasing (by omega) (by omega)
    rw [if_neg hlen]
    obtain ⟨m, hm, hstored, -⟩ := exists_launchThreads d (fun share => share) hkernel
      fun _ => none
    exact ⟨m, hm, hlines hstored⟩

section Range

variable {rangeVectors : List (NoiseVector T)} {burstIndices : List Int}

omit [Field T] [LinearOrder T] [IsStrictOrderedRing T] in
/-- The vector of a burst that the vectors have. -/
theorem exists_rangeVector (hbursts : ∀ b ∈ burstIndices, 0 ≤ b ∧ b < rangeVectors.length)
    {index : Nat} (hindex : index < burstIndices.length) :
    ∃ v, vectorIndex burstIndices index = .ok burstIndices[index] ∧
      vectorIndex rangeVectors burstIndices[index] = .ok v ∧
      rangeVectors[burstIndices[index].toNat]? = some v := by
  have hburst := hbursts _ (List.getElem_mem hindex)
  obtain ⟨v, hv, hget⟩ := exists_vectorIndex hburst.1 hburst.2
  exact ⟨v, vectorIndex_natCast hindex, hv, hget⟩

omit [Field T] [LinearOrder T] [IsStrictOrderedRing T] in
theorem exists_sampleIndexLaunch (d : StoreOrder) (parts : Shares) (tile : Rectangle)
    (hbursts : ∀ b ∈ burstIndices, 0 ≤ b ∧ b < rangeVectors.length) :
    ∃ m, launchGetSampleIndexKernel d parts tile rangeVectors burstIndices = .ok m ∧
      ∀ index (h : index < burstIndices.length), ∀ v,
        rangeVectors[burstIndices[index].toNat]? = some v →
          m index = some (deviceSampleIndex tile.x v) := by
  let value : Nat → Nat := fun index =>
    ((burstIndices[index]?.bind fun b => rangeVectors[b.toNat]?).map
      (deviceSampleIndex tile.x)).getD 0
  have hvalue : ∀ index (h : index < burstIndices.length), ∀ v,
      rangeVectors[burstIndices[index].toNat]? = some v →
        value index = deviceSampleIndex tile.x v := by
    intro index h v hv
    simp only [value, List.getElem?_eq_getElem h, Option.bind_some, hv, Option.map_some,
      Option.getD_some]
  have hkernel : ∀ share ∈ (parts burstIndices.length).shares,
      getSampleIndexKernel burstIndices tile.x rangeVectors share =
        .ok (share.map fun index => (index, value index)) := by
    intro share hshare
    rw [getSampleIndexKernel, Outcome.collect_eq_ok, List.map_map]
    refine List.map_congr_left fun index hi => ?_
    have hindex := (parts burstIndices.length).lt_of_mem hshare hi
    obtain ⟨v, hb, hv, hget⟩ := exists_rangeVector hbursts hindex
    simp only [Function.comp_apply, hb, Outcome.ok_bind, hv, hvalue index hindex v hget]
    rfl
  obtain ⟨m, hm, hstored, -⟩ := exists_launchThreads d (fun share => share) hkernel
    fun _ => none
  refine ⟨m, hm, fun index h v hv => ?_⟩
  obtain ⟨share, hshare, hmem⟩ := (parts burstIndices.length).exists_share.mpr h
  rw [hstored share hshare index hmem, hvalue index h v hv]

/-- The launch computes the vectors of the listed bursts, and leaves the others as they were
allocated. -/
theorem exists_rangeLaunch (d : StoreOrder) (parts rows columns : Shares) (tile : Rectangle)
    (hwidth : 0 < tile.width) (hnonempty : burstIndices ≠ [])
    (hbursts : ∀ b ∈ burstIndices, 0 ≤ b ∧ b < rangeVectors.length) :
    ∃ sampleIndices m,
      launchGetSampleIndexKernel d parts tile rangeVectors burstIndices = .ok sampleIndices ∧
      launchInterpolateNoiseRangeVectorsKernel d rows columns tile burstIndices sampleIndices
        rangeVectors = .ok m ∧
      ∀ b ∈ burstIndices, ∀ v, rangeVectors[b.toNat]? = some v → ∀ i < tile.width.toNat,
        m (b.toNat, i) = some (v.noise (i + tile.x)) := by
  obtain ⟨sampleIndices, hindices, hstart⟩ :=
    exists_sampleIndexLaunch d parts tile hbursts
  let value : Nat × Nat → T := fun k =>
    (rangeVectors[k.1]?.map fun v => v.noise (k.2 + tile.x)).getD 0
  have hvalue : ∀ b v (i : Nat), rangeVectors[b]? = some v →
      value (b, i) = v.noise (i + tile.x) := by
    intro b v i hv
    simp only [value, hv, Option.map_some, Option.getD_some]
  let cells : List Nat × List Nat → List (Nat × Nat) := fun thread =>
    thread.1.flatMap fun index =>
      thread.2.map fun i => ((burstIndices[index]?.getD 0).toNat, i)
  have hkernel : ∀ thread ∈
      (rows burstIndices.length).shares ×ˢ (columns tile.width.toNat).shares,
      interpolateNoiseRangeVectorKernel burstIndices sampleIndices tile.x rangeVectors thread =
        .ok ((cells thread).map fun k => (k, value k)) := by
    intro thread hthread
    obtain ⟨hrow, hcolumn⟩ := List.mem_product.mp hthread
    -- each row of the thread's share is one vector, with one value for each of its samples
    have hrows : Outcome.collect (thread.1.map fun (index : Nat) => do
        let sampleIndex ← readCell sampleIndices index
        let burstIndex ← vectorIndex burstIndices index
        let noiseRangeVector ← vectorIndex rangeVectors burstIndex
        let stores ← rangeShare noiseRangeVector tile.x sampleIndex thread.2
        return stores.map fun w => ((burstIndex.toNat, w.1), w.2)) =
        .ok (thread.1.map fun index => thread.2.map fun i =>
          (((burstIndices[index]?.getD 0).toNat, i),
            value ((burstIndices[index]?.getD 0).toNat, i))) := by
      rw [Outcome.collect_eq_ok, List.map_map]
      refine List.map_congr_left fun index hi => ?_
      have hindex := (rows burstIndices.length).lt_of_mem hrow hi
      obtain ⟨v, hb, hv, hget⟩ := exists_rangeVector hbursts hindex
      have hcell := readCell_eq_ok.mpr (hstart index hindex v hget)
      simp only [Function.comp_apply, hcell, hb, Outcome.ok_bind, hv,
        rangeShare_eq v tile.x ((columns tile.width.toNat).increasing _ hcolumn),
        List.getElem?_eq_getElem hindex, Option.getD_some, Outcome.pure_eq, List.map_map]
      refine congrArg _ (List.map_congr_left fun i _ => ?_)
      simp only [Function.comp_apply, hvalue _ v i hget]
    rw [interpolateNoiseRangeVectorKernel, hrows, Outcome.ok_bind, Outcome.pure_eq]
    simp only [cells, List.flatMap, List.map_flatten, List.map_map, Function.comp_def]
  obtain ⟨m, hm, hstored, -⟩ := exists_launchThreads d _ hkernel fun _ => none
  refine ⟨sampleIndices, m, hindices, ?_, fun b hb v hv i hi => ?_⟩
  · rw [launchInterpolateNoiseRangeVectorsKernel, if_neg]
    · exact hm
    · simp only [not_or, not_le]
      exact ⟨hwidth, hnonempty⟩
  · obtain ⟨index, hindex, rfl⟩ := List.getElem_of_mem hb
    obtain ⟨row, hrow, hmemRow⟩ := (rows burstIndices.length).exists_share.mpr hindex
    obtain ⟨column, hcolumn, hmemColumn⟩ := (columns tile.width.toNat).exists_share.mpr hi
    rw [hstored (row, column) (List.mem_product.mpr ⟨hrow, hcolumn⟩), hvalue _ v i hv]
    refine List.mem_flatMap.mpr ⟨index, hmemRow, List.mem_map.mpr ⟨i, hmemColumn, ?_⟩⟩
    rw [List.getElem?_eq_getElem hindex, Option.getD_some]

end Range

/-! ## Host and device -/

/-- The device that has five threads, and stores last what was computed first. -/
def exampleOrder : StoreOrder := ⟨List.reverse, List.reverse_perm⟩

def exampleShares : Shares := fun count => gridStrides count 5 (by decide)

def exampleRangeVector : NoiseVector ℚ := ⟨0, [2, 5, 9], [1, 4, 0], by decide, rfl, by decide⟩

def exampleAzimuthVector : NoiseAzimuthVector ℚ where
  swath := "IW1"
  firstAzimuthLine := 0
  firstRangeSample := 0
  lastAzimuthLine := 9
  lastRangeSample := 9
  lines := [0, 4]
  noiseAzimuthLut := [1, 2]
  increasing := by decide
  sizes := rfl
  nonempty := by decide

end Alus.ThermalNoise
