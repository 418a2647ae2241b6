import Alus.Backgeocoding.BackgeocodingController
import Alus.Backgeocoding.EtadCorrection
import Alus.Backgeocoding.SlaveRectangle
import Alus.Lib.Numerals
import Alus.Util.DrainingWorkers
import Alus.Util.RasterArea

/-!
# The threads of the backgeocoding controller

`BackgeocodingController::DoWork` runs nine threads over the areas of the bursts. A worker reads the
master area, computes the slave positions of its pixels, reads the slave rectangle around these,
resamples it and writes the bands of the output; without a slave rectangle it writes no-data values.
An exception does not end a thread: it is registered, the other workers notice it and do nothing,
and the first one is passed on when the threads have ended.

Numbers are exact, `none` in a band is NaN. What is not known of the output is `none` too, outside.
-/

namespace Alus.Backgeocoding

open Alus.Lib Alus.Util

/-! ## A worker -/

/-- `WriteRectangle`: the band, the area and the buffer. -/
structure BandWrite (T : Type) where
  bandNr : Nat
  area : Rectangle
  data : List (Option (Option T))

/-- The bands of the output, by number and place. -/
abbrev OutputDataset (T : Type) := Nat × (Int × Int) → Option (Option T)

def writeRectangle {T : Type} (output : OutputDataset T) (w : BandWrite T) : OutputDataset T :=
  fun k =>
    if k.1 = w.bandNr then rasterWrite (fun p => output (k.1, p)) (w.area, w.data) k.2
    else output k

/-- The controller when it is prepared: its datasets, and what its computations use. -/
structure PreparedController (T : Type) [Field T] [LinearOrder T] [FloorRing T] extends
    BackgeocodingController where
  slaveBurstOffset : Int
  /-- the complex samples of the master -/
  masterInputDataset : RasterBand (Int × Int)
  /-- by master and slave burst -/
  positions : Int → Int → SlavePositions T
  slaveSwath : SlaveSubSwath
  /-- what `DerampDemod` makes of a slave burst -/
  demod : Int → Demod T
  sincos : T → T × T
  disableReramp : Bool
  etadCorrection : Option (EtadCorrection T)

namespace PreparedController

variable {T : Type} [Field T] [LinearOrder T] [FloorRing T]

section Definitions

variable (c : PreparedController T)

/-- `CoreCompute`, and the positions it uses. -/
def coreResults (p : WorkerParams) (slaveArea : Rectangle) : Outcome (List (T × T)) :=
  Outcome.collect ((rasterRead id p.masterInputArea).map fun k =>
    let (x, y) := elevationMask (c.positions p.masterBurstIndex p.slaveBurstIndex) k.1 k.2
    coreCompute c.sincos c.slaveSwath p.slaveBurstIndex (c.demod p.slaveBurstIndex)
      c.disableReramp slaveArea x y)

/-- `ComputeEtad`. -/
def etadResults (correction : EtadCorrection T) (p : WorkerParams) : Outcome (List (Option T)) := do
  let (reference, secondary) ← correction.bursts p.masterBurstIndex p.slaveBurstIndex
  Outcome.collect ((rasterRead id p.masterInputArea).map fun k =>
    computeEtadCorrection reference secondary k.1 k.2
      (elevationMask (c.positions p.masterBurstIndex p.slaveBurstIndex) k.1 k.2))

/-- `WriteOutputs`. -/
def writeOutputs (outputArea : Rectangle) (iMaster qMaster iSlave qSlave : List T)
    (etadIfg : Option (List (Option T))) : List (BandWrite T) :=
  let write bandNr (data : List T) :=
    BandWrite.mk bandNr outputArea (data.map fun t => some (some t))
  [write 1 iMaster, write 2 qMaster, write 3 iSlave, write 4 qSlave] ++
    etadIfg.toList.map fun data => ⟨5, outputArea, data.map some⟩

/-- The results for an area, from its slave rectangle. -/
def areaResults (p : WorkerParams) (tileSize : Int) (slaveArea : Rectangle) :
    Outcome (List (T × T) × Option (List (Option T))) :=
  -- position computation succeeded
  if slaveArea.width > 0 ∧ slaveArea.height > 0 then do
    let results ← c.coreResults p slaveArea
    match c.etadCorrection with
    | none => return (results, none)
    | some correction => do
      let etadResults ← c.etadResults correction p
      return (results, some etadResults)
  else
    return (List.replicate tileSize.toNat (0, 0),
      c.etadCorrection.map fun _ => List.replicate tileSize.toNat none)

/-- `Work`. What it writes comes at its end, with the check of `WriteRectangle`. -/
def work (p : WorkerParams) : Outcome (List (BandWrite T)) := do
  let tileSize ← checkedPixelCount p.masterInputArea
  let masterTile := rasterRead c.masterInputDataset p.masterInputArea
  let slaveArea ← positionCompute (c.positions p.masterBurstIndex p.slaveBurstIndex) c.slaveSwath
    p.slaveBurstIndex p.masterInputArea
  let _demodSize ← checkedPixelCount slaveArea
  let (results, etadResults) ← c.areaResults p tileSize slaveArea
  Outcome.require (¬ (p.masterInputArea.width ≤ 0 ∨ p.masterInputArea.height ≤ 0))
  return writeOutputs p.masterInputArea (masterTile.map fun z => (z.1 : T))
    (masterTile.map fun z => (z.2 : T)) (results.map Prod.fst) (results.map Prod.snd) etadResults

/-- `n_worker_threads`. -/
abbrev nWorkerThreads : Nat := 9

/-- `DoWork`, after the loops that set the workers up. -/
def doWork (E : Type) (workers : List WorkerParams) :
    System (DrainState WorkerParams (Fin nWorkerThreads) (BandWrite T) E) :=
  drain (Fin nWorkerThreads) E c.work workers

/-- What `DoWork` passes on when the threads have ended. -/
def rethrown {E : Type} (s : DrainState WorkerParams (Fin nWorkerThreads) (BandWrite T) E) :
    Option E :=
  s.exceptions[0]?

/-! ## What the workers are for -/

/-- The bands of the output. -/
def bands : List Nat := [1, 2, 3, 4] ++ if c.etadCorrection.isSome then [5] else []

/-- The slave at a pixel: resampled at the position of the pixel, unless the area has no slave
rectangle. -/
def slaveAt (p : WorkerParams) (k : Int × Int) : T × T :=
  let positions := c.positions p.masterBurstIndex p.slaveBurstIndex
  if OffRange positions c.slaveSwath p.masterInputArea then (0, 0)
  else pixelValue positions c.sincos c.slaveSwath p.slaveBurstIndex (c.demod p.slaveBurstIndex)
    c.disableReramp k.1 k.2

/-- The correction at a pixel. -/
def etadAt (p : WorkerParams) (k : Int × Int) : Option T := do
  let correction ← c.etadCorrection
  match correction.bursts p.masterBurstIndex p.slaveBurstIndex with
  | .ok (reference, secondary) =>
    match computeEtadCorrection reference secondary k.1 k.2
      (elevationMask (c.positions p.masterBurstIndex p.slaveBurstIndex) k.1 k.2) with
    | .ok value => value
    | _ => none
  | _ => none

/-- The output at a pixel of the area of a worker. -/
def bandValue (p : WorkerParams) (bandNr : Nat) (k : Int × Int) : Option T :=
  match bandNr with
  | 1 => some (c.masterInputDataset k).1
  | 2 => some (c.masterInputDataset k).2
  | 3 => some (c.slaveAt p k).1
  | 4 => some (c.slaveAt p k).2
  | _ => c.etadAt p k

/-- What a worker writes of a band. -/
def bandWrite (p : WorkerParams) (bandNr : Nat) : BandWrite T :=
  ⟨bandNr, p.masterInputArea, rasterRead (fun k => some (c.bandValue p bandNr k)) p.masterInputArea⟩

/-- A pixel of the bursts. -/
def InBursts (k : Int × Int) : Prop :=
  (0 ≤ k.1 ∧ k.1 < c.samplesPerBurst) ∧ 0 ≤ k.2 ∧ k.2 < c.numOfBursts * c.linesPerBurst

/-- The prepared bursts are those of the master and of the slave, with the rasters of the latter. -/
structure EtadMatches (correction : EtadCorrection T) : Prop where
  reference : (correction.reference.length : Int) = c.numOfBursts
  secondary : (correction.secondary.length : Int) = c.slaveSwath.numOfBursts
  firstOutputLine : ∀ (j : Nat) burst, correction.secondary[j]? = some burst →
    (burst.firstOutputLine : Int) = j * c.slaveSwath.linesPerBurst
  lines : ∀ burst ∈ correction.secondary,
    (burst.slcGeometry.lines : Int) = c.slaveSwath.linesPerBurst
  samples : ∀ burst ∈ correction.secondary,
    (burst.slcGeometry.samples : Int) = c.slaveSwath.samplesPerBurst

/-- The workers that the loops set up: each pixel of the bursts is in the area of one of them, which
has the burst of the pixel. -/
structure SetUp (workers : List WorkerParams) : Prop where
  covers : ∀ k, c.InBursts k → ∃ p ∈ workers, p.masterInputArea.Contains k.1 k.2
  unique : ∀ p ∈ workers, ∀ p' ∈ workers, ∀ k : Int × Int, p.masterInputArea.Contains k.1 k.2 →
    p'.masterInputArea.Contains k.1 k.2 → p = p'
  inside : ∀ p ∈ workers, ∀ k : Int × Int, p.masterInputArea.Contains k.1 k.2 →
    c.InBursts k ∧ p.masterBurstIndex = k.2 / c.linesPerBurst
  slave : ∀ p ∈ workers, p.slaveBurstIndex = p.masterBurstIndex + c.slaveBurstOffset
  nonempty : ∀ p ∈ workers, 0 < p.masterInputArea.width ∧ 0 < p.masterInputArea.height ∧
    p.masterInputArea.width * p.masterInputArea.height ≤ 4000000
  masterBurst : ∀ p ∈ workers, 0 ≤ p.masterBurstIndex ∧ p.masterBurstIndex < c.numOfBursts

/-- What a state of the threads should be. -/
structure Geocodes {E : Type} (workers : List WorkerParams) (initial : OutputDataset T)
    (s : DrainState WorkerParams (Fin nWorkerThreads) (BandWrite T) E) : Prop where
  /-- of no area a band is written twice -/
  once : ∀ i p, workers[i]? = some p → writesAt s.written i <+: c.bands.map (c.bandWrite p)
  outside : ∀ b k, ¬ (b ∈ c.bands ∧ c.InBursts k) →
    s.image writeRectangle initial (b, k) = initial (b, k)
  inside : ∀ p ∈ workers, ∀ b ∈ c.bands, ∀ k : Int × Int, p.masterInputArea.Contains k.1 k.2 →
    s.image writeRectangle initial (b, k) = initial (b, k) ∨
      s.image writeRectangle initial (b, k) = some (c.bandValue p b k)
  complete : (∀ w, s.workers w = .stopped) → rethrown s = none → ∀ p ∈ workers, ∀ b ∈ c.bands,
    ∀ k : Int × Int, p.masterInputArea.Contains k.1 k.2 →
      s.image writeRectangle initial (b, k) = some (c.bandValue p b k)
  /-- whatever was thrown, the threads stop at an empty queue -/
  drained : ∀ w, s.workers w = .stopped → s.queue.popFront = none
  goesOn : (∃ w, s.workers w ≠ .stopped) →
    ∃ t, DrainStep c.work s t ∧ t.exceptions = s.exceptions
  /-- the first exception stays the first, and no area is begun after it -/
  afterwards : ∀ t, (c.doWork E workers).Runs s t → GoesOnFrom s t

end Definitions

/-! ## The results for an area -/

omit [Field T] [LinearOrder T] [FloorRing T] in
/-- A loop over the pixels of an area that computes a value for each. -/
theorem collect_rasterRead {F : Type} {window : Rectangle} {f : Int × Int → Outcome F}
    {value : RasterBand F}
    (h : ∀ k : Int × Int, window.Contains k.1 k.2 → f k = .ok (value k)) :
    Outcome.collect ((rasterRead id window).map f) = .ok (rasterRead value window) := by
  have hmap : (rasterRead id window).map f = rasterRead (fun k => .ok (value k)) window :=
    map_rasterRead h
  rw [Outcome.collect_eq_ok, hmap]
  simp [rasterRead]

variable {c : PreparedController T} {p : WorkerParams} {r : Rectangle}

/-- A pixel keeps its position, or gets the marker. -/
theorem elevationMask_cases (positions : SlavePositions T) (px py : Int) :
    elevationMask positions px py = (invalidIndex, invalidIndex) ∨
      ∃ q, positions.interpolated px py = some q ∧ elevationMask positions px py = q := by
  cases hnull : notNull positions px py with
  | false => exact .inl (notNull_eq_false hnull)
  | true =>
    obtain ⟨q, hq, hmask, -⟩ := notNull_eq_true hnull
    exact .inr ⟨q, hq, hmask⟩

/-- The bursts of the correction, where the slave has the burst. -/
theorem EtadMatches.exists_bursts {correction : EtadCorrection T} (h : c.EtadMatches correction)
    (hmaster : 0 ≤ p.masterBurstIndex ∧ p.masterBurstIndex < c.numOfBursts)
    (hslave : 0 ≤ p.slaveBurstIndex ∧ p.slaveBurstIndex < c.slaveSwath.numOfBursts) :
    ∃ reference secondary, correction.bursts p.masterBurstIndex p.slaveBurstIndex =
      .ok (reference, secondary) ∧
      (secondary.firstOutputLine : Int) = p.slaveBurstIndex * c.slaveSwath.linesPerBurst ∧
      (secondary.slcGeometry.lines : Int) = c.slaveSwath.linesPerBurst ∧
      (secondary.slcGeometry.samples : Int) = c.slaveSwath.samplesPerBurst := by
  obtain ⟨reference, hreference, -⟩ := exists_vectorIndex (v := correction.reference) hmaster.1
    (by rw [h.reference]; exact hmaster.2)
  obtain ⟨secondary, hsecondary, hget⟩ := exists_vectorIndex (v := correction.secondary) hslave.1
    (by rw [h.secondary]; exact hslave.2)
  have hmem := List.mem_of_getElem? hget
  have hfirst := h.firstOutputLine _ _ hget
  rw [Int.toNat_of_nonneg hslave.1] at hfirst
  refine ⟨reference, secondary, ?_, hfirst, h.lines _ hmem, h.samples _ hmem⟩
  rw [EtadCorrection.bursts, Outcome.require_of (by rw [h.reference, h.secondary]; omega)]
  simp [hreference, hsecondary]

/-- A correction of a burst that the slave does not have is refused. -/
theorem EtadMatches.bursts_throws {correction : EtadCorrection T} (h : c.EtadMatches correction)
    (hslave : ¬ (0 ≤ p.slaveBurstIndex ∧ p.slaveBurstIndex < c.slaveSwath.numOfBursts)) :
    correction.bursts p.masterBurstIndex p.slaveBurstIndex = .throws := by
  rw [EtadCorrection.bursts, Outcome.require_of_not (by rw [h.secondary]; omega)]
  rfl

/-- Without a slave rectangle no pixel of the area has a position in the slave burst. -/
theorem outside_of_no_area {positions : SlavePositions T} {swath : SlaveSubSwath}
    {sBurstIndex : Int} {t : Rectangle} (hclip : Clipped positions swath sBurstIndex t r)
    (hno : ¬ (r.width > 0 ∧ r.height > 0)) (hburst : 0 ≤ sBurstIndex)
    (hburst_lt : sBurstIndex < swath.numOfBursts) {k : Int × Int} (hk : t.Contains k.1 k.2) :
    elevationMask positions k.1 k.2 = (invalidIndex, invalidIndex) ∨
      ∃ q, elevationMask positions k.1 k.2 = q ∧
        ((⌊q.1⌋ < 0 ∨ swath.samplesPerBurst ≤ ⌊q.1⌋) ∨ ⌊q.2⌋ < sBurstIndex * swath.linesPerBurst ∨
          sBurstIndex * swath.linesPerBurst + swath.linesPerBurst ≤ ⌊q.2⌋) := by
  rcases elevationMask_cases positions k.1 k.2 with hinvalid | ⟨q, hq, hmask⟩
  · exact .inl hinvalid
  have hp := mem_positionsIn hk hq
  have hsamples := swath.samples_pos
  have hlines := swath.lines_pos
  cases hclip with
  | noBurst h => exact absurd ⟨hburst, hburst_lt⟩ h
  | noPosition h => exact .inl (notNull_eq_false (h k (mem_tilePixels.mpr hk)))
  | noColumn h =>
    refine .inr ⟨q, hmask, .inl ?_⟩
    have hmin := xMin_le hp
    have hmax := le_xMax hp
    unfold clipLow clipHigh bilinearInterpolationKernelSize at h
    omega
  | noLine h =>
    refine .inr ⟨q, hmask, .inr ?_⟩
    have hmin := yMin_le hp
    have hmax := le_yMax hp
    unfold clipLow clipHigh bilinearInterpolationKernelSize at h
    omega
  | area _ _ _ _ _ _ hw hh => exact absurd ⟨hw, hh⟩ hno

section Area

variable [IsStrictOrderedRing T]

/-- A pixel of the area has the value that the tile has there. -/
theorem tileValue_of_area
    (hr : positionCompute (c.positions p.masterBurstIndex p.slaveBurstIndex) c.slaveSwath
      p.slaveBurstIndex p.masterInputArea = .ok r)
    (hclip : Clipped (c.positions p.masterBurstIndex p.slaveBurstIndex) c.slaveSwath
      p.slaveBurstIndex p.masterInputArea r) {k : Int × Int}
    (hk : p.masterInputArea.Contains k.1 k.2) :
    (if r.width > 0 ∧ r.height > 0 then
      coreCompute c.sincos c.slaveSwath p.slaveBurstIndex (c.demod p.slaveBurstIndex)
        c.disableReramp r
        (elevationMask (c.positions p.masterBurstIndex p.slaveBurstIndex) k.1 k.2).1
        (elevationMask (c.positions p.masterBurstIndex p.slaveBurstIndex) k.1 k.2).2
    else .ok (0, 0)) = .ok (c.slaveAt p k) := by
  have hvalue : tileValue (c.positions p.masterBurstIndex p.slaveBurstIndex) c.sincos c.slaveSwath
      p.slaveBurstIndex (c.demod p.slaveBurstIndex) c.disableReramp p.masterInputArea k.1 k.2 =
        .ok (c.slaveAt p k) := tileValue_eq hk
  simp only [tileValue, hr, hclip.checkedPixelCount, Outcome.ok_bind, Outcome.pure_eq] at hvalue
  exact hvalue

/-- Without a slave rectangle no pixel of the area has a correction. -/
theorem etadAt_eq_none (hetad : ∀ correction, c.etadCorrection = some correction →
      c.EtadMatches correction)
    (hmaster : 0 ≤ p.masterBurstIndex ∧ p.masterBurstIndex < c.numOfBursts)
    (hclip : Clipped (c.positions p.masterBurstIndex p.slaveBurstIndex) c.slaveSwath
      p.slaveBurstIndex p.masterInputArea r) (hno : ¬ (r.width > 0 ∧ r.height > 0))
    {k : Int × Int} (hk : p.masterInputArea.Contains k.1 k.2) : c.etadAt p k = none := by
  unfold etadAt
  cases hcorrection : c.etadCorrection with
  | none => rfl
  | some correction =>
    have hmatches := hetad correction hcorrection
    by_cases hslave : 0 ≤ p.slaveBurstIndex ∧ p.slaveBurstIndex < c.slaveSwath.numOfBursts
    · obtain ⟨reference, secondary, hbursts, hfirst, hlines, hsamples⟩ :=
        hmatches.exists_bursts hmaster hslave
      have hnone : computeEtadCorrection reference secondary k.1 k.2
          (elevationMask (c.positions p.masterBurstIndex p.slaveBurstIndex) k.1 k.2) =
            .ok none := by
        rcases outside_of_no_area hclip hno hslave.1 hslave.2 hk with hinvalid | ⟨q, rfl, hout⟩
        · rw [hinvalid]
          exact if_pos ⟨rfl, rfl⟩
        · rw [← hfirst, ← hlines, ← hsamples] at hout
          refine etadCorrection_outside ?_
          rcases hout with (hleft | hright) | habove | hbelow
          · have hlt := Int.floor_lt.mp hleft
            rw [Int.cast_zero] at hlt
            exact .inr (.inr (.inl hlt))
          · have hle := Int.le_floor.mp hright
            rw [Int.cast_natCast] at hle
            exact .inr (.inr (.inr hle))
          · have hlt := Int.floor_lt.mp habove
            rw [Int.cast_natCast] at hlt
            exact .inl (sub_neg.mpr hlt)
          · have hle := Int.le_floor.mp hbelow
            rw [Int.cast_add, Int.cast_natCast, Int.cast_natCast] at hle
            exact .inr (.inl (le_sub_iff_add_le'.mpr hle))
      simp [hbursts, hnone]
    · simp [hmatches.bursts_throws hslave]

variable (hetad : ∀ correction, c.etadCorrection = some correction → c.EtadMatches correction)
  (hmaster : 0 ≤ p.masterBurstIndex ∧ p.masterBurstIndex < c.numOfBursts)

include hetad hmaster in
/-- The results have the values of the pixels. -/
theorem areaResults_eq {tileSize : Int} (hsize : tileSize.toNat = pixelCount p.masterInputArea)
    (hr : positionCompute (c.positions p.masterBurstIndex p.slaveBurstIndex) c.slaveSwath
      p.slaveBurstIndex p.masterInputArea = .ok r)
    (hclip : Clipped (c.positions p.masterBurstIndex p.slaveBurstIndex) c.slaveSwath
      p.slaveBurstIndex p.masterInputArea r) :
    c.areaResults p tileSize r = .ok (rasterRead (c.slaveAt p) p.masterInputArea,
      c.etadCorrection.map fun _ => rasterRead (c.etadAt p) p.masterInputArea) := by
  have hvalue (k : Int × Int) (hk : p.masterInputArea.Contains k.1 k.2) :=
    tileValue_of_area hr hclip hk
  unfold areaResults
  split_ifs with harea
  · have hresults : c.coreResults p r = .ok (rasterRead (c.slaveAt p) p.masterInputArea) := by
      refine collect_rasterRead fun k hk => ?_
      have hcore := hvalue k hk
      rwa [if_pos harea] at hcore
    rw [hresults, Outcome.ok_bind]
    cases hcorrection : c.etadCorrection with
    | none => rfl
    | some correction =>
      have hslave : 0 ≤ p.slaveBurstIndex ∧ p.slaveBurstIndex < c.slaveSwath.numOfBursts := by
        cases hclip with
        | area _ hburst => exact hburst
        | _ => exact absurd harea.1 (by decide)
      obtain ⟨reference, secondary, hbursts, -⟩ :=
        (hetad correction hcorrection).exists_bursts hmaster hslave
      have hcorrected : c.etadResults correction p =
          .ok (rasterRead (c.etadAt p) p.masterInputArea) := by
        rw [etadResults, hbursts, Outcome.ok_bind]
        refine collect_rasterRead fun k hk => ?_
        obtain ⟨value, hvalue⟩ := exists_etadCorrection reference secondary k.1 k.2
          (elevationMask (c.positions p.masterBurstIndex p.slaveBurstIndex) k.1 k.2)
        simp [etadAt, hcorrection, hbursts, hvalue]
      simp [hcorrected]
  · have hslave : List.replicate tileSize.toNat (0, 0) =
        rasterRead (c.slaveAt p) p.masterInputArea := by
      rw [hsize]
      refine replicate_eq_rasterRead fun k hk => ?_
      have hnone := hvalue k hk
      rw [if_neg harea] at hnone
      exact (Outcome.ok.inj hnone).symm
    have hcorrections : List.replicate tileSize.toNat none =
        rasterRead (c.etadAt p) p.masterInputArea := by
      rw [hsize]
      exact replicate_eq_rasterRead fun k hk => etadAt_eq_none hetad hmaster hclip harea hk
    rw [hslave, hcorrections]
    rfl

include hetad hmaster in
/-- A worker writes the values of its bands. -/
theorem work_eq (hwidth : 0 < p.masterInputArea.width) (hheight : 0 < p.masterInputArea.height)
    (hsize : p.masterInputArea.width * p.masterInputArea.height ≤ 2305843009213693951) :
    c.work p = .ok (c.bands.map (c.bandWrite p)) := by
  obtain ⟨r, hr, hclip⟩ := positionCompute_clipped
    (c.positions p.masterBurstIndex p.slaveBurstIndex) c.slaveSwath p.slaveBurstIndex
    p.masterInputArea
  have hcount : (p.masterInputArea.width * p.masterInputArea.height).toNat =
      pixelCount p.masterInputArea := Int.toNat_mul hwidth.le hheight.le
  have hwrites : writeOutputs p.masterInputArea
      ((rasterRead c.masterInputDataset p.masterInputArea).map fun z => (z.1 : T))
      ((rasterRead c.masterInputDataset p.masterInputArea).map fun z => (z.2 : T))
      ((rasterRead (c.slaveAt p) p.masterInputArea).map Prod.fst)
      ((rasterRead (c.slaveAt p) p.masterInputArea).map Prod.snd)
      (c.etadCorrection.map fun _ => rasterRead (c.etadAt p) p.masterInputArea) =
        c.bands.map (c.bandWrite p) := by
    unfold writeOutputs bands bandWrite
    cases c.etadCorrection <;> simp [rasterRead_map, bandValue]
  simp only [work, checkedPixelCount_of_le hwidth.le hheight.le hsize, Outcome.ok_bind, hr,
    hclip.checkedPixelCount, areaResults_eq hetad hmaster hcount hr hclip,
    Outcome.require_of (show ¬ (p.masterInputArea.width ≤ 0 ∨ p.masterInputArea.height ≤ 0) by
      omega), hwrites, Outcome.pure_eq]

end Area

/-! ## The workers of the bursts -/

section Workers

/-- The pixels of the area of a worker. -/
theorem contains_worker {b : BackgeocodingController} (hwidth : 0 < b.recommendedWidth)
    {slaveBurstOffset i j x y : Int} (hj : 0 ≤ j) (hj_lt : j < b.areaCount) :
    (b.worker slaveBurstOffset i j).masterInputArea.Contains x y ↔
      (0 ≤ x ∧ x < b.samplesPerBurst) ∧ x / b.recommendedWidth = j ∧ y / b.linesPerBurst = i := by
  obtain ⟨-, hlast, hend⟩ := BackgeocodingController.areaCount_bounds hwidth
  have hfirst : 0 ≤ b.recommendedWidth * j := Int.mul_nonneg hwidth.le hj
  rw [Int.ediv_eq_iff_of_pos hwidth, Int.ediv_eq_iff_of_pos b.linesPerBurst.2.1,
    Int.mul_comm j]
  simp only [BackgeocodingController.worker, Rectangle.Contains]
  split_ifs with hfinal
  · subst hfinal
    rw [Int.mul_sub, Int.mul_one] at hfirst hlast ⊢
    omega
  · have hnext : b.recommendedWidth * (j + 1) ≤ b.recommendedWidth * (b.areaCount - 1) :=
      Int.mul_le_mul_of_nonneg_left (by omega) hwidth.le
    rw [Int.mul_add, Int.mul_one] at hnext
    omega

theorem setUp_burstWorkers (hwidth : 0 < c.recommendedWidth) :
    c.SetUp ((intRange 0 c.numOfBursts).flatMap (c.burstWorkers c.slaveBurstOffset)) := by
  obtain ⟨hcount, hlast, hend⟩ := BackgeocodingController.areaCount_bounds hwidth
  have hlines := c.linesPerBurst.2.1
  have hmem {p : WorkerParams}
      (hp : p ∈ (intRange 0 c.numOfBursts).flatMap (c.burstWorkers c.slaveBurstOffset)) :
      ∃ i j : Int, (0 ≤ i ∧ i < c.numOfBursts) ∧ (0 ≤ j ∧ j < c.areaCount) ∧
        p = c.worker c.slaveBurstOffset i j := by
    obtain ⟨i, hi, hp⟩ := List.mem_flatMap.mp hp
    obtain ⟨j, hj, rfl⟩ := List.mem_map.mp hp
    exact ⟨i, j, mem_intRange.mp hi, mem_intRange.mp hj, rfl⟩
  refine ⟨fun k hk => ?covers, fun p hp p' hp' k hin hin' => ?unique, fun p hp k hin => ?inside,
    fun p hp => ?slave, fun p hp => ?nonempty, fun p hp => ?masterBurst⟩
  case covers =>
    obtain ⟨⟨hx, hx'⟩, hy, hy'⟩ := hk
    have hj := Int.ediv_nonneg hx hwidth.le
    have hj' : k.1 / c.recommendedWidth < c.areaCount :=
      Int.ediv_lt_of_lt_mul hwidth (by rw [Int.mul_comm]; omega)
    have hi := Int.ediv_nonneg hy hlines.le
    have hi' := Int.ediv_lt_of_lt_mul hlines hy'
    refine ⟨c.worker c.slaveBurstOffset (k.2 / c.linesPerBurst) (k.1 / c.recommendedWidth), ?_,
      (contains_worker hwidth hj hj').mpr ⟨⟨hx, hx'⟩, rfl, rfl⟩⟩
    exact List.mem_flatMap.mpr ⟨_, mem_intRange.mpr ⟨hi, hi'⟩,
      List.mem_map_of_mem (mem_intRange.mpr ⟨hj, hj'⟩)⟩
  case unique =>
    obtain ⟨i, j, -, hj, rfl⟩ := hmem hp
    obtain ⟨i', j', -, hj', rfl⟩ := hmem hp'
    obtain ⟨-, rfl, rfl⟩ := (contains_worker hwidth hj.1 hj.2).mp hin
    obtain ⟨-, rfl, rfl⟩ := (contains_worker hwidth hj'.1 hj'.2).mp hin'
    rfl
  case inside =>
    obtain ⟨i, j, hi, hj, rfl⟩ := hmem hp
    obtain ⟨hx, -, rfl⟩ := (contains_worker hwidth hj.1 hj.2).mp hin
    refine ⟨⟨hx, ?_, ?_⟩, rfl⟩
    · have hle := (Int.le_ediv_iff_mul_le hlines).mp hi.1
      omega
    · exact Int.lt_mul_of_ediv_lt hlines hi.2
  case slave =>
    obtain ⟨i, j, -, -, rfl⟩ := hmem hp
    rfl
  case nonempty =>
    obtain ⟨i, j, -, hj, rfl⟩ := hmem hp
    have harea : c.recommendedWidth * c.linesPerBurst ≤ 4000000 := by
      rw [BackgeocodingController.recommendedWidth, BackgeocodingController.recommendedTileArea,
        Int.tdiv_eq_ediv_of_nonneg (by omega)]
      exact Int.ediv_mul_le _ hlines.ne'
    have hbounds : 0 < (c.worker c.slaveBurstOffset i j).masterInputArea.width ∧
        (c.worker c.slaveBurstOffset i j).masterInputArea.width ≤ c.recommendedWidth := by
      simp only [BackgeocodingController.worker]
      split_ifs with hfinal
      · subst hfinal
        rw [Int.mul_sub, Int.mul_one] at hlast ⊢
        omega
      · omega
    exact ⟨hbounds.1, hlines,
      (Int.mul_le_mul_of_nonneg_right hbounds.2 hlines.le).trans harea⟩
  case masterBurst =>
    obtain ⟨i, j, hi, -, rfl⟩ := hmem hp
    exact hi

end Workers

/-! ## All threads -/

section Threads

variable [IsStrictOrderedRing T] {workers : List WorkerParams}
  (hetad : ∀ correction, c.etadCorrection = some correction → c.EtadMatches correction)
  (hworkers : c.SetUp workers)

include hetad hworkers in
theorem work_of_mem (hp : p ∈ workers) : c.work p = .ok (c.bands.map (c.bandWrite p)) := by
  obtain ⟨hwidth, hheight, hsize⟩ := hworkers.nonempty p hp
  exact work_eq hetad (hworkers.masterBurst p hp) hwidth hheight (by omega)

/-- Where a write has its values. -/
def writtenAt (w : BandWrite T) (k : Nat × (Int × Int)) : Prop :=
  k.1 = w.bandNr ∧ w.area.Contains k.2.1 k.2.2

/-- The value it has there. -/
def writtenValue (w : BandWrite T) (k : Nat × (Int × Int)) : Option (Option T) :=
  w.data[pixelIndex w.area k.2]?.join

omit [IsStrictOrderedRing T] in
theorem writtenValue_bandWrite {b : Nat} {k : Int × Int}
    (hk : p.masterInputArea.Contains k.1 k.2) :
    writtenValue (c.bandWrite p b) (b, k) = some (c.bandValue p b k) := by
  rw [writtenValue, bandWrite, getElem?_rasterRead _ hk, Option.join_some]

include hetad hworkers in
theorem paintsBands : PaintsTiles writeRectangle (workers.flatMap (outputs c.work)) id
    writtenAt writtenValue where
  inside w _ k hin output := by
    rw [id, writeRectangle, if_pos hin.1, rasterWrite, if_pos hin.2]
    rfl
  outside w _ k hout output := by
    by_cases hband : k.1 = w.bandNr
    · rw [id, writeRectangle, if_pos hband, rasterWrite, if_neg fun hin => hout ⟨hband, hin⟩]
    · rw [id, writeRectangle, if_neg hband]
  agree w hw w' hw' k hin hin' := by
    -- one pixel is in one area, and each band is written once
    obtain ⟨p, hp, hw⟩ := List.mem_flatMap.mp hw
    obtain ⟨p', hp', hw'⟩ := List.mem_flatMap.mp hw'
    rw [outputs_eq (work_of_mem hetad hworkers hp)] at hw
    rw [outputs_eq (work_of_mem hetad hworkers hp')] at hw'
    obtain ⟨b, -, rfl⟩ := List.mem_map.mp hw
    obtain ⟨b', -, rfl⟩ := List.mem_map.mp hw'
    obtain rfl := hworkers.unique p hp p' hp' k.2 hin.2 hin'.2
    obtain rfl : b = b' := hin.1.symm.trans hin'.1
    rfl

include hetad hworkers in
theorem geocodes_of_drainsImage {E : Type} {initial : OutputDataset T}
    {s : DrainState WorkerParams (Fin nWorkerThreads) (BandWrite T) E}
    (h : DrainsImage c.work writeRectangle workers writtenAt writtenValue initial s) :
    c.Geocodes workers initial s := by
  have hwork {p : WorkerParams} (hp : p ∈ workers) := work_of_mem hetad hworkers hp
  refine ⟨fun i p hp => ?once, fun b k hout => ?outside, fun p hp b hb k hk => ?inside,
    fun hstopped hnone p hp b hb k hk => ?complete, h.drained, h.goesOn, h.afterwards⟩
  case once =>
    obtain ⟨values, hvalues, hprefix⟩ := h.once i p hp
    rw [hwork (List.mem_of_getElem? hp)] at hvalues
    rwa [Outcome.ok.inj hvalues]
  case outside =>
    refine h.outside (b, k) fun p hp values hvalues w hw hin => hout ?_
    rw [hwork hp] at hvalues
    rw [← Outcome.ok.inj hvalues] at hw
    obtain ⟨b', hb', rfl⟩ := List.mem_map.mp hw
    obtain rfl : b = b' := hin.1
    exact ⟨hb', (hworkers.inside p hp k hin.2).1⟩
  case inside =>
    have hvalue := h.inside p hp _ (hwork hp) _ (List.mem_map_of_mem hb) (b, k) ⟨rfl, hk⟩
    rwa [writtenValue_bandWrite hk] at hvalue
  case complete =>
    have hempty : s.exceptions = [] := by
      rw [rethrown] at hnone
      exact List.eq_nil_of_length_eq_zero (Nat.le_zero.mp (List.getElem?_eq_none_iff.mp hnone))
    have hvalue := h.complete hstopped hempty p hp _ (hwork hp) _ (List.mem_map_of_mem hb) (b, k)
      ⟨rfl, hk⟩
    rwa [writtenValue_bandWrite hk] at hvalue

theorem fits_floor_zero : Fits 32 ⌊(0 : ℚ)⌋ := by decide +kernel

theorem one_positive : 0 < (1 : Int) ∧ (1 : Int) < 2147483648 := by decide

/-- Every pixel lies on the first sample of the slave. -/
def onFirstSample : SlavePositions ℚ where
  interpolated _ _ := some (0, 0)
  masked _ _ := false
  x_fits _ _ _ h := Option.some.inj h ▸ fits_floor_zero
  y_fits _ _ _ h := Option.some.inj h ▸ fits_floor_zero

/-- One pixel, on the only sample of the slave. -/
def oneController : PreparedController ℚ where
  numOfBursts := ⟨1, one_positive⟩
  linesPerBurst := ⟨1, one_positive⟩
  samplesPerBurst := ⟨1, one_positive⟩
  slaveBurstOffset := 0
  masterInputDataset _ := (3, 4)
  positions _ _ := onFirstSample
  slaveSwath := oneSample
  demod _ := fives
  sincos := cosOne
  disableReramp := false
  etadCorrection := none

end Threads

end PreparedController

end Alus.Backgeocoding
