import Mathlib.Algebra.Order.Archimedean.Basic
import Alus.Calibrate.CalibrationFactor
import Alus.Lib.Numerals
import Alus.Util.InPlaceTiles

/-!
# Calibration of a band

`Sentinel1Calibrator::SetTargetImages` (`sentinel1-calibrate`): up to three threads take tiles from
the queue, each with a stream, a buffer and an arena of its own. The kernels set up the parameters
of the lines of a tile, select the table, and replace each element of the tile by its calibrated
value. An element that is the floor value of thermal noise removal is doubled until its value passes
a threshold.
-/

namespace Alus.Calibrate

open Alus.Lib Alus.Mathutils Alus.Util

variable {T : Type} [Field T] [LinearOrder T] {cal : CalType}

/-! ## The kernels -/

/-- The four bytes of an element. -/
inductive ComplexIntensityData (T : Type) where
  | iq16 (i q : Int)
  | float32 (value : T)

/-- The result in an element. -/
def ComplexIntensityData.result? : ComplexIntensityData T → Option T
  | .iq16 _ _ => none
  | .float32 value => some value

/-- The band of the source, whose type is one of two. -/
inductive SourceBand (T : Type) where
  | cInt16 (pixel : RasterBand (Int × Int))
  | float32 (pixel : RasterBand T)

def SourceBand.read : SourceBand T → RasterBand (ComplexIntensityData T)
  | .cInt16 pixel => fun k => .iq16 (pixel k).1 (pixel k).2
  | .float32 pixel => fun k => .float32 (pixel k)

/-- The digital number of a pixel, as the kernels take it. -/
def SourceBand.dn : SourceBand T → RasterBand T
  | .cInt16 pixel => fun k => ((pixel k).1 * (pixel k).1 : T) + (pixel k).2 * (pixel k).2
  | .float32 pixel => pixel

/-- `THERMAL_NOISE_TRG_FLOOR_VALUE`, of the type `float`. -/
def thermalNoiseTrgFloorValue : T := ((10995116 : Nat) : T) / ((1099511627776 : Nat) : T)

/-- `CALIBRATION_VALUE_THRESHOLD`, of the type `double`. -/
def calibrationValueThreshold : T :=
  ((5902958103587057 : Nat) : T) / ((590295810358705651712 : Nat) : T)

/-- The `while` loop of `AdjustDnImpl`, for this many rounds at most. -/
def doubleDn (calibrationFactor : T) : Nat → T → T → Option T
  | 0, _, calibrationValue =>
    if calibrationValue < calibrationValueThreshold then none else some calibrationValue
  | rounds + 1, dn, calibrationValue =>
    if calibrationValue < calibrationValueThreshold then
      doubleDn calibrationFactor rounds (dn * 2) (dn * 2 * calibrationFactor)
    else
      some calibrationValue

def adjustDn (rounds : Nat) (dn calibrationValue calibrationFactor : T) : Option T :=
  if dn = thermalNoiseTrgFloorValue then doubleDn calibrationFactor rounds dn calibrationValue
  else some calibrationValue

/-- `CalibrationLineParameters`, with the table that its two pointers have been set to. -/
structure TileLine (T : Type) [Field T] [LinearOrder T] where
  parameters : CalibrationLineParameters T
  lut : CalType

/-- A calibration of the source `band` with tables of one type. -/
structure Sentinel1Calibrator (T : Type) [Field T] [LinearOrder T] (cal : CalType) where
  raster : TiledRaster
  calibrationInfo : CalibrationInfo T cal
  subsetOffsetY : Int
  band : SourceBand T
  order : LaunchOrder

namespace Sentinel1Calibrator

variable (c : Sentinel1Calibrator T cal) (rounds : Nat)

/-- The parameters of a line, with a table. -/
def tileLine (lut : CalType) (y : Int) : Option (TileLine T) :=
  (toOption (setupTileLine c.calibrationInfo c.subsetOffsetY y)).map fun parameters =>
    ⟨parameters, lut⟩

/-- `SetupTileLinesKernel`. The pointers to the tables are not set yet. -/
def setupTileLinesKernel (window : Rectangle) (lines : List (Option (TileLine T))) :
    Option (List (Option (TileLine T))) :=
  launchInPlace (fun y => (y - window.y).toNat) (fun y _ => (c.tileLine .none y).map some)
    (c.order.lines window) lines

/-- `PopulateLUTs`, for the type of the calibration; the tables of the data type `NONE` are none. -/
def populateLUTs (cal : CalType) (lines : List (Option (TileLine T))) :
    Option (List (Option (TileLine T))) :=
  lines.mapM fun line => line.map fun line => some { line with lut := cal }

/-- `CalculateComplexToFloatCalImpl` and `CalculateFloatToFloatCalImpl`, which differ in how they
read the element. -/
def calculateCalImpl (window : Rectangle) (lines : List (Option (TileLine T))) (k : Int × Int)
    (dn : T) : Option (ComplexIntensityData T) := do
  let line ← lines[(k.2 - window.y).toNat]?.join
  let calibrationFactor ← toOption (calculateCalibrationFactor line.lut k.1 line.parameters)
  let value ← adjustDn rounds dn (dn * calibrationFactor) calibrationFactor
  return .float32 value

/-- An element is read as the type of the band has it. -/
def readElement : ComplexIntensityData T → Option T :=
  match c.band with
  | .cInt16 _ => fun
    | .iq16 i q => some ((i * i : T) + q * q)
    | .float32 _ => none
  | .float32 _ => fun
    | .iq16 _ _ => none
    | .float32 value => some value

def calculateCalKernel (window : Rectangle) (lines : List (Option (TileLine T)))
    (pixels : List (Option (ComplexIntensityData T))) :
    Option (List (Option (ComplexIntensityData T))) :=
  launchInPlace (pixelIndex window)
    (fun k element => do
      let dn ← c.readElement (← element)
      let value ← calculateCalImpl rounds window lines k dn
      return some value)
    (c.order.pixels window) pixels

/-! ## The threads -/

/-- `ThreadData`, with the parameters of the lines on the device. -/
abbrev ThreadData (T : Type) [Field T] [LinearOrder T] :=
  TileContext (ComplexIntensityData T) (List (Option (TileLine T)))

/-- `sizeof(CalibrationLineParameters)`: six pointers and two numbers. -/
def sizeOfLineParameters : Nat := 64

/-- The parameters of the lines of a tile are set up, in an array of the arena. -/
def setupLines (window : Rectangle) : List (HostInstr (ThreadData T) (TileData T)) :=
  [.host (TileContext.allocDevice sizeOfLineParameters window.height.toNat
      (List.replicate window.height.toNat none)),
    .enqueue (TileContext.prepareDevice (c.setupTileLinesKernel window)),
    .enqueue (TileContext.prepareDevice (populateLUTs cal))]

/-- `ComputeCalTile`. -/
def computeCalTile (window : Rectangle) : List (HostInstr (ThreadData T) (TileData T)) :=
  TileContext.loadTile c.band.read window ++ (c.setupLines window ++
    TileContext.storeTile (c.calculateCalKernel rounds window) ComplexIntensityData.result? window)

/-- The bytes that `InitThreadContext` reserves: a twentieth more than the arrays of a tile. -/
def devMemBytes : Nat :=
  let bytes := 4 * (c.raster.tileWidth * c.raster.tileHeight).toNat +
    sizeOfLineParameters * c.raster.tileHeight.toNat
  bytes + bytes / 20

/-- `n_threads`. -/
def nThreads (tiles : List Rectangle) : Nat := if 0 < tiles.length / 3 then 3 else 1

/-- The threads over the tiles of a band, each with its buffer and its arena. -/
def setTargetImages (tiles : List Rectangle) :
    System (WorkersState Rectangle (Fin (nThreads tiles)) (ThreadData T) (TileData T)) :=
  workers (Fin (nThreads tiles)) (c.computeCalTile rounds)
    (TileContext.Ready (c.raster.tileWidth * c.raster.tileHeight).toNat c.devMemBytes) tiles

/-! ## What calibration is for -/

/-- The factor of a pixel. -/
def factorAt (k : Int × Int) : Option T := do
  let parameters ← toOption (setupTileLine c.calibrationInfo c.subsetOffsetY k.2)
  toOption (calculateCalibrationFactor cal k.1 parameters)

/-- The calibrated value of a pixel. -/
def calibratedAt (k : Int × Int) : Option T := do
  let factor ← c.factorAt k
  adjustDn rounds (c.band.dn k) (c.band.dn k * factor) factor

/-- What the calibrated value of a digital number is: their product, but the floor value is doubled
as often as it takes to pass the threshold. -/
def IsCalibrated (dn factor value : T) : Prop :=
  (dn ≠ thermalNoiseTrgFloorValue → value = dn * factor) ∧
    (dn = thermalNoiseTrgFloorValue → ∃ doublings : Nat, value = dn * 2 ^ doublings * factor ∧
      calibrationValueThreshold ≤ value ∧
      ∀ i < doublings, dn * 2 ^ i * factor < calibrationValueThreshold)

/-! ## The loop -/

/-- The loop ends with the first doubling that passes the threshold. -/
theorem doubleDn_eq {factor : T} {doublings rounds : Nat} {dn : T}
    (hpasses : calibrationValueThreshold ≤ dn * 2 ^ doublings * factor)
    (hbefore : ∀ i < doublings, dn * 2 ^ i * factor < calibrationValueThreshold)
    (hrounds : doublings ≤ rounds) :
    doubleDn factor rounds dn (dn * factor) = some (dn * 2 ^ doublings * factor) := by
  induction doublings generalizing dn rounds with
  | zero =>
    rw [pow_zero, mul_one] at hpasses ⊢
    cases rounds with
    | zero => rw [doubleDn, if_neg hpasses.not_gt]
    | succ rounds => rw [doubleDn, if_neg hpasses.not_gt]
  | succ doublings ih =>
    obtain ⟨rounds, rfl⟩ := Nat.exists_eq_succ_of_ne_zero (by omega : rounds ≠ 0)
    have hfirst := hbefore 0 (Nat.succ_pos doublings)
    rw [pow_zero, mul_one] at hfirst
    have hstep (i : Nat) : dn * 2 ^ (i + 1) = dn * 2 * 2 ^ i := by
      rw [pow_succ']
      ring
    rw [hstep] at hpasses ⊢
    rw [doubleDn, if_pos hfirst]
    refine ih hpasses (fun i hi => ?_) (by omega)
    rw [← hstep]
    exact hbefore (i + 1) (by omega)

section Adjust

variable [IsStrictOrderedRing T] [Archimedean T]

omit [Archimedean T] in
theorem thermalNoiseTrgFloorValue_pos : (0 : T) < thermalNoiseTrgFloorValue :=
  div_pos (Nat.cast_pos.mpr (by decide)) (Nat.cast_pos.mpr (by decide))

/-- Every digital number is calibrated, with enough rounds for the loop. -/
theorem exists_adjustDn (dn : T) {factor : T} (hfactor : 0 < factor) :
    ∃ enough value, IsCalibrated dn factor value ∧
      ∀ rounds ≥ enough, adjustDn rounds dn (dn * factor) factor = some value := by
  by_cases hfloor : dn = thermalNoiseTrgFloorValue
  · have hpos : 0 < dn * factor := mul_pos (hfloor ▸ thermalNoiseTrgFloorValue_pos) hfactor
    have hpasses : ∃ n : Nat, calibrationValueThreshold ≤ dn * 2 ^ n * factor := by
      obtain ⟨n, hn⟩ := pow_unbounded_of_one_lt (calibrationValueThreshold / (dn * factor))
        (one_lt_two (α := T))
      refine ⟨n, ?_⟩
      rw [div_lt_iff₀ hpos] at hn
      rw [mul_right_comm, mul_comm (dn * factor)]
      exact hn.le
    classical
    have hbefore (i : Nat) (hi : i < Nat.find hpasses) :
        dn * 2 ^ i * factor < calibrationValueThreshold := lt_of_not_ge (Nat.find_min hpasses hi)
    refine ⟨Nat.find hpasses, dn * 2 ^ Nat.find hpasses * factor,
      ⟨fun hne => absurd hfloor hne, fun _ => ⟨_, rfl, Nat.find_spec hpasses, hbefore⟩⟩,
      fun rounds hrounds => ?_⟩
    rw [adjustDn, if_pos hfloor]
    exact doubleDn_eq (Nat.find_spec hpasses) hbefore hrounds
  · exact ⟨0, dn * factor, ⟨fun _ => rfl, fun h => absurd h hfloor⟩,
      fun rounds _ => if_neg hfloor⟩

end Adjust

/-! ## The kernels of a tile -/

variable {c : Sentinel1Calibrator T cal} {rounds : Nat} {window : Rectangle}

/-- The parameters of the lines of a tile. -/
def linesOf (c : Sentinel1Calibrator T cal) (window : Rectangle) (lut : CalType) :
    List (Option (TileLine T)) :=
  (List.range window.height.toNat).map fun (i : Nat) => c.tileLine lut (window.y + i)

theorem setupTileLinesKernel_eq
    (hlines : ∀ y, window.y ≤ y → y < window.y + window.height →
      ∃ parameters, setupTileLine c.calibrationInfo c.subsetOffsetY y = .ok parameters) :
    c.setupTileLinesKernel window (List.replicate window.height.toNat none) =
      some (c.linesOf window .none) := by
  have hnodup : ((c.order.lines window).map fun y => (y - window.y).toNat).Nodup := by
    refine List.Nodup.map_on (fun y hy y' hy' heq => ?_) ?_
    · have hrange := c.order.mem_lines.mp hy
      have hrange' := c.order.mem_lines.mp hy'
      omega
    · exact (c.order.lines_perm window).nodup_iff.mpr (nodup_intRange _ _)
  have hcells : ∀ y ∈ c.order.lines window,
      ∃ cell : Option (TileLine T),
        (List.replicate window.height.toNat none)[(y - window.y).toNat]? = some cell ∧
        (c.tileLine .none y).map some = some (c.tileLine .none y) := by
    intro y hy
    obtain ⟨hfirst, hlast⟩ := c.order.mem_lines.mp hy
    obtain ⟨parameters, hparameters⟩ := hlines y hfirst hlast
    refine ⟨none, ?_, by simp [tileLine, hparameters]⟩
    rw [List.getElem?_replicate, if_pos (by omega)]
  obtain ⟨m, hm, hlength, hvalue, -⟩ := launchInPlace_eq
    (f := fun y (_ : Option (TileLine T)) => (c.tileLine .none y).map some) _ hnodup hcells
  rw [List.length_replicate] at hlength
  rw [setupTileLinesKernel, hm, linesOf]
  refine congrArg some (List.ext_getElem? fun i => ?_)
  rcases Nat.lt_or_ge i window.height.toNat with hlt | hge
  · have hcell := hvalue (window.y + i) (c.order.mem_lines.mpr (by omega))
    rw [show (window.y + (i : Int) - window.y).toNat = i by omega] at hcell
    rw [hcell, List.getElem?_map, List.getElem?_range hlt, Option.map_some]
  · rw [List.getElem?_eq_none (by omega), List.getElem?_eq_none (by simpa using hge)]

theorem populateLUTs_eq
    (hlines : ∀ y, window.y ≤ y → y < window.y + window.height →
      ∃ parameters, setupTileLine c.calibrationInfo c.subsetOffsetY y = .ok parameters) :
    populateLUTs cal (c.linesOf window .none) = some (c.linesOf window cal) := by
  have hall : ∀ l : List Nat, (∀ i ∈ l, i < window.height.toNat) →
      populateLUTs cal (l.map fun (i : Nat) => c.tileLine .none (window.y + i)) =
        some (l.map fun (i : Nat) => c.tileLine cal (window.y + i)) := by
    intro l hl
    induction l with
    | nil => rfl
    | cons i l ih =>
      have hi := hl i List.mem_cons_self
      obtain ⟨parameters, hparameters⟩ := hlines (window.y + i) (by omega) (by omega)
      have hrest := ih fun j hj => hl j (List.mem_cons_of_mem i hj)
      rw [populateLUTs] at hrest
      rw [List.map_cons, populateLUTs, List.mapM_cons, hrest, List.map_cons]
      simp [tileLine, hparameters]
  exact hall _ fun i hi => List.mem_range.mp hi

/-- In the lines of a tile a thread finds the parameters of its own line. -/
theorem calculateCalImpl_eq {k : Int × Int} (hin : window.Contains k.1 k.2) {value : T}
    (hvalue : c.calibratedAt rounds k = some value) :
    calculateCalImpl rounds window (c.linesOf window cal) k (c.band.dn k) =
      some (.float32 value) := by
  obtain ⟨-, -, hfirst, hlast⟩ := hin
  obtain ⟨factor, hfactorAt, hvalue⟩ := Option.bind_eq_some_iff.mp hvalue
  obtain ⟨parameters, hparameters, hfactor⟩ := Option.bind_eq_some_iff.mp hfactorAt
  have hline : (c.linesOf window cal)[(k.2 - window.y).toNat]?.join = some ⟨parameters, cal⟩ := by
    rw [linesOf, List.getElem?_map, List.getElem?_range (by omega), Option.map_some,
      Option.join_some, show window.y + ((k.2 - window.y).toNat : Int) = k.2 by omega, tileLine,
      hparameters]
    rfl
  refine Option.bind_eq_some_iff.mpr ⟨_, hline, ?_⟩
  refine Option.bind_eq_some_iff.mpr ⟨factor, hfactor, ?_⟩
  exact Option.bind_eq_some_iff.mpr ⟨value, hvalue, rfl⟩

/-- An element as it was read gives the digital number of its pixel. -/
theorem readElement_read (k : Int × Int) :
    c.readElement (c.band.read k) = some (c.band.dn k) := by
  unfold readElement SourceBand.read SourceBand.dn
  cases c.band <;> rfl

/-- The elements of a tile become their calibrated values. -/
theorem calculateCalKernel_eq {value : RasterBand T}
    (hvalue : ∀ k : Int × Int, window.Contains k.1 k.2 → c.calibratedAt rounds k = some (value k)) :
    c.calculateCalKernel rounds window (c.linesOf window cal)
        ((rasterRead c.band.read window).map some) =
      some ((rasterRead (fun k => .float32 (value k)) window).map some) := by
  refine c.order.launchInPlace_pixels fun k hk => ?_
  simp [readElement_read, calculateCalImpl_eq hk (hvalue k hk)]

/-! ## A tile -/

/-- The pixels of a tile have calibrated values. -/
def HasValues (c : Sentinel1Calibrator T cal) (rounds : Nat) (window : Rectangle) : Prop :=
  ∀ k : Int × Int, window.Contains k.1 k.2 → ∃ value, c.calibratedAt rounds k = some value

/-- The lines of a tile with values can be set up. -/
theorem HasValues.lines (h : c.HasValues rounds window) (hwidth : 0 < window.width) (y : Int)
    (hfirst : window.y ≤ y) (hlast : y < window.y + window.height) :
    ∃ parameters, setupTileLine c.calibrationInfo c.subsetOffsetY y = .ok parameters := by
  obtain ⟨value, hvalue⟩ := h (window.x, y) ⟨le_rfl, by omega, hfirst, hlast⟩
  obtain ⟨factor, hfactorAt, -⟩ := Option.bind_eq_some_iff.mp hvalue
  obtain ⟨parameters, hparameters, -⟩ := Option.bind_eq_some_iff.mp hfactorAt
  refine ⟨parameters, ?_⟩
  cases hsetup : setupTileLine c.calibrationInfo c.subsetOffsetY y <;>
    simp_all [toOption]

/-- The two arrays of a tile fit into the arena. -/
structure FitsArena (c : Sentinel1Calibrator T cal) : Prop where
  product : c.raster.tileWidth * c.raster.tileHeight < 2147483648
  padding : 2540 ≤ 4 * (c.raster.tileWidth * c.raster.tileHeight) + 64 * c.raster.tileHeight

/-- The two arrays of a tile. -/
theorem FitsArena.sizes (h : c.FitsArena)
    (hwindow : window ∈ ThermalNoise.calculateTiles c.raster.tileWidth c.raster.tileHeight
      c.raster.width c.raster.height) :
    (pixelCount window < 2 ^ 31 ∧ window.height.toNat < 2 ^ 31) ∧
      4 * pixelCount window ≤ c.devMemBytes ∧
      64 * window.height.toNat + alignUp 128 (4 * pixelCount window) ≤ c.devMemBytes ∧
      64 * window.height.toNat + alignUp 128 (4 * pixelCount window) + 128 ≤ 2 ^ 64 := by
  obtain ⟨hproduct, hpadding⟩ := h
  have hcount := pixelCount_le hwindow
  have hsizes := tile_sizes hwindow
  have hheight := hsizes.2.2
  have hend := fits32_iff.mp c.raster.rows.end_fits
  have hquotient : 0 ≤ c.raster.height / c.raster.tileHeight * c.raster.tileHeight :=
    Int.mul_nonneg (Int.ediv_nonneg (by have := c.raster.rows.limit_pos; omega)
      (by have := c.raster.rows.size_pos; omega)) (by have := c.raster.rows.size_pos; omega)
  have hbytes : c.devMemBytes = 4 * (c.raster.tileWidth * c.raster.tileHeight).toNat +
      64 * c.raster.tileHeight.toNat + (4 * (c.raster.tileWidth * c.raster.tileHeight).toNat +
        64 * c.raster.tileHeight.toNat) / 20 := rfl
  have hround : alignUp 128 (4 * pixelCount window) ≤ 4 * pixelCount window + 127 := by
    unfold alignUp
    split <;> omega
  generalize c.raster.tileWidth * c.raster.tileHeight = product at hproduct hpadding hcount hbytes
  omega

/-- The parameters of the lines come behind the elements. -/
theorem lines_triple (data : List (ComplexIntensityData T)) (size : Nat) {maxBytes used : Nat}
    (hlines : ∀ y, window.y ≤ y → y < window.y + window.height →
      ∃ parameters, setupTileLine c.calibrationInfo c.subsetOffsetY y = .ok parameters)
    (hheight : window.height.toNat < 2 ^ 31) (hfits : 64 * window.height.toNat + used ≤ maxBytes)
    (hlimit : 64 * window.height.toNat + used + 128 ≤ 2 ^ 64) :
    HostTriple (fun ctx : ThreadData T => TileContext.Loaded size maxBytes data ctx ∧
        ctx.devMemArena.usedByteSize.toNat = used ∧ True)
      (c.setupLines window) [] fun ctx =>
        TileContext.Loaded size maxBytes data ctx ∧ ctx.device = c.linesOf window cal := by
  rintro ctx ⟨hloaded, hused, -⟩
  obtain ⟨used', htaken, -⟩ := TileContext.takeArray_eq ctx.devMemArena
    sizeOfLineParameters window.height.toNat (by decide) hheight
    (by rw [hused, hloaded.reserved]; exact hfits) (by rw [hused]; exact hlimit)
  refine ⟨{ ctx with
      devMemArena := { ctx.devMemArena with usedByteSize := used' }
      device := c.linesOf window cal },
    ⟨⟨hloaded.buffer, hloaded.reserved, hloaded.pixels⟩, rfl⟩, ?_⟩
  simp only [setupLines, runSequential, TileContext.allocDevice, htaken,
    TileContext.prepareDevice, setupTileLinesKernel_eq hlines, populateLUTs_eq hlines,
    Option.bind_eq_bind, Option.bind_some, Option.pure_def]

theorem computeCalTile_triple (harena : c.FitsArena)
    (hwindow : window ∈ ThermalNoise.calculateTiles c.raster.tileWidth c.raster.tileHeight
      c.raster.width c.raster.height) (hvalues : c.HasValues rounds window) :
    HostTriple
      (TileContext.Ready (c.raster.tileWidth * c.raster.tileHeight).toNat c.devMemBytes)
      (c.computeCalTile rounds window)
      [(window, rasterRead (c.calibratedAt rounds) window)]
      (TileContext.Ready (c.raster.tileWidth * c.raster.tileHeight).toNat c.devMemBytes) := by
  have hcount := pixelCount_le hwindow
  obtain ⟨⟨hpixels, hheight⟩, hfits, hfits', hlimit⟩ := harena.sizes hwindow
  obtain ⟨value, hvalue⟩ := exists_values hvalues
  have hload := TileContext.loadTile_triple (F := T) (Q := fun _ : List (Option (TileLine T)) =>
    True) c.band.read hpixels hcount hfits
  have hlines := lines_triple (rasterRead c.band.read window)
    (c.raster.tileWidth * c.raster.tileHeight).toNat
    (hvalues.lines (tile_sizes hwindow).1.1) hheight hfits' hlimit
  have hstore := TileContext.storeTile_triple c.devMemBytes
    (Q := fun ctx : ThreadData T => ctx.device = c.linesOf window cal)
    (c.calculateCalKernel rounds window) ComplexIntensityData.result?
    (rasterRead c.band.read window) (rasterRead (fun k => .float32 (value k)) window) hcount
    (length_rasterRead _ window)
    fun ctx hdevice => by rw [hdevice]; exact calculateCalKernel_eq hvalue
  have hresult : (rasterRead (fun k => (.float32 (value k) : ComplexIntensityData T)) window).map
      ComplexIntensityData.result? = rasterRead (c.calibratedAt rounds) window :=
    map_rasterRead fun k hk => (hvalue k hk).symm
  rw [hresult] at hstore
  exact fun ctx hready => (hload.append (hlines.append hstore)) ctx ⟨hready, trivial⟩

/-- What the host does while the elements are on their way to the device does not touch them. -/
theorem disciplined_computeCalTile (window : Rectangle) :
    Disciplined [] (c.computeCalTile rounds window) := by
  simp [computeCalTile, TileContext.loadTile, setupLines, TileContext.storeTile, Disciplined,
    TileContext.commutes_allocDevice]

/-! ## The band -/

/-- A pixel of the band. -/
def InBand (c : Sentinel1Calibrator T cal) (k : Int × Int) : Prop :=
  (0 ≤ k.1 ∧ k.1 < c.raster.width) ∧ 0 ≤ k.2 ∧ k.2 < c.raster.height

/-- The table covers the band, and does not vanish anywhere. -/
structure TableCovers (c : Sentinel1Calibrator T cal) : Prop where
  covered : ∀ k, c.InBand k → Covered c.calibrationInfo c.subsetOffsetY k.2 k.1
  nonzero : ∀ k, c.InBand k → c.factorAt k ≠ some 0

section Band

variable [IsStrictOrderedRing T]

theorem TableCovers.exists_factor (h : c.TableCovers) {k : Int × Int} (hk : c.InBand k) :
    ∃ factor, c.factorAt k = some factor ∧ 0 < factor := by
  obtain ⟨parameters, vector, i, a, b, hsetup, -, -, -, -, hfactor⟩ :=
    blends_of_covered (h.covered k hk)
  have hfactorAt : c.factorAt k = toOption (calculateCalibrationFactor cal k.1 parameters) := by
    rw [factorAt, hsetup, toOption_ok, Option.bind_eq_bind, Option.bind_some]
  rw [hfactor, toOption_ok] at hfactorAt
  refine ⟨_, hfactorAt, lt_of_le_of_ne (one_div_nonneg.mpr (sq_nonneg _)) fun hzero => ?_⟩
  exact h.nonzero k hk (hfactorAt.trans (congrArg some hzero.symm))

variable [Archimedean T]

/-- The loops of all pixels end. -/
theorem TableCovers.exists_rounds (h : c.TableCovers) :
    ∃ enough, ∀ rounds ≥ enough, ∀ k, c.InBand k → ∃ factor value, c.factorAt k = some factor ∧
      c.calibratedAt rounds k = some value ∧ IsCalibrated (c.band.dn k) factor value := by
  have hpixel : ∀ k, ∃ enough, c.InBand k → ∃ factor value, c.factorAt k = some factor ∧
      IsCalibrated (c.band.dn k) factor value ∧
      ∀ rounds ≥ enough, c.calibratedAt rounds k = some value := by
    intro k
    by_cases hk : c.InBand k
    · obtain ⟨factor, hfactor, hpos⟩ := h.exists_factor hk
      obtain ⟨enough, value, hvalue, hadjust⟩ := exists_adjustDn (c.band.dn k) hpos
      refine ⟨enough, fun _ => ⟨factor, value, hfactor, hvalue, fun rounds hrounds => ?_⟩⟩
      rw [calibratedAt, hfactor]
      exact hadjust rounds hrounds
    · exact ⟨0, fun hin => absurd hin hk⟩
  choose enough henough using hpixel
  refine ⟨((pixels c.raster.width c.raster.height).map enough).sum, fun rounds hrounds k hk => ?_⟩
  obtain ⟨factor, value, hfactor, hvalue, hrun⟩ := henough k hk
  have hle := List.le_sum_of_mem (List.mem_map_of_mem (f := enough) (mem_pixels.mpr hk))
  exact ⟨factor, value, hfactor, hrun rounds (hle.trans hrounds), hvalue⟩

theorem tiledRange_one : TiledRange 1 25 := ⟨by decide, by decide, by decide⟩

/-- One pixel, at the first line of the table. -/
def onePixel : Sentinel1Calibrator ℚ .sigma0 where
  raster := ⟨1, 1, 25, 25, tiledRange_one, tiledRange_one⟩
  calibrationInfo := twoVectors
  subsetOffsetY := 0
  band := .cInt16 fun _ => (3, 4)
  order := .inOrder

theorem tableCovers_onePixel : onePixel.TableCovers := by
  have hone : ∀ k, onePixel.InBand k → k = (0, 0) := by
    rintro ⟨x, y⟩ hk
    simp only [InBand, onePixel] at hk
    rw [Prod.mk.injEq]
    omega
  refine ⟨fun k hk => ?covered, fun k hk => ?nonzero⟩
  case covered =>
    rw [hone k hk]
    refine ⟨⟨0, by decide, by decide⟩, ⟨10, by decide, by decide⟩, ⟨0, by decide, by decide⟩,
      fun i a b hsegment => ?_⟩
    -- the list has two pixels
    obtain ⟨hi, -⟩ := List.getElem?_eq_some_iff.mp hsegment.1.2
    obtain rfl : i = 0 := by
      change i + 1 < 2 at hi
      omega
    obtain rfl := Option.some.inj hsegment.1.1
    obtain rfl := Option.some.inj hsegment.1.2
    decide
  case nonzero =>
    have hfactor : onePixel.factorAt (0, 0) = some 1 := by decide +kernel
    rw [hone k hk, hfactor]
    decide

end Band

end Sentinel1Calibrator

end Alus.Calibrate
