import Mathlib.Algebra.Field.Rat
import Mathlib.Data.List.Basic
import Mathlib.Data.List.ProdSigma
import Mathlib.Logic.Function.Basic
import Alus.Lib.Launch

/-!
# Slave pixel positions

`SlavePixPos` (`backgeocoding/src/slave_pixpos.cu`) runs one thread for each cell of the DEM
grid. The thread computes the geo position of its cell and its elevation, then the position of
the point in the master and in the slave burst (`GetPosition`), and writes six arrays that
`ComputeSlavePixPos` has allocated without initialising them. Triangulation then drops the
cells whose master entries are `INVALID_INDEX` and reads the other arrays at the rest.

Numbers are an arbitrary type `D` with the operations the code uses. The geometry behind
`GetPosition` (`GetZeroDopplerTime`, `ComputeSlantRangeImpl`, `Geo2xyzWgs84Impl`), the DEM
look-up and the EGM96 model are parameters: no result depends on what they compute.
-/

namespace Alus.Backgeocoding

open Alus.Lib

/-! ## Data -/

/-- `dem::Type`. -/
inductive DemType where
  | srtm3
  | copdemCog30m
  deriving DecidableEq, Repr

/-- The fields of `dem::Property` the kernel reads. -/
structure DemProperty (D : Type*) where
  gridTotalHeightPixels : Int
  noDataValue : D
  tilePixelSizeDegX : D
  tilePixelSizeDegY : D
  gridMaxLat : D
  gridMaxLon : D

/-- The fields of `DeviceSubswathInfo` that `GetPosition` reads. -/
structure SubswathInfo (D : Type*) where
  linesPerBurst : Int
  burstFirstLineTime : Int → D
  azimuthTimeInterval : D
  slrTimeToFirstPixel : D

/-- The fields of `DeviceSentinel1Utils` that `GetPosition` reads. -/
structure Sentinel1Utils (D : Type*) where
  lineTimeInterval : D
  wavelength : D
  rangeSpacing : D
  sourceImageWidth : Int
  srgrFlag : Bool
  nearRangeOnLeft : Bool

/-- `PositionData`, less the fields nothing reads. -/
structure PositionData (P D : Type*) where
  earthPoint : P
  azimuthIndex : D
  rangeIndex : D

/-- The functions the kernel calls; `P` are earth points, `O` orbits with their state vectors. -/
structure Geometry (P O D : Type*) where
  getZeroDopplerTime : D → D → P → O → D
  computeSlantRange : D → O → P → D
  geo2xyzWgs84 : D → D → D → P
  getElevation : DemType → D → D → D
  getEgm96 : D → D → D
  isNan : D → Bool

/-- One image of the pair: its sub-swath, utilities, orbit and the burst in hand. -/
structure BurstImage (O D : Type*) where
  subswath : SubswathInfo D
  utils : Sentinel1Utils D
  orbit : O
  burstIndex : Int

/-- `SlavePixPosData`, less the output arrays. -/
structure SlavePixPosData (P O D : Type*) where
  numLines : Nat
  numPixels : Nat
  latMaxIdx : Int
  lonMinIdx : Int
  demProperty : DemProperty D
  demType : DemType
  demNoDataValue : D
  maskOutAreaWithoutElevation : Bool
  geometry : Geometry P O D
  master : BurstImage O D
  slave : BurstImage O D

/-- The six output arrays and the counter of cells with both positions. -/
structure PixPosArrays (D : Type*) where
  masterAz : Nat → D
  masterRg : Nat → D
  slaveAz : Nat → D
  slaveRg : Nat → D
  lats : Nat → D
  lons : Nat → D
  validIndexCounter : Nat

/-- The entries of the six arrays at one index. -/
structure PixPosEntry (D : Type*) where
  masterAz : D
  masterRg : D
  slaveAz : D
  slaveRg : D
  lat : D
  lon : D

def PixPosArrays.entry {D : Type*} (m : PixPosArrays D) (k : Nat) : PixPosEntry D where
  masterAz := m.masterAz k
  masterRg := m.masterRg k
  slaveAz := m.slaveAz k
  slaveRg := m.slaveRg k
  lat := m.lats k
  lon := m.lons k

/-! ## The grid -/

section Grid

variable {P O D : Type*} (data : SlavePixPosData P O D)

/-- The index of a cell in the arrays. -/
def SlavePixPosData.myIndex (cell : Nat × Nat) : Nat :=
  data.numPixels * cell.1 + cell.2

/-- The cell belongs to the grid; the other threads of the launch return at once. -/
def SlavePixPosData.InGrid (cell : Nat × Nat) : Prop :=
  cell.1 < data.numLines ∧ cell.2 < data.numPixels

instance (cell : Nat × Nat) : Decidable (data.InGrid cell) :=
  inferInstanceAs (Decidable (_ ∧ _))

/-- An order in which the threads of the launch may run: each cell of the grid once. -/
def SlavePixPosData.IsLaunch (order : List (Nat × Nat)) : Prop :=
  order.Nodup ∧ ∀ cell, data.InGrid cell → cell ∈ order

/-- Row by row is such an order. -/
theorem SlavePixPosData.isLaunch_product :
    data.IsLaunch (List.range data.numLines ×ˢ List.range data.numPixels) := by
  refine ⟨List.nodup_range.product List.nodup_range, fun cell hcell => ?_⟩
  exact List.mem_product.mpr ⟨List.mem_range.mpr hcell.1, List.mem_range.mpr hcell.2⟩

/-- Two cells of the grid do not share an index. -/
theorem SlavePixPosData.myIndex_injective {a b : Nat × Nat} (ha : data.InGrid a)
    (hb : data.InGrid b) (h : data.myIndex a = data.myIndex b) : a = b := by
  have hrow : ∀ c : Nat × Nat, data.InGrid c → data.myIndex c / data.numPixels = c.1 := by
    intro c hc
    have hpos : 0 < data.numPixels := Nat.lt_of_le_of_lt (Nat.zero_le _) hc.2
    rw [myIndex, Nat.mul_add_div hpos, Nat.div_eq_of_lt hc.2, Nat.add_zero]
  have hcol : ∀ c : Nat × Nat, data.InGrid c → data.myIndex c % data.numPixels = c.2 := by
    intro c hc
    rw [myIndex, Nat.mul_add_mod, Nat.mod_eq_of_lt hc.2]
  refine Prod.ext ?_ ?_
  · rw [← hrow a ha, ← hrow b hb, h]
  · rw [← hcol a ha, ← hcol b hb, h]

/-- Every index of the arrays belongs to a cell of the grid. -/
theorem SlavePixPosData.exists_cell {k : Nat} (hk : k < data.numLines * data.numPixels) :
    ∃ cell, data.InGrid cell ∧ data.myIndex cell = k := by
  have hpos : 0 < data.numPixels := Nat.pos_of_mul_pos_left (Nat.zero_lt_of_lt hk)
  refine ⟨(k / data.numPixels, k % data.numPixels), ⟨?_, Nat.mod_lt _ hpos⟩, Nat.div_add_mod _ _⟩
  exact (Nat.div_lt_iff_lt_mul hpos).mpr hk

end Grid

/-! ## The kernel -/

section Kernel

variable {P O D : Type*} [Add D] [Sub D] [Mul D] [Div D] [IntCast D] [DecidableEq D]

/-- `INVALID_INDEX`. -/
def invalidIndex : D := ((-9999 : Int) : D)

/-- `NON_VALID_ZERO_DOPPLER_TIME`. -/
def nonValidZeroDopplerTime : D := ((-99999 : Int) : D)

/-- `eo::constants::SECONDS_IN_DAY`. -/
def secondsInDay : D := ((86400 : Int) : D)

/-- `eo::constants::LIGHT_SPEED`. -/
def lightSpeed : D := ((299792458 : Int) : D)

/-- `GetPosition`: the position data it leaves and whether it succeeded. The range index of an
SRGR image is whatever the position data held before. -/
def getPosition (g : Geometry P O D) (image : BurstImage O D) (position : PositionData P D)
    (idx idy : Nat) : PositionData P D × Bool :=
  let zeroDopplerTimeInDays := g.getZeroDopplerTime image.utils.lineTimeInterval
    image.utils.wavelength position.earthPoint image.orbit
  if zeroDopplerTimeInDays = nonValidZeroDopplerTime then
    (position, false)
  else
    let zeroDopplerTime := zeroDopplerTimeInDays * secondsInDay
    let position := { position with
      azimuthIndex := ((image.burstIndex * image.subswath.linesPerBurst : Int) : D) +
        (zeroDopplerTime - image.subswath.burstFirstLineTime image.burstIndex) /
          image.subswath.azimuthTimeInterval }
    -- the test for NaN is made in one cell only
    if idx = 55 ∧ idy = 53 ∧ g.isNan zeroDopplerTime then
      (position, false)
    else
      let slantRange := g.computeSlantRange zeroDopplerTimeInDays image.orbit position.earthPoint
      let position :=
        if image.utils.srgrFlag then position
        else { position with
          rangeIndex := (slantRange - image.subswath.slrTimeToFirstPixel * lightSpeed) /
            image.utils.rangeSpacing }
      let position :=
        if image.utils.nearRangeOnLeft then position
        else { position with
          rangeIndex := ((image.utils.sourceImageWidth - 1 : Int) : D) - position.rangeIndex }
      (position, true)

variable (data : SlavePixPosData P O D)

def SlavePixPosData.geoPosLat (cell : Nat × Nat) : D :=
  ((data.demProperty.gridTotalHeightPixels - (data.latMaxIdx + cell.1) : Int) : D) *
    data.demProperty.tilePixelSizeDegY - data.demProperty.gridMaxLat

/-- The longitude of the cell. Both DEM types compute it the same way. -/
def SlavePixPosData.geoPosLon (cell : Nat × Nat) : D :=
  ((data.lonMinIdx + cell.2 : Int) : D) * data.demProperty.tilePixelSizeDegX -
    data.demProperty.gridMaxLon

/-- The elevation of the cell: the DEM, or EGM96 where the DEM has no data and areas without
elevation are not masked out. -/
def SlavePixPosData.alt (cell : Nat × Nat) : D :=
  let alt := data.geometry.getElevation data.demType (data.geoPosLat cell) (data.geoPosLon cell)
  if alt = data.demNoDataValue ∧ !data.maskOutAreaWithoutElevation then
    data.geometry.getEgm96 (data.geoPosLat cell) (data.geoPosLon cell)
  else
    alt

def SlavePixPosData.HasElevation (cell : Nat × Nat) : Prop :=
  data.alt cell ≠ data.demNoDataValue

instance (cell : Nat × Nat) : Decidable (data.HasElevation cell) :=
  inferInstanceAs (Decidable (_ ≠ _))

/-- What the first `GetPosition` of the cell, for the master, leaves and returns. -/
def SlavePixPosData.masterCall (cell : Nat × Nat) : PositionData P D × Bool :=
  let earthPoint := data.geometry.geo2xyzWgs84 (data.geoPosLat cell) (data.geoPosLon cell)
    (data.alt cell)
  getPosition data.geometry data.master ⟨earthPoint, ((0 : Int) : D), ((0 : Int) : D)⟩
    cell.1 cell.2

/-- The second call, for the slave: it starts from what the first one left. -/
def SlavePixPosData.slaveCall (cell : Nat × Nat) : PositionData P D × Bool :=
  getPosition data.geometry data.slave (data.masterCall cell).1 cell.1 cell.2

/-- `SlavePixPos`: the thread of one cell. -/
def slavePixPos (cell : Nat × Nat) (m : PixPosArrays D) : PixPosArrays D :=
  if ¬ data.InGrid cell then m
  else
    let k := data.myIndex cell
    let m := { m with
      lats := Function.update m.lats k (data.geoPosLat cell)
      lons := Function.update m.lons k (data.geoPosLon cell) }
    if data.HasElevation cell then
      if (data.masterCall cell).2 then
        let m := { m with
          masterAz := Function.update m.masterAz k (data.masterCall cell).1.azimuthIndex
          masterRg := Function.update m.masterRg k (data.masterCall cell).1.rangeIndex }
        if (data.slaveCall cell).2 then
          { m with
            slaveAz := Function.update m.slaveAz k (data.slaveCall cell).1.azimuthIndex
            slaveRg := Function.update m.slaveRg k (data.slaveCall cell).1.rangeIndex
            validIndexCounter := m.validIndexCounter + 1 }
        -- a failed position writes nothing at all
        else m
      else m
    else
      { m with
        masterAz := Function.update m.masterAz k invalidIndex
        masterRg := Function.update m.masterRg k invalidIndex }

/-- What the thread of the cell makes of the six entries at its index. -/
def SlavePixPosData.cellEntry (cell : Nat × Nat) (e : PixPosEntry D) : PixPosEntry D :=
  let e := { e with lat := data.geoPosLat cell, lon := data.geoPosLon cell }
  if data.HasElevation cell then
    if (data.masterCall cell).2 then
      let e := { e with
        masterAz := (data.masterCall cell).1.azimuthIndex
        masterRg := (data.masterCall cell).1.rangeIndex }
      if (data.slaveCall cell).2 then
        { e with
          slaveAz := (data.slaveCall cell).1.azimuthIndex
          slaveRg := (data.slaveCall cell).1.rangeIndex }
      else e
    else e
  else
    { e with masterAz := invalidIndex, masterRg := invalidIndex }

/-- Each thread of the grid works on its own index of the six arrays. -/
theorem slavePixPos_ownCell :
    OwnCell data.InGrid (slavePixPos data) PixPosArrays.entry data.myIndex data.cellEntry where
  own cell m hin := by
    unfold slavePixPos SlavePixPosData.cellEntry
    rw [if_neg (not_not.mpr hin)]
    by_cases helev : data.HasElevation cell
    · by_cases hm : (data.masterCall cell).2 = true
      · by_cases hs : (data.slaveCall cell).2 = true
        · simp [helev, hm, hs, PixPosArrays.entry]
        · simp [helev, hm, hs, PixPosArrays.entry]
      · simp [helev, hm, PixPosArrays.entry]
    · simp [helev, PixPosArrays.entry]
  other cell m k hk := by
    unfold slavePixPos
    by_cases hin : data.InGrid cell
    · rw [if_neg (not_not.mpr hin)]
      have hne := hk hin
      by_cases helev : data.HasElevation cell
      · by_cases hm : (data.masterCall cell).2 = true
        · by_cases hs : (data.slaveCall cell).2 = true
          · simp [helev, hm, hs, PixPosArrays.entry, hne]
          · simp [helev, hm, hs, PixPosArrays.entry, hne]
        · simp [helev, hm, PixPosArrays.entry, hne]
      · simp [helev, PixPosArrays.entry, hne]
    · rw [if_pos hin]

/-- After the launch the six entries of a cell are those its thread makes. -/
theorem entry_launch {order : List (Nat × Nat)} (horder : data.IsLaunch order)
    {cell : Nat × Nat} (hcell : data.InGrid cell) (m : PixPosArrays D) :
    (launch (slavePixPos data) order m).entry (data.myIndex cell) =
      data.cellEntry cell (m.entry (data.myIndex cell)) :=
  (slavePixPos_ownCell data).launch_addr horder.1 (horder.2 cell hcell) hcell
    (fun _ _ hj h => data.myIndex_injective hj hcell h) m

/-! ## What the later stages read -/

/-- The points `TriangulateCPU2` collects: those with both coordinates different from the
invalid index, scaled, with their index. -/
def triangulationPoints (xCoords : Nat → D) (xMultiplier : D) (yCoords : Nat → D)
    (yMultiplier : D) (size : Nat) (invalid : D) : List (D × D × Nat) :=
  (List.range size).filterMap fun i =>
    if xCoords i ≠ invalid ∧ yCoords i ≠ invalid then
      some (xCoords i * xMultiplier, yCoords i * yMultiplier, i)
    else none

/-- The call in `ComputeSlavePixPos`. -/
def SlavePixPosData.points (ratio : D) (m : PixPosArrays D) : List (D × D × Nat) :=
  triangulationPoints m.masterAz ((1 : Int) : D) m.masterRg ratio
    (data.numLines * data.numPixels) invalidIndex

/-- What the interpolation reads back at the points: slave positions, latitude and longitude. -/
def SlavePixPosData.readBack (ratio : D) (m : PixPosArrays D) : List (D × D × D × D) :=
  (data.points ratio m).map fun (_, _, i) => (m.slaveAz i, m.slaveRg i, m.lats i, m.lons i)

/-- What `ComputeSlavePixPos` hands to the triangulation and reads back for it; nothing when no
cell has both positions. -/
def SlavePixPosData.interpolationInput (ratio : D) (m : PixPosArrays D) :
    Option (List (D × D × Nat) × List (D × D × D × D)) :=
  if m.validIndexCounter = 0 then none else some (data.points ratio m, data.readBack ratio m)

/-! ## Results -/

/-- The master position of the cell, when `GetPosition` was called and found it. -/
def SlavePixPosData.masterPosition (cell : Nat × Nat) : Option (PositionData P D) :=
  if data.HasElevation cell ∧ (data.masterCall cell).2 then some (data.masterCall cell).1 else none

/-- The slave position of the cell, when `GetPosition` was called and found it. -/
def SlavePixPosData.slavePosition (cell : Nat × Nat) : Option (PositionData P D) :=
  if (data.masterPosition cell).isSome ∧ (data.slaveCall cell).2 then
    some (data.slaveCall cell).1
  else none

/-- The two cases a cell may be in after the kernel: dropped by the triangulation, or all four
entries computed by `GetPosition`. -/
def SlavePixPosData.Defined (cell : Nat × Nat) (e : PixPosEntry D) : Prop :=
  (e.masterAz = invalidIndex ∧ e.masterRg = invalidIndex) ∨
    ∃ master slave, data.masterPosition cell = some master ∧
      data.slavePosition cell = some slave ∧
      e.masterAz = master.azimuthIndex ∧ e.masterRg = master.rangeIndex ∧
      e.slaveAz = slave.azimuthIndex ∧ e.slaveRg = slave.rangeIndex

/-- No cell is left undefined, whatever the arrays held and in whatever order the threads ran,
and the triangulation and its results do not depend on what the arrays held. -/
def SlavePixPosData.NoUndefinedPosition (ratio : D) : Prop :=
  (∀ order, data.IsLaunch order → ∀ m : PixPosArrays D, m.validIndexCounter = 0 →
    ∀ cell, data.InGrid cell →
      data.Defined cell ((launch (slavePixPos data) order m).entry (data.myIndex cell))) ∧
  ∀ order, data.IsLaunch order → ∀ m m' : PixPosArrays D, m.validIndexCounter = 0 →
    m'.validIndexCounter = 0 →
      data.interpolationInput ratio (launch (slavePixPos data) order m) =
        data.interpolationInput ratio (launch (slavePixPos data) order m')

/-- Every cell with an elevation is found in the master, and in the slave unless its master
position is the invalid index itself. -/
def SlavePixPosData.PositionsFound : Prop :=
  ∀ cell, data.InGrid cell → data.HasElevation cell →
    (data.masterCall cell).2 ∧ ((data.slaveCall cell).2 ∨
      (data.masterCall cell).1.azimuthIndex = invalidIndex ∧
        (data.masterCall cell).1.rangeIndex = invalidIndex)

/-- The entries a thread makes are dropped, or do not depend on the entries it found. -/
theorem cellEntry_dropped_or_const {cell : Nat × Nat} (hin : data.InGrid cell)
    (h : data.PositionsFound) (e e' : PixPosEntry D) :
    (∀ e'', (data.cellEntry cell e'').masterAz = invalidIndex) ∨
      data.cellEntry cell e = data.cellEntry cell e' := by
  unfold SlavePixPosData.cellEntry
  by_cases helev : data.HasElevation cell
  · obtain ⟨hm, hs⟩ := h cell hin helev
    by_cases hslave : (data.slaveCall cell).2 = true
    · exact .inr (by simp [helev, hm, hslave])
    · obtain ⟨haz, -⟩ := hs.resolve_left hslave
      exact .inl fun e'' => by simp [helev, hm, hslave, haz]
  · exact .inl fun e'' => by simp [helev]

theorem cellEntry_defined {cell : Nat × Nat} (hin : data.InGrid cell) (h : data.PositionsFound)
    (e : PixPosEntry D) : data.Defined cell (data.cellEntry cell e) := by
  unfold SlavePixPosData.cellEntry
  by_cases helev : data.HasElevation cell
  · obtain ⟨hm, hs⟩ := h cell hin helev
    by_cases hslave : (data.slaveCall cell).2 = true
    · refine .inr ⟨(data.masterCall cell).1, (data.slaveCall cell).1, ?_, ?_, ?_⟩
      · simp [SlavePixPosData.masterPosition, helev, hm]
      · simp [SlavePixPosData.slavePosition, SlavePixPosData.masterPosition, helev, hm, hslave]
      · simp [helev, hm, hslave]
    · exact .inl (by simpa [helev, hm, hslave] using hs.resolve_left hslave)
  · exact .inl (by simp [helev])

/-- A thread adds one to the counter when it stored both positions. -/
theorem slavePixPos_counter (cell : Nat × Nat) (m : PixPosArrays D) :
    (slavePixPos data cell m).validIndexCounter = m.validIndexCounter +
      if data.InGrid cell ∧ (data.slavePosition cell).isSome then 1 else 0 := by
  unfold slavePixPos
  by_cases hin : data.InGrid cell <;> by_cases helev : data.HasElevation cell <;>
    by_cases hm : (data.masterCall cell).2 = true <;>
    by_cases hs : (data.slaveCall cell).2 = true <;>
    simp [hin, helev, hm, hs, SlavePixPosData.slavePosition, SlavePixPosData.masterPosition]

/-- The counter after the launch does not depend on the arrays. -/
theorem launch_counter (order : List (Nat × Nat)) {m m' : PixPosArrays D}
    (h : m.validIndexCounter = m'.validIndexCounter) :
    (launch (slavePixPos data) order m).validIndexCounter =
      (launch (slavePixPos data) order m').validIndexCounter := by
  induction order generalizing m m' with
  | nil => exact h
  | cons cell order ih =>
    rw [launch_cons, launch_cons]
    exact ih (by rw [slavePixPos_counter, slavePixPos_counter, h])

/-- After two launches each index is dropped in both, or holds the same entries in both. -/
theorem launch_dropped_or_eq (h : data.PositionsFound) {order : List (Nat × Nat)}
    (horder : data.IsLaunch order) (m m' : PixPosArrays D) {k : Nat}
    (hk : k < data.numLines * data.numPixels) :
    ((launch (slavePixPos data) order m).masterAz k = invalidIndex ∧
        (launch (slavePixPos data) order m').masterAz k = invalidIndex) ∨
      (launch (slavePixPos data) order m).entry k =
        (launch (slavePixPos data) order m').entry k := by
  obtain ⟨cell, hin, rfl⟩ := data.exists_cell hk
  have hm := entry_launch data horder hin m
  have hm' := entry_launch data horder hin m'
  rcases cellEntry_dropped_or_const data hin h (m.entry (data.myIndex cell))
      (m'.entry (data.myIndex cell)) with hdrop | heq
  · refine .inl ⟨?_, ?_⟩
    · exact (congrArg PixPosEntry.masterAz hm).trans (hdrop _)
    · exact (congrArg PixPosEntry.masterAz hm').trans (hdrop _)
  · exact .inr (by rw [hm, hm', heq])

omit [Add D] [Sub D] [Div D] [IntCast D] in
/-- A collected point comes from an index that is not dropped. -/
theorem mem_triangulationPoints {x y : Nat → D} {a b invalid : D} {size : Nat} {q : D × D × Nat}
    (hq : q ∈ triangulationPoints x a y b size invalid) : q.2.2 < size ∧ x q.2.2 ≠ invalid := by
  obtain ⟨i, hi, hsome⟩ := List.mem_filterMap.mp hq
  by_cases hvalid : x i ≠ invalid ∧ y i ≠ invalid
  · rw [if_pos hvalid] at hsome
    obtain rfl := Option.some.inj hsome
    exact ⟨List.mem_range.mp hi, hvalid.1⟩
  · rw [if_neg hvalid] at hsome
    cases hsome

theorem interpolationInput_eq (h : data.PositionsFound) (ratio : D) {order : List (Nat × Nat)}
    (horder : data.IsLaunch order) {m m' : PixPosArrays D}
    (hcount : m.validIndexCounter = m'.validIndexCounter) :
    data.interpolationInput ratio (launch (slavePixPos data) order m) =
      data.interpolationInput ratio (launch (slavePixPos data) order m') := by
  have hpoints : data.points ratio (launch (slavePixPos data) order m) =
      data.points ratio (launch (slavePixPos data) order m') := by
    refine List.filterMap_congr fun k hk => ?_
    rcases launch_dropped_or_eq data h horder m m' (List.mem_range.mp hk) with ⟨h1, h2⟩ | heq
    · rw [if_neg fun hv => hv.1 h1, if_neg fun hv => hv.1 h2]
    · have haz := congrArg PixPosEntry.masterAz heq
      have hrg := congrArg PixPosEntry.masterRg heq
      simp only [PixPosArrays.entry] at haz hrg
      rw [haz, hrg]
  have hread : data.readBack ratio (launch (slavePixPos data) order m) =
      data.readBack ratio (launch (slavePixPos data) order m') := by
    unfold SlavePixPosData.readBack
    rw [← hpoints]
    refine List.map_congr_left fun q hq => ?_
    obtain ⟨hsize, hvalid⟩ := mem_triangulationPoints hq
    rcases launch_dropped_or_eq data h horder m m' hsize with ⟨h1, _⟩ | heq
    · exact absurd h1 hvalid
    · simp only [PixPosArrays.entry, PixPosEntry.mk.injEq] at heq
      obtain ⟨-, -, haz, hrg, hlat, hlon⟩ := heq
      show (_, _, _, _) = (_, _, _, _)
      rw [haz, hrg, hlat, hlon]
  rw [SlavePixPosData.interpolationInput, SlavePixPosData.interpolationInput, hpoints, hread,
    launch_counter data order hcount]

/-- A cell that is not found keeps what the arrays held: a value other than the invalid index
makes it undefined. -/
theorem not_defined_of_not_found {cell : Nat × Nat} (helev : data.HasElevation cell)
    (hnot : ¬ ((data.masterCall cell).2 ∧ ((data.slaveCall cell).2 ∨
      (data.masterCall cell).1.azimuthIndex = invalidIndex ∧
        (data.masterCall cell).1.rangeIndex = invalidIndex)))
    {e : PixPosEntry D} (he : e.masterAz ≠ invalidIndex) :
    ¬ data.Defined cell (data.cellEntry cell e) := by
  by_cases hm : (data.masterCall cell).2 = true
  · obtain ⟨hs, hne⟩ := not_or.mp fun h => hnot ⟨hm, h⟩
    rintro (hdrop | ⟨_, slave, _, hslave, _⟩)
    · exact hne (by simpa [SlavePixPosData.cellEntry, helev, hm, hs] using hdrop)
    · simp [SlavePixPosData.slavePosition, hs] at hslave
  · rintro (hdrop | ⟨master, _, hmaster, _⟩)
    · exact he (by simpa [SlavePixPosData.cellEntry, helev, hm] using hdrop.1)
    · simp [SlavePixPosData.masterPosition, hm] at hmaster

/-- Arrays full of a value other than the invalid index show every cell that is not found. -/
theorem positionsFound_of_noUndefinedPosition [Nontrivial D] {ratio : D}
    (h : data.NoUndefinedPosition ratio) : data.PositionsFound := by
  intro cell hin helev
  by_contra hnot
  obtain ⟨v, hv⟩ := exists_ne (invalidIndex : D)
  let garbage : PixPosArrays D := ⟨fun _ => v, fun _ => v, fun _ => v, fun _ => v, fun _ => v,
    fun _ => v, 0⟩
  have hcell := h.1 _ data.isLaunch_product garbage rfl cell hin
  rw [entry_launch data data.isLaunch_product hin] at hcell
  exact not_defined_of_not_found data helev hnot hv hcell

/-- **When no position is left undefined.** For every grid, orbit pair, initial content of the
arrays and order of the threads, each cell is dropped or fully computed and the triangulation
does not depend on the initial content, exactly when every cell with an elevation is found in
both images (or its master position is the invalid index itself). -/
theorem noUndefinedPosition_iff [Nontrivial D] (ratio : D) :
    data.NoUndefinedPosition ratio ↔ data.PositionsFound := by
  refine ⟨positionsFound_of_noUndefinedPosition data, fun h => ⟨?_, ?_⟩⟩
  · intro order horder m _ cell hin
    rw [entry_launch data horder hin]
    exact cellEntry_defined data hin h _
  · intro order horder m m' hm hm'
    exact interpolationInput_eq data h ratio horder (hm.trans hm'.symm)

end Kernel

/-- A grid of one cell with elevation. An orbit is `true` when it passes the cell. -/
def oneCell (masterOrbit slaveOrbit : Bool) : SlavePixPosData Unit Bool Rat where
  numLines := 1
  numPixels := 1
  latMaxIdx := 0
  lonMinIdx := 0
  demProperty := ⟨6000, -32768, 1 / 1200, 1 / 1200, 60, 180⟩
  demType := .srtm3
  demNoDataValue := -32768
  maskOutAreaWithoutElevation := true
  geometry := {
    getZeroDopplerTime := fun _ _ _ orbit => if orbit then 1 else nonValidZeroDopplerTime
    computeSlantRange := fun _ _ _ => 800000
    geo2xyzWgs84 := fun _ _ _ => ()
    getElevation := fun _ _ _ => 100
    getEgm96 := fun _ _ => 0
    isNan := fun _ => false }
  master := ⟨⟨1500, fun _ => 86400, 1 / 500, 1 / 400⟩, ⟨1 / 500, 1 / 20, 2, 20000, false, true⟩,
    masterOrbit, 0⟩
  slave := ⟨⟨1500, fun _ => 86400, 1 / 500, 1 / 400⟩, ⟨1 / 500, 1 / 20, 2, 20000, false, true⟩,
    slaveOrbit, 0⟩

theorem noUndefinedPosition_iff_oneCell : (oneCell true true).NoUndefinedPosition 1 := by
  refine (noUndefinedPosition_iff (oneCell true true) 1).mpr fun cell hin helev => ?_
  obtain rfl : cell = (0, 0) :=
    Prod.ext (Nat.lt_one_iff.mp hin.1) (Nat.lt_one_iff.mp hin.2)
  exact ⟨by decide +kernel, .inl (by decide +kernel)⟩

/-- The slave orbit does not pass the cell: its slave entries keep what the arrays held, and
its master entries stand for a valid point. -/
theorem not_noUndefinedPosition_oneCell : ¬ (oneCell true false).NoUndefinedPosition 1 := by
  intro h
  have hfound := positionsFound_of_noUndefinedPosition _ h (0, 0) (by decide) (by decide +kernel)
  exact absurd hfound (by decide +kernel)

end Alus.Backgeocoding
