import Alus.S1tbx.GeolocationGrid
import Alus.Lib.Numerals

/-!
# The approximate centre of a burst

`MetaData::FillBurstInfo` looks up the latitudes and longitudes at the corners of every burst in the
geolocation grid of the sub-swath, and takes their means for the centre, which the orbit's Newton
iteration starts from. The latitude of the lower right corner is looked up at the first pixel.

The arithmetic is exact.
-/

namespace Alus.Coherence

open Alus.Lib
open Alus.S1tbx (GeoGrid Sentinel1Index valueWith lineAzimuthTime)

/-! ## The bursts of a sub-swath -/

/-- What is read of `SubSwathInfo`. There are burst times for all bursts. -/
structure SubSwathInfo (F : Type) where
  grid : GeoGrid F
  numOfBursts : Nat
  burstFirstLineTime : List F
  burstLastLineTime : List F
  slrTimeToFirstPixel : F
  slrTimeToLastPixel : F
  bursts_le : numOfBursts ≤ burstFirstLineTime.length
  lastTimes : burstLastLineTime.length = burstFirstLineTime.length

/-- The values at the corners of a burst: upper left, upper right, lower left and lower right. -/
structure Corners (F : Type) where
  ul : F
  ur : F
  ll : F
  lr : F
  deriving DecidableEq, Repr

/-- `GeoPoint`. -/
structure GeoPoint (F : Type) where
  lat : F
  lon : F
  deriving DecidableEq, Repr

structure BurstData (F P : Type) where
  firstLineTime : F
  lastLineTime : F
  approxXyzCentre : P
  deriving DecidableEq, Repr

section Computation

variable {F : Type} [Field F] [LinearOrder F]

def Corners.mean (v : Corners F) : F := (v.ul + v.ur + v.ll + v.lr) / 4

namespace SubSwathInfo

variable (swath : SubSwathInfo F)

/-- `latUL`, `latUR`, `latLL` and `latLR`. -/
def latitudeCorners (firstLineTime lastLineTime : F) : Outcome (Corners F) := do
  let latUL ← swath.grid.getLatitude firstLineTime swath.slrTimeToFirstPixel
  let latUR ← swath.grid.getLatitude firstLineTime swath.slrTimeToLastPixel
  let latLL ← swath.grid.getLatitude lastLineTime swath.slrTimeToFirstPixel
  -- the first pixel again
  let latLR ← swath.grid.getLatitude lastLineTime swath.slrTimeToFirstPixel
  return ⟨latUL, latUR, latLL, latLR⟩

/-- `lonUL`, `lonUR`, `lonLL` and `lonLR`. -/
def longitudeCorners (firstLineTime lastLineTime : F) : Outcome (Corners F) := do
  let lonUL ← swath.grid.getLongitude firstLineTime swath.slrTimeToFirstPixel
  let lonUR ← swath.grid.getLongitude firstLineTime swath.slrTimeToLastPixel
  let lonLL ← swath.grid.getLongitude lastLineTime swath.slrTimeToFirstPixel
  let lonLR ← swath.grid.getLongitude lastLineTime swath.slrTimeToLastPixel
  return ⟨lonUL, lonUR, lonLL, lonLR⟩

/-- A pass of the loop of `FillBurstInfo`, with the conversion `Ell2Xyz`. -/
def burstData {P : Type} (ell2Xyz : GeoPoint F → P) (i : Nat) : Outcome (BurstData F P) := do
  let firstLineTime ← vectorAt swath.burstFirstLineTime i
  let lastLineTime ← vectorAt swath.burstLastLineTime i
  let latitudes ← swath.latitudeCorners firstLineTime lastLineTime
  let longitudes ← swath.longitudeCorners firstLineTime lastLineTime
  return ⟨firstLineTime, lastLineTime, ell2Xyz ⟨latitudes.mean, longitudes.mean⟩⟩

/-- `MetaData::FillBurstInfo`. -/
def fillBurstInfo {P : Type} (ell2Xyz : GeoPoint F → P) : Outcome (List (BurstData F P)) :=
  Outcome.collect ((List.range swath.numOfBursts).map (swath.burstData ell2Xyz))

end SubSwathInfo

end Computation

/-! ## The field of a grid -/

section Spec

variable {F : Type} [Field F] [LinearOrder F]

/-- An affine function of azimuth time and slant range time. -/
structure AffineField (F : Type) where
  offset : F
  azimuthSlope : F
  rangeSlope : F

namespace AffineField

variable (f : AffineField F)

def value (azimuthTime slantRangeTime : F) : F :=
  f.offset + f.azimuthSlope * azimuthTime + f.rangeSlope * slantRangeTime

/-- The values at the corners of a burst. -/
def corners (firstLineTime lastLineTime firstPixelTime lastPixelTime : F) : Corners F where
  ul := f.value firstLineTime firstPixelTime
  ur := f.value firstLineTime lastPixelTime
  ll := f.value lastLineTime firstPixelTime
  lr := f.value lastLineTime lastPixelTime

/-- The points of the grid have the values of the field at their times. -/
def IsFieldOf (g : GeoGrid F) (array : Nat → Nat → F) : Prop :=
  ∀ i < g.numOfGeoLines, ∀ j < g.numOfGeoPointsPerLine,
    array i j = f.value (g.azimuthTime i j) (g.slantRangeTime i j)

end AffineField

namespace SubSwathInfo

variable (swath : SubSwathInfo F) (lat lon : AffineField F)

/-- The field at the middle of a burst's lines and pixels. -/
def centre (firstLineTime lastLineTime : F) : GeoPoint F where
  lat := lat.value ((firstLineTime + lastLineTime) / 2)
    ((swath.slrTimeToFirstPixel + swath.slrTimeToLastPixel) / 2)
  lon := lon.value ((firstLineTime + lastLineTime) / 2)
    ((swath.slrTimeToFirstPixel + swath.slrTimeToLastPixel) / 2)

/-- What is promised of a burst: the corners are the field's, and the centre is the field's at the
middle. -/
structure CentreRight {P : Type} (ell2Xyz : GeoPoint F → P) (data : BurstData F P) : Prop where
  latitudes : swath.latitudeCorners data.firstLineTime data.lastLineTime =
    .ok (lat.corners data.firstLineTime data.lastLineTime swath.slrTimeToFirstPixel
      swath.slrTimeToLastPixel)
  longitudes : swath.longitudeCorners data.firstLineTime data.lastLineTime =
    .ok (lon.corners data.firstLineTime data.lastLineTime swath.slrTimeToFirstPixel
      swath.slrTimeToLastPixel)
  centre : data.approxXyzCentre =
    ell2Xyz (swath.centre lat lon data.firstLineTime data.lastLineTime)

/-- The line times of a burst. -/
def HasBurst (firstLineTime lastLineTime : F) : Prop :=
  ∃ i < swath.numOfBursts, swath.burstFirstLineTime[i]? = some firstLineTime ∧
    swath.burstLastLineTime[i]? = some lastLineTime

/-- What is promised of all bursts. -/
def CentresRight {P : Type} (ell2Xyz : GeoPoint F → P) : Prop :=
  ∃ bursts, swath.fillBurstInfo ell2Xyz = .ok bursts ∧
    bursts.length = swath.numOfBursts ∧ ∀ (i : Nat) data, bursts[i]? = some data →
      swath.burstFirstLineTime[i]? = some data.firstLineTime ∧
      swath.burstLastLineTime[i]? = some data.lastLineTime ∧
      swath.CentreRight lat lon ell2Xyz data

end SubSwathInfo

/-- The slant range time that the grid has at the position that is looked up does as well as the
one that is asked for. -/
def AffineField.Keeps (f : AffineField F) (g : GeoGrid F)
    (azimuthTime lookedUp slantRangeTime : F) : Prop :=
  ∃ own, g.getSlantRangeTime azimuthTime lookedUp = .ok own ∧
    f.rangeSlope * (own - slantRangeTime) = 0

/-- Every corner keeps its slant range time. The latitude of the lower right corner is looked up at
the first pixel. -/
structure SubSwathInfo.CornersKept (swath : SubSwathInfo F) (lat lon : AffineField F)
    (firstLineTime lastLineTime : F) : Prop where
  latUL : lat.Keeps swath.grid firstLineTime swath.slrTimeToFirstPixel swath.slrTimeToFirstPixel
  latUR : lat.Keeps swath.grid firstLineTime swath.slrTimeToLastPixel swath.slrTimeToLastPixel
  latLL : lat.Keeps swath.grid lastLineTime swath.slrTimeToFirstPixel swath.slrTimeToFirstPixel
  latLR : lat.Keeps swath.grid lastLineTime swath.slrTimeToFirstPixel swath.slrTimeToLastPixel
  lonUL : lon.Keeps swath.grid firstLineTime swath.slrTimeToFirstPixel swath.slrTimeToFirstPixel
  lonUR : lon.Keeps swath.grid firstLineTime swath.slrTimeToLastPixel swath.slrTimeToLastPixel
  lonLL : lon.Keeps swath.grid lastLineTime swath.slrTimeToFirstPixel swath.slrTimeToFirstPixel
  lonLR : lon.Keeps swath.grid lastLineTime swath.slrTimeToLastPixel swath.slrTimeToLastPixel

/-- All lines of the grid have the slant range times of the first. -/
def SharedRangeTimes (g : GeoGrid F) : Prop :=
  ∀ i < g.numOfGeoLines, ∀ j < g.numOfGeoPointsPerLine,
    g.slantRangeTime i j = g.slantRangeTime 0 j

/-- A pair of times at which a cell is found in a grid whose times increase. -/
def Looked (g : GeoGrid F) (azimuthTime slantRangeTime : F) : Prop :=
  slantRangeTime ≠ g.slantRangeTime 0 (g.numOfGeoPointsPerLine - 1) ∧
    ¬ g.LinesMeet azimuthTime slantRangeTime

/-- All corners of a burst are looked up in such a grid. -/
def SubSwathInfo.CornersLooked (swath : SubSwathInfo F) (firstLineTime lastLineTime : F) : Prop :=
  ∀ azimuthTime, azimuthTime = firstLineTime ∨ azimuthTime = lastLineTime →
    ∀ slantRangeTime, slantRangeTime = swath.slrTimeToFirstPixel ∨
        slantRangeTime = swath.slrTimeToLastPixel →
      Looked swath.grid azimuthTime slantRangeTime

end Spec

/-! ## What is looked up -/

section Lookup

variable {F : Type} [Field F] [LinearOrder F] {g : GeoGrid F} {f : AffineField F}
  {array : Nat → Nat → F} {azimuthTime slantRangeTime : F} {index : Sentinel1Index F}

omit [LinearOrder F] in
/-- The value of an affine field at an index follows from those of the times. -/
theorem valueWith_affine (h : f.IsFieldOf g array)
    (hazimuth : valueWith (g.hostAt g.azimuthTime) index = .ok azimuthTime) :
    ∃ own, valueWith (g.hostAt g.slantRangeTime) index = .ok own ∧
      valueWith (g.hostAt array) index = .ok (f.value azimuthTime own) := by
  have hread : ∀ {i j : Int} {time : F}, g.hostAt g.azimuthTime i j = .ok time →
      time = g.azimuthTime i.toNat j.toNat ∧
      g.hostAt g.slantRangeTime i j = .ok (g.slantRangeTime i.toNat j.toNat) ∧
      g.hostAt array i j =
        .ok (f.value (g.azimuthTime i.toNat j.toNat) (g.slantRangeTime i.toNat j.toNat)) := by
    intro i j time htime
    unfold GeoGrid.hostAt at htime ⊢
    split at htime
    · rename_i hin
      refine ⟨(Outcome.ok.inj htime).symm, if_pos hin, ?_⟩
      rw [if_pos hin, h i.toNat (by omega) j.toNat (by omega)]
    · cases htime
  unfold valueWith at hazimuth ⊢
  refine Outcome.of_bind_eq_ok hazimuth fun time00 h00 hazimuth => ?_
  refine Outcome.of_bind_eq_ok hazimuth fun time01 h01 hazimuth => ?_
  refine Outcome.of_bind_eq_ok hazimuth fun time10 h10 hazimuth => ?_
  refine Outcome.of_bind_eq_ok hazimuth fun time11 h11 hazimuth => ?_
  obtain ⟨rfl, hrange00, hvalue00⟩ := hread h00
  obtain ⟨rfl, hrange01, hvalue01⟩ := hread h01
  obtain ⟨rfl, hrange10, hvalue10⟩ := hread h10
  obtain ⟨rfl, hrange11, hvalue11⟩ := hread h11
  rw [hrange00, hrange01, hrange10, hrange11, hvalue00, hvalue01, hvalue10, hvalue11]
  refine ⟨_, rfl, congrArg Outcome.ok ?_⟩
  rw [← Outcome.ok.inj hazimuth]
  unfold AffineField.value
  ring

omit [LinearOrder F] in
/-- Without a line there is no value. -/
theorem valueWith_minus_one (array : Nat → Nat → F) (hline : index.i0 = -1) :
    valueWith (g.hostAt array) index = .undefined := by
  unfold valueWith GeoGrid.hostAt
  rw [if_neg (by omega)]
  rfl

/-- An affine field is looked up at the slant range time that the grid has there. -/
theorem lookup_affine (h : f.IsFieldOf g array) (azimuthTime slantRangeTime : F) :
    (g.computeIndex azimuthTime slantRangeTime >>= valueWith (g.hostAt array)) =
      (do
        let own ← g.getSlantRangeTime azimuthTime slantRangeTime
        return f.value azimuthTime own) := by
  unfold GeoGrid.getSlantRangeTime GeoGrid.getSlantRangeTimeValue
  cases hindex : g.computeIndex azimuthTime slantRangeTime with
  | throws => rfl
  | undefined => rfl
  | ok index =>
    rw [Outcome.ok_bind, Outcome.ok_bind]
    cases (GeoGrid.computeIndex_eq_ok hindex).2 with
    | inl hline =>
      rw [valueWith_minus_one array hline, valueWith_minus_one g.slantRangeTime hline]
      rfl
    | inr hazimuth =>
      obtain ⟨own, hown, hvalue⟩ := valueWith_affine h hazimuth
      rw [hown, hvalue]
      rfl

/-- It has the value that is asked for exactly when it keeps the slant range time. -/
theorem lookup_eq_iff (h : f.IsFieldOf g array) (azimuthTime lookedUp slantRangeTime : F) :
    (g.computeIndex azimuthTime lookedUp >>= valueWith (g.hostAt array)) =
        .ok (f.value azimuthTime slantRangeTime) ↔
      f.Keeps g azimuthTime lookedUp slantRangeTime := by
  have hvalue : ∀ own, f.value azimuthTime own = f.value azimuthTime slantRangeTime ↔
      f.rangeSlope * (own - slantRangeTime) = 0 := by
    intro own
    rw [← sub_eq_zero]
    unfold AffineField.value
    ring_nf
  rw [lookup_affine h, Outcome.bind_eq_ok]
  refine exists_congr fun own => and_congr_right fun _ => ?_
  rw [← hvalue own, Outcome.pure_eq, Outcome.ok.injEq]

/-- Where all lines have the slant range times of the first, the one that is asked for is kept. -/
theorem getSlantRangeTime_eq (hshared : SharedRangeTimes g) {own : F}
    (h : g.getSlantRangeTime azimuthTime slantRangeTime = .ok own) : own = slantRangeTime := by
  refine Outcome.of_bind_eq_ok h fun index hindex hvalue => ?_
  have hfirst := (GeoGrid.computeIndex_eq_ok hindex).1
  have hread : ∀ {i j : Int} {time : F}, g.hostAt g.slantRangeTime i j = .ok time →
      g.hostAt g.slantRangeTime 0 j = .ok time := by
    intro i j time htime
    unfold GeoGrid.hostAt at htime ⊢
    split at htime
    · rename_i hin
      rw [if_pos (by omega), ← htime, hshared i.toNat (by omega) j.toNat (by omega)]
      rfl
    · cases htime
  have hline : ∀ {i : Int} {time : F},
      lineAzimuthTime (g.hostAt g.slantRangeTime) index.j0 index.j1 index.muX i = .ok time →
      time = slantRangeTime := by
    intro i time htime
    refine Outcome.of_bind_eq_ok htime fun time0 htime0 htime => ?_
    refine Outcome.of_bind_eq_ok htime fun time1 htime1 htime => ?_
    rw [lineAzimuthTime, hread htime0, Outcome.ok_bind, hread htime1, Outcome.ok_bind] at hfirst
    exact Outcome.ok.inj (htime.symm.trans hfirst)
  unfold GeoGrid.getSlantRangeTimeValue at hvalue
  rw [GeoGrid.valueWith_eq_lineAzimuthTime] at hvalue
  refine Outcome.of_bind_eq_ok hvalue fun value0 hvalue0 hvalue => ?_
  refine Outcome.of_bind_eq_ok hvalue fun value1 hvalue1 hvalue => ?_
  rw [← Outcome.ok.inj hvalue, hline hvalue0, hline hvalue1]
  ring

variable [IsStrictOrderedRing F]

/-- In a grid whose times increase it is looked up where a cell is found. -/
theorem exists_getSlantRangeTime (hincreases : g.Increases) :
    (∃ own, g.getSlantRangeTime azimuthTime slantRangeTime = .ok own) ↔
      Looked g azimuthTime slantRangeTime := by
  have hzero : AffineField.IsFieldOf ⟨0, 0, 0⟩ g fun _ _ => (0 : F) := by
    intro i _ j _
    simp [AffineField.value]
  rw [Looked, ← GeoGrid.findsCell_iff hincreases]
  constructor
  · intro hexists
    obtain ⟨own, hown⟩ := hexists
    refine Outcome.of_bind_eq_ok hown fun index hindex _ => ?_
    exact (GeoGrid.findsCell_iff_exists hincreases).mpr ⟨index, hindex⟩
  · intro hfinds
    obtain ⟨index, hindex, -, hcell, -⟩ := hfinds
    have hline : index.i0 ≠ -1 := by
      have := hcell.line_nonneg
      omega
    obtain ⟨own, hown, -⟩ :=
      valueWith_affine hzero ((GeoGrid.computeIndex_eq_ok hindex).2.resolve_left hline)
    refine ⟨own, ?_⟩
    rw [GeoGrid.getSlantRangeTime, hindex]
    exact hown

/-- In such a grid with shared slant range times, a corner is kept where it is looked up, unless it
is taken from elsewhere and the field has a slope in range. -/
theorem keeps_iff (hincreases : g.Increases) (hshared : SharedRangeTimes g) (lookedUp : F) :
    f.Keeps g azimuthTime lookedUp slantRangeTime ↔
      Looked g azimuthTime lookedUp ∧ f.rangeSlope * (lookedUp - slantRangeTime) = 0 := by
  rw [← exists_getSlantRangeTime hincreases]
  constructor
  · intro hkeeps
    obtain ⟨own, hown, hslope⟩ := hkeeps
    exact ⟨⟨own, hown⟩, getSlantRangeTime_eq hshared hown ▸ hslope⟩
  · intro hlooked
    obtain ⟨⟨own, hown⟩, hslope⟩ := hlooked
    exact ⟨own, hown, getSlantRangeTime_eq hshared hown ▸ hslope⟩

end Lookup

/-! ## The corners and their mean -/

section Bursts

variable {F P : Type} [Field F] [LinearOrder F] {swath : SubSwathInfo F} {lat lon : AffineField F}
  {firstLineTime lastLineTime : F}

omit [Field F] [LinearOrder F] in
/-- Four lookups that all have a value. -/
theorem corners_eq_ok {ul ur ll lr : Outcome F} {v : Corners F} :
    (do
      let valueUL ← ul
      let valueUR ← ur
      let valueLL ← ll
      let valueLR ← lr
      return (⟨valueUL, valueUR, valueLL, valueLR⟩ : Corners F)) = .ok v ↔
      ul = .ok v.ul ∧ ur = .ok v.ur ∧ ll = .ok v.ll ∧ lr = .ok v.lr := by
  constructor
  · intro h
    refine Outcome.of_bind_eq_ok h fun valueUL hul h => ?_
    refine Outcome.of_bind_eq_ok h fun valueUR hur h => ?_
    refine Outcome.of_bind_eq_ok h fun valueLL hll h => ?_
    refine Outcome.of_bind_eq_ok h fun valueLR hlr h => ?_
    cases h
    exact ⟨hul, hur, hll, hlr⟩
  · intro h
    rw [h.1, h.2.1, h.2.2.1, h.2.2.2]
    rfl

/-- The corners are right exactly when they are kept. -/
theorem corners_right_iff (hlat : lat.IsFieldOf swath.grid swath.grid.latitude)
    (hlon : lon.IsFieldOf swath.grid swath.grid.longitude) :
    (swath.latitudeCorners firstLineTime lastLineTime =
        .ok (lat.corners firstLineTime lastLineTime swath.slrTimeToFirstPixel
          swath.slrTimeToLastPixel) ∧
      swath.longitudeCorners firstLineTime lastLineTime =
        .ok (lon.corners firstLineTime lastLineTime swath.slrTimeToFirstPixel
          swath.slrTimeToLastPixel)) ↔
      swath.CornersKept lat lon firstLineTime lastLineTime := by
  have hlatitude := fun t lookedUp s => lookup_eq_iff hlat t lookedUp s
  have hlongitude := fun t lookedUp s => lookup_eq_iff hlon t lookedUp s
  unfold SubSwathInfo.latitudeCorners SubSwathInfo.longitudeCorners
  rw [corners_eq_ok, corners_eq_ok]
  constructor
  · intro h
    obtain ⟨⟨hlatUL, hlatUR, hlatLL, hlatLR⟩, hlonUL, hlonUR, hlonLL, hlonLR⟩ := h
    exact ⟨(hlatitude _ _ _).mp hlatUL, (hlatitude _ _ _).mp hlatUR, (hlatitude _ _ _).mp hlatLL,
      (hlatitude _ _ _).mp hlatLR, (hlongitude _ _ _).mp hlonUL, (hlongitude _ _ _).mp hlonUR,
      (hlongitude _ _ _).mp hlonLL, (hlongitude _ _ _).mp hlonLR⟩
  · intro h
    exact ⟨⟨(hlatitude _ _ _).mpr h.latUL, (hlatitude _ _ _).mpr h.latUR,
        (hlatitude _ _ _).mpr h.latLL, (hlatitude _ _ _).mpr h.latLR⟩,
      (hlongitude _ _ _).mpr h.lonUL, (hlongitude _ _ _).mpr h.lonUR,
      (hlongitude _ _ _).mpr h.lonLL, (hlongitude _ _ _).mpr h.lonLR⟩

omit [Field F] [LinearOrder F] in
/-- A burst has times in the lists. -/
theorem SubSwathInfo.exists_times (swath : SubSwathInfo F) {i : Nat} (hi : i < swath.numOfBursts) :
    ∃ first last, swath.burstFirstLineTime[i]? = some first ∧
      swath.burstLastLineTime[i]? = some last := by
  have hbursts := swath.bursts_le
  have hlast := swath.lastTimes
  exact ⟨_, _, List.getElem?_eq_getElem (show i < swath.burstFirstLineTime.length by omega),
    List.getElem?_eq_getElem (show i < swath.burstLastLineTime.length by omega)⟩

variable [IsStrictOrderedRing F]

/-- The mean of the corners of an affine field is its value at the middle. -/
theorem corners_mean (f : AffineField F) (t0 t1 s0 s1 : F) :
    (f.corners t0 t1 s0 s1).mean = f.value ((t0 + t1) / 2) ((s0 + s1) / 2) := by
  unfold Corners.mean AffineField.corners AffineField.value
  field_simp
  ring

omit [IsStrictOrderedRing F] in
/-- A burst whose corners are looked up. -/
theorem burstData_eq (ell2Xyz : GeoPoint F → P) {i : Nat}
    (hfirst : swath.burstFirstLineTime[i]? = some firstLineTime)
    (hlast : swath.burstLastLineTime[i]? = some lastLineTime) {latitudes longitudes : Corners F}
    (hlatitudes : swath.latitudeCorners firstLineTime lastLineTime = .ok latitudes)
    (hlongitudes : swath.longitudeCorners firstLineTime lastLineTime = .ok longitudes) :
    swath.burstData ell2Xyz i =
      .ok ⟨firstLineTime, lastLineTime, ell2Xyz ⟨latitudes.mean, longitudes.mean⟩⟩ := by
  have hfirstAt : vectorAt swath.burstFirstLineTime i = .ok firstLineTime :=
    vectorAt_eq_ok.mpr ⟨Int.natCast_nonneg i, hfirst⟩
  have hlastAt : vectorAt swath.burstLastLineTime i = .ok lastLineTime :=
    vectorAt_eq_ok.mpr ⟨Int.natCast_nonneg i, hlast⟩
  rw [SubSwathInfo.burstData, hfirstAt, Outcome.ok_bind, hlastAt, Outcome.ok_bind, hlatitudes,
    Outcome.ok_bind, hlongitudes, Outcome.ok_bind]
  rfl

omit [IsStrictOrderedRing F] in
/-- Bursts that all have their data, in order. -/
theorem exists_fillBurstInfo (ell2Xyz : GeoPoint F → P)
    (h : ∀ i < swath.numOfBursts, ∃ data, swath.burstData ell2Xyz i = .ok data) :
    ∃ bursts, swath.fillBurstInfo ell2Xyz = .ok bursts ∧ bursts.length = swath.numOfBursts ∧
      ∀ (i : Nat) data, bursts[i]? = some data → swath.burstData ell2Xyz i = .ok data := by
  obtain ⟨bursts, hbursts, hat⟩ := Outcome.exists_collect_map (f := swath.burstData ell2Xyz)
    (l := List.range swath.numOfBursts) fun i hi => h i (List.mem_range.mp hi)
  have hlength : bursts.length = swath.numOfBursts := by
    have hmap := congrArg List.length (Outcome.collect_eq_ok.mp hbursts)
    rw [List.length_map, List.length_map, List.length_range] at hmap
    exact hmap.symm
  refine ⟨bursts, hbursts, hlength, fun i data hdata => ?_⟩
  obtain ⟨hi, -⟩ := List.getElem?_eq_some_iff.mp hdata
  obtain ⟨data', hdata', hrun⟩ := hat i i (List.getElem?_range (by omega))
  rw [hdata] at hdata'
  cases hdata'
  exact hrun

/-- Where the times of the grid increase and its lines share their slant range times, the corners
are kept when they are looked up and the latitude has no slope along the pixels. -/
theorem cornersKept_iff (hincreases : swath.grid.Increases)
    (hshared : SharedRangeTimes swath.grid) :
    swath.CornersKept lat lon firstLineTime lastLineTime ↔
      swath.CornersLooked firstLineTime lastLineTime ∧
        lat.rangeSlope * (swath.slrTimeToFirstPixel - swath.slrTimeToLastPixel) = 0 := by
  -- a corner that is taken at another slant range time is kept only without a slope
  have hkeeps : ∀ (f : AffineField F) (t lookedUp s : F), f.Keeps swath.grid t lookedUp s ↔
      Looked swath.grid t lookedUp ∧ f.rangeSlope * (lookedUp - s) = 0 :=
    fun f t lookedUp s => keeps_iff hincreases hshared lookedUp
  constructor
  · intro h
    refine ⟨?_, ((hkeeps _ _ _ _).mp h.latLR).2⟩
    intro t ht s hs
    cases ht with
    | inl ht =>
      cases hs with
      | inl hs => exact ht ▸ hs ▸ ((hkeeps _ _ _ _).mp h.latUL).1
      | inr hs => exact ht ▸ hs ▸ ((hkeeps _ _ _ _).mp h.latUR).1
    | inr ht =>
      cases hs with
      | inl hs => exact ht ▸ hs ▸ ((hkeeps _ _ _ _).mp h.latLL).1
      | inr hs => exact ht ▸ hs ▸ ((hkeeps _ _ _ _).mp h.lonLR).1
  · intro h
    obtain ⟨hlooked, hslope⟩ := h
    -- the corners that are taken where they belong need no condition on the slope
    have hsame : ∀ (f : AffineField F) t, t = firstLineTime ∨ t = lastLineTime →
        ∀ s, s = swath.slrTimeToFirstPixel ∨ s = swath.slrTimeToLastPixel →
        f.Keeps swath.grid t s s := by
      intro f t ht s hs
      exact (hkeeps f t s s).mpr ⟨hlooked t ht s hs, by rw [sub_self, mul_zero]⟩
    -- the lower right corner of the latitudes is taken at the first pixel
    exact
      { latUL := hsame lat _ (.inl rfl) _ (.inl rfl)
        latUR := hsame lat _ (.inl rfl) _ (.inr rfl)
        latLL := hsame lat _ (.inr rfl) _ (.inl rfl)
        latLR := (hkeeps _ _ _ _).mpr ⟨hlooked _ (.inr rfl) _ (.inl rfl), hslope⟩
        lonUL := hsame lon _ (.inl rfl) _ (.inl rfl)
        lonUR := hsame lon _ (.inl rfl) _ (.inr rfl)
        lonLL := hsame lon _ (.inr rfl) _ (.inl rfl)
        lonLR := hsame lon _ (.inr rfl) _ (.inr rfl) }

/-- In such a grid the mean of the latitudes is off by a quarter of their change along the pixels,
and the mean of the longitudes is right. -/
theorem mean_of_cornersLooked (hincreases : swath.grid.Increases)
    (hshared : SharedRangeTimes swath.grid)
    (hlat : lat.IsFieldOf swath.grid swath.grid.latitude)
    (hlon : lon.IsFieldOf swath.grid swath.grid.longitude)
    (hlooked : swath.CornersLooked firstLineTime lastLineTime) :
    ∃ latitudes longitudes, swath.latitudeCorners firstLineTime lastLineTime = .ok latitudes ∧
      swath.longitudeCorners firstLineTime lastLineTime = .ok longitudes ∧
      latitudes.mean = (swath.centre lat lon firstLineTime lastLineTime).lat +
        lat.rangeSlope * (swath.slrTimeToFirstPixel - swath.slrTimeToLastPixel) / 4 ∧
      longitudes.mean = (swath.centre lat lon firstLineTime lastLineTime).lon := by
  have hvalue : ∀ {f : AffineField F} {array : Nat → Nat → F}, f.IsFieldOf swath.grid array →
      ∀ t, t = firstLineTime ∨ t = lastLineTime →
      ∀ s, s = swath.slrTimeToFirstPixel ∨ s = swath.slrTimeToLastPixel →
      (swath.grid.computeIndex t s >>= valueWith (swath.grid.hostAt array)) =
        .ok (f.value t s) := by
    intro f array hfield t ht s hs
    rw [lookup_eq_iff hfield, keeps_iff hincreases hshared, sub_self, mul_zero]
    exact ⟨hlooked t ht s hs, rfl⟩
  -- the fourth latitude is the third one again
  refine ⟨⟨lat.value firstLineTime swath.slrTimeToFirstPixel,
      lat.value firstLineTime swath.slrTimeToLastPixel,
      lat.value lastLineTime swath.slrTimeToFirstPixel,
      lat.value lastLineTime swath.slrTimeToFirstPixel⟩,
    lon.corners firstLineTime lastLineTime swath.slrTimeToFirstPixel swath.slrTimeToLastPixel,
    ?_, ?_, ?_, corners_mean lon _ _ _ _⟩
  · exact corners_eq_ok.mpr ⟨hvalue hlat _ (.inl rfl) _ (.inl rfl),
      hvalue hlat _ (.inl rfl) _ (.inr rfl), hvalue hlat _ (.inr rfl) _ (.inl rfl),
      hvalue hlat _ (.inr rfl) _ (.inl rfl)⟩
  · exact corners_eq_ok.mpr ⟨hvalue hlon _ (.inl rfl) _ (.inl rfl),
      hvalue hlon _ (.inl rfl) _ (.inr rfl), hvalue hlon _ (.inr rfl) _ (.inl rfl),
      hvalue hlon _ (.inr rfl) _ (.inr rfl)⟩
  · unfold Corners.mean SubSwathInfo.centre AffineField.value
    field_simp
    ring

/-! ## Right centres -/

/-- The centres are right exactly when the lookups keep the slant range times of the corners. Where
the times of the grid increase and its lines share their slant range times, they do so when all
corners are looked up and the latitude does not change from the first pixel to the last. -/
theorem burstCentres_right_iff (ell2Xyz : GeoPoint F → P)
    (hlat : lat.IsFieldOf swath.grid swath.grid.latitude)
    (hlon : lon.IsFieldOf swath.grid swath.grid.longitude) :
    (swath.CentresRight lat lon ell2Xyz ↔ ∀ firstLineTime lastLineTime,
      swath.HasBurst firstLineTime lastLineTime →
        swath.CornersKept lat lon firstLineTime lastLineTime) ∧
    (swath.grid.Increases → SharedRangeTimes swath.grid →
      (swath.CentresRight lat lon ell2Xyz ↔ ∀ firstLineTime lastLineTime,
        swath.HasBurst firstLineTime lastLineTime →
          swath.CornersLooked firstLineTime lastLineTime ∧
            lat.rangeSlope * (swath.slrTimeToFirstPixel - swath.slrTimeToLastPixel) = 0)) := by
  -- the centre of a burst is right just when its corners are kept
  have hiff : swath.CentresRight lat lon ell2Xyz ↔ ∀ firstLineTime lastLineTime,
      swath.HasBurst firstLineTime lastLineTime →
        swath.CornersKept lat lon firstLineTime lastLineTime := by
    constructor
    · intro h firstLineTime lastLineTime hburst
      obtain ⟨bursts, -, hlength, hall⟩ := h
      obtain ⟨i, hi, hfirst, hlast⟩ := hburst
      obtain ⟨hfirst', hlast', hright⟩ :=
        hall i bursts[i] (List.getElem?_eq_getElem (by omega))
      have htimes := Option.some.inj (hfirst.symm.trans hfirst')
      have htimes' := Option.some.inj (hlast.symm.trans hlast')
      rw [htimes, htimes']
      exact (corners_right_iff hlat hlon).mp ⟨hright.latitudes, hright.longitudes⟩
    · intro h
      -- each burst has its data, with the mean of its corners in the right place
      have hdata : ∀ i < swath.numOfBursts, ∃ first last,
          swath.burstFirstLineTime[i]? = some first ∧ swath.burstLastLineTime[i]? = some last ∧
          swath.burstData ell2Xyz i =
            .ok ⟨first, last, ell2Xyz (swath.centre lat lon first last)⟩ ∧
          swath.CentreRight lat lon ell2Xyz
            ⟨first, last, ell2Xyz (swath.centre lat lon first last)⟩ := by
        intro i hi
        obtain ⟨first, last, hfirst, hlast⟩ := swath.exists_times hi
        have hkept := h first last ⟨i, hi, hfirst, hlast⟩
        obtain ⟨hlatitudes, hlongitudes⟩ := (corners_right_iff hlat hlon).mpr hkept
        refine ⟨first, last, hfirst, hlast, ?_, hlatitudes, hlongitudes, rfl⟩
        rw [burstData_eq ell2Xyz hfirst hlast hlatitudes hlongitudes, corners_mean, corners_mean]
        rfl
      obtain ⟨bursts, hbursts, hlength, hall⟩ := exists_fillBurstInfo ell2Xyz fun i hi => by
        obtain ⟨first, last, -, -, hrun, -⟩ := hdata i hi
        exact ⟨_, hrun⟩
      refine ⟨bursts, hbursts, hlength, fun i data hat => ?_⟩
      obtain ⟨hi, -⟩ := List.getElem?_eq_some_iff.mp hat
      obtain ⟨first, last, hfirst, hlast, hrun, hright⟩ := hdata i (by omega)
      rw [hall i data hat] at hrun
      cases hrun
      exact ⟨hfirst, hlast, hright⟩
  refine ⟨hiff, fun hincreases hshared => hiff.trans ?_⟩
  refine forall_congr' fun first => forall_congr' fun last => forall_congr' fun _ => ?_
  exact cornersKept_iff hincreases hshared

end Bursts

/-! ## A latitude that changes along the pixels -/

/-- Three points a second apart on each of two lines. Latitude and longitude count the points. -/
def slopedGrid : GeoGrid Rat where
  numOfGeoLines := 2
  numOfGeoPointsPerLine := 3
  slantRangeTime _ j := j
  azimuthTime i _ := i
  latitude _ j := j
  longitude _ j := j
  size_lt := by decide

/-- One burst, from the first point of the lines to the second. -/
def slopedSwath : SubSwathInfo Rat where
  grid := slopedGrid
  numOfBursts := 1
  burstFirstLineTime := [0]
  burstLastLineTime := [1]
  slrTimeToFirstPixel := 0
  slrTimeToLastPixel := 1
  bursts_le := by decide
  lastTimes := by decide

/-- The slant range time as a field. -/
def rangeField : AffineField Rat := ⟨0, 0, 1⟩

theorem isFieldOf_rangeField :
    rangeField.IsFieldOf slopedGrid slopedGrid.latitude ∧
      rangeField.IsFieldOf slopedGrid slopedGrid.longitude := by
  have hfield : ∀ i j : Nat, ((j : Nat) : Rat) = rangeField.value (i : Rat) (j : Rat) := by
    intro i j
    simp [rangeField, AffineField.value]
  exact ⟨fun i _ j _ => hfield i j, fun i _ j _ => hfield i j⟩

/-- The centre of the burst is a quarter too far to the first pixel in latitude. -/
theorem slopedSwath_not_right : ¬ slopedSwath.CentresRight rangeField rangeField id ∧
    slopedSwath.fillBurstInfo id = .ok [⟨0, 1, ⟨1 / 4, 1 / 2⟩⟩] ∧
    slopedSwath.centre rangeField rangeField 0 1 = ⟨1 / 2, 1 / 2⟩ := by
  have hfill : slopedSwath.fillBurstInfo id = .ok [⟨0, 1, ⟨1 / 4, 1 / 2⟩⟩] := by decide +kernel
  have hcentre : slopedSwath.centre rangeField rangeField 0 1 = ⟨1 / 2, 1 / 2⟩ := by
    decide +kernel
  refine ⟨fun h => ?_, hfill, hcentre⟩
  obtain ⟨bursts, hbursts, -, hall⟩ := h
  rw [hfill] at hbursts
  cases hbursts
  obtain ⟨-, -, hright⟩ := hall 0 _ rfl
  have hwrong := hright.centre
  rw [id, hcentre] at hwrong
  exact absurd hwrong (by decide +kernel)

/-- The swath again, where the theorem applies. -/
theorem slopedSwath_right_iff :
    slopedSwath.CentresRight rangeField rangeField id ↔ ∀ firstLineTime lastLineTime,
      slopedSwath.HasBurst firstLineTime lastLineTime →
        slopedSwath.CornersKept rangeField rangeField firstLineTime lastLineTime :=
  (burstCentres_right_iff id isFieldOf_rangeField.1 isFieldOf_rangeField.2).1

end Alus.Coherence
