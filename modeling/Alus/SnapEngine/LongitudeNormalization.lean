import Alus.SnapEngine.WarpPoints

/-!
# Normalised longitudes of tie point geo-coding

`InitNormalizedLonGrid` (`tie_point_geo_coding.cc`) removes the jumps at the antimeridian from the
longitudes of a tie point grid: it walks along the lines, and moves a point by 360 degrees where it
is more than 180 degrees from the point before. `InitLatLonMinMax` takes the extremes of the
result, and `NormalizeLon` brings a longitude into them.

Longitudes are stored in single precision. The conversion is a parameter, `toFloat`; the
computations in double precision are exact.
-/

namespace Alus.SnapEngine

open Alus.Lib

section Normalization

variable {T : Type} [Field T] [LinearOrder T]

/-! ## The computations -/

/-- The variables of the loops of `InitNormalizedLonGrid`. -/
structure LonNormalization (T : Type) where
  normalizedLongitudes : List T
  westNormalized : Bool
  eastNormalized : Bool
  deriving DecidableEq, Repr

/-- The index of the base point: the point before in the line, or the first of the line above. -/
def baseIndex (w x y index : Int) : Outcome Int :=
  if x = 0 ∧ y = 0 then .ok index
  else if x = 0 then do
    let above ← int32 ((y - 1) * w)
    int32 (x + above)
  else int32 (index - 1)

/-- A pass of the inner loop. -/
def normalizePoint (toFloat : T → T) (w y : Int) (s : LonNormalization T) (x : Int) :
    Outcome (LonNormalization T) := do
  let row ← int32 (y * w)
  let index ← int32 (x + row)
  -- the point before, which has been normalised
  let base ← baseIndex w x y index
  let p1 ← vectorAt s.normalizedLongitudes base
  -- the current, un-normalised point
  let p2 ← vectorAt s.normalizedLongitudes index
  let lonDelta := p2 - p1
  -- a jump from west to east moves the point to the west, one back to the east
  if lonDelta > 180 then do
    let stored ← storeAt s.normalizedLongitudes index (toFloat (p2 - 360))
    return { s with normalizedLongitudes := stored, westNormalized := true }
  else if lonDelta < -180 then do
    let stored ← storeAt s.normalizedLongitudes index (toFloat (p2 + 360))
    return { s with normalizedLongitudes := stored, eastNormalized := true }
  else return s

/-- The loops over the lines and their points. -/
def normalizeLines (toFloat : T → T) (w h : Int) (longitudes : List T) :
    Outcome (LonNormalization T) :=
  (intRange 0 h).foldlM
    (fun s y => (intRange 0 w).foldlM (normalizePoint toFloat w y) s) ⟨longitudes, false, false⟩

/-- The longitudes after the loops, all of them shifted if some have been placed in the west. -/
def LonNormalization.shifted (toFloat : T → T) (s : LonNormalization T) : List T :=
  if s.westNormalized then s.normalizedLongitudes.map fun lon => toFloat (lon + 360)
  else s.normalizedLongitudes

/-- `InitNormalizedLonGrid`, with what it stores in `normalized_`. -/
def initNormalizedLonGrid (toFloat : T → T) (g : GeoCodingGrids T) :
    Outcome (TiePointGrid T × Bool) := do
  let w := g.lonGrid.x.size
  let h := g.lonGrid.y.size
  let s ← normalizeLines toFloat w h g.lonGrid.tiePoints
  -- only a normalised grid is a new one
  if s.westNormalized || s.eastNormalized then do
    let normalizedLonGrid ← TiePointGrid.create g.lonGrid.name w h g.lonGrid.x.offset
      g.lonGrid.y.offset g.lonGrid.x.subSampling g.lonGrid.y.subSampling (s.shifted toFloat)
    return (normalizedLonGrid, true)
  else return (g.lonGrid, false)

/-- What `InitLatLonMinMax` stores. -/
structure LatLonMinMax (T : Type) where
  normalizedLonMin : T
  normalizedLonMax : T
  latMin : T
  latMax : T
  overlapStart : T
  overlapEnd : T

/-- The largest `double`. -/
def doubleMax : T := (2 ^ 53 - 1) * 2 ^ 971

/-- `InitLatLonMinMax`. -/
def initLatLonMinMax (g : GeoCodingGrids T) (normalizedLonGrid : TiePointGrid T) :
    LatLonMinMax T :=
  let lonMin := normalizedLonGrid.tiePoints.foldl min doubleMax
  let lonMax := normalizedLonGrid.tiePoints.foldl max (-doubleMax)
  { normalizedLonMin := lonMin
    normalizedLonMax := lonMax
    latMin := g.latGrid.tiePoints.foldl min doubleMax
    latMax := g.latGrid.tiePoints.foldl max (-doubleMax)
    overlapStart := if lonMin < -180 then lonMin + 360 else lonMin
    overlapEnd := if lonMax > 180 then lonMax - 360 else lonMax }

/-- `NormalizeLon`; there is no number where it returns `NaN`. -/
def normalizeLon (m : LatLonMinMax T) (lon : T) : Option T :=
  if lon < -180 ∨ lon > 180 then none
  else
    let normalizedLon := if lon < m.normalizedLonMin then lon + 360 else lon
    if normalizedLon < m.normalizedLonMin ∨ normalizedLon > m.normalizedLonMax then none
    else some normalizedLon

/-! ## What they are for -/

/-- A grid has a tie point in this column and row. -/
structure TiePointGrid.HasNode (grid : TiePointGrid T) (x y : Int) : Prop where
  x_nonneg : 0 ≤ x
  x_lt : x < grid.x.size
  y_nonneg : 0 ≤ y
  y_lt : y < grid.y.size

/-- The longitudes of a grid are those of a field that jumps nowhere, up to whole turns. -/
structure ComesFromField (grid : TiePointGrid T) (field : Int → Int → T) : Prop where
  range : ∀ x y, grid.HasNode x y → -180 ≤ grid.node x y ∧ grid.node x y ≤ 180
  turns : ∀ x y, grid.HasNode x y → ∃ n : Int, grid.node x y = field x y + 360 * n
  span : ∀ x y x' y', grid.HasNode x y → grid.HasNode x' y' → field x y - field x' y' < 180

/-- A grid has the longitudes of another one, without jumps and not below -180 degrees. -/
structure NormalizesGrid (grid : TiePointGrid T) (field : Int → Int → T)
    (normalized : TiePointGrid T) : Prop where
  geometry : normalized.x = grid.x ∧ normalized.y = grid.y
  congruent : ∀ x y, grid.HasNode x y → ∃ n : Int, normalized.node x y = grid.node x y + 360 * n
  horizontal : ∀ x y, grid.HasNode x y → grid.HasNode (x + 1) y →
    |normalized.node (x + 1) y - normalized.node x y| < 180
  vertical : ∀ x y, grid.HasNode x y → grid.HasNode x (y + 1) →
    |normalized.node x (y + 1) - normalized.node x y| < 180
  lower : ∀ x y, grid.HasNode x y → -180 ≤ normalized.node x y
  turns : ∃ n : Int, ∀ x y, grid.HasNode x y → normalized.node x y = field x y + 360 * n

/-- The extremes of the normalised grid are enough to normalise the longitude of a tie point. -/
def NormalizesTiePoints (g : GeoCodingGrids T) (normalized : TiePointGrid T) : Prop :=
  ∀ x y, g.lonGrid.HasNode x y →
    normalizeLon (initLatLonMinMax g normalized) (g.lonGrid.node x y) = some (normalized.node x y)

/-- The longitudes that are stored where nothing is rounded, before and after the shift of all of
them, are numbers of single precision. -/
structure StoredExactly (toFloat : T → T) (g : GeoCodingGrids T) : Prop where
  lines : ∀ s, normalizeLines id g.lonGrid.x.size g.lonGrid.y.size g.lonGrid.tiePoints = .ok s →
    ∀ lon ∈ s.normalizedLongitudes, toFloat lon = lon
  shifted : ∀ s, normalizeLines id g.lonGrid.x.size g.lonGrid.y.size g.lonGrid.tiePoints = .ok s →
    ∀ lon ∈ s.shifted id, toFloat lon = lon

/-! ## Unwrapping -/

section Unwrapping

variable {longitudes : List T} {u : Nat → T}

/-- The longitudes without jumps, that of the first point unchanged. -/
structure Unwraps (longitudes : List T) (u : Nat → T) : Prop where
  range : ∀ (i : Nat) (lon : T), longitudes[i]? = some lon → -180 ≤ lon ∧ lon ≤ 180
  start : longitudes[0]? = some (u 0)
  turn : ∀ (i : Nat) (lon : T), longitudes[i]? = some lon →
    lon = u i ∨ lon = u i + 360 ∨ lon = u i - 360
  near : ∀ i j, i < longitudes.length → j < longitudes.length → u i - u j < 180

/-- The first points have been unwrapped, and it has been noted where some of them came from. -/
structure LonNormalization.Unwrapped (longitudes : List T) (u : Nat → T) (k : Nat)
    (s : LonNormalization T) : Prop where
  length_eq : s.normalizedLongitudes.length = longitudes.length
  done : ∀ i, i < k → i < longitudes.length → s.normalizedLongitudes[i]? = some (u i)
  rest : ∀ i, k ≤ i → s.normalizedLongitudes[i]? = longitudes[i]?
  west : s.westNormalized = true ↔ ∃ i < k, longitudes[i]? = some (u i + 360)
  east : s.eastNormalized = true ↔ ∃ i < k, longitudes[i]? = some (u i - 360)

omit [LinearOrder T] in
theorem unwrapped_start (longitudes : List T) (u : Nat → T) :
    LonNormalization.Unwrapped longitudes u 0 ⟨longitudes, false, false⟩ where
  length_eq := rfl
  done i hi := absurd hi (Nat.not_lt_zero i)
  rest i _ := rfl
  west := by simp
  east := by simp

/-- The base point of the point at position `k` has been unwrapped before. -/
theorem exists_baseIndex {w h x y : Int} (hx : 0 ≤ x) (hxw : x < w) (hy : 0 ≤ y) (hyh : y < h)
    (hsize : w * h < 2147483648) :
    ∃ base : Nat, baseIndex w x y (x + y * w) = .ok base ∧
      ((base : Int) < x + y * w ∨ (base = 0 ∧ x + y * w = 0)) := by
  have hrow : 0 ≤ y * w := Int.mul_nonneg hy (by omega)
  have hlast : (y + 1) * w ≤ h * w := Int.mul_le_mul_of_nonneg_right (by omega) (by omega)
  rw [Int.add_mul, Int.one_mul, Int.mul_comm h w] at hlast
  unfold baseIndex
  by_cases hx0 : x = 0
  · subst hx0
    by_cases hy0 : y = 0
    · subst hy0
      refine ⟨0, ?_, .inr ⟨rfl, by omega⟩⟩
      rw [if_pos ⟨rfl, rfl⟩]
      congr 1
      omega
    · have habove : 0 ≤ (y - 1) * w := Int.mul_nonneg (by omega) (by omega)
      have hexpand : (y - 1) * w = y * w - w := by rw [Int.sub_mul, Int.one_mul]
      refine ⟨((y - 1) * w).toNat, ?_, .inl (by omega)⟩
      rw [if_neg fun hzero => hy0 hzero.2, if_pos rfl,
        int32_of_bounds (by omega) (by omega), Outcome.ok_bind,
        int32_of_bounds (by omega) (by omega), Int.toNat_of_nonneg habove, Int.zero_add]
  · refine ⟨(x + y * w - 1).toNat, ?_, .inl (by omega)⟩
    rw [if_neg fun hzero => hx0 hzero.1, if_neg hx0,
      int32_of_bounds (by omega) (by omega), Int.toNat_of_nonneg (by omega)]

omit [LinearOrder T] in
/-- The point at position `k` is unwrapped next. -/
theorem LonNormalization.Unwrapped.next {k : Nat} {s s' : LonNormalization T} {lon : T}
    (hs : s.Unwrapped longitudes u k) (hlon : longitudes[k]? = some lon)
    (hstored : s'.normalizedLongitudes = s.normalizedLongitudes.set k (u k))
    (hwest : s'.westNormalized = true ↔ s.westNormalized = true ∨ lon = u k + 360)
    (heast : s'.eastNormalized = true ↔ s.eastNormalized = true ∨ lon = u k - 360) :
    s'.Unwrapped longitudes u (k + 1) where
  length_eq := by rw [hstored, List.length_set, hs.length_eq]
  done i hi hin := by
    rw [hstored]
    by_cases hik : k = i
    · subst hik
      exact List.getElem?_set_self (by rw [hs.length_eq]; exact hin)
    · rw [List.getElem?_set_ne hik]
      exact hs.done i (by omega) hin
  rest i hi := by
    rw [hstored, List.getElem?_set_ne (by omega)]
    exact hs.rest i (by omega)
  west := by rw [hwest, hs.west, Nat.exists_lt_succ_right, hlon, Option.some_inj]
  east := by rw [heast, hs.east, Nat.exists_lt_succ_right, hlon, Option.some_inj]

variable [IsStrictOrderedRing T]

/-- A pass unwraps the point at its position. -/
theorem exists_normalizePoint {toFloat : T → T} {w h x y : Int} {s : LonNormalization T}
    (hu : Unwraps longitudes u) (hfloat : ∀ i, i < longitudes.length → toFloat (u i) = u i)
    (hlength : (longitudes.length : Int) = w * h) (hsize : w * h < 2147483648)
    (hx : 0 ≤ x) (hxw : x < w) (hy : 0 ≤ y) (hyh : y < h)
    (hs : s.Unwrapped longitudes u (x + y * w).toNat) :
    ∃ s', normalizePoint toFloat w y s x = .ok s' ∧
      s'.Unwrapped longitudes u (x + 1 + y * w).toNat := by
  have hrow : 0 ≤ y * w := Int.mul_nonneg hy (by omega)
  have hlast : (y + 1) * w ≤ h * w := Int.mul_le_mul_of_nonneg_right (by omega) (by omega)
  rw [Int.add_mul, Int.one_mul, Int.mul_comm h w] at hlast
  obtain ⟨base, hbase, hbefore⟩ := exists_baseIndex hx hxw hy hyh hsize
  obtain ⟨k, hk⟩ : ∃ k : Nat, x + y * w = k := ⟨(x + y * w).toNat, by omega⟩
  have hkn : k < longitudes.length := by omega
  have hnext : (x + 1 + y * w).toNat = k + 1 := by omega
  rw [hk] at hbefore hbase
  rw [hk, Int.toNat_natCast] at hs
  rw [hnext]
  obtain ⟨lon, hlon⟩ : ∃ lon, longitudes[k]? = some lon :=
    ⟨longitudes[k], List.getElem?_eq_getElem hkn⟩
  have hcurrent : s.normalizedLongitudes[k]? = some lon := by rw [hs.rest k (le_refl k), hlon]
  have hp1 : vectorAt s.normalizedLongitudes (base : Int) = .ok (u base) := by
    refine vectorAt_eq_ok.mpr ⟨by omega, ?_⟩
    rw [Int.toNat_natCast]
    cases hbefore with
    | inl hlt => exact hs.done base (by omega) (by omega)
    | inr hzero =>
      rw [hs.rest base (by omega), hzero.1]
      exact hu.start
  have hp2 : vectorAt s.normalizedLongitudes (k : Int) = .ok lon :=
    vectorAt_eq_ok.mpr ⟨by omega, hcurrent⟩
  have hstore : storeAt s.normalizedLongitudes (k : Int) (u k) =
      .ok (s.normalizedLongitudes.set k (u k)) :=
    if_pos ⟨by omega, by rw [hs.length_eq]; omega⟩
  have hnear := hu.near k base hkn (by omega)
  have hnear' := hu.near base k (by omega) hkn
  unfold normalizePoint
  rw [int32_of_bounds (by omega) (by omega), Outcome.ok_bind,
    int32_of_bounds (by omega) (by omega), Outcome.ok_bind, hk, hbase, Outcome.ok_bind, hp1,
    Outcome.ok_bind, hp2, Outcome.ok_bind]
  dsimp only
  -- the base point and the unwrapped one differ by less than 180: the difference tells the turn
  rcases hu.turn k lon hlon with hsame | hwest | heast
  · rw [if_neg (by linarith), if_neg (by linarith)]
    refine ⟨s, rfl, hs.next hlon ?_ ⟨.inl, fun h => h.resolve_right fun h => ?_⟩
      ⟨.inl, fun h => h.resolve_right fun h => ?_⟩⟩
    · obtain ⟨hkn', hget⟩ := List.getElem?_eq_some_iff.mp hcurrent
      rw [← hsame, ← hget, List.set_getElem_self]
    · linarith
    · linarith
  · have hback : toFloat (lon - 360) = u k := by
      rw [hwest, add_sub_cancel_right]
      exact hfloat k hkn
    rw [if_pos (by linarith), hback, hstore, Outcome.ok_bind]
    refine ⟨_, rfl, hs.next hlon rfl ⟨fun _ => .inr hwest, fun _ => rfl⟩
      ⟨.inl, fun h => h.resolve_right fun h => ?_⟩⟩
    linarith
  · have hback : toFloat (lon + 360) = u k := by
      rw [heast, sub_add_cancel]
      exact hfloat k hkn
    rw [if_neg (by linarith), if_pos (by linarith), hback, hstore, Outcome.ok_bind]
    refine ⟨_, rfl, hs.next hlon rfl ⟨.inl, fun h => h.resolve_right fun h => ?_⟩
      ⟨fun _ => .inr heast, fun _ => rfl⟩⟩
    linarith

/-- The loops unwrap all points. -/
theorem exists_normalizeLines (toFloat : T → T) {w h : Int} (hu : Unwraps longitudes u)
    (hfloat : ∀ i, i < longitudes.length → toFloat (u i) = u i) (hw : 0 ≤ w) (hh : 0 ≤ h)
    (hlength : (longitudes.length : Int) = w * h) (hsize : w * h < 2147483648) :
    ∃ s, normalizeLines toFloat w h longitudes = .ok s ∧
      s.Unwrapped longitudes u longitudes.length := by
  have hpoint : ∀ x y (s : LonNormalization T), 0 ≤ x → x < 0 + w → 0 ≤ y → y < 0 + h →
      s.Unwrapped longitudes u (x - 0 + (y - 0) * w).toNat →
      ∃ s', normalizePoint toFloat w y s x = .ok s' ∧
        s'.Unwrapped longitudes u (x - 0 + (y - 0) * w + 1).toNat := by
    intro x y s hx hxw hy hyh hs
    rw [Int.zero_add] at hxw hyh
    rw [Int.sub_zero, Int.sub_zero] at hs ⊢
    rw [Int.add_right_comm]
    exact exists_normalizePoint hu hfloat hlength hsize hx hxw hy hyh hs
  obtain ⟨s, hrun, hs⟩ := exists_foldlM_rows
    (fun k (s : LonNormalization T) => s.Unwrapped longitudes u k.toNat) hw hh hpoint
    (unwrapped_start longitudes u)
  rw [Int.zero_add, Int.zero_add] at hrun
  rw [← hlength, Int.toNat_natCast] at hs
  exact ⟨s, hrun, hs⟩

end Unwrapping

/-! ## Longitudes of a field -/

section Field

variable {grid : TiePointGrid T} {field : Int → Int → T}

/-- The tie points by their positions in the vector. -/
theorem TiePointGrid.exists_node (grid : TiePointGrid T) {i : Nat}
    (hi : i < grid.tiePoints.length) :
    grid.HasNode (i % grid.x.size) (i / grid.x.size) ∧
      grid.tiePoints[i]? = some (grid.node (i % grid.x.size) (i / grid.x.size)) := by
  have hw := grid.x.two_le_size
  have hlength := grid.length_tiePoints
  have hrow : (i : Int) / grid.x.size < grid.y.size := by
    apply Int.ediv_lt_of_lt_mul (by omega)
    rw [Int.mul_comm]
    omega
  have hposition : (i : Int) % grid.x.size + i / grid.x.size * grid.x.size = i := by
    rw [Int.mul_comm]
    exact Int.emod_add_mul_ediv _ _
  refine ⟨⟨Int.emod_nonneg _ (by omega), Int.emod_lt_of_pos _ (by omega),
    Int.ediv_nonneg (by omega) (by omega), hrow⟩, ?_⟩
  unfold TiePointGrid.node
  rw [hposition, Int.toNat_natCast, List.getElem?_eq_getElem hi]
  rfl

/-- The position in the vector of a tie point. -/
theorem TiePointGrid.HasNode.exists_position {x y : Int} (h : grid.HasNode x y) :
    ∃ i : Nat, i < grid.tiePoints.length ∧ (i : Int) = x + y * grid.x.size ∧
      (i : Int) % grid.x.size = x ∧ (i : Int) / grid.x.size = y := by
  have hw := grid.x.two_le_size
  have hrow : 0 ≤ y * grid.x.size := Int.mul_nonneg h.y_nonneg (by omega)
  have hlast : (y + 1) * grid.x.size ≤ grid.y.size * grid.x.size :=
    Int.mul_le_mul_of_nonneg_right (by have := h.y_lt; omega) (by omega)
  rw [Int.add_mul, Int.one_mul, Int.mul_comm grid.y.size, ← grid.length_tiePoints] at hlast
  have hx := h.x_nonneg
  have hxw := h.x_lt
  refine ⟨(x + y * grid.x.size).toNat, by omega, by omega, ?_, ?_⟩
  · rw [Int.toNat_of_nonneg (by omega), Int.add_mul_emod_self_right]
    exact Int.emod_eq_of_lt hx hxw
  · rw [Int.toNat_of_nonneg (by omega), Int.add_mul_ediv_right _ _ (by omega),
      Int.ediv_eq_zero_of_lt hx hxw, Int.zero_add]

/-- A node has its longitude in the vector. -/
theorem TiePointGrid.HasNode.exists_tiePoint {x y : Int} (h : grid.HasNode x y) :
    ∃ i : Nat, i < grid.tiePoints.length ∧ (i : Int) % grid.x.size = x ∧
      (i : Int) / grid.x.size = y ∧ grid.tiePoints[i]? = some (grid.node x y) := by
  obtain ⟨i, hi, -, hcolumn, hrow⟩ := h.exists_position
  have hget := (grid.exists_node hi).2
  rw [hcolumn, hrow] at hget
  exact ⟨i, hi, hcolumn, hrow, hget⟩

/-- The vector has the longitudes of the nodes only. -/
theorem TiePointGrid.exists_hasNode (grid : TiePointGrid T) {lon : T} (h : lon ∈ grid.tiePoints) :
    ∃ x y, grid.HasNode x y ∧ lon = grid.node x y := by
  obtain ⟨i, hi, rfl⟩ := List.mem_iff_getElem.mp h
  obtain ⟨hnode, hget⟩ := grid.exists_node hi
  rw [List.getElem?_eq_getElem hi, Option.some.injEq] at hget
  exact ⟨_, _, hnode, hget⟩

/-- The field, by the positions in the vector, turned so that it starts with the first
longitude. -/
def fieldAt (grid : TiePointGrid T) (field : Int → Int → T) (n : Int) (i : Nat) : T :=
  field (i % grid.x.size) (i / grid.x.size) + 360 * n

variable [IsStrictOrderedRing T]

omit [IsStrictOrderedRing T] in
theorem TiePointGrid.length_pos (grid : TiePointGrid T) : 0 < grid.tiePoints.length := by
  have hpos : 0 < grid.x.size * grid.y.size :=
    Int.mul_pos (by have := grid.x.two_le_size; omega) (by have := grid.y.two_le_size; omega)
  have hlength := grid.length_tiePoints
  omega

/-- A longitude is at most one turn away from the field that starts with the first longitude. -/
theorem turn_of_range {lon start value : T} {k : Int} (hlon : -180 ≤ lon ∧ lon ≤ 180)
    (hstart : -180 ≤ start ∧ start ≤ 180) (hnear : value - start < 180)
    (hnear' : start - value < 180) (hturn : lon = value + 360 * k) :
    lon = value ∨ lon = value + 360 ∨ lon = value - 360 := by
  have hlow : (-2 : T) < k := by linarith [hlon.1, hstart.2]
  have hhigh : (k : T) < 2 := by linarith [hlon.2, hstart.1]
  have hlow : -2 < k := by exact_mod_cast hlow
  have hhigh : k < 2 := by exact_mod_cast hhigh
  have hcases : k = 0 ∨ k = 1 ∨ k = -1 := by omega
  rcases hcases with rfl | rfl | rfl
  · left
    rw [hturn]
    push_cast
    ring
  · right; left
    rw [hturn]
    push_cast
    ring
  · right; right
    rw [hturn]
    push_cast
    ring

/-- The field is the longitudes without jumps. -/
theorem ComesFromField.exists_unwraps (h : ComesFromField grid field) :
    ∃ n, Unwraps grid.tiePoints (fieldAt grid field n) := by
  obtain ⟨hfirst, hget⟩ := grid.exists_node grid.length_pos
  obtain ⟨n, hn⟩ := h.turns _ _ hfirst
  -- two of its longitudes are less than half a turn apart
  have hnear : ∀ i j, i < grid.tiePoints.length → j < grid.tiePoints.length →
      fieldAt grid field n i - fieldAt grid field n j < 180 := by
    intro i j hi hj
    unfold fieldAt
    rw [add_sub_add_right_eq_sub]
    exact h.span _ _ _ _ (grid.exists_node hi).1 (grid.exists_node hj).1
  have hstart : grid.tiePoints[0]? = some (fieldAt grid field n 0) := by
    rw [hget, hn]
    rfl
  have hrange : ∀ (i : Nat) (lon : T), grid.tiePoints[i]? = some lon → -180 ≤ lon ∧ lon ≤ 180 := by
    intro i lon hlon
    obtain ⟨hi, -⟩ := List.getElem?_eq_some_iff.mp hlon
    obtain ⟨hnode, hnodeget⟩ := grid.exists_node hi
    rw [hnodeget, Option.some_inj] at hlon
    rw [← hlon]
    exact h.range _ _ hnode
  refine ⟨n, hrange, hstart, ?_, hnear⟩
  intro i lon hlon
  obtain ⟨hi, -⟩ := List.getElem?_eq_some_iff.mp hlon
  obtain ⟨hnode, hnodeget⟩ := grid.exists_node hi
  obtain ⟨m, hm⟩ := h.turns _ _ hnode
  -- a tie point is whole turns away from the field
  have hturn : lon = fieldAt grid field n i + 360 * ((m - n : Int) : T) := by
    rw [hnodeget, Option.some_inj] at hlon
    rw [← hlon, hm]
    unfold fieldAt
    push_cast
    ring
  exact turn_of_range (hrange i lon hlon) (hrange 0 _ hstart) (hnear i 0 hi grid.length_pos)
    (hnear 0 i grid.length_pos hi) hturn

end Field

/-! ## The shift of all longitudes -/

section Shift

variable {longitudes : List T} {u : Nat → T}

/-- The turns by which all longitudes are shifted after the loops. -/
def LonNormalization.turns (s : LonNormalization T) : Int := if s.westNormalized then 1 else 0

omit [LinearOrder T] in
/-- The longitudes after the shift. -/
theorem LonNormalization.Unwrapped.getElem?_shifted {s : LonNormalization T}
    (hs : s.Unwrapped longitudes u longitudes.length) {i : Nat} (hi : i < longitudes.length) :
    (s.shifted id)[i]? = some (u i + 360 * s.turns) := by
  have hget := hs.done i hi hi
  unfold shifted turns
  split
  · rw [List.getElem?_map, hget]
    simp
  · rw [hget]
    simp

variable [IsStrictOrderedRing T]

/-- After the shift a point is where it was or one turn to the east. -/
theorem LonNormalization.Unwrapped.turn_shifted {s : LonNormalization T}
    (hs : s.Unwrapped longitudes u longitudes.length) (hu : Unwraps longitudes u) {i : Nat}
    {lon : T} (hlon : longitudes[i]? = some lon) :
    lon = u i + 360 * s.turns ∨ lon = u i + 360 * s.turns - 360 := by
  obtain ⟨hi, -⟩ := List.getElem?_eq_some_iff.mp hlon
  have hturn := hu.turn i lon hlon
  have hrange := hu.range i lon hlon
  unfold turns
  split
  · rename_i hwest
    obtain ⟨j, hj, hjlon⟩ := hs.west.mp hwest
    have hjrange := hu.range j _ hjlon
    have hnear := hu.near i j hi hj
    push_cast
    rcases hturn with h | h | h
    · right
      rw [h]
      ring
    · left
      rw [h]
      ring
    -- a grid with points on both sides of the field's turn spans a whole turn
    · exfalso
      linarith [hrange.1, hjrange.2]
  · rename_i hwest
    rw [Int.cast_zero, mul_zero, add_zero]
    rcases hturn with h | h | h
    · exact .inl h
    · exact absurd (hs.west.mpr ⟨i, hi, by rw [hlon, h]⟩) hwest
    · exact .inr h

end Shift

/-! ## The normalised grid -/

section Grid

variable {longitudes : List T} {u : Nat → T}

omit [LinearOrder T] in
/-- What the loops leave is determined by the unwrapped longitudes. -/
theorem LonNormalization.Unwrapped.unique {s s' : LonNormalization T}
    (hs : s.Unwrapped longitudes u longitudes.length)
    (hs' : s'.Unwrapped longitudes u longitudes.length) : s = s' := by
  have hlist : s.normalizedLongitudes = s'.normalizedLongitudes := by
    apply List.ext_getElem?
    intro i
    by_cases hi : i < longitudes.length
    · rw [hs.done i hi hi, hs'.done i hi hi]
    · rw [hs.rest i (by omega), hs'.rest i (by omega)]
  have hwest : s.westNormalized = s'.westNormalized := by
    rw [Bool.eq_iff_iff, hs.west, hs'.west]
  have heast : s.eastNormalized = s'.eastNormalized := by
    rw [Bool.eq_iff_iff, hs.east, hs'.east]
  cases s
  cases s'
  dsimp only at hlist hwest heast
  rw [hlist, hwest, heast]

omit [LinearOrder T] in
/-- Without a shift of some points nothing has changed. -/
theorem LonNormalization.Unwrapped.eq_of_not_normalized {s : LonNormalization T}
    (hs : s.Unwrapped longitudes u longitudes.length)
    (hturn : ∀ (i : Nat) (lon : T), longitudes[i]? = some lon →
      lon = u i ∨ lon = u i + 360 ∨ lon = u i - 360)
    (hwest : ¬ s.westNormalized = true) (heast : ¬ s.eastNormalized = true) :
    s.normalizedLongitudes = longitudes := by
  apply List.ext_getElem?
  intro i
  by_cases hi : i < longitudes.length
  · have hlon := List.getElem?_eq_getElem hi
    rw [hs.done i hi hi, hlon, Option.some_inj]
    rcases hturn i _ hlon with h | h | h
    · exact h.symm
    · exact absurd (hs.west.mpr ⟨i, hi, by rw [hlon, h]⟩) hwest
    · exact absurd (hs.east.mpr ⟨i, hi, by rw [hlon, h]⟩) heast
  · exact hs.rest i (by omega)

variable [IsStrictOrderedRing T]

omit [LinearOrder T] [IsStrictOrderedRing T] in
theorem LonNormalization.length_shifted (s : LonNormalization T) (toFloat : T → T) :
    (s.shifted toFloat).length = s.normalizedLongitudes.length := by
  unfold LonNormalization.shifted
  split
  · exact List.length_map _
  · rfl

/-- The grid that is returned has the unwrapped longitudes, all of them shifted if necessary. -/
theorem exists_initNormalizedLonGrid {toFloat : T → T} {g : GeoCodingGrids T}
    (hu : Unwraps g.lonGrid.tiePoints u) (hstored : StoredExactly toFloat g) :
    ∃ (s : LonNormalization T) (normalized : TiePointGrid T),
      s.Unwrapped g.lonGrid.tiePoints u g.lonGrid.tiePoints.length ∧
      initNormalizedLonGrid toFloat g =
        .ok (normalized, s.westNormalized || s.eastNormalized) ∧
      normalized.x = g.lonGrid.x ∧ normalized.y = g.lonGrid.y ∧
      normalized.tiePoints = s.shifted id := by
  have hw := g.lonGrid.x.two_le_size
  have hh := g.lonGrid.y.two_le_size
  have hlength := g.lonGrid.length_tiePoints
  have hsize : g.lonGrid.x.size * g.lonGrid.y.size < 2147483648 := by
    rw [g.same_width, g.same_height]
    exact g.size_lt
  -- the exact pass gives what the one through `float` has to store
  obtain ⟨s, hexact, hs⟩ := exists_normalizeLines id hu (fun i _ => rfl)
    (show 0 ≤ g.lonGrid.x.size by omega) (show 0 ≤ g.lonGrid.y.size by omega) hlength hsize
  have hfloat : ∀ i, i < g.lonGrid.tiePoints.length → toFloat (u i) = u i := fun i hi =>
    hstored.lines s hexact (u i) (List.mem_of_getElem? (hs.done i hi hi))
  obtain ⟨s', hrun, hs'⟩ := exists_normalizeLines toFloat hu hfloat
    (show 0 ≤ g.lonGrid.x.size by omega) (show 0 ≤ g.lonGrid.y.size by omega) hlength hsize
  obtain rfl : s' = s := hs'.unique hs
  -- the shift by a turn is exact too
  have hshifted : s'.shifted toFloat = s'.shifted id := by
    have hrounded := hstored.shifted s' hexact
    unfold LonNormalization.shifted at hrounded ⊢
    split
    · rename_i hwest
      rw [if_pos hwest] at hrounded
      exact List.map_congr_left fun lon hlon =>
        hrounded _ (List.mem_map_of_mem (f := fun lon => id (lon + 360)) hlon)
    · rfl
  have hshiftedLength : ((s'.shifted id).length : Int) = g.lonGrid.x.size * g.lonGrid.y.size := by
    rw [s'.length_shifted, hs.length_eq, hlength]
  unfold initNormalizedLonGrid
  dsimp only
  rw [hrun, Outcome.ok_bind]
  split
  · rename_i hnormalized
    refine ⟨s', ⟨⟨g.lonGrid.name, g.lonGrid.x, g.lonGrid.y, none⟩, s'.shifted id,
      hshiftedLength⟩, hs, ?_, rfl, rfl, rfl⟩
    rw [hshifted, hnormalized]
    unfold TiePointGrid.create
    rw [dif_pos ⟨⟨hw, g.lonGrid.x.subSampling_pos⟩, ⟨hh, g.lonGrid.y.subSampling_pos⟩,
      hshiftedLength⟩]
    rfl
  -- a grid that was never normalized is returned itself
  · rename_i hnormalized
    rw [Bool.or_eq_true, not_or] at hnormalized
    refine ⟨s', g.lonGrid, hs, ?_, rfl, rfl, ?_⟩
    · rw [Bool.eq_false_iff.mpr hnormalized.1, Bool.eq_false_iff.mpr hnormalized.2]
      rfl
    · unfold LonNormalization.shifted
      rw [if_neg hnormalized.1]
      exact (hs.eq_of_not_normalized hu.turn hnormalized.1 hnormalized.2).symm

theorem lt_doubleMax : (180 : T) < doubleMax := by
  have hone : (1 : T) ≤ 2 ^ 971 := one_le_pow₀ (by norm_num)
  have hmantissa : (180 : T) < 2 ^ 53 - 1 := by norm_num
  calc (180 : T) < 2 ^ 53 - 1 := hmantissa
    _ = (2 ^ 53 - 1) * 1 := (mul_one _).symm
    _ ≤ (2 ^ 53 - 1) * 2 ^ 971 := mul_le_mul_of_nonneg_left hone (by norm_num)

/-- The extremes of values that differ by less than 180 tell where a longitude has been moved
to. -/
theorem normalizeLon_eq {g : GeoCodingGrids T} {normalized : TiePointGrid T} {lon value : T}
    (hlon : -180 ≤ lon ∧ lon ≤ 180) (hmem : value ∈ normalized.tiePoints)
    (hturn : lon = value ∨ lon = value - 360)
    (hnear : ∀ v ∈ normalized.tiePoints, value - v < 180) :
    normalizeLon (initLatLonMinMax g normalized) lon = some value := by
  have hmin : (initLatLonMinMax g normalized).normalizedLonMin ≤ value :=
    (le_foldl_min.mp (le_refl _)).2 value hmem
  have hmax : value ≤ (initLatLonMinMax g normalized).normalizedLonMax :=
    (foldl_max_le.mp (le_refl _)).2 value hmem
  have hmoved : (if lon < (initLatLonMinMax g normalized).normalizedLonMin then lon + 360
      else lon) = value := by
    cases hturn with
    | inl hsame =>
      rw [if_neg (by rw [hsame]; exact not_lt.mpr hmin), hsame]
    | inr hwest =>
      have hlt : lon < (initLatLonMinMax g normalized).normalizedLonMin := by
        refine lt_foldl_min.mpr ⟨lt_of_le_of_lt hlon.2 lt_doubleMax, fun v hv => ?_⟩
        have := hnear v hv
        linarith
      rw [if_pos hlt, hwest, sub_add_cancel]
  unfold normalizeLon
  rw [if_neg (by rw [not_or, not_lt, not_lt]; exact hlon)]
  dsimp only
  rw [hmoved, if_neg (by rw [not_or, not_lt, not_lt]; exact ⟨hmin, hmax⟩)]

/-- Longitudes of a field of less than 180 degrees are normalised where storing them does not
round. -/
theorem longitudes_normalized (toFloat : T → T) (g : GeoCodingGrids T) (field : Int → Int → T)
    (hfield : ComesFromField g.lonGrid field) (hstored : StoredExactly toFloat g) :
    ∃ normalized flag, initNormalizedLonGrid toFloat g = .ok (normalized, flag) ∧
      NormalizesGrid g.lonGrid field normalized ∧ NormalizesTiePoints g normalized := by
  obtain ⟨n, hu⟩ := hfield.exists_unwraps
  obtain ⟨s, normalized, hs, hrun, hx, hy, htie⟩ := exists_initNormalizedLonGrid hu hstored
  -- the grid without turns has the same nodes
  have hsame (x y : Int) : normalized.HasNode x y ↔ g.lonGrid.HasNode x y := by
    constructor
    · exact fun h => ⟨h.x_nonneg, hx ▸ h.x_lt, h.y_nonneg, hy ▸ h.y_lt⟩
    · exact fun h => ⟨h.x_nonneg, hx ▸ h.x_lt, h.y_nonneg, hy ▸ h.y_lt⟩
  have hlength : normalized.tiePoints.length = g.lonGrid.tiePoints.length := by
    have hold := g.lonGrid.length_tiePoints
    have hnew := normalized.length_tiePoints
    rw [hx, hy] at hnew
    omega
  -- its nodes are the field's, all shifted by the same number of turns
  have hnode : ∀ x y, g.lonGrid.HasNode x y →
      normalized.node x y = field x y + 360 * ((n + s.turns : Int) : T) := by
    intro x y hxy
    obtain ⟨i, hi, hcolumn, hrow, hget⟩ := ((hsame x y).mpr hxy).exists_tiePoint
    rw [htie, hs.getElem?_shifted (hlength ▸ hi), Option.some.injEq, fieldAt, ← hx, hcolumn,
      hrow] at hget
    rw [← hget]
    push_cast
    ring
  -- and each was moved east by one turn or left as it was
  have hturn : ∀ x y, g.lonGrid.HasNode x y → g.lonGrid.node x y = normalized.node x y ∨
      g.lonGrid.node x y = normalized.node x y - 360 := by
    intro x y hxy
    obtain ⟨i, hi, hcolumn, hrow, hget⟩ := hxy.exists_tiePoint
    have hcases := hs.turn_shifted hu hget
    have hat : fieldAt g.lonGrid field n i + 360 * (s.turns : T) = normalized.node x y := by
      rw [hnode x y hxy, fieldAt, hcolumn, hrow]
      push_cast
      ring
    rw [hat] at hcases
    exact hcases
  -- so they lie as close to each other as the field's
  have hspan : ∀ x y x' y', g.lonGrid.HasNode x y → g.lonGrid.HasNode x' y' →
      |normalized.node x' y' - normalized.node x y| < 180 := by
    intro x y x' y' hxy hxy'
    rw [hnode x y hxy, hnode x' y' hxy', add_sub_add_right_eq_sub, abs_sub_lt_iff]
    exact ⟨hfield.span _ _ _ _ hxy' hxy, hfield.span _ _ _ _ hxy hxy'⟩
  refine ⟨normalized, _, hrun, ⟨⟨hx, hy⟩, ?_, fun x y h h' => hspan _ _ _ _ h h',
    fun x y h h' => hspan _ _ _ _ h h', ?_, n + s.turns, hnode⟩, ?_⟩
  · intro x y hxy
    cases hturn x y hxy with
    | inl hsame => exact ⟨0, by rw [hsame]; simp⟩
    | inr hmoved => exact ⟨1, by rw [hmoved]; simp⟩
  · intro x y hxy
    have hrange := (hfield.range x y hxy).1
    cases hturn x y hxy with
    | inl hsame =>
      rw [← hsame]
      exact hrange
    | inr hmoved => linarith
  · intro x y hxy
    obtain ⟨i, -, -, -, hget⟩ := ((hsame x y).mpr hxy).exists_tiePoint
    refine normalizeLon_eq (hfield.range x y hxy) (List.mem_of_getElem? hget) (hturn x y hxy)
      fun v hv => ?_
    obtain ⟨x', y', hxy', rfl⟩ := normalized.exists_hasNode hv
    exact (abs_sub_lt_iff.mp (hspan _ _ _ _ ((hsame x' y').mp hxy') hxy)).1

end Grid

end Normalization

/-! ## Two grids -/

/-- A line of two longitudes, twice. -/
def twoColumns (west east : ℚ) : GeoCodingGrids ℚ where
  latGrid := ⟨⟨"latitude", ⟨2, 0, 1, twoPoints_le, wholePixel_pos⟩,
    ⟨2, 0, 1, twoPoints_le, wholePixel_pos⟩, none⟩, [0, 0, 1, 1], rfl⟩
  lonGrid := ⟨⟨"longitude", ⟨2, 0, 1, twoPoints_le, wholePixel_pos⟩,
    ⟨2, 0, 1, twoPoints_le, wholePixel_pos⟩, none⟩, [west, east, west, east], rfl⟩
  same_width := rfl
  same_height := rfl
  size_lt := by decide

/-- The field of these longitudes where the second is in the west. -/
def twoColumnField (west east : ℚ) (x _y : Int) : ℚ := if x = 0 then west else east + 360

theorem twoColumns_node {west east : ℚ} {x y : Int}
    (h : (twoColumns west east).lonGrid.HasNode x y) :
    (x = 0 ∧ (twoColumns west east).lonGrid.node x y = west) ∨
      (x = 1 ∧ (twoColumns west east).lonGrid.node x y = east) := by
  have hx := h.x_nonneg
  have hxw : x < 2 := h.x_lt
  have hy := h.y_nonneg
  have hyh : y < 2 := h.y_lt
  have hcases : (x = 0 ∨ x = 1) ∧ (y = 0 ∨ y = 1) := by omega
  rcases hcases with ⟨rfl | rfl, rfl | rfl⟩
  · exact .inl ⟨rfl, rfl⟩
  · exact .inl ⟨rfl, rfl⟩
  · exact .inr ⟨rfl, rfl⟩
  · exact .inr ⟨rfl, rfl⟩

theorem twoColumns_comesFromField {west east : ℚ} (hwest : 0 ≤ west ∧ west ≤ 180)
    (heast : -180 ≤ east ∧ east ≤ 0) (hspan : east + 360 - west < 180) :
    ComesFromField (twoColumns west east).lonGrid (twoColumnField west east) where
  range x y h := by
    rcases twoColumns_node h with ⟨-, hnode⟩ | ⟨-, hnode⟩
    · rw [hnode]
      exact ⟨by linarith [hwest.1], hwest.2⟩
    · rw [hnode]
      exact ⟨heast.1, by linarith [heast.2]⟩
  turns x y h := by
    rcases twoColumns_node h with ⟨rfl, hnode⟩ | ⟨rfl, hnode⟩
    · exact ⟨0, by rw [hnode]; simp [twoColumnField]⟩
    · exact ⟨-1, by rw [hnode]; simp [twoColumnField]⟩
  span x y x' y' h h' := by
    have := hwest.2
    have := heast.1
    rcases twoColumns_node h with ⟨rfl, -⟩ | ⟨rfl, -⟩ <;>
      rcases twoColumns_node h' with ⟨rfl, -⟩ | ⟨rfl, -⟩ <;>
      simp only [twoColumnField, if_true, one_ne_zero, if_false] <;> linarith

/-- One degree and a bit west of Greenwich is stored as 359 degrees. -/
theorem longitudes_rounded :
    ComesFromField (twoColumns (359 / 2) (-65537 / 65536)).lonGrid
      (twoColumnField (359 / 2) (-65537 / 65536)) ∧
    ∃ normalized flag,
      initNormalizedLonGrid Binary32.round (twoColumns (359 / 2) (-65537 / 65536)) =
        .ok (normalized, flag) ∧
      ¬ NormalizesGrid (twoColumns (359 / 2) (-65537 / 65536)).lonGrid
        (twoColumnField (359 / 2) (-65537 / 65536)) normalized ∧
      ¬ NormalizesTiePoints (twoColumns (359 / 2) (-65537 / 65536)) normalized := by
  refine ⟨twoColumns_comesFromField (by norm_num) (by norm_num) (by norm_num),
    (twoColumns (359 / 2) 359).lonGrid, true, ?_, ?_, ?_⟩
  · have hlines : normalizeLines Binary32.round 2 2
        [359 / 2, -65537 / 65536, 359 / 2, -65537 / 65536] =
          .ok ⟨[359 / 2, 359, 359 / 2, 359], false, true⟩ := by decide +kernel
    unfold initNormalizedLonGrid
    show (normalizeLines Binary32.round 2 2
        [359 / 2, -65537 / 65536, 359 / 2, -65537 / 65536] >>= _) = _
    rw [hlines]
    rfl
  · intro h
    obtain ⟨n, hn⟩ := h.congruent 1 0 ⟨by decide, by decide, by decide, by decide⟩
    have hn : (359 : ℚ) = -65537 / 65536 + 360 * n := hn
    have hint : (65536 * 360 * n : ℚ) = ((65536 * 360 - 65536 + 65537 : Int) : ℚ) := by
      push_cast
      linarith
    have hint : 65536 * 360 * n = 65536 * 360 - 65536 + 65537 := by exact_mod_cast hint
    omega
  · intro h
    have hnode := h 1 0 ⟨by decide, by decide, by decide, by decide⟩
    revert hnode
    decide +kernel

/-- Across the antimeridian, half a degree from it. -/
theorem longitudes_normalized_antimeridian :
    ∃ normalized flag, initNormalizedLonGrid Binary32.round (twoColumns (359 / 2) (-359 / 2)) =
        .ok (normalized, flag) ∧
      NormalizesGrid (twoColumns (359 / 2) (-359 / 2)).lonGrid
        (twoColumnField (359 / 2) (-359 / 2)) normalized ∧
      NormalizesTiePoints (twoColumns (359 / 2) (-359 / 2)) normalized := by
  have hlines : normalizeLines id 2 2 [359 / 2, -359 / 2, 359 / 2, -359 / 2] =
      .ok (⟨[359 / 2, 361 / 2, 359 / 2, 361 / 2], false, true⟩ : LonNormalization ℚ) := by
    decide +kernel
  have hrounded : ∀ lon ∈ [(359 / 2 : ℚ), 361 / 2, 359 / 2, 361 / 2], Binary32.round lon = lon := by
    decide +kernel
  refine longitudes_normalized Binary32.round (twoColumns (359 / 2) (-359 / 2))
    (twoColumnField (359 / 2) (-359 / 2))
    (twoColumns_comesFromField (by norm_num) (by norm_num) (by norm_num)) ⟨?_, ?_⟩
  · intro s hs
    cases hs.symm.trans hlines
    exact hrounded
  · intro s hs
    cases hs.symm.trans hlines
    exact hrounded

end Alus.SnapEngine
