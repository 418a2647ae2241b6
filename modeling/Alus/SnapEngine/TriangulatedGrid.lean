import Mathlib.Data.Rat.Floor
import Alus.SnapEngine.TriangularInterpolation

/-!
# The grid of a triangulation

Whatever the order of the triangles, of their vertices and of the writes, triangular interpolation
should fill the grid points of the window that lie in the triangles with the values of the planes
through their vertices, leave the others alone, and report the bounds of the floors.

`test` takes the points on the edges of a triangle in or leaves them out, depending on the order of
its vertices. So the grid is filled in all orders exactly when no grid point lies on an edge and
the floors are in the range of `int`.
-/

namespace Alus.SnapEngine.Triangularinterpolation

open Alus.Lib

/-- What the callers pass: triangles that are not degenerate, lie beside each other and agree on
the values at common vertices, and arrays without a value. The triangulator leaves the vertices out
that have an invalid coordinate. The offset is zero, or is counted in steps of one by both
kernels. -/
structure Interpolation (n : Nat) (T : Type) [Field T] [LinearOrder T] where
  triangles : List (DelaunayTriangle2D T)
  params : TriangleInterpolationParams T
  zdata : Fin n → Zdata T
  nondegenerate : ∀ t ∈ triangles, (corners params t).area ≠ 0
  nonoverlap : triangles.Pairwise fun t t' =>
    ∀ p, ¬ ((corners params t).Interior p ∧ (corners params t').Interior p)
  values_agree : ∀ t ∈ triangles, ∀ t' ∈ triangles, ∀ d,
    (surface params (zdata d) t).Forall fun v =>
      (surface params (zdata d) t').Forall fun v' => v.1 = v'.1 → v.2 = v'.2
  valid : ∀ t ∈ triangles, (corners params t).Forall fun v =>
    v.1 ≠ params.invalidIndex ∧ v.2 ≠ params.invalidIndex
  xScale_pos : 0 < params.xScale
  yScale_pos : 0 < params.yScale
  xOffset : params.offset * params.xScale = params.offset
  yOffset : params.offset * params.yScale = params.offset
  outputHeight : ∀ d, params.window.pixels ≤ (zdata d).outputHeight
  unwritten : ∀ d k, (zdata d).outputArr k = none
  minInt_start : ∀ d, (zdata d).minInt = intMax
  maxInt_start : ∀ d, (zdata d).maxInt = intLowest
  triangles_fit : triangles.length ≤ 2147483647

/-- The grid point `i`, `j` is in the window. -/
def Window.Has (window : Window) (i j : Nat) : Prop := i < window.lines ∧ j < window.pixels

instance (window : Window) (i j : Nat) : Decidable (window.Has i j) :=
  inferInstanceAs (Decidable (_ ∧ _))

namespace Interpolation

variable {n : Nat} {T : Type} [Field T] [LinearOrder T]

section Spec

variable (s : Interpolation n T)

/-- A grid point of the window in the union of the triangles. -/
def Covers (i j : Nat) : Prop :=
  s.params.window.Has i j ∧ ∃ t ∈ s.triangles, (corners s.params t).Closed (gridPoint s.params i j)

/-- The element of a grid point in the array of a datum. -/
def cell (d : Fin n) (i j : Nat) : Int := i * (s.zdata d).outputHeight + j

variable [FloorRing T]

/-- A result of the launch, for some order of the triangles and of the vertices in them. -/
def Runs (result : Fin n → Zdata T) : Prop :=
  ∃ triangles, PermBy Triple.Reordered s.triangles triangles ∧
    LaunchInterpolation s.params s.zdata triangles result

/-- The values that a launch has written. -/
def written (data : Zdata T) : Set T := {v | ∃ k, data.outputArr k = some v}

/-- The array of a datum is filled, and its bounds are found. -/
structure FillsGrid (d : Fin n) : Prop where
  filled : ∀ result, s.Runs result → ∀ i j, s.Covers i j →
    ∃ t ∈ s.triangles, (corners s.params t).Closed (gridPoint s.params i j) ∧
      (result d).outputArr (s.cell d i j) =
        some ((surface s.params (s.zdata d) t).planeAt (gridPoint s.params i j))
  untouched : ∀ result, s.Runs result → ∀ k, (∀ i j, s.Covers i j → s.cell d i j ≠ k) →
    (result d).outputArr k = none
  bounds : ∀ result, s.Runs result → (written (result d)).Nonempty →
    IsLeast ((⌊·⌋) '' written (result d)) (result d).minInt ∧
      IsGreatest ((⌊·⌋) '' written (result d)) (result d).maxInt
  unique : ∀ result result', s.Runs result → s.Runs result' → result d = result' d

/-- The grid points of the window avoid the edges of the triangles, and the floors of the values
there are in the range of `int`. -/
def InGeneralPosition (d : Fin n) : Prop :=
  ∀ t ∈ s.triangles, ∀ i j, s.params.window.Has i j →
    (corners s.params t).Closed (gridPoint s.params i j) →
      (corners s.params t).Interior (gridPoint s.params i j) ∧
        Fits 32 ⌊(surface s.params (s.zdata d) t).planeAt (gridPoint s.params i j)⌋

end Spec

/-! ## One triangle -/

section Triangle

variable {s : Interpolation n T} {t : DelaunayTriangle2D T} {i j : Nat} {d : Fin n}

/-- `test` finds `p` in the triangle. -/
def Hits (params : TriangleInterpolationParams T) (t : DelaunayTriangle2D T) (p : T × T) : Prop :=
  ((corners params t).area < 0 ∧ (corners params t).Interior p) ∨
    (0 < (corners params t).area ∧ (corners params t).Closed p)

theorem Hits.closed {params : TriangleInterpolationParams T} {p : T × T} (h : Hits params t p) :
    (corners params t).Closed p := by
  rcases h with ⟨-, h⟩ | ⟨-, h⟩
  · exact h.closed
  · exact h

variable [FloorRing T] [IsStrictOrderedRing T]

theorem mem_iRange (harea : (corners s.params t).area ≠ 0) (hin : s.params.window.Has i j)
    (hclosed : (corners s.params t).Closed (gridPoint s.params i j)) :
    (iRange s.params t).1 ≤ i ∧ (i : Int) ≤ (iRange s.params t).2 := by
  have hbounds := hclosed.fst_bounds harea
  have hfit := s.params.window.lines_fit
  obtain ⟨hlines, -⟩ := hin
  refine mem_coveredIndices s.xScale_pos s.xOffset ?_ ?_ ?_ ?_
  · simp only [longLowest]
    omega
  · simp only [longMax]
    omega
  · rw [Int.cast_natCast]
    exact hbounds.1
  · rw [Int.cast_natCast]
    exact hbounds.2

theorem mem_jRange (harea : (corners s.params t).area ≠ 0) (hin : s.params.window.Has i j)
    (hclosed : (corners s.params t).Closed (gridPoint s.params i j)) :
    (jRange s.params t).1 ≤ j ∧ (j : Int) ≤ (jRange s.params t).2 := by
  have hbounds := hclosed.snd_bounds harea
  have hfit := s.params.window.pixels_fit
  obtain ⟨-, hpixels⟩ := hin
  refine mem_coveredIndices s.yScale_pos s.yOffset ?_ ?_ ?_ ?_
  · simp only [longLowest]
    omega
  · simp only [longMax]
    omega
  · rw [Int.cast_natCast]
    exact hbounds.1
  · rw [Int.cast_natCast]
    exact hbounds.2

/-- A triangle whose vertices are valid is accepted, if it has a grid point of the window. -/
theorem findValidTriangle_eq_some (harea : (corners s.params t).area ≠ 0)
    (hvalid : (corners s.params t).Forall fun v =>
      v.1 ≠ s.params.invalidIndex ∧ v.2 ≠ s.params.invalidIndex)
    (hin : s.params.window.Has i j)
    (hclosed : (corners s.params t).Closed (gridPoint s.params i j)) :
    findValidTriangle s.params s.zdata t = some (acceptTriangle s.params s.zdata t) := by
  obtain ⟨⟨hax, hay⟩, ⟨hbx, hby⟩, hcx, hcy⟩ := hvalid
  have hi := mem_iRange harea hin hclosed
  have hj := mem_jRange harea hin hclosed
  obtain ⟨hlines, hpixels⟩ := hin
  rw [findValidTriangle, if_neg, if_neg]
  · omega
  · rintro (h | h | h | h | h | h)
    · exact hax h
    · exact hbx h
    · exact hcx h
    · exact hay h
    · exact hby h
    · exact hcy h

omit [IsStrictOrderedRing T] in
theorem of_findValidTriangle {triangle : AcceptedTriangle n T}
    (h : findValidTriangle s.params s.zdata t = some triangle) :
    triangle = acceptTriangle s.params s.zdata t := by
  simp only [findValidTriangle] at h
  split at h
  · cases h
  · split at h
    · cases h
    · exact (Option.some.inj h).symm

theorem finds_iff (harea : (corners s.params t).area ≠ 0) :
    Finds s.params (acceptTriangle s.params s.zdata t) i j ↔
      Hits s.params t (gridPoint s.params i j) :=
  test_iff harea (gridPoint s.params i j)

theorem writeAt_acceptTriangle (harea : (corners s.params t).area ≠ 0) :
    writeAt s.params s.zdata (acceptTriangle s.params s.zdata t) d i j =
      ⟨d, s.cell d i j, (surface s.params (s.zdata d) t).planeAt (gridPoint s.params i j)⟩ := by
  rw [← planeOf_eq_planeAt harea]
  rfl

end Triangle

/-! ## Reordered triangles -/

section Reordered

variable {params : TriangleInterpolationParams T} {t t' : DelaunayTriangle2D T}

omit [LinearOrder T] in
theorem reordered_corners (h : Triple.Reordered t t') :
    Triple.Reordered (corners params t) (corners params t') :=
  h.map _

omit [LinearOrder T] in
theorem reordered_surface (h : Triple.Reordered t t') (data : Zdata T) :
    Triple.Reordered (surface params data t) (surface params data t') :=
  h.map _

/-- The same triangle with its vertices in the order that leaves the edges out. -/
def turned (params : TriangleInterpolationParams T) (t : DelaunayTriangle2D T) :
    DelaunayTriangle2D T :=
  if (corners params t).area < 0 then t else ⟨t.b, t.a, t.c⟩

theorem reordered_turned (params : TriangleInterpolationParams T) (t : DelaunayTriangle2D T) :
    Triple.Reordered t (turned params t) := by
  unfold turned
  split
  · exact .refl t
  · exact .swap t

variable [IsStrictOrderedRing T]

theorem area_turned_neg (harea : (corners params t).area ≠ 0) :
    (corners params (turned params t)).area < 0 := by
  unfold turned
  split
  · assumption
  · next hpos =>
    have hswap : (corners params ⟨t.b, t.a, t.c⟩).area = -(corners params t).area :=
      Triple.area_swap (corners params t)
    rw [hswap, neg_lt_zero]
    exact lt_of_le_of_ne (not_lt.mp hpos) harea.symm

/-- Turned this way, the triangle is found from inside only. -/
theorem Hits.interior {p : T × T} (h : Hits params (turned params t) p)
    (harea : (corners params t).area ≠ 0) : (corners params t).Interior p := by
  rcases h with ⟨-, hinterior⟩ | ⟨hpos, -⟩
  · exact ((reordered_corners (reordered_turned params t)).interior_iff p).mp hinterior
  · exact absurd hpos (not_lt.mpr (area_turned_neg harea).le)

omit [IsStrictOrderedRing T] in
/-- From inside a triangle is always found. -/
theorem hits_of_interior {p : T × T} (h : Triple.Reordered t t')
    (harea : (corners params t).area ≠ 0) (hinterior : (corners params t).Interior p) :
    Hits params t' p := by
  have hinterior' : (corners params t').Interior p :=
    ((reordered_corners h).interior_iff p).mpr hinterior
  have harea' : (corners params t').area ≠ 0 := (reordered_corners h).area_ne_zero.mpr harea
  rcases lt_or_gt_of_ne harea' with hneg | hpos
  · exact .inl ⟨hneg, hinterior'⟩
  · exact .inr ⟨hpos, hinterior'.closed⟩

end Reordered

/-! ## The writes of a run -/

section Run

variable [FloorRing T] [IsStrictOrderedRing T] {s : Interpolation n T}
  {triangles : List (DelaunayTriangle2D T)} {accepted : List (AcceptedTriangle n T)}

omit [FloorRing T] [IsStrictOrderedRing T] in
theorem area_ne_zero (hperm : PermBy Triple.Reordered s.triangles triangles)
    {t : DelaunayTriangle2D T} (ht : t ∈ triangles) : (corners s.params t).area ≠ 0 := by
  obtain ⟨t₀, ht₀, hreordered⟩ := hperm.exists_left ht
  exact (reordered_corners hreordered).area_ne_zero.mpr (s.nondegenerate t₀ ht₀)

omit [IsStrictOrderedRing T] in
theorem mem_accepted
    (haccepted : accepted.Perm (triangles.filterMap (findValidTriangle s.params s.zdata)))
    {triangle : AcceptedTriangle n T} : triangle ∈ accepted ↔
      ∃ t ∈ triangles, findValidTriangle s.params s.zdata t = some triangle := by
  rw [haccepted.mem_iff, List.mem_filterMap]

omit [IsStrictOrderedRing T] in
theorem length_accepted_le (hperm : PermBy Triple.Reordered s.triangles triangles)
    (haccepted : accepted.Perm (triangles.filterMap (findValidTriangle s.params s.zdata))) :
    accepted.length ≤ 2147483647 :=
  calc accepted.length
      = (triangles.filterMap (findValidTriangle s.params s.zdata)).length := haccepted.length_eq
    _ ≤ triangles.length := List.length_filterMap_le _ _
    _ = s.triangles.length := hperm.length_eq.symm
    _ ≤ 2147483647 := s.triangles_fit

/-- A run writes the values of the planes where `test` finds the grid points of the window. -/
theorem mem_writes (hperm : PermBy Triple.Reordered s.triangles triangles)
    (haccepted : accepted.Perm (triangles.filterMap (findValidTriangle s.params s.zdata)))
    {w : Write n T} : w ∈ interpolateWrites s.params s.zdata accepted ↔
      ∃ t ∈ triangles, ∃ i j, s.params.window.Has i j ∧
        Hits s.params t (gridPoint s.params i j) ∧ ∃ d, w = ⟨d, s.cell d i j,
          (surface s.params (s.zdata d) t).planeAt (gridPoint s.params i j)⟩ := by
  have hcount := length_accepted_le hperm haccepted
  have hmin : ∀ triangle ∈ accepted, 0 ≤ triangle.dto.iMin ∧ 0 ≤ triangle.dto.jMin := by
    intro triangle htriangle
    obtain ⟨t, -, hfound⟩ := (mem_accepted haccepted).mp htriangle
    rw [of_findValidTriangle hfound]
    exact ⟨(clipToRegion_bounds _ s.params.window.lines).1,
      (clipToRegion_bounds _ s.params.window.pixels).1⟩
  rw [mem_interpolateWrites hcount hmin]
  constructor
  · rintro ⟨triangle, htriangle, i, j, ⟨-, hi⟩, ⟨-, hj⟩, hfinds, d, rfl⟩
    obtain ⟨t, ht, hfound⟩ := (mem_accepted haccepted).mp htriangle
    have harea := area_ne_zero hperm ht
    rw [of_findValidTriangle hfound] at hi hj hfinds ⊢
    refine ⟨t, ht, i, j, ⟨?_, ?_⟩, (finds_iff harea).mp hfinds, d, writeAt_acceptTriangle harea⟩
    · exact lt_of_le_of_lt hi (clipToRegion_bounds _ _).2
    · exact lt_of_le_of_lt hj (clipToRegion_bounds _ _).2
  · rintro ⟨t, ht, i, j, hin, hhits, d, rfl⟩
    obtain ⟨t₀, ht₀, hreordered⟩ := hperm.exists_left ht
    have harea := area_ne_zero hperm ht
    have hvalid := (reordered_corners hreordered).forall_iff.mpr (s.valid t₀ ht₀)
    have hfound := findValidTriangle_eq_some harea hvalid hin hhits.closed
    refine ⟨_, (mem_accepted haccepted).mpr ⟨t, ht, hfound⟩, i, j, ?_, ?_,
      (finds_iff harea).mpr hhits, d, (writeAt_acceptTriangle harea).symm⟩
    · exact (mem_clipToRegion (Int.natCast_nonneg i) hin.1).mpr (mem_iRange harea hin hhits.closed)
    · exact (mem_clipToRegion (Int.natCast_nonneg j) hin.2).mpr (mem_jRange harea hin hhits.closed)

variable {result : Fin n → Zdata T} {d : Fin n}

/-- What a run leaves in an array is the value of a plane where a triangle is found. -/
theorem of_launch (hperm : PermBy Triple.Reordered s.triangles triangles)
    (hlaunch : LaunchInterpolation s.params s.zdata triangles result) {k : Int} {v : T}
    (h : (result d).outputArr k = some v) :
    ∃ t ∈ triangles, ∃ i j, s.params.window.Has i j ∧ Hits s.params t (gridPoint s.params i j) ∧
      s.cell d i j = k ∧
        v = (surface s.params (s.zdata d) t).planeAt (gridPoint s.params i j) := by
  obtain ⟨accepted, haccepted, writes, hwrites, rfl⟩ := hlaunch
  rcases of_foldl_write_outputArr h with hbefore | hmem
  · rw [s.unwritten] at hbefore
    cases hbefore
  · obtain ⟨t, ht, i, j, hin, hhits, d', hw⟩ :=
      (mem_writes hperm haccepted).mp (hwrites.mem_iff.mp hmem)
    rw [Write.mk.injEq] at hw
    obtain ⟨rfl, rfl, rfl⟩ := hw
    exact ⟨t, ht, i, j, hin, hhits, rfl, rfl⟩

omit [IsStrictOrderedRing T] in
/-- The bounds stay in the range of `int`. -/
theorem bounds_of_launch (hlaunch : LaunchInterpolation s.params s.zdata triangles result) :
    intLowest ≤ (result d).minInt ∧ (result d).maxInt ≤ intMax := by
  obtain ⟨accepted, -, writes, -, rfl⟩ := hlaunch
  have hle : intLowest ≤ intMax := by decide
  refine ⟨le_foldl_write_minInt.mpr ⟨?_, ?_⟩, foldl_write_maxInt_le.mpr ⟨?_, ?_⟩⟩
  · rw [s.minInt_start]
    exact hle
  · exact fun w _ _ => (clampTo_mem hle _).1
  · rw [s.maxInt_start]
    exact hle
  · exact fun w _ _ => (clampTo_mem hle _).2

omit [FloorRing T] [IsStrictOrderedRing T] in
theorem cell_inj {i j i' j' : Nat} (hin : s.params.window.Has i j)
    (hin' : s.params.window.Has i' j') (h : s.cell d i j = s.cell d i' j') : i = i' ∧ j = j' := by
  obtain ⟨-, hj⟩ := hin
  obtain ⟨-, hj'⟩ := hin'
  have hheight := s.outputHeight d
  obtain ⟨height, hcast⟩ := Int.eq_ofNat_of_zero_le (show 0 ≤ (s.zdata d).outputHeight by omega)
  simp only [cell, hcast] at h
  have hrow : j = j' ∧ i = i' := by
    have hlt : j < height ∧ j' < height := by omega
    exact row_index_inj hlt.1 hlt.2 (by exact_mod_cast h)
  exact ⟨hrow.2, hrow.1⟩

omit [FloorRing T] in
/-- A point inside one triangle is on no other one. -/
theorem eq_of_interior {t t' : DelaunayTriangle2D T} (ht : t ∈ s.triangles)
    (ht' : t' ∈ s.triangles) {p : T × T} (hclosed : (corners s.params t).Closed p)
    (hinterior : (corners s.params t').Interior p) : t = t' := by
  by_contra hne
  obtain ⟨q, hq, hq'⟩ := hclosed.exists_interior (s.nondegenerate t ht) hinterior
  have hsymm : Std.Symm fun t t' : DelaunayTriangle2D T =>
      ∀ p, ¬ ((corners s.params t).Interior p ∧ (corners s.params t').Interior p) :=
    ⟨fun t t' h p hp => h p ⟨hp.2, hp.1⟩⟩
  exact s.nonoverlap.forall ht ht' hne q ⟨hq, hq'⟩

/-- In general position every run leaves the same array. -/
theorem outputArr_eq_some_iff (hgeneral : s.InGeneralPosition d) (hrun : s.Runs result) {k : Int}
    {v : T} : (result d).outputArr k = some v ↔
      ∃ t ∈ s.triangles, ∃ i j, s.params.window.Has i j ∧
        (corners s.params t).Closed (gridPoint s.params i j) ∧ s.cell d i j = k ∧
          v = (surface s.params (s.zdata d) t).planeAt (gridPoint s.params i j) := by
  obtain ⟨triangles, hperm, hlaunch⟩ := hrun
  have hforward : ∀ {v : T}, (result d).outputArr k = some v → ∃ t ∈ s.triangles, ∃ i j,
      s.params.window.Has i j ∧ (corners s.params t).Closed (gridPoint s.params i j) ∧
        s.cell d i j = k ∧
          v = (surface s.params (s.zdata d) t).planeAt (gridPoint s.params i j) := by
    intro v h
    obtain ⟨t', ht', i, j, hin, hhits, hcell, hv⟩ := of_launch hperm hlaunch h
    obtain ⟨t, ht, hreordered⟩ := hperm.exists_left ht'
    refine ⟨t, ht, i, j, hin, ?_, hcell, ?_⟩
    · exact ((reordered_corners hreordered).closed_iff _).mp hhits.closed
    · rw [hv, (reordered_surface hreordered (s.zdata d)).planeAt_eq]
  refine ⟨hforward, ?_⟩
  rintro ⟨t, ht, i, j, hin, hclosed, rfl, rfl⟩
  have hinterior := (hgeneral t ht i j hin hclosed).1
  obtain ⟨t', ht', hreordered⟩ := hperm.exists_right ht
  -- the triangle is found, so that something is written
  have hsome : ((result d).outputArr (s.cell d i j)).isSome := by
    obtain ⟨accepted, haccepted, writes, hwrites, rfl⟩ := hlaunch
    refine isSome_foldl_write_outputArr (.inr ⟨_, hwrites.mem_iff.mpr
      ((mem_writes hperm haccepted).mpr ⟨t', ht', i, j, hin, ?_, d, rfl⟩)⟩)
    exact hits_of_interior hreordered (s.nondegenerate t ht) hinterior
  obtain ⟨v, hv⟩ := Option.isSome_iff_exists.mp hsome
  -- and nothing but the value of its plane
  obtain ⟨t'', ht'', i', j', hin', hclosed', hcell, rfl⟩ := hforward hv
  obtain ⟨rfl, rfl⟩ := cell_inj hin' hin hcell
  rw [hv, eq_of_interior ht'' ht hclosed' hinterior]

/-- The values that the bounds have seen are those that are left in the array. -/
theorem exists_write_iff (hgeneral : s.InGeneralPosition d)
    (hperm : PermBy Triple.Reordered s.triangles triangles)
    (haccepted : accepted.Perm (triangles.filterMap (findValidTriangle s.params s.zdata)))
    {writes : List (Write n T)}
    (hwrites : writes.Perm (interpolateWrites s.params s.zdata accepted)) {v : T} :
    (∃ w ∈ writes, w.datum = d ∧ w.value = v) ↔ v ∈ written (writes.foldl write s.zdata d) := by
  have hlaunch : LaunchInterpolation s.params s.zdata triangles (writes.foldl write s.zdata) :=
    ⟨accepted, haccepted, writes, hwrites, rfl⟩
  constructor
  · rintro ⟨w, hw, rfl, rfl⟩
    obtain ⟨t', ht', i, j, hin, hhits, d', rfl⟩ :=
      (mem_writes hperm haccepted).mp (hwrites.mem_iff.mp hw)
    obtain ⟨t, ht, hreordered⟩ := hperm.exists_left ht'
    refine ⟨s.cell d' i j, (outputArr_eq_some_iff hgeneral ⟨triangles, hperm, hlaunch⟩).mpr
      ⟨t, ht, i, j, hin, ?_, rfl, ?_⟩⟩
    · exact ((reordered_corners hreordered).closed_iff _).mp hhits.closed
    · exact (reordered_surface hreordered _).planeAt_eq _
  · rintro ⟨k, hk⟩
    rcases of_foldl_write_outputArr hk with hbefore | hmem
    · rw [s.unwritten] at hbefore
      cases hbefore
    · exact ⟨_, hmem, rfl, rfl⟩

theorem forall_written_iff (hgeneral : s.InGeneralPosition d)
    (hperm : PermBy Triple.Reordered s.triangles triangles)
    (haccepted : accepted.Perm (triangles.filterMap (findValidTriangle s.params s.zdata)))
    {writes : List (Write n T)}
    (hwrites : writes.Perm (interpolateWrites s.params s.zdata accepted)) (p : T → Prop) :
    (∀ w ∈ writes, w.datum = d → p w.value) ↔
      ∀ v ∈ written (writes.foldl write s.zdata d), p v := by
  constructor
  · intro h v hv
    obtain ⟨w, hw, hd, rfl⟩ := (exists_write_iff hgeneral hperm haccepted hwrites).mpr hv
    exact h w hw hd
  · intro h w hw hd
    exact h w.value ((exists_write_iff hgeneral hperm haccepted hwrites).mp ⟨w, hw, hd, rfl⟩)

theorem le_minInt_iff (hgeneral : s.InGeneralPosition d) (hrun : s.Runs result) {c : Int} :
    c ≤ (result d).minInt ↔ c ≤ intMax ∧ ∀ v ∈ written (result d), c ≤ intOfFloor v := by
  obtain ⟨triangles, hperm, accepted, haccepted, writes, hwrites, rfl⟩ := hrun
  rw [le_foldl_write_minInt, s.minInt_start]
  exact and_congr_right fun _ =>
    forall_written_iff hgeneral hperm haccepted hwrites fun v => c ≤ intOfFloor v

theorem maxInt_le_iff (hgeneral : s.InGeneralPosition d) (hrun : s.Runs result) {c : Int} :
    (result d).maxInt ≤ c ↔ intLowest ≤ c ∧ ∀ v ∈ written (result d), intOfFloor v ≤ c := by
  obtain ⟨triangles, hperm, accepted, haccepted, writes, hwrites, rfl⟩ := hrun
  rw [foldl_write_maxInt_le, s.maxInt_start]
  exact and_congr_right fun _ =>
    forall_written_iff hgeneral hperm haccepted hwrites fun v => intOfFloor v ≤ c

theorem intOfFloor_of_written (hgeneral : s.InGeneralPosition d) (hrun : s.Runs result) {v : T}
    (hv : v ∈ written (result d)) : Fits 32 ⌊v⌋ ∧ intOfFloor v = ⌊v⌋ := by
  obtain ⟨k, hk⟩ := hv
  obtain ⟨t, ht, i, j, hin, hclosed, -, rfl⟩ := (outputArr_eq_some_iff hgeneral hrun).mp hk
  have hfits := (hgeneral t ht i j hin hclosed).2
  have hbounds := fits32_iff.mp hfits
  exact ⟨hfits, clampTo_of_mem hbounds.1 (Int.lt_add_one_iff.mp hbounds.2)⟩

/-- On the values that are left, the floor and its conversion to `int` agree. -/
theorem forall_floor_iff (hgeneral : s.InGeneralPosition d) (hrun : s.Runs result)
    (P : Int → Prop) : (∀ z ∈ (⌊·⌋) '' written (result d), P z) ↔
      ∀ v ∈ written (result d), P (intOfFloor v) := by
  rw [Set.forall_mem_image]
  refine forall₂_congr fun v hv => ?_
  rw [(intOfFloor_of_written hgeneral hrun hv).2]

theorem isLeast_minInt (hgeneral : s.InGeneralPosition d) (hrun : s.Runs result)
    (hne : (written (result d)).Nonempty) :
    IsLeast ((⌊·⌋) '' written (result d)) (result d).minInt := by
  refine isLeast_of_le_iff intMax (hne.image _) ?_ fun c => ?_
  · rintro z ⟨v, hv, rfl⟩
    exact Int.lt_add_one_iff.mp (fits32_iff.mp (intOfFloor_of_written hgeneral hrun hv).1).2
  · rw [le_minInt_iff hgeneral hrun, forall_floor_iff hgeneral hrun]

theorem isGreatest_maxInt (hgeneral : s.InGeneralPosition d) (hrun : s.Runs result)
    (hne : (written (result d)).Nonempty) :
    IsGreatest ((⌊·⌋) '' written (result d)) (result d).maxInt := by
  refine isGreatest_of_le_iff intLowest (hne.image _) ?_ fun c => ?_
  · rintro z ⟨v, hv, rfl⟩
    exact (fits32_iff.mp (intOfFloor_of_written hgeneral hrun hv).1).1
  · rw [maxInt_le_iff hgeneral hrun, forall_floor_iff hgeneral hrun]

/-- In general position the order makes no difference. -/
theorem eq_of_runs (hgeneral : s.InGeneralPosition d) {result' : Fin n → Zdata T}
    (hrun : s.Runs result) (hrun' : s.Runs result') : result d = result' d := by
  have harray : (result d).outputArr = (result' d).outputArr := by
    funext k
    ext v
    rw [outputArr_eq_some_iff hgeneral hrun, outputArr_eq_some_iff hgeneral hrun']
  have hwritten : written (result d) = written (result' d) := by
    rw [written, written, harray]
  have hmin : (result d).minInt = (result' d).minInt := by
    refine eq_of_forall_le_iff fun c => ?_
    rw [le_minInt_iff hgeneral hrun, le_minInt_iff hgeneral hrun', hwritten]
  have hmax : (result d).maxInt = (result' d).maxInt := by
    refine eq_of_forall_ge_iff fun c => ?_
    rw [maxInt_le_iff hgeneral hrun, maxInt_le_iff hgeneral hrun', hwritten]
  obtain ⟨triangles, -, accepted, -, writes, -, rfl⟩ := hrun
  obtain ⟨triangles', -, accepted', -, writes', -, rfl⟩ := hrun'
  obtain ⟨hinput, hinputHeight, houtputHeight⟩ := foldl_write_frame writes s.zdata d
  obtain ⟨hinput', hinputHeight', houtputHeight'⟩ := foldl_write_frame writes' s.zdata d
  apply Zdata.ext
  · exact hinput.trans hinput'.symm
  · exact hinputHeight.trans hinputHeight'.symm
  · exact harray
  · exact houtputHeight.trans houtputHeight'.symm
  · exact hmin
  · exact hmax

omit [IsStrictOrderedRing T] in
/-- The run that takes the triangles as they come, with their vertices turned. -/
theorem exists_turned_run (s : Interpolation n T) :
    ∃ result, PermBy Triple.Reordered s.triangles (s.triangles.map (turned s.params)) ∧
      LaunchInterpolation s.params s.zdata (s.triangles.map (turned s.params)) result :=
  ⟨_, .map fun t _ => reordered_turned s.params t, _, .refl _, _, .refl _, rfl⟩

end Run

variable [FloorRing T] [IsStrictOrderedRing T] (s : Interpolation n T) (d : Fin n)

theorem fillsGrid_of_inGeneralPosition (h : s.InGeneralPosition d) : s.FillsGrid d where
  filled := by
    rintro result hrun i j ⟨hin, t, ht, hclosed⟩
    exact ⟨t, ht, hclosed,
      (outputArr_eq_some_iff h hrun).mpr ⟨t, ht, i, j, hin, hclosed, rfl, rfl⟩⟩
  untouched := by
    intro result hrun k hk
    refine Option.eq_none_iff_forall_ne_some.mpr fun v hv => ?_
    obtain ⟨t, ht, i, j, hin, hclosed, hcell, -⟩ := (outputArr_eq_some_iff h hrun).mp hv
    exact hk i j ⟨hin, t, ht, hclosed⟩ hcell
  bounds result hrun hne := ⟨isLeast_minInt h hrun hne, isGreatest_maxInt h hrun hne⟩
  unique result result' hrun hrun' := eq_of_runs h hrun hrun'

theorem inGeneralPosition_of_fillsGrid (h : s.FillsGrid d) : s.InGeneralPosition d := by
  intro t ht i j hin hclosed
  obtain ⟨result, hperm, hlaunch⟩ := exists_turned_run s
  have hrun : s.Runs result := ⟨_, hperm, hlaunch⟩
  obtain ⟨t₁, -, -, hwritten⟩ := h.filled result hrun i j ⟨hin, t, ht, hclosed⟩
  -- who has written the element has found the point inside, and so is the triangle itself
  obtain ⟨t', ht', i', j', hin', hhits, hcell, hv⟩ := of_launch hperm hlaunch hwritten
  obtain ⟨t₂, ht₂, rfl⟩ := List.mem_map.mp ht'
  obtain ⟨rfl, rfl⟩ := cell_inj hin' hin hcell
  have hinterior := hhits.interior (s.nondegenerate t₂ ht₂)
  obtain rfl := eq_of_interior ht ht₂ hclosed hinterior
  rw [(reordered_surface (reordered_turned s.params t) (s.zdata d)).planeAt_eq] at hv
  rw [hv] at hwritten
  refine ⟨hinterior, fits32_iff.mpr ?_⟩
  -- the bounds do not leave the range of `int`
  have hmem : (surface s.params (s.zdata d) t).planeAt (gridPoint s.params i' j') ∈
      written (result d) := ⟨_, hwritten⟩
  have hbounds := h.bounds result hrun ⟨_, hmem⟩
  have hrange := bounds_of_launch (d := d) hlaunch
  exact ⟨hrange.1.trans (hbounds.1.2 ⟨_, hmem, rfl⟩),
    Int.lt_add_one_iff.mpr ((hbounds.2.2 ⟨_, hmem, rfl⟩).trans hrange.2)⟩

/-- Interpolation fills the grid in every order exactly when the triangulation is in general
position. -/
theorem fillsGrid_iff : s.FillsGrid d ↔ s.InGeneralPosition d :=
  ⟨inGeneralPosition_of_fillsGrid s d, fillsGrid_of_inGeneralPosition s d⟩

/-- A window of three lines and three pixels at the origin. -/
def unitParams : TriangleInterpolationParams ℚ where
  xyRatio := 1
  xScale := 1
  yScale := 1
  offset := 0
  invalidIndex := -9999
  window := ⟨0, 0, 3, 3, by decide, by decide⟩

/-- The indices as values. -/
def indexData : Zdata ℚ where
  inputArr k := k
  inputHeight := 3
  outputArr _ := none
  outputHeight := 3
  minInt := intMax
  maxInt := intLowest

/-- The interpolation of a single triangle. -/
def oneTriangle (t : DelaunayTriangle2D ℚ) (harea : (corners unitParams t).area ≠ 0)
    (hagree : (surface unitParams indexData t).Forall fun v =>
      (surface unitParams indexData t).Forall fun v' => v.1 = v'.1 → v.2 = v'.2)
    (hvalid : (corners unitParams t).Forall fun v => v.1 ≠ -9999 ∧ v.2 ≠ -9999) :
    Interpolation 1 ℚ where
  triangles := [t]
  params := unitParams
  zdata _ := indexData
  nondegenerate := List.forall_mem_singleton.mpr harea
  nonoverlap := List.pairwise_singleton _ _
  values_agree := List.forall_mem_singleton.mpr (List.forall_mem_singleton.mpr fun _ => hagree)
  valid := List.forall_mem_singleton.mpr hvalid
  xScale_pos := one_pos
  yScale_pos := one_pos
  xOffset := zero_mul 1
  yOffset := zero_mul 1
  outputHeight _ := le_rfl
  unwritten _ _ := rfl
  minInt_start _ := rfl
  maxInt_start _ := rfl
  triangles_fit := by simp

/-- A triangle around the window. -/
def wideTriangle : Interpolation 1 ℚ :=
  oneTriangle ⟨⟨-1, -1, 0⟩, ⟨-1, 8, 1⟩, ⟨8, -1, 2⟩⟩ (by decide +kernel) (by decide +kernel)
    (by decide +kernel)

theorem fillsGrid_wideTriangle : wideTriangle.FillsGrid 0 := by
  refine (fillsGrid_iff wideTriangle 0).mpr (List.forall_mem_singleton.mpr fun i j hin _ => ?_)
  have hpoints : ∀ i < 3, ∀ j < 3,
      (corners unitParams ⟨⟨-1, -1, 0⟩, ⟨-1, 8, 1⟩, ⟨8, -1, 2⟩⟩).Interior
        (gridPoint unitParams i j) ∧ Fits 32 ⌊(surface unitParams indexData
          ⟨⟨-1, -1, 0⟩, ⟨-1, 8, 1⟩, ⟨8, -1, 2⟩⟩).planeAt (gridPoint unitParams i j)⌋ := by
    decide +kernel
  exact hpoints i (Int.ofNat_lt.mp hin.1) j (Int.ofNat_lt.mp hin.2)

/-- A triangle whose grid points all lie on its edges. -/
def cornerTriangle : Interpolation 1 ℚ :=
  oneTriangle ⟨⟨0, 0, 0⟩, ⟨0, 2, 1⟩, ⟨2, 0, 2⟩⟩ (by decide +kernel) (by decide +kernel)
    (by decide +kernel)

/-- With the vertices in one order all six of its grid points are written, in the other none. -/
theorem not_fillsGrid_cornerTriangle : ¬ cornerTriangle.FillsGrid 0 := by
  intro h
  have hgeneral := inGeneralPosition_of_fillsGrid cornerTriangle 0 h _ (List.mem_singleton_self _)
    0 0 (by decide +kernel) (by decide +kernel)
  exact absurd hgeneral.1 (by decide +kernel)

end Interpolation

end Alus.SnapEngine.Triangularinterpolation
