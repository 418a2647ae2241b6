import Mathlib.Algebra.Field.Rat
import Mathlib.Algebra.Order.Ring.Int
import Mathlib.Data.List.ProdSigma
import Mathlib.Tactic.Ring
import Alus.Lib.GridRange
import Alus.Lib.IntRange
import Alus.Lib.Numerals
import Alus.S1tbx.ValidArea

/-!
# The lines of a geolocation grid

`FillSubswathMetaData` (`sentinel1_utils.cc`) stores the points of an annotation in five arrays,
and adds lines at the bottom when there are not more lines than bursts. How many points a line has
follows from the list; how many lines there are, from the declared number of points. The memory of
the arrays is not initialised. The arithmetic is exact.
-/

namespace Alus.S1tbx.GeolocationGridFill

open Alus.Lib ValidArea

/-! ## The list of points -/

/-- An element of the list. Its azimuth time is a modified Julian date. -/
structure GeoPoint (F : Type) where
  line : Int
  azimuthTime : F
  slantRangeTime : F
  latitude : F
  longitude : F
  incidenceAngle : F

/-- The arrays of `SubSwathInfo`. -/
inductive Quantity where
  | azimuthTime
  | slantRangeTime
  | latitude
  | longitude
  | incidenceAngle
  deriving DecidableEq, Repr

/-- The arrays in the order of the assignments. -/
def quantities : List Quantity :=
  [.azimuthTime, .slantRangeTime, .latitude, .longitude, .incidenceAngle]

theorem mem_quantities (q : Quantity) : q ∈ quantities := by cases q <;> decide

/-- An element of an array. -/
structure Cell where
  quantity : Quantity
  line : Int
  point : Nat
  deriving DecidableEq, Repr

section Fill

variable {F : Type} [Field F]

/-- What is stored of a point. -/
def GeoPoint.stored (point : GeoPoint F) : Quantity → F
  | .azimuthTime => point.azimuthTime * (secondsInDay : F)
  | .slantRangeTime => point.slantRangeTime / 2
  | .latitude => point.latitude
  | .longitude => point.longitude
  | .incidenceAngle => point.incidenceAngle

/-- The fields of `SubSwathInfo` that hold the grid. -/
structure GeolocationGrid (F : Type) where
  numOfGeoLines : Int
  numOfGeoPointsPerLine : Nat
  cells : Cell → Option F

/-- The points before the first change of the line. -/
def geoPointsPerLine (points : List (GeoPoint F)) : Nat :=
  match points with
  | [] => 0
  | first :: _ => (points.takeWhile fun point => point.line = first.line).length

/-- `array[i]` has a row for each line of the grid. -/
def rowOf (numOfGeoLines i : Int) : Outcome PUnit :=
  if 0 ≤ i ∧ i < numOfGeoLines then .ok ⟨⟩ else .undefined

/-- `array[i][j]` for the point `k`. -/
def pointCell (perLine k : Nat) (quantity : Quantity) : Cell :=
  let i := k / perLine
  let j := k - i * perLine
  ⟨quantity, i, j⟩

/-- One of the assignments for the point `k`. -/
def storePoint (numOfGeoLines : Int) (perLine : Nat) :
    (Cell → Option F) → (GeoPoint F × Nat) × Quantity → Outcome (Cell → Option F) :=
  storeValue (fun entry => pointCell perLine entry.1.2 entry.2) fun _ entry => do
    rowOf numOfGeoLines (pointCell perLine entry.1.2 entry.2).line
    return entry.1.1.stored entry.2

/-- The value of a missing line, continued from two lines. -/
def continued (firstMissingLineIdx lineIdx : Int) (last beforeLast : F) : F :=
  -- the line before the missing ones has the weight 1
  let mu : F := ((lineIdx - firstMissingLineIdx : Int) : F) + 2
  mu * last + (1 - mu) * beforeLast

/-- One of the assignments of the extrapolation. -/
def storeMissing (numOfGeoLines firstMissingLineIdx : Int) :
    (Cell → Option F) → Cell → Outcome (Cell → Option F) :=
  storeValue id fun m cell => do
    rowOf numOfGeoLines cell.line
    let last ← readCell m { cell with line := firstMissingLineIdx - 1 }
    let beforeLast ← readCell m { cell with line := firstMissingLineIdx - 2 }
    return continued firstMissingLineIdx cell.line last beforeLast

/-- The cells of the missing lines, in the order of the loops. -/
def missingCells (firstMissingLineIdx numOfGeoLines : Int) (perLine : Nat) : List Cell :=
  (intRange firstMissingLineIdx numOfGeoLines).flatMap fun lineIdx =>
    (List.range perLine).flatMap fun pixelIdx =>
      quantities.map fun quantity => ⟨quantity, lineIdx, pixelIdx⟩

/-- The lines of the arrays: one more than the bursts, where tie points are missing. -/
def geoLines (numOfBursts : Nat) (declaredLines : Int) : Outcome Int :=
  if declaredLines ≤ (numOfBursts : Int) then int32 ((numOfBursts : Int) + 1)
  else .ok declaredLines

/-- The extrapolation, where tie points are missing and two lines are declared. -/
def addMissingLines (numOfBursts perLine : Nat) (declaredLines numOfGeoLines : Int)
    (m : Cell → Option F) : Outcome (Cell → Option F) :=
  if declaredLines ≤ (numOfBursts : Int) ∧ declaredLines ≥ 2 then
    (missingCells declaredLines numOfGeoLines perLine).foldlM
      (storeMissing numOfGeoLines declaredLines) m
  else .ok m

/-- `FillSubswathMetaData`, the geolocation grid, with the number of points that is declared. -/
def fillGeolocationGrid (numOfBursts : Nat) (count : Int) (points : List (GeoPoint F)) :
    Outcome (GeolocationGrid F) := do
  let perLine ← int32 (geoPointsPerLine points)
  Outcome.require (perLine ≠ 0)
  let declaredLines := count.tdiv perLine
  let numOfGeoLines ← geoLines numOfBursts declaredLines
  let _size ← int32 (numOfGeoLines * perLine)
  let stored ← (points.zipIdx ×ˢ quantities).foldlM (storePoint numOfGeoLines perLine.toNat)
    fun _ => none
  let cells ← addMissingLines numOfBursts perLine.toNat declaredLines numOfGeoLines stored
  return ⟨numOfGeoLines, perLine.toNat, cells⟩

end Fill

/-! ## Sorted lists -/

/-- A list of points that is sorted by line, with the same number of points on each line. -/
structure PointLines (F : Type) where
  lines : Nat
  perLine : Nat
  point : Nat → Nat → GeoPoint F
  lines_pos : 0 < lines
  perLine_pos : 0 < perLine
  same_line : ∀ i j j', (point i j).line = (point i j').line
  increasing : ∀ i i' j, i < i' → (point i j).line < (point i' j).line

namespace PointLines

variable {F : Type} (p : PointLines F)

def list : List (GeoPoint F) :=
  (List.range (p.lines * p.perLine)).map fun k => p.point (k / p.perLine) (k % p.perLine)

/-- The number of points of a line is found. -/
theorem geoPointsPerLine_list : geoPointsPerLine p.list = p.perLine := by
  obtain ⟨n, hn⟩ := Nat.exists_eq_succ_of_ne_zero p.lines_pos.ne'
  have hfirst : p.list.head? = some (p.point 0 0) := by
    unfold list
    rw [List.head?_map, List.head?_range, if_neg (Nat.mul_pos p.lines_pos p.perLine_pos).ne']
    simp
  have hsplit : p.list = (List.range p.perLine).map (p.point 0) ++
      (List.range (n * p.perLine)).map fun k =>
        p.point ((p.perLine + k) / p.perLine) ((p.perLine + k) % p.perLine) := by
    unfold list
    rw [hn, Nat.succ_mul, Nat.add_comm, List.range_add, List.map_append, List.map_map]
    congr 1
    apply List.map_congr_left
    intro k hk
    rw [Nat.div_eq_of_lt (List.mem_range.mp hk), Nat.mod_eq_of_lt (List.mem_range.mp hk)]
  have htake : p.list.takeWhile (fun point => point.line = (p.point 0 0).line) =
      (List.range p.perLine).map (p.point 0) := by
    rw [hsplit, List.takeWhile_append_of_pos]
    -- the next point, if there is one, lies on the next line
    · cases n with
      | zero => simp
      | succ n =>
        have hpos : 0 < (n + 1) * p.perLine := Nat.mul_pos (Nat.succ_pos n) p.perLine_pos
        obtain ⟨m, hm⟩ := Nat.exists_eq_succ_of_ne_zero hpos.ne'
        have hne : (p.point 1 0).line ≠ (p.point 0 0).line :=
          (p.increasing 0 1 0 Nat.one_pos).ne'
        rw [hm, List.range_succ_eq_map, List.map_cons, List.takeWhile_cons_of_neg,
          List.append_nil]
        simpa [Nat.div_self p.perLine_pos] using hne
    · intro point hpoint
      obtain ⟨j, -, rfl⟩ := List.mem_map.mp hpoint
      simpa using p.same_line 0 j 0
  cases hlist : p.list with
  | nil => rw [hlist] at hfirst; cases hfirst
  | cons first rest =>
    rw [hlist, List.head?_cons, Option.some.injEq] at hfirst
    subst hfirst
    show ((p.point 0 0 :: rest).takeWhile _).length = _
    rw [← hlist, htake, List.length_map, List.length_range]

theorem mem_zipIdx_list {entry : GeoPoint F × Nat} :
    entry ∈ p.list.zipIdx ↔ entry.2 < p.lines * p.perLine ∧
      entry.1 = p.point (entry.2 / p.perLine) (entry.2 % p.perLine) := by
  obtain ⟨point, k⟩ := entry
  rw [List.mk_mem_zipIdx_iff_getElem?, list, List.getElem?_map]
  constructor
  · intro h
    obtain ⟨k', hk, rfl⟩ := Option.map_eq_some_iff.mp h
    obtain ⟨hlt, rfl⟩ := List.getElem?_eq_some_iff.mp hk
    rw [List.length_range] at hlt
    simp [hlt]
  · intro h
    rw [List.getElem?_range h.1, Option.map_some]
    exact congrArg some h.2.symm

end PointLines

/-! ## The loops -/

section Loops

variable {F : Type} [Field F] (p : PointLines F)

/-- The arrays after the first loop. -/
def storedCells : Cell → Option F := fun cell =>
  if 0 ≤ cell.line ∧ cell.line < p.lines ∧ cell.point < p.perLine then
    some ((p.point cell.line.toNat cell.point).stored cell.quantity)
  else none

/-- The arrays after the second loop. -/
def continuedCells (first numOfGeoLines : Int) : Cell → Option F := fun cell =>
  if first ≤ cell.line ∧ cell.line < numOfGeoLines ∧ cell.point < p.perLine then
    some (continued first cell.line
      ((p.point (first - 1).toNat cell.point).stored cell.quantity)
      ((p.point (first - 2).toNat cell.point).stored cell.quantity))
  else storedCells p cell

theorem rowOf_eq_ok {n i : Int} {u : PUnit} : rowOf n i = .ok u ↔ 0 ≤ i ∧ i < n := by
  unfold rowOf
  split <;> simp [*]

theorem rowOf_ne_throws (n i : Int) : rowOf n i ≠ .throws := by
  unfold rowOf
  split <;> nofun

theorem readCell_ne_throws {κ α : Type} (m : κ → Option α) (k : κ) :
    readCell m k ≠ .throws := by
  unfold readCell
  split <;> nofun

variable {p}

omit [Field F] in
theorem pointCell_line {i j : Nat} (hj : j < p.perLine) (quantity : Quantity) :
    pointCell p.perLine (i * p.perLine + j) quantity = ⟨quantity, i, j⟩ := by
  have hdiv : (i * p.perLine + j) / p.perLine = i := by
    rw [Nat.mul_comm, Nat.mul_add_div p.perLine_pos, Nat.div_eq_of_lt hj, Nat.add_zero]
  show (⟨quantity, ((i * p.perLine + j) / p.perLine : Nat),
    i * p.perLine + j - (i * p.perLine + j) / p.perLine * p.perLine⟩ : Cell) = _
  rw [hdiv, Nat.add_sub_cancel_left]

omit [Field F] in
theorem mem_list {entry : (GeoPoint F × Nat) × Quantity} :
    entry ∈ p.list.zipIdx ×ˢ quantities ↔ ∃ i < p.lines, ∃ j < p.perLine,
      entry = ((p.point i j, i * p.perLine + j), entry.2) := by
  obtain ⟨⟨point, k⟩, quantity⟩ := entry
  have hp := p.perLine_pos
  rw [List.mem_product, and_iff_left (mem_quantities quantity), p.mem_zipIdx_list]
  constructor
  · intro h
    refine ⟨k / p.perLine, (Nat.div_lt_iff_lt_mul hp).mpr h.1, k % p.perLine,
      Nat.mod_lt k hp, ?_⟩
    rw [Nat.div_add_mod', ← h.2]
  · rintro ⟨i, hi, j, hj, h⟩
    cases h
    have hlt : i * p.perLine + j < p.lines * p.perLine := by
      calc i * p.perLine + j < (i + 1) * p.perLine := by rw [Nat.succ_mul]; omega
        _ ≤ p.lines * p.perLine := Nat.mul_le_mul_right _ hi
    refine ⟨hlt, ?_⟩
    show p.point i j = p.point ((i * p.perLine + j) / p.perLine) ((i * p.perLine + j) % p.perLine)
    rw [Nat.mul_comm i, Nat.mul_add_div hp, Nat.div_eq_of_lt hj, Nat.add_zero,
      Nat.mul_add_mod, Nat.mod_eq_of_lt hj]

/-- Every point reaches its own line and column. -/
theorem foldlM_storePoint {x : Int} (hx : (p.lines : Int) ≤ x) :
    (p.list.zipIdx ×ˢ quantities).foldlM (storePoint x p.perLine) (fun _ => none) =
      .ok (storedCells p) := by
  unfold storePoint
  refine (foldlM_storeValue
    (f := fun cell => (p.point cell.line.toNat cell.point).stored cell.quantity)
    fun entry hentry _ _ => ?_).trans ?_
  · obtain ⟨i, hi, j, hj, heq⟩ := mem_list.mp hentry
    have hrow : rowOf x (i : Int) = .ok ⟨⟩ := rowOf_eq_ok.mpr (by omega)
    rw [heq]
    dsimp only
    rw [pointCell_line hj]
    dsimp only
    rw [hrow, Outcome.ok_bind, Outcome.pure_eq, Int.toNat_natCast]
  · congr 1
    funext cell
    -- the cells that are stored are those of the grid's points
    have hmem : cell ∈ (p.list.zipIdx ×ˢ quantities).map
        (fun entry => pointCell p.perLine entry.1.2 entry.2) ↔
        0 ≤ cell.line ∧ cell.line < p.lines ∧ cell.point < p.perLine := by
      rw [List.mem_map]
      constructor
      · rintro ⟨entry, hentry, rfl⟩
        obtain ⟨i, hi, j, hj, heq⟩ := mem_list.mp hentry
        rw [heq]
        dsimp only
        rw [pointCell_line hj]
        dsimp only
        omega
      · rintro ⟨h0, hline, hpoint⟩
        obtain ⟨quantity, line, j⟩ := cell
        obtain ⟨i, rfl⟩ := Int.eq_ofNat_of_zero_le h0
        dsimp only at hline hpoint
        exact ⟨((p.point i j, i * p.perLine + j), quantity),
          mem_list.mpr ⟨i, by omega, j, hpoint, rfl⟩, pointCell_line hpoint quantity⟩
    unfold storedCells
    simp only [hmem]

/-- A list with more lines than the arrays is stored outside of them. -/
theorem lines_le_of_storePoint {x : Int} {m : Cell → Option F}
    (h : (p.list.zipIdx ×ˢ quantities).foldlM (storePoint x p.perLine) (fun _ => none) = .ok m) :
    (p.lines : Int) ≤ x := by
  have hpos := p.lines_pos
  -- the first point of the last line
  have hentry : ((p.point (p.lines - 1) 0, (p.lines - 1) * p.perLine + 0),
      Quantity.azimuthTime) ∈ p.list.zipIdx ×ˢ quantities :=
    mem_list.mpr ⟨p.lines - 1, by omega, 0, p.perLine_pos, rfl⟩
  obtain ⟨m₁, m₂, hpass⟩ := Outcome.ok_of_foldlM h hentry
  refine Outcome.of_bind_eq_ok hpass fun _ hvalue _ => ?_
  refine Outcome.of_bind_eq_ok hvalue fun _ hrow _ => ?_
  have hlast := (rowOf_eq_ok.mp hrow).2
  dsimp only at hlast
  rw [pointCell_line p.perLine_pos] at hlast
  dsimp only at hlast
  omega

theorem mem_missingCells {first x : Int} {n : Nat} {cell : Cell} :
    cell ∈ missingCells first x n ↔ (first ≤ cell.line ∧ cell.line < x) ∧ cell.point < n := by
  obtain ⟨quantity, line, j⟩ := cell
  unfold missingCells
  simp only [List.mem_flatMap, List.mem_map, mem_intRange, List.mem_range, Cell.mk.injEq]
  constructor
  · rintro ⟨_, hline, _, hpoint, _, -, rfl, rfl, rfl⟩
    exact ⟨hline, hpoint⟩
  · rintro ⟨hline, hpoint⟩
    exact ⟨line, hline, j, hpoint, quantity, mem_quantities quantity, rfl, rfl, rfl⟩

theorem storedCells_line {i j : Nat} (hi : i < p.lines) (hj : j < p.perLine) (q : Quantity) :
    storedCells p ⟨q, i, j⟩ = some ((p.point i j).stored q) := by
  unfold storedCells
  dsimp only
  rw [if_pos ⟨Int.natCast_nonneg i, by omega, hj⟩, Int.toNat_natCast]

/-- The lines that continue two lines of the list are stored, over the lines of the list where
they meet. -/
theorem foldlM_storeMissing {d : Nat} {x : Int} (h2 : 2 ≤ d) (hd : d ≤ p.lines) :
    (missingCells d x p.perLine).foldlM (storeMissing x d) (storedCells p) =
      .ok (continuedCells p d x) := by
  unfold storeMissing
  refine (foldlM_storeValue (f := fun cell => continued d cell.line
    ((p.point ((d : Int) - 1).toNat cell.point).stored cell.quantity)
    ((p.point ((d : Int) - 2).toNat cell.point).stored cell.quantity))
    fun cell hcell m hm => ?_).trans ?_
  · rw [List.map_id] at hm
    have hmem := mem_missingCells.mp hcell
    have hrow : rowOf x cell.line = .ok ⟨⟩ := rowOf_eq_ok.mpr (by omega)
    -- the two lines above are none that the loop stores to
    have hread : ∀ c : Nat, c < d → readCell m { cell with line := c } =
        .ok ((p.point c cell.point).stored cell.quantity) := by
      intro c hc
      rw [readCell_eq_ok, hm _ fun h => by
        have := (mem_missingCells.mp h).1.1
        dsimp only at this
        omega]
      exact storedCells_line (hc.trans_le hd) hmem.2 cell.quantity
    have h1 : (d : Int) - 1 = (d - 1 : Nat) := by omega
    have h0 : (d : Int) - 2 = (d - 2 : Nat) := by omega
    rw [hrow, Outcome.ok_bind, h1, hread _ (by omega), Outcome.ok_bind, h0, hread _ (by omega),
      Outcome.ok_bind]
    rfl
  · congr 1
    funext cell
    unfold continuedCells
    simp only [List.map_id, mem_missingCells, and_assoc]

/-- Lines that are missing in the list as well are read before anything is stored to them. -/
theorem le_lines_of_storeMissing {d x : Int} {m : Cell → Option F} (hdx : d < x)
    (h : (missingCells d x p.perLine).foldlM (storeMissing x d) (storedCells p) = .ok m) :
    d ≤ p.lines := by
  obtain ⟨n, hn⟩ := Nat.exists_eq_succ_of_ne_zero p.perLine_pos.ne'
  have hcells : ∃ rest, missingCells d x p.perLine = ⟨.azimuthTime, d, 0⟩ :: rest := by
    rw [missingCells, intRange_cons hdx, hn, List.range_succ_eq_map]
    exact ⟨_, rfl⟩
  obtain ⟨rest, hrest⟩ := hcells
  rw [hrest, List.foldlM_cons] at h
  refine Outcome.of_bind_eq_ok h fun _ hfirst _ => ?_
  refine Outcome.of_bind_eq_ok hfirst fun _ hvalue _ => ?_
  refine Outcome.of_bind_eq_ok hvalue fun _ _ hvalue => ?_
  refine Outcome.of_bind_eq_ok hvalue fun _ hread _ => ?_
  rw [readCell_eq_ok] at hread
  unfold storedCells at hread
  split at hread
  · rename_i hline
    dsimp only at hline
    omega
  · cases hread

end Loops

/-! ## The complete grid -/

section Complete

variable {F : Type} [Field F] (p : PointLines F)

/-- A missing line, as the linear continuation of the last two lines of the list. -/
def PointLines.continuation (q : Quantity) (i j : Nat) : F :=
  let last := (p.point (p.lines - 1) j).stored q
  let beforeLast := (p.point (p.lines - 2) j).stored q
  last + ((i : F) - ((p.lines - 1 : Nat) : F)) * (last - beforeLast)

/-- The arrays hold the points at their places, and lines for all bursts. -/
structure IsComplete (numOfBursts : Nat) (g : GeolocationGrid F) : Prop where
  lines : g.numOfGeoLines = (max p.lines (numOfBursts + 1) : Nat)
  points : g.numOfGeoPointsPerLine = p.perLine
  stored : ∀ (q : Quantity) (i j : Nat), i < p.lines → j < p.perLine →
    g.cells ⟨q, i, j⟩ = some ((p.point i j).stored q)
  missing : ∀ (q : Quantity) (i j : Nat), p.lines ≤ i → i < max p.lines (numOfBursts + 1) →
    j < p.perLine → 2 ≤ p.lines ∧ g.cells ⟨q, i, j⟩ = some (p.continuation q i j)

/-- The lines of the list from `d` on continue the two lines before. -/
def ContinuesFrom (d : Nat) : Prop :=
  ∀ (q : Quantity) (i j : Nat), d ≤ i → i < p.lines → j < p.perLine →
    (p.point i j).stored q =
      continued d i ((p.point (d - 1) j).stored q) ((p.point (d - 2) j).stored q)

/-- The declared number of points gives the lines of the list, and two of them where lines are
missing; or it gives less, and what is stored of the list stays. -/
def CountSuffices (numOfBursts : Nat) (count : Int) : Prop :=
  let declaredLines := count.tdiv p.perLine
  max p.lines (numOfBursts + 1) * p.perLine < 2147483648 ∧
    ((declaredLines = p.lines ∧ (numOfBursts < p.lines ∨ 2 ≤ p.lines)) ∨
      (declaredLines < 2 ∧ declaredLines ≤ numOfBursts ∧ p.lines = numOfBursts + 1) ∨
      (2 ≤ declaredLines ∧ declaredLines < p.lines ∧ p.lines ≤ numOfBursts + 1 ∧
        ContinuesFrom p declaredLines.toNat))

variable {p} {numOfBursts : Nat} {count : Int}

theorem storedCells_of_le {i j : Nat} (hi : p.lines ≤ i) (q : Quantity) :
    storedCells p ⟨q, i, j⟩ = none := by
  unfold storedCells
  dsimp only
  rw [if_neg fun h => by omega]

theorem continuedCells_of_lt {d : Nat} {x : Int} {i j : Nat} (hi : i < d) (q : Quantity) :
    continuedCells p d x ⟨q, i, j⟩ = storedCells p ⟨q, i, j⟩ := by
  unfold continuedCells
  dsimp only
  rw [if_neg fun h => by omega]

theorem continuedCells_of_le {d : Nat} {x : Int} {i j : Nat} (hi : d ≤ i) (hx : (i : Int) < x)
    (hj : j < p.perLine) (h2 : 2 ≤ d) (q : Quantity) :
    continuedCells p d x ⟨q, i, j⟩ = some (continued d i
      ((p.point (d - 1) j).stored q) ((p.point (d - 2) j).stored q)) := by
  have h1 : ((d : Int) - 1).toNat = d - 1 := by omega
  have h0 : ((d : Int) - 2).toNat = d - 2 := by omega
  unfold continuedCells
  dsimp only
  rw [if_pos ⟨by omega, hx, hj⟩, h1, h0]

/-- Lines that continue the lines before a line of the list continue the last two lines as well,
when the list does so. -/
theorem continued_eq_continuation {d : Nat} (h2 : 2 ≤ d) (hd : d ≤ p.lines)
    (h : ContinuesFrom p d) (q : Quantity) (i : Nat) {j : Nat} (hj : j < p.perLine) :
    continued d i ((p.point (d - 1) j).stored q) ((p.point (d - 2) j).stored q) =
      p.continuation q i j := by
  -- the lines from `d - 2` on lie on one straight line
  have hline : ∀ k, d - 2 ≤ k → k < p.lines → (p.point k j).stored q =
      continued d k ((p.point (d - 1) j).stored q) ((p.point (d - 2) j).stored q) := by
    intro k hk hlt
    by_cases hdk : d ≤ k
    · exact h q k j hdk hlt hj
    · obtain ⟨e, rfl⟩ := Nat.exists_eq_add_of_le' h2
      rw [show e + 2 - 1 = e + 1 by omega, show e + 2 - 2 = e by omega]
      have hcases : k = e ∨ k = e + 1 := by omega
      unfold continued
      cases hcases with
      | inl hk =>
        rw [hk]
        push_cast
        ring
      | inr hk =>
        rw [hk]
        push_cast
        ring
  have hlast := hline (p.lines - 1) (by omega) (by omega)
  have hbefore := hline (p.lines - 2) (by omega) (by omega)
  obtain ⟨n, hn⟩ := Nat.exists_eq_add_of_le' (h2.trans hd)
  unfold PointLines.continuation
  rw [hlast, hbefore, hn]
  unfold continued
  rw [show n + 2 - 1 = n + 1 by omega, show n + 2 - 2 = n by omega]
  push_cast
  ring

/-- What the function does when it returns. -/
theorem fillGeolocationGrid_eq_ok {g : GeolocationGrid F} :
    fillGeolocationGrid numOfBursts count p.list = .ok g ↔
      Fits 32 (p.perLine : Int) ∧ ∃ x : Int, geoLines numOfBursts (count.tdiv p.perLine) = .ok x ∧
        Fits 32 (x * p.perLine) ∧ (p.lines : Int) ≤ x ∧ ∃ cells,
          addMissingLines numOfBursts p.perLine (count.tdiv p.perLine) x (storedCells p) =
            .ok cells ∧ g = ⟨x, p.perLine, cells⟩ := by
  have hp : (p.perLine : Int) ≠ 0 := by
    have := p.perLine_pos
    omega
  unfold fillGeolocationGrid
  rw [p.geoPointsPerLine_list]
  constructor
  · intro h
    refine Outcome.of_bind_eq_ok h fun perLine hperLine h => ?_
    obtain ⟨hfits, rfl⟩ := int32_eq_ok.mp hperLine
    refine Outcome.of_bind_eq_ok h fun _ _ h => ?_
    refine Outcome.of_bind_eq_ok h fun x hx h => ?_
    refine Outcome.of_bind_eq_ok h fun _ hsize h => ?_
    refine Outcome.of_bind_eq_ok h fun stored hstored h => ?_
    refine Outcome.of_bind_eq_ok h fun cells hcells hg => ?_
    rw [Int.toNat_natCast] at hstored hcells hg
    -- the points that were stored have rows in the grid
    have hlines := lines_le_of_storePoint hstored
    rw [foldlM_storePoint hlines, Outcome.ok.injEq] at hstored
    subst hstored
    exact ⟨hfits, x, hx, (int32_eq_ok.mp hsize).1, hlines, cells, hcells,
      (Outcome.ok.inj hg).symm⟩
  · rintro ⟨hfits, x, hx, hsize, hlines, cells, hcells, rfl⟩
    rw [int32_of_fits hfits, Outcome.ok_bind, Outcome.require_of hp, Outcome.ok_bind]
    dsimp only
    rw [hx, Outcome.ok_bind, int32_of_fits hsize, Outcome.ok_bind, Int.toNat_natCast,
      foldlM_storePoint hlines, Outcome.ok_bind, hcells]
    rfl

theorem addMissingLines_ne_throws (perLine : Nat) (d x : Int) (m : Cell → Option F) :
    addMissingLines numOfBursts perLine d x m ≠ .throws := by
  unfold addMissingLines
  split
  · apply foldlM_storeValue_ne_throws
    intro m cell h
    rcases Outcome.bind_eq_throws.mp h with h | ⟨_, -, h⟩
    · exact rowOf_ne_throws _ _ h
    · rcases Outcome.bind_eq_throws.mp h with h | ⟨_, -, h⟩
      · exact readCell_ne_throws _ _ h
      · rcases Outcome.bind_eq_throws.mp h with h | ⟨_, -, h⟩
        · exact readCell_ne_throws _ _ h
        · cases h
  · nofun

/-- No list with a point is rejected. -/
theorem fillGeolocationGrid_ne_throws : fillGeolocationGrid numOfBursts count p.list ≠ .throws := by
  intro h
  have hp : (p.perLine : Int) ≠ 0 := by
    have := p.perLine_pos
    omega
  unfold fillGeolocationGrid at h
  rw [p.geoPointsPerLine_list] at h
  rcases Outcome.bind_eq_throws.mp h with h | ⟨perLine, hfits, h⟩
  · exact int32_ne_throws _ h
  obtain ⟨-, rfl⟩ := int32_eq_ok.mp hfits
  rw [Outcome.require_of hp, Outcome.ok_bind] at h
  rcases Outcome.bind_eq_throws.mp h with h | ⟨x, -, h⟩
  · unfold geoLines at h
    split at h
    · exact int32_ne_throws _ h
    · cases h
  rcases Outcome.bind_eq_throws.mp h with h | ⟨_, -, h⟩
  · exact int32_ne_throws _ h
  rcases Outcome.bind_eq_throws.mp h with h | ⟨stored, -, h⟩
  · refine foldlM_storeValue_ne_throws (fun m entry h => ?_) _ _ h
    rcases Outcome.bind_eq_throws.mp h with h | ⟨_, -, h⟩
    · exact rowOf_ne_throws _ _ h
    · cases h
  rcases Outcome.bind_eq_throws.mp h with h | ⟨cells, -, h⟩
  · exact addMissingLines_ne_throws _ _ _ _ h
  · cases h

/-- The grid that comes out of a list is complete exactly when the count suffices. -/
theorem IsComplete.countSuffices {g : GeolocationGrid F}
    (hg : fillGeolocationGrid numOfBursts count p.list = .ok g) (h : IsComplete p numOfBursts g) :
    CountSuffices p numOfBursts count := by
  have hlinesPos := p.lines_pos
  have hp := p.perLine_pos
  obtain ⟨-, x, hx, hsize, hlines, cells, hcells, rfl⟩ := fillGeolocationGrid_eq_ok.mp hg
  have hxmax : x = (max p.lines (numOfBursts + 1) : Nat) := h.lines
  have hbound : max p.lines (numOfBursts + 1) * p.perLine < 2147483648 := by
    have := (fits32_iff.mp hsize).2
    rw [hxmax] at this
    exact_mod_cast this
  refine ⟨hbound, ?_⟩
  -- a missing line that nothing is stored to
  have hunset : ∀ i, p.lines ≤ i → i < max p.lines (numOfBursts + 1) →
      cells ⟨.latitude, i, 0⟩ ≠ none := by
    intro i hi hlt hnone
    have hsome : cells ⟨.latitude, i, 0⟩ = _ := (h.missing .latitude i 0 hi hlt hp).2
    rw [hnone] at hsome
    cases hsome
  unfold geoLines at hx
  unfold addMissingLines at hcells
  by_cases hmissing : count.tdiv p.perLine ≤ (numOfBursts : Int)
  · rw [if_pos hmissing, int32_eq_ok] at hx
    by_cases htwo : 2 ≤ count.tdiv p.perLine
    · rw [if_pos ⟨hmissing, htwo⟩] at hcells
      obtain ⟨d, hd⟩ := Int.eq_ofNat_of_zero_le (show 0 ≤ count.tdiv p.perLine by omega)
      rw [hd] at hcells hmissing htwo ⊢
      have hdL : (d : Int) ≤ p.lines := le_lines_of_storeMissing (by omega) hcells
      rw [foldlM_storeMissing (by omega) (by omega), Outcome.ok.injEq] at hcells
      by_cases heq : d = p.lines
      · exact .inl ⟨by omega, .inr (by omega)⟩
      · refine .inr (.inr ⟨htwo, by omega, by omega, ?_⟩)
        intro q i j hdi hi hj
        have hstored := h.stored q i j hi hj
        dsimp only at hstored
        rw [← hcells, Int.toNat_natCast] at *
        rw [continuedCells_of_le hdi (by omega) hj (by omega), Option.some.injEq] at hstored
        exact hstored.symm
    · rw [if_neg fun hboth => htwo hboth.2, Outcome.ok.injEq] at hcells
      subst hcells
      refine .inr (.inl ⟨by omega, hmissing, ?_⟩)
      by_contra hne
      exact hunset p.lines le_rfl (by omega) (storedCells_of_le le_rfl _)
  · rw [if_neg hmissing, Outcome.ok.injEq] at hx
    rw [if_neg fun hboth => hmissing hboth.1, Outcome.ok.injEq] at hcells
    subst hcells
    left
    have hxL : x = p.lines := by
      by_contra hne
      exact hunset p.lines le_rfl (by omega) (storedCells_of_le le_rfl _)
    omega

/-- Without missing lines, the arrays of the first loop are complete. -/
theorem isComplete_stored {x : Int} (hx : x = p.lines) (hbursts : numOfBursts < p.lines) :
    IsComplete p numOfBursts ⟨x, p.perLine, storedCells p⟩ where
  lines := by
    show x = _
    omega
  points := rfl
  stored q _ _ hi hj := storedCells_line hi hj q
  missing q i j hi hlt _ := by omega

/-- With lines that continue the list, the arrays of the second loop are complete. -/
theorem isComplete_continued {d : Nat} {x : Int} (h2 : 2 ≤ d) (hd : d ≤ p.lines)
    (hlines : p.lines ≤ numOfBursts + 1) (hx : x = (numOfBursts : Int) + 1)
    (h : ContinuesFrom p d) :
    IsComplete p numOfBursts ⟨x, p.perLine, continuedCells p d x⟩ where
  lines := by
    show x = _
    omega
  points := rfl
  stored q i j hi hj := by
    show continuedCells p d x ⟨q, i, j⟩ = _
    by_cases hdi : d ≤ i
    · rw [continuedCells_of_le hdi (by omega) hj h2, h q i j hdi hi hj]
    · rw [continuedCells_of_lt (by omega), storedCells_line hi hj]
  missing q i j hi hlt hj := by
    refine ⟨h2.trans hd, ?_⟩
    show continuedCells p d x ⟨q, i, j⟩ = _
    rw [continuedCells_of_le (hd.trans hi) (by omega) hj h2,
      continued_eq_continuation h2 hd h q i hj]

theorem CountSuffices.exists_complete (h : CountSuffices p numOfBursts count) :
    ∃ g, fillGeolocationGrid numOfBursts count p.list = .ok g ∧ IsComplete p numOfBursts g := by
  obtain ⟨hbound, hcases⟩ := h
  have hp := p.perLine_pos
  have hmax : max p.lines (numOfBursts + 1) ≤ max p.lines (numOfBursts + 1) * p.perLine :=
    Nat.le_mul_of_pos_right _ hp
  have hperLine : p.perLine ≤ max p.lines (numOfBursts + 1) * p.perLine :=
    Nat.le_mul_of_pos_left _ (by omega)
  have hfits : Fits 32 (p.perLine : Int) := by
    rw [fits32_iff]
    omega
  have hbursts : Fits 32 ((numOfBursts : Int) + 1) := by
    rw [fits32_iff]
    omega
  have hsize : ∀ x : Int, 0 ≤ x → x ≤ (max p.lines (numOfBursts + 1) : Nat) →
      Fits 32 (x * p.perLine) := by
    intro x h0 hx
    have hmul := Int.mul_le_mul_of_nonneg_right hx (Int.natCast_nonneg p.perLine)
    have hnonneg := Int.mul_nonneg h0 (Int.natCast_nonneg p.perLine)
    have hcast : ((max p.lines (numOfBursts + 1) : Nat) : Int) * p.perLine < 2147483648 := by
      exact_mod_cast hbound
    rw [fits32_iff]
    omega
  -- two lines to continue from
  have hcontinued : ∀ d : Nat, count.tdiv p.perLine = d → 2 ≤ d → d ≤ p.lines →
      d ≤ numOfBursts → p.lines ≤ numOfBursts + 1 → ContinuesFrom p d →
      ∃ g, fillGeolocationGrid numOfBursts count p.list = .ok g ∧ IsComplete p numOfBursts g := by
    intro d hd h2 hdL hdN hL hcont
    refine ⟨_, fillGeolocationGrid_eq_ok.mpr ⟨hfits, (numOfBursts : Int) + 1, ?_,
      hsize _ (by omega) (by omega), by omega, continuedCells p d ((numOfBursts : Int) + 1), ?_,
      rfl⟩, isComplete_continued h2 hdL hL rfl hcont⟩
    · rw [geoLines, if_pos (by omega), int32_of_fits hbursts]
    · rw [addMissingLines, hd, if_pos (by omega), foldlM_storeMissing h2 hdL]
  rcases hcases with ⟨hd, hlines⟩ | ⟨hd, hdN, hlines⟩ | ⟨h2, hdL, hlines, hcont⟩
  · by_cases hN : numOfBursts < p.lines
    · refine ⟨_, fillGeolocationGrid_eq_ok.mpr ⟨hfits, p.lines, ?_, hsize _ (by omega) (by omega),
        le_rfl, storedCells p, ?_, rfl⟩, isComplete_stored rfl hN⟩
      · rw [geoLines, hd, if_neg (by omega)]
      · rw [addMissingLines, hd, if_neg (by omega)]
    · refine hcontinued p.lines hd (by omega) le_rfl (by omega) (by omega) ?_
      intro q i j hdi hi
      omega
  · refine ⟨_, fillGeolocationGrid_eq_ok.mpr ⟨hfits, (numOfBursts : Int) + 1, ?_,
      hsize _ (by omega) (by omega), by omega, storedCells p, ?_, rfl⟩,
      isComplete_stored (by omega) (by omega)⟩
    · rw [geoLines, if_pos hdN, int32_of_fits hbursts]
    · rw [addMissingLines, if_neg (by omega)]
  · exact hcontinued (count.tdiv p.perLine).toNat (by omega) (by omega) (by omega) (by omega)
      hlines hcont

variable (p numOfBursts count)

/-- The grid is complete, or the metadata rejected, exactly when the count suffices. -/
theorem geolocationGrid_complete_iff :
    (fillGeolocationGrid numOfBursts count p.list = .throws ∨
      ∃ g, fillGeolocationGrid numOfBursts count p.list = .ok g ∧ IsComplete p numOfBursts g) ↔
      CountSuffices p numOfBursts count := by
  constructor
  · rintro (h | ⟨g, hg, h⟩)
    · exact absurd h fillGeolocationGrid_ne_throws
    · exact h.countSuffices hg
  · intro h
    exact .inr h.exists_complete

end Complete

/-- A list of one line with one point. -/
def oneLine : PointLines ℚ where
  lines := 1
  perLine := 1
  point i _ := ⟨i, i, 1, 2, 3, 4⟩
  lines_pos := by decide
  perLine_pos := by decide
  same_line _ _ _ := rfl
  increasing i i' _ h := by
    show (i : Int) < i'
    exact_mod_cast h

/-- With one burst a second line is allocated, and nothing is stored to it. -/
theorem geolocationGrid_oneLine :
    ¬ (fillGeolocationGrid 1 1 oneLine.list = .throws ∨
      ∃ g, fillGeolocationGrid 1 1 oneLine.list = .ok g ∧ IsComplete oneLine 1 g) := by
  rintro (h | ⟨g, hg, h⟩)
  · exact fillGeolocationGrid_ne_throws h
  · obtain ⟨-, x, -, -, -, cells, hcells, rfl⟩ := fillGeolocationGrid_eq_ok.mp hg
    cases hcells
    have hsome : storedCells oneLine ⟨.latitude, 1, 0⟩ = _ :=
      (h.missing .latitude 1 0 (by decide) (by decide) (by decide)).2
    rw [show (1 : Int) = (1 : Nat) from rfl, storedCells_of_le (by decide)] at hsome
    cases hsome

end Alus.S1tbx.GeolocationGridFill
