import Mathlib.Data.List.GetD
import Mathlib.Data.Rat.Floor
import Mathlib.Tactic.NormNum
import Alus.Lib.IntRange
import Alus.Lib.PolynomialFit
import Alus.Lib.Rounding

/-!
# The vectors of a precise orbit file

`SentinelPODOrbitFile` (`sentinel_p_o_d_orbit_file.cc`) is asked for the orbit vectors around an
interval, and for the orbit at a time, for which it fits polynomials to the vectors around the time.
The search for the interval is written for an index or an insertion point, but
`std::binary_search` only tells whether there is an equal element.

The arithmetic is exact. The solver of the linear equations is a parameter.
-/

namespace Alus.S1tbx

open Alus.Lib
open Matrix Polynomial

/-- `OrbitVector`. -/
structure OrbitVector (R : Type) where
  utcMjd : R
  xPos : R
  yPos : R
  zPos : R
  xVel : R
  yVel : R
  zVel : R

/-- What the queries read of `SentinelPODOrbitFile`. The times of the vectors increase. -/
structure SentinelPODOrbitFile (R : Type) [LinearOrder R] where
  polyDegree : Nat
  osvList : List (OrbitVector R)
  increasing : osvList.Pairwise fun osv osv' => osv.utcMjd < osv'.utcMjd

/-! ## The vectors around an interval -/

section Interval

variable {R : Type} [LinearOrder R]

/-- `OrbitVector::Compare`, of the times. -/
def compare (utc1 utc2 : R) : Bool := utc1 < utc2 ∧ utc2 ≥ utc1

/-- `std::binary_search`: the first element that is not less is checked. -/
def binarySearch (osvList : List (OrbitVector R)) (utc : R) : Bool :=
  match osvList.find? fun osv => !compare osv.utcMjd utc with
  | some osv => !compare utc osv.utcMjd
  | none => false

namespace SentinelPODOrbitFile

variable (file : SentinelPODOrbitFile R)

/-- `start_idx`, as searched. -/
def startIdx (startUtc : R) : Int :=
  let startIdx : Int := (binarySearch file.osvList startUtc).toNat
  if startIdx < 0 then
    let insertionPt := -(startIdx + 1)
    if insertionPt = file.osvList.length ∨ insertionPt > 0 then insertionPt - 1 else 0
  else startIdx

/-- `end_idx`, as searched. -/
def endIdx (endUtc : R) : Int :=
  let endIdx : Int := (binarySearch file.osvList endUtc).toNat
  if endIdx < 0 then
    let insertionPt := -(endIdx + 1)
    if insertionPt = file.osvList.length then insertionPt - 1
    else if insertionPt = 0 then 0
    else insertionPt
  else endIdx

/-- `index_step`. -/
def indexStep : Int := 3

/-- `GetOrbitData(start_utc, end_utc)`. -/
def getOrbitDataBetween (startUtc endUtc : R) : Outcome (List (OrbitVector R)) := do
  let startIdx ← int32 (file.startIdx startUtc - indexStep)
  let endIdx ← int32 (file.endIdx endUtc + indexStep)
  let numOsv ← int32 (endIdx - startIdx + 1)
  -- a negative number of elements is more than there is memory for
  Outcome.require (0 ≤ numOsv)
  Outcome.collect ((intRange 0 numOsv).map fun i => vectorAt file.osvList (startIdx + i))

end SentinelPODOrbitFile

/-! ### What is promised -/

/-- A part of the list with all vectors in the interval, and with three vectors before and three
after these, where the list has them. -/
structure IsWindow (osvList : List (OrbitVector R)) (startUtc endUtc : R)
    (window : List (OrbitVector R)) : Prop where
  contiguous : ∃ before after, osvList = before ++ window ++ after
  covers : ∀ osv ∈ osvList, startUtc ≤ osv.utcMjd → osv.utcMjd ≤ endUtc → osv ∈ window
  before : (window.filter fun osv => osv.utcMjd < startUtc).length =
    min 3 (osvList.filter fun osv => osv.utcMjd < startUtc).length
  after : (window.filter fun osv => endUtc < osv.utcMjd).length =
    min 3 (osvList.filter fun osv => endUtc < osv.utcMjd).length

/-- The query returns such a part. -/
def SentinelPODOrbitFile.ReturnsWindow (file : SentinelPODOrbitFile R) (startUtc endUtc : R) :
    Prop :=
  ∃ window, file.getOrbitDataBetween startUtc endUtc = .ok window ∧
    IsWindow file.osvList startUtc endUtc window

/-- A list in order is cut where a property that holds up to some element ends. -/
theorem filter_append_filter_not {α : Type} {r : α → α → Prop} {p : α → Bool} {l : List α}
    (hl : l.Pairwise r) (hp : ∀ a b, r a b → p b → p a) :
    l.filter p ++ l.filter (fun a => !p a) = l := by
  induction hl with
  | nil => rfl
  | @cons a l ha _ ih =>
    cases hpa : p a with
    | true =>
      rw [List.filter_cons_of_pos hpa, List.filter_cons_of_neg (by rw [hpa]; decide)]
      exact congrArg (a :: ·) ih
    | false =>
      -- after an element without the property there are none with it
      have hnone : ∀ b ∈ l, p b = false := by
        intro b hb
        cases hpb : p b with
        | false => rfl
        | true => exact absurd (hp a b (ha b hb) hpb) (by rw [hpa]; decide)
      have hfilter : l.filter p = [] :=
        List.filter_eq_nil_iff.mpr fun b hb => by rw [hnone b hb]; decide
      rw [hfilter, List.nil_append] at ih
      rw [List.filter_cons_of_neg (by rw [hpa]; decide), hfilter, List.nil_append,
        List.filter_cons_of_pos (by rw [hpa]; rfl), ih]

/-- Vectors before an interval, in it and after it. -/
structure SplitAt (startUtc endUtc : R) (early inside late : List (OrbitVector R)) : Prop where
  early : ∀ osv ∈ early, osv.utcMjd < startUtc
  inside : ∀ osv ∈ inside, startUtc ≤ osv.utcMjd ∧ osv.utcMjd ≤ endUtc
  late : ∀ osv ∈ late, endUtc < osv.utcMjd

namespace SplitAt

variable {startUtc endUtc : R} {early inside late : List (OrbitVector R)}

theorem filter_early (h : SplitAt startUtc endUtc early inside late) (hle : startUtc ≤ endUtc) :
    ((early ++ inside ++ late).filter fun osv => osv.utcMjd < startUtc) = early := by
  have hinside : inside.filter (fun osv => osv.utcMjd < startUtc) = [] :=
    List.filter_eq_nil_iff.mpr fun osv hosv => by simpa using (h.inside osv hosv).1
  have hlate : late.filter (fun osv => osv.utcMjd < startUtc) = [] :=
    List.filter_eq_nil_iff.mpr fun osv hosv => by simpa using le_trans hle (h.late osv hosv).le
  rw [List.filter_append, List.filter_append, hinside, hlate, List.append_nil, List.append_nil]
  exact List.filter_eq_self.mpr fun osv hosv => by simpa using h.early osv hosv

theorem filter_late (h : SplitAt startUtc endUtc early inside late) (hle : startUtc ≤ endUtc) :
    ((early ++ inside ++ late).filter fun osv => endUtc < osv.utcMjd) = late := by
  have hearly : early.filter (fun osv => endUtc < osv.utcMjd) = [] :=
    List.filter_eq_nil_iff.mpr fun osv hosv => by simpa using le_trans (h.early osv hosv).le hle
  have hinside : inside.filter (fun osv => endUtc < osv.utcMjd) = [] :=
    List.filter_eq_nil_iff.mpr fun osv hosv => by simpa using (h.inside osv hosv).2
  rw [List.filter_append, List.filter_append, hearly, hinside, List.nil_append, List.nil_append]
  exact List.filter_eq_self.mpr fun osv hosv => by simpa using h.late osv hosv

/-- Fewer vectors before and after. -/
theorem drop_take (h : SplitAt startUtc endUtc early inside late) (k l : Nat) :
    SplitAt startUtc endUtc (early.drop k) inside (late.take l) where
  early osv hosv := h.early osv (List.mem_of_mem_drop hosv)
  inside := h.inside
  late osv hosv := h.late osv (List.mem_of_mem_take hosv)

/-- The last three before and the first three after. -/
theorem isWindow (h : SplitAt startUtc endUtc early inside late) (hle : startUtc ≤ endUtc) :
    IsWindow (early ++ inside ++ late) startUtc endUtc
      (early.drop (early.length - 3) ++ inside ++ late.take 3) where
  contiguous := by
    refine ⟨early.take (early.length - 3), late.drop 3, ?_⟩
    simp only [List.append_assoc, List.take_append_drop]
    rw [← List.append_assoc (early.take _), List.take_append_drop]
  covers osv hosv hstart hend := by
    rw [List.mem_append, List.mem_append] at hosv
    rcases hosv with (hosv | hosv) | hosv
    · exact absurd (h.early osv hosv) (not_lt.mpr hstart)
    · exact List.mem_append_left _ (List.mem_append_right _ hosv)
    · exact absurd (h.late osv hosv) (not_lt.mpr hend)
  before := by
    rw [(h.drop_take _ _).filter_early hle, h.filter_early hle, List.length_drop]
    omega
  after := by
    rw [(h.drop_take _ _).filter_late hle, h.filter_late hle, List.length_take]

end SplitAt

/-- There is such a part of every list. -/
theorem exists_isWindow (file : SentinelPODOrbitFile R) {startUtc endUtc : R}
    (h : startUtc ≤ endUtc) : ∃ window, IsWindow file.osvList startUtc endUtc window := by
  let early := file.osvList.filter fun osv => osv.utcMjd < startUtc
  let rest := file.osvList.filter fun osv => !decide (osv.utcMjd < startUtc)
  let inside := rest.filter fun osv => osv.utcMjd ≤ endUtc
  let late := rest.filter fun osv => !decide (osv.utcMjd ≤ endUtc)
  have hcut : early ++ rest = file.osvList :=
    filter_append_filter_not file.increasing fun a b hab hb => by
      simpa using lt_trans hab (by simpa using hb)
  have hcut' : inside ++ late = rest :=
    filter_append_filter_not (file.increasing.filter _) fun a b hab hb => by
      simpa using le_trans hab.le (by simpa using hb)
  have hsplit : SplitAt startUtc endUtc early inside late :=
    { early := fun osv hosv => by simpa using (List.mem_filter.mp hosv).2
      inside := fun osv hosv => by
        have hrest := (List.mem_filter.mp (List.mem_filter.mp hosv).1).2
        exact ⟨by simpa using hrest, by simpa using (List.mem_filter.mp hosv).2⟩
      late := fun osv hosv => by simpa using (List.mem_filter.mp hosv).2 }
  have hwindow := hsplit.isWindow h
  rw [List.append_assoc, hcut', hcut] at hwindow
  exact ⟨_, hwindow⟩

namespace SentinelPODOrbitFile

variable (file : SentinelPODOrbitFile R)

/-- The search for the start tells no more than whether it is the time of a vector. -/
theorem startIdx_eq (startUtc : R) :
    file.startIdx startUtc = (binarySearch file.osvList startUtc).toNat := by
  unfold startIdx
  dsimp only
  exact if_neg (by omega)

theorem endIdx_eq (endUtc : R) :
    file.endIdx endUtc = (binarySearch file.osvList endUtc).toNat := by
  unfold endIdx
  dsimp only
  exact if_neg (by omega)

/-- The first index is in front of the list. -/
theorem getOrbitDataBetween_eq_throws (startUtc endUtc : R) :
    file.getOrbitDataBetween startUtc endUtc = .throws := by
  have hstart := Bool.toNat_le (binarySearch file.osvList startUtc)
  have hend := Bool.toNat_le (binarySearch file.osvList endUtc)
  rw [getOrbitDataBetween, startIdx_eq, endIdx_eq]
  generalize (binarySearch file.osvList startUtc).toNat = i at hstart
  generalize (binarySearch file.osvList endUtc).toNat = j at hend
  unfold indexStep
  rw [int32_of_bounds (by omega) (by omega), Outcome.ok_bind,
    int32_of_bounds (by omega) (by omega), Outcome.ok_bind,
    int32_of_bounds (by omega) (by omega), Outcome.ok_bind,
    Outcome.require_of (by omega), Outcome.ok_bind, intRange_cons (by omega), List.map_cons]
  have hfirst : vectorAt file.osvList ((i : Int) - 3 + 0) = .throws := if_neg (by omega)
  show (vectorAt file.osvList ((i : Int) - 3 + 0) >>= _) = _
  rw [hfirst, Outcome.throws_bind]

/-- **No part of the list is returned**, though there is one for every interval. -/
theorem not_returnsWindow {startUtc endUtc : R} (h : startUtc ≤ endUtc) :
    (∃ window, IsWindow file.osvList startUtc endUtc window) ∧
      ¬ file.ReturnsWindow startUtc endUtc := by
  constructor
  · exact exists_isWindow file h
  · intro hwindow
    obtain ⟨window, hok, -⟩ := hwindow
    rw [getOrbitDataBetween_eq_throws] at hok
    cases hok

end SentinelPODOrbitFile

/-- Twenty vectors, one after the other. -/
def equidistantFile : SentinelPODOrbitFile Rat where
  polyDegree := 3
  osvList := (List.range 20).map fun (i : Nat) => ⟨i, 0, 0, 0, 0, 0, 0⟩
  increasing := List.pairwise_map.mpr (List.pairwise_lt_range.imp fun h => Nat.cast_lt.mpr h)

theorem not_returnsWindow_equidistant :
    (∃ window, IsWindow equidistantFile.osvList 9 10 window) ∧
      ¬ equidistantFile.ReturnsWindow 9 10 :=
  equidistantFile.not_returnsWindow (by norm_num)

/-- The times of two vectors in the middle of the list. -/
theorem getOrbitDataBetween_equidistant : ¬ equidistantFile.ReturnsWindow 9 10 := by
  intro h
  obtain ⟨window, hok, -⟩ := h
  rw [SentinelPODOrbitFile.getOrbitDataBetween_eq_throws] at hok
  cases hok

end Interval

/-! ## The orbit at a time -/

section Time

variable {R : Type} [Field R] [LinearOrder R] [FloorRing R]

/-- `Maths::CreateVandermondeMatrix`. -/
def createVandermondeMatrix (d : List R) (warpPolynomialOrder : Nat) :
    Matrix (Fin d.length) (Fin (warpPolynomialOrder + 1)) R :=
  powersMatrix d.get (warpPolynomialOrder + 1)

/-- `householderQr().solve`. -/
abbrev Solver (R : Type) : Type :=
  (m n : Nat) → Matrix (Fin m) (Fin n) R → (Fin m → R) → Fin n → R

/-- `Maths::PolyFit`. -/
def polyFit (solve : Solver R) {m n : Nat} (a : Matrix (Fin m) (Fin n) R) (y : List R) : List R :=
  List.ofFn (solve m n a fun i => y.getD i 0)

/-- `Maths::PolyVal`. -/
def polyVal (t : R) (coeff : List R) : R := coeff.foldr (fun c val => val * t + c) 0

namespace SentinelPODOrbitFile

variable (file : SentinelPODOrbitFile R)

/-- `vector_indices`. -/
def vectorIndices (numVectors : Int) (t0 tN utc : R) : Outcome (List Int) := do
  let numVecPolyFit ← int32 (file.polyDegree + 1)
  let halfNumVecPolyFit := numVecPolyFit / 2
  let vecIdx ← int32 (toInt ((utc - t0) / (tN - t0) * (numVectors - 1 : Int)))
  if vecIdx ≤ halfNumVecPolyFit - 1 then
    return (intRange 0 numVecPolyFit).map fun i => i
  else if vecIdx ≥ numVectors - halfNumVecPolyFit then
    return (intRange 0 numVecPolyFit).map fun i => numVectors - numVecPolyFit + i
  else
    return (intRange 0 numVecPolyFit).map fun i => vecIdx - halfNumVecPolyFit + 1 + i

/-- The indices that `GetOrbitData(utc)` selects. -/
def selectedIndices (utc : R) : Outcome (List Int) := do
  let numVectors ← int32 file.osvList.length
  let first ← vectorAt file.osvList 0
  let last ← vectorAt file.osvList (numVectors - 1)
  file.vectorIndices numVectors first.utcMjd last.utcMjd utc

/-- `GetOrbitData(utc)`. -/
def getOrbitData (solve : Solver R) (utc : R) : Outcome (OrbitVector R) := do
  let first ← vectorAt file.osvList 0
  let t0 := first.utcMjd
  let vectorIndices ← file.selectedIndices utc
  let osvs ← Outcome.collect (vectorIndices.map (vectorAt file.osvList))
  let a := createVandermondeMatrix (osvs.map fun osv => osv.utcMjd - t0) file.polyDegree
  let xPosCoeff := polyFit solve a (osvs.map (·.xPos))
  let yPosCoeff := polyFit solve a (osvs.map (·.yPos))
  let zPosCoeff := polyFit solve a (osvs.map (·.zPos))
  let xVelCoeff := polyFit solve a (osvs.map (·.xVel))
  let yVelCoeff := polyFit solve a (osvs.map (·.yVel))
  let zVelCoeff := polyFit solve a (osvs.map (·.zVel))
  let normalizedTime := utc - t0
  return ⟨utc, polyVal normalizedTime xPosCoeff, polyVal normalizedTime yPosCoeff,
    polyVal normalizedTime zPosCoeff, polyVal normalizedTime xVelCoeff,
    polyVal normalizedTime yVelCoeff, polyVal normalizedTime zVelCoeff⟩

end SentinelPODOrbitFile

/-! ### What is promised -/

/-- The solver solves least squares problems with a single solution. -/
def Solver.Exact (solve : Solver R) : Prop :=
  ∀ m n (a : Matrix (Fin m) (Fin n) R) y, Function.Injective a.mulVec →
    (aᵀ * a) *ᵥ solve m n a y = aᵀ *ᵥ y

/-- An orbit whose components are polynomials. -/
structure PolynomialOrbit (R : Type) [Field R] where
  xPos : R[X]
  yPos : R[X]
  zPos : R[X]
  xVel : R[X]
  yVel : R[X]
  zVel : R[X]

namespace PolynomialOrbit

variable (orbit : PolynomialOrbit R)

/-- The vector of the orbit at a time. -/
noncomputable def vector (utc : R) : OrbitVector R :=
  ⟨utc, orbit.xPos.eval utc, orbit.yPos.eval utc, orbit.zPos.eval utc, orbit.xVel.eval utc,
    orbit.yVel.eval utc, orbit.zVel.eval utc⟩

/-- The degrees are at most `d`. -/
structure DegreeLE (d : Nat) : Prop where
  xPos : orbit.xPos.natDegree ≤ d
  yPos : orbit.yPos.natDegree ≤ d
  zPos : orbit.zPos.natDegree ≤ d
  xVel : orbit.xVel.natDegree ≤ d
  yVel : orbit.yVel.natDegree ≤ d
  zVel : orbit.zVel.natDegree ≤ d

end PolynomialOrbit

namespace SentinelPODOrbitFile

variable (file : SentinelPODOrbitFile R)

/-- The vectors selected are consecutive ones of the list, one more than the degree. -/
def FitsInside (utc : R) : Prop :=
  ∃ first : Int, file.selectedIndices utc = .ok (intRange first (first + (file.polyDegree + 1))) ∧
    0 ≤ first ∧ first + (file.polyDegree + 1) ≤ file.osvList.length

/-- Orbits of polynomials of the degree are reproduced. -/
def Reproduces (solve : Solver R) (utc : R) : Prop :=
  ∀ orbit : PolynomialOrbit R, orbit.DegreeLE file.polyDegree →
    (∀ osv ∈ file.osvList, osv = orbit.vector osv.utcMjd) →
      file.getOrbitData solve utc = .ok (orbit.vector utc)

end SentinelPODOrbitFile

/-- A time from the first to the last vector, with enough vectors for the polynomials. -/
structure OrbitQuery (R : Type) [LinearOrder R] extends SentinelPODOrbitFile R where
  first : OrbitVector R
  last : OrbitVector R
  utc : R
  first_eq : osvList[0]? = some first
  last_eq : osvList[osvList.length - 1]? = some last
  degree_pos : 1 ≤ polyDegree
  enough : polyDegree + 1 ≤ osvList.length
  first_le : first.utcMjd ≤ utc
  le_last : utc ≤ last.utcMjd

/-- The time is not in the one step between equidistant times in which the middle vectors are taken
past the end of the list, for an even degree. -/
def OrbitQuery.OutsideLastMiddleStep (q : OrbitQuery R) : Prop :=
  let n : Int := q.osvList.length
  let k : Int := n - 1 - q.polyDegree / 2
  let step : R := (q.last.utcMjd - q.first.utcMjd) / (n - 1 : Int)
  ¬ (q.polyDegree % 2 = 0 ∧ q.first.utcMjd + k * step ≤ q.utc ∧
    q.utc < q.first.utcMjd + (k + 1 : Int) * step)

/-! ### The vectors selected -/

namespace OrbitQuery

variable (q : OrbitQuery R)

/-- `vec_idx`. -/
def vecIdx : Int :=
  toInt ((q.utc - q.first.utcMjd) / (q.last.utcMjd - q.first.utcMjd) *
    ((q.osvList.length : Int) - 1 : Int))

/-- The first of the indices. -/
def firstIndex : Int :=
  let half : Int := (q.polyDegree + 1 : Int) / 2
  if q.vecIdx ≤ half - 1 then 0
  else if q.vecIdx ≥ q.osvList.length - half then q.osvList.length - (q.polyDegree + 1)
  else q.vecIdx - half + 1

variable [IsStrictOrderedRing R]

omit [Field R] [FloorRing R] [IsStrictOrderedRing R] in
theorem first_lt_last : q.first.utcMjd < q.last.utcMjd := by
  have hn : 0 < q.osvList.length - 1 := by
    have := q.degree_pos
    have := q.enough
    omega
  obtain ⟨h0, hfirst⟩ := List.getElem?_eq_some_iff.mp q.first_eq
  obtain ⟨h1, hlast⟩ := List.getElem?_eq_some_iff.mp q.last_eq
  rw [← hfirst, ← hlast]
  exact List.pairwise_iff_getElem.mp q.increasing 0 _ h0 h1 hn

/-- The index is that of a step of the list, or of its last vector. -/
theorem vecIdx_bounds : 0 ≤ q.vecIdx ∧ q.vecIdx ≤ (q.osvList.length : Int) - 1 := by
  have hspan : 0 < q.last.utcMjd - q.first.utcMjd := sub_pos.mpr q.first_lt_last
  have hn : (0 : Int) ≤ (q.osvList.length : Int) - 1 := by
    have := q.enough
    omega
  have hn' : (0 : R) ≤ ((q.osvList.length : Int) - 1 : Int) := by exact_mod_cast hn
  have hfraction : 0 ≤ (q.utc - q.first.utcMjd) / (q.last.utcMjd - q.first.utcMjd) :=
    div_nonneg (sub_nonneg.mpr q.first_le) hspan.le
  have hfraction' : (q.utc - q.first.utcMjd) / (q.last.utcMjd - q.first.utcMjd) ≤ 1 :=
    (div_le_one hspan).mpr (sub_le_sub_right q.le_last _)
  constructor
  · exact le_toInt (by rw [Int.cast_zero]; exact mul_nonneg hfraction hn')
  · exact toInt_le (mul_le_of_le_one_left hn' hfraction')

/-- The three loops, by the first of their indices. -/
theorem selectedIndices_eq (hfits : q.osvList.length < 2147483648) :
    q.selectedIndices q.utc =
      .ok (intRange q.firstIndex (q.firstIndex + (q.polyDegree + 1))) := by
  have hbounds := q.vecIdx_bounds
  have henough := q.enough
  have hlast : vectorAt q.osvList ((q.osvList.length : Int) - 1) = .ok q.last := by
    refine vectorAt_eq_ok.mpr ⟨by omega, ?_⟩
    rw [show ((q.osvList.length : Int) - 1).toNat = q.osvList.length - 1 by omega]
    exact q.last_eq
  rw [SentinelPODOrbitFile.selectedIndices, int32_of_bounds (by omega) (by omega),
    Outcome.ok_bind, vectorAt_eq_ok.mpr ⟨le_refl 0, q.first_eq⟩, Outcome.ok_bind, hlast,
    Outcome.ok_bind, SentinelPODOrbitFile.vectorIndices,
    int32_of_bounds (by omega) (by omega), Outcome.ok_bind]
  show (int32 q.vecIdx >>= _) = _
  have hrange : ∀ s : Int, ((intRange 0 (q.polyDegree + 1)).map fun i => s + i) =
      intRange s (s + (q.polyDegree + 1)) := by
    intro s
    simp only [Int.add_comm s, map_add_intRange, Int.zero_add]
  rw [int32_of_bounds (by omega) (by omega), Outcome.ok_bind, firstIndex, ← hrange]
  split
  · simp only [Int.zero_add]
    rfl
  · split
    · rfl
    · rfl

/-- Where the selected vectors are inside the list. -/
theorem firstIndex_inside_iff :
    (0 ≤ q.firstIndex ∧ q.firstIndex + (q.polyDegree + 1) ≤ q.osvList.length) ↔
      ¬ (q.polyDegree % 2 = 0 ∧ q.vecIdx = q.osvList.length - 1 - q.polyDegree / 2) := by
  have hbounds := q.vecIdx_bounds
  have henough := q.enough
  have hdegree := q.degree_pos
  unfold firstIndex
  dsimp only
  split
  · omega
  · split
    · omega
    · omega

/-- The index, by the time. -/
theorem vecIdx_eq_iff (k : Int) :
    q.vecIdx = k ↔ q.first.utcMjd + k * ((q.last.utcMjd - q.first.utcMjd) /
        ((q.osvList.length : Int) - 1 : Int)) ≤ q.utc ∧
      q.utc < q.first.utcMjd + (k + 1 : Int) * ((q.last.utcMjd - q.first.utcMjd) /
        ((q.osvList.length : Int) - 1 : Int)) := by
  have hspan : 0 < q.last.utcMjd - q.first.utcMjd := sub_pos.mpr q.first_lt_last
  have hn : (0 : R) < ((q.osvList.length : Int) - 1 : Int) := by
    have h : (0 : Int) < (q.osvList.length : Int) - 1 := by
      have := q.enough
      have := q.degree_pos
      omega
    exact_mod_cast h
  have hposition : 0 ≤ (q.utc - q.first.utcMjd) / (q.last.utcMjd - q.first.utcMjd) *
      ((q.osvList.length : Int) - 1 : Int) :=
    mul_nonneg (div_nonneg (sub_nonneg.mpr q.first_le) hspan.le) hn.le
  have hstep : 0 < (q.last.utcMjd - q.first.utcMjd) / ((q.osvList.length : Int) - 1 : Int) :=
    div_pos hspan hn
  -- the position in steps of the list
  have hquotient : (q.utc - q.first.utcMjd) / (q.last.utcMjd - q.first.utcMjd) *
      ((q.osvList.length : Int) - 1 : Int) = (q.utc - q.first.utcMjd) /
        ((q.last.utcMjd - q.first.utcMjd) / ((q.osvList.length : Int) - 1 : Int)) := by
    rw [div_div_eq_mul_div, div_mul_eq_mul_div]
  rw [vecIdx, toInt_of_nonneg hposition, Int.floor_eq_iff, hquotient, le_div_iff₀ hstep,
    show ((k : R) + 1) = ((k + 1 : Int) : R) by push_cast; rfl, div_lt_iff₀ hstep,
    le_sub_iff_add_le, sub_lt_iff_lt_add, add_comm _ q.first.utcMjd, add_comm _ q.first.utcMjd]

theorem fitsInside_iff (hfits : q.osvList.length < 2147483648) :
    q.FitsInside q.utc ↔ q.OutsideLastMiddleStep := by
  have henough := q.enough
  unfold OutsideLastMiddleStep
  dsimp only
  rw [← q.vecIdx_eq_iff, ← q.firstIndex_inside_iff, SentinelPODOrbitFile.FitsInside,
    q.selectedIndices_eq hfits]
  constructor
  · intro h
    obtain ⟨first, hindices, h0, hle⟩ := h
    have hfirst := congrArg (·[0]?) (Outcome.ok.inj hindices)
    simp only [getElem?_intRange (show first + (0 : Nat) < first + (q.polyDegree + 1) by omega),
      getElem?_intRange (show q.firstIndex + (0 : Nat) < q.firstIndex + (q.polyDegree + 1) by
        omega)] at hfirst
    have hsame := Option.some.inj hfirst
    omega
  · intro h
    exact ⟨q.firstIndex, rfl, h.1, h.2⟩

/-! ### The polynomials -/

omit [FloorRing R] in
/-- A component of the vectors, fitted and evaluated at the time. -/
theorem polyVal_polyFit {solve : Solver R} (hsolve : solve.Exact) {osvs : List (OrbitVector R)}
    (hlength : q.polyDegree + 1 ≤ osvs.length)
    (hdistinct : osvs.Pairwise fun osv osv' => osv.utcMjd < osv'.utcMjd) {p : R[X]}
    (hp : p.natDegree ≤ q.polyDegree) {component : OrbitVector R → R}
    (hcomponent : ∀ osv ∈ osvs, component osv = p.eval osv.utcMjd) (t0 utc : R) :
    polyVal (utc - t0) (polyFit solve (createVandermondeMatrix
      (osvs.map fun osv => osv.utcMjd - t0) q.polyDegree) (osvs.map component)) = p.eval utc := by
  let times := osvs.map fun osv => osv.utcMjd - t0
  have hinjective : Function.Injective times.get := by
    refine List.nodup_iff_injective_get.mp (List.pairwise_map.mpr (hdistinct.imp fun h => ?_))
    exact fun hsame => h.ne (sub_left_injective hsame)
  -- the polynomial of the times from the first vector on
  let shifted := p.comp (X + C t0)
  have hshifted : shifted.natDegree < q.polyDegree + 1 := by
    have hdegree : shifted.natDegree = p.natDegree := by
      rw [natDegree_comp, natDegree_X_add_C, mul_one]
    omega
  have heval : ∀ x, shifted.eval x = p.eval (x + t0) := fun x => by
    rw [eval_comp, eval_add, eval_X, eval_C]
  have hsamples : (fun i : Fin times.length => (osvs.map component).getD i 0) =
      fun i => shifted.eval (times.get i) := by
    funext i
    have hi : (i : Nat) < osvs.length := lt_of_lt_of_eq i.isLt (List.length_map _)
    rw [List.getD_eq_getElem _ _ (hi.trans_eq (List.length_map _).symm), List.getElem_map,
      hcomponent _ (List.getElem_mem hi), heval]
    show p.eval osvs[i].utcMjd = p.eval ((osvs.map fun osv => osv.utcMjd - t0)[(i : Nat)] + t0)
    rw [List.getElem_map, sub_add_cancel]
    rfl
  have hle : q.polyDegree + 1 ≤ times.length := by rwa [List.length_map]
  have hcoeff := eq_coeff_of_normalEquations hinjective hle hshifted
    (hsolve _ _ _ _ (injective_powersMatrix hinjective hle))
  show horner (utc - t0) (List.ofFn (solve _ _ (powersMatrix times.get (q.polyDegree + 1))
    fun i => (osvs.map component).getD i 0)) = p.eval utc
  rw [hsamples, hcoeff, horner_coeff hshifted, heval, sub_add_cancel]

/-- The vectors of consecutive indices. -/
theorem collect_vectorAt_intRange {α : Type} {l : List α} {first : Int} {m : Nat}
    (h0 : 0 ≤ first) (hle : first + m ≤ l.length) :
    Outcome.collect ((intRange first (first + m)).map (vectorAt l)) =
      .ok ((l.drop first.toNat).take m) := by
  refine Outcome.collect_eq_ok.mpr (List.ext_getElem ?_ fun i h1 h2 => ?_)
  · simp only [List.length_map, length_intRange, List.length_take, List.length_drop]
    omega
  · have hi : i < m := by
      rw [List.length_map, length_intRange] at h1
      omega
    have hget : (intRange first (first + m))[i]? = some (first + i) :=
      getElem?_intRange (by omega)
    rw [List.getElem_map, List.getElem_map, List.getElem_take, List.getElem_drop,
      (List.getElem?_eq_some_iff.mp hget).2,
      show first + (i : Int) = ((first.toNat + i : Nat) : Int) by omega,
      vectorAt_natCast (by omega)]

/-- Where the vectors are inside the list, polynomial orbits are reproduced. -/
theorem reproduces {solve : Solver R} (hsolve : solve.Exact) (hfits : q.FitsInside q.utc) :
    q.Reproduces solve q.utc := by
  intro orbit hdegree horbit
  obtain ⟨first, hindices, h0, hle⟩ := hfits
  let osvs := (q.osvList.drop first.toNat).take (q.polyDegree + 1)
  have hsublist : osvs.Sublist q.osvList :=
    (List.take_sublist _ _).trans (List.drop_sublist _ _)
  have hlength : q.polyDegree + 1 ≤ osvs.length := by
    rw [List.length_take, List.length_drop]
    omega
  have hfit : ∀ {p : R[X]}, p.natDegree ≤ q.polyDegree → ∀ {component : OrbitVector R → R},
      (∀ osv ∈ q.osvList, component osv = p.eval osv.utcMjd) →
      polyVal (q.utc - q.first.utcMjd) (polyFit solve (createVandermondeMatrix
        (osvs.map fun osv => osv.utcMjd - q.first.utcMjd) q.polyDegree) (osvs.map component)) =
          p.eval q.utc := fun hp _ hcomponent =>
    q.polyVal_polyFit hsolve hlength (q.increasing.sublist hsublist) hp
      (fun osv hosv => hcomponent osv (hsublist.subset hosv)) _ _
  rw [SentinelPODOrbitFile.getOrbitData, vectorAt_eq_ok.mpr ⟨le_refl 0, q.first_eq⟩,
    Outcome.ok_bind, hindices, Outcome.ok_bind]
  have hcollect := collect_vectorAt_intRange (l := q.osvList) (m := q.polyDegree + 1) h0
    (by push_cast; exact hle)
  push_cast at hcollect
  rw [hcollect, Outcome.ok_bind]
  dsimp only
  rw [hfit hdegree.xPos fun osv hosv => by rw [horbit osv hosv]; rfl]
  rw [hfit hdegree.yPos fun osv hosv => by rw [horbit osv hosv]; rfl]
  rw [hfit hdegree.zPos fun osv hosv => by rw [horbit osv hosv]; rfl]
  rw [hfit hdegree.xVel fun osv hosv => by rw [horbit osv hosv]; rfl]
  rw [hfit hdegree.yVel fun osv hosv => by rw [horbit osv hosv]; rfl]
  rw [hfit hdegree.zVel fun osv hosv => by rw [horbit osv hosv]; rfl]
  rfl

/-- **The orbit at a time**: consecutive vectors inside the list are selected, and polynomial orbits
reproduced, except in that step. -/
theorem fitsInside_and_reproduces_iff {solve : Solver R} (hsolve : solve.Exact) :
    (q.FitsInside q.utc ∧ q.Reproduces solve q.utc) ↔
      q.osvList.length < 2147483648 ∧ q.OutsideLastMiddleStep := by
  constructor
  · intro h
    have hlength : q.osvList.length < 2147483648 := by
      by_contra hnot
      obtain ⟨first, hindices, -⟩ := h.1
      rw [SentinelPODOrbitFile.selectedIndices, int32_of_not_fits fun hfits => by
        have := fits32_iff.mp hfits
        omega] at hindices
      cases hindices
    exact ⟨hlength, (q.fitsInside_iff hlength).mp h.1⟩
  · intro h
    have hfits := (q.fitsInside_iff h.1).mpr h.2
    exact ⟨hfits, q.reproduces hsolve hfits⟩

end OrbitQuery

/-- Four vectors, a degree of two and a time between the last two vectors. -/
def quadraticQuery : OrbitQuery Rat where
  polyDegree := 2
  osvList := (List.range 4).map fun (i : Nat) => ⟨i, 0, 0, 0, 0, 0, 0⟩
  increasing := List.pairwise_map.mpr (List.pairwise_lt_range.imp fun h => Nat.cast_lt.mpr h)
  first := ⟨(0 : Nat), 0, 0, 0, 0, 0, 0⟩
  last := ⟨(3 : Nat), 0, 0, 0, 0, 0, 0⟩
  utc := 5 / 2
  first_eq := rfl
  last_eq := rfl
  degree_pos := Nat.le_succ 1
  enough := by decide
  first_le := by norm_num
  le_last := by norm_num

theorem fitsInside_and_reproduces_iff_quadratic :
    (quadraticQuery.FitsInside (5 / 2) ∧
        quadraticQuery.Reproduces (fun _ _ => normalSolution) (5 / 2)) ↔
      quadraticQuery.osvList.length < 2147483648 ∧ quadraticQuery.OutsideLastMiddleStep :=
  quadraticQuery.fitsInside_and_reproduces_iff fun _ _ _ y ha => mulVec_normalSolution ha y

/-- The middle vectors end one past the end of the list. -/
theorem not_fitsInside_quadratic : ¬ (quadraticQuery.FitsInside (5 / 2) ∧
    quadraticQuery.Reproduces (fun _ _ => normalSolution) (5 / 2)) := by
  intro h
  have houtside := (quadraticQuery.fitsInside_iff (by decide)).mp h.1
  refine houtside ⟨rfl, ?_, ?_⟩
  · show ((0 : Nat) : Rat) + ((2 : Int) : Rat) * ((((3 : Nat) : Rat) - (0 : Nat)) /
      ((3 : Int) : Rat)) ≤ 5 / 2
    norm_num
  · show (5 / 2 : Rat) < ((0 : Nat) : Rat) + ((2 + 1 : Int) : Rat) *
      ((((3 : Nat) : Rat) - (0 : Nat)) / ((3 : Int) : Rat))
    norm_num

end Time

end Alus.S1tbx
