import Mathlib.Data.Rat.Floor
import Alus.Lib.Lagrange
import Alus.Lib.Sampling
import Alus.S1tbx.OrbitStateVectors

/-!
# Orbit interpolation

The copies of the interpolation of the orbit: the one of `orbit_state_vectors.cuh` with and without
velocity, those of the class `OrbitStateVectors`, which remembers what it computed, and the one of
terrain correction, with a table of the reciprocals. The numbers are elements of an ordered field:
rounding is not modelled.
-/

namespace Alus.S1tbx

open Alus.Lib Polynomial

/-! ## The code -/

section Code

variable {R : Type} [Field R] [LinearOrder R] [FloorRing R]

/-- The window of the copies, from the outcome of reading the first vector. -/
def windowAround (readFirst : Outcome (OrbitStateVectorComputation R)) (time dt : R)
    (numOrbitVec : Int) : Outcome (Int × Int) :=
  if numOrbitVec ≤ nv then return (0, numOrbitVec - 1)
  else do
    let first ← readFirst
    let i0 := max (← int32 ((← int32 ((← quotientToInt (time - first.timeMjd) dt) - nv / 2)) + 1)) 0
    let iN := min (← int32 ((← int32 (i0 + nv)) - 1)) (numOrbitVec - 1)
    return (if iN < numOrbitVec - 1 then i0 else iN - nv + 1, iN)

theorem orbitWindow_eq (time dt : R) (orbit : List (OrbitStateVectorComputation R)) :
    orbitWindow time orbit dt = windowAround (vectorIndex orbit 0) time dt orbit.length := rfl

/-- The weight of the vector `orbI`, the `i`th one, with the other ones read by `read`. -/
def weightBy (read : Int → Outcome (OrbitStateVectorComputation R)) (time : R) (window : List Int)
    (i : Int) (orbI : OrbitStateVectorComputation R) : Outcome R :=
  window.foldlM (fun weight j => do
    if j ≠ i then
      let time2 := (← read j).timeMjd
      return weight * ((time - time2) / (orbI.timeMjd - time2))
    else return weight) 1

omit [LinearOrder R] [FloorRing R] in
theorem lagrangeWeight_eq (time : R) (orbit : List (OrbitStateVectorComputation R))
    (window : List Int) (i : Int) (orbI : OrbitStateVectorComputation R) :
    lagrangeWeight time orbit window i orbI = weightBy (vectorIndex orbit) time window i orbI := rfl

def OrbitStateVectorComputation.position (v : OrbitStateVectorComputation R) : PosVector R :=
  ⟨v.xPos, v.yPos, v.zPos⟩

def OrbitStateVectorComputation.velocity (v : OrbitStateVectorComputation R) : PosVector R :=
  ⟨v.xVel, v.yVel, v.zVel⟩

/-- `result.x += weight * v.x`, and so on. -/
def PosVector.addScaled (result : PosVector R) (weight : R) (v : PosVector R) : PosVector R :=
  ⟨result.x + weight * v.x, result.y + weight * v.y, result.z + weight * v.z⟩

/-- The loop over the window, for the position or the velocity. -/
def sumBy (read : Int → Outcome (OrbitStateVectorComputation R))
    (weightOf : Int → OrbitStateVectorComputation R → Outcome R)
    (component : OrbitStateVectorComputation R → PosVector R) (window : List Int) :
    Outcome (PosVector R) :=
  window.foldlM (fun result i => do
    let orbI ← read i
    let weight ← weightOf i orbI
    return result.addScaled weight (component orbI)) ⟨0, 0, 0⟩

/-- `dt` of the copies that compute it themselves. -/
def meanInterval (vectors : List (OrbitStateVectorComputation R)) : Outcome R := do
  let vectorsSize : Int := vectors.length
  let last ← vectorIndex vectors (vectorsSize - 1)
  let first ← vectorIndex vectors 0
  return (last.timeMjd - first.timeMjd) / ((vectorsSize - 1 : Int) : R)

def getPositionImpl (time : R) (vectors : List (OrbitStateVectorComputation R)) :
    Outcome (PosVector R) := do
  let dt ← meanInterval vectors
  let (i0, iN) ← windowAround (vectorIndex vectors 0) time dt vectors.length
  let window := intRange i0 (iN + 1)
  sumBy (vectorIndex vectors) (weightBy (vectorIndex vectors) time window) (·.position) window

/-- The table has a row for each vector. -/
def calculateOrbitStateVectorLut (compOrbits : List (OrbitStateVectorComputation R)) : List R :=
  compOrbits.flatMap fun osvI => compOrbits.map fun osvJ =>
    if osvI.timeMjd ≠ osvJ.timeMjd then 1 / (osvI.timeMjd - osvJ.timeMjd) else 0

/-- The weight of the `i`th vector with the reciprocals of the table. -/
def weightWithLut (time : R) (vectors : List (OrbitStateVectorComputation R)) (osvLut : List R)
    (window : List Int) (i : Int) : Outcome R :=
  window.foldlM (fun weight j => do
    if j ≠ i then
      let time2 := (← vectorIndex vectors j).timeMjd
      let reciprocal ← vectorIndex osvLut (← int32 ((← int32 (i * vectors.length)) + j))
      return weight * ((time - time2) * reciprocal)
    else return weight) 1

def getPositionWithLut (time : R) (vectors : List (OrbitStateVectorComputation R))
    (osvLut : List R) : Outcome (PosVector R) := do
  let dt ← meanInterval vectors
  let (i0, iN) ← windowAround (vectorIndex vectors 0) time dt vectors.length
  let window := intRange i0 (iN + 1)
  sumBy (vectorIndex vectors) (fun i _ => weightWithLut time vectors osvLut window i) (·.position)
    window

/-! ### The class `OrbitStateVectors` -/

/-- The first vector is kept, and every later one whose time is after that of the last one kept. -/
def keepLater (state : List (OrbitStateVectorComputation R) × R)
    (v : OrbitStateVectorComputation R) : List (OrbitStateVectorComputation R) × R :=
  if state.1 = [] ∨ v.timeMjd > state.2 then (state.1 ++ [v], v.timeMjd) else state

def removeRedundantVectors (orbitStateVectors : List (OrbitStateVectorComputation R)) :
    List (OrbitStateVectorComputation R) :=
  (orbitStateVectors.foldl keepLater ([], 0)).1

/-- `timeMap` remembers what was computed; the newest entry of a time counts. The `Utc` objects of
the vectors and the arrays of the sensor are not modelled. -/
structure OrbitStateVectors (R : Type) where
  orbitStateVectors : List (OrbitStateVectorComputation R)
  dt : R
  timeMap : List (R × PosVector R × PosVector R)

namespace OrbitStateVectors

/-- The constructor without an image. -/
def create (orbitStateVectors : List (OrbitStateVectorComputation R)) :
    Outcome (OrbitStateVectors R) := do
  let kept := removeRedundantVectors orbitStateVectors
  let last ← vectorIndex kept ((kept.length : Int) - 1)
  let first ← vectorAt kept 0
  return ⟨kept, (last.timeMjd - first.timeMjd) / ((kept.length : R) - 1), []⟩

def getPositionVelocity (o : OrbitStateVectors R) (time : R) :
    Outcome ((PosVector R × PosVector R) × OrbitStateVectors R) :=
  match o.timeMap.lookup time with
  | some pv => return (pv, o)
  | none => do
    let read := vectorAt o.orbitStateVectors
    let (i0, iN) ← windowAround (read 0) time o.dt o.orbitStateVectors.length
    let window := intRange i0 (iN + 1)
    let pv ← window.foldlM (fun pv i => do
      let orbI ← read i
      let weight ← weightBy read time window i orbI
      return (pv.1.addScaled weight orbI.position, pv.2.addScaled weight orbI.velocity))
        (⟨0, 0, 0⟩, ⟨0, 0, 0⟩)
    return (pv, { o with timeMap := (time, pv) :: o.timeMap })

def getPosition (o : OrbitStateVectors R) (time : R) : Outcome (PosVector R) := do
  let (i0, iN) ←
    windowAround (vectorIndex o.orbitStateVectors 0) time o.dt o.orbitStateVectors.length
  let window := intRange i0 (iN + 1)
  let read := vectorAt o.orbitStateVectors
  sumBy read (weightBy read time window) (·.position) window

def getVelocity (o : OrbitStateVectors R) (time : R) : Outcome (PosVector R) := do
  let (i0, iN) ←
    windowAround (vectorAt o.orbitStateVectors 0) time o.dt o.orbitStateVectors.length
  let window := intRange i0 (iN + 1)
  sumBy (vectorAt o.orbitStateVectors) (weightBy (vectorIndex o.orbitStateVectors) time window)
    (·.velocity) window

/-- A call of `GetPositionVelocity` for what it leaves behind. -/
def remember (o : OrbitStateVectors R) (time : R) : Outcome (OrbitStateVectors R) := do
  let (_, o) ← o.getPositionVelocity time
  return o

/-- The constructor with an image asks for the time of each line, in the order of the lines. -/
def createForImage (orbitStateVectors : List (OrbitStateVectorComputation R))
    (firstLineUtc lineTimeInterval : R) (sourceImageHeight : Int) :
    Outcome (OrbitStateVectors R) := do
  let o ← create orbitStateVectors
  Outcome.require (0 ≤ sourceImageHeight)
  (intRange 0 sourceImageHeight).foldlM
    (fun o i => o.remember (firstLineUtc + i * lineTimeInterval)) o

/-- The objects of the class after any calls. -/
inductive Reachable (orbitStateVectors : List (OrbitStateVectorComputation R)) :
    OrbitStateVectors R → Prop
  | create {o} (h : create orbitStateVectors = .ok o) : Reachable orbitStateVectors o
  | createForImage {o} (firstLineUtc lineTimeInterval : R) (sourceImageHeight : Int)
      (h : createForImage orbitStateVectors firstLineUtc lineTimeInterval sourceImageHeight =
        .ok o) : Reachable orbitStateVectors o
  | call {o o'} (time : R) (ho : Reachable orbitStateVectors o) (h : o.remember time = .ok o') :
      Reachable orbitStateVectors o'

end OrbitStateVectors

end Code

/-! ## A window of readable vectors -/

section Window

variable {R : Type} [Field R]

/-- The `i`th vector. -/
def nodeAt (vectors : List (OrbitStateVectorComputation R)) (i : Int) :
    OrbitStateVectorComputation R :=
  vectors.getD i.toNat ⟨0, 0, 0, 0, 0, 0, 0⟩

def nodeTime (vectors : List (OrbitStateVectorComputation R)) (i : Int) : R :=
  (nodeAt vectors i).timeMjd

/-- The interpolating polynomials of the components. -/
noncomputable def lagrangeVector (window : List Int) (t : Int → R) (p : Int → PosVector R)
    (s : R) : PosVector R :=
  ⟨lagrangeValue window t (fun i => (p i).x) s, lagrangeValue window t (fun i => (p i).y) s,
    lagrangeValue window t (fun i => (p i).z) s⟩

variable {vectors : List (OrbitStateVectorComputation R)}

theorem vectorIndex_node {i : Int} (h : 0 ≤ i ∧ i < vectors.length) :
    vectorIndex vectors i = .ok (nodeAt vectors i) := by
  obtain ⟨v, hv, hget⟩ := exists_vectorIndex h.1 h.2
  rw [hv, nodeAt, List.getD_eq_getElem?_getD, hget, Option.getD_some]

theorem vectorAt_node {i : Int} (h : 0 ≤ i ∧ i < vectors.length) :
    vectorAt vectors i = .ok (nodeAt vectors i) := by
  obtain ⟨n, rfl⟩ := Int.eq_ofNat_of_zero_le h.1
  rw [vectorAt_natCast (by omega), nodeAt, Int.toNat_natCast, List.getD_eq_getElem _ _ (by omega)]

variable {read : Int → Outcome (OrbitStateVectorComputation R)}
  {t : Int → R} {window : List Int} {time : R}

theorem weightBy_eq (hwindow : window.Nodup)
    (hread : ∀ j ∈ window, ∃ v, read j = .ok v ∧ v.timeMjd = t j) {i : Int}
    {orbI : OrbitStateVectorComputation R} (hi : orbI.timeMjd = t i) :
    weightBy read time window i orbI = .ok (nodeWeight window t i time) := by
  rw [← foldl_nodeWeight hwindow, weightBy]
  apply Outcome.foldlM_eq_ok
  intro j hj weight
  obtain ⟨v, hv, htime⟩ := hread j hj
  by_cases hji : j = i
  · rw [if_neg (not_not.mpr hji), if_neg (not_not.mpr hji)]
    rfl
  · rw [if_pos hji, if_pos hji, hv, ← htime, ← hi]
    rfl

theorem foldl_addScaled (w : Int → R) (p : Int → PosVector R) (init : PosVector R) :
    window.foldl (fun result i => result.addScaled (w i) (p i)) init =
      ⟨init.x + (window.map fun i => w i * (p i).x).sum,
        init.y + (window.map fun i => w i * (p i).y).sum,
        init.z + (window.map fun i => w i * (p i).z).sum⟩ := by
  induction window generalizing init with
  | nil => simp
  | cons i window ih =>
    rw [List.foldl_cons, ih]
    simp only [PosVector.addScaled, List.map_cons, List.sum_cons, add_assoc]

theorem foldl_addScaled_eq_lagrangeVector (hwindow : window.Nodup) (p : Int → PosVector R) :
    window.foldl (fun result i => result.addScaled (nodeWeight window t i time) (p i)) ⟨0, 0, 0⟩ =
      lagrangeVector window t p time := by
  simp only [foldl_addScaled, zero_add, sum_nodeWeight_mul hwindow, lagrangeVector]

/-- The loop of a component is the interpolation of the component. -/
theorem sumBy_eq (hwindow : window.Nodup)
    {weightOf : Int → OrbitStateVectorComputation R → Outcome R}
    {node : Int → OrbitStateVectorComputation R} (hread : ∀ i ∈ window, read i = .ok (node i))
    (hweight : ∀ i ∈ window, weightOf i (node i) = .ok (nodeWeight window t i time))
    (component : OrbitStateVectorComputation R → PosVector R) :
    sumBy read weightOf component window =
      .ok (lagrangeVector window t (fun i => component (node i)) time) := by
  rw [← foldl_addScaled_eq_lagrangeVector hwindow, sumBy]
  apply Outcome.foldlM_eq_ok
  intro i hi result
  rw [hread i hi, Outcome.ok_bind, hweight i hi]
  rfl

/-- The loop over both components. -/
theorem posvel_eq (hwindow : window.Nodup)
    {weightOf : Int → OrbitStateVectorComputation R → Outcome R}
    {node : Int → OrbitStateVectorComputation R} (hread : ∀ i ∈ window, read i = .ok (node i))
    (hweight : ∀ i ∈ window, weightOf i (node i) = .ok (nodeWeight window t i time)) :
    window.foldlM (fun (pv : PosVector R × PosVector R) i => do
      let orbI ← read i
      let weight ← weightOf i orbI
      return (pv.1.addScaled weight orbI.position, pv.2.addScaled weight orbI.velocity))
        (⟨0, 0, 0⟩, ⟨0, 0, 0⟩) =
      .ok (lagrangeVector window t (fun i => (node i).position) time,
        lagrangeVector window t (fun i => (node i).velocity) time) := by
  rw [← foldl_addScaled_eq_lagrangeVector hwindow, ← foldl_addScaled_eq_lagrangeVector hwindow,
    ← List.foldl_hom₂ window Prod.mk _ _
      (fun pv i => (pv.1.addScaled (nodeWeight window t i time) (node i).position,
        pv.2.addScaled (nodeWeight window t i time) (node i).velocity)) _ _ fun _ _ _ => rfl]
  apply Outcome.foldlM_eq_ok
  intro i hi pv
  rw [hread i hi, Outcome.ok_bind, hweight i hi]
  rfl

end Window

/-! ## The window of an orbit -/

/-- At least two vectors with increasing times, which an `int` counts. -/
structure StateVectors (R : Type) [LinearOrder R] where
  vectors : List (OrbitStateVectorComputation R)
  two : 2 ≤ vectors.length
  increasing : vectors.Pairwise fun a b => a.timeMjd < b.timeMjd
  count : vectors.length < 2147483648

namespace StateVectors

section Window

variable {R : Type} [Field R] [LinearOrder R]

/-- The number of vectors. -/
def n (orbit : StateVectors R) : Int := orbit.vectors.length

omit [Field R] in
theorem n_lt (orbit : StateVectors R) : orbit.n < 2147483648 := by
  have hcount := orbit.count
  rw [n]
  omega

def time (orbit : StateVectors R) (i : Int) : R := nodeTime orbit.vectors i

/-- The mean distance of the vectors in time. -/
def dt (orbit : StateVectors R) : R :=
  (orbit.time (orbit.n - 1) - orbit.time 0) / ((orbit.n : R) - 1)

variable {orbit : StateVectors R}

omit [Field R] in
theorem two_le_n (orbit : StateVectors R) : 2 ≤ orbit.n := by
  have htwo := orbit.two
  rw [n]
  omega

theorem time_lt {i j : Int} (hi : 0 ≤ i) (hij : i < j) (hj : j < orbit.n) :
    orbit.time i < orbit.time j := by
  rw [n] at hj
  rw [time, time, nodeTime, nodeTime, nodeAt, nodeAt, List.getD_eq_getElem _ _ (by omega),
    List.getD_eq_getElem _ _ (by omega)]
  exact List.pairwise_iff_getElem.mp orbit.increasing _ _ _ _ (by omega)

theorem time_injOn : Set.InjOn orbit.time {i | 0 ≤ i ∧ i < orbit.n} := by
  intro i hi j hj h
  rcases lt_trichotomy i j with hlt | heq | hlt
  · exact absurd h (time_lt hi.1 hlt hj.2).ne
  · exact heq
  · exact absurd h.symm (time_lt hj.1 hlt hi.2).ne

theorem vectorIndex_first (orbit : StateVectors R) :
    vectorIndex orbit.vectors 0 = .ok (nodeAt orbit.vectors 0) := by
  have htwo := orbit.two
  exact vectorIndex_node (by omega)

theorem vectorAt_first (orbit : StateVectors R) :
    vectorAt orbit.vectors 0 = .ok (nodeAt orbit.vectors 0) := by
  have htwo := orbit.two
  exact vectorAt_node (by omega)

theorem meanInterval_eq (orbit : StateVectors R) :
    meanInterval orbit.vectors = .ok orbit.dt := by
  have htwo := orbit.two_le_n
  rw [n] at htwo
  rw [meanInterval, vectorIndex_node (by omega), Outcome.ok_bind, vectorIndex_node (by omega)]
  simp [dt, n, time, nodeTime]

end Window

section Quotient

variable {R : Type} [Field R] [LinearOrder R] [IsStrictOrderedRing R] [FloorRing R]
  {orbit : StateVectors R} {s : R}

theorem dt_pos (orbit : StateVectors R) : 0 < orbit.dt := by
  have htwo := orbit.two_le_n
  have hcount : (1 : R) < orbit.n := by exact_mod_cast htwo
  exact div_pos (sub_pos.mpr (time_lt le_rfl (by omega) (by omega))) (sub_pos.mpr hcount)

/-- The truncated quotient that the window is placed by. -/
def steps (orbit : StateVectors R) (s : R) : Int := toInt ((s - orbit.time 0) / orbit.dt)

/-- The index behind which no vector of the window lies. -/
def lastIndex (orbit : StateVectors R) (s : R) : Int :=
  if orbit.n ≤ 8 then orbit.n - 1 else min (max (orbit.steps s - 3) 0 + 7) (orbit.n - 1)

def firstIndex (orbit : StateVectors R) (s : R) : Int := orbit.lastIndex s - min orbit.n 8 + 1

/-- The arithmetic that places the window stays inside `int`. -/
def Placed (orbit : StateVectors R) (s : R) : Prop :=
  orbit.n ≤ 8 ∨ -2147483644 ≤ orbit.steps s ∧ orbit.steps s ≤ 2147483642

omit [IsStrictOrderedRing R] in
/-- The window holds eight vectors, or all when there are fewer, and lies inside the list. -/
theorem window_inside (orbit : StateVectors R) (s : R) :
    0 ≤ orbit.firstIndex s ∧ orbit.lastIndex s < orbit.n ∧
      orbit.lastIndex s - orbit.firstIndex s + 1 = min orbit.n 8 := by
  have htwo := orbit.two_le_n
  rw [firstIndex, lastIndex]
  split <;> omega

/-- **The window of the copies**, wherever they read the first vector. -/
theorem windowAround_eq_ok {readFirst : Outcome (OrbitStateVectorComputation R)}
    (hfirst : readFirst = .ok (nodeAt orbit.vectors 0)) {w : Int × Int} :
    windowAround readFirst s orbit.dt orbit.vectors.length = .ok w ↔
      Placed orbit s ∧ w = (orbit.firstIndex s, orbit.lastIndex s) := by
  change windowAround readFirst s orbit.dt orbit.n = .ok w ↔ _
  have hnv : nv = 8 := rfl
  have hhalf : nv / 2 = 4 := rfl
  have htwo := orbit.two_le_n
  rw [windowAround, Placed, firstIndex, lastIndex, hhalf, hnv, hfirst]
  by_cases hsmall : orbit.n ≤ 8
  · rw [if_pos hsmall, if_pos hsmall, Outcome.pure_eq, min_eq_left hsmall]
    simp only [hsmall, true_or, true_and, Outcome.ok.injEq]
    constructor
    · rintro rfl
      simp only [Prod.mk.injEq, and_true]
      omega
    · rintro rfl
      simp only [Prod.mk.injEq, and_true]
      omega
  · have hquot : quotientToInt (s - (nodeAt orbit.vectors 0).timeMjd) orbit.dt =
        int32 (orbit.steps s) := if_neg (dt_pos orbit).ne'
    have hcount := orbit.n_lt
    rw [if_neg hsmall, if_neg hsmall, min_eq_right (show 8 ≤ orbit.n by omega), Outcome.ok_bind,
      hquot]
    simp only [Outcome.bind_eq_ok, int32_eq_ok, and_assoc, exists_and_left, exists_eq_left,
      fits32_iff, Outcome.pure_eq, Outcome.ok.injEq, hsmall, false_or, Prod.ext_iff]
    split <;> omega

/-! ## The copies -/

def window (orbit : StateVectors R) (s : R) : List Int :=
  intRange (orbit.firstIndex s) (orbit.lastIndex s + 1)

/-- The interpolated position and velocity. -/
noncomputable def position (orbit : StateVectors R) (s : R) : PosVector R :=
  lagrangeVector (orbit.window s) orbit.time (fun i => (nodeAt orbit.vectors i).position) s

noncomputable def velocity (orbit : StateVectors R) (s : R) : PosVector R :=
  lagrangeVector (orbit.window s) orbit.time (fun i => (nodeAt orbit.vectors i).velocity) s

omit [IsStrictOrderedRing R] in
theorem mem_window {i : Int} : i ∈ orbit.window s ↔
    orbit.firstIndex s ≤ i ∧ i ≤ orbit.lastIndex s := by
  rw [window, mem_intRange, Int.lt_add_one_iff]

omit [IsStrictOrderedRing R] in
theorem inside_of_mem {i : Int} (h : i ∈ orbit.window s) :
    0 ≤ i ∧ i < orbit.vectors.length := by
  obtain ⟨h0, hlast, -⟩ := window_inside orbit s
  rw [n] at hlast
  rw [mem_window] at h
  omega

omit [IsStrictOrderedRing R] in
theorem nodup_window (orbit : StateVectors R) (s : R) : (orbit.window s).Nodup :=
  nodup_intRange _ _

section Reading

variable {read : Int → Outcome (OrbitStateVectorComputation R)}
  (hread : ∀ i : Int, 0 ≤ i ∧ i < orbit.vectors.length → read i = .ok (nodeAt orbit.vectors i))

include hread

omit [IsStrictOrderedRing R] in
theorem weightBy_window (time : R) (i : Int) :
    weightBy read time (orbit.window s) i (nodeAt orbit.vectors i) =
      .ok (nodeWeight (orbit.window s) orbit.time i time) :=
  weightBy_eq (nodup_window orbit s) (fun j hj => ⟨_, hread j (inside_of_mem hj), rfl⟩) rfl

omit [IsStrictOrderedRing R] in
theorem sumBy_window {weightOf : Int → OrbitStateVectorComputation R → Outcome R}
    (hweight : ∀ i ∈ orbit.window s, weightOf i (nodeAt orbit.vectors i) =
      .ok (nodeWeight (orbit.window s) orbit.time i s))
    (component : OrbitStateVectorComputation R → PosVector R) :
    sumBy read weightOf component (orbit.window s) =
      .ok (lagrangeVector (orbit.window s) orbit.time
        (fun i => component (nodeAt orbit.vectors i)) s) :=
  sumBy_eq (nodup_window orbit s) (fun i hi => hread i (inside_of_mem hi)) hweight component

end Reading

theorem getPositionVelocity_eq (h : orbit.Placed s) :
    S1tbx.getPositionVelocity s orbit.vectors orbit.dt =
      .ok (orbit.position s, orbit.velocity s) := by
  rw [S1tbx.getPositionVelocity, orbitWindow_eq,
    (windowAround_eq_ok orbit.vectorIndex_first).mpr ⟨h, rfl⟩]
  exact posvel_eq (nodup_window orbit s) (fun i hi => vectorIndex_node (inside_of_mem hi))
    fun i _ => weightBy_window (fun _ => vectorIndex_node) s i

theorem getPositionImpl_eq (h : orbit.Placed s) :
    getPositionImpl s orbit.vectors = .ok (orbit.position s) := by
  rw [getPositionImpl, meanInterval_eq, Outcome.ok_bind,
    (windowAround_eq_ok orbit.vectorIndex_first).mpr ⟨h, rfl⟩]
  exact sumBy_window (fun _ => vectorIndex_node)
    (fun i _ => weightBy_window (fun _ => vectorIndex_node) s i) _

/-- The indices into the table of reciprocals stay inside `int`. -/
def TableFits (orbit : StateVectors R) (s : R) : Prop :=
  orbit.lastIndex s * orbit.n + orbit.lastIndex s ≤ 2147483648

omit [IsStrictOrderedRing R] in
theorem lutIndex_fits (hfits : orbit.TableFits s) {i j : Int} (hi : i ∈ orbit.window s)
    (hj : j ∈ orbit.window s) (hne : j ≠ i) :
    Fits 32 (i * orbit.vectors.length) ∧ Fits 32 (i * orbit.vectors.length + j) := by
  have hi0 := inside_of_mem hi
  have hj0 := inside_of_mem hj
  have hilast := (mem_window.mp hi).2
  have hjlast := (mem_window.mp hj).2
  rw [TableFits, n] at hfits
  have hrow : 0 ≤ i * orbit.vectors.length := Int.mul_nonneg hi0.1 (by omega)
  -- either the row or the column lies before the last one
  have hindex : i * orbit.vectors.length + j < 2147483648 := by
    rcases hilast.lt_or_eq with hlt | heq
    · have hrows : (i + 1) * orbit.vectors.length ≤ orbit.lastIndex s * orbit.vectors.length :=
        Int.mul_le_mul_of_nonneg_right (by omega) (by omega)
      rw [add_mul, one_mul] at hrows
      omega
    · rw [heq]
      omega
  exact ⟨fits32_iff.mpr (by omega), fits32_iff.mpr (by omega)⟩

omit [IsStrictOrderedRing R] [FloorRing R] in
theorem lut_read (orbit : StateVectors R) {i j : Int} (hi : 0 ≤ i ∧ i < orbit.vectors.length)
    (hj : 0 ≤ j ∧ j < orbit.vectors.length) (hne : j ≠ i) :
    vectorIndex (calculateOrbitStateVectorLut orbit.vectors) (i * orbit.vectors.length + j) =
      .ok (1 / (orbit.time i - orbit.time j)) := by
  obtain ⟨i, rfl⟩ := Int.eq_ofNat_of_zero_le hi.1
  obtain ⟨j, rfl⟩ := Int.eq_ofNat_of_zero_le hj.1
  have htimes : orbit.time i ≠ orbit.time j := fun h => hne (time_injOn hi hj h).symm
  have hi' : i < orbit.vectors.length := by omega
  have hj' : j < orbit.vectors.length := by omega
  have htime : ∀ {k : Nat} (hk : k < orbit.vectors.length),
      orbit.vectors[k].timeMjd = orbit.time k := by
    intro k hk
    rw [time, nodeTime, nodeAt, Int.toNat_natCast, List.getD_eq_getElem _ _ hk]
  have hcell := getElem?_flatMap_block (l := orbit.vectors) (y := i) (x := j)
    (f := fun osvI => orbit.vectors.map fun osvJ =>
      if osvI.timeMjd ≠ osvJ.timeMjd then 1 / (osvI.timeMjd - osvJ.timeMjd) else 0)
    (fun _ _ => List.length_map _) hj'
  rw [List.getElem?_eq_getElem hi', Option.bind_some, List.getElem?_map,
    List.getElem?_eq_getElem hj', Option.map_some, htime hi', htime hj', if_pos htimes] at hcell
  exact vectorIndex_eq_ok.mpr ⟨by positivity, hcell⟩

omit [IsStrictOrderedRing R] in
/-- The table of reciprocals gives the same weights, when its indices are `int` values. -/
theorem weightWithLut_window (hfits : orbit.TableFits s) {i : Int} (hi : i ∈ orbit.window s) :
    weightWithLut s orbit.vectors (calculateOrbitStateVectorLut orbit.vectors) (orbit.window s) i =
      .ok (nodeWeight (orbit.window s) orbit.time i s) := by
  have hn := orbit.n_lt
  rw [← foldl_nodeWeight (nodup_window orbit s), weightWithLut]
  apply Outcome.foldlM_eq_ok
  intro j hj weight
  have hi' := inside_of_mem hi
  have hj' := inside_of_mem hj
  by_cases hji : j = i
  · rw [if_neg (not_not.mpr hji), if_neg (not_not.mpr hji)]
    rfl
  · obtain ⟨hindex, hindex'⟩ := lutIndex_fits hfits hi hj hji
    rw [if_pos hji, if_pos hji, vectorIndex_node hj', Outcome.ok_bind, int32_of_fits hindex,
      Outcome.ok_bind, int32_of_fits hindex', Outcome.ok_bind, lut_read orbit hi' hj' hji,
      Outcome.ok_bind, div_eq_mul_one_div (s - orbit.time j)]
    rfl

theorem getPositionWithLut_eq (h : orbit.Placed s) (hfits : orbit.TableFits s) :
    getPositionWithLut s orbit.vectors (calculateOrbitStateVectorLut orbit.vectors) =
      .ok (orbit.position s) := by
  rw [getPositionWithLut, meanInterval_eq, Outcome.ok_bind,
    (windowAround_eq_ok orbit.vectorIndex_first).mpr ⟨h, rfl⟩]
  exact sumBy_window (fun _ => vectorIndex_node)
    (fun i hi => weightWithLut_window hfits hi) _

/-- The last pair of vectors of the window has the greatest index. -/
theorem tableFits_of_getPositionWithLut (h : orbit.Placed s) {result : PosVector R}
    (hresult : getPositionWithLut s orbit.vectors (calculateOrbitStateVectorLut orbit.vectors) =
      .ok result) : orbit.TableFits s := by
  have htwo := orbit.two_le_n
  obtain ⟨h0, hlast, hcount⟩ := window_inside orbit s
  have hi : orbit.lastIndex s ∈ orbit.window s := mem_window.mpr (by omega)
  have hj : orbit.lastIndex s - 1 ∈ orbit.window s := mem_window.mpr (by omega)
  rw [getPositionWithLut, meanInterval_eq, Outcome.ok_bind,
    (windowAround_eq_ok orbit.vectorIndex_first).mpr ⟨h, rfl⟩] at hresult
  obtain ⟨r, r', hround⟩ := Outcome.ok_of_foldlM hresult hi
  rw [vectorIndex_node (inside_of_mem hi), Outcome.ok_bind] at hround
  obtain ⟨w, hweight, -⟩ := Outcome.bind_eq_ok.mp hround
  obtain ⟨w', w'', hround⟩ := Outcome.ok_of_foldlM hweight hj
  rw [if_pos (by omega), vectorIndex_node (inside_of_mem hj), Outcome.ok_bind] at hround
  obtain ⟨row, hrow, hround⟩ := Outcome.bind_eq_ok.mp hround
  obtain ⟨-, rfl⟩ := int32_eq_ok.mp hrow
  obtain ⟨index, hindex, -⟩ := Outcome.bind_eq_ok.mp hround
  have hfits := fits32_iff.mp (int32_eq_ok.mp hindex).1
  rw [TableFits, n]
  omega

/-! ### The class -/

/-- An object whose vectors are those of the orbit and whose memory holds interpolated values. -/
structure Remembers (orbit : StateVectors R) (o : OrbitStateVectors R) : Prop where
  vectors_eq : o.orbitStateVectors = orbit.vectors
  dt_eq : o.dt = orbit.dt
  timeMap_eq : ∀ e ∈ o.timeMap,
    orbit.Placed e.1 ∧ e.2 = (orbit.position e.1, orbit.velocity e.1)

omit [Field R] [IsStrictOrderedRing R] [FloorRing R] in
theorem mem_of_lookup {l : List (R × PosVector R × PosVector R)} {pv : PosVector R × PosVector R}
    (h : l.lookup s = some pv) : (s, pv) ∈ l := by
  obtain ⟨l₁, l₂, rfl, -⟩ := List.lookup_eq_some_iff.mp h
  simp

/-- A call returns the interpolated state, and what it remembers is right as well. -/
theorem Remembers.exists_getPositionVelocity {o : OrbitStateVectors R} (ho : orbit.Remembers o)
    (h : orbit.Placed s) : ∃ o', orbit.Remembers o' ∧
      o.getPositionVelocity s = .ok ((orbit.position s, orbit.velocity s), o') := by
  rw [OrbitStateVectors.getPositionVelocity]
  cases hlookup : o.timeMap.lookup s with
  | some pv => exact ⟨o, ho, by rw [← (ho.timeMap_eq _ (mem_of_lookup hlookup)).2]; rfl⟩
  | none =>
    refine ⟨{ o with timeMap := (s, orbit.position s, orbit.velocity s) :: o.timeMap },
      ⟨ho.vectors_eq, ho.dt_eq, ?_⟩, ?_⟩
    · intro e he
      rcases List.mem_cons.mp he with rfl | he
      · exact ⟨h, rfl⟩
      · exact ho.timeMap_eq e he
    · have hpv := posvel_eq (nodup_window orbit s)
        (fun i (hi : i ∈ orbit.window s) => vectorAt_node (inside_of_mem hi))
        fun i _ => weightBy_window (s := s) (fun _ => vectorAt_node) s i
      simp only [ho.vectors_eq, ho.dt_eq,
        (windowAround_eq_ok orbit.vectorAt_first).mpr ⟨h, rfl⟩, Outcome.ok_bind]
      rw [window] at hpv
      rw [hpv]
      rfl

theorem Remembers.placed {o o' : OrbitStateVectors R} (ho : orbit.Remembers o)
    {pv : PosVector R × PosVector R} (h : o.getPositionVelocity s = .ok (pv, o')) :
    orbit.Placed s := by
  rw [OrbitStateVectors.getPositionVelocity] at h
  cases hlookup : o.timeMap.lookup s with
  | some pv => exact (ho.timeMap_eq _ (mem_of_lookup hlookup)).1
  | none =>
    simp only [hlookup, ho.vectors_eq, ho.dt_eq] at h
    obtain ⟨w, hw, -⟩ := Outcome.bind_eq_ok.mp h
    exact ((windowAround_eq_ok orbit.vectorAt_first).mp hw).1

/-- A call keeps an object right. -/
theorem Remembers.remember {o o' : OrbitStateVectors R} (ho : orbit.Remembers o)
    (h : o.remember s = .ok o') : orbit.Remembers o' := by
  obtain ⟨⟨pv, o₁⟩, hcall, h⟩ := Outcome.bind_eq_ok.mp h
  cases h
  obtain ⟨o₂, ho₂, hcall₂⟩ := ho.exists_getPositionVelocity (ho.placed hcall)
  rw [hcall] at hcall₂
  cases hcall₂
  exact ho₂

omit [Field R] [IsStrictOrderedRing R] [FloorRing R] in
theorem foldl_keepLater {rest kept : List (OrbitStateVectorComputation R)} {currentTime : R}
    (hlater : kept = [] ∨ ∀ v ∈ rest, currentTime < v.timeMjd)
    (hrest : rest.Pairwise fun a b => a.timeMjd < b.timeMjd) :
    (rest.foldl keepLater (kept, currentTime)).1 = kept ++ rest := by
  induction rest generalizing kept currentTime with
  | nil => exact (List.append_nil kept).symm
  | cons v rest ih =>
    obtain ⟨hv, hrest⟩ := List.pairwise_cons.mp hrest
    have hkeep : kept = [] ∨ v.timeMjd > currentTime :=
      hlater.imp_right fun hlater => hlater v List.mem_cons_self
    rw [List.foldl_cons, keepLater, if_pos hkeep, ih (.inr hv) hrest, List.append_assoc,
      List.singleton_append]

omit [IsStrictOrderedRing R] [FloorRing R] in
/-- Vectors with increasing times are all kept. -/
theorem removeRedundantVectors_eq {vectors : List (OrbitStateVectorComputation R)}
    (h : vectors.Pairwise fun a b => a.timeMjd < b.timeMjd) :
    removeRedundantVectors vectors = vectors :=
  foldl_keepLater (.inl rfl) h

omit [IsStrictOrderedRing R] in
theorem exists_create (orbit : StateVectors R) :
    ∃ o, OrbitStateVectors.create orbit.vectors = .ok o ∧ orbit.Remembers o := by
  have htwo := orbit.two
  refine ⟨⟨orbit.vectors, orbit.dt, []⟩, ?_, rfl, rfl, fun e he => absurd he List.not_mem_nil⟩
  rw [OrbitStateVectors.create, removeRedundantVectors_eq orbit.increasing]
  have hlast : vectorIndex orbit.vectors (orbit.vectors.length - 1) =
      .ok (nodeAt orbit.vectors (orbit.vectors.length - 1)) := vectorIndex_node (by omega)
  simp only [hlast, vectorAt_first, Outcome.ok_bind,
    Outcome.pure_eq, dt, time, nodeTime, n, Int.cast_natCast]

/-- **The memory of the class.** Whatever was asked before, it holds interpolated states. -/
theorem Remembers.of_reachable {o : OrbitStateVectors R}
    (h : OrbitStateVectors.Reachable orbit.vectors o) : orbit.Remembers o := by
  have hcreate : ∀ {o}, OrbitStateVectors.create orbit.vectors = .ok o → orbit.Remembers o := by
    intro o h
    obtain ⟨o', ho', hright⟩ := exists_create orbit
    rw [ho'] at h
    cases h
    exact hright
  induction h with
  | create h => exact hcreate h
  | createForImage firstLineUtc lineTimeInterval sourceImageHeight h =>
    obtain ⟨o, ho, h⟩ := Outcome.bind_eq_ok.mp h
    obtain ⟨-, -, h⟩ := Outcome.bind_eq_ok.mp h
    exact Outcome.foldlM_inv orbit.Remembers (fun _ _ _ _ ho hstep => ho.remember hstep)
      (hcreate ho) h
  | call time _ h ih => exact ih.remember h

theorem Remembers.getPosition_eq {o : OrbitStateVectors R} (ho : orbit.Remembers o)
    (h : orbit.Placed s) : o.getPosition s = .ok (orbit.position s) := by
  rw [OrbitStateVectors.getPosition, ho.vectors_eq, ho.dt_eq,
    (windowAround_eq_ok orbit.vectorIndex_first).mpr ⟨h, rfl⟩]
  exact sumBy_window (fun _ => vectorAt_node)
    (fun i _ => weightBy_window (fun _ => vectorAt_node) s i) _

theorem Remembers.getVelocity_eq {o : OrbitStateVectors R} (ho : orbit.Remembers o)
    (h : orbit.Placed s) : o.getVelocity s = .ok (orbit.velocity s) := by
  rw [OrbitStateVectors.getVelocity, ho.vectors_eq, ho.dt_eq,
    (windowAround_eq_ok orbit.vectorAt_first).mpr ⟨h, rfl⟩]
  exact sumBy_window (fun _ => vectorAt_node)
    (fun i _ => weightBy_window (fun _ => vectorIndex_node) s i) _

/-! ## What interpolation should be -/

/-- An orbit whose components are polynomials. -/
noncomputable def evalAt (p : PosVector R[X]) (s : R) : PosVector R :=
  ⟨p.x.eval s, p.y.eval s, p.z.eval s⟩

/-- Lagrange interpolation on a window: the weights add up to one and are those of the nodes there,
the state at a node is reproduced, and so is an orbit of polynomials. -/
structure InterpolatesOn (orbit : StateVectors R) (window : List Int) (s : R)
    (position velocity : PosVector R) : Prop where
  weights : ∃ w : Int → R, (∀ i ∈ window, lagrangeWeight s orbit.vectors window i
    (nodeAt orbit.vectors i) = .ok (w i)) ∧ (window.map w).sum = 1
  node_weights : ∀ k ∈ window, ∀ i ∈ window, lagrangeWeight (orbit.time k) orbit.vectors window i
    (nodeAt orbit.vectors i) = .ok (if i = k then 1 else 0)
  nodes : ∀ k ∈ window, s = orbit.time k →
    position = (nodeAt orbit.vectors k).position ∧ velocity = (nodeAt orbit.vectors k).velocity
  positions : ∀ p : PosVector R[X], p.x.degree < window.length → p.y.degree < window.length →
    p.z.degree < window.length → (∀ v ∈ orbit.vectors, v.position = evalAt p v.timeMjd) →
    position = evalAt p s
  velocities : ∀ p : PosVector R[X], p.x.degree < window.length → p.y.degree < window.length →
    p.z.degree < window.length → (∀ v ∈ orbit.vectors, v.velocity = evalAt p v.timeMjd) →
    velocity = evalAt p s

/-- The copies give one position, and those with a velocity one velocity. -/
structure CopiesAgree (orbit : StateVectors R) (s : R) (position velocity : PosVector R) :
    Prop where
  device : S1tbx.getPositionVelocity s orbit.vectors orbit.dt = .ok (position, velocity)
  impl : getPositionImpl s orbit.vectors = .ok position
  withLut : getPositionWithLut s orbit.vectors (calculateOrbitStateVectorLut orbit.vectors) =
    .ok position
  constructed : ∃ o, OrbitStateVectors.create orbit.vectors = .ok o
  host : ∀ o, OrbitStateVectors.Reachable orbit.vectors o →
    (∃ o', o.getPositionVelocity s = .ok ((position, velocity), o')) ∧
      o.getPosition s = .ok position ∧ o.getVelocity s = .ok velocity

/-- The interpolation at a time, in all its copies. -/
def Interpolates (orbit : StateVectors R) (s : R) : Prop :=
  ∃ i0 iN position velocity, orbitWindow s orbit.vectors orbit.dt = .ok (i0, iN) ∧
    (0 ≤ i0 ∧ iN ≤ orbit.n - 1 ∧ iN - i0 + 1 = min orbit.n 8) ∧
    InterpolatesOn orbit (intRange i0 (iN + 1)) s position velocity ∧
    CopiesAgree orbit s position velocity

/-! ## The theorem -/

omit [IsStrictOrderedRing R] in
theorem window_injOn (orbit : StateVectors R) (s : R) :
    Set.InjOn orbit.time {i | i ∈ orbit.window s} :=
  time_injOn.mono fun _ hi => inside_of_mem hi

omit [IsStrictOrderedRing R] in
theorem lagrangeVector_node (p : Int → PosVector R) {k : Int} (hk : k ∈ orbit.window s) :
    lagrangeVector (orbit.window s) orbit.time p (orbit.time k) = p k := by
  have hinj := window_injOn orbit s
  rw [lagrangeVector, lagrangeValue_node hinj hk, lagrangeValue_node hinj hk,
    lagrangeValue_node hinj hk]

omit [IsStrictOrderedRing R] in
theorem lagrangeVector_polynomial {component : OrbitStateVectorComputation R → PosVector R}
    {p : PosVector R[X]} (hx : p.x.degree < (orbit.window s).length)
    (hy : p.y.degree < (orbit.window s).length) (hz : p.z.degree < (orbit.window s).length)
    (hp : ∀ v ∈ orbit.vectors, component v = evalAt p v.timeMjd) :
    lagrangeVector (orbit.window s) orbit.time (fun i => component (nodeAt orbit.vectors i)) s =
      evalAt p s := by
  have hinj := window_injOn orbit s
  have hnodup := nodup_window orbit s
  have hnode : ∀ i ∈ orbit.window s,
      evalAt p (orbit.time i) = component (nodeAt orbit.vectors i) := by
    intro i hi
    obtain ⟨h0, hlt⟩ := inside_of_mem hi
    refine (hp (nodeAt orbit.vectors i) ?_).symm
    rw [nodeAt, List.getD_eq_getElem _ _ (by omega)]
    exact List.getElem_mem _
  rw [lagrangeVector, evalAt,
    lagrangeValue_polynomial hinj hnodup hx fun i hi => congrArg PosVector.x (hnode i hi),
    lagrangeValue_polynomial hinj hnodup hy fun i hi => congrArg PosVector.y (hnode i hi),
    lagrangeValue_polynomial hinj hnodup hz fun i hi => congrArg PosVector.z (hnode i hi)]

omit [IsStrictOrderedRing R] in
theorem window_ne_nil (orbit : StateVectors R) (s : R) : orbit.window s ≠ [] := by
  have htwo := orbit.two_le_n
  obtain ⟨-, -, hcount⟩ := window_inside orbit s
  exact List.ne_nil_of_mem (mem_window.mpr ⟨le_refl _, by omega⟩)

omit [IsStrictOrderedRing R] in
theorem interpolatesOn_window (orbit : StateVectors R) (s : R) :
    InterpolatesOn orbit (orbit.window s) s (orbit.position s) (orbit.velocity s) where
  weights := ⟨fun i => nodeWeight (orbit.window s) orbit.time i s,
    fun i _ => weightBy_window (fun _ => vectorIndex_node) s i,
    sum_nodeWeight (window_injOn orbit s) (nodup_window orbit s) (window_ne_nil orbit s) s⟩
  node_weights k hk i hi := by
    rw [lagrangeWeight_eq, weightBy_window (fun _ => vectorIndex_node) (orbit.time k) i,
      nodeWeight_node (window_injOn orbit s) hi hk]
  nodes k hk hs := by
    subst hs
    exact ⟨lagrangeVector_node _ hk, lagrangeVector_node _ hk⟩
  positions p hx hy hz hp := lagrangeVector_polynomial hx hy hz hp
  velocities p hx hy hz hp := lagrangeVector_polynomial hx hy hz hp

/-- **Orbit interpolation.** The copies interpolate on one window inside the list, as long as the
integers of the window and of the table of reciprocals stay inside `int`. -/
theorem interpolates_iff (orbit : StateVectors R) (s : R) :
    orbit.Interpolates s ↔ orbit.Placed s ∧ orbit.TableFits s := by
  constructor
  · rintro ⟨i0, iN, position, velocity, hwindow, -, -, hcopies⟩
    rw [orbitWindow_eq] at hwindow
    have hplaced := ((windowAround_eq_ok orbit.vectorIndex_first).mp hwindow).1
    exact ⟨hplaced, tableFits_of_getPositionWithLut hplaced hcopies.withLut⟩
  · rintro ⟨hplaced, htable⟩
    obtain ⟨h0, hlast, hcount⟩ := window_inside orbit s
    refine ⟨orbit.firstIndex s, orbit.lastIndex s, orbit.position s, orbit.velocity s,
      (windowAround_eq_ok orbit.vectorIndex_first).mpr ⟨hplaced, rfl⟩,
      ⟨h0, Int.le_sub_one_of_lt hlast, hcount⟩, interpolatesOn_window orbit s, ?_⟩
    obtain ⟨o, ho, -⟩ := exists_create orbit
    refine ⟨getPositionVelocity_eq hplaced, getPositionImpl_eq hplaced,
      getPositionWithLut_eq hplaced htable, ⟨o, ho⟩, fun o ho => ?_⟩
    have hright := Remembers.of_reachable ho
    obtain ⟨o', -, hcall⟩ := hright.exists_getPositionVelocity hplaced
    exact ⟨⟨o', hcall⟩, hright.getPosition_eq hplaced, hright.getVelocity_eq hplaced⟩

end Quotient

/-- Nine vectors, one at each unit of time. -/
def nineVectors : StateVectors ℚ where
  vectors := [⟨0, 0, 0, 0, 0, 0, 0⟩, ⟨1, 0, 0, 0, 0, 0, 0⟩, ⟨2, 0, 0, 0, 0, 0, 0⟩,
    ⟨3, 0, 0, 0, 0, 0, 0⟩, ⟨4, 0, 0, 0, 0, 0, 0⟩, ⟨5, 0, 0, 0, 0, 0, 0⟩, ⟨6, 0, 0, 0, 0, 0, 0⟩,
    ⟨7, 0, 0, 0, 0, 0, 0⟩, ⟨8, 0, 0, 0, 0, 0, 0⟩]
  two := by decide
  increasing := by norm_num
  count := by simp

theorem nineVectors_steps (s : ℚ) : nineVectors.steps s = toInt s := by
  have hfirst : nineVectors.time 0 = 0 := rfl
  have hlast : nineVectors.time (9 - 1) = 8 := rfl
  have hn : nineVectors.n = 9 := rfl
  have hdt : nineVectors.dt = 1 := by
    rw [dt, hn, hfirst, hlast]
    norm_num
  rw [steps, hdt, hfirst, sub_zero, div_one]

theorem interpolates_nineVectors : nineVectors.Interpolates 4 := by
  have hn : nineVectors.n = 9 := rfl
  have hsteps : nineVectors.steps 4 = 4 := (nineVectors_steps 4).trans (toInt_intCast 4)
  refine (interpolates_iff nineVectors 4).mpr ⟨.inr ?_, ?_⟩
  · rw [hsteps]
    decide
  · rw [TableFits, lastIndex, hsteps, hn]
    decide

/-- So long after the first vector, the number of steps is not an `int`. -/
theorem not_interpolates_late : ¬ nineVectors.Interpolates 2147483648 := by
  rintro ⟨i0, iN, position, velocity, hwindow, -⟩
  rw [orbitWindow_eq] at hwindow
  have hplaced := ((windowAround_eq_ok nineVectors.vectorIndex_first).mp hwindow).1
  have hn : nineVectors.n = 9 := rfl
  have hsteps : nineVectors.steps 2147483648 = 2147483648 :=
    (nineVectors_steps _).trans (toInt_intCast 2147483648)
  rw [Placed, hn, hsteps] at hplaced
  omega

end StateVectors

end Alus.S1tbx
