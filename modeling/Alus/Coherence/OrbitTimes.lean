import Mathlib.Algebra.Order.Field.Basic
import Mathlib.Data.Rat.Floor
import Mathlib.Tactic.Linarith
import Alus.Lib.Rounding
import Alus.S1tbx.DateUtils

/-!
# Orbit and azimuth times

`Orbit` (`orbit.cc`) counts the times of its state vectors in seconds of the day, each of its own,
and fits polynomials to the positions. `MetaData::Line2Ta` (`meta_data.cc`) counts the time of a
line from the midnight before the first line of its burst. `GetXyz` takes the difference of such a
time and the time of the middle state vector for that of the times themselves.

The arithmetic is exact. The solver of the linear equations is a parameter.
-/

namespace Alus.Coherence

open Alus.Lib
open Alus.S1tbx (Utc Calendar dateTimeToSecOfDay)

/-- What is read of `OrbitStateVector`. -/
structure OrbitStateVector (R : Type) where
  time : Utc
  xPos : R
  yPos : R
  zPos : R

/-- `Point`. -/
structure Point (R : Type) where
  x : R
  y : R
  z : R

/-- `Orbit`: the times of the vectors and the coefficients of the polynomials. -/
structure Orbit (R : Type) where
  time : List R
  coeffX : List R
  coeffY : List R
  coeffZ : List R

section Computation

variable {R : Type} [Field R]

/-! ## `PolyUtils` -/

/-- `PolyVal1D`. -/
def polyVal1D (x : R) (coeffs : List R) : R := coeffs.foldr (fun coeff sum => sum * x + coeff) 0

/-- `PolyFit`, with the solver of the equations whose rows are powers. -/
def polyFit (solve : List (List R) → List R → List R) (xvals yvals : List R) (order : Nat) :
    List R :=
  solve (xvals.map fun x => List.iterate (· * x) 1 (order + 1)) yvals

/-- `Normalize`. -/
def normalize (t : List R) : Outcome (List R) := do
  let middle ← vectorIndex t ((t.length / 2 : Nat) : Int)
  return t.map fun s => (s - middle) / 10

/-! ## `Orbit` -/

namespace Orbit

variable (solve : List (List R) → List R → List R)

/-- `ComputeCoefficients` for given times of the vectors. -/
def computeCoefficients (time : List R) (vectors : List (OrbitStateVector R)) (degree : Nat) :
    Outcome (Orbit R) := do
  let normalX ← normalize time
  let normalY ← normalize time
  let normalZ ← normalize time
  return {
    time := time
    coeffX := polyFit solve normalX (vectors.map (·.xPos)) degree
    coeffY := polyFit solve normalY (vectors.map (·.yPos)) degree
    coeffZ := polyFit solve normalZ (vectors.map (·.zPos)) degree }

/-- The constructor. -/
def create (calendar : Calendar) (vectors : List (OrbitStateVector R)) (degree : Nat) :
    Outcome (Orbit R) := do
  -- to seconds of the acquisition day
  let time ← Outcome.collect (vectors.map fun v => dateTimeToSecOfDay (v.time.format calendar))
  computeCoefficients solve time vectors degree

/-- The time that `GetXyz` and `GetXyzDot` put into the polynomials. -/
def azTimeNormal (orbit : Orbit R) (azTime : R) : Outcome R := do
  let middle ← vectorIndex orbit.time ((orbit.time.length / 2 : Nat) : Int)
  return (azTime - middle) / 10

/-- `GetXyz`. -/
def getXyz (orbit : Orbit R) (azTime : R) : Outcome (Point R) := do
  let azTimeNormal ← orbit.azTimeNormal azTime
  return ⟨polyVal1D azTimeNormal orbit.coeffX, polyVal1D azTimeNormal orbit.coeffY,
    polyVal1D azTimeNormal orbit.coeffZ⟩

/-- A coordinate of the velocity, by the coefficients of its polynomial. -/
def dotComponent (degree : Nat) (azTime : R) (coeffs : List R) : Outcome R := do
  let first ← vectorAt coeffs 1
  let sum ← (List.range' 2 (degree - 1)).foldlM (fun (sum : R) (i : Nat) => do
    let coeff ← vectorAt coeffs i
    return sum + coeff * (i * azTime ^ (i - 1))) first
  return sum / 10

/-- `GetXyzDot`. -/
def getXyzDot (orbit : Orbit R) (azTime : R) : Outcome (Point R) := do
  let azTime ← orbit.azTimeNormal azTime
  let degree := orbit.coeffX.length - 1
  let x ← dotComponent degree azTime orbit.coeffX
  let y ← dotComponent degree azTime orbit.coeffY
  let z ← dotComponent degree azTime orbit.coeffZ
  return ⟨x, y, z⟩

end Orbit

/-! ## `MetaData` -/

/-- What `Line2Ta` reads of `MetaData`. -/
structure MetaData (R : Type) where
  burstFirstLineTime : List R
  lineTimeInterval : R

/-- The time of a burst's first line, as the sub-swath and `FillBurstInfo` have it. -/
def firstLineTime (azimuthTime : Utc) : R := azimuthTime.getMjd * 86400

variable [LinearOrder R] [FloorRing R]

/-- `MetaData::Line2Ta`. -/
def MetaData.line2Ta (metaData : MetaData R) (burstIndex line : Int) : Outcome R := do
  let burstFirstLineTime ← vectorAt metaData.burstFirstLineTime burstIndex
  let firstLineInDays := burstFirstLineTime / 86400
  -- the cast drops the fraction of the day
  let days ← int32 (toInt firstLineInDays)
  let firstLineTime := (firstLineInDays - days) * 86400
  return firstLineTime + line * metaData.lineTimeInterval

end Computation

/-! ## What is promised -/

section Spec

variable {R : Type} [Field R] [LinearOrder R]

/-- State vectors one after the other, and the bursts of a product. -/
structure Acquisition (R : Type) [Field R] [LinearOrder R] where
  vectors : List (OrbitStateVector R)
  bursts : List Utc
  lineTimeInterval : R
  degree : Nat
  increasing : vectors.Pairwise fun v v' => (v.time.time : R) < v'.time.time

namespace Acquisition

variable (a : Acquisition R) (solve : List (List R) → List R → List R)

def metaData : MetaData R := ⟨a.bursts.map firstLineTime, a.lineTimeInterval⟩

/-- The time of a line, counted as those of the state vectors. -/
def lineTime (burst : Utc) (line : Int) : R := burst.time + line * a.lineTimeInterval

/-- The orbit polynomials over the times themselves. -/
def trueOrbit : Outcome (Orbit R) :=
  Orbit.computeCoefficients solve (a.vectors.map (·.time.time)) a.vectors a.degree

/-- The times of the orbit increase, with the differences of the state vectors' times. -/
structure TimesKept (orbit : Orbit R) : Prop where
  length : orbit.time.length = a.vectors.length
  increasing : orbit.time.Pairwise (· < ·)
  differences : ∀ (i j : Nat) (v v' : OrbitStateVector R) (t t' : R), a.vectors[i]? = some v →
    a.vectors[j]? = some v' → orbit.time[i]? = some t → orbit.time[j]? = some t' →
    t' - t = v'.time.time - v.time.time

/-- An azimuth time differs from those of the orbit as the time of the line does from those of the
state vectors, and has the position and the velocity at the time of the line. -/
structure LineKept (orbit : Orbit R) (burst : Utc) (line : Int) (azTime : R) : Prop where
  differences : ∀ (i : Nat) (v : OrbitStateVector R) (t : R), a.vectors[i]? = some v →
    orbit.time[i]? = some t → azTime - t = a.lineTime burst line - v.time.time
  position : orbit.getXyz azTime =
    a.trueOrbit solve >>= fun trueOrbit => trueOrbit.getXyz (a.lineTime burst line)
  velocity : orbit.getXyzDot azTime =
    a.trueOrbit solve >>= fun trueOrbit => trueOrbit.getXyzDot (a.lineTime burst line)

/-- What is promised of orbit and azimuth times. -/
def Consistent [FloorRing R] (calendar : Calendar) : Prop :=
  ∃ orbit, Orbit.create solve calendar a.vectors a.degree = .ok orbit ∧ a.TimesKept orbit ∧
    ∀ (i : Nat) (burst : Utc) (line : Int), a.bursts[i]? = some burst →
      ∃ azTime, a.metaData.line2Ta i line = .ok azTime ∧ a.LineKept solve orbit burst line azTime

end Acquisition

/-- The days that `Line2Ta` takes off: whole ones, counted towards the year 2000. -/
def wholeDays (R : Type) [Field R] [LinearOrder R] [FloorRing R] (u : Utc) : Int :=
  toInt (u.getMjd : R)

end Spec

/-! ## Times that are shifted -/

section Shift

variable {R : Type} [Field R] {solve : List (List R) → List R → List R}

/-- Normalised times do not tell where they are counted from. -/
theorem normalize_shift (s : R) (t : List R) : normalize (t.map (· - s)) = normalize t := by
  unfold normalize
  rw [List.length_map, vectorIndex_map, bind_assoc]
  refine congrArg (_ >>= ·) (funext fun middle => ?_)
  rw [Outcome.ok_bind, List.map_map]
  refine congrArg Outcome.ok (List.map_congr_left fun x _ => ?_)
  show (x - s - (middle - s)) / 10 = (x - middle) / 10
  rw [sub_sub_sub_cancel_right]

/-- So the coefficients do not. -/
theorem computeCoefficients_shift (s : R) (time : List R) (vectors : List (OrbitStateVector R))
    (degree : Nat) : Orbit.computeCoefficients solve (time.map (· - s)) vectors degree =
      Orbit.computeCoefficients solve time vectors degree >>= fun orbit =>
        .ok { orbit with time := time.map (· - s) } := by
  unfold Orbit.computeCoefficients
  rw [normalize_shift]
  cases normalize time with
  | ok normal => rfl
  | throws => rfl
  | undefined => rfl

/-- Neither does the time that is put into the polynomials. -/
theorem azTimeNormal_shift (s : R) (orbit : Orbit R) (azTime : R) :
    ({ orbit with time := orbit.time.map (· - s) } : Orbit R).azTimeNormal (azTime - s) =
      orbit.azTimeNormal azTime := by
  unfold Orbit.azTimeNormal
  dsimp only
  rw [List.length_map, vectorIndex_map, bind_assoc]
  refine congrArg (_ >>= ·) (funext fun middle => ?_)
  rw [Outcome.ok_bind, sub_sub_sub_cancel_right]

theorem getXyz_shift (s : R) (orbit : Orbit R) (azTime : R) :
    ({ orbit with time := orbit.time.map (· - s) } : Orbit R).getXyz (azTime - s) =
      orbit.getXyz azTime := by
  unfold Orbit.getXyz
  rw [azTimeNormal_shift]

theorem getXyzDot_shift (s : R) (orbit : Orbit R) (azTime : R) :
    ({ orbit with time := orbit.time.map (· - s) } : Orbit R).getXyzDot (azTime - s) =
      orbit.getXyzDot azTime := by
  unfold Orbit.getXyzDot
  rw [azTimeNormal_shift]

/-- An orbit needs a state vector. -/
theorem exists_computeCoefficients (solve : List (List R) → List R → List R) {time : List R}
    (h : time ≠ []) (vectors : List (OrbitStateVector R)) (degree : Nat) :
    ∃ orbit, Orbit.computeCoefficients solve time vectors degree = .ok orbit ∧
      orbit.time = time := by
  have hlt : time.length / 2 < time.length :=
    Nat.div_lt_self (List.length_pos_of_ne_nil h) (by decide)
  have hmiddle : vectorIndex time ((time.length / 2 : Nat) : Int) = .ok time[time.length / 2] :=
    vectorIndex_eq_ok.mpr ⟨Int.natCast_nonneg _, List.getElem?_eq_getElem hlt⟩
  unfold Orbit.computeCoefficients normalize
  rw [hmiddle]
  exact ⟨_, rfl, rfl⟩

theorem computeCoefficients_nil (vectors : List (OrbitStateVector R)) (degree : Nat) :
    Orbit.computeCoefficients solve [] vectors degree = .undefined := rfl

/-- The orbit's times are the seconds of the day of its vectors. -/
theorem create_eq [CharZero R] (calendar : Calendar) (vectors : List (OrbitStateVector R))
    (degree : Nat) : Orbit.create solve calendar vectors degree =
      Orbit.computeCoefficients solve (vectors.map fun v => v.time.secOfDay) vectors degree := by
  have htime : Outcome.collect (vectors.map fun v =>
      dateTimeToSecOfDay (R := R) (v.time.format calendar)) =
        .ok (vectors.map fun v => v.time.secOfDay) :=
    Outcome.collect_map_eq_ok fun v _ => v.time.dateTimeToSecOfDay_format calendar
  unfold Orbit.create
  rw [htime, Outcome.ok_bind]

end Shift

/-! ## The time of a line -/

section Lines

variable {R : Type} [Field R] [LinearOrder R] [IsStrictOrderedRing R] [FloorRing R]

/-- The day of a time is the floor of its days. -/
theorem floor_getMjd (u : Utc) : ⌊(u.getMjd : R)⌋ = u.day := by
  have hmjd : (u.getMjd : R) * 86400 = u.day * 86400 + u.secOfDay :=
    u.getMjd_mul.trans u.time_eq
  have hsecond : 0 ≤ u.second ∧ u.second < 86400 :=
    ⟨Int.emod_nonneg _ (by decide), Int.emod_lt_of_pos _ (by decide)⟩
  have hsecond0 : (0 : R) ≤ u.second := Int.cast_nonneg hsecond.1
  have hsecond1 : (u.second : R) + 1 ≤ 86400 := by
    exact_mod_cast Int.add_one_le_of_lt hsecond.2
  have hmicro0 : (0 : R) ≤ (u.microseconds : Nat) := Nat.cast_nonneg _
  have hmicro1 : ((u.microseconds : Nat) : R) < 1000000 := by
    exact_mod_cast u.microseconds_lt
  have hmicro2 : ((u.microseconds : Nat) : R) / 1000000 < 1 := by
    rw [div_lt_one (by norm_num)]
    exact hmicro1
  have hmicro3 : (0 : R) ≤ ((u.microseconds : Nat) : R) / 1000000 :=
    div_nonneg hmicro0 (by norm_num)
  unfold Utc.secOfDay at hmjd
  rw [Int.floor_eq_iff]
  constructor
  · linarith
  · linarith

/-- From the year 2000 on the whole days are the day. -/
theorem wholeDays_of_nonneg {u : Utc} (h : 0 ≤ u.day) : wholeDays R u = u.day := by
  have hnonneg : (0 : R) ≤ u.getMjd := by
    rw [← floor_getMjd (R := R) u] at h
    exact Int.floor_nonneg.mp h
  rw [wholeDays, toInt_of_nonneg hnonneg, floor_getMjd]

/-- The days fit an `int`. -/
theorem fits_wholeDays (u : Utc) : Fits 32 (wholeDays R u) := by
  have hcalendar := u.in_calendar
  have hday : u.day = (u.days * 86400 + u.seconds) / 86400 := rfl
  have hlow := floor_le_toInt (u.getMjd : R)
  have hhigh := (toInt_le_ceil (u.getMjd : R)).trans (Int.ceil_le_floor_add_one _)
  rw [floor_getMjd] at hlow hhigh
  unfold wholeDays
  rw [fits32_iff]
  omega

variable {a : Acquisition R}

/-- `Line2Ta` gives the time of the line without the whole days of its burst. -/
theorem line2Ta_eq {i : Nat} {burst : Utc} (h : a.bursts[i]? = some burst) (line : Int) :
    a.metaData.line2Ta i line =
      .ok (a.lineTime burst line - wholeDays R burst * 86400) := by
  have hburst : vectorAt (a.bursts.map (firstLineTime (R := R))) (i : Int) =
      .ok (firstLineTime burst) := by
    refine vectorAt_eq_ok.mpr ⟨Int.natCast_nonneg i, ?_⟩
    rw [Int.toNat_natCast, List.getElem?_map, h]
    rfl
  have hdays : firstLineTime burst / 86400 = (burst.getMjd : R) :=
    mul_div_cancel_right₀ _ (by norm_num)
  unfold MetaData.line2Ta Acquisition.metaData
  dsimp only
  rw [hburst, Outcome.ok_bind, hdays]
  show (int32 (wholeDays R burst) >>= _) = _
  rw [int32_of_fits (fits_wholeDays burst), Outcome.ok_bind]
  refine congrArg Outcome.ok ?_
  rw [Acquisition.lineTime, ← burst.getMjd_mul]
  ring

end Lines

/-! ## Acquisitions of one day -/

section Days

variable {R : Type} [Field R] [LinearOrder R] [IsStrictOrderedRing R]
variable {a : Acquisition R} {solve : List (List R) → List R → List R} {calendar : Calendar}

namespace Acquisition

/-- An orbit that is made has the seconds of the day, of one vector at least. -/
theorem orbit_time {orbit : Orbit R}
    (h : Orbit.create solve calendar a.vectors a.degree = .ok orbit) :
    a.vectors ≠ [] ∧ orbit.time = a.vectors.map fun v => v.time.secOfDay := by
  rw [create_eq] at h
  have hne : a.vectors ≠ [] := by
    intro hnil
    rw [hnil, List.map_nil, computeCoefficients_nil] at h
    cases h
  obtain ⟨made, hmade, htime⟩ := exists_computeCoefficients solve
    (mt List.map_eq_nil_iff.mp hne) a.vectors a.degree
  rw [hmade] at h
  cases h
  exact ⟨hne, htime⟩

/-- Of one day, the orbit is the one over the times themselves, less the day. -/
theorem create_of_day (solve : List (List R) → List R → List R) (calendar : Calendar) {d : Int}
    (hne : a.vectors ≠ []) (hday : ∀ v ∈ a.vectors, v.time.day = d) :
    ∃ trueOrbit, a.trueOrbit solve = .ok trueOrbit ∧
      trueOrbit.time = a.vectors.map (fun v => v.time.time) ∧
      Orbit.create solve calendar a.vectors a.degree =
        .ok { trueOrbit with time := trueOrbit.time.map (· - (d : R) * 86400) } := by
  obtain ⟨trueOrbit, htrue, htime⟩ := exists_computeCoefficients solve
    (mt List.map_eq_nil_iff.mp hne : a.vectors.map (fun v => (v.time.time : R)) ≠ [])
    a.vectors a.degree
  have hseconds : a.vectors.map (fun v => (v.time.secOfDay : R)) =
      (a.vectors.map fun v => v.time.time).map (· - (d : R) * 86400) := by
    rw [List.map_map]
    refine List.map_congr_left fun v hv => ?_
    show v.time.secOfDay = v.time.time - (d : R) * 86400
    rw [v.time.time_eq, hday v hv, add_sub_cancel_left]
  refine ⟨trueOrbit, htrue, htime, ?_⟩
  rw [create_eq, hseconds, computeCoefficients_shift, htrue, htime]
  rfl

/-- Times less a day are in order, with the same differences. -/
theorem timesKept_shift {orbit : Orbit R} (s : R)
    (htime : orbit.time = (a.vectors.map fun v => v.time.time).map (· - s)) :
    a.TimesKept orbit where
  length := by rw [htime, List.length_map, List.length_map]
  increasing := by
    rw [htime, List.pairwise_map, List.pairwise_map]
    exact a.increasing.imp fun h => sub_lt_sub_right h s
  differences i j v v' t t' hv hv' ht ht' := by
    rw [htime, List.map_map, List.getElem?_map, hv] at ht
    rw [htime, List.map_map, List.getElem?_map, hv'] at ht'
    cases ht
    cases ht'
    show v'.time.time - s - (v.time.time - s) = _
    rw [sub_sub_sub_cancel_right]

omit [IsStrictOrderedRing R] in
/-- So is the time of a line less the same day. -/
theorem lineKept_shift {trueOrbit : Orbit R} (htrue : a.trueOrbit solve = .ok trueOrbit)
    (htime : trueOrbit.time = a.vectors.map fun v => v.time.time) (s : R) (burst : Utc)
    (line : Int) :
    a.LineKept solve { trueOrbit with time := trueOrbit.time.map (· - s) } burst line
      (a.lineTime burst line - s) where
  differences i v t hv ht := by
    rw [htime, List.map_map, List.getElem?_map, hv] at ht
    cases ht
    show a.lineTime burst line - s - (v.time.time - s) = _
    rw [sub_sub_sub_cancel_right]
  position := by
    rw [getXyz_shift, htrue]
    rfl
  velocity := by
    rw [getXyzDot_shift, htrue]
    rfl

/-- State vectors with the differences of their times are of one day. -/
theorem TimesKept.day_eq {orbit : Orbit R} (h : a.TimesKept orbit)
    (htime : orbit.time = a.vectors.map fun v => v.time.secOfDay)
    {v v' : OrbitStateVector R} (hv : v ∈ a.vectors) (hv' : v' ∈ a.vectors) :
    v.time.day = v'.time.day := by
  obtain ⟨i, hi⟩ := List.getElem?_of_mem hv
  obtain ⟨j, hj⟩ := List.getElem?_of_mem hv'
  have htimes : ∀ (k : Nat) (w : OrbitStateVector R), a.vectors[k]? = some w →
      orbit.time[k]? = some w.time.secOfDay := by
    intro k w hw
    rw [htime, List.getElem?_map, hw]
    rfl
  have hdifference := h.differences i j v v' _ _ hi hj (htimes i v hi) (htimes j v' hj)
  rw [v.time.time_eq, v'.time.time_eq] at hdifference
  have hdays : (v.time.day : R) = v'.time.day := by linarith
  exact Int.cast_injective hdays

variable [FloorRing R]

/-- A line has the differences of its time where its burst's whole days are that day. -/
theorem LineKept.wholeDays_eq {orbit : Orbit R} {burst : Utc} {line : Int}
    (h : a.LineKept solve orbit burst line (a.lineTime burst line - wholeDays R burst * 86400))
    (htime : orbit.time = a.vectors.map fun v => v.time.secOfDay)
    {v : OrbitStateVector R} (hv : v ∈ a.vectors) : wholeDays R burst = v.time.day := by
  obtain ⟨i, hi⟩ := List.getElem?_of_mem hv
  have ht : orbit.time[i]? = some v.time.secOfDay := by
    rw [htime, List.getElem?_map, hi]
    rfl
  have hdifference := h.differences i v _ hi ht
  rw [v.time.time_eq] at hdifference
  have hdays : (wholeDays R burst : R) = v.time.day := by linarith
  exact Int.cast_injective hdays

/-- Orbit and azimuth times agree exactly for state vectors of one day, which is that of the bursts'
whole days: from the year 2000 on, the day that all of them lie in. -/
theorem consistent_iff (a : Acquisition R) (solve : List (List R) → List R → List R)
    (calendar : Calendar) :
    (a.Consistent solve calendar ↔ a.vectors ≠ [] ∧
      ∃ d, (∀ v ∈ a.vectors, v.time.day = d) ∧ ∀ burst ∈ a.bursts, wholeDays R burst = d) ∧
    ∀ burst : Utc, 0 ≤ burst.day → wholeDays R burst = burst.day := by
  refine ⟨⟨?_, ?_⟩, fun burst => wholeDays_of_nonneg⟩
  · intro ⟨orbit, hcreate, htimes, hlines⟩
    have ⟨hne, htime⟩ := orbit_time hcreate
    -- everything is compared with the first state vector
    have hfirst := List.head_mem hne
    refine ⟨hne, (a.vectors.head hne).time.day, fun v hv => htimes.day_eq htime hv hfirst,
      fun burst hburst => ?_⟩
    obtain ⟨i, hi⟩ := List.getElem?_of_mem hburst
    obtain ⟨azTime, hline, hkept⟩ := hlines i burst 0 hi
    rw [line2Ta_eq hi] at hline
    cases hline
    exact hkept.wholeDays_eq htime hfirst
  · intro ⟨hne, d, hvectors, hbursts⟩
    -- all times are those that are promised, less the one day
    obtain ⟨trueOrbit, htrue, htime, hcreate⟩ := create_of_day solve calendar hne hvectors
    refine ⟨_, hcreate, timesKept_shift ((d : R) * 86400) (by rw [htime]),
      fun i burst line hi => ⟨_, line2Ta_eq hi line, ?_⟩⟩
    rw [hbursts burst (List.mem_of_getElem? hi)]
    exact lineKept_shift htrue htime _ burst line

end Acquisition

/-! ## A midnight -/

/-- The polynomial of degree one through two points. -/
def lineThrough : List (List ℚ) → List ℚ → List ℚ
  | [[_, x], [_, x']], [y, y'] => [y - (y' - y) / (x' - x) * x, (y' - y) / (x' - x)]
  | _, _ => []

/-- The days by their numbers. -/
def dayNumbers : Calendar where
  text day := List.replicate day.toNat '|'
  no_blank day h := by
    have hblank : ' ' = '|' := List.eq_of_mem_replicate h
    revert hblank
    decide

/-- Five seconds past midnight on 1 January 2020. -/
def pastMidnight : Utc := ⟨7305, 5, 0, S1tbx.wholeSecond_lt, by decide⟩

/-- State vectors ten seconds before and at that time. -/
def acrossMidnight : Acquisition ℚ where
  vectors := [⟨⟨7304, 86395, 0, S1tbx.wholeSecond_lt, by decide⟩, 0, 0, 0⟩, ⟨pastMidnight, 1, 1, 1⟩]
  bursts := [pastMidnight]
  lineTimeInterval := 1
  degree := 1
  increasing := by decide +kernel

/-- State vectors at that time and ten seconds after it. -/
def withinDay : Acquisition ℚ where
  vectors := [⟨pastMidnight, 0, 0, 0⟩, ⟨⟨7305, 15, 0, S1tbx.wholeSecond_lt, by decide⟩, 1, 1, 1⟩]
  bursts := [pastMidnight]
  lineTimeInterval := 1
  degree := 1
  increasing := by decide +kernel

/-- The orbit of the first has the times 86395 and 5. -/
theorem acrossMidnight_not_consistent : ¬acrossMidnight.Consistent lineThrough dayNumbers := by
  intro ⟨orbit, hcreate, htimes, _⟩
  have hincreasing := htimes.increasing
  rw [(Acquisition.orbit_time hcreate).2] at hincreasing
  revert hincreasing
  decide +kernel

theorem withinDay_consistent : withinDay.Consistent lineThrough dayNumbers :=
  (Acquisition.consistent_iff withinDay lineThrough dayNumbers).1.mpr
    ⟨by decide, 7305, by decide, by decide +kernel⟩

end Days

end Alus.Coherence
