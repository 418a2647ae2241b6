import Mathlib.Data.Rat.Floor
import Alus.S1tbx.PodOrbitData
import Alus.SnapEngine.OrbitMetadata

/-!
# New orbit state vectors

`ApplyOrbitFileOp::UpdateOrbitStateVectors` (`apply_orbit_file_op.cc`) asks the orbit provider for a
vector every second, from ten seconds before the first line on, and keeps the vectors in the
metadata.

The arithmetic is exact. The orbit provider is a parameter.
-/

namespace Alus.ApplyOrbitFileOp

open Alus.Lib
open Alus.S1tbx (Utc Calendar OrbitVector)
open Alus.SnapEngine
open Outcome (require)

section Computation

variable {R : Type} [Field R] [LinearOrder R] [FloorRing R]

/-- `delta`: a second, in days. -/
def delta : R := 1 / 86400

/-- `num_extra_vectors`. -/
def numExtraVectors : Int := 10

/-- The vector of a time. -/
def vectorAtTime (getOrbitData : R → Outcome (OrbitVector R)) (time : R) :
    Outcome (OrbitStateVector R) := do
  let orbitData ← getOrbitData time
  let utc ← UtcElems.ofMjd time
  return ⟨utc, orbitData.xPos, orbitData.yPos, orbitData.zPos, orbitData.xVel, orbitData.yVel,
    orbitData.zVel⟩

/-- The vectors that `UpdateOrbitStateVectors` computes. -/
def computeOrbitStateVectors (getOrbitData : R → Outcome (OrbitVector R))
    (firstLineTime lastLineTime : Utc) : Outcome (List (OrbitStateVector R)) := do
  let firstLineUtc : R := firstLineTime.getMjd
  let lastLineUtc : R := lastLineTime.getMjd
  let firstVectorTime := firstLineUtc - numExtraVectors * delta
  let lastVectorTime := lastLineUtc + numExtraVectors * delta
  let numVectors ← int32 (toInt ((lastVectorTime - firstVectorTime) / delta))
  -- a negative number of elements is more than there is memory for
  require (0 ≤ numVectors)
  Outcome.collect ((intRange 0 numVectors).map fun (i : Int) =>
    vectorAtTime getOrbitData (firstVectorTime + i * delta))

end Computation

/-! ## What is promised -/

section Spec

variable {R : Type} [Field R] [LinearOrder R]

/-- Vectors one second apart, from one at or before the first line to one at or after the last. -/
structure Covers (firstLineTime lastLineTime : Utc) (vectors : List (OrbitStateVector R)) :
    Prop where
  spacing : ∀ (i : Nat) (vector next : OrbitStateVector R), vectors[i]? = some vector →
    vectors[i + 1]? = some next → next.time.time R = vector.time.time R + 1
  increasing : vectors.Pairwise fun vector vector' => vector.time.time R < vector'.time.time R
  first : ∃ vector, vectors.head? = some vector ∧ vector.time.time R ≤ firstLineTime.time
  last : ∃ vector, vectors.getLast? = some vector ∧ lastLineTime.time ≤ vector.time.time R

/-- Whatever orbit there is, such vectors are computed. -/
def CoversScene (R : Type) [Field R] [LinearOrder R] [FloorRing R]
    (firstLineTime lastLineTime : Utc) : Prop :=
  ∀ getOrbitData : R → Outcome (OrbitVector R), (∀ time, ∃ osv, getOrbitData time = .ok osv) →
    ∃ vectors, computeOrbitStateVectors getOrbitData firstLineTime lastLineTime = .ok vectors ∧
      Covers firstLineTime lastLineTime vectors

/-- What is set in any metadata with orbit state vectors is read back as the list `vectors'`, and
nothing else changes. -/
def ReadBack {calendar : Calendar} (facet : DateFormatIn calendar)
    (vectors vectors' : List (OrbitStateVector R)) : Prop :=
  ∀ (alloc : Nat → Nat) (absRoot : MetadataElement R),
    (∃ elemRoot ∈ absRoot.elements,
      iequals elemRoot.name AbstractMetadata.orbitStateVectors = true) →
    ∃ absRoot', AbstractMetadata.setOrbitStateVectors alloc absRoot vectors = .ok absRoot' ∧
      AbstractMetadata.OnlyVectorsReplaced absRoot absRoot' ∧
      AbstractMetadata.getOrbitStateVectors facet absRoot' = .ok vectors'

end Spec

/-! ## The vectors -/

section Vectors

/-- The microseconds from the year 2000 on. -/
def micros (u : Utc) : Int := (u.days * 86400 + u.seconds) * 1000000 + u.microseconds

/-- The number of vectors. -/
def vectorCount (firstLineTime lastLineTime : Utc) : Int :=
  (micros lastLineTime - micros firstLineTime) / 1000000 + 20

/-- The microseconds of a vector. -/
def vectorMicros (firstLineTime : Utc) (i : Int) : Int :=
  micros firstLineTime + (i - 10) * 1000000

variable {R : Type} [Field R] [LinearOrder R] [FloorRing R] [IsStrictOrderedRing R]
  {firstLineTime lastLineTime : Utc}

omit [FloorRing R] in
theorem micros_eq (u : Utc) : u.time * 1000000 = ((micros u : Int) : R) := by
  unfold Utc.time micros
  push_cast
  field_simp

omit [FloorRing R] in
theorem getMjd_mul_micros (u : Utc) : u.getMjd * 86400 * 1000000 = ((micros u : Int) : R) := by
  rw [Utc.getMjd_mul, micros_eq]

/-- Times in the calendar fit. -/
theorem micros_bounds (u : Utc) :
    -18934128000000000 ≤ micros u ∧ micros u < 252455616000000000 := by
  have hlow := u.in_calendar.1
  have hhigh := u.in_calendar.2
  have hmicros := u.microseconds_lt
  unfold micros
  omega

theorem numVectors_eq (hle : micros firstLineTime ≤ micros lastLineTime) :
    toInt (((lastLineTime.getMjd + numExtraVectors * delta) -
      (firstLineTime.getMjd - numExtraVectors * delta)) / delta : R) =
        vectorCount firstLineTime lastLineTime := by
  have hquotient : ((lastLineTime.getMjd + numExtraVectors * delta) -
      (firstLineTime.getMjd - numExtraVectors * delta)) / delta =
        ((micros lastLineTime - micros firstLineTime + 20000000 : Int) : R) / (1000000 : Int) := by
    push_cast
    rw [← getMjd_mul_micros, ← getMjd_mul_micros]
    unfold delta numExtraVectors
    push_cast
    field_simp
    ring
  rw [hquotient, toInt_div _ (by decide), Int.tdiv_eq_ediv_of_nonneg (by omega)]
  unfold vectorCount
  omega

/-- The time of a vector, in microseconds. -/
theorem vectorTime_micros (i : Int) :
    (firstLineTime.getMjd - numExtraVectors * delta + i * delta : R) * 86400 * 1000000 =
      ((vectorMicros firstLineTime i : Int) : R) := by
  unfold vectorMicros
  push_cast
  rw [← getMjd_mul_micros]
  unfold delta numExtraVectors
  push_cast
  field_simp
  ring

omit [FloorRing R] in
theorem micros_le (hle : firstLineTime.time ≤ (lastLineTime.time : R)) :
    micros firstLineTime ≤ micros lastLineTime := by
  have hscaled := mul_le_mul_of_nonneg_right hle (show (0 : R) ≤ 1000000 by norm_num)
  rw [micros_eq, micros_eq] at hscaled
  exact_mod_cast hscaled

omit [FloorRing R] [LinearOrder R] [IsStrictOrderedRing R] in
/-- The time of elements that were split from microseconds. -/
theorem time_of_splits [CharZero R] {u : UtcElems} {n : Int} (h : u.Splits n) :
    u.time R = (n : R) / 1000000 := by
  rw [UtcElems.time, eq_div_iff (by norm_num), add_mul, div_mul_cancel₀ _ (by norm_num), ← h.total]
  push_cast
  rfl

/-- The times of the vectors fit. -/
theorem fits_vectorMicros {i : Int} (h0 : 0 ≤ i)
    (hlt : i < vectorCount firstLineTime lastLineTime) :
    Fits 32 ((vectorMicros firstLineTime i).tdiv 86400000000) := by
  have hfirst := micros_bounds firstLineTime
  have hlast := micros_bounds lastLineTime
  have hbounds : -86400000000000000000 < vectorMicros firstLineTime i ∧
      vectorMicros firstLineTime i < 86400000000000000000 := by
    unfold vectorMicros
    unfold vectorCount at hlt
    omega
  have hsign : Int.sign 86400000000 = 1 := rfl
  rw [fits32_iff, Int.tdiv_eq_ediv, hsign]
  split <;> omega

/-- The loop over the vectors. -/
theorem computeOrbitStateVectors_eq (hle : micros firstLineTime ≤ micros lastLineTime)
    (hspan : vectorCount firstLineTime lastLineTime < 2147483648)
    (getOrbitData : R → Outcome (OrbitVector R)) :
    computeOrbitStateVectors getOrbitData firstLineTime lastLineTime =
      Outcome.collect ((intRange 0 (vectorCount firstLineTime lastLineTime)).map fun (i : Int) =>
        vectorAtTime getOrbitData
          (firstLineTime.getMjd - numExtraVectors * delta + i * delta)) := by
  have hcount : 0 ≤ vectorCount firstLineTime lastLineTime := by
    unfold vectorCount
    omega
  rw [computeOrbitStateVectors, numVectors_eq hle,
    int32_of_bounds (by omega) (by omega), Outcome.ok_bind, Outcome.require_of hcount,
    Outcome.ok_bind]

/-- They are computed where the orbit is known. -/
theorem exists_computeOrbitStateVectors (hle : micros firstLineTime ≤ micros lastLineTime)
    (hspan : vectorCount firstLineTime lastLineTime < 2147483648)
    {getOrbitData : R → Outcome (OrbitVector R)}
    (horbit : ∀ time, ∃ osv, getOrbitData time = .ok osv) :
    ∃ vectors,
      computeOrbitStateVectors getOrbitData firstLineTime lastLineTime = .ok vectors := by
  rw [computeOrbitStateVectors_eq hle hspan]
  have hvector : ∀ i ∈ intRange 0 (vectorCount firstLineTime lastLineTime), ∃ vector,
      vectorAtTime getOrbitData
        (firstLineTime.getMjd - numExtraVectors * delta + i * delta) = .ok vector := by
    intro i hi
    obtain ⟨h0, hlt⟩ := mem_intRange.mp hi
    obtain ⟨osv, hosv⟩ := horbit (firstLineTime.getMjd - numExtraVectors * delta + i * delta)
    obtain ⟨utc, hutc, -⟩ :=
      UtcElems.exists_ofMjd (vectorTime_micros (R := R) i) (fits_vectorMicros h0 hlt)
    rw [vectorAtTime, hosv, Outcome.ok_bind, hutc]
    exact ⟨_, rfl⟩
  obtain ⟨vectors, hvectors, -⟩ := Outcome.exists_collect_map hvector
  exact ⟨vectors, hvectors⟩

/-- Each has its time. -/
theorem splits_of_computeOrbitStateVectors (hle : micros firstLineTime ≤ micros lastLineTime)
    (hspan : vectorCount firstLineTime lastLineTime < 2147483648)
    {getOrbitData : R → Outcome (OrbitVector R)} {vectors : List (OrbitStateVector R)}
    (h : computeOrbitStateVectors getOrbitData firstLineTime lastLineTime = .ok vectors) :
    vectors.length = (vectorCount firstLineTime lastLineTime).toNat ∧
      ∀ (i : Nat) (vector : OrbitStateVector R), vectors[i]? = some vector →
        vector.time.Splits (vectorMicros firstLineTime i) := by
  rw [computeOrbitStateVectors_eq hle hspan] at h
  have hmap := Outcome.collect_eq_ok.mp h
  have hlength : vectors.length = (vectorCount firstLineTime lastLineTime).toNat := by
    have hsame := congrArg List.length hmap
    rw [List.length_map, List.length_map, length_intRange, Int.sub_zero] at hsame
    exact hsame.symm
  refine ⟨hlength, fun i vector hi => ?_⟩
  have hlt : i < vectors.length := (List.getElem?_eq_some_iff.mp hi).1
  have hcount : (i : Int) < vectorCount firstLineTime lastLineTime := by omega
  have hat := congrArg (·[i]?) hmap
  rw [List.getElem?_map, List.getElem?_map, getElem?_intRange (by omega), Int.zero_add, hi,
    Option.map_some, Option.map_some] at hat
  have hvector := Option.some.inj hat
  obtain ⟨osv, -, hvector⟩ := Outcome.bind_eq_ok.mp hvector
  obtain ⟨utc, hutc, hvector⟩ := Outcome.bind_eq_ok.mp hvector
  obtain ⟨utc', hutc', hsplits⟩ :=
    UtcElems.exists_ofMjd (vectorTime_micros (R := R) i) (fits_vectorMicros (by omega) hcount)
  obtain rfl : utc' = utc := Outcome.ok.inj (hutc'.symm.trans hutc)
  rw [← Outcome.ok.inj hvector]
  exact hsplits

/-- They cover the scene. -/
theorem covers_of_splits (hle : micros firstLineTime ≤ micros lastLineTime)
    {vectors : List (OrbitStateVector R)}
    (hlength : vectors.length = (vectorCount firstLineTime lastLineTime).toNat)
    (hsplits : ∀ (i : Nat) (vector : OrbitStateVector R), vectors[i]? = some vector →
      vector.time.Splits (vectorMicros firstLineTime i)) :
    Covers firstLineTime lastLineTime vectors := by
  have hcount : 20 ≤ vectorCount firstLineTime lastLineTime := by
    unfold vectorCount
    omega
  -- the times are whole microseconds
  have htime : ∀ (i : Nat) (vector : OrbitStateVector R), vectors[i]? = some vector →
      vector.time.time R = ((vectorMicros firstLineTime i : Int) : R) / 1000000 :=
    fun i vector hi => time_of_splits (hsplits i vector hi)
  have hline : ∀ u : Utc, (u.time : R) = ((micros u : Int) : R) / 1000000 := fun u => by
    rw [← micros_eq, mul_div_cancel_right₀ _ (by norm_num)]
  refine ⟨fun i vector next hi hnext => ?_, ?_, ?_, ?_⟩
  · rw [htime i vector hi, htime (i + 1) next hnext]
    unfold vectorMicros
    push_cast
    ring
  · refine List.pairwise_iff_getElem.mpr fun i j hi hj hij => ?_
    rw [htime i _ (List.getElem?_eq_getElem hi), htime j _ (List.getElem?_eq_getElem hj)]
    refine div_lt_div_of_pos_right (Int.cast_lt.mpr ?_) (by norm_num)
    unfold vectorMicros
    omega
  · have h0 : 0 < vectors.length := by omega
    refine ⟨vectors[0], ?_, ?_⟩
    · rw [List.head?_eq_getElem?, List.getElem?_eq_getElem h0]
    · rw [htime 0 _ (List.getElem?_eq_getElem h0), hline]
      refine div_le_div_of_nonneg_right (Int.cast_le.mpr ?_) (by norm_num)
      unfold vectorMicros
      omega
  · have hn : vectors.length - 1 < vectors.length := by omega
    refine ⟨vectors[vectors.length - 1], ?_, ?_⟩
    · rw [List.getLast?_eq_getElem?, List.getElem?_eq_getElem hn]
    · rw [htime _ _ (List.getElem?_eq_getElem hn), hline]
      refine div_le_div_of_nonneg_right (Int.cast_le.mpr ?_) (by norm_num)
      unfold vectorMicros
      unfold vectorCount at hlength hcount
      omega

/-- **New orbit state vectors** cover the scene and are read back from the metadata, at the same
times. From the year 2000 on, and where the list has been computed, the times are split the same. -/
theorem covers_and_readBack (hle : firstLineTime.time ≤ (lastLineTime.time : R))
    (hspan : lastLineTime.time - firstLineTime.time < (2147483628 : R)) :
    CoversScene R firstLineTime lastLineTime ∧
    (∀ {calendar : Calendar} (facet : DateFormatIn calendar) (vectors : List (OrbitStateVector R)),
      (∀ vector ∈ vectors, vector.Writable) →
        ReadBack facet vectors (vectors.map OrbitStateVector.resplit)) ∧
    (∀ vector : OrbitStateVector R, vector.resplit.time.time R = vector.time.time R) ∧
    (10 ≤ (firstLineTime.time : R) → ∀ getOrbitData (vectors : List (OrbitStateVector R)),
      computeOrbitStateVectors getOrbitData firstLineTime lastLineTime = .ok vectors →
        vectors.map OrbitStateVector.resplit = vectors) := by
  have hle' := micros_le hle
  -- ten seconds before and after the scene are twenty vectors more
  have hcount : vectorCount firstLineTime lastLineTime < 2147483648 := by
    have hscaled := mul_lt_mul_of_pos_right hspan (show (0 : R) < 1000000 by norm_num)
    rw [sub_mul, micros_eq, micros_eq] at hscaled
    have hint : micros lastLineTime - micros firstLineTime < 2147483628 * 1000000 := by
      exact_mod_cast hscaled
    unfold vectorCount
    omega
  refine ⟨fun getOrbitData horbit => ?_, fun facet vectors hvectors alloc absRoot hroot => ?_,
    fun vector => UtcElems.resplit_time _, fun hfirst getOrbitData vectors hvectors => ?_⟩
  · obtain ⟨vectors, hvectors⟩ := exists_computeOrbitStateVectors hle' hcount horbit
    obtain ⟨hlength, hsplits⟩ := splits_of_computeOrbitStateVectors hle' hcount hvectors
    exact ⟨vectors, hvectors, covers_of_splits hle' hlength hsplits⟩
  · obtain ⟨absRoot', hset, hreplaced, hget⟩ :=
      AbstractMetadata.exists_setOrbitStateVectors facet alloc hroot vectors
    refine ⟨absRoot', hset, hreplaced, ?_⟩
    rw [hget]
    exact Outcome.collect_map_eq_ok fun vector hvector =>
      AbstractMetadata.reread_of_writable facet (hvectors vector hvector)
  · obtain ⟨-, hsplits⟩ := splits_of_computeOrbitStateVectors hle' hcount hvectors
    -- a time from ten seconds on stays positive with the margin before it
    have hmicros : 10000000 ≤ micros firstLineTime := by
      have hscaled := mul_le_mul_of_nonneg_right hfirst (show (0 : R) ≤ 1000000 by norm_num)
      rw [micros_eq] at hscaled
      have hint : (10 * 1000000 : Int) ≤ micros firstLineTime := by exact_mod_cast hscaled
      omega
    have hsame : ∀ vector ∈ vectors, vector.resplit = id vector := by
      intro vector hvector
      obtain ⟨i, hi⟩ := List.getElem?_of_mem hvector
      have hresplit := (hsplits i vector hi).resplit (by unfold vectorMicros; omega)
      show { vector with time := vector.time.resplit } = vector
      rw [hresplit]
    rw [List.map_congr_left hsame, List.map_id]

end Vectors

/-! ## A scene of a hundred years, and times that are split otherwise or have no date -/

section Samples

/-- The start of the year 2000. -/
def year2000 : Utc := ⟨0, 0, 0, S1tbx.wholeSecond_lt, S1tbx.epoch_in_calendar⟩

/-- The start of the year 2100. -/
def year2100 : Utc := ⟨36525, 0, 0, S1tbx.wholeSecond_lt, by decide⟩

/-- A vector of a time, at rest. -/
def restingVector (time : UtcElems) : OrbitStateVector Rat := ⟨time, 0, 0, 0, 0, 0, 0⟩

/-- Metadata without old vectors. -/
def emptyMetadata : MetadataElement Rat :=
  .mk 0 "Abstracted_Metadata".toList [] [.mk 1 AbstractMetadata.orbitStateVectors [] []]

theorem covers_and_readBack_2000 : CoversScene Rat year2000 year2000 ∧
    (∀ {calendar : Calendar} (facet : DateFormatIn calendar)
      (vectors : List (OrbitStateVector Rat)), (∀ vector ∈ vectors, vector.Writable) →
        ReadBack facet vectors (vectors.map OrbitStateVector.resplit)) ∧
    (∀ vector : OrbitStateVector Rat, vector.resplit.time.time Rat = vector.time.time Rat) ∧
    (10 ≤ (year2000.time : Rat) → ∀ getOrbitData (vectors : List (OrbitStateVector Rat)),
      computeOrbitStateVectors getOrbitData year2000 year2000 = .ok vectors →
        vectors.map OrbitStateVector.resplit = vectors) :=
  covers_and_readBack (le_refl _) (by rw [sub_self]; norm_num)

/-- The number of vectors does not fit an `int` for a scene of a hundred years. The time half a
second after the last day of 1999 begins is split otherwise when it is read, and a time after the
last year of the calendar cannot be written. -/
theorem not_coversScene_century :
    ¬ CoversScene Rat year2000 year2100 ∧
    ∀ {calendar : Calendar} (facet : DateFormatIn calendar),
      ¬ ReadBack facet [restingVector ⟨0, -86400, 500000⟩] [restingVector ⟨0, -86400, 500000⟩] ∧
      ¬ ReadBack facet [restingVector ⟨2921940, 0, 0⟩] [restingVector ⟨2921940, 0, 0⟩] := by
  -- the metadata have an element for the vectors
  have hroot : ∃ elemRoot ∈ emptyMetadata.elements,
      iequals elemRoot.name AbstractMetadata.orbitStateVectors = true :=
    ⟨_, List.mem_singleton_self _, by decide⟩
  refine ⟨fun h => ?_, fun {calendar} facet => ⟨fun h => ?_, fun h => ?_⟩⟩
  · obtain ⟨vectors, hvectors, -⟩ := h (fun time => .ok ⟨time, 0, 0, 0, 0, 0, 0⟩)
      fun time => ⟨_, rfl⟩
    rw [computeOrbitStateVectors, numVectors_eq (by decide),
      int32_of_not_fits (show ¬ Fits 32 (vectorCount year2000 year2100) by decide)] at hvectors
    cases hvectors
  · obtain ⟨absRoot, hset, -, hget⟩ := h id emptyMetadata hroot
    obtain ⟨absRoot', hset', -, hget'⟩ := AbstractMetadata.exists_setOrbitStateVectors facet id
      hroot [restingVector ⟨0, -86400, 500000⟩]
    obtain rfl : absRoot' = absRoot := Outcome.ok.inj (hset'.symm.trans hset)
    have hwritable : (restingVector ⟨0, -86400, 500000⟩).Writable :=
      ⟨by decide, ⟨by decide, by decide⟩⟩
    rw [hget, List.map_singleton, AbstractMetadata.reread_of_writable facet hwritable] at hget'
    have hvector := congrArg (List.map fun vector : OrbitStateVector Rat => vector.time.days)
      (Outcome.ok.inj hget')
    exact absurd hvector (by decide)
  · obtain ⟨absRoot, hset, -, hget⟩ := h id emptyMetadata hroot
    obtain ⟨absRoot', hset', -, hget'⟩ := AbstractMetadata.exists_setOrbitStateVectors facet id
      hroot [restingVector ⟨2921940, 0, 0⟩]
    obtain rfl : absRoot' = absRoot := Outcome.ok.inj (hset'.symm.trans hset)
    rw [hget] at hget'
    have hthrows : AbstractMetadata.reread facet (restingVector ⟨2921940, 0, 0⟩) = .throws := by
      rw [AbstractMetadata.reread, UtcElems.format, Outcome.require_of_not (by decide)]
      rfl
    rw [List.map_singleton, hthrows] at hget'
    cases hget'

end Samples

end Alus.ApplyOrbitFileOp
