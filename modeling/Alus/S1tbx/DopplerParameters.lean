import Mathlib.RingTheory.Polynomial.DegreeLT
import Mathlib.Tactic.ComputeDegree
import Alus.Etad.Text
import Alus.Lib.IntRange
import Alus.Lib.PixelPolynomial
import Alus.Lib.Numerals
import Alus.TopsarSplit.Split

/-!
# Doppler parameters

`Sentinel1Utils` (`s1tbx-commons/sentinel1_utils.cc`) computes, for each burst of a sub-swath and
each sample of its lines, the Doppler centroid and the range dependent Doppler rate. Both come
from lists of the annotation, from which it takes the entry of a burst by the index of the burst.

The computation is that of one sub-swath; the others do not touch it. Times are numbers of
seconds, and the reader of the time of a burst is a parameter.
-/

namespace Alus.S1tbx

open Alus.Lib Alus.TopsarSplit
open Alus.Etad (stoi stoi_toString)

/-- `DCPolynomial`. -/
structure DcPolynomial (R : Type) where
  time : R
  t0 : R
  dataDcPolynomial : List R

structure AzimuthFmRate (R : Type) where
  time : R
  t0 : R
  c0 : R
  c1 : R
  c2 : R

/-- An element of the annotation with what the Doppler parameters are computed from.
`GetDoubleVector` reads at least one coefficient, or throws. -/
structure SwathElem (R ε : Type) extends AnnotationElem ε where
  linesPerBurst : Int
  samplesPerBurst : Nat
  azimuthTimeInterval : R
  slantRangeTime : R
  rangePixelSpacing : R
  dcEstimateList : List (DcPolynomial R)
  azimuthFmRateList : List (AzimuthFmRate R)
  coefficients_ne_nil : ∀ estimate ∈ dcEstimateList, estimate.dataDcPolynomial ≠ []

/-- `GetSubSwathMetadata`, whose result is dereferenced. -/
def getSubSwathMetadata {R ε : Type} (elems : List (SwathElem R ε)) (subSwathName : String) :
    Outcome (SwathElem R ε) :=
  match elems.find? fun elem => find elem.name subSwathName.toLower with
  | some elem => .ok elem
  | none => .undefined

section Computation

variable {R ε : Type} [Field R] [LinearOrder R] (azimuthTime : ε → R) (elem : SwathElem R ε)

/-- `LIGHT_SPEED`. -/
def lightSpeed : R := 299792458

/-- `GetSlantRangeTime`, one way, of a sample. -/
def getSlantRangeTime (x : Nat) : R :=
  elem.slantRangeTime / 2 + x * elem.rangePixelSpacing / lightSpeed

/-- `burst_first_line_time_`. -/
def burstFirstLineTime : List R := elem.burstList.map azimuthTime

/-- `burst_last_line_time_`. -/
def burstLastLineTime : List R :=
  (burstFirstLineTime azimuthTime elem).map fun time =>
    time + (elem.linesPerBurst - 1) * elem.azimuthTimeInterval

/-! ## The Doppler centroid -/

/-- The indices `i0` and `i1` of `ComputeDC`. -/
def dcInterval (centerTime : R) (dcEstimateList : List (DcPolynomial R)) : Outcome (Int × Int) := do
  let size : Int := dcEstimateList.length
  let front ← vectorAt dcEstimateList 0
  -- before the first estimate and after the last, the end intervals are extended
  if centerTime < front.time then return (0, 1)
  let back ← vectorAt dcEstimateList (size - 1)
  if centerTime > back.time then return (size - 2, size - 1)
  return match (dcEstimateList.zip dcEstimateList.tail).findIdx? fun (estimate, next) =>
      estimate.time ≤ centerTime ∧ centerTime < next.time with
    | some i => (i, i + 1)
    -- the time of the last estimate is in no interval
    | none => (0, 0)

/-- `v[i] = a`, without a check. -/
def vectorStore {α : Type} (v : List α) (i : Int) (a : α) : Outcome (List α) :=
  if 0 ≤ i ∧ i < v.length then .ok (v.set i.toNat a) else .undefined

/-- `ComputeDC`. The vector of the result is reserved but never resized. -/
def computeDc (centerTime : R) (dcEstimateList : List (DcPolynomial R)) :
    Outcome (DcPolynomial R) := do
  let (i0, i1) ← dcInterval centerTime dcEstimateList
  let estimate0 ← vectorAt dcEstimateList i0
  let estimate1 ← vectorAt dcEstimateList i1
  let mu := (centerTime - estimate0.time) / (estimate1.time - estimate0.time)
  let coefficients ← (intRange 0 estimate0.dataDcPolynomial.length).foldlM (fun stored j => do
    let c0 ← vectorIndex estimate0.dataDcPolynomial j
    let c1 ← vectorIndex estimate1.dataDcPolynomial j
    vectorStore stored j ((1 - mu) * c0 + mu * c1)) []
  return ⟨centerTime, estimate0.t0, coefficients⟩

/-- The entry of a burst in a list shorter than the burst count. -/
def dcForBurstCenter (b : Int) : Outcome (DcPolynomial R) :=
  -- the estimate is taken by the burst's position, not by its time
  if b < elem.dcEstimateList.length then vectorIndex elem.dcEstimateList b
  else do
    let first ← vectorIndex (burstFirstLineTime azimuthTime elem) b
    let last ← vectorIndex (burstLastLineTime azimuthTime elem) b
    computeDc (1 / 2 * (first + last)) elem.dcEstimateList

/-- `ComputeDCForBurstCenters`. -/
def computeDcForBurstCenters (numOfBursts : Int) : Outcome (List (DcPolynomial R)) :=
  if elem.dcEstimateList.length ≥ numOfBursts then .ok elem.dcEstimateList
  else Outcome.collect ((intRange 0 numOfBursts).map (dcForBurstCenter azimuthTime elem))

/-- `doppler_centroid_` of a sample, from the entry of its burst. -/
def dcValue (estimate : DcPolynomial R) (x : Nat) : R :=
  let dt := 2 * getSlantRangeTime elem x - estimate.t0
  estimate.dataDcPolynomial.zipIdx.foldl
    (fun value (coefficient, i) => value + coefficient * dt ^ i) 0

/-- `range_depend_doppler_rate_` of a sample, from the entry of its burst. -/
def dopplerRateValue (rate : AzimuthFmRate R) (x : Nat) : R :=
  let dt := 2 * getSlantRangeTime elem x - rate.t0
  rate.c0 + rate.c1 * dt + rate.c2 * dt * dt

end Computation

/-! ## Rows of bursts -/

/-- The rows of all bursts: the value of each sample from the entry of the burst, which is read
again for each sample. -/
def burstRows {α R : Type} (entries : List α) (value : α → Nat → R) (numOfBursts : Int)
    (samplesPerBurst : Nat) : Outcome (List (List R)) := do
  let _ ← int32 (numOfBursts * samplesPerBurst)
  Outcome.collect ((List.range numOfBursts.toNat).map fun (b : Nat) =>
    Outcome.collect ((List.range samplesPerBurst).map fun x => do
      let entry ← vectorIndex entries b
      return value entry x))

structure DopplerRows (R : Type) where
  dopplerCentroid : List (List R)
  rangeDependDopplerRate : List (List R)
  deriving DecidableEq

section Computation

variable {R ε : Type} [Field R] [LinearOrder R] (azimuthTime : ε → R) (elem : SwathElem R ε)

/-- `ComputeDopplerCentroid`. -/
def computeDopplerCentroid (numOfBursts : Int) : Outcome (List (List R)) := do
  let dcBurstList ← computeDcForBurstCenters azimuthTime elem numOfBursts
  burstRows dcBurstList (dcValue elem) numOfBursts elem.samplesPerBurst

/-- `ComputeRangeDependentDopplerRate`. -/
def computeRangeDependentDopplerRate (numOfBursts : Int) : Outcome (List (List R)) :=
  burstRows elem.azimuthFmRateList (dopplerRateValue elem) numOfBursts elem.samplesPerBurst

/-- Both parameters of a sub-swath, from its annotation. -/
def dopplerParameters : Outcome (DopplerRows R) := do
  let (numOfBursts, _) ← stoi elem.count
  let dopplerCentroid ← computeDopplerCentroid azimuthTime elem numOfBursts
  let rangeDependDopplerRate ← computeRangeDependentDopplerRate elem numOfBursts
  return ⟨dopplerCentroid, rangeDependDopplerRate⟩

/-- Both parameters of the named sub-swath of a product. -/
def subSwathDoppler (elems : List (SwathElem R ε)) (subSwathName : String) :
    Outcome (DopplerRows R) := do
  let elem ← getSubSwathMetadata elems subSwathName
  dopplerParameters azimuthTime elem

end Computation

/-! ## When a parameter is computed -/

section BurstRows

variable {α R : Type} {entries : List α} {value : α → Nat → R} {samplesPerBurst : Nat}

/-- The row of a burst. -/
def burstRow (entries : List α) (value : α → Nat → R) (samplesPerBurst b : Nat) : List R :=
  (entries[b]?).elim [] fun entry => (List.range samplesPerBurst).map (value entry)

theorem samples_eq_ok {b : Nat} (h : samplesPerBurst = 0 ∨ b < entries.length) :
    (Outcome.collect ((List.range samplesPerBurst).map fun x => do
      let entry ← vectorIndex entries (b : Int)
      return value entry x)) = .ok (burstRow entries value samplesPerBurst b) := by
  rw [Outcome.collect_eq_ok]
  rcases h with rfl | hlt
  · cases hentry : entries[b]? <;> simp [burstRow, hentry]
  · rw [burstRow, List.getElem?_eq_getElem hlt, vectorIndex_natCast hlt]
    show _ = List.map Outcome.ok ((List.range samplesPerBurst).map (value entries[b]))
    rw [List.map_map]
    rfl

/-- The rows are computed when every burst has an entry, or there is no sample. -/
theorem burstRows_eq_ok {numOfBursts : Int} {rows : List (List R)} :
    burstRows entries value numOfBursts samplesPerBurst = .ok rows ↔
      Fits 32 (numOfBursts * samplesPerBurst) ∧
      (samplesPerBurst = 0 ∨ numOfBursts.toNat ≤ entries.length) ∧
      rows = (List.range numOfBursts.toNat).map (burstRow entries value samplesPerBurst) := by
  simp only [burstRows, Outcome.bind_eq_ok, int32_eq_ok, Outcome.collect_eq_ok]
  constructor
  · rintro ⟨_, ⟨hfits, _⟩, hrows⟩
    have hlen : samplesPerBurst = 0 ∨ numOfBursts.toNat ≤ entries.length := by
      by_contra hshort
      push Not at hshort
      -- the first burst without an entry has no row
      have hburst := congrArg (·[entries.length]?) hrows
      simp only [List.getElem?_map, List.getElem?_range hshort.2, Option.map_some] at hburst
      cases hrow : rows[entries.length]? with
      | none => simp [hrow] at hburst
      | some row =>
        rw [hrow, Option.map_some, Option.some.injEq, Outcome.collect_eq_ok] at hburst
        have hsample := congrArg (·[0]?) hburst
        simp only [List.getElem?_map, List.getElem?_range (Nat.pos_of_ne_zero hshort.1),
          Option.map_some] at hsample
        have hpast : vectorIndex entries (entries.length : Int) = .undefined := by
          simp [vectorIndex]
        rw [hpast, Outcome.undefined_bind] at hsample
        cases hfirst : row[0]? <;> simp [hfirst] at hsample
    refine ⟨hfits, hlen, ?_⟩
    have hok : (List.range numOfBursts.toNat).map (fun b =>
          Outcome.ok (burstRow entries value samplesPerBurst b)) = rows.map .ok := by
      rw [← hrows]
      refine List.map_congr_left fun b hb => (samples_eq_ok (hlen.imp_right fun hle => ?_)).symm
      exact (List.mem_range.mp hb).trans_le hle
    rw [show (fun b => Outcome.ok (burstRow entries value samplesPerBurst b)) =
      Outcome.ok ∘ burstRow entries value samplesPerBurst from rfl, ← List.map_map] at hok
    exact (List.map_injective_iff.mpr (fun _ _ => Outcome.ok.inj) hok).symm
  · rintro ⟨hfits, hlen, hrows⟩
    refine ⟨_, ⟨hfits, rfl⟩, ?_⟩
    rw [hrows, List.map_map]
    refine List.map_congr_left fun b hb => samples_eq_ok (hlen.imp_right fun hle => ?_)
    exact (List.mem_range.mp hb).trans_le hle

/-- Two rows of one length agree when their entries give the same values. -/
theorem burstRow_eq_iff {entries' : List α} {value' : α → Nat → R} {b b' : Nat}
    (h : samplesPerBurst = 0 ∨ b < entries.length)
    (h' : samplesPerBurst = 0 ∨ b' < entries'.length) :
    burstRow entries value samplesPerBurst b = burstRow entries' value' samplesPerBurst b' ↔
      ∀ entry entry', entries[b]? = some entry → entries'[b']? = some entry' →
        ∀ x < samplesPerBurst, value entry x = value' entry' x := by
  rcases Nat.eq_zero_or_pos samplesPerBurst with rfl | hpos
  · have hempty : ∀ (es : List α) (v : α → Nat → R) (i : Nat), burstRow es v 0 i = [] := by
      intro es v i
      cases hentry : es[i]? <;> simp [burstRow, hentry]
    rw [hempty, hempty]
    exact ⟨fun _ _ _ _ _ x hx => absurd hx (Nat.not_lt_zero x), fun _ => rfl⟩
  · have hlt := h.resolve_left hpos.ne'
    have hlt' := h'.resolve_left hpos.ne'
    rw [burstRow, burstRow, List.getElem?_eq_getElem hlt, List.getElem?_eq_getElem hlt']
    show (List.range samplesPerBurst).map _ = (List.range samplesPerBurst).map _ ↔ _
    rw [List.map_inj_left]
    simp only [List.mem_range, Option.some.injEq]
    exact ⟨fun hsame _ _ hentry hentry' x hx => hentry ▸ hentry' ▸ hsame x hx,
      fun hsame x hx => hsame _ _ rfl rfl x hx⟩

theorem length_burstRow {b : Nat} (h : b < entries.length) :
    (burstRow entries value samplesPerBurst b).length = samplesPerBurst := by
  rw [burstRow, List.getElem?_eq_getElem h]
  show ((List.range samplesPerBurst).map _).length = samplesPerBurst
  rw [List.length_map, List.length_range]

end BurstRows

section Computation

variable {R ε : Type} [Field R] [LinearOrder R] {azimuthTime : ε → R} {elem : SwathElem R ε}

/-- The interpolation writes its first coefficient past the end of an empty vector. -/
theorem computeDc_ne_ok {estimates : List (DcPolynomial R)}
    (hne : ∀ estimate ∈ estimates, estimate.dataDcPolynomial ≠ []) (centerTime : R)
    (result : DcPolynomial R) : computeDc centerTime estimates ≠ .ok result := by
  intro h
  simp only [computeDc, Outcome.bind_eq_ok] at h
  obtain ⟨⟨i0, i1⟩, -, estimate0, hestimate0, estimate1, -, stored, hstored, -⟩ := h
  have hmem : estimate0 ∈ estimates := by
    unfold vectorAt at hestimate0
    split at hestimate0
    · split at hestimate0
      · next hget =>
        cases hestimate0
        exact List.mem_of_getElem? hget
      · cases hestimate0
    · cases hestimate0
  have hpos : (0 : Int) < estimate0.dataDcPolynomial.length := by
    exact_mod_cast List.length_pos_iff.mpr (hne estimate0 hmem)
  rw [intRange_cons hpos, List.foldlM_cons, Outcome.bind_eq_ok] at hstored
  obtain ⟨next, hnext, -⟩ := hstored
  simp only [Outcome.bind_eq_ok] at hnext
  obtain ⟨c0, -, c1, -, hnext⟩ := hnext
  exact absurd hnext (by simp [vectorStore])

/-- The centroid has an entry for every burst only when the list itself has. -/
theorem computeDcForBurstCenters_eq_ok {numOfBursts : Int} {dcBurstList : List (DcPolynomial R)} :
    computeDcForBurstCenters azimuthTime elem numOfBursts = .ok dcBurstList ↔
      numOfBursts ≤ elem.dcEstimateList.length ∧ dcBurstList = elem.dcEstimateList := by
  unfold computeDcForBurstCenters
  split
  · next hle =>
    rw [Outcome.ok.injEq]
    exact ⟨fun h => ⟨hle, h.symm⟩, fun h => h.2.symm⟩
  · next hshort =>
    refine ⟨fun h => ?_, fun h => absurd h.1 hshort⟩
    rw [Outcome.collect_eq_ok] at h
    -- the first burst past the list is interpolated
    have hmem : (elem.dcEstimateList.length : Int) ∈ intRange 0 numOfBursts :=
      mem_intRange.mpr ⟨by omega, by omega⟩
    have hentry := List.mem_map_of_mem (f := dcForBurstCenter azimuthTime elem) hmem
    rw [h] at hentry
    obtain ⟨estimate, -, hestimate⟩ := List.mem_map.mp hentry
    simp only [dcForBurstCenter, lt_irrefl, if_false] at hestimate
    obtain ⟨_, -, hlast⟩ := Outcome.bind_eq_ok.mp hestimate.symm
    obtain ⟨_, -, hcompute⟩ := Outcome.bind_eq_ok.mp hlast
    exact absurd hcompute (computeDc_ne_ok elem.coefficients_ne_nil _ _)

/-- When both parameters of a sub-swath are computed, and what their rows are. -/
theorem dopplerParameters_eq_ok {numOfBursts : Int} {consumed : Nat}
    (hcount : stoi elem.count = .ok (numOfBursts, consumed)) {rows : DopplerRows R} :
    dopplerParameters azimuthTime elem = .ok rows ↔
      numOfBursts ≤ elem.dcEstimateList.length ∧
      Fits 32 (numOfBursts * elem.samplesPerBurst) ∧
      (elem.samplesPerBurst = 0 ∨ numOfBursts.toNat ≤ elem.azimuthFmRateList.length) ∧
      rows.dopplerCentroid = (List.range numOfBursts.toNat).map
        (burstRow elem.dcEstimateList (dcValue elem) elem.samplesPerBurst) ∧
      rows.rangeDependDopplerRate = (List.range numOfBursts.toNat).map
        (burstRow elem.azimuthFmRateList (dopplerRateValue elem) elem.samplesPerBurst) := by
  simp only [dopplerParameters, hcount, Outcome.ok_bind, Outcome.bind_eq_ok, Outcome.pure_eq,
    computeDopplerCentroid, computeDcForBurstCenters_eq_ok, computeRangeDependentDopplerRate,
    burstRows_eq_ok, Outcome.ok.injEq]
  refine ⟨?_, fun ⟨hdc, hfits, hlen, hcentroid, hrate⟩ => ?_⟩
  · rintro ⟨_, ⟨_, ⟨hdc, rfl⟩, hfits, -, rfl⟩, _, ⟨-, hlen, rfl⟩, rfl⟩
    exact ⟨hdc, hfits, hlen, rfl, rfl⟩
  · exact ⟨_, ⟨_, ⟨hdc, rfl⟩, hfits, .inr (by omega), rfl⟩, _, ⟨hfits, hlen, rfl⟩,
      by rw [← hcentroid, ← hrate]⟩

end Computation

/-! ## Entries as polynomials of the sample -/

section Pixels

open Polynomial

variable {R ε : Type} [Field R] (elem : SwathElem R ε)

/-- The two-way slant range time, less `t0`. -/
noncomputable def timeInPixels (t0 : R) : R[X] :=
  2 * (C (elem.slantRangeTime / 2) + X * C elem.rangePixelSpacing * C (lightSpeed : R)⁻¹) - C t0

/-- The centroid of an estimate, over the samples of a line. -/
noncomputable def dcInPixels (estimate : DcPolynomial R) : R[X] :=
  (estimate.dataDcPolynomial.zipIdx.map fun (coefficient, i) =>
    C coefficient * timeInPixels elem estimate.t0 ^ i).sum

/-- The rate of an entry, over the samples of a line. -/
noncomputable def dopplerRateInPixels (rate : AzimuthFmRate R) : R[X] :=
  C rate.c0 + C rate.c1 * timeInPixels elem rate.t0 +
    C rate.c2 * timeInPixels elem rate.t0 * timeInPixels elem rate.t0

theorem eval_timeInPixels (t0 : R) (x : Nat) :
    (timeInPixels elem t0).eval (x : R) = 2 * getSlantRangeTime elem x - t0 := by
  rw [timeInPixels, getSlantRangeTime, div_eq_mul_inv (_ * _)]
  simp only [eval_sub, eval_mul, eval_add, eval_C, eval_X, eval_ofNat]

theorem eval_dcInPixels (estimate : DcPolynomial R) (x : Nat) :
    (dcInPixels elem estimate).eval (x : R) = dcValue elem estimate x := by
  have hsum : ∀ (terms : List (R × Nat)) (value : R),
      terms.foldl (fun value (coefficient, i) =>
        value + coefficient * (2 * getSlantRangeTime elem x - estimate.t0) ^ i) value =
      value + ((terms.map fun (coefficient, i) =>
        C coefficient * timeInPixels elem estimate.t0 ^ i).sum).eval (x : R) := by
    intro terms
    induction terms with
    | nil => intro value; simp
    | cons term terms ih =>
      intro value
      rw [List.foldl_cons, ih, List.map_cons, List.sum_cons, eval_add, eval_mul, eval_C, eval_pow,
        eval_timeInPixels, add_assoc]
  rw [dcValue, dcInPixels, hsum, zero_add]

theorem eval_dopplerRateInPixels (rate : AzimuthFmRate R) (x : Nat) :
    (dopplerRateInPixels elem rate).eval (x : R) = dopplerRateValue elem rate x := by
  simp only [dopplerRateInPixels, dopplerRateValue, eval_add, eval_mul, eval_C, eval_timeInPixels]

theorem natDegree_timeInPixels_le (t0 : R) : (timeInPixels elem t0).natDegree ≤ 1 := by
  unfold timeInPixels
  compute_degree

theorem degree_dcInPixels_lt (estimate : DcPolynomial R) :
    (dcInPixels elem estimate).degree < estimate.dataDcPolynomial.length := by
  refine mem_degreeLT.mp (list_sum_mem fun p hp => mem_degreeLT.mpr ?_)
  obtain ⟨⟨coefficient, i⟩, hmem, rfl⟩ := List.mem_map.mp hp
  have hi : i < estimate.dataDcPolynomial.length := by
    have := List.mem_zipIdx hmem
    omega
  have hterm : (C coefficient * timeInPixels elem estimate.t0 ^ i).natDegree ≤ i * 1 :=
    (natDegree_C_mul_le _ _).trans (natDegree_pow_le_of_le i (natDegree_timeInPixels_le elem _))
  exact degree_le_natDegree.trans_lt (by exact_mod_cast hterm.trans_lt (by omega))

theorem degree_dopplerRateInPixels_lt (rate : AzimuthFmRate R) :
    (dopplerRateInPixels elem rate).degree < 3 := by
  have hline := natDegree_timeInPixels_le elem rate.t0
  have hle : (dopplerRateInPixels elem rate).natDegree ≤ 2 := by
    unfold dopplerRateInPixels
    generalize timeInPixels elem rate.t0 = line at hline
    compute_degree!
    all_goals omega
  exact degree_le_natDegree.trans_lt (by exact_mod_cast hle.trans_lt (by omega))

end Pixels

end Alus.S1tbx
