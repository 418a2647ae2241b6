import Alus.Lib.IntervalSearch
import Alus.S1tbx.DopplerParameters

/-!
# Doppler centroids between the estimates

A sub-swath with more bursts than Doppler centroid estimates takes the polynomials of the bursts
past the list from `ComputeDC`, which interpolates between two estimates at the time of the centre
of the burst. The list of estimates is any list here, whether or not an annotation has it.
-/

namespace Alus.S1tbx

open Alus.Lib

/-- The fields of `SubSwathInfo` that the centroids are computed from. Each burst has its times. -/
structure SubSwathTimes (R : Type) where
  numOfBursts : Int
  slrTimeToFirstPixel : R
  rangePixelSpacing : R
  burstFirstLineTime : List R
  burstLastLineTime : List R
  length_first : burstFirstLineTime.length = numOfBursts.toNat
  length_last : burstLastLineTime.length = numOfBursts.toNat

section Computation

variable {R : Type} [Field R] [LinearOrder R]

namespace SubSwathTimes

variable (s : SubSwathTimes R) (dcEstimateList : List (DcPolynomial R))

def getSlantRangeTime (x : Nat) : R :=
  s.slrTimeToFirstPixel + x * s.rangePixelSpacing / lightSpeed

def dcForBurstCenter (b : Int) : Outcome (DcPolynomial R) :=
  if b < dcEstimateList.length then vectorIndex dcEstimateList b
  else do
    let first ← vectorIndex s.burstFirstLineTime b
    let last ← vectorIndex s.burstLastLineTime b
    computeDc (1 / 2 * (first + last)) dcEstimateList

/-- `ComputeDCForBurstCenters`, for any list. -/
def computeDcForBurstCenters : Outcome (List (DcPolynomial R)) :=
  if dcEstimateList.length ≥ s.numOfBursts then .ok dcEstimateList
  else Outcome.collect ((intRange 0 s.numOfBursts).map (s.dcForBurstCenter dcEstimateList))

/-- `doppler_centroid_` of a sample. -/
def dcValue (estimate : DcPolynomial R) (x : Nat) : R :=
  let dt := 2 * s.getSlantRangeTime x - estimate.t0
  estimate.dataDcPolynomial.zipIdx.foldl
    (fun value (coefficient, i) => value + coefficient * dt ^ i) 0

end SubSwathTimes

/-! ## The sub-swath of an annotation -/

section Annotation

variable {ε : Type} (azimuthTime : ε → R) (elem : SwathElem R ε) (numOfBursts : Int)
  (hbursts : elem.burstList.length = numOfBursts.toNat)

/-- What is kept of an annotation with as many bursts as it counts. -/
def SwathElem.times : SubSwathTimes R where
  numOfBursts := numOfBursts
  slrTimeToFirstPixel := elem.slantRangeTime / 2
  rangePixelSpacing := elem.rangePixelSpacing
  burstFirstLineTime := S1tbx.burstFirstLineTime azimuthTime elem
  burstLastLineTime := S1tbx.burstLastLineTime azimuthTime elem
  length_first := by rw [S1tbx.burstFirstLineTime, List.length_map, hbursts]
  length_last := by
    rw [S1tbx.burstLastLineTime, List.length_map, S1tbx.burstFirstLineTime, List.length_map,
      hbursts]

theorem computeDcForBurstCenters_times :
    (elem.times azimuthTime numOfBursts hbursts).computeDcForBurstCenters elem.dcEstimateList =
      computeDcForBurstCenters azimuthTime elem numOfBursts := rfl

omit [LinearOrder R] in
theorem dcValue_times : (elem.times azimuthTime numOfBursts hbursts).dcValue = dcValue elem := rfl

end Annotation

end Computation

/-! ## What is to be computed -/

section Spec

variable {R : Type} [Field R] [LinearOrder R]

/-- The time of an estimate. -/
def estimateTime (estimates : List (DcPolynomial R)) (k : Nat) : R :=
  (estimates[k]?).elim 0 DcPolynomial.time

/-- The time lies between two estimates that follow each other, or beyond the two at an end. -/
structure Neighbours (estimates : List (DcPolynomial R)) (time : R) (k : Nat) : Prop where
  lt_length : k + 1 < estimates.length
  after : estimateTime estimates k ≤ time ∨ k = 0
  before : time ≤ estimateTime estimates (k + 1) ∨ k + 2 = estimates.length

/-- The coefficients at a time, on the lines through those of two estimates. -/
def interpolated (estimate0 estimate1 : DcPolynomial R) (time : R) : List R :=
  let mu := (time - estimate0.time) / (estimate1.time - estimate0.time)
  List.zipWith (fun c0 c1 => (1 - mu) * c0 + mu * c1) estimate0.dataDcPolynomial
    estimate1.dataDcPolynomial

/-- The value of a polynomial. -/
def polynomialAt (coefficients : List R) (dt : R) : R :=
  (coefficients.zipIdx.map fun (coefficient, i) => coefficient * dt ^ i).sum

/-- The indices that are found have estimates of one time. -/
def DividesByZero (centerTime : R) (estimates : List (DcPolynomial R)) : Prop :=
  ∃ i0 i1 estimate0 estimate1, dcInterval centerTime estimates = .ok (i0, i1) ∧
    vectorAt estimates i0 = .ok estimate0 ∧ vectorAt estimates i1 = .ok estimate1 ∧
    estimate1.time - estimate0.time = 0

/-- A burst past the list has an entry with as many coefficients as the estimates. They are
interpolated without a division by zero, agree with those of an estimate at its time, and are what
the centroid of a sample is the value of. -/
structure InterpolatedAt (s : SubSwathTimes R) (estimates : List (DcPolynomial R)) (time : R)
    (entry : DcPolynomial R) : Prop where
  defined : ¬ DividesByZero time estimates
  length : ∀ estimate ∈ estimates,
    entry.dataDcPolynomial.length = estimate.dataDcPolynomial.length
  coefficients : ∀ k estimate0 estimate1, Neighbours estimates time k →
    estimates[k]? = some estimate0 → estimates[k + 1]? = some estimate1 →
    entry.dataDcPolynomial = interpolated estimate0 estimate1 time
  reproduces : ∀ estimate ∈ estimates, estimate.time = time →
    entry.dataDcPolynomial = estimate.dataDcPolynomial
  value : ∀ k estimate0 estimate1, Neighbours estimates time k →
    estimates[k]? = some estimate0 → estimates[k + 1]? = some estimate1 →
    ∀ x, s.dcValue entry x =
      polynomialAt (interpolated estimate0 estimate1 time) (2 * s.getSlantRangeTime x - entry.t0)

/-- The time of the centre of a burst. -/
def SubSwathTimes.centerTime (s : SubSwathTimes R) (b : Nat) : R :=
  1 / 2 * (s.burstFirstLineTime.getD b 0 + s.burstLastLineTime.getD b 0)

/-- Every burst has an entry, those past the list an interpolated one. -/
def BurstsHavePolynomials (s : SubSwathTimes R) (estimates : List (DcPolynomial R)) : Prop :=
  ∃ dcBurstList, s.computeDcForBurstCenters estimates = .ok dcBurstList ∧
    s.numOfBursts ≤ dcBurstList.length ∧
    ∀ b : Nat, estimates.length ≤ b → b < s.numOfBursts →
      ∃ entry, dcBurstList[b]? = some entry ∧ InterpolatedAt s estimates (s.centerTime b) entry

end Spec

/-! ## The search for the interval -/

section Search

variable {R : Type} [Field R] [LinearOrder R] {estimates : List (DcPolynomial R)}

omit [LinearOrder R] in
theorem estimateTime_eq {k : Nat} (h : k < estimates.length) :
    estimateTime estimates k = estimates[k].time := by
  rw [estimateTime, List.getElem?_eq_getElem h]
  rfl

theorem increasing_estimateTime (htimes : estimates.Pairwise fun e e' => e.time < e'.time) :
    Increasing (estimateTime estimates) (estimates.length - 1) := by
  intro i j hij hj
  rw [estimateTime_eq (by omega), estimateTime_eq (by omega)]
  exact List.pairwise_iff_getElem.mp htimes i j (by omega) (by omega) hij

theorem dcInterval_eq (hlen : 2 ≤ estimates.length) (centerTime : R) :
    dcInterval centerTime estimates =
      .ok (match searchInterval (estimateTime estimates) (estimates.length - 1) centerTime with
        | some k => ((k : Int), (k : Int) + 1)
        | none => (0, 0)) := by
  have hback : (estimates.length : Int) - 1 = ((estimates.length - 1 : Nat) : Int) := by omega
  have hpairs := findIdx?_zip_tail estimates DcPolynomial.time 0 centerTime
  rw [dcInterval, show (0 : Int) = ((0 : Nat) : Int) from rfl, vectorAt_natCast (by omega),
    Outcome.ok_bind, ← estimateTime_eq (by omega), searchInterval]
  split
  · rfl
  · rw [hback, vectorAt_natCast (by omega), Outcome.ok_bind, ← estimateTime_eq (by omega)]
    split
    · rw [Outcome.pure_eq, Outcome.ok.injEq, Prod.mk.injEq]
      omega
    · rw [hpairs]
      rfl

/-- Only at the time of the last estimate are the two indices the same. -/
theorem dividesByZero_iff (hlen : 2 ≤ estimates.length)
    (htimes : estimates.Pairwise fun e e' => e.time < e'.time) (centerTime : R) :
    DividesByZero centerTime estimates ↔
      centerTime = estimateTime estimates (estimates.length - 1) := by
  have hincreasing := increasing_estimateTime htimes
  have hpos : 0 < estimates.length - 1 := by omega
  rw [DividesByZero, dcInterval_eq hlen, ← searchInterval_eq_none hincreasing hpos]
  cases hk : searchInterval (estimateTime estimates) (estimates.length - 1) centerTime with
  | some k =>
    obtain ⟨hlt, -, -⟩ := searchInterval_spec hincreasing hpos hk
    refine iff_of_false ?_ (by simp)
    rintro ⟨i0, i1, estimate0, estimate1, hindices, h0, h1, hzero⟩
    cases hindices
    rw [vectorAt_natCast (by omega), Outcome.ok.injEq] at h0
    rw [← Nat.cast_succ, vectorAt_natCast (by omega), Outcome.ok.injEq] at h1
    have hnext := hincreasing k (k + 1) (Nat.lt_succ_self k) hlt
    rw [estimateTime_eq (by omega), estimateTime_eq (by omega), h0, h1] at hnext
    exact hnext.ne' (sub_eq_zero.mp hzero)
  | none =>
    refine iff_of_true ?_ rfl
    have hfirst := vectorAt_natCast (show 0 < estimates.length by omega)
    exact ⟨0, 0, _, _, rfl, hfirst, hfirst, sub_self _⟩

end Search

/-! ## Which lists of estimates do -/

section Bursts

variable {R : Type} [Field R] [LinearOrder R] {estimates : List (DcPolynomial R)}

/-- Without coefficients nothing is written past the end of the vector. -/
theorem computeDc_of_empty (hlen : 2 ≤ estimates.length)
    (htimes : estimates.Pairwise fun e e' => e.time < e'.time)
    (hempty : ∀ estimate ∈ estimates, estimate.dataDcPolynomial = []) (centerTime : R) :
    ∃ t0, computeDc centerTime estimates = .ok ⟨centerTime, t0, []⟩ := by
  have hincreasing := increasing_estimateTime htimes
  have hpos : 0 < estimates.length - 1 := by omega
  have hindices : ∃ i0 i1 : Nat, dcInterval centerTime estimates = .ok ((i0 : Int), (i1 : Int)) ∧
      i0 < estimates.length ∧ i1 < estimates.length := by
    rw [dcInterval_eq hlen]
    cases hk : searchInterval (estimateTime estimates) (estimates.length - 1) centerTime with
    | some k =>
      obtain ⟨hlt, -, -⟩ := searchInterval_spec hincreasing hpos hk
      exact ⟨k, k + 1, rfl, by omega, by omega⟩
    | none => exact ⟨0, 0, rfl, by omega, by omega⟩
  obtain ⟨i0, i1, hinterval, h0, h1⟩ := hindices
  refine ⟨estimates[i0].t0, ?_⟩
  rw [computeDc, hinterval, Outcome.ok_bind]
  dsimp only
  rw [vectorAt_natCast h0, Outcome.ok_bind, vectorAt_natCast h1, Outcome.ok_bind,
    hempty _ (List.getElem_mem h0)]
  rfl

omit [LinearOrder R] in
theorem interpolated_of_empty {estimate0 estimate1 : DcPolynomial R}
    (hempty : estimate0.dataDcPolynomial = []) (time : R) :
    interpolated estimate0 estimate1 time = [] := by
  rw [interpolated, hempty, List.zipWith_nil_left]

/-- The entries are what was asked for when the list covers the bursts. -/
theorem burstsHavePolynomials_of_le (s : SubSwathTimes R)
    (hle : s.numOfBursts ≤ estimates.length) : BurstsHavePolynomials s estimates :=
  ⟨estimates, if_pos hle, hle, fun b hb hb' => by omega⟩

theorem dcForBurstCenter_past (s : SubSwathTimes R) {b : Nat} (hb : b < s.numOfBursts)
    (hpast : estimates.length ≤ b) :
    s.dcForBurstCenter estimates b = computeDc (s.centerTime b) estimates := by
  have hfirst : b < s.burstFirstLineTime.length := by
    rw [s.length_first]
    omega
  have hlast : b < s.burstLastLineTime.length := by
    rw [s.length_last]
    omega
  rw [SubSwathTimes.dcForBurstCenter, if_neg (by omega), vectorIndex_natCast hfirst,
    Outcome.ok_bind, vectorIndex_natCast hlast, Outcome.ok_bind, SubSwathTimes.centerTime,
    List.getD_eq_getElem?_getD, List.getD_eq_getElem?_getD, List.getElem?_eq_getElem hfirst,
    List.getElem?_eq_getElem hlast, Option.getD_some, Option.getD_some]

/-- With coefficients in every estimate there is no entry for the first burst past the list. -/
theorem not_burstsHavePolynomials (s : SubSwathTimes R)
    (hne : ∀ estimate ∈ estimates, estimate.dataDcPolynomial ≠ [])
    (hshort : estimates.length < s.numOfBursts) : ¬ BurstsHavePolynomials s estimates := by
  rintro ⟨dcBurstList, hlist, -⟩
  rw [SubSwathTimes.computeDcForBurstCenters, if_neg (not_le_of_gt hshort),
    Outcome.collect_eq_ok] at hlist
  have hmem : (estimates.length : Int) ∈ intRange 0 s.numOfBursts :=
    mem_intRange.mpr ⟨by omega, hshort⟩
  have hentry := List.mem_map_of_mem (f := s.dcForBurstCenter estimates) hmem
  rw [hlist, List.mem_map] at hentry
  obtain ⟨entry, -, hentry⟩ := hentry
  rw [dcForBurstCenter_past s hshort (le_refl _)] at hentry
  exact computeDc_ne_ok hne _ entry hentry.symm

/-- Without coefficients there is an entry for every burst. -/
theorem exists_dcForBurstCenter (s : SubSwathTimes R) (hlen : 2 ≤ estimates.length)
    (htimes : estimates.Pairwise fun e e' => e.time < e'.time)
    (hempty : ∀ estimate ∈ estimates, estimate.dataDcPolynomial = []) {b : Nat}
    (hb : b < s.numOfBursts) : ∃ entry, s.dcForBurstCenter estimates b = .ok entry := by
  rcases Nat.lt_or_ge b estimates.length with hlt | hpast
  · refine ⟨estimates[b], ?_⟩
    rw [SubSwathTimes.dcForBurstCenter, if_pos (by omega), vectorIndex_natCast hlt]
  · rw [dcForBurstCenter_past s hb hpast]
    obtain ⟨t0, hcompute⟩ := computeDc_of_empty hlen htimes hempty (s.centerTime b)
    exact ⟨_, hcompute⟩

theorem interpolatedAt_of_empty (s : SubSwathTimes R)
    (hempty : ∀ estimate ∈ estimates, estimate.dataDcPolynomial = []) {time t0 : R}
    (hdefined : ¬ DividesByZero time estimates) :
    InterpolatedAt s estimates time ⟨time, t0, []⟩ where
  defined := hdefined
  length estimate hestimate := by rw [hempty estimate hestimate]
  coefficients k estimate0 estimate1 _ h0 _ :=
    (interpolated_of_empty (hempty estimate0 (List.mem_of_getElem? h0)) time).symm
  reproduces estimate hestimate _ := (hempty estimate hestimate).symm
  value k estimate0 estimate1 _ h0 _ x := by
    rw [interpolated_of_empty (hempty estimate0 (List.mem_of_getElem? h0)) time]
    rfl

/-- Without coefficients the entries past the list are empty, as what is interpolated is. -/
theorem burstsHavePolynomials_of_empty (s : SubSwathTimes R) (hlen : 2 ≤ estimates.length)
    (htimes : estimates.Pairwise fun e e' => e.time < e'.time)
    (hempty : ∀ estimate ∈ estimates, estimate.dataDcPolynomial = [])
    (hcenters : ∀ b : Nat, estimates.length ≤ b → b < s.numOfBursts →
      s.centerTime b ≠ estimateTime estimates (estimates.length - 1))
    (hshort : estimates.length < s.numOfBursts) : BurstsHavePolynomials s estimates := by
  obtain ⟨dcBurstList, hlist, hentries⟩ := Outcome.exists_collect_map
    (f := s.dcForBurstCenter estimates) (l := intRange 0 s.numOfBursts) fun i hi => by
      obtain ⟨hi0, hilt⟩ := mem_intRange.mp hi
      obtain ⟨b, rfl⟩ := Int.eq_ofNat_of_zero_le hi0
      exact exists_dcForBurstCenter s hlen htimes hempty hilt
  refine ⟨dcBurstList, (if_neg (not_le_of_gt hshort)).trans hlist, ?_, fun b hb hlt => ?_⟩
  · rw [Outcome.collect_eq_ok] at hlist
    have hlength := congrArg List.length hlist
    rw [List.length_map, List.length_map, length_intRange] at hlength
    omega
  · have hround : (intRange 0 s.numOfBursts)[b]? = some (b : Int) := by
      rw [getElem?_intRange (by omega), Int.zero_add]
    obtain ⟨entry, hentry, hcompute⟩ := hentries b b hround
    obtain ⟨t0, hempties⟩ := computeDc_of_empty hlen htimes hempty (s.centerTime b)
    rw [dcForBurstCenter_past s hlt hb, hempties, Outcome.ok.injEq] at hcompute
    refine ⟨entry, hentry, ?_⟩
    rw [← hcompute]
    exact interpolatedAt_of_empty s hempty fun hzero =>
      hcenters b hb hlt ((dividesByZero_iff hlen htimes _).mp hzero)

/-- Every burst has its polynomial exactly when the list covers all bursts, or no estimate has a
coefficient and no burst past the list has its centre at the time of the last estimate. -/
theorem burstsHavePolynomials_iff (s : SubSwathTimes R) (hlen : 2 ≤ estimates.length)
    (htimes : estimates.Pairwise fun e e' => e.time < e'.time)
    (hcoefficients : ∀ estimate ∈ estimates, ∀ estimate' ∈ estimates,
      estimate.dataDcPolynomial.length = estimate'.dataDcPolynomial.length) :
    BurstsHavePolynomials s estimates ↔
      s.numOfBursts ≤ estimates.length ∨
      (∀ estimate ∈ estimates, estimate.dataDcPolynomial = []) ∧
        ∀ b : Nat, estimates.length ≤ b → b < s.numOfBursts →
          s.centerTime b ≠ estimateTime estimates (estimates.length - 1) := by
  rcases le_or_gt s.numOfBursts estimates.length with hle | hshort
  · exact iff_of_true (burstsHavePolynomials_of_le s hle) (.inl hle)
  rw [or_iff_right (not_le_of_gt hshort)]
  constructor
  · intro h
    refine ⟨fun estimate hestimate => ?_, fun b hb hlt htime => ?_⟩
    · by_contra hcoefficient
      refine not_burstsHavePolynomials s (fun estimate' hestimate' hnil => ?_) hshort h
      have hlength := hcoefficients estimate hestimate estimate' hestimate'
      rw [hnil, List.length_nil, List.length_eq_zero_iff] at hlength
      exact hcoefficient hlength
    · obtain ⟨_, -, -, hentries⟩ := h
      obtain ⟨entry, -, hentry⟩ := hentries b hb hlt
      exact hentry.defined ((dividesByZero_iff hlen htimes _).mpr htime)
  · rintro ⟨hempty, hcenters⟩
    exact burstsHavePolynomials_of_empty s hlen htimes hempty hcenters hshort

/-- Two estimates of a constant, a second apart. -/
def twoEstimates : List (DcPolynomial Rat) := [⟨0, 0, [1]⟩, ⟨1, 0, [2]⟩]

/-- Three bursts of one line. -/
def threeBursts : SubSwathTimes Rat :=
  ⟨3, 0, 1, [0, 1, 2], [0, 1, 2], rfl, rfl⟩

theorem burstsHavePolynomials_iff_three : BurstsHavePolynomials threeBursts twoEstimates ↔
    threeBursts.numOfBursts ≤ twoEstimates.length ∨
    (∀ estimate ∈ twoEstimates, estimate.dataDcPolynomial = []) ∧
      ∀ b : Nat, twoEstimates.length ≤ b → b < threeBursts.numOfBursts →
        threeBursts.centerTime b ≠ estimateTime twoEstimates (twoEstimates.length - 1) :=
  burstsHavePolynomials_iff threeBursts (by decide) (by simp [twoEstimates])
    (by simp [twoEstimates])

/-- The polynomial of the third burst is to be interpolated. -/
theorem not_burstsHavePolynomials_three : ¬ BurstsHavePolynomials threeBursts twoEstimates :=
  not_burstsHavePolynomials threeBursts (by simp [twoEstimates]) (by decide)

end Bursts

end Alus.S1tbx
