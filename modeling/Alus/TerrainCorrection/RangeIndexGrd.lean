import Mathlib.Data.List.Basic
import Mathlib.Tactic.FieldSimp
import Alus.Lib.Interpolation
import Alus.TerrainCorrection.GroundRange

/-!
# The range index in a ground range product

`ComputeRangeIndexGrdImpl` (`range-doppler-terrain-correction/include/get_position.cuh`) blends the
polynomials of the two SRGR records around a time, and looks for the ground range with the result.
The records come from `ParseSrgrCoefficients`, which refuses a record without coefficients.
-/

namespace Alus.TerrainCorrection

open Alus.Lib

/-! ## The code -/

/-- `SrgrCoefficients`. -/
structure SrgrRecord (R : Type) where
  timeMjd : R
  groundRangeOrigin : R
  coefficients : List R
  coefficients_ne : coefficients ≠ []

/-- `POLYNOMIAL_BUFFER_LENGTH`. -/
def polynomialBufferLength : Nat := 21

/-- The two records that are used, and the buffer with the blended coefficients. -/
structure SrgrPair (R : Type) where
  lower : SrgrRecord R
  upper : SrgrRecord R
  coefficients : List R

section Code

variable {R : Type} [Field R] [LinearOrder R]

/-- `interpolations::Linear`. -/
def linear (a b weight : R) : R := (1 - weight) * a + weight * b

/-- The loop goes on while the records are not later than the time. -/
def targetStep (zeroDopplerTime : R) (_ : Nat) (entry : SrgrRecord R × Nat) : Option Nat :=
  if zeroDopplerTime ≥ entry.1.timeMjd then some entry.2 else none

def targetIndex (records : List (SrgrRecord R)) (zeroDopplerTime : R) : Nat :=
  foldlBreak (targetStep zeroDopplerTime) 0 records.zipIdx

/-- `srgr_polynomial_calc_buf`. -/
def blendCoefficients (lower upper : List R) (mu : R) (interpolationLength : Nat) :
    Outcome (List R) :=
  .collect ((List.range interpolationLength).map fun (i : Nat) => do
    return linear (← vectorIndex lower i) (← vectorIndex upper i) mu)

/-- The part of `ComputeRangeIndexGrdImpl` that makes the polynomial from a list of records. -/
def selectSrgr (records : List (SrgrRecord R)) (zeroDopplerTime : R) :
    Outcome (Option (SrgrPair R)) := do
  let target := targetIndex records zeroDopplerTime
  let interpolationLength := (← vectorIndex records target).coefficients.length
  if interpolationLength > polynomialBufferLength then return none
  else
    -- the length stays that of the record before the correction
    let target := if target = records.length - 1 then target - 1 else target
    let lower ← vectorIndex records target
    let upper ← vectorIndex records (target + 1 : Nat)
    let mu := (zeroDopplerTime - lower.timeMjd) / (upper.timeMjd - lower.timeMjd)
    if mu > 1 then return none
    else
      let coefficients ←
        blendCoefficients lower.coefficients upper.coefficients mu interpolationLength
      return some ⟨lower, upper, coefficients⟩

/-- The range index of the ground range that a polynomial gives. -/
def rangeIndexFrom (coefficients : List R) (groundRangeOrigin : R) (sourceImageWidth : Int)
    (rangeSpacing slantRange : R) (passes : Nat) : Outcome (Option R) := do
  let groundRange ← computeGroundRange sourceImageWidth rangeSpacing slantRange coefficients
    groundRangeOrigin passes
  return groundRange.map fun groundRange =>
    if groundRange < 0 then -1 else (groundRange - groundRangeOrigin) / rangeSpacing

/-- `ComputeRangeIndexGrdImpl`. -/
def computeRangeIndexGrd (records : List (SrgrRecord R)) (zeroDopplerTime : R)
    (sourceImageWidth : Int) (rangeSpacing slantRange : R) (passes : Nat) : Outcome (Option R) :=
  match records with
  | [] => return some (-1)
  | [record] => rangeIndexFrom record.coefficients record.groundRangeOrigin sourceImageWidth
      rangeSpacing slantRange passes
  | _ => do
    match ← selectSrgr records zeroDopplerTime with
    | none => return some (-1)
    | some pair =>
      rangeIndexFrom pair.coefficients pair.lower.groundRangeOrigin sourceImageWidth rangeSpacing
        slantRange passes

end Code

/-! ## What is selected -/

section Blend

variable {R : Type} [Field R] [LinearOrder R]

/-- The coefficients at a time are those of the line from one record to the other. -/
structure BlendedAt (t : R) (lower upper : SrgrRecord R) (coefficients : List R) : Prop where
  blend : ∀ x, srgrPolynomial coefficients x = lerp lower.timeMjd upper.timeMjd
    (srgrPolynomial lower.coefficients x) (srgrPolynomial upper.coefficients x) t
  atLower : t = lower.timeMjd → coefficients = lower.coefficients
  atUpper : t = upper.timeMjd → coefficients = upper.coefficients

/-- The records `lower` and `upper` are used at a time, and are the right ones. -/
structure BracketsTime (records : List (SrgrRecord R)) (t : R) (lower upper : SrgrRecord R) :
    Prop where
  neighbours : ∃ k : Nat, records[k]? = some lower ∧ records[k + 1]? = some upper
  bracket : lower.timeMjd ≤ t ∧ t ≤ upper.timeMjd
  used : ∀ pair, selectSrgr records t = .ok (some pair) → pair.lower = lower ∧ pair.upper = upper
  blends : lower.coefficients.length = upper.coefficients.length →
    lower.coefficients.length ≤ polynomialBufferLength →
    ∃ coefficients, BlendedAt t lower upper coefficients ∧
      ∀ sourceImageWidth rangeSpacing slantRange passes,
        computeRangeIndexGrd records t sourceImageWidth rangeSpacing slantRange passes =
            rangeIndexFrom coefficients lower.groundRangeOrigin sourceImageWidth rangeSpacing
              slantRange passes ∧
          ∃ r, computeRangeIndexGrd records t sourceImageWidth rangeSpacing slantRange passes =
            .ok r
  tooLong : lower.coefficients.length = upper.coefficients.length →
    polynomialBufferLength < lower.coefficients.length →
    ∀ sourceImageWidth rangeSpacing slantRange passes,
      computeRangeIndexGrd records t sourceImageWidth rangeSpacing slantRange passes =
        .ok (some (-1))

/-- What `ComputeRangeIndexGrdImpl` selects from a list of records. -/
structure SelectsAndBlends (records : List (SrgrRecord R)) : Prop where
  between : 2 ≤ records.length → ∀ t first last, records.head? = some first →
    records.getLast? = some last → first.timeMjd ≤ t → t ≤ last.timeMjd →
    ∃ lower upper, BracketsTime records t lower upper
  after : 2 ≤ records.length → ∀ t last, records.getLast? = some last → last.timeMjd < t →
    ∀ sourceImageWidth rangeSpacing slantRange passes,
      computeRangeIndexGrd records t sourceImageWidth rangeSpacing slantRange passes =
        .ok (some (-1))
  /-- The lines of two pairs meet at the record that they share. -/
  meets : ∀ (k : Nat) before record after, records[k]? = some before →
    records[k + 1]? = some record → records[k + 2]? = some after → ∀ x,
    lerp before.timeMjd record.timeMjd (srgrPolynomial before.coefficients x)
        (srgrPolynomial record.coefficients x) record.timeMjd =
      lerp record.timeMjd after.timeMjd (srgrPolynomial record.coefficients x)
        (srgrPolynomial after.coefficients x) record.timeMjd
  single : ∀ record, records = [record] → ∀ t sourceImageWidth rangeSpacing slantRange passes,
    computeRangeIndexGrd records t sourceImageWidth rangeSpacing slantRange passes =
      rangeIndexFrom record.coefficients record.groundRangeOrigin sourceImageWidth rangeSpacing
        slantRange passes

variable {records : List (SrgrRecord R)} {t : R}

omit [Field R] in
theorem targetStep_eq_some {target i : Nat} {entry : SrgrRecord R × Nat} :
    targetStep t target entry = some i ↔ entry.1.timeMjd ≤ t ∧ entry.2 = i := by
  simp [targetStep]

omit [Field R] in
theorem targetStep_eq_none {target : Nat} {entry : SrgrRecord R × Nat} :
    targetStep t target entry = none ↔ t < entry.1.timeMjd := by
  simp [targetStep]

omit [Field R] in
/-- The loop stops at the last record that is not later than the time. -/
theorem targetIndex_spec {first : SrgrRecord R} (hfirst : records.head? = some first)
    (hle : first.timeMjd ≤ t) :
    ∃ record, records[targetIndex records t]? = some record ∧ record.timeMjd ≤ t ∧
      ∀ next, records[targetIndex records t + 1]? = some next → t < next.timeMjd := by
  obtain ⟨done, rest, hsplit, hdone, hbreak⟩ :=
    exists_foldlBreak (targetStep t) 0 records.zipIdx
  rw [← targetIndex] at hdone hbreak
  have hentry : ∀ i : Nat, (done ++ rest)[i]? = records[i]?.map fun record => (record, i) := by
    intro i
    rw [← hsplit, List.getElem?_zipIdx, Nat.zero_add]
  have hnext : ∀ next, records[done.length]? = some next → t < next.timeMjd := by
    intro next hnext
    have hhead := hentry done.length
    rw [List.getElem?_append_right (le_refl _), Nat.sub_self, hnext, ← List.head?_eq_getElem?]
      at hhead
    exact targetStep_eq_none.mp (hbreak _ hhead)
  rcases List.eq_nil_or_concat done with rfl | ⟨before, entry, rfl⟩
  -- the first record is not later than the time, so there was a pass
  · rw [List.head?_eq_getElem?] at hfirst
    exact absurd (hnext first hfirst) (not_lt.mpr hle)
  · rw [List.concat_eq_append] at hentry hnext hdone
    -- the last pass stored the index of its record
    rw [List.foldlM_append, Option.bind_eq_bind, Option.bind_eq_some_iff] at hdone
    obtain ⟨target, -, hlast⟩ := hdone
    rw [List.foldlM_cons, Option.bind_eq_bind, Option.bind_eq_some_iff] at hlast
    obtain ⟨_, hlast, hend⟩ := hlast
    rw [List.foldlM_nil, Option.pure_def, Option.some.injEq] at hend
    rw [hend] at hlast
    obtain ⟨htime, hindex⟩ := targetStep_eq_some.mp hlast
    have hget := hentry before.length
    rw [List.append_assoc, List.getElem?_append_right (le_refl _), Nat.sub_self,
      List.singleton_append, List.getElem?_cons_zero] at hget
    obtain ⟨record, hrecord, hpair⟩ := Option.map_eq_some_iff.mp hget.symm
    have hbefore : targetIndex records t = before.length := by rw [← hindex, ← hpair]
    rw [← hpair] at htime
    rw [List.length_append, List.length_singleton] at hnext
    rw [hbefore]
    exact ⟨record, hrecord, htime, hnext⟩

end Blend

/-! ## The blended polynomial -/

section Polynomial

variable {R : Type} [Field R]

theorem linear_eq_lerp (t1 t2 a b t : R) :
    linear a b ((t - t1) / (t2 - t1)) = lerp t1 t2 a b t := by
  simp only [linear, lerp]
  ring

theorem blendCoefficients_eq {lower upper : List R} (hlen : lower.length = upper.length) (mu : R) :
    blendCoefficients lower upper mu lower.length =
      .ok (List.zipWith (fun a b => linear a b mu) lower upper) := by
  rw [blendCoefficients, Outcome.collect_eq_ok]
  refine List.ext_getElem (by simp [hlen]) fun i hi hi' => ?_
  rw [List.length_map, List.length_range] at hi
  rw [List.getElem_map, List.getElem_map, List.getElem_range, List.getElem_zipWith,
    vectorIndex_natCast hi, vectorIndex_natCast (hlen ▸ hi)]
  rfl

/-- Blending the coefficients blends the values. -/
theorem srgrPolynomial_zipWith {lower upper : List R} (hlen : lower.length = upper.length)
    (mu x : R) : srgrPolynomial (List.zipWith (fun a b => linear a b mu) lower upper) x =
      linear (srgrPolynomial lower x) (srgrPolynomial upper x) mu := by
  induction lower generalizing upper with
  | nil =>
    rw [List.eq_nil_of_length_eq_zero hlen.symm, List.zipWith_nil_left, linear]
    simp [srgrPolynomial]
  | cons a lower ih =>
    obtain ⟨b, upper, rfl⟩ := List.exists_cons_of_length_eq_add_one hlen.symm
    rw [List.zipWith_cons_cons, srgrPolynomial_cons, srgrPolynomial_cons, srgrPolynomial_cons,
      ih (Nat.succ.inj hlen)]
    simp only [linear]
    ring

omit [Field R] in
theorem zipWith_fst {lower upper : List R} (hlen : lower.length = upper.length) :
    List.zipWith (fun a _ => a) lower upper = lower :=
  List.ext_getElem (by simp [hlen]) fun i _ _ => by rw [List.getElem_zipWith]

omit [Field R] in
theorem zipWith_snd {lower upper : List R} (hlen : lower.length = upper.length) :
    List.zipWith (fun _ b => b) lower upper = upper :=
  List.ext_getElem (by simp [hlen]) fun i _ _ => by rw [List.getElem_zipWith]

/-- The buffer holds the line between the records. -/
theorem blendedAt_zipWith {lower upper : SrgrRecord R} (t : R)
    (hlen : lower.coefficients.length = upper.coefficients.length)
    (htimes : lower.timeMjd ≠ upper.timeMjd) :
    BlendedAt t lower upper (List.zipWith
      (fun a b => linear a b ((t - lower.timeMjd) / (upper.timeMjd - lower.timeMjd)))
      lower.coefficients upper.coefficients) where
  blend x := by
    rw [srgrPolynomial_zipWith hlen, linear_eq_lerp]
  atLower ht := by
    subst ht
    simp only [linear_eq_lerp, lerp_left]
    exact zipWith_fst hlen
  atUpper ht := by
    subst ht
    simp only [linear_eq_lerp, lerp_right htimes]
    exact zipWith_snd hlen

end Polynomial

/-! ## The records that are used -/

section Selection

variable {R : Type} [Field R] [LinearOrder R] {records : List (SrgrRecord R)} {t : R}

theorem selectSrgr_eq {k : Nat} {lower upper current : SrgrRecord R}
    (hcurrent : records[targetIndex records t]? = some current)
    (hk : (if targetIndex records t = records.length - 1 then targetIndex records t - 1
      else targetIndex records t) = k)
    (hlower : records[k]? = some lower) (hupper : records[k + 1]? = some upper) :
    selectSrgr records t =
      if polynomialBufferLength < current.coefficients.length then .ok none
      else if 1 < (t - lower.timeMjd) / (upper.timeMjd - lower.timeMjd) then .ok none
      else do
        let coefficients ← blendCoefficients lower.coefficients upper.coefficients
          ((t - lower.timeMjd) / (upper.timeMjd - lower.timeMjd)) current.coefficients.length
        return some ⟨lower, upper, coefficients⟩ := by
  have hread : ∀ {i : Nat} {record : SrgrRecord R}, records[i]? = some record →
      vectorIndex records (i : Int) = .ok record := fun {i _} hi =>
    vectorIndex_eq_ok.mpr ⟨Int.natCast_nonneg i, hi⟩
  rw [selectSrgr]
  simp only [hk, hread hcurrent, hread hlower, hread hupper, Outcome.ok_bind, Outcome.pure_eq,
    gt_iff_lt]

theorem computeRangeIndexGrd_of_two (h2 : 2 ≤ records.length) (sourceImageWidth : Int)
    (rangeSpacing slantRange : R) (passes : Nat) :
    computeRangeIndexGrd records t sourceImageWidth rangeSpacing slantRange passes = (do
      match ← selectSrgr records t with
      | none => return some (-1)
      | some pair =>
        rangeIndexFrom pair.coefficients pair.lower.groundRangeOrigin sourceImageWidth
          rangeSpacing slantRange passes) := by
  obtain _ | ⟨a, _ | ⟨b, records⟩⟩ := records
  · exact absurd h2 (Nat.not_succ_le_zero 1)
  · exact absurd h2 (Nat.not_succ_le_self 1)
  · rfl

theorem exists_rangeIndexFrom {coefficients : List R} (hne : coefficients ≠ [])
    (groundRangeOrigin : R) (sourceImageWidth : Int) (rangeSpacing slantRange : R)
    (passes : Nat) : ∃ r, rangeIndexFrom coefficients groundRangeOrigin sourceImageWidth
      rangeSpacing slantRange passes = .ok r := by
  obtain ⟨groundRange, hrun⟩ := exists_computeGroundRange sourceImageWidth rangeSpacing
    slantRange groundRangeOrigin hne passes
  rw [rangeIndexFrom, hrun]
  exact ⟨_, rfl⟩

/-- The two neighbours, and the record that the length is taken from: the earlier one, or the last
one where the time has reached it. -/
theorem exists_neighbours (h2 : 2 ≤ records.length)
    (htimes : records.Pairwise fun a b => a.timeMjd < b.timeMjd) {first : SrgrRecord R}
    (hfirst : records.head? = some first) (hle : first.timeMjd ≤ t) :
    ∃ k lower upper current, (records[k]? = some lower ∧ records[k + 1]? = some upper) ∧
      lower.timeMjd < upper.timeMjd ∧ lower.timeMjd ≤ t ∧
      ((current = lower ∧ t < upper.timeMjd) ∨
        (current = upper ∧ upper.timeMjd ≤ t ∧ records.getLast? = some upper)) ∧
      selectSrgr records t =
        if polynomialBufferLength < current.coefficients.length then .ok none
        else if 1 < (t - lower.timeMjd) / (upper.timeMjd - lower.timeMjd) then .ok none
        else do
          let coefficients ← blendCoefficients lower.coefficients upper.coefficients
            ((t - lower.timeMjd) / (upper.timeMjd - lower.timeMjd)) current.coefficients.length
          return some ⟨lower, upper, coefficients⟩ := by
  obtain ⟨current, hcurrent, htime, hnext⟩ := targetIndex_spec hfirst hle
  obtain ⟨hlt, rfl⟩ := List.getElem?_eq_some_iff.mp hcurrent
  by_cases hlast : targetIndex records t = records.length - 1
  -- the correction takes the pair before the last record
  · have hk : targetIndex records t - 1 < records.length := by omega
    have hk' : targetIndex records t - 1 + 1 = targetIndex records t := by omega
    have hlower : records[targetIndex records t - 1]? =
        some records[targetIndex records t - 1] := List.getElem?_eq_getElem hk
    have hupper : records[targetIndex records t - 1 + 1]? =
        some records[targetIndex records t] := by rw [hk', hcurrent]
    have hordered : records[targetIndex records t - 1].timeMjd <
        records[targetIndex records t].timeMjd :=
      List.pairwise_iff_getElem.mp htimes _ _ hk hlt (by omega)
    refine ⟨targetIndex records t - 1, _, _, _, ⟨hlower, hupper⟩, hordered,
      hordered.le.trans htime, .inr ⟨rfl, htime, ?_⟩, ?_⟩
    · rw [List.getLast?_eq_getElem?, ← hlast, hcurrent]
    · exact selectSrgr_eq hcurrent (if_pos hlast) hlower hupper
  · have hk : targetIndex records t + 1 < records.length := by omega
    have hupper : records[targetIndex records t + 1]? =
        some records[targetIndex records t + 1] := List.getElem?_eq_getElem hk
    exact ⟨targetIndex records t, _, _, _, ⟨hcurrent, hupper⟩,
      List.pairwise_iff_getElem.mp htimes _ _ hlt hk (Nat.lt_succ_self _), htime,
      .inl ⟨rfl, hnext _ hupper⟩, selectSrgr_eq hcurrent (if_neg hlast) hcurrent hupper⟩

omit [Field R] in
theorem first_le_last (htimes : records.Pairwise fun a b => a.timeMjd < b.timeMjd)
    {first record : SrgrRecord R} (hfirst : records.head? = some first) (hmem : record ∈ records) :
    first.timeMjd ≤ record.timeMjd := by
  cases records with
  | nil => cases hmem
  | cons a records =>
    obtain rfl := Option.some.inj hfirst
    rcases List.mem_cons.mp hmem with rfl | hmem
    · exact le_refl _
    · exact ((List.pairwise_cons.mp htimes).1 _ hmem).le

omit [Field R] in
theorem le_last (htimes : records.Pairwise fun a b => a.timeMjd < b.timeMjd)
    {last record : SrgrRecord R} (hlast : records.getLast? = some last) (hmem : record ∈ records) :
    record.timeMjd ≤ last.timeMjd := by
  obtain ⟨before, rfl⟩ := List.getLast?_eq_some_iff.mp hlast
  rcases List.mem_append.mp hmem with hmem | hmem
  · exact ((List.pairwise_append.mp htimes).2.2 _ hmem _ (List.mem_singleton_self last)).le
  · rw [List.mem_singleton.mp hmem]

variable [IsStrictOrderedRing R]

/-- At a time between two neighbours the records used are these. -/
theorem bracketsTime_of_between (h2 : 2 ≤ records.length)
    (htimes : records.Pairwise fun a b => a.timeMjd < b.timeMjd) {first last : SrgrRecord R}
    (hfirst : records.head? = some first) (hlast : records.getLast? = some last)
    (hle : first.timeMjd ≤ t) (hle' : t ≤ last.timeMjd) :
    ∃ lower upper, BracketsTime records t lower upper := by
  obtain ⟨k, lower, upper, current, ⟨hlower, hupper⟩, hordered, htime, hcurrent, hselect⟩ :=
    exists_neighbours h2 htimes hfirst hle
  have hupper' : t ≤ upper.timeMjd := by
    rcases hcurrent with ⟨-, hlt⟩ | ⟨-, -, hlast'⟩
    · exact hlt.le
    · rw [hlast, Option.some.injEq] at hlast'
      rwa [← hlast']
  have hmu : ¬ 1 < (t - lower.timeMjd) / (upper.timeMjd - lower.timeMjd) := by
    rw [not_lt, div_le_one (sub_pos.mpr hordered)]
    exact sub_le_sub_right hupper' _
  rw [if_neg hmu] at hselect
  -- the length is taken from either record, and they have the same
  have hlength : lower.coefficients.length = upper.coefficients.length →
      current.coefficients.length = lower.coefficients.length := by
    intro hlen
    rcases hcurrent with ⟨rfl, -⟩ | ⟨rfl, -⟩
    · rfl
    · exact hlen.symm
  refine ⟨lower, upper, ⟨k, hlower, hupper⟩, ⟨htime, hupper'⟩, fun pair hpair => ?_,
    fun hlen hfits => ?_, fun hlen hlong sourceImageWidth rangeSpacing slantRange passes => ?_⟩
  · rw [hselect] at hpair
    split at hpair
    · cases hpair
    · obtain ⟨coefficients, -, hpair⟩ := Outcome.bind_eq_ok.mp hpair
      rw [Outcome.pure_eq, Outcome.ok.injEq, Option.some.injEq] at hpair
      rw [← hpair]
      exact ⟨rfl, rfl⟩
  · rw [hlength hlen, if_neg (not_lt.mpr hfits), blendCoefficients_eq hlen,
      Outcome.ok_bind] at hselect
    refine ⟨_, blendedAt_zipWith t hlen hordered.ne, fun w spacing slantRange passes => ?_⟩
    have hrun := computeRangeIndexGrd_of_two (t := t) h2 w spacing slantRange passes
    rw [hselect] at hrun
    refine ⟨hrun, hrun ▸ exists_rangeIndexFrom ?_ _ _ _ _ _⟩
    refine List.ne_nil_of_length_pos ?_
    rw [List.length_zipWith, ← hlen, min_self]
    exact List.length_pos_iff.mpr lower.coefficients_ne
  · rw [hlength hlen, if_pos hlong] at hselect
    rw [computeRangeIndexGrd_of_two h2, hselect]
    rfl

/-- After the last record there is no result. -/
theorem computeRangeIndexGrd_after (h2 : 2 ≤ records.length)
    (htimes : records.Pairwise fun a b => a.timeMjd < b.timeMjd) {last : SrgrRecord R}
    (hlast : records.getLast? = some last) (hafter : last.timeMjd < t) (sourceImageWidth : Int)
    (rangeSpacing slantRange : R) (passes : Nat) :
    computeRangeIndexGrd records t sourceImageWidth rangeSpacing slantRange passes =
      .ok (some (-1)) := by
  obtain ⟨first, hfirst⟩ : ∃ first, records.head? = some first := by
    cases records with
    | nil => cases hlast
    | cons a records => exact ⟨a, rfl⟩
  have hle : first.timeMjd ≤ t :=
    (first_le_last htimes hfirst (List.mem_of_getLast? hlast)).trans hafter.le
  obtain ⟨k, lower, upper, current, ⟨-, hupper⟩, hordered, -, -, hselect⟩ :=
    exists_neighbours h2 htimes hfirst hle
  have hmu : 1 < (t - lower.timeMjd) / (upper.timeMjd - lower.timeMjd) := by
    rw [one_lt_div (sub_pos.mpr hordered)]
    exact sub_lt_sub_right ((le_last htimes hlast (List.mem_of_getElem? hupper)).trans_lt hafter) _
  rw [if_pos hmu, ite_self] at hselect
  rw [computeRangeIndexGrd_of_two h2, hselect]
  rfl

/-- **Which records are used, and how they are blended.** -/
theorem selectsAndBlends (htimes : records.Pairwise fun a b => a.timeMjd < b.timeMjd) :
    SelectsAndBlends records where
  between h2 _ _ _ hfirst hlast hle hle' :=
    bracketsTime_of_between h2 htimes hfirst hlast hle hle'
  after h2 _ _ hlast hafter := computeRangeIndexGrd_after h2 htimes hlast hafter
  meets k before record after hbefore hrecord _ x := by
    obtain ⟨hk, rfl⟩ := List.getElem?_eq_some_iff.mp hbefore
    obtain ⟨hk', rfl⟩ := List.getElem?_eq_some_iff.mp hrecord
    have hlt := List.pairwise_iff_getElem.mp htimes k (k + 1) hk hk' (Nat.lt_succ_self k)
    rw [lerp_right hlt.ne, lerp_left]
  single _ hrecords _ _ _ _ _ := by rw [hrecords, computeRangeIndexGrd]

end Selection

/-! ## Records of the identity -/

/-- The slant range is the ground range. -/
def identityRecord (timeMjd groundRangeOrigin : ℚ) : SrgrRecord ℚ where
  timeMjd := timeMjd
  groundRangeOrigin := groundRangeOrigin
  coefficients := [0, 1]
  coefficients_ne := List.cons_ne_nil 0 [1]

/-- The identity with zero coefficients up to the degree 21. -/
def longRecord (timeMjd : ℚ) : SrgrRecord ℚ where
  timeMjd := timeMjd
  groundRangeOrigin := 0
  coefficients := 0 :: 1 :: List.replicate 20 0
  coefficients_ne := List.cons_ne_nil 0 _

theorem selectsAndBlends_identity :
    SelectsAndBlends [identityRecord 0 0, identityRecord 1 0] :=
  selectsAndBlends (by decide +kernel)

/-- Three records of one polynomial, the second and third of which count from another origin. -/
def movedRecords : List (SrgrRecord ℚ) :=
  [identityRecord 0 0, identityRecord 1 1, identityRecord 2 1]

/-- Before the second record the position of the ground range 2 is 2. -/
theorem computeRangeIndexGrd_movedRecords {t : ℚ} (h0 : 0 ≤ t) (h1 : t < 1) :
    computeRangeIndexGrd movedRecords t 4 1 2 2 = .ok (some 2) := by
  have htarget : targetIndex movedRecords t = 0 := by
    have hnot : ¬ 1 ≤ t := not_le.mpr h1
    simp [targetIndex, movedRecords, foldlBreak, targetStep, identityRecord, h0, hnot]
  have hblend : blendCoefficients [0, 1] [0, 1] t 2 = .ok [0, 1] := by
    have hlen : ([0, 1] : List ℚ).length = ([0, 1] : List ℚ).length := rfl
    simpa [linear] using blendCoefficients_eq hlen t
  have hselect : selectSrgr movedRecords t =
      .ok (some ⟨identityRecord 0 0, identityRecord 1 1, [0, 1]⟩) := by
    have hcurrent : movedRecords[targetIndex movedRecords t]? = some (identityRecord 0 0) := by
      rw [htarget]
      rfl
    have hlower : movedRecords[0]? = some (identityRecord 0 0) := rfl
    have hupper : movedRecords[0 + 1]? = some (identityRecord 1 1) := rfl
    rw [selectSrgr_eq hcurrent (by rw [htarget]; rfl) hlower hupper]
    simp only [identityRecord, sub_zero, div_one, List.length_cons, List.length_nil]
    rw [if_neg (by decide), if_neg (not_lt.mpr h1.le), hblend]
    rfl
  rw [computeRangeIndexGrd_of_two (by decide), hselect]
  decide +kernel

/-- One record has results after its time. A record with 22 coefficients has none although its
polynomial would give one. At a record that counts from another origin the result jumps. -/
theorem not_selectsAndBlends_all :
    computeRangeIndexGrd [identityRecord 0 0] 5 4 1 2 2 = .ok (some 2) ∧
      (computeRangeIndexGrd [longRecord 0, longRecord 1] 0 4 1 2 2 = .ok (some (-1)) ∧
        rangeIndexFrom (longRecord 0).coefficients 0 4 1 2 2 = .ok (some 2)) ∧
      (∀ t : ℚ, 0 ≤ t → t < 1 → computeRangeIndexGrd movedRecords t 4 1 2 2 = .ok (some 2)) ∧
      computeRangeIndexGrd movedRecords 1 4 1 2 2 = .ok (some 1) :=
  ⟨by decide +kernel, ⟨by decide +kernel, by decide +kernel⟩,
    fun _ h0 h1 => computeRangeIndexGrd_movedRecords h0 h1, by decide +kernel⟩

end Alus.TerrainCorrection
