import Mathlib.Data.Rat.Floor
import Alus.Lib.Bisection
import Alus.Lib.Loop
import Alus.S1tbx.OrbitStateVectors

/-!
# The zero Doppler time from an orbit

`GetZeroDopplerTime` (`s1tbx-commons/sar_geocoding.cuh`) looks for two neighbouring state vectors
with opposite Doppler frequencies, halves the time between them until it is no longer than the line
time interval, and takes the zero of the line through the values that are left. The number of
passes has a limit, which is never what ends the loop.
-/

namespace Alus.S1tbx

open Alus.Lib

/-! ## The code -/

/-- The arguments of the search. -/
structure OrbitSearch (R : Type) [LinearOrder R] extends OrbitVectors R where
  lineTimeInterval : R
  wavelength : R
  earthPoint : PosVector R

/-- The times between which the zero is, the values there, and the state of the loop. -/
structure TimeBounds (R : Type) where
  lowerBoundTime : R
  upperBoundTime : R
  lowerBoundFreq : R
  upperBoundFreq : R
  diffTime : R
  numIterations : Int

section Code

variable {R : Type} [Field R] [LinearOrder R]

/-- A time and the Doppler frequency at it. -/
structure TimedFreq (R : Type) where
  time : R
  freq : R

/-- The loop over the state vectors after the first one: the last vector before the sign changes,
and the next one, if there is one. -/
def scanVectors (freq : OrbitStateVectorComputation R → R) (first : TimedFreq R) :
    List (OrbitStateVectorComputation R) → TimedFreq R × TimedFreq R
  | [] => (first, ⟨0, 0⟩)
  | orb :: rest =>
    if first.freq * freq orb > 0 then scanVectors freq ⟨orb.timeMjd, freq orb⟩ rest
    else (first, ⟨orb.timeMjd, freq orb⟩)

namespace OrbitSearch

variable (root : SquareRoot R) (search : OrbitSearch R)

/-- The Doppler frequency at a state vector. -/
def vectorFreq (orb : OrbitStateVectorComputation R) : R :=
  getDopplerFrequencyOrbit root search.earthPoint orb search.wavelength

/-- `i == 0` takes the first vector as it is. -/
def scan : TimedFreq R × TimedFreq R :=
  match search.vectors with
  | [] => (⟨0, 0⟩, ⟨0, 0⟩)
  | orb :: rest =>
    scanVectors (search.vectorFreq root) ⟨orb.timeMjd, search.vectorFreq root orb⟩ rest

variable [FloorRing R]

/-- What comes before the loop: `total_iterations` and the first bounds. Without opposite
frequencies there is nothing to start with. -/
def zeroDopplerStart : Outcome (Option (Int × TimeBounds R)) :=
  let (first, second) := search.scan root
  if first.freq * second.freq ≥ 0 then return none
  else do
    let diffTime := |second.time - first.time|
    let totalIterations ← int32 ((← quotientToInt diffTime |search.lineTimeInterval|) + 1)
    return some (totalIterations,
      ⟨first.time, second.time, first.freq, second.freq, diffTime, 0⟩)

/-- What follows in a pass that does not return. -/
def nextBounds (b : TimeBounds R) : Outcome (Pass (TimeBounds R) R) := do
  return .next { b with
    diffTime := |b.upperBoundTime - b.lowerBoundTime|
    numIterations := ← int32 (b.numIterations + 1) }

def bisectionPass (totalIterations : Int) (b : TimeBounds R) :
    Outcome (Pass (TimeBounds R) R) :=
  if b.diffTime > |search.lineTimeInterval| ∧ b.numIterations ≤ totalIterations then do
    let midTime := (b.upperBoundTime + b.lowerBoundTime) / 2
    let posvel ← getPositionVelocity midTime search.vectors search.dt
    let midFreq := getDopplerFrequency root search.earthPoint posvel.1 posvel.2 search.wavelength
    if midFreq * b.lowerBoundFreq > 0 then
      nextBounds { b with lowerBoundTime := midTime, lowerBoundFreq := midFreq }
    else if midFreq * b.upperBoundFreq > 0 then
      nextBounds { b with upperBoundTime := midTime, upperBoundFreq := midFreq }
    else if midFreq = 0 then return .done midTime
    else nextBounds b
  else
    return .done (b.lowerBoundTime - b.lowerBoundFreq * (b.upperBoundTime - b.lowerBoundTime) /
      (b.upperBoundFreq - b.lowerBoundFreq))

/-- With at most the given number of passes. -/
def getZeroDopplerTime (passes : Nat) : Outcome (Option R) := do
  match ← search.zeroDopplerStart root with
  | none => return some nonValidZeroDopplerTime
  | some (totalIterations, start) =>
    runLoop (search.bisectionPass root totalIterations) passes start

/-! ## What the search should do -/

/-- The search goes on between two vectors, and with a result between their times. -/
structure RunsBetween (lower upper : OrbitStateVectorComputation R) (totalIterations : Int)
    (start : TimeBounds R) : Prop where
  starts : search.zeroDopplerStart root = .ok (some (totalIterations, start))
  opposite : ∀ b, (loopSystem (search.bisectionPass root totalIterations) start).Reachable b →
    b.lowerBoundFreq * b.upperBoundFreq < 0
  within : ∀ b, (loopSystem (search.bisectionPass root totalIterations) start).Reachable b →
    (lower.timeMjd ≤ b.lowerBoundTime ∧ b.upperBoundTime ≤ upper.timeMjd) ∧
      b.lowerBoundTime < b.upperBoundTime ∧ b.diffTime = b.upperBoundTime - b.lowerBoundTime
  cap : ∀ b, (loopSystem (search.bisectionPass root totalIterations) start).Reachable b →
    |search.lineTimeInterval| < b.diffTime → b.numIterations ≤ totalIterations
  result : ∃ passes time, search.getZeroDopplerTime root passes = .ok (some time) ∧
    lower.timeMjd ≤ time ∧ time ≤ upper.timeMjd

/-- Two neighbouring vectors. -/
def Neighbours (k : Nat) (lower upper : OrbitStateVectorComputation R) : Prop :=
  search.vectors[k]? = some lower ∧ search.vectors[k + 1]? = some upper

/-- The frequency changes sign between two neighbours or is zero at one of them. -/
def Crosses : Prop :=
  ∃ k lower upper, search.Neighbours k lower upper ∧
    search.vectorFreq root lower * search.vectorFreq root upper ≤ 0

/-- The search runs between such neighbours. -/
def FindsZeroDoppler : Prop :=
  ∃ k lower upper, search.Neighbours k lower upper ∧
    search.vectorFreq root lower * search.vectorFreq root upper ≤ 0 ∧
    ∃ totalIterations start, search.RunsBetween root lower upper totalIterations start

/-- The first crossing is between two vectors and not at one, and the number of line time intervals
between them is one that an `int` can count. -/
def FirstCrossingCounts : Prop :=
  ∃ k lower upper, search.Neighbours k lower upper ∧
    (∀ j a b, j < k → search.Neighbours j a b →
      0 < search.vectorFreq root a * search.vectorFreq root b) ∧
    search.vectorFreq root lower * search.vectorFreq root upper < 0 ∧
    search.lineTimeInterval ≠ 0 ∧
    (upper.timeMjd - lower.timeMjd) / |search.lineTimeInterval| < 2147483647

end OrbitSearch

end Code

/-! ## The first bracket -/

section Scan

variable {R : Type} [Field R] [LinearOrder R]

/-- The loop stops at the first pair without one common sign, or goes through all vectors. -/
theorem scanVectors_cases (freq : OrbitStateVectorComputation R → R)
    (orb : OrbitStateVectorComputation R) (rest : List (OrbitStateVectorComputation R)) :
    (∃ k lower upper, ((orb :: rest)[k]? = some lower ∧ (orb :: rest)[k + 1]? = some upper) ∧
      (∀ j a b, j < k → (orb :: rest)[j]? = some a → (orb :: rest)[j + 1]? = some b →
        0 < freq a * freq b) ∧ freq lower * freq upper ≤ 0 ∧
      scanVectors freq ⟨orb.timeMjd, freq orb⟩ rest =
        (⟨lower.timeMjd, freq lower⟩, ⟨upper.timeMjd, freq upper⟩)) ∨
    ((∀ j a b, (orb :: rest)[j]? = some a → (orb :: rest)[j + 1]? = some b →
        0 < freq a * freq b) ∧
      (scanVectors freq ⟨orb.timeMjd, freq orb⟩ rest).2 = ⟨0, 0⟩) := by
  -- the induction is on the vectors left, behind the one looked at last
  induction rest generalizing orb with
  | nil =>
    refine .inr ⟨fun j a b _ hb => ?_, rfl⟩
    simp at hb
  | cons next rest ih =>
    by_cases hsame : freq orb * freq next > 0
    · rw [scanVectors, if_pos hsame]
      rcases ih next with
        ⟨k, lower, upper, ⟨hlower, hupper⟩, hbefore, hcross, hscan⟩ | ⟨hall, hscan⟩
      · refine .inl ⟨k + 1, lower, upper, ⟨hlower, hupper⟩, fun j a b hj ha hb => ?_, hcross,
          hscan⟩
        cases j with
        | zero =>
          obtain rfl := Option.some.inj ha
          obtain rfl := Option.some.inj hb
          exact hsame
        | succ j => exact hbefore j a b (by omega) ha hb
      · refine .inr ⟨fun j a b ha hb => ?_, hscan⟩
        cases j with
        | zero =>
          obtain rfl := Option.some.inj ha
          obtain rfl := Option.some.inj hb
          exact hsame
        | succ j => exact hall j a b ha hb
    · rw [scanVectors, if_neg hsame]
      exact .inl ⟨0, orb, next, ⟨rfl, rfl⟩, fun j _ _ hj => absurd hj (Nat.not_lt_zero j),
        not_lt.mp hsame, rfl⟩

variable {root : SquareRoot R} {search : OrbitSearch R}

open OrbitSearch

theorem scan_cases (root : SquareRoot R) (search : OrbitSearch R) :
    (∃ k lower upper, search.Neighbours k lower upper ∧
      (∀ j a b, j < k → search.Neighbours j a b →
        0 < search.vectorFreq root a * search.vectorFreq root b) ∧
      search.vectorFreq root lower * search.vectorFreq root upper ≤ 0 ∧
      search.scan root = (⟨lower.timeMjd, search.vectorFreq root lower⟩,
        ⟨upper.timeMjd, search.vectorFreq root upper⟩)) ∨
    ((∀ j a b, search.Neighbours j a b →
        0 < search.vectorFreq root a * search.vectorFreq root b) ∧
      (search.scan root).2 = ⟨0, 0⟩) := by
  obtain ⟨orb, rest, hvectors⟩ : ∃ orb rest, search.vectors = orb :: rest := by
    refine List.exists_cons_of_ne_nil fun hnil => ?_
    have htwo := search.two
    rw [hnil] at htwo
    exact absurd htwo (Nat.not_succ_le_zero 1)
  have hscan : search.scan root = scanVectors (search.vectorFreq root)
      ⟨orb.timeMjd, search.vectorFreq root orb⟩ rest := by
    rw [scan, hvectors]
  rw [hscan]
  simp only [Neighbours, hvectors]
  rcases scanVectors_cases (search.vectorFreq root) orb rest with
    ⟨k, lower, upper, hneighbours, hbefore, hcross, heq⟩ | ⟨hall, heq⟩
  · exact .inl ⟨k, lower, upper, hneighbours,
      fun j a b hj hab => hbefore j a b hj hab.1 hab.2, hcross, heq⟩
  · exact .inr ⟨fun j a b hab => hall j a b hab.1 hab.2, heq⟩

omit [Field R] in
theorem neighbours_lt {k : Nat} {lower upper : OrbitStateVectorComputation R}
    (h : search.Neighbours k lower upper) : lower.timeMjd < upper.timeMjd := by
  obtain ⟨hk, rfl⟩ := List.getElem?_eq_some_iff.mp h.1
  obtain ⟨hk', rfl⟩ := List.getElem?_eq_some_iff.mp h.2
  exact List.pairwise_iff_getElem.mp search.increasing k (k + 1) hk hk' (Nat.lt_succ_self k)

/-- There is one first crossing, and the scan returns it. -/
theorem scan_of_first {k : Nat} {lower upper : OrbitStateVectorComputation R}
    (h : search.Neighbours k lower upper)
    (hbefore : ∀ j a b, j < k → search.Neighbours j a b →
      0 < search.vectorFreq root a * search.vectorFreq root b)
    (hcross : search.vectorFreq root lower * search.vectorFreq root upper ≤ 0) :
    search.scan root = (⟨lower.timeMjd, search.vectorFreq root lower⟩,
      ⟨upper.timeMjd, search.vectorFreq root upper⟩) := by
  rcases scan_cases root search with
    ⟨k', lower', upper', h', hbefore', hcross', hscan⟩ | ⟨hall, -⟩
  · rcases lt_trichotomy k k' with hlt | rfl | hlt
    · exact absurd hcross (hbefore' k lower upper hlt h).not_ge
    · have hlower := Option.some.inj (h.1.symm.trans h'.1)
      have hupper := Option.some.inj (h.2.symm.trans h'.2)
      rw [hlower, hupper]
      exact hscan
    · exact absurd hcross' (hbefore k' lower' upper' hlt h').not_ge
  · exact absurd hcross (hall k lower upper h).not_ge

variable [IsStrictOrderedRing R] [FloorRing R]

/-- The limit of the passes is an `int` when there are few line time intervals. -/
theorem exists_totalIterations_iff {diff interval : R} (hdiff : 0 ≤ diff) {total : Int} :
    (do int32 ((← quotientToInt diff |interval|) + 1)) = Outcome.ok total ↔
      interval ≠ 0 ∧ diff / |interval| < 2147483647 ∧ total = toInt (diff / |interval|) + 1 := by
  have hquot : 0 ≤ diff / |interval| := div_nonneg hdiff (abs_nonneg interval)
  have hfloor := Int.floor_nonneg.mpr hquot
  have hlimit : ⌊diff / |interval|⌋ < 2147483647 ↔ diff / |interval| < 2147483647 := by
    rw [Int.floor_lt]
    norm_num
  simp only [Outcome.bind_eq_ok, quotientToInt_eq_ok, int32_eq_ok, fits32_iff, ne_eq,
    abs_eq_zero, toInt_of_nonneg hquot]
  constructor
  · rintro ⟨q, ⟨hne, -, rfl⟩, ⟨-, hlt⟩, rfl⟩
    exact ⟨hne, hlimit.mp (by omega), rfl⟩
  · rintro ⟨hne, hlt, rfl⟩
    have hlt := hlimit.mpr hlt
    exact ⟨_, ⟨hne, by omega, rfl⟩, by omega, rfl⟩

/-- What comes before the loop returns a bracket when the first crossing is between two vectors. -/
theorem zeroDopplerStart_eq_ok {totalIterations : Int} {start : TimeBounds R} :
    search.zeroDopplerStart root = .ok (some (totalIterations, start)) ↔
      ∃ k lower upper, search.Neighbours k lower upper ∧
        (∀ j a b, j < k → search.Neighbours j a b →
          0 < search.vectorFreq root a * search.vectorFreq root b) ∧
        search.vectorFreq root lower * search.vectorFreq root upper < 0 ∧
        (search.lineTimeInterval ≠ 0 ∧
          (upper.timeMjd - lower.timeMjd) / |search.lineTimeInterval| < 2147483647 ∧
          totalIterations =
            toInt ((upper.timeMjd - lower.timeMjd) / |search.lineTimeInterval|) + 1) ∧
        start = ⟨lower.timeMjd, upper.timeMjd, search.vectorFreq root lower,
          search.vectorFreq root upper, upper.timeMjd - lower.timeMjd, 0⟩ := by
  constructor
  · intro hstart
    -- the scan stops at the first change of sign, or its last frequency is zero
    rcases scan_cases root search with
      ⟨k, lower, upper, h, hbefore, hcross, hscan⟩ | ⟨-, hscan⟩
    · have hlt := sub_pos.mpr (neighbours_lt h)
      rw [zeroDopplerStart, hscan] at hstart
      simp only at hstart
      split at hstart
      · cases hstart
      · next hnot =>
        rw [abs_of_pos hlt, ← bind_assoc] at hstart
        obtain ⟨total, htotal, hstart⟩ := Outcome.bind_eq_ok.mp hstart
        rw [Outcome.pure_eq, Outcome.ok.injEq, Option.some.injEq, Prod.mk.injEq] at hstart
        obtain ⟨rfl, rfl⟩ := hstart
        exact ⟨k, lower, upper, h, hbefore, not_le.mp hnot,
          (exists_totalIterations_iff hlt.le).mp htotal, rfl⟩
    · rw [zeroDopplerStart] at hstart
      have hzero : (search.scan root).1.freq * (search.scan root).2.freq ≥ 0 := by
        rw [hscan, mul_zero]
      simp only [if_pos hzero] at hstart
      cases hstart
  · rintro ⟨k, lower, upper, h, hbefore, hcross, htotal, rfl⟩
    have hlt := sub_pos.mpr (neighbours_lt h)
    rw [zeroDopplerStart, scan_of_first h hbefore hcross.le]
    simp only
    rw [if_neg hcross.not_ge, abs_of_pos hlt, ← bind_assoc,
      (exists_totalIterations_iff hlt.le).mpr htotal]
    rfl

end Scan

/-! ## The loop -/

section Loop

variable {R : Type} [Field R] [LinearOrder R] {root : SquareRoot R} {search : OrbitSearch R}

open OrbitSearch

/-- The bounds are inside of the first bracket, their values are opposite, and their distance has
been halved in every pass. -/
structure LoopInv (lower upper : OrbitStateVectorComputation R) (b : TimeBounds R) : Prop where
  opposite : b.lowerBoundFreq * b.upperBoundFreq < 0
  inside : lower.timeMjd ≤ b.lowerBoundTime ∧ b.upperBoundTime ≤ upper.timeMjd
  ordered : b.lowerBoundTime < b.upperBoundTime
  diff : b.diffTime = b.upperBoundTime - b.lowerBoundTime
  halved : ∃ m : Nat, b.numIterations = m ∧ b.diffTime * 2 ^ m = upper.timeMjd - lower.timeMjd

variable [IsStrictOrderedRing R] [FloorRing R] {lower upper : OrbitStateVectorComputation R}
  {b : TimeBounds R} {totalIterations : Int}

/-- The first bracket is among the vectors, and its number of line time intervals is an `int`. -/
structure FirstBracket (search : OrbitSearch R) (lower upper : OrbitStateVectorComputation R)
    (totalIterations : Int) : Prop where
  first : search.timeAt 0 ≤ lower.timeMjd
  last : upper.timeMjd ≤ search.timeAt (search.vectors.length - 1)
  total : totalIterations =
    toInt ((upper.timeMjd - lower.timeMjd) / |search.lineTimeInterval|) + 1
  limit : totalIterations ≤ 2147483647
  interval : search.lineTimeInterval ≠ 0

/-- While the bounds are too far apart, the limit of the passes is not reached. -/
theorem LoopInv.lt_total (h : LoopInv lower upper b)
    (hbracket : FirstBracket search lower upper totalIterations)
    (hopen : |search.lineTimeInterval| < b.diffTime) : b.numIterations + 1 < totalIterations := by
  obtain ⟨m, hm, hhalved⟩ := h.halved
  have hpos := abs_pos.mpr hbracket.interval
  -- after `m` halvings the bracket has had more than `2 ^ m` line time intervals
  have hpow : ((m + 1 : Nat) : R) ≤ 2 ^ m := by exact_mod_cast Nat.lt_two_pow_self
  have hquot : ((m + 1 : Int) : R) ≤
      (upper.timeMjd - lower.timeMjd) / |search.lineTimeInterval| := by
    rw [le_div_iff₀ hpos, ← hhalved, mul_comm b.diffTime]
    push_cast at hpow ⊢
    exact mul_le_mul hpow hopen.le hpos.le (by positivity)
  have hle := le_toInt hquot
  have htotal := hbracket.total
  omega

/-- The bounds of the next pass, when the middle takes the place of one of them. -/
theorem LoopInv.next {lowerTime upperTime lowerFreq upperFreq : R} (h : LoopInv lower upper b)
    (hopposite : lowerFreq * upperFreq < 0)
    (hinside : lower.timeMjd ≤ lowerTime ∧ upperTime ≤ upper.timeMjd)
    (hhalf : upperTime - lowerTime = (b.upperBoundTime - b.lowerBoundTime) / 2) :
    LoopInv lower upper ⟨lowerTime, upperTime, lowerFreq, upperFreq, |upperTime - lowerTime|,
      b.numIterations + 1⟩ := by
  have hpos : 0 < upperTime - lowerTime := by
    rw [hhalf]
    exact half_pos (sub_pos.mpr h.ordered)
  obtain ⟨m, hm, hhalved⟩ := h.halved
  refine ⟨hopposite, hinside, sub_pos.mp hpos, abs_of_pos hpos, m + 1, ?_, ?_⟩
  · rw [hm]
    push_cast
    rfl
  · rw [abs_of_pos hpos, hhalf, ← h.diff, ← hhalved, pow_succ]
    ring

/-- What one pass does: it goes on with the half that the values are opposite in, or the search is
over. -/
theorem bisectionPass_cases (root : SquareRoot R) (h : LoopInv lower upper b)
    (hbracket : FirstBracket search lower upper totalIterations) :
    (∃ time, search.bisectionPass root totalIterations b = .ok (.done time) ∧
      lower.timeMjd ≤ time ∧ time ≤ upper.timeMjd) ∨
    ∃ b', search.bisectionPass root totalIterations b = .ok (.next b') ∧
      LoopInv lower upper b' ∧ b'.numIterations = b.numIterations + 1 ∧
      b.numIterations < totalIterations := by
  obtain ⟨hlow, hhigh⟩ := h.inside
  by_cases hopen : |search.lineTimeInterval| < b.diffTime
  · have hcount := h.lt_total hbracket hopen
    have hlimit := hbracket.limit
    obtain ⟨m, hm, -⟩ := h.halved
    have hmid : b.lowerBoundTime < (b.upperBoundTime + b.lowerBoundTime) / 2 ∧
        (b.upperBoundTime + b.lowerBoundTime) / 2 < b.upperBoundTime := by
      have hordered := h.ordered
      constructor <;> linarith
    obtain ⟨posvel, hposvel⟩ := OrbitVectors.exists_getPositionVelocity
      search.toOrbitVectors (hbracket.first.trans (hlow.trans hmid.1.le))
      (hmid.2.trans_le (hhigh.trans hbracket.last))
    have hnum : int32 (b.numIterations + 1) = .ok (b.numIterations + 1) :=
      int32_of_bounds (by omega) (by omega)
    rw [bisectionPass, if_pos ⟨hopen, by omega⟩]
    simp only [hposvel, Outcome.ok_bind, nextBounds, hnum, Outcome.pure_eq]
    rcases side_of_opposite h.opposite (getDopplerFrequency root search.earthPoint posvel.1
      posvel.2 search.wavelength) with hzero | ⟨hside, hother⟩ | ⟨hother, hside⟩
    -- a frequency of zero in the middle is the only one that returns from here
    · left
      rw [hzero, zero_mul, zero_mul, if_neg (lt_irrefl _), if_neg (lt_irrefl _), if_pos rfl]
      exact ⟨_, rfl, hlow.trans hmid.1.le, hmid.2.le.trans hhigh⟩
    · right
      rw [if_pos hside]
      refine ⟨_, rfl, h.next hother ⟨hlow.trans hmid.1.le, hhigh⟩ ?_, rfl, by omega⟩
      ring
    · right
      rw [if_neg hother.not_gt, if_pos hside]
      refine ⟨_, rfl, h.next ?_ ⟨hlow, hmid.2.le.trans hhigh⟩ ?_, rfl, by omega⟩
      · rw [mul_comm]
        exact hother
      · ring
  -- the bracket is short enough for the line through its ends
  · left
    have hsecant := secant_mem_Ioo h.opposite h.ordered
    rw [bisectionPass, if_neg fun hguard => hopen hguard.1]
    exact ⟨_, rfl, hlow.trans hsecant.1.le, hsecant.2.le.trans hhigh⟩

/-- A pass that goes on keeps the invariant. -/
theorem LoopInv.bisectionPass {b' : TimeBounds R} (h : LoopInv lower upper b)
    (hbracket : FirstBracket search lower upper totalIterations)
    (hpass : search.bisectionPass root totalIterations b = .ok (.next b')) :
    LoopInv lower upper b' := by
  rcases bisectionPass_cases root h hbracket with ⟨time, hdone, -⟩ | ⟨b'', hnext, hinv, -⟩
  · rw [hdone] at hpass
    cases hpass
  · rw [hnext, Outcome.ok.injEq, Pass.next.injEq] at hpass
    rw [← hpass]
    exact hinv

/-- The loop ends with a time of the first bracket: the passes that are left before the limit become
fewer. -/
theorem LoopInv.exists_runLoop (root : SquareRoot R) (h : LoopInv lower upper b)
    (hbracket : FirstBracket search lower upper totalIterations) :
    ∃ passes time, runLoop (search.bisectionPass root totalIterations) passes b =
      .ok (some time) ∧ lower.timeMjd ≤ time ∧ time ≤ upper.timeMjd := by
  have hvariant : ∀ b, LoopInv lower upper b →
      (∃ time, search.bisectionPass root totalIterations b = .ok (.done time)) ∨
      ∃ b', search.bisectionPass root totalIterations b = .ok (.next b') ∧
        LoopInv lower upper b' ∧ (totalIterations - b'.numIterations).toNat <
          (totalIterations - b.numIterations).toNat := by
    intro b hb
    rcases bisectionPass_cases root hb hbracket with
      ⟨time, hdone, -⟩ | ⟨b', hnext, hinv, hnum, hlt⟩
    · exact .inl ⟨time, hdone⟩
    · exact .inr ⟨b', hnext, hinv, by omega⟩
  obtain ⟨time, hrun⟩ := runLoop_of_variant
    (fun b : TimeBounds R => (totalIterations - b.numIterations).toNat) hvariant h
    (Nat.lt_succ_self _)
  refine ⟨(totalIterations - b.numIterations).toNat.succ, time, hrun, ?_⟩
  -- the time is the one that the last pass returned
  obtain ⟨b', hb', hdone⟩ := runLoop_inv (fun b b' hb => hb.bisectionPass hbracket) h hrun
  rcases bisectionPass_cases root hb' hbracket with ⟨time', hdone', hinside⟩ | ⟨b'', hnext, -⟩
  · rw [hdone, Outcome.ok.injEq, Pass.done.injEq] at hdone'
    rw [hdone']
    exact hinside
  · rw [hdone] at hnext
    cases hnext

/-- Between two vectors with opposite frequencies the search runs as it should. -/
theorem runsBetween {k : Nat} (h : search.Neighbours k lower upper)
    (hcross : search.vectorFreq root lower * search.vectorFreq root upper < 0)
    (hstart : search.zeroDopplerStart root = .ok (some (totalIterations,
      ⟨lower.timeMjd, upper.timeMjd, search.vectorFreq root lower,
        search.vectorFreq root upper, upper.timeMjd - lower.timeMjd, 0⟩)))
    (htotal : totalIterations =
      toInt ((upper.timeMjd - lower.timeMjd) / |search.lineTimeInterval|) + 1)
    (hlimit : totalIterations ≤ 2147483647) (hne : search.lineTimeInterval ≠ 0) :
    search.RunsBetween root lower upper totalIterations
      ⟨lower.timeMjd, upper.timeMjd, search.vectorFreq root lower,
        search.vectorFreq root upper, upper.timeMjd - lower.timeMjd, 0⟩ := by
  have hk : k + 1 < search.vectors.length := (List.getElem?_eq_some_iff.mp h.2).1
  -- the bracket of the first step, and the invariant of the loop
  have hbracket : FirstBracket search lower upper totalIterations := by
    refine ⟨?_, ?_, htotal, hlimit, hne⟩
    · rw [← OrbitVectors.timeAt_of_getElem? h.1]
      exact OrbitVectors.timeAt_le (Nat.zero_le k) (by omega)
    · rw [← OrbitVectors.timeAt_of_getElem? h.2]
      exact OrbitVectors.timeAt_le (by omega) (by omega)
  have hinit : LoopInv lower upper ⟨lower.timeMjd, upper.timeMjd, search.vectorFreq root lower,
      search.vectorFreq root upper, upper.timeMjd - lower.timeMjd, 0⟩ := by
    refine ⟨hcross, ⟨le_refl _, le_refl _⟩, neighbours_lt h, rfl, 0, rfl, ?_⟩
    rw [pow_zero, mul_one]
  -- every state the loop reaches keeps the bracket
  have hreach : ∀ b, (loopSystem (search.bisectionPass root totalIterations) _).Reachable b →
      LoopInv lower upper b := fun b hb =>
    loopSystem_invariant (fun b b' hb => hb.bisectionPass hbracket) hinit hb
  refine ⟨hstart, fun b hb => (hreach b hb).opposite, fun b hb => ?_, fun b hb hopen => ?_, ?_⟩
  · have hinv := hreach b hb
    exact ⟨hinv.inside, hinv.ordered, hinv.diff⟩
  · have hcount := (hreach b hb).lt_total hbracket hopen
    omega
  · obtain ⟨passes, time, hrun, hinside⟩ := LoopInv.exists_runLoop root hinit hbracket
    refine ⟨passes, time, ?_, hinside⟩
    rw [getZeroDopplerTime, hstart]
    exact hrun

/-- The search finds the zero when the first crossing counts. -/
theorem findsZeroDoppler_iff_first :
    search.FindsZeroDoppler root ↔ search.FirstCrossingCounts root := by
  constructor
  · rintro ⟨_, _, _, _, _, totalIterations, start, hruns⟩
    obtain ⟨k, lower, upper, h, hbefore, hcross, ⟨hne, hlimit, -⟩, -⟩ :=
      zeroDopplerStart_eq_ok.mp hruns.starts
    exact ⟨k, lower, upper, h, hbefore, hcross, hne, hlimit⟩
  · rintro ⟨k, lower, upper, h, hbefore, hcross, hne, hlimit⟩
    have hstart := zeroDopplerStart_eq_ok.mpr
      ⟨k, lower, upper, h, hbefore, hcross, ⟨hne, hlimit, rfl⟩, rfl⟩
    have hfloor : toInt ((upper.timeMjd - lower.timeMjd) / |search.lineTimeInterval|) <
        2147483647 := by
      rw [toInt_of_nonneg (div_nonneg (sub_pos.mpr (neighbours_lt h)).le (abs_nonneg _)),
        Int.floor_lt]
      norm_num
      exact hlimit
    exact ⟨k, lower, upper, h, hcross.le, _, _,
      runsBetween h hcross hstart rfl (by omega) hne⟩

/-- **When the zero Doppler time is found.** -/
theorem findsZeroDoppler_iff :
    (search.Crosses root → search.FindsZeroDoppler root) ↔
      (search.Crosses root → search.FirstCrossingCounts root) :=
  imp_congr_right fun _ => findsZeroDoppler_iff_first

end Loop

/-! ## An overpass -/

/-- Three state vectors on a line 800 km above the earth point, with the given middle one. -/
def overpass (middle : ℚ) : OrbitSearch ℚ where
  vectors := [⟨0, -75000, 0, 800000, 7500, 0, 0⟩, ⟨10, middle, 0, 800000, 7500, 0, 0⟩,
    ⟨20, 75000, 0, 800000, 7500, 0, 0⟩]
  two := by simp
  increasing := by norm_num
  fits := by simp
  lineTimeInterval := 1 / 500
  wavelength := 1 / 20
  earthPoint := ⟨0, 0, 0⟩

theorem findsZeroDoppler_overpass : (overpass 37500).Crosses ratSquareRoot ∧
    (overpass 37500).FindsZeroDoppler ratSquareRoot := by
  have hcross : (overpass 37500).vectorFreq ratSquareRoot ⟨0, -75000, 0, 800000, 7500, 0, 0⟩ *
      (overpass 37500).vectorFreq ratSquareRoot ⟨10, 37500, 0, 800000, 7500, 0, 0⟩ < 0 := by
    decide +kernel
  have hcrosses : (overpass 37500).Crosses ratSquareRoot := ⟨0, _, _, ⟨rfl, rfl⟩, hcross.le⟩
  refine ⟨hcrosses, findsZeroDoppler_iff.mpr (fun _ => ?_) hcrosses⟩
  refine ⟨0, _, _, ⟨rfl, rfl⟩, fun j _ _ hj => absurd hj (Nat.not_lt_zero j), hcross, ?_, ?_⟩
  · show (1 / 500 : ℚ) ≠ 0
    norm_num
  · show (10 - 0 : ℚ) / |1 / 500| < 2147483647
    norm_num

/-- A zero at the second vector ends the loop over the vectors, but is no place to start from. -/
theorem not_findsZeroDoppler_overhead : ¬ ((overpass 0).Crosses ratSquareRoot →
    (overpass 0).FindsZeroDoppler ratSquareRoot) := by
  have hzero : (overpass 0).vectorFreq ratSquareRoot ⟨0, -75000, 0, 800000, 7500, 0, 0⟩ *
      (overpass 0).vectorFreq ratSquareRoot ⟨10, 0, 0, 800000, 7500, 0, 0⟩ = 0 := by
    decide +kernel
  intro hfinds
  have hfirst : (overpass 0).FirstCrossingCounts ratSquareRoot :=
    findsZeroDoppler_iff_first.mp (hfinds ⟨0, _, _, ⟨rfl, rfl⟩, hzero.le⟩)
  obtain ⟨k, lower, upper, ⟨hlower, hupper⟩, hbefore, hcross, -⟩ := hfirst
  rcases Nat.eq_zero_or_pos k with rfl | hk
  · cases hlower
    cases hupper
    exact hcross.ne hzero
  · exact (hbefore 0 _ _ hk ⟨rfl, rfl⟩).ne' hzero

end Alus.S1tbx
