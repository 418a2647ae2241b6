import Mathlib.Data.List.GetD
import Alus.Lib.Bisection
import Alus.Lib.Kernel
import Alus.Lib.Loop
import Alus.S1tbx.DopplerFrequency

/-!
# The zero Doppler time from sensor lines

`GetEarthPointZeroDopplerTimeImpl` (`s1tbx-commons/sar_geocoding.cuh`) halves the range of lines
until two neighbours are left, and takes the zero of the line through their values. The values at
the first and last line are frequencies, those at the lines between are products with the velocity.
-/

namespace Alus.S1tbx

open Alus.Lib

/-! ## The code -/

/-- The arrays of sensor positions and velocities, with an element for each of the `int` many lines
of the source image. -/
structure SensorLines (R : Type) where
  sensorPosition : List (PosVector R)
  sensorVelocity : List (PosVector R)
  length_eq : sensorVelocity.length = sensorPosition.length
  fits : sensorPosition.length < 2147483648

/-- The arguments of the search. -/
structure LineSearch (R : Type) extends SensorLines R where
  firstLineUtc : R
  lineTimeInterval : R
  wavelength : R
  earthPoint : PosVector R

/-- The range of lines that is left, and the values at its ends. -/
structure LineBounds (R : Type) where
  lowerBound : Nat
  upperBound : Nat
  lowerBoundFreq : R
  upperBoundFreq : R

section Code

variable {R : Type} [Field R] [LinearOrder R]

namespace LineSearch

variable (root : SquareRoot R) (search : LineSearch R)

/-- The number of lines. -/
def size : Nat := search.sensorPosition.length

def zeroDopplerPass (b : LineBounds R) : Outcome (Pass (LineBounds R) R) :=
  if b.upperBound - b.lowerBound > 1 then do
    -- `(int)((lower_bound + upper_bound) / 2.0)`
    let mid := (← index32 (b.lowerBound + b.upperBound)) / 2
    let midFreq := velocityTowards search.earthPoint (← vectorIndex search.sensorPosition mid)
      (← vectorIndex search.sensorVelocity mid)
    if midFreq * b.lowerBoundFreq > 0 then
      return .next { b with lowerBound := mid, lowerBoundFreq := midFreq }
    else if midFreq * b.upperBoundFreq > 0 then
      return .next { b with upperBound := mid, upperBoundFreq := midFreq }
    else if midFreq = 0 then
      return .done (search.firstLineUtc + mid * search.lineTimeInterval)
    else return .next b
  else
    let y0 := b.lowerBound - b.lowerBoundFreq * (b.upperBound - b.lowerBound) /
      (b.upperBoundFreq - b.lowerBoundFreq)
    return .done (search.firstLineUtc + y0 * search.lineTimeInterval)

/-- With at most the given number of passes. -/
def getEarthPointZeroDopplerTimeImpl (passes : Nat) : Outcome (Option R) := do
  let lowerBound := 0
  let upperBound := search.size - 1
  let lowerBoundFreq := getDopplerFrequency root search.earthPoint
    (← vectorIndex search.sensorPosition (lowerBound : Nat))
    (← vectorIndex search.sensorVelocity (lowerBound : Nat)) search.wavelength
  let upperBoundFreq := getDopplerFrequency root search.earthPoint
    (← vectorIndex search.sensorPosition upperBound)
    (← vectorIndex search.sensorVelocity upperBound) search.wavelength
  if |lowerBoundFreq| < 1 then
    return some (search.firstLineUtc + lowerBound * search.lineTimeInterval)
  else if |upperBoundFreq| < 1 then
    return some (search.firstLineUtc + upperBound * search.lineTimeInterval)
  else if lowerBoundFreq * upperBoundFreq > 0 then return some nonValidZeroDopplerTime
  else
    runLoop search.zeroDopplerPass passes
      ⟨lowerBound, upperBound, lowerBoundFreq, upperBoundFreq⟩

/-! ## The values at a line -/

/-- The Doppler frequency at a line. -/
def frequency (i : Nat) : R :=
  getDopplerFrequency root search.earthPoint (search.sensorPosition.getD i ⟨0, 0, 0⟩)
    (search.sensorVelocity.getD i ⟨0, 0, 0⟩) search.wavelength

/-- The value at the middle of a range. -/
def midValue (i : Nat) : R :=
  velocityTowards search.earthPoint (search.sensorPosition.getD i ⟨0, 0, 0⟩)
    (search.sensorVelocity.getD i ⟨0, 0, 0⟩)

def lineTime (y : R) : R := search.firstLineUtc + y * search.lineTimeInterval

/-- The frequencies at the ends are opposite, and none of them is taken for zero. -/
structure EndsOpposite : Prop where
  size : 2 ≤ search.size
  lower : 1 ≤ |search.frequency root 0|
  upper : 1 ≤ |search.frequency root (search.size - 1)|
  opposite : search.frequency root 0 * search.frequency root (search.size - 1) < 0

/-- The time is that of a line without Doppler frequency, or the linear zero crossing of one
quantity between two lines with opposite frequencies. -/
inductive IsCrossing (time : R) : Prop
  | atLine (k : Nat) (hk : k < search.size) (hzero : search.frequency root k = 0)
      (htime : time = search.lineTime k)
  | between (k : Nat) (hk : k + 1 < search.size)
      (hopposite : search.frequency root k * search.frequency root (k + 1) < 0)
      (hwithin : ∃ y : R, (k ≤ y ∧ y ≤ k + 1) ∧ time = search.lineTime y)
      (hsecant : time = search.lineTime
          (secant k (k + 1) (search.frequency root k) (search.frequency root (k + 1))) ∨
        time = search.lineTime
          (secant k (k + 1) (search.midValue k) (search.midValue (k + 1))))

/-- The search returns such a time. -/
def FindsCrossing : Prop :=
  ∃ passes time, search.getEarthPointZeroDopplerTimeImpl root passes = .ok (some time) ∧
    search.IsCrossing root time

end LineSearch

end Code

/-! ## A pass -/

section Passes

variable {R : Type} [Field R] [LinearOrder R] {root : SquareRoot R} {search : LineSearch R}

open LineSearch

omit [LinearOrder R] in
theorem read_line (search : LineSearch R) (i : Nat) (hi : i < search.size) :
    vectorIndex search.sensorPosition i = .ok (search.sensorPosition.getD i ⟨0, 0, 0⟩) ∧
      vectorIndex search.sensorVelocity i = .ok (search.sensorVelocity.getD i ⟨0, 0, 0⟩) := by
  have hvelocity : i < search.sensorVelocity.length := by rw [search.length_eq]; exact hi
  rw [vectorIndex_natCast hi, vectorIndex_natCast hvelocity, List.getD_eq_getElem _ _ hi,
    List.getD_eq_getElem _ _ hvelocity]
  exact ⟨rfl, rfl⟩

theorem zeroDopplerPass_mid {l u : Nat} (lf uf : R) (hopen : l + 1 < u) (hu : u < search.size)
    (hsum : l + u < 2147483648) :
    search.zeroDopplerPass ⟨l, u, lf, uf⟩ =
      if search.midValue ((l + u) / 2) * lf > 0 then
        .ok (.next ⟨(l + u) / 2, u, search.midValue ((l + u) / 2), uf⟩)
      else if search.midValue ((l + u) / 2) * uf > 0 then
        .ok (.next ⟨l, (l + u) / 2, lf, search.midValue ((l + u) / 2)⟩)
      else if search.midValue ((l + u) / 2) = 0 then
        .ok (.done (search.lineTime ((l + u) / 2 : Nat)))
      else .ok (.next ⟨l, u, lf, uf⟩) := by
  have hgap : u - l > 1 := by omega
  obtain ⟨hposition, hvelocity⟩ := read_line search ((l + u) / 2) (by omega)
  simp only [zeroDopplerPass, if_pos hgap, index32_of_lt hsum, hposition, hvelocity,
    Outcome.ok_bind, Outcome.pure_eq, lineTime, midValue]
  rfl

theorem zeroDopplerPass_overflow {l u : Nat} {lf uf : R} (hopen : l + 1 < u)
    (hsum : 2147483648 ≤ l + u) : search.zeroDopplerPass ⟨l, u, lf, uf⟩ = .undefined := by
  have hgap : u - l > 1 := by omega
  simp only [zeroDopplerPass, if_pos hgap, index32, if_neg (not_lt.mpr hsum),
    Outcome.undefined_bind]

theorem zeroDopplerPass_end (search : LineSearch R) (l : Nat) (lf uf : R) :
    search.zeroDopplerPass ⟨l, l + 1, lf, uf⟩ =
      .ok (.done (search.lineTime (secant l (l + 1) lf uf))) := by
  have hgap : ¬ l + 1 - l > 1 := by omega
  simp only [zeroDopplerPass, if_neg hgap, secant, lineTime, Outcome.pure_eq, Nat.cast_add,
    Nat.cast_one]

end Passes

/-! ## Where the search ends -/

section Bounds

variable {R : Type} [Field R] [LinearOrder R]

namespace LineSearch

variable (root : SquareRoot R) (search : LineSearch R)

/-- From these bounds on, the search returns a crossing. -/
def FindsFrom (b : LineBounds R) : Prop :=
  ∃ time, EndsWith search.zeroDopplerPass b time ∧ search.IsCrossing root time

/-- The frequencies of two lines have one sign. -/
def SameSide (i j : Nat) : Prop :=
  0 < search.frequency root i * search.frequency root j

/-- Whichever of the two quantities is taken at each of two neighbours, the crossing is that of
one of them. -/
def Agree (k : Nat) : Prop :=
  search.lineTimeInterval = 0 ∨ search.frequency root k = search.midValue k ∨
    search.frequency root (k + 1) = search.midValue (k + 1)

end LineSearch

variable {root : SquareRoot R} {search : LineSearch R} {b b' : LineBounds R}

open LineSearch

theorem findsFrom_next (h : search.zeroDopplerPass b = .ok (.next b')) :
    search.FindsFrom root b ↔ search.FindsFrom root b' := by
  simp only [FindsFrom, endsWith_next h]

theorem findsFrom_done {time : R} (h : search.zeroDopplerPass b = .ok (.done time)) :
    search.FindsFrom root b ↔ search.IsCrossing root time := by
  simp only [FindsFrom, endsWith_done h, exists_eq_left]

theorem not_findsFrom_of_undefined (h : search.zeroDopplerPass b = .undefined) :
    ¬ search.FindsFrom root b :=
  fun ⟨_, hends, _⟩ => not_endsWith_of_undefined h hends

omit [LinearOrder R] in
theorem lineTime_inj (hne : search.lineTimeInterval ≠ 0) {y y' : R} :
    search.lineTime y = search.lineTime y' ↔ y = y' := by
  rw [lineTime, lineTime, add_right_inj, mul_left_inj' hne]

omit [LinearOrder R] in
theorem lineTime_of_zero (h : search.lineTimeInterval = 0) (y : R) :
    search.lineTime y = search.firstLineUtc := by
  rw [lineTime, h, mul_zero, add_zero]

variable [IsStrictOrderedRing R]

/-- The two quantities of a line have one sign. -/
theorem exists_frequency_eq_mul (root : SquareRoot R) (hwave : 0 < search.wavelength) (i : Nat) :
    ∃ c, 0 < c ∧ search.frequency root i = c * search.midValue i :=
  exists_getDopplerFrequency_eq_mul hwave _ _ _

theorem frequency_mul_neg (root : SquareRoot R) (hwave : 0 < search.wavelength) {i : Nat} {v : R} :
    search.frequency root i * v < 0 ↔ search.midValue i * v < 0 := by
  obtain ⟨c, hc, heq⟩ := exists_frequency_eq_mul root hwave i
  rw [heq, mul_assoc]
  exact ⟨fun h => neg_of_mul_neg_right h hc.le, mul_neg_of_pos_of_neg hc⟩

theorem mul_frequency_neg (root : SquareRoot R) (hwave : 0 < search.wavelength) {i : Nat} {v : R} :
    v * search.frequency root i < 0 ↔ v * search.midValue i < 0 := by
  rw [mul_comm, frequency_mul_neg root hwave, mul_comm]

theorem frequency_mul_frequency_neg (root : SquareRoot R) (hwave : 0 < search.wavelength)
    {i j : Nat} : search.frequency root i * search.frequency root j < 0 ↔
      search.midValue i * search.midValue j < 0 := by
  rw [frequency_mul_neg root hwave, mul_frequency_neg root hwave]

theorem frequency_mul_pos (root : SquareRoot R) (hwave : 0 < search.wavelength) {i : Nat} {v : R} :
    0 < search.frequency root i * v ↔ 0 < search.midValue i * v := by
  obtain ⟨c, hc, heq⟩ := exists_frequency_eq_mul root hwave i
  rw [heq, mul_assoc]
  exact mul_pos_iff_of_pos_left hc

theorem frequency_eq_zero (root : SquareRoot R) (hwave : 0 < search.wavelength) {i : Nat} :
    search.frequency root i = 0 ↔ search.midValue i = 0 := by
  obtain ⟨c, hc, heq⟩ := exists_frequency_eq_mul root hwave i
  rw [heq, mul_eq_zero, or_iff_right hc.ne']

/-- What one pass does between opposite values. -/
theorem findsFrom_mid (root : SquareRoot R) (hwave : 0 < search.wavelength) {l u : Nat} {lf uf : R}
    (hopen : l + 1 < u) (hu : u < search.size) (hsum : l + u < 2147483648)
    (hopposite : lf * uf < 0) :
    (search.frequency root ((l + u) / 2) = 0 ∧ search.FindsFrom root ⟨l, u, lf, uf⟩) ∨
    (0 < search.frequency root ((l + u) / 2) * lf ∧
      search.midValue ((l + u) / 2) * uf < 0 ∧
      (search.FindsFrom root ⟨l, u, lf, uf⟩ ↔
        search.FindsFrom root ⟨(l + u) / 2, u, search.midValue ((l + u) / 2), uf⟩)) ∨
    (0 < search.frequency root ((l + u) / 2) * uf ∧
      lf * search.midValue ((l + u) / 2) < 0 ∧
      (search.FindsFrom root ⟨l, u, lf, uf⟩ ↔
        search.FindsFrom root ⟨l, (l + u) / 2, lf, search.midValue ((l + u) / 2)⟩)) := by
  have hpass := zeroDopplerPass_mid lf uf hopen hu hsum
  rcases side_of_opposite hopposite (search.midValue ((l + u) / 2)) with
    hzero | ⟨hlower, hupper⟩ | ⟨hlower, hupper⟩
  · left
    have hfreq := (frequency_eq_zero root hwave).mpr hzero
    rw [hzero, zero_mul, zero_mul, if_neg (lt_irrefl _), if_neg (lt_irrefl _), if_pos rfl]
      at hpass
    exact ⟨hfreq, (findsFrom_done hpass).mpr (.atLine _ (by omega) hfreq rfl)⟩
  · right; left
    rw [if_pos hlower] at hpass
    exact ⟨(frequency_mul_pos root hwave).mpr hlower, hupper, findsFrom_next hpass⟩
  · right; right
    rw [if_neg hlower.not_gt, if_pos hupper] at hpass
    refine ⟨(frequency_mul_pos root hwave).mpr hupper, ?_, findsFrom_next hpass⟩
    rw [mul_comm]
    exact hlower

/-- A number is strictly between two neighbouring line numbers only. -/
theorem line_eq_of_between {k k' : Nat} {y : R} (h : (k : R) < y ∧ y < k + 1)
    (h' : (k' : R) < y ∧ y < k' + 1) : k' = k := by
  have h1 : k < k' + 1 := by exact_mod_cast h.1.trans h'.2
  have h2 : k' < k + 1 := by exact_mod_cast h'.1.trans h.2
  omega

/-- Opposite values at two neighbours give a crossing when they have the ratio of the frequencies
or of the products, or when all the lines have one time. -/
theorem isCrossing_secant_iff (hwave : 0 < search.wavelength) {k : Nat} (hk : k + 1 < search.size)
    {v0 v1 : R} (hopposite : v0 * v1 < 0)
    (hline : search.midValue k * search.midValue (k + 1) < 0) :
    search.IsCrossing root (search.lineTime (secant k (k + 1) v0 v1)) ↔
      search.lineTimeInterval = 0 ∨
        v0 * search.frequency root (k + 1) = search.frequency root k * v1 ∨
        v0 * search.midValue (k + 1) = search.midValue k * v1 := by
  have hfreq : search.frequency root k * search.frequency root (k + 1) < 0 :=
    (frequency_mul_frequency_neg root hwave).mpr hline
  have hlt : (k : R) < k + 1 := lt_add_one _
  have hinside := secant_mem_Ioo hopposite hlt
  constructor
  · intro hcross
    by_cases hzero : search.lineTimeInterval = 0
    · exact .inl hzero
    · right
      cases hcross with
      | atLine k' _ _ htime =>
        -- the zero is strictly between two lines, so it is at none
        rw [lineTime_inj hzero] at htime
        rw [htime] at hinside
        have h1 : k < k' := by exact_mod_cast hinside.1
        have h2 : k' < k + 1 := by exact_mod_cast hinside.2
        omega
      | between k' hk' hopposite' _ hsecant =>
        have hline' : search.midValue k' * search.midValue (k' + 1) < 0 :=
          (frequency_mul_frequency_neg root hwave).mp hopposite'
        rw [lineTime_inj hzero, lineTime_inj hzero] at hsecant
        have hlt' : (k' : R) < k' + 1 := lt_add_one _
        have hinside' : (k' : R) < secant (k : R) (k + 1) v0 v1 ∧
            secant (k : R) (k + 1) v0 v1 < k' + 1 := by
          rcases hsecant with heq | heq
          · rw [heq]
            exact secant_mem_Ioo hopposite' hlt'
          · rw [heq]
            exact secant_mem_Ioo hline' hlt'
        obtain rfl : k' = k := line_eq_of_between hinside hinside'
        exact hsecant.imp (secant_eq_iff hopposite hopposite' hlt.ne).mp
          (secant_eq_iff hopposite hline' hlt.ne).mp
  · have hwithin : ∃ y : R, ((k : R) ≤ y ∧ y ≤ k + 1) ∧
        search.lineTime (secant k (k + 1) v0 v1) = search.lineTime y :=
      ⟨_, ⟨hinside.1.le, hinside.2.le⟩, rfl⟩
    rintro (hzero | hratio | hratio)
    · refine .between k hk hfreq hwithin (.inl ?_)
      rw [lineTime_of_zero hzero, lineTime_of_zero hzero]
    · exact .between k hk hfreq hwithin
        (.inl (by rw [(secant_eq_iff hopposite hfreq hlt.ne).mpr hratio]))
    · exact .between k hk hfreq hwithin
        (.inr (by rw [(secant_eq_iff hopposite hline hlt.ne).mpr hratio]))

/-- One frequency and one product give a crossing when they could be exchanged. -/
theorem isCrossing_mixed_iff (hwave : 0 < search.wavelength) {k : Nat} (hk : k + 1 < search.size)
    (hline : search.midValue k * search.midValue (k + 1) < 0) :
    (search.IsCrossing root (search.lineTime
        (secant k (k + 1) (search.frequency root k) (search.midValue (k + 1)))) ↔
      search.Agree root k) ∧
    (search.IsCrossing root (search.lineTime
        (secant k (k + 1) (search.midValue k) (search.frequency root (k + 1)))) ↔
      search.Agree root k) := by
  have hupper : search.midValue k * search.frequency root (k + 1) < 0 :=
    (mul_frequency_neg root hwave).mpr hline
  have hlower := (frequency_mul_neg root hwave).mpr hline
  have h0 : search.midValue k ≠ 0 := left_ne_zero_of_mul hline.ne
  have h1 : search.midValue (k + 1) ≠ 0 := right_ne_zero_of_mul hline.ne
  have hf0 : search.frequency root k ≠ 0 := left_ne_zero_of_mul hlower.ne
  have hf1 : search.frequency root (k + 1) ≠ 0 := right_ne_zero_of_mul hupper.ne
  constructor
  · rw [isCrossing_secant_iff hwave hk hlower hline, Agree, mul_right_inj' hf0,
      mul_left_inj' h1]
    tauto
  · rw [isCrossing_secant_iff hwave hk hupper hline, Agree, mul_left_inj' hf1,
      mul_right_inj' h0]
    tauto

/-- When both ends have been replaced, the search returns a crossing. -/
theorem findsFrom_inner (hwave : 0 < search.wavelength) {l u : Nat} (hlu : l < u)
    (hu : u < search.size) (hsum : 2 * u ≤ 2147483648)
    (hline : search.midValue l * search.midValue u < 0) :
    search.FindsFrom root ⟨l, u, search.midValue l, search.midValue u⟩ := by
  induction hgap : u - l using Nat.strong_induction_on generalizing l u with
  | _ gap ih =>
    subst hgap
    rcases Nat.lt_or_ge (l + 1) u with hopen | hclosed
    · rcases findsFrom_mid root hwave hopen hu (by omega) hline with
        ⟨-, hfinds⟩ | ⟨-, hopposite, hiff⟩ | ⟨-, hopposite, hiff⟩
      · exact hfinds
      · exact hiff.mpr (ih _ (by omega) (by omega) hu hsum hopposite rfl)
      · exact hiff.mpr (ih _ (by omega) (by omega) (by omega) (by omega) hopposite rfl)
    · obtain rfl : u = l + 1 := by omega
      rw [findsFrom_done (zeroDopplerPass_end search l _ _),
        isCrossing_secant_iff hwave hu hline hline]
      exact .inr (.inr rfl)

namespace LineSearch

/-- On the way of halving down to the first line there is one that is not on the side of the
last line. -/
def LeavesFirst (root : SquareRoot R) (search : LineSearch R) (u : Nat) : Prop :=
  ∃ j, 1 ≤ u / 2 ^ (j + 1) ∧ ¬ search.SameSide root (u / 2 ^ (j + 1)) (search.size - 1)

/-- On the way of halving the distance to the last line there is a line that is not on the side of
the first one, and its number is computed without overflow. -/
def LeavesLast (root : SquareRoot R) (search : LineSearch R) (d : Nat) : Prop :=
  ∃ j, (search.size - 1 - ceilHalves d j) + (search.size - 1) < 2147483648 ∧
    ¬ search.SameSide root (search.size - 1 - ceilHalves d (j + 1)) 0

end LineSearch

/-- The two quantities of a line are on one side of a third value. -/
theorem sameSide_of_midValue (hwave : 0 < search.wavelength) {i j : Nat}
    (h : 0 < search.frequency root i * search.midValue j) : search.SameSide root i j := by
  rw [mul_comm, ← frequency_mul_pos root hwave, mul_comm] at h
  exact h

theorem not_sameSide_of_midValue (hwave : 0 < search.wavelength) {i j : Nat}
    (h : search.midValue i * search.midValue j < 0) : ¬ search.SameSide root i j := by
  exact ((frequency_mul_frequency_neg root hwave).mpr h).not_gt

/-- When the first line is left in place, the search ends well if it moves away later or if the
quantities agree. -/
theorem findsFrom_first_iff (hwave : 0 < search.wavelength) {u : Nat} (h1 : 1 ≤ u)
    (hu : u < search.size) (hsum : 2 * u ≤ 2147483648)
    (hlast : search.SameSide root u (search.size - 1))
    (hline : search.frequency root 0 * search.midValue u < 0) :
    search.FindsFrom root ⟨0, u, search.frequency root 0, search.midValue u⟩ ↔
      search.LeavesFirst root u ∨ search.Agree root 0 := by
  induction u using Nat.strong_induction_on with
  | _ u ih =>
    rcases Nat.lt_or_ge 1 u with hopen | hclosed
    · rw [LeavesFirst, exists_halving_iff
        (p := fun i => 1 ≤ i ∧ ¬ search.SameSide root i (search.size - 1))]
      have hmid := findsFrom_mid root hwave hopen hu (by omega) hline
      rw [Nat.zero_add] at hmid
      rcases hmid with ⟨hzero, hfinds⟩ | ⟨hside, hopposite, hiff⟩ | ⟨hside, hopposite, hiff⟩
      -- a zero in the middle is on no side
      · refine iff_of_true hfinds (.inl (.inl ⟨by omega, ?_⟩))
        rw [SameSide, hzero, zero_mul]
        exact lt_irrefl 0
      -- the middle takes the place of the first line, and both ends are products
      · refine iff_of_true ?_ (.inl (.inl ⟨by omega, fun hsame => ?_⟩))
        · exact hiff.mpr (findsFrom_inner hwave (by omega) hu hsum hopposite)
        · have hlast' : search.SameSide root (search.size - 1) u := by
            rw [SameSide, mul_comm]
            exact hlast
          exact not_sameSide_of_midValue hwave hopposite (pos_trans_of_side hsame hlast')
      -- the first line stays, so the middle is no line that it leaves for
      · have hsame : search.SameSide root (u / 2) (search.size - 1) :=
          pos_trans_of_side (sameSide_of_midValue hwave hside) hlast
        rw [hiff, ih (u / 2) (by omega) (by omega) (by omega) (by omega) hsame hopposite,
          LeavesFirst]
        have hnot : ¬ (1 ≤ u / 2 ∧ ¬ search.SameSide root (u / 2) (search.size - 1)) :=
          fun h => h.2 hsame
        rw [or_iff_right hnot]
    -- no line is left between: a frequency at the first one, a product at the second
    · obtain rfl : u = 1 := by omega
      have hnone : ¬ search.LeavesFirst root 1 := by
        rintro ⟨j, hj, -⟩
        rw [Nat.div_eq_of_lt (Nat.one_lt_two_pow (Nat.succ_ne_zero j))] at hj
        omega
      have hend := zeroDopplerPass_end search 0 (search.frequency root 0)
        (search.midValue 1)
      rw [or_iff_right hnone, ← (isCrossing_mixed_iff hwave (k := 0) hu
        ((frequency_mul_neg root hwave).mp hline)).1]
      exact findsFrom_done hend

/-- With no line left between, the last but one has a product and the last one a frequency. -/
theorem findsFrom_lastTwo_iff (hwave : 0 < search.wavelength) (h1 : 1 < search.size - 1)
    (hsize : search.size ≤ 1073741825) (hfirst : search.SameSide root (search.size - 1 - 1) 0)
    (hline : search.midValue (search.size - 1 - 1) * search.frequency root (search.size - 1) < 0) :
    search.FindsFrom root ⟨search.size - 1 - 1, search.size - 1,
        search.midValue (search.size - 1 - 1), search.frequency root (search.size - 1)⟩ ↔
      search.LeavesLast root 1 ∨
        (search.Agree root (search.size - 2) ∧ search.size ≤ 1073741825) := by
  have hnone : ¬ search.LeavesLast root 1 := by
    rintro ⟨j, -, hj⟩
    rw [ceilHalves_one] at hj
    exact hj hfirst
  obtain ⟨l, hl⟩ : ∃ l, search.size - 1 = l + 1 := ⟨search.size - 2, by omega⟩
  have hl' : search.size - 2 = l := by omega
  rw [hl, Nat.add_sub_cancel] at hline ⊢
  rw [hl', or_iff_right hnone, and_iff_left hsize]
  have hopposite : search.midValue l * search.midValue (l + 1) < 0 :=
    (mul_frequency_neg root hwave).mp hline
  rw [← (isCrossing_mixed_iff hwave (k := l) (by omega) hopposite).2]
  exact findsFrom_done (zeroDopplerPass_end search l _ _)

/-- When the last line is left in place, the same holds as long as no sum overflows. -/
theorem findsFrom_last_iff (hwave : 0 < search.wavelength) {d : Nat} (h1 : 1 ≤ d)
    (hd : d < search.size - 1) (hsize : d = 1 → search.size ≤ 1073741825)
    (hfirst : search.SameSide root (search.size - 1 - d) 0)
    (hline : search.midValue (search.size - 1 - d) *
      search.frequency root (search.size - 1) < 0) :
    search.FindsFrom root ⟨search.size - 1 - d, search.size - 1,
        search.midValue (search.size - 1 - d), search.frequency root (search.size - 1)⟩ ↔
      search.LeavesLast root d ∨
        (search.Agree root (search.size - 2) ∧ search.size ≤ 1073741825) := by
  induction d using Nat.strong_induction_on with
  | _ d ih =>
    rcases Nat.lt_or_ge 1 d with hopen | hclosed
    · rcases Nat.lt_or_ge ((search.size - 1 - d) + (search.size - 1)) 2147483648 with hsum | hsum
      · rw [LeavesLast, exists_ceilHalves_iff (p := fun i i' =>
          (search.size - 1 - i) + (search.size - 1) < 2147483648 ∧
            ¬ search.SameSide root (search.size - 1 - i') 0)]
        have hmid := findsFrom_mid root hwave
          (l := search.size - 1 - d) (u := search.size - 1) (by omega) (by omega) hsum hline
        rw [show ((search.size - 1 - d) + (search.size - 1)) / 2 =
          search.size - 1 - (d + 1) / 2 by omega] at hmid
        rcases hmid with ⟨hzero, hfinds⟩ | ⟨hside, hopposite, hiff⟩ | ⟨hside, hopposite, hiff⟩
        · refine iff_of_true hfinds (.inl (.inl ⟨hsum, ?_⟩))
          rw [SameSide, hzero, zero_mul]
          exact lt_irrefl 0
        -- the last line stays
        · have hsame : search.SameSide root (search.size - 1 - (d + 1) / 2) 0 :=
            pos_trans_of_side (sameSide_of_midValue hwave hside) hfirst
          rw [hiff, ih ((d + 1) / 2) (by omega) (by omega) (by omega) (by omega) hsame hopposite,
            LeavesLast]
          have hnot : ¬ ((search.size - 1 - d) + (search.size - 1) < 2147483648 ∧
              ¬ search.SameSide root (search.size - 1 - (d + 1) / 2) 0) := fun h => h.2 hsame
          rw [or_iff_right hnot]
        -- the middle takes the place of the last line
        · refine iff_of_true ?_ (.inl (.inl ⟨hsum, fun hsame => ?_⟩))
          · exact hiff.mpr (findsFrom_inner hwave (by omega) (by omega) (by omega) hopposite)
          · have hfirst' : search.SameSide root 0 (search.size - 1 - d) := by
              rw [SameSide, mul_comm]
              exact hfirst
            rw [mul_comm] at hopposite
            exact not_sameSide_of_midValue hwave hopposite (pos_trans_of_side hsame hfirst')
      -- the sum of the bounds overflows, as it does in every later pass
      · refine iff_of_false (not_findsFrom_of_undefined
          (zeroDopplerPass_overflow (by omega) hsum)) ?_
        rintro (⟨j, hj, -⟩ | ⟨-, hsmall⟩)
        · have hle := ceilHalves_le d j
          omega
        · omega
    · obtain rfl : d = 1 := by omega
      exact findsFrom_lastTwo_iff hwave hd (hsize rfl) hfirst hline

omit [IsStrictOrderedRing R] in
/-- Between opposite frequencies at the ends, the search is the loop. -/
theorem findsCrossing_iff_findsFrom (h : search.EndsOpposite root) :
    search.FindsCrossing root ↔ search.FindsFrom root ⟨0, search.size - 1,
      search.frequency root 0, search.frequency root (search.size - 1)⟩ := by
  have hsize := h.size
  obtain ⟨hposition, hvelocity⟩ := read_line search 0 (by omega)
  obtain ⟨hposition', hvelocity'⟩ := read_line search (search.size - 1) (by omega)
  have hrun : ∀ passes, search.getEarthPointZeroDopplerTimeImpl root passes =
      runLoop search.zeroDopplerPass passes ⟨0, search.size - 1, search.frequency root 0,
        search.frequency root (search.size - 1)⟩ := by
    intro passes
    simp only [getEarthPointZeroDopplerTimeImpl, hposition, hvelocity, hposition', hvelocity',
      Outcome.ok_bind]
    have hlower := not_lt.mpr h.lower
    have hupper := not_lt.mpr h.upper
    have hopposite := h.opposite.not_gt
    simp only [frequency] at hlower hupper hopposite
    rw [if_neg hlower, if_neg hupper, if_neg hopposite]
    rfl
  simp only [FindsCrossing, FindsFrom, EndsWith, hrun]
  constructor
  · rintro ⟨passes, time, hends, hcross⟩
    exact ⟨time, ⟨passes, hends⟩, hcross⟩
  · rintro ⟨time, ⟨passes, hends⟩, hcross⟩
    exact ⟨passes, time, hends, hcross⟩

namespace LineSearch

/-- There are no lines between the ends, or each end is replaced on the way or agrees with its
neighbour. The last line can only stay in place where no sum of line numbers overflows. -/
def EndsReplaced (root : SquareRoot R) (search : LineSearch R) : Prop :=
  search.size = 2 ∨
    ((search.LeavesFirst root (search.size - 1) ∨ search.Agree root 0) ∧
      (search.LeavesLast root (search.size - 1) ∨
        (search.Agree root (search.size - 2) ∧ search.size ≤ 1073741825)))

end LineSearch

/-- From all the lines on, the search ends well when each end is replaced or agrees. -/
theorem findsFrom_ends_iff (hwave : 0 < search.wavelength) (h : search.EndsOpposite root) :
    search.FindsFrom root ⟨0, search.size - 1, search.frequency root 0,
      search.frequency root (search.size - 1)⟩ ↔ search.EndsReplaced root := by
  have hfits : search.size < 2147483648 := search.fits
  rcases h.size.eq_or_lt with htwo | hmore
  -- with two lines the first pass is the last
  · refine iff_of_true ?_ (.inl htwo.symm)
    have hopposite := h.opposite
    rw [← htwo] at hopposite ⊢
    have hline : search.midValue 0 * search.midValue 1 < 0 :=
      (frequency_mul_frequency_neg root hwave).mp hopposite
    have hk : 0 + 1 < search.size := by omega
    refine (findsFrom_done (zeroDopplerPass_end search 0 _ _)).mpr ?_
    exact (isCrossing_secant_iff hwave hk hopposite hline).mpr (.inr (.inl rfl))
  · have hnot : search.size ≠ 2 := by omega
    rw [EndsReplaced, or_iff_right hnot, LeavesFirst, exists_halving_iff
      (p := fun i => 1 ≤ i ∧ ¬ search.SameSide root i (search.size - 1)), LeavesLast,
      exists_ceilHalves_iff (p := fun i i' =>
        (search.size - 1 - i) + (search.size - 1) < 2147483648 ∧
          ¬ search.SameSide root (search.size - 1 - i') 0), ← LeavesFirst, ← LeavesLast]
    -- the middle line is a zero, or it replaces the first or the last line
    have hmid := findsFrom_mid root hwave (l := 0) (u := search.size - 1) (by omega)
      (by omega) (by omega) h.opposite
    have hm : search.size - 1 - (search.size - 1 + 1) / 2 = (search.size - 1) / 2 := by omega
    rw [Nat.zero_add] at hmid
    rw [hm, Nat.sub_self, Nat.zero_add]
    rcases hmid with ⟨hzero, hfinds⟩ | ⟨hside, hopposite, hiff⟩ | ⟨hside, hopposite, hiff⟩
    · have hnone : ∀ i, ¬ search.SameSide root ((search.size - 1) / 2) i := fun i => by
        rw [SameSide, hzero, zero_mul]
        exact lt_irrefl 0
      exact iff_of_true hfinds ⟨.inl (.inl ⟨by omega, hnone _⟩), .inl (.inl ⟨by omega, hnone _⟩)⟩
    -- it replaces the first line, and the last one has to be replaced later
    · have hleaves : ¬ search.SameSide root ((search.size - 1) / 2) (search.size - 1) :=
        ((frequency_mul_neg root hwave).mpr hopposite).not_gt
      have hstays : ¬ (search.size - 1 < 2147483648 ∧
          ¬ search.SameSide root ((search.size - 1) / 2) 0) := fun hleave => hleave.2 hside
      rw [hiff, or_iff_right hstays, and_iff_right (.inl (.inl ⟨by omega, hleaves⟩))]
      rw [← hm] at hside hopposite ⊢
      exact findsFrom_last_iff hwave (by omega) (by omega) (by omega) hside hopposite
    -- it replaces the last line, and the first one has to be replaced later
    · have hleaves : ¬ search.SameSide root ((search.size - 1) / 2) 0 := by
        rw [SameSide, mul_comm]
        exact ((mul_frequency_neg root hwave).mpr hopposite).not_gt
      have hstays : ¬ (1 ≤ (search.size - 1) / 2 ∧
          ¬ search.SameSide root ((search.size - 1) / 2) (search.size - 1)) :=
        fun hleave => hleave.2 hside
      rw [hiff, or_iff_right hstays, and_iff_left (.inl (.inl ⟨by omega, hleaves⟩))]
      exact findsFrom_first_iff hwave (by omega) (by omega) (by omega) hside hopposite

/-- **When the search returns the crossing.** -/
theorem findsCrossing_iff (hwave : 0 < search.wavelength) (h : search.EndsOpposite root) :
    search.FindsCrossing root ↔ search.EndsReplaced root :=
  (findsCrossing_iff_findsFrom h).trans (findsFrom_ends_iff hwave h)

end Bounds

/-! ## A straight pass -/

/-- The sensor moves along a line 800 km above the earth point; its positions on that line are
given. -/
def straightPass (along : List ℚ) (hfits : along.length < 2147483648) : LineSearch ℚ where
  sensorPosition := along.map fun x => ⟨x, 0, 800000⟩
  sensorVelocity := along.map fun _ => ⟨7500, 0, 0⟩
  length_eq := by simp
  fits := by simpa using hfits
  firstLineUtc := 0
  lineTimeInterval := 1
  wavelength := 1 / 20
  earthPoint := ⟨0, 0, 0⟩

/-- The crossing is between the third and the fourth of five lines. -/
def innerPass : LineSearch ℚ :=
  straightPass [-1920000, -1500000, -600000, 600000, 1500000] (by decide)

theorem endsOpposite_innerPass : innerPass.EndsOpposite ratSquareRoot :=
  ⟨by decide, by decide +kernel, by decide +kernel, by decide +kernel⟩

theorem findsCrossing_innerPass : innerPass.FindsCrossing ratSquareRoot := by
  refine (findsCrossing_iff (by decide +kernel) endsOpposite_innerPass).mpr
    (.inr ⟨.inl ⟨0, by decide, ?_⟩, .inl ⟨1, by decide, ?_⟩⟩)
  · show ¬ 0 < innerPass.frequency ratSquareRoot 2 * innerPass.frequency ratSquareRoot 4
    decide +kernel
  · show ¬ 0 < innerPass.frequency ratSquareRoot 3 * innerPass.frequency ratSquareRoot 0
    decide +kernel

/-- The crossing is between the first and the second of three lines. -/
def outerPass : LineSearch ℚ := straightPass [-600000, 600000, 1500000] (by decide)

theorem endsOpposite_outerPass : outerPass.EndsOpposite ratSquareRoot :=
  ⟨by decide, by decide +kernel, by decide +kernel, by decide +kernel⟩

/-- The time is taken from a frequency at the first line and a product at the second one. -/
theorem not_findsCrossing_outerPass :
    outerPass.EndsOpposite ratSquareRoot ∧ ¬ outerPass.FindsCrossing ratSquareRoot := by
  refine ⟨endsOpposite_outerPass, fun hfinds => ?_⟩
  rw [findsCrossing_iff_findsFrom endsOpposite_outerPass,
    findsFrom_ends_iff (by decide +kernel) endsOpposite_outerPass] at hfinds
  rcases hfinds with htwo | ⟨hleaves | hagree, -⟩
  · exact absurd htwo (by decide)
  · obtain ⟨j, hj, hside⟩ := hleaves
    have hline : (outerPass.size - 1) / 2 ^ (j + 1) = 1 := by
      have hle : 2 / 2 ^ (j + 1) ≤ 2 / 2 := Nat.div_le_div_left (by
        rw [pow_succ]
        have := Nat.two_pow_pos j
        omega) (by decide)
      exact le_antisymm hle hj
    rw [hline] at hside
    refine hside ?_
    show 0 < outerPass.frequency ratSquareRoot 1 * outerPass.frequency ratSquareRoot 2
    decide +kernel
  · refine absurd hagree ?_
    show ¬ (_ ∨ _ ∨ _)
    decide +kernel

end Alus.S1tbx
