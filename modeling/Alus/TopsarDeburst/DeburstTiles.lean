import Mathlib.Data.Rat.Floor
import Alus.TopsarDeburst.Deburst

/-!
# Which lines the deburst operator writes

The source line of a target line is a function of its time alone, and the source rectangle of a
tile holds the source lines of all its lines. What depends on the tile is only whether it is
processed.
-/

namespace Alus.TopsarDeburst

open Alus.Lib

variable {T : Type} [Field T] [LinearOrder T] [IsStrictOrderedRing T] [FloorRing T]

namespace SubSwathInfo

variable (s : SubSwathInfo T)

/-! ## Columns and lines as times -/

omit [FloorRing T] in
theorem deltaSlantRangeTime_pos : 0 < s.deltaSlantRangeTime := by
  have hlight : (0 : T) < (lightSpeed : T) := by
    unfold lightSpeed
    norm_num
  exact div_pos s.spacing_pos hlight

omit [FloorRing T] in
theorem slrTime_sub_div (x : Int) :
    (s.slrTime x - s.slrTimeToFirstPixel) / s.deltaSlantRangeTime = x := by
  rw [slrTime, add_sub_cancel_left, mul_div_cancel_right₀ _ s.deltaSlantRangeTime_pos.ne']

theorem targetWidth_eq : s.targetWidth = s.numOfSamples := by
  have hlast : (s.slrTimeToLastPixel - s.slrTimeToFirstPixel) / s.deltaSlantRangeTime + 1 =
      (s.numOfSamples : T) := by
    rw [s.slrTimeToLastPixel_eq, add_sub_cancel_left, mul_div_assoc,
      show s.rangePixelSpacing / (lightSpeed : T) = s.deltaSlantRangeTime from rfl,
      mul_div_cancel_right₀ _ s.deltaSlantRangeTime_pos.ne']
    push_cast
    ring
  rw [targetWidth, hlast, stdRound_intCast]

theorem getSampleIndexInSourceProduct_eq {x : Int} (h0 : 0 ≤ x) (hlt : x < s.targetWidth) :
    s.getSampleIndexInSourceProduct x = x := by
  rw [targetWidth_eq] at hlt
  simp only [getSampleIndexInSourceProduct]
  rw [slrTime_sub_div, toInt_add_half h0, if_neg (by omega), if_neg (by omega)]

/-- The truncated column range has every valid column. -/
theorem ValidColumn.in_range {s : SubSwathInfo T} {x : Int} (h : s.ValidColumn x) :
    s.computeXMin ≤ x ∧ x ≤ s.computeXMax := by
  have hpos := s.deltaSlantRangeTime_pos
  have hx := s.slrTime_sub_div x
  constructor
  · refine toInt_le ?_
    rw [← hx]
    gcongr
    exact h.1
  · refine le_toInt ?_
    rw [← hx]
    gcongr
    exact h.2

/-- The truncated line range has every valid line. -/
theorem ValidLine.in_range {s : SubSwathInfo T} {y : Int} (h : s.ValidLine y) :
    s.computeYMin ≤ y ∧ y ≤ s.computeYMax := by
  have hpos := s.interval_pos
  have hy : (s.lineTime y - s.firstLineTime) / s.azimuthTimeInterval = y := by
    rw [lineTime, add_sub_cancel_left, mul_div_cancel_right₀ _ hpos.ne']
  constructor
  · refine toInt_le ?_
    rw [← hy]
    gcongr
    exact h.1
  · refine le_toInt ?_
    rw [← hy]
    gcongr
    exact h.2

theorem lineTime_mono {y y' : Int} (h : y ≤ y') : s.lineTime y ≤ s.lineTime y' := by
  have hcast : (y : T) ≤ y' := by exact_mod_cast h
  have hpos := s.interval_pos
  unfold lineTime
  gcongr

theorem slrTime_mono {x x' : Int} (h : x ≤ x') : s.slrTime x ≤ s.slrTime x' := by
  have hcast : (x : T) ≤ x' := by exact_mod_cast h
  have hpos := s.deltaSlantRangeTime_pos
  unfold slrTime
  gcongr

theorem ValidColumn.between {s : SubSwathInfo T} {a b x : Int} (ha : s.ValidColumn a)
    (hb : s.ValidColumn b) (hax : a ≤ x) (hxb : x ≤ b) : s.ValidColumn x :=
  ⟨le_trans ha.1 (s.slrTime_mono hax), le_trans (s.slrTime_mono hxb) hb.2⟩

theorem TestedLine.between {s : SubSwathInfo T} {a b y : Int} (ha : s.TestedLine a)
    (hb : s.TestedLine b) (hay : a ≤ y) (hyb : y ≤ b) : s.TestedLine y :=
  ⟨le_trans ha.1 (s.lineTime_mono hay), lt_of_le_of_lt (s.lineTime_mono hyb) hb.2⟩

/-! ## The bursts of a time -/

/-- The bursts that hold the time, in order. -/
def bursts (t : T) : List Nat := (List.range s.numOfBursts).filter fun i => s.BurstHolds i t

omit [IsStrictOrderedRing T] [FloorRing T] in
theorem mem_bursts {t : T} {i : Nat} : i ∈ s.bursts t ↔ i < s.numOfBursts ∧ s.BurstHolds i t := by
  simp [bursts]

omit [IsStrictOrderedRing T] [FloorRing T] in
theorem bursts_sorted (t : T) : (s.bursts t).Pairwise (· < ·) :=
  List.pairwise_lt_range.filter _

/-- The line of a burst is one of its own `linesPerBurst` lines. -/
theorem burstLine_bounds {i : Nat} {t : T} (hi : i < s.numOfBursts) (h : s.BurstHolds i t) :
    i * s.linesPerBurst ≤ s.burstLine i t ∧
      s.burstLine i t ≤ i * s.linesPerBurst + (s.linesPerBurst - 1) := by
  have hpos := s.interval_pos
  have hL := s.lines_pos
  have h0 : 0 ≤ (t - s.burstFirstLineTime i) / s.azimuthTimeInterval :=
    div_nonneg (sub_nonneg.mpr h.1) hpos.le
  have h1 : (t - s.burstFirstLineTime i) / s.azimuthTimeInterval ≤
      ((s.linesPerBurst - 1 : Int) : T) := by
    rw [div_le_iff₀ hpos, sub_le_iff_le_add', ← s.burstLastLineTime_eq i hi]
    exact h.2.le
  have hlow := toInt_mono (add_le_add_left h0 (1 / 2 : T))
  have hhigh := toInt_mono (add_le_add_left h1 (1 / 2 : T))
  rw [toInt_add_half (by omega)] at hhigh
  have hzero : toInt ((0 : T) + 1 / 2) = 0 := by
    have h := toInt_add_half (T := T) (le_refl 0)
    rwa [Int.cast_zero] at h
  rw [hzero] at hlow
  unfold burstLine
  omega

theorem burstLine_nonneg {i : Nat} {t : T} (h : i ∈ s.bursts t) : 0 ≤ s.burstLine i t := by
  obtain ⟨hlt, hholds⟩ := s.mem_bursts.mp h
  exact le_trans (Int.mul_nonneg (Int.natCast_nonneg i) s.lines_pos.le)
    (s.burstLine_bounds hlt hholds).1

theorem burstLine_mono (i : Nat) {t t' : T} (h : t ≤ t') : s.burstLine i t ≤ s.burstLine i t' := by
  have hpos := s.interval_pos
  have hq : (t - s.burstFirstLineTime i) / s.azimuthTimeInterval + 1 / 2 ≤
      (t' - s.burstFirstLineTime i) / s.azimuthTimeInterval + 1 / 2 := by gcongr
  have h := toInt_mono hq
  unfold burstLine
  omega

/-- A later burst starts below: its lines come after those of an earlier one. -/
theorem burstLine_lt {i j : Nat} {t t' : T} (hij : i < j) (hj : j < s.numOfBursts)
    (hi : s.BurstHolds i t) (hj' : s.BurstHolds j t') : s.burstLine i t < s.burstLine j t' := by
  have h1 := (s.burstLine_bounds (by omega) hi).2
  have h2 := (s.burstLine_bounds hj hj').1
  have h3 : ((i : Int) + 1) * s.linesPerBurst ≤ j * s.linesPerBurst :=
    Int.mul_le_mul_of_nonneg_right (by omega) s.lines_pos.le
  rw [add_mul, one_mul] at h3
  omega

omit [FloorRing T] in
theorem burstLastLineTime_lt {i j : Nat} (hij : i < j) (hj : j < s.numOfBursts) :
    s.burstLastLineTime i < s.burstLastLineTime j := by
  rw [s.burstLastLineTime_eq i (by omega), s.burstLastLineTime_eq j hj]
  have h := s.ordered i j hij hj
  gcongr

/-! ## The chosen line -/

omit [IsStrictOrderedRing T] in
theorem lineIndicesLoop_one (t : T) (is : List Nat) (b : BurstInfo T) :
    s.lineIndicesLoop t is 1 b = match is.filter fun i => s.BurstHolds i t with
      | [] => b
      | j :: _ => { b with sy1 := s.burstLine j t, burstNum1 := j } := by
  induction is with
  | nil => rfl
  | cons i is ih =>
    by_cases h : s.BurstHolds i t
    · rw [List.filter_cons, if_pos (decide_eq_true h), lineIndicesLoop, if_pos h,
        if_neg one_ne_zero]
    · rw [List.filter_cons, if_neg (by simpa using h), lineIndicesLoop, if_neg h, ih]

omit [IsStrictOrderedRing T] in
theorem lineIndicesLoop_zero (t : T) (is : List Nat) (b : BurstInfo T) :
    s.lineIndicesLoop t is 0 b = match is.filter fun i => s.BurstHolds i t with
      | [] => b
      | [i] => { b with sy0 := s.burstLine i t, burstNum0 := i }
      | i :: j :: _ => { b with
          sy0 := s.burstLine i t
          burstNum0 := i
          sy1 := s.burstLine j t
          burstNum1 := j } := by
  induction is with
  | nil => rfl
  | cons i is ih =>
    by_cases h : s.BurstHolds i t
    · rw [List.filter_cons, if_pos (decide_eq_true h), lineIndicesLoop, if_pos h, if_pos rfl,
        lineIndicesLoop_one]
      cases is.filter fun i => s.BurstHolds i t <;> rfl
    · rw [List.filter_cons, if_neg (by simpa using h), lineIndicesLoop, if_neg h, ih]

/-- The burst that the line is taken from: the second one that holds its time once the middle of
the overlap is past, otherwise the first. -/
def chosenBurst (t : T) : Option Nat :=
  match s.bursts t with
  | [] => none
  | [i] => some i
  | i :: j :: _ =>
    some (if t > (s.burstLastLineTime i + s.burstFirstLineTime j) / 2 then j else i)

/-- What a search for a line leaves in the record: nothing found, one burst, or two. The rest of
the record may be stale, and is not read. -/
theorem lineIndicesAt_cases (t : T) (b : BurstInfo T) :
    let result := s.lineIndicesAt t b
    match s.bursts t with
    | [] => result.1 = false ∧ result.2.sy0 = -1 ∧ result.2.sy1 = -1
    | [i] => result.1 = true ∧ result.2.sy0 = s.burstLine i t ∧ result.2.sy1 = -1
    | i :: j :: _ => result.1 = true ∧ result.2.sy0 = s.burstLine i t ∧
        result.2.sy1 = s.burstLine j t ∧ result.2.targetTime = t ∧
        result.2.midTime = (s.burstLastLineTime i + s.burstFirstLineTime j) / 2 := by
  -- a line number is never the mark for "not found"
  have hline : ∀ i ∈ s.bursts t, s.burstLine i t ≠ -1 := fun i hi => by
    have hnonneg := s.burstLine_nonneg hi
    omega
  simp only [lineIndicesAt, lineIndicesLoop_zero]
  have hfilter : ((List.range s.numOfBursts).filter fun i => decide (s.BurstHolds i t)) =
      s.bursts t := rfl
  rw [hfilter]
  rcases hbursts : s.bursts t with _ | ⟨i, _ | ⟨j, rest⟩⟩
  · simp
  · have hi := hline i (by rw [hbursts]; exact List.mem_cons_self)
    simp [hi]
  · have hi := hline i (by rw [hbursts]; exact List.mem_cons_self)
    have hj := hline j (by rw [hbursts]; exact List.mem_cons_of_mem i List.mem_cons_self)
    simp [hi, hj]

/-- The chosen line depends on the time of the line, not on the record. -/
theorem chosenLineAt_eq (t : T) (b : BurstInfo T) :
    (if (s.lineIndicesAt t b).1 then some (chosenLine (s.lineIndicesAt t b).2) else none) =
      (s.chosenBurst t).map fun i => s.burstLine i t := by
  have hcases := s.lineIndicesAt_cases t b
  simp only at hcases
  unfold chosenBurst
  rcases hbursts : s.bursts t with _ | ⟨i, _ | ⟨j, rest⟩⟩
  · rw [hbursts] at hcases
    rw [if_neg (by simp [hcases.1])]
    rfl
  · rw [hbursts] at hcases
    obtain ⟨hfound, hsy0, hsy1⟩ := hcases
    rw [if_pos hfound, chosenLine, hsy0, hsy1]
    simp
  · rw [hbursts] at hcases
    obtain ⟨hfound, hsy0, hsy1, htime, hmid⟩ := hcases
    have hj : j ∈ s.bursts t := by
      rw [hbursts]
      exact List.mem_cons_of_mem i List.mem_cons_self
    have hnonneg := s.burstLine_nonneg hj
    have hne : s.burstLine j t ≠ -1 := by omega
    rw [if_pos hfound, chosenLine, hsy0, hsy1, htime, hmid]
    simp only [hne, ne_eq, not_false_eq_true, true_and, Option.map_some]
    split <;> rfl

omit [IsStrictOrderedRing T] in
theorem getLineIndicesInSourceProduct_eq (y : Int) (b : BurstInfo T) :
    s.getLineIndicesInSourceProduct y b = s.lineIndicesAt (s.lineTime y) b := rfl

theorem chosenLine_eq (y : Int) (b : BurstInfo T) :
    (if (s.getLineIndicesInSourceProduct y b).1 then
      some (chosenLine (s.getLineIndicesInSourceProduct y b).2) else none) =
      (s.chosenBurst (s.lineTime y)).map fun i => s.burstLine i (s.lineTime y) :=
  s.chosenLineAt_eq (s.lineTime y) b

theorem sourceLine_eq (y : Int) :
    s.sourceLine y = (s.chosenBurst (s.lineTime y)).map fun i => s.burstLine i (s.lineTime y) :=
  s.chosenLine_eq y initialBurstInfo

/-! ## The source rectangle holds the chosen lines

The bursts that hold a time are consecutive, and both the first and the last of them move up
with time. -/

/-- The first line found at a time comes before every line found later. -/
theorem burstLine_head_le {t t' : T} (h : t ≤ t') {i : Nat} {rest : List Nat}
    (hi : s.bursts t = i :: rest) {c : Nat} (hc : c ∈ s.bursts t') :
    s.burstLine i t ≤ s.burstLine c t' := by
  obtain ⟨hclt, hcholds⟩ := s.mem_bursts.mp hc
  obtain ⟨hilt, hiholds⟩ := s.mem_bursts.mp (show i ∈ s.bursts t by simp [hi])
  rcases lt_trichotomy c i with hlt | rfl | hgt
  -- such a burst holds the earlier time as well, before the first that does
  · have hcmem : c ∈ s.bursts t := s.mem_bursts.mpr ⟨hclt,
      le_trans (s.ordered c i hlt hilt).le hiholds.1, lt_of_le_of_lt h hcholds.2⟩
    have hsorted := s.bursts_sorted t
    rw [hi] at hsorted hcmem
    rcases List.mem_cons.mp hcmem with rfl | hrest
    · exact absurd hlt (lt_irrefl c)
    · have hle := (List.pairwise_cons.mp hsorted).1 c hrest
      omega
  · exact s.burstLine_mono c h
  · exact (s.burstLine_lt hgt hclt hiholds hcholds).le

omit [IsStrictOrderedRing T] [FloorRing T] in
theorem chosenBurst_mem {t : T} {c : Nat} (h : s.chosenBurst t = some c) : c ∈ s.bursts t := by
  unfold chosenBurst at h
  rcases hbursts : s.bursts t with _ | ⟨i, _ | ⟨j, rest⟩⟩
  · rw [hbursts] at h
    cases h
  · rw [hbursts] at h
    obtain rfl := Option.some.inj h
    exact List.mem_cons_self
  · rw [hbursts] at h
    obtain rfl := Option.some.inj h
    split <;> simp

omit [IsStrictOrderedRing T] [FloorRing T] in
theorem chosenBurst_isSome_iff (t : T) :
    (s.chosenBurst t).isSome ↔ ∃ i < s.numOfBursts, s.BurstHolds i t := by
  constructor
  · intro h
    obtain ⟨c, hc⟩ := Option.isSome_iff_exists.mp h
    exact ⟨c, s.mem_bursts.mp (s.chosenBurst_mem hc)⟩
  · rintro ⟨i, hi, hholds⟩
    have hmem := s.mem_bursts.mpr ⟨hi, hholds⟩
    unfold chosenBurst
    rcases hbursts : s.bursts t with _ | ⟨a, _ | ⟨b, rest⟩⟩
    · rw [hbursts] at hmem
      cases hmem
    · rfl
    · rfl

theorem sourceLine_isSome_iff (y : Int) :
    (s.sourceLine y).isSome ↔ ∃ i < s.numOfBursts, s.BurstHolds i (s.lineTime y) := by
  rw [sourceLine_eq, Option.isSome_map, chosenBurst_isSome_iff]

omit [IsStrictOrderedRing T] [FloorRing T] in
/-- The chosen burst is one of the first two. -/
theorem chosenBurst_le {t : T} {c a b : Nat} (h : s.chosenBurst t = some c)
    (ha : a ∈ s.bursts t) (hb : b ∈ s.bursts t) (hab : a < b) : c ≤ b := by
  have hsorted := s.bursts_sorted t
  unfold chosenBurst at h
  rcases hbursts : s.bursts t with _ | ⟨i, _ | ⟨j, rest⟩⟩
  · rw [hbursts] at ha
    cases ha
  · rw [hbursts] at ha hb
    have hai := List.mem_singleton.mp ha
    have hbi := List.mem_singleton.mp hb
    omega
  · rw [hbursts] at h ha hb hsorted
    obtain ⟨hi, hj⟩ := List.pairwise_cons.mp hsorted
    obtain ⟨hj, -⟩ := List.pairwise_cons.mp hj
    have hij := hi j List.mem_cons_self
    have hcj : c ≤ j := by
      obtain rfl := Option.some.inj h
      split <;> omega
    have hai : i ≤ a := by
      rcases List.mem_cons.mp ha with rfl | hrest
      · exact le_refl a
      · exact (hi a hrest).le
    rcases List.mem_cons.mp hb with rfl | hb
    · omega
    · rcases List.mem_cons.mp hb with rfl | hb
      · exact hcj
      · exact le_trans hcj (hj b hb).le

omit [FloorRing T] in
/-- Where the first of the bursts at a later time comes before the chosen one, both hold both
times, and the chosen one is the second in either list. -/
theorem chosenBurst_second {t t' : T} (h : t ≤ t') {c i : Nat} {rest : List Nat}
    (hc : s.chosenBurst t = some c) (hi : s.bursts t' = i :: rest) (hgt : i < c) :
    ∃ later, rest = c :: later := by
  obtain ⟨hclt, hcholds⟩ := s.mem_bursts.mp (s.chosenBurst_mem hc)
  obtain ⟨hilt, hiholds⟩ := s.mem_bursts.mp (show i ∈ s.bursts t' by simp [hi])
  have himem : i ∈ s.bursts t := s.mem_bursts.mpr ⟨hilt,
    le_trans (s.ordered i c hgt hclt).le hcholds.1, lt_of_le_of_lt h hiholds.2⟩
  have hcmem' : c ∈ s.bursts t' := s.mem_bursts.mpr ⟨hclt, le_trans hcholds.1 h,
    lt_trans hiholds.2 (s.burstLastLineTime_lt hgt hclt)⟩
  have hsorted := s.bursts_sorted t'
  rw [hi] at hcmem' hsorted
  have hcrest : c ∈ rest := by
    rcases List.mem_cons.mp hcmem' with rfl | hcrest
    · exact absurd hgt (lt_irrefl c)
    · exact hcrest
  cases rest with
  | nil => cases hcrest
  | cons j later =>
    obtain ⟨hfirst, hsorted⟩ := List.pairwise_cons.mp hsorted
    have hjc : j ≤ c := by
      rcases List.mem_cons.mp hcrest with rfl | hclater
      · exact le_refl c
      · exact ((List.pairwise_cons.mp hsorted).1 c hclater).le
    have hcj : c ≤ j := by
      rcases hjc.lt_or_eq with hlt | heq
      -- a burst between the two would have been chosen
      · obtain ⟨hjlt, hjholds⟩ := s.mem_bursts.mp (show j ∈ s.bursts t' by simp [hi])
        have hjmem : j ∈ s.bursts t := s.mem_bursts.mpr ⟨hjlt,
          le_trans (s.ordered j c hlt hclt).le hcholds.1, lt_of_le_of_lt h hjholds.2⟩
        exact s.chosenBurst_le hc himem hjmem (hfirst j List.mem_cons_self)
      · exact heq.ge
    exact ⟨later, by rw [le_antisymm hjc hcj]⟩

/-- The chosen line comes at or before the last of the two lines found at a later time. -/
theorem burstLine_le_last {t t' : T} (h : t ≤ t') {c i : Nat} {rest : List Nat}
    (hc : s.chosenBurst t = some c) (hi : s.bursts t' = i :: rest) :
    s.burstLine c t ≤ match rest with
      | [] => s.burstLine i t'
      | j :: _ => max (s.burstLine i t') (s.burstLine j t') := by
  obtain ⟨_, hcholds⟩ := s.mem_bursts.mp (s.chosenBurst_mem hc)
  obtain ⟨hilt, hiholds⟩ := s.mem_bursts.mp (show i ∈ s.bursts t' by simp [hi])
  rcases lt_trichotomy c i with hlt | rfl | hgt
  · have hle := (s.burstLine_lt hlt hilt hcholds hiholds).le
    cases rest with
    | nil => exact hle
    | cons j rest => exact le_max_of_le_left hle
  · have hle := s.burstLine_mono c h
    cases rest with
    | nil => exact hle
    | cons j rest => exact le_max_of_le_left hle
  · obtain ⟨later, rfl⟩ := s.chosenBurst_second h hc hi hgt
    exact le_max_of_le_right (s.burstLine_mono c h)

/-- The first row of the source rectangle is at or above the source line of every later line. -/
theorem firstRow_le (b : BurstInfo T) {t t' : T} (ht : t ≤ t') {c : Nat}
    (hc : s.chosenBurst t' = some c) :
    (if (s.lineIndicesAt t b).2.sy0 = -1 ∧ (s.lineIndicesAt t b).2.sy1 = -1 then 0
      else (s.lineIndicesAt t b).2.sy0) ≤ s.burstLine c t' := by
  have hfirst := s.lineIndicesAt_cases t b
  simp only at hfirst
  rcases hbursts : s.bursts t with _ | ⟨i, rest⟩
  · rw [hbursts] at hfirst
    rw [if_pos ⟨hfirst.2.1, hfirst.2.2⟩]
    exact s.burstLine_nonneg (s.chosenBurst_mem hc)
  · have hle := s.burstLine_head_le ht hbursts (s.chosenBurst_mem hc)
    have hsy0 : (s.lineIndicesAt t b).2.sy0 = s.burstLine i t := by
      rw [hbursts] at hfirst
      cases rest with
      | nil => exact hfirst.2.1
      | cons j rest => exact hfirst.2.1
    have hi := s.burstLine_nonneg (show i ∈ s.bursts t by simp [hbursts])
    rw [hsy0, if_neg (by omega)]
    exact hle

/-- The last row of the source rectangle is at or below the source line of every earlier line. -/
theorem le_lastRow (b : BurstInfo T) {t t' : T} (ht : t ≤ t') {c : Nat}
    (hc : s.chosenBurst t = some c) :
    s.burstLine c t ≤ if (s.lineIndicesAt t' b).2.sy0 = -1 ∧ (s.lineIndicesAt t' b).2.sy1 = -1
      then s.numOfLines - 1
      else max (s.lineIndicesAt t' b).2.sy0 (s.lineIndicesAt t' b).2.sy1 := by
  have hlast := s.lineIndicesAt_cases t' b
  simp only at hlast
  rcases hbursts : s.bursts t' with _ | ⟨i, rest⟩
  · rw [hbursts] at hlast
    obtain ⟨hclt, hcholds⟩ := s.mem_bursts.mp (s.chosenBurst_mem hc)
    have hhigh := (s.burstLine_bounds hclt hcholds).2
    have hlines : ((c : Int) + 1) * s.linesPerBurst ≤ s.numOfBursts * s.linesPerBurst :=
      Int.mul_le_mul_of_nonneg_right (by omega) s.lines_pos.le
    rw [add_mul, one_mul, ← s.numOfLines_eq] at hlines
    rw [if_pos ⟨hlast.2.1, hlast.2.2⟩]
    omega
  · have hle := s.burstLine_le_last ht hc hbursts
    have hi := s.burstLine_nonneg (show i ∈ s.bursts t' by simp [hbursts])
    rw [hbursts] at hlast
    cases rest with
    | nil =>
      rw [hlast.2.1, hlast.2.2, if_neg (by omega)]
      exact le_max_of_le_left hle
    | cons j rest =>
      rw [hlast.2.1, hlast.2.2.1, if_neg (by omega)]
      exact hle

/-- The source rectangle of a tile has the source lines of all its lines. -/
theorem sourceLine_mem_rectangle {tile : Rectangle} {y sy : Int} (hy : tile.y ≤ y)
    (hy' : y ≤ tile.y + tile.height - 1) (h : s.sourceLine y = some sy) :
    (s.getSourceRectangle tile).y ≤ sy ∧
      sy < (s.getSourceRectangle tile).y + (s.getSourceRectangle tile).height := by
  rw [sourceLine_eq] at h
  obtain ⟨c, hc, rfl⟩ := Option.map_eq_some_iff.mp h
  have hfirst := s.firstRow_le initialBurstInfo (s.lineTime_mono hy) hc
  have hlast := s.le_lastRow (s.lineIndicesAt (s.lineTime tile.y) initialBurstInfo).2
    (s.lineTime_mono hy') hc
  simp only [getSourceRectangle, getLineIndicesInSourceProduct_eq]
  omega

/-! ## The pixels of a tile -/

omit [IsStrictOrderedRing T] [FloorRing T] [LinearOrder T] [Field T] in
/-- The flat index names the pixel it was made from. -/
theorem readSource_eq {rect : Rectangle} {x y : Int} (hx : rect.x ≤ x)
    (hx' : x < rect.x + rect.width) (hy : rect.y ≤ y) (hy' : y < rect.y + rect.height) :
    readSource rect x y = .source x y := by
  obtain ⟨hindex, hcolumn, hline⟩ := Rectangle.flatIndex ⟨hx, hx', hy, hy'⟩
  simp only [readSource]
  rw [if_pos hindex, hcolumn, hline]

theorem copyLine_apply (rect : Rectangle) (firstX lastX : Int)
    (state : BurstInfo T × (Int → Int → Sample)) (row x y : Int) :
    (s.copyLine rect firstX lastX state row).2 x y =
      if y = row ∧ firstX ≤ x ∧ x < lastX then
        match s.sourceLine y with
        | some sy => readSource rect x sy
        | none => state.2 x y
      else state.2 x y := by
  have hline := (s.chosenLine_eq row state.1).trans (s.sourceLine_eq row).symm
  simp only [copyLine]
  cases hfound : (s.getLineIndicesInSourceProduct row state.1).1 with
  | false =>
    rw [hfound, if_neg Bool.false_ne_true] at hline
    rw [if_neg Bool.false_ne_true]
    split
    · next h => rw [h.1, ← hline]
    · rfl
  | true =>
    rw [hfound, if_pos rfl] at hline
    rw [if_pos rfl, slrTime_sub_div, stdRound_intCast]
    simp only
    split
    · next h =>
      rw [h.1, ← hline]
      simp only [add_sub_cancel]
    · rfl

/-- After the loop over the rows, those of the loop that have a source line hold it. -/
theorem foldl_copyLine (rect : Rectangle) (firstX lastX : Int) (rows : List Int)
    (state : BurstInfo T × (Int → Int → Sample)) (x y : Int) :
    (rows.foldl (s.copyLine rect firstX lastX) state).2 x y =
      if y ∈ rows ∧ firstX ≤ x ∧ x < lastX then
        match s.sourceLine y with
        | some sy => readSource rect x sy
        | none => state.2 x y
      else state.2 x y := by
  induction rows generalizing state with
  | nil => simp
  | cons row rows ih =>
    rw [List.foldl_cons, ih, copyLine_apply]
    by_cases hcol : firstX ≤ x ∧ x < lastX
    · by_cases hrow : y = row
      -- written now, and again with the same line if the row comes back
      · cases s.sourceLine y <;> simp [hrow, hcol]
      · simp [hrow, hcol]
    · simp [hcol]

/-- The tile is processed: its corners pass the tests. -/
def Processed (tile : Rectangle) : Prop :=
  (s.ValidColumn tile.x ∨ s.ValidColumn (tile.x + tile.width - 1)) ∧
    (s.TestedLine tile.y ∨ s.TestedLine (tile.y + tile.height - 1))

/-- The line is copied in a tile that is processed. -/
def CopiedLine (y : Int) : Prop :=
  s.computeYMin ≤ y ∧ y ≤ s.computeYMax ∧ ∃ i < s.numOfBursts, s.BurstHolds i (s.lineTime y)

def CopiedColumn (x : Int) : Prop := s.computeXMin ≤ x ∧ x ≤ s.computeXMax

instance (tile : Rectangle) : Decidable (s.Processed tile) :=
  inferInstanceAs (Decidable (_ ∧ _))

instance (y : Int) : Decidable (s.CopiedLine y) := inferInstanceAs (Decidable (_ ∧ _))

instance (x : Int) : Decidable (s.CopiedColumn x) := inferInstanceAs (Decidable (_ ∧ _))

omit [IsStrictOrderedRing T] [FloorRing T] in
theorem not_processed_iff (tile : Rectangle) :
    (s.firstSubSwathIndex tile = -1 ∧ s.lastSubSwathIndex tile = -1) ↔ ¬ s.Processed tile := by
  unfold lastSubSwathIndex firstSubSwathIndex Processed
  by_cases hfirst : s.ValidColumn tile.x <;>
    by_cases hlast : s.ValidColumn (tile.x + tile.width - 1) <;>
    by_cases hlines : s.TestedLine tile.y ∨ s.TestedLine (tile.y + tile.height - 1) <;>
    simp [hfirst, hlast, hlines]

/-- The source rectangle of a tile holds the source line of each of its pixels. -/
theorem readSource_of_sourceLine {tile : Rectangle}
    (ht : tile.Inside s.targetWidth s.targetHeight) {x y sy : Int} (hpix : tile.Contains x y)
    (hsy : s.sourceLine y = some sy) :
    readSource (s.getSourceRectangle tile) x sy = .source x sy := by
  obtain ⟨hx, hx', hy, hy'⟩ := hpix
  obtain ⟨-, -, htx, htx', -, -⟩ := ht
  obtain ⟨hrow, hrow'⟩ := s.sourceLine_mem_rectangle hy (by omega) hsy
  have hleft := s.getSampleIndexInSourceProduct_eq (x := tile.x) htx (by omega)
  have hright := s.getSampleIndexInSourceProduct_eq (x := tile.x + tile.width - 1) (by omega)
    (by omega)
  apply readSource_eq _ _ hrow hrow'
  · simp only [getSourceRectangle, hleft]
    exact hx
  · simp only [getSourceRectangle, hleft, hright]
    omega

/-- The loops over a tile copy its pixels whose column and line are copied. -/
theorem computeTileInOneSwathFloat_eq {tile : Rectangle}
    (ht : tile.Inside s.targetWidth s.targetHeight) {x y : Int} (hpix : tile.Contains x y) :
    s.computeTileInOneSwathFloat tile (s.getSourceRectangle tile) x y =
      if s.CopiedColumn x ∧ s.CopiedLine y then .source x ((s.sourceLine y).getD 0)
      else .unwritten := by
  have hread : ∀ sy, s.sourceLine y = some sy →
      readSource (s.getSourceRectangle tile) x sy = .source x sy :=
    fun _ => s.readSource_of_sourceLine ht hpix
  obtain ⟨hx, hx', hy, hy'⟩ := hpix
  simp only [computeTileInOneSwathFloat]
  by_cases hcopied : s.CopiedColumn x ∧ s.CopiedLine y
  -- the pixel is in the part of the tile that the loops go through
  · rw [if_pos hcopied]
    obtain ⟨hcol, hmin, hmax, hheld⟩ := hcopied
    obtain ⟨sy, hsy⟩ := Option.isSome_iff_exists.mp ((s.sourceLine_isSome_iff y).mpr hheld)
    unfold CopiedColumn at hcol
    rw [if_neg (by omega), foldl_copyLine, if_pos ⟨mem_intRange.mpr (by omega), by omega⟩, hsy]
    exact hread sy hsy
  · rw [if_neg hcopied]
    split
    · rfl
    · rw [foldl_copyLine]
      split
      · next hin =>
        -- a pixel of that part that is not copied has no source line
        rw [mem_intRange] at hin
        cases hsy : s.sourceLine y with
        | none => rfl
        | some sy =>
          refine absurd ⟨?_, ?_⟩ hcopied
          · unfold CopiedColumn
            omega
          · exact ⟨by omega, by omega, (s.sourceLine_isSome_iff y).mp (by rw [hsy]; rfl)⟩
      · rfl

/-- **The pixels of a tile.** -/
theorem computeTileStack_eq {tile : Rectangle} (ht : tile.Inside s.targetWidth s.targetHeight)
    {x y : Int} (hpix : tile.Contains x y) :
    s.computeTileStack tile x y =
      if s.Processed tile ∧ s.CopiedColumn x ∧ s.CopiedLine y then
        .source x ((s.sourceLine y).getD 0)
      else .unwritten := by
  unfold computeTileStack
  by_cases hproc : s.Processed tile
  · rw [if_neg fun h => (s.not_processed_iff tile).mp h hproc,
      s.computeTileInOneSwathFloat_eq ht hpix]
    simp only [hproc, true_and]
  · rw [if_pos ((s.not_processed_iff tile).mpr hproc), if_neg fun h => hproc h.1]

/-! ## Results -/

theorem computeTileStack_eq_iff {tile : Rectangle} (ht : tile.Inside s.targetWidth s.targetHeight)
    {x y : Int} (hpix : tile.Contains x y) :
    s.computeTileStack tile x y = s.computeTileStack (Rectangle.unit x y) x y ↔
      (s.CopiedColumn x → s.CopiedLine y →
        (s.Processed tile ↔ s.ValidColumn x ∧ s.TestedLine y)) := by
  have hunit : s.Processed (Rectangle.unit x y) ↔ s.ValidColumn x ∧ s.TestedLine y := by
    simp [Processed, Rectangle.unit]
  have hinside : (Rectangle.unit x y).Inside s.targetWidth s.targetHeight := by
    simp only [Rectangle.Inside, Rectangle.Contains, Rectangle.unit] at ht hpix ⊢
    omega
  rw [s.computeTileStack_eq ht hpix,
    s.computeTileStack_eq hinside (Rectangle.unit_contains_self x y), ← hunit]
  by_cases hcol : s.CopiedColumn x
  · by_cases hline : s.CopiedLine y
    · by_cases hproc : s.Processed tile <;>
        by_cases hproc' : s.Processed (Rectangle.unit x y) <;>
        simp [hcol, hline, hproc, hproc']
    · simp [hline]
  · simp [hcol]

/-- The corner tests of every tile agree with the tests of each of its pixels: once anything can
be written, only valid columns and tested lines are copied, and the valid columns and the tested
lines each reach an edge of the raster. -/
def CornersDecide : Prop :=
  (∃ x, 0 ≤ x ∧ x < s.targetWidth ∧ s.ValidColumn x) →
  (∃ y, 0 ≤ y ∧ y < s.targetHeight ∧ s.TestedLine y) →
  (∃ y, 0 ≤ y ∧ y < s.targetHeight ∧ s.CopiedLine y) →
    (∀ x, 0 ≤ x → x < s.targetWidth → s.CopiedColumn x → s.ValidColumn x) ∧
    (∀ y, 0 ≤ y → y < s.targetHeight → s.CopiedLine y → s.TestedLine y) ∧
    (s.ValidColumn 0 ∨ s.ValidColumn (s.targetWidth - 1)) ∧
    (s.TestedLine 0 ∨ s.TestedLine (s.targetHeight - 1))

theorem cornersDecide_of_tileIndependent
    (h : TileIndependent s.computeTileStack (fun _ _ => .unwritten) s.targetWidth s.targetHeight) :
    s.CornersDecide := by
  rintro ⟨xv, hxv0, hxvW, hxv⟩ ⟨yv, hyv0, hyvH, hyv⟩ ⟨yc, hyc0, hycH, hyc⟩
  have hpixel : ∀ tile : Rectangle, tile.Inside s.targetWidth s.targetHeight →
      ∀ x y, tile.Contains x y → s.CopiedColumn x → s.CopiedLine y →
        (s.Processed tile ↔ s.ValidColumn x ∧ s.TestedLine y) := fun tile ht x y hpix =>
    (s.computeTileStack_eq_iff ht hpix).mp ((tileIndependent_iff _).mp h _ ht x y hpix)
  -- a tile with a corner at a valid column and a tested line, up to the pixel in question
  have hspan : ∀ x y, 0 ≤ x → x < s.targetWidth → s.CopiedColumn x → 0 ≤ y →
      y < s.targetHeight → s.CopiedLine y → s.ValidColumn x ∧ s.TestedLine y := by
    intro x y hx hxW hcol hy hyH hline
    refine (hpixel ⟨min x xv, min y yv, max x xv - min x xv + 1, max y yv - min y yv + 1⟩ ?_
      x y ?_ hcol hline).mp ⟨?_, ?_⟩
    · simp only [Rectangle.Inside]
      omega
    · simp only [Rectangle.Contains]
      omega
    · simp only
      rcases le_total x xv with hle | hle
      · refine .inr ?_
        rwa [max_eq_right hle, min_eq_left hle, show x + (xv - x + 1) - 1 = xv by ring]
      · refine .inl ?_
        rwa [min_eq_right hle]
    · simp only
      rcases le_total y yv with hle | hle
      · refine .inr ?_
        rwa [max_eq_right hle, min_eq_left hle, show y + (yv - y + 1) - 1 = yv by ring]
      · refine .inl ?_
        rwa [min_eq_right hle]
  have hxc : s.CopiedColumn xv := hxv.in_range
  -- the tile of the whole raster
  have hwhole := (hpixel ⟨0, 0, s.targetWidth, s.targetHeight⟩
    ⟨by simp only; omega, by simp only; omega, le_refl 0, by simp only; omega, le_refl 0,
      by simp only; omega⟩ xv yc ⟨hxv0, by simp only; omega, hyc0, by simp only; omega⟩ hxc
    hyc).mpr (hspan xv yc hxv0 hxvW hxc hyc0 hycH hyc)
  simp only [Processed, zero_add] at hwhole
  exact ⟨fun x hx hxW hcol => (hspan x yc hx hxW hcol hyc0 hycH hyc).1,
    fun y hy hyH hline => (hspan xv y hxv0 hxvW hxc hy hyH hline).2, hwhole.1, hwhole.2⟩

/-- Between the edge of the raster and a pixel that passes, everything passes: one end of every
tile that has the pixel does. -/
theorem tileIndependent_of_cornersDecide (h : s.CornersDecide) :
    TileIndependent s.computeTileStack (fun _ _ => .unwritten) s.targetWidth s.targetHeight := by
  refine (tileIndependent_iff _).mpr fun tile ht x y hpix =>
    (s.computeTileStack_eq_iff ht hpix).mpr fun hcol hline => ⟨fun hproc => ?_, ?_⟩
  · obtain ⟨hw, hh, hx0, hxW, hy0, hyH⟩ := ht
    obtain ⟨hx, hx', hy, hy'⟩ := hpix
    have hxs : ∃ x, 0 ≤ x ∧ x < s.targetWidth ∧ s.ValidColumn x := by
      rcases hproc.1 with hleft | hright
      · exact ⟨_, hx0, by omega, hleft⟩
      · exact ⟨_, by omega, by omega, hright⟩
    have hys : ∃ y, 0 ≤ y ∧ y < s.targetHeight ∧ s.TestedLine y := by
      rcases hproc.2 with htop | hbottom
      · exact ⟨_, hy0, by omega, htop⟩
      · exact ⟨_, by omega, by omega, hbottom⟩
    obtain ⟨hcols, hlines, -, -⟩ := h hxs hys ⟨y, by omega, by omega, hline⟩
    exact ⟨hcols x (by omega) (by omega) hcol, hlines y (by omega) (by omega) hline⟩
  · rintro ⟨hvalid, htested⟩
    obtain ⟨hw, hh, hx0, hxW, hy0, hyH⟩ := ht
    obtain ⟨hx, hx', hy, hy'⟩ := hpix
    obtain ⟨-, -, hcolEdge, hlineEdge⟩ := h ⟨x, by omega, by omega, hvalid⟩
      ⟨y, by omega, by omega, htested⟩ ⟨y, by omega, by omega, hline⟩
    refine ⟨?_, ?_⟩
    · rcases hcolEdge with hleft | hright
      · exact .inl (hleft.between hvalid hx0 hx)
      · exact .inr (hvalid.between hright (by omega) (by omega))
    · rcases hlineEdge with htop | hbottom
      · exact .inl (htop.between htested hy0 hy)
      · exact .inr (htested.between hbottom (by omega) (by omega))

/-- Every valid line of the raster passes the time test, whose end is strict, and some burst holds
it. -/
def ValidLinesHeld : Prop :=
  (∃ x, 0 ≤ x ∧ x < s.targetWidth ∧ s.ValidColumn x) →
    ∀ y, 0 ≤ y → y < s.targetHeight → s.ValidLine y →
      s.TestedLine y ∧ ∃ i < s.numOfBursts, s.BurstHolds i (s.lineTime y)

end SubSwathInfo

/-- Two bursts of four lines that overlap in two, with one invalid line at the end, and three
columns. -/
def overlapSwath (firstValid lastValid : ℚ) : SubSwathInfo ℚ where
  numOfBursts := 2
  linesPerBurst := 4
  numOfSamples := 3
  numOfLines := 8
  azimuthTimeInterval := 1
  rangePixelSpacing := 299792458
  firstLineTime := 0
  lastLineTime := 5
  firstValidLineTime := 0
  lastValidLineTime := 4
  burstFirstLineTime i := 2 * i
  burstLastLineTime i := 2 * i + 3
  burstFirstValidLineTime i := 2 * i
  burstLastValidLineTime i := 2 * i + 2
  slrTimeToFirstPixel := 0
  slrTimeToLastPixel := 2
  slrTimeToFirstValidPixel := firstValid
  slrTimeToLastValidPixel := lastValid
  bursts_pos := by norm_num
  lines_pos := by norm_num
  interval_pos := by norm_num
  spacing_pos := by norm_num
  numOfLines_eq := by norm_num
  burstLastLineTime_eq i _ := by norm_num
  ordered i j hij _ := by
    have h : (i : ℚ) < j := by exact_mod_cast hij
    linarith
  firstValidLineTime_eq := by norm_num
  lastValidLineTime_eq := by norm_num
  slrTimeToLastPixel_eq := by norm_num [lightSpeed]

section Example

variable (firstValid lastValid : ℚ)

theorem overlapSwath_slrTime (x : Int) : (overlapSwath firstValid lastValid).slrTime x = x := by
  simp [SubSwathInfo.slrTime, SubSwathInfo.deltaSlantRangeTime, overlapSwath, lightSpeed]

theorem overlapSwath_lineTime (y : Int) : (overlapSwath firstValid lastValid).lineTime y = y := by
  simp [SubSwathInfo.lineTime, overlapSwath]

theorem overlapSwath_width : (overlapSwath firstValid lastValid).targetWidth = 3 :=
  (overlapSwath firstValid lastValid).targetWidth_eq

theorem overlapSwath_testedLine {y : Int} :
    (overlapSwath firstValid lastValid).TestedLine y ↔ 0 ≤ y ∧ y < 5 := by
  have hfirst :
      (overlapSwath firstValid lastValid).burstFirstValidLineTime 0 = ((0 : Int) : ℚ) := by
    norm_num [overlapSwath]
  have hlast : (overlapSwath firstValid lastValid).burstLastLineTime
      ((overlapSwath firstValid lastValid).numOfBursts - 1) = ((5 : Int) : ℚ) := by
    norm_num [overlapSwath]
  rw [SubSwathInfo.TestedLine, overlapSwath_lineTime, hfirst, hlast, Int.cast_le, Int.cast_lt]

theorem overlapSwath_copiedLine {y : Int} :
    (overlapSwath firstValid lastValid).CopiedLine y ↔ 0 ≤ y ∧ y < 5 := by
  have hmin : (overlapSwath firstValid lastValid).computeYMin = 0 := by
    have h := toInt_intCast (T := ℚ) 0
    simpa [SubSwathInfo.computeYMin, overlapSwath] using h
  have hmax : (overlapSwath firstValid lastValid).computeYMax = 4 := by
    have h := toInt_intCast (T := ℚ) 4
    simpa [SubSwathInfo.computeYMax, overlapSwath] using h
  rw [SubSwathInfo.CopiedLine, hmin, hmax, overlapSwath_lineTime]
  constructor
  · omega
  · intro h
    refine ⟨h.1, by omega, ?_⟩
    -- the first burst holds the lines before 3, the second one those from 2 on
    rcases lt_or_ge y 3 with hlt | hge
    · refine ⟨0, by norm_num [overlapSwath], ?_⟩
      norm_num [SubSwathInfo.BurstHolds, overlapSwath]
      exact ⟨by exact_mod_cast h.1, by exact_mod_cast hlt⟩
    · refine ⟨1, by norm_num [overlapSwath], ?_⟩
      norm_num [SubSwathInfo.BurstHolds, overlapSwath]
      exact ⟨by exact_mod_cast (show 2 ≤ y by omega), by exact_mod_cast h.2⟩

theorem overlapSwath_validColumn {x : Int} :
    (overlapSwath firstValid lastValid).ValidColumn x ↔ firstValid ≤ x ∧ (x : ℚ) ≤ lastValid := by
  rw [SubSwathInfo.ValidColumn, overlapSwath_slrTime]
  rfl

theorem overlapSwath_height : (overlapSwath firstValid lastValid).targetHeight = 6 := by
  have hlines : ((overlapSwath firstValid lastValid).lastLineTime -
      (overlapSwath firstValid lastValid).firstLineTime) /
      (overlapSwath firstValid lastValid).azimuthTimeInterval + 1 = ((6 : Int) : ℚ) := by
    norm_num [overlapSwath]
  rw [SubSwathInfo.targetHeight, hlines, stdRound_intCast]

end Example

end Alus.TopsarDeburst
