import Mathlib.Data.Rat.Floor
import Mathlib.Order.Bounds.Basic
import Alus.SnapEngine.UtcElements

/-!
# The time that the elements stand for

`Utc::GetMjd` (`product_data_utc.cc`) counts the elements of a time together again. A count of days
comes back as its last whole microsecond, and writing and reading a time keeps it.
-/

namespace Alus.SnapEngine.UtcElems

open Alus.Lib
open Alus.S1tbx (Calendar)

section Times

variable {R : Type} [Field R]

/-- `Utc::GetMjd`. -/
def getMjd (R : Type) [Field R] (u : UtcElems) : R :=
  u.days + 1 / 86400 * (u.seconds + 1 / 1000000 * u.microseconds)

variable [LinearOrder R] [IsStrictOrderedRing R]

/-- A number of days is a whole number of microseconds, the last one that is not after `mjd`. -/
def IsLastMicrosecond (mjd t : R) : Prop :=
  IsGreatest {s : R | s ≤ mjd ∧ ∃ n : Int, s = n / 86400000000} t

/-- The days in microseconds. -/
theorem getMjd_mul_micros (u : UtcElems) :
    u.getMjd R * 86400000000 = ((u.wholeSeconds * 1000000 + u.microseconds : Int) : R) := by
  unfold getMjd wholeSeconds
  push_cast
  field_simp
  ring

theorem getMjd_eq_time (u : UtcElems) : u.getMjd R = u.time R / 86400 := by
  unfold getMjd time wholeSeconds
  push_cast
  field_simp
  ring

variable [FloorRing R]

/-- The last whole microsecond is found by rounding down. -/
theorem isLastMicrosecond_of_floor {mjd : R} {u : UtcElems}
    (h : u.wholeSeconds * 1000000 + u.microseconds = ⌊mjd * 86400 * 1000000⌋) :
    IsLastMicrosecond mjd (u.getMjd R) := by
  have hday : (0 : R) < 86400000000 := by norm_num
  have hscale : mjd * 86400 * 1000000 = mjd * 86400000000 := by ring
  have hmicros := getMjd_mul_micros (R := R) u
  rw [h, hscale] at hmicros
  apply And.intro
  · show u.getMjd R ≤ mjd ∧ ∃ n : Int, u.getMjd R = n / 86400000000
    apply And.intro
    · apply le_of_mul_le_mul_right _ hday
      rw [hmicros]
      exact Int.floor_le _
    · exact ⟨_, eq_div_of_mul_eq hday.ne' hmicros⟩
  · intro s hs
    cases hs.2 with
    | intro n hn =>
      have hle : (n : R) ≤ mjd * 86400000000 := by
        rw [← div_le_iff₀ hday, ← hn]
        exact hs.1
      rw [hn, div_le_iff₀ hday, hmicros]
      exact_mod_cast Int.le_floor.mpr hle

/-! ## The elements of any count of days -/

omit [IsStrictOrderedRing R] in
/-- The parts that `Utc(double mjd)` takes of a count of days. -/
theorem ofMjd_of_fits {mjd : R} (hfits : Fits 32 (toInt mjd)) :
    ofMjd mjd = .ok (
      let micros := mjd * 86400 * 1000000 - ((toInt (mjd * 86400) * 1000000 : Int) : R)
      let seconds := mjd * 86400 - ((toInt mjd * 86400 : Int) : R)
      if micros < 0 then ⟨toInt mjd, toInt (seconds - 1), toInt (micros + 1000000)⟩
      else ⟨toInt mjd, toInt seconds, toInt micros⟩) := by
  have hmicros := fmod_mul (mjd * 86400) (show (0 : Int) < 1000000 by decide)
  have hseconds := fmod_mul mjd (show (0 : Int) < 86400 by decide)
  rw [Int.cast_ofNat] at hmicros hseconds
  rw [ofMjd, int32_of_fits hfits, Outcome.ok_bind, hmicros, hseconds]
  dsimp only
  split
  · rfl
  · rfl

/-- From the year 2000 on nothing is carried. -/
theorem ofMjd_of_nonneg {mjd : R} (h : 0 ≤ mjd) (hfits : Fits 32 (toInt mjd)) :
    ofMjd mjd = .ok ⟨⌊mjd⌋, ⌊mjd * 86400⌋ - ⌊mjd⌋ * 86400,
      ⌊mjd * 86400 * 1000000⌋ - ⌊mjd * 86400⌋ * 1000000⟩ := by
  have hmicros : 0 ≤ mjd * 86400 * 1000000 - ((⌊mjd * 86400⌋ * 1000000 : Int) : R) := by
    have hfloor := Int.floor_le (mjd * 86400)
    push_cast
    linarith
  have hseconds : 0 ≤ mjd * 86400 - ((⌊mjd⌋ * 86400 : Int) : R) := by
    have hfloor := Int.floor_le mjd
    push_cast
    linarith
  have hday : toInt mjd = ⌊mjd⌋ := toInt_of_nonneg h
  have hsecond : toInt (mjd * 86400) = ⌊mjd * 86400⌋ := toInt_of_nonneg (by positivity)
  rw [ofMjd_of_fits hfits, hday, hsecond]
  dsimp only
  rw [if_neg (not_lt.mpr hmicros), toInt_of_nonneg hmicros, toInt_of_nonneg hseconds,
    Int.floor_sub_intCast, Int.floor_sub_intCast]

/-- Before the year 2000 the seconds and the days are rounded up, and what is left of a second
below zero is carried. -/
theorem ofMjd_of_neg {mjd : R} (h : mjd < 0) (hfits : Fits 32 (toInt mjd)) :
    ofMjd mjd = .ok (if mjd * 86400 < ⌈mjd * 86400⌉ then
      ⟨⌈mjd⌉, ⌈mjd * 86400⌉ - ⌈mjd⌉ * 86400 - 1,
        ⌊mjd * 86400 * 1000000⌋ - ⌈mjd * 86400⌉ * 1000000 + 1000000⟩
      else ⟨⌈mjd⌉, ⌈mjd * 86400⌉ - ⌈mjd⌉ * 86400,
        ⌊mjd * 86400 * 1000000⌋ - ⌈mjd * 86400⌉ * 1000000⟩) := by
  -- the conversions to `int` round a negative number up
  have hday : toInt mjd = ⌈mjd⌉ := toInt_of_nonpos h.le
  have hsecond : toInt (mjd * 86400) = ⌈mjd * 86400⌉ := toInt_of_nonpos (by linarith)
  have hupper := Int.ceil_lt_add_one (mjd * 86400)
  have hseconds : mjd * 86400 - ((⌈mjd⌉ * 86400 : Int) : R) ≤ 0 := by
    have hle := Int.le_ceil mjd
    push_cast
    linarith
  have hmicros : mjd * 86400 * 1000000 - ((⌈mjd * 86400⌉ * 1000000 : Int) : R) < 0 ↔
      mjd * 86400 < ⌈mjd * 86400⌉ := by
    push_cast
    rw [sub_neg, mul_lt_mul_iff_left₀ (by norm_num)]
  rw [ofMjd_of_fits hfits, hday, hsecond]
  dsimp only
  -- a second is carried unless the number of seconds is whole
  by_cases hless : mjd * 86400 < ⌈mjd * 86400⌉
  · have hcarried :
        0 ≤ mjd * 86400 * 1000000 - ((⌈mjd * 86400⌉ * 1000000 : Int) : R) + 1000000 := by
      push_cast
      linarith
    have hsplit : mjd * 86400 * 1000000 - ((⌈mjd * 86400⌉ * 1000000 : Int) : R) + 1000000 =
        mjd * 86400 * 1000000 - ((⌈mjd * 86400⌉ * 1000000 - 1000000 : Int) : R) := by
      push_cast
      ring
    rw [if_pos (hmicros.mpr hless), if_pos hless, toInt_of_nonneg hcarried, hsplit,
      Int.floor_sub_intCast, toInt_of_nonpos (by linarith), Int.ceil_sub_one,
      Int.ceil_sub_intCast, sub_sub_eq_add_sub, add_sub_right_comm]
  · have hwhole : mjd * 86400 = ⌈mjd * 86400⌉ := le_antisymm (Int.le_ceil _) (not_lt.mp hless)
    have hrest : mjd * 86400 * 1000000 - ((⌈mjd * 86400⌉ * 1000000 : Int) : R) = 0 := by
      push_cast
      linarith
    have hfloor : ⌊mjd * 86400 * 1000000⌋ = ⌈mjd * 86400⌉ * 1000000 := by
      rw [sub_eq_zero.mp hrest, Int.floor_intCast]
    rw [if_neg (mt hmicros.mp hless), if_neg hless, hrest, hfloor, sub_self,
      toInt_of_nonpos hseconds, Int.ceil_sub_intCast, toInt_of_nonpos le_rfl, Int.ceil_zero]

/-- The elements count the last whole microsecond, before the year 2000 too. -/
theorem exists_ofMjd_floor {mjd : R} (hfits : Fits 32 (toInt mjd)) :
    ∃ u, ofMjd mjd = .ok u ∧
      u.wholeSeconds * 1000000 + u.microseconds = ⌊mjd * 86400 * 1000000⌋ := by
  cases le_or_gt 0 mjd with
  | inl h =>
    refine ⟨_, ofMjd_of_nonneg h hfits, ?_⟩
    unfold wholeSeconds
    ring
  | inr h =>
    refine ⟨_, ofMjd_of_neg h hfits, ?_⟩
    unfold wholeSeconds
    split
    · ring
    · ring

end Times

/-! ## Times that are written and read -/

/-- A time is kept by writing and reading it, and a count of days up to the microsecond. -/
def KeepsTimes (R : Type) [Field R] [LinearOrder R] [IsStrictOrderedRing R] [FloorRing R]
    {calendar : Calendar} (facet : DateFormatIn calendar) (days : Set R) : Prop :=
  (∀ u : UtcElems, 0 ≤ u.seconds → u.seconds < 86400 → u.IsFraction →
    InCalendar (u.days * 86400) →
    ∃ u', (u.format calendar >>= parse facet) = .ok u' ∧ u'.getMjd R = u.getMjd R) ∧
  ∀ mjd ∈ days, ∃ u, ofMjd mjd = .ok u ∧ IsLastMicrosecond mjd (u.getMjd R)

theorem keepsTimes {R : Type} [Field R] [LinearOrder R] [IsStrictOrderedRing R] [FloorRing R]
    {calendar : Calendar} (facet : DateFormatIn calendar) :
    KeepsTimes R facet {mjd | Fits 32 (toInt mjd)} := by
  apply And.intro
  · intro u hseconds hless hfraction hday
    have hcalendar : InCalendar u.wholeSeconds := by
      unfold InCalendar wholeSeconds at *
      omega
    refine ⟨u.resplit, parse_format facet hcalendar hfraction, ?_⟩
    rw [getMjd_eq_time, getMjd_eq_time, resplit_time]
  · intro mjd hfits
    have hread := exists_ofMjd_floor (show Fits 32 (toInt mjd) from hfits)
    cases hread with
    | intro u hu => exact ⟨u, hu.1, isLastMicrosecond_of_floor hu.2⟩

/-- The days by strokes. -/
def dayTallies : Calendar where
  text day :=
    if 0 ≤ day then List.replicate day.toNat '|' else '-' :: List.replicate (-day).toNat '|'
  no_blank day h := by
    split at h
    · exact absurd (List.eq_of_mem_replicate h) (by decide)
    · cases h with
      | tail _ h => exact absurd (List.eq_of_mem_replicate h) (by decide)

theorem dayTallies_injective : Function.Injective dayTallies.text := by
  intro day day' h
  have hlength := congrArg List.length h
  have hsign := congrArg (fun text => '-' ∈ text) h
  unfold dayTallies at hlength hsign
  dsimp only at hlength hsign
  split at hlength
  · split at hlength
    · simp at hlength
      omega
    · simp [List.mem_replicate, *] at hsign
  · split at hlength
    · simp [List.mem_replicate, *] at hsign
    · simp at hlength
      omega

/-- A time of the last day of 1999, and a third of a day before the year 2000. -/
theorem keepsTimes_1999 : ∃ facet : DateFormatIn dayTallies,
    (∃ u', ((UtcElems.mk (-1) 86399 5).format dayTallies >>= parse facet) = .ok u' ∧
      u'.getMjd ℚ = (UtcElems.mk (-1) 86399 5).getMjd ℚ) ∧
    ∃ u, ofMjd (-1 / 3 : ℚ) = .ok u ∧ IsLastMicrosecond (-1 / 3) (u.getMjd ℚ) :=
  (nonempty_dateFormatIn dayTallies_injective).elim fun facet =>
    ⟨facet, (keepsTimes facet).1 ⟨-1, 86399, 5⟩ (by decide) (by decide) ⟨by decide, by decide⟩
      (by decide),
      (keepsTimes facet).2 (-1 / 3) (show Fits 32 (toInt (-1 / 3 : ℚ)) by decide +kernel)⟩

/-- The whole days do not always fit an `int`. -/
theorem not_keepsTimes_far : ¬ ∀ {calendar : Calendar} (facet : DateFormatIn calendar),
    KeepsTimes ℚ facet Set.univ := by
  intro h
  apply (nonempty_dateFormatIn dayTallies_injective).elim
  intro facet
  have hread := (h facet).2 2147483648 (Set.mem_univ _)
  have hfar : toInt (2147483648 : ℚ) = 2147483648 := toInt_intCast (T := ℚ) 2147483648
  cases hread with
  | intro u hu =>
    rw [ofMjd, hfar, int32_of_not_fits (by decide)] at hu
    cases hu.1

end Alus.SnapEngine.UtcElems
