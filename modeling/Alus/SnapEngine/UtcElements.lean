import Mathlib.Tactic.FieldSimp
import Mathlib.Tactic.LinearCombination
import Alus.Etad.Text
import Alus.Lib.Rounding
import Alus.S1tbx.DateUtils

/-!
# The elements of a time

A `Utc` (`product_data_utc.cc`) is made of a count of days, split into days, seconds and
microseconds by truncation, or parsed from a text. `Utc::Format` writes the elements in the
calendar's range.

The arithmetic is exact. How the calendar's dates are written and read is a parameter.
-/

namespace Alus.SnapEngine

open Alus.Lib
open Alus.Etad (stoi stoi_digits)
open Alus.S1tbx (Calendar decimalValue decimalValue_digitsOf digitsOf length_digitsOf
  splitOn_append)
open Outcome (require)

/-- The elements of a `Utc`, as read by `GetDaysFraction` and the like. -/
structure UtcElems where
  days : Int
  seconds : Int
  microseconds : Int
  deriving DecidableEq

/-- The time of the day in whole seconds, `%H:%M:%S`. -/
def clockText (second : Nat) : List Char :=
  digitsOf 2 (second / 3600) ++ ':' :: (digitsOf 2 (second / 60 % 60) ++
    ':' :: digitsOf 2 (second % 60))

/-- The whole seconds from the year 2000 on that the calendar has dates for. -/
def InCalendar (second : Int) : Prop := -219145 ≤ second / 86400 ∧ second / 86400 ≤ 2921939

instance (second : Int) : Decidable (InCalendar second) := inferInstanceAs (Decidable (_ ∧ _))

/-- A date and a time of the day in the calendar. -/
def dateTimeText (calendar : Calendar) (second : Int) : List Char :=
  calendar.text (second / 86400) ++ ' ' :: clockText (second % 86400).toNat

/-- The input facet, which reads what the output facet has written. -/
structure DateFormatIn (calendar : Calendar) where
  read : List Char → Option Int
  read_written : ∀ second, InCalendar second →
    read (dateTimeText calendar second) = some second

/-! ## Dates that can be read -/

/-- Two digits tell numbers below a hundred apart. -/
theorem digitsOf_two_inj {m n : Nat} (hm : m < 100) (hn : n < 100)
    (h : digitsOf 2 m = digitsOf 2 n) : m = n := by
  have hvalue := congrArg decimalValue h
  rw [decimalValue_digitsOf, decimalValue_digitsOf] at hvalue
  omega

/-- Times of the day have different texts. -/
theorem clockText_inj {m n : Nat} (hm : m < 86400) (hn : n < 86400)
    (h : clockText m = clockText n) : m = n := by
  unfold clockText at h
  obtain ⟨hhours, hrest⟩ := List.append_inj h (by rw [length_digitsOf, length_digitsOf])
  obtain ⟨hminutes, hseconds⟩ := List.append_inj (List.cons.inj hrest).2
    (by rw [length_digitsOf, length_digitsOf])
  have h1 := digitsOf_two_inj (by omega) (by omega) hhours
  have h2 := digitsOf_two_inj (by omega) (by omega) hminutes
  have h3 := digitsOf_two_inj (by omega) (by omega) (List.cons.inj hseconds).2
  omega

/-- Where the days of the calendar have different texts, what is written can be read. -/
theorem nonempty_dateFormatIn {calendar : Calendar} (hdays : Function.Injective calendar.text) :
    Nonempty (DateFormatIn calendar) := by
  classical
  have hinjective : Function.Injective (dateTimeText calendar) := by
    intro second second' h
    have hcut := congrArg (List.splitOn ' ') h
    unfold dateTimeText at h hcut
    rw [splitOn_append (calendar.no_blank _), splitOn_append (calendar.no_blank _)] at hcut
    have htext := (List.cons.inj hcut).1
    rw [htext] at h
    have hday := hdays htext
    have hclock := clockText_inj (by omega) (by omega)
      (List.cons.inj (List.append_cancel_left h)).2
    omega
  refine ⟨fun text => if h : ∃ second, dateTimeText calendar second = text then
    some h.choose else none, fun second _ => ?_⟩
  have h : ∃ second', dateTimeText calendar second' = dateTimeText calendar second := ⟨second, rfl⟩
  show (if h : ∃ second', dateTimeText calendar second' = dateTimeText calendar second then
    some h.choose else none) = some second
  rw [dif_pos h]
  exact congrArg some (hinjective h.choose_spec)

namespace UtcElems

section Computation

variable {R : Type} [Field R] [LinearOrder R] [FloorRing R]

/-- `Utc(double mjd)`. -/
def ofMjd (mjd : R) : Outcome UtcElems := do
  let microSeconds := fmod (mjd * 86400 * 1000000) 1000000
  let seconds := fmod (mjd * 86400) 86400
  let days ← int32 (toInt mjd)
  -- handle date prior to year 2000
  if microSeconds < 0 then return ⟨days, toInt (seconds - 1), toInt (microSeconds + 1000000)⟩
  else return ⟨days, toInt seconds, toInt microSeconds⟩

end Computation

variable (u : UtcElems)

/-- The whole seconds from the year 2000 on. -/
def wholeSeconds : Int := u.days * 86400 + u.seconds

/-- The time in seconds from the year 2000 on. -/
def time (R : Type) [Field R] : R := u.wholeSeconds + u.microseconds / 1000000

/-- `Utc::Format`. There is no date outside the calendar. -/
def format (calendar : Calendar) : Outcome (List Char) := do
  require (InCalendar u.wholeSeconds)
  let microsString := (toString u.microseconds).toList
  return dateTimeText calendar u.wholeSeconds ++
    '.' :: (List.replicate (6 - microsString.length) '0' ++ microsString)

/-- `Utc::Create`, of a date and time and microseconds. -/
def create (dateTime micros : Int) : UtcElems :=
  let diff := dateTime * 1000
  let days := diff.tdiv 86400000
  let seconds := (diff - days * 86400000).tdiv 1000
  ⟨days, seconds, micros⟩

/-- `Utc::Parse`. -/
def parse {calendar : Calendar} (facet : DateFormatIn calendar) (text : List Char) :
    Outcome UtcElems := do
  require (text ≠ [])
  let fractionString := (text.reverse.takeWhile (· ≠ '.')).reverse
  let noFractionString := ((text.reverse.dropWhile (· ≠ '.')).drop 1).reverse
  if '.' ∈ text then do
    require (fractionString.length ≤ 6)
    let (micros, _) ← stoi (String.ofList fractionString)
    match facet.read noFractionString with
    | some date => return create date (micros * 10 ^ (6 - fractionString.length))
    | none => .throws
  else
    match facet.read text with
    | some date => return create date 0
    | none => .throws

/-- The microseconds are less than a second. -/
def IsFraction : Prop := 0 ≤ u.microseconds ∧ u.microseconds < 1000000

/-- The same time, with its whole seconds split by truncation. -/
def resplit : UtcElems := ⟨u.wholeSeconds.tdiv 86400, u.wholeSeconds.tmod 86400, u.microseconds⟩

/-! ## Splitting a count of days -/

section Split

variable {R : Type} [Field R]

theorem resplit_wholeSeconds : u.resplit.wholeSeconds = u.wholeSeconds := by
  show u.wholeSeconds.tdiv 86400 * 86400 + u.wholeSeconds.tmod 86400 = u.wholeSeconds
  rw [Int.mul_comm]
  exact Int.mul_tdiv_add_tmod _ _

theorem resplit_time : u.resplit.time R = u.time R := by
  unfold time
  rw [resplit_wholeSeconds]
  rfl

variable [LinearOrder R] [FloorRing R] [IsStrictOrderedRing R]

/-- The elements of a whole number of microseconds, by truncated quotients. -/
theorem ofMjd_eq {mjd : R} {n : Int} (hn : mjd * 86400 * 1000000 = n)
    (hfits : Fits 32 (n.tdiv 86400000000)) :
    ofMjd mjd = .ok (if n.tmod 1000000 < 0 then ⟨n.tdiv 86400000000,
        (n.tmod 86400000000 - 1000000).tdiv 1000000, n.tmod 1000000 + 1000000⟩
      else ⟨n.tdiv 86400000000, (n.tmod 86400000000).tdiv 1000000, n.tmod 1000000⟩) := by
  -- each of the three remainders is one of whole microseconds
  have hmicros : fmod (mjd * 86400 * 1000000) 1000000 = ((n.tmod 1000000 : Int) : R) := by
    have h := fmod_div (T := R) n (show (0 : Int) < 1000000 by decide)
      (show (0 : Int) < 1 by decide)
    rw [Int.cast_one, div_one, div_one, Int.mul_one, ← hn] at h
    exact_mod_cast h
  have hseconds :
      fmod (mjd * 86400) 86400 = ((n.tmod 86400000000 : Int) : R) / (1000000 : Int) := by
    have h := fmod_div (T := R) n (show (0 : Int) < 86400 by decide)
      (show (0 : Int) < 1000000 by decide)
    rw [← hn] at h
    push_cast at h ⊢
    rwa [mul_div_cancel_right₀ _ (by norm_num : (1000000 : R) ≠ 0)] at h
  have hdays : toInt mjd = n.tdiv 86400000000 := by
    rw [← toInt_div (T := R) n (show (0 : Int) < 86400000000 by decide), ← hn]
    refine congrArg toInt ?_
    push_cast
    rw [eq_div_iff (by norm_num), mul_assoc]
    norm_num
  have hcarry : ((n.tmod 86400000000 : Int) : R) / (1000000 : Int) - 1 =
      ((n.tmod 86400000000 - 1000000 : Int) : R) / (1000000 : Int) := by
    push_cast
    rw [sub_div, div_self (by norm_num : (1000000 : R) ≠ 0)]
  have hsum : ((n.tmod 1000000 : Int) : R) + 1000000 = ((n.tmod 1000000 + 1000000 : Int) : R) := by
    push_cast
    rfl
  rw [ofMjd, hdays, int32_of_fits hfits, Outcome.ok_bind, hmicros, hseconds, hcarry, hsum,
    toInt_div _ (by decide), toInt_div _ (by decide), toInt_intCast, toInt_intCast]
  by_cases hneg : n.tmod 1000000 < 0
  · rw [if_pos hneg, if_pos (by exact_mod_cast hneg)]
    rfl
  · rw [if_neg hneg, if_neg (by exact_mod_cast hneg)]
    rfl

/-- The elements of `n` microseconds. -/
structure Splits (n : Int) : Prop where
  fraction : u.IsFraction
  total : u.wholeSeconds * 1000000 + u.microseconds = n
  resplit : 0 ≤ n → u.resplit = u

/-- A whole number of microseconds is split without a loss. -/
theorem exists_ofMjd {mjd : R} {n : Int} (hn : mjd * 86400 * 1000000 = n)
    (hfits : Fits 32 (n.tdiv 86400000000)) : ∃ u, ofMjd mjd = .ok u ∧ u.Splits n := by
  refine ⟨_, ofMjd_eq hn hfits, ?_⟩
  rcases le_or_gt 0 n with h | h
  · have hmicros : n.tmod 1000000 = n % 1000000 := Int.tmod_eq_emod_of_nonneg h
    have hrest : n.tmod 86400000000 = n % 86400000000 := Int.tmod_eq_emod_of_nonneg h
    have hdays : n.tdiv 86400000000 = n / 86400000000 := Int.tdiv_eq_ediv_of_nonneg h
    have hseconds : (n % 86400000000).tdiv 1000000 = n % 86400000000 / 1000000 :=
      Int.tdiv_eq_ediv_of_nonneg (by omega)
    rw [hmicros, if_neg (by omega), hrest, hdays, hseconds]
    refine ⟨⟨?_, ?_⟩, ?_, fun _ => ?_⟩
    · show 0 ≤ n % 1000000
      omega
    · show n % 1000000 < 1000000
      omega
    · show (n / 86400000000 * 86400 + n % 86400000000 / 1000000) * 1000000 + n % 1000000 = n
      omega
    · have hwhole : n / 86400000000 * 86400 + n % 86400000000 / 1000000 = n / 1000000 := by omega
      show UtcElems.mk ((n / 86400000000 * 86400 + n % 86400000000 / 1000000).tdiv 86400)
        ((n / 86400000000 * 86400 + n % 86400000000 / 1000000).tmod 86400) _ = _
      rw [hwhole, Int.tdiv_eq_ediv_of_nonneg (by omega), Int.tmod_eq_emod_of_nonneg (by omega)]
      refine congrArg₂ (fun days seconds => UtcElems.mk days seconds _) ?_ ?_
      · omega
      · omega
  -- the quotients of the negated number, with a second carried
  · have hneg : n = -(-n) := (neg_neg n).symm
    have hmicros : n.tmod 1000000 = -(-n % 1000000) := by
      rw [hneg, Int.neg_tmod, Int.tmod_eq_emod_of_nonneg (by omega), neg_neg]
    have hrest : n.tmod 86400000000 = -(-n % 86400000000) := by
      rw [hneg, Int.neg_tmod, Int.tmod_eq_emod_of_nonneg (by omega), neg_neg]
    have hdays : n.tdiv 86400000000 = -(-n / 86400000000) := by
      rw [hneg, Int.neg_tdiv, Int.tdiv_eq_ediv_of_nonneg (by omega), neg_neg]
    have hseconds : (-(-n % 86400000000)).tdiv 1000000 = -(-n % 86400000000 / 1000000) := by
      rw [Int.neg_tdiv, Int.tdiv_eq_ediv_of_nonneg (by omega)]
    have hcarry : (-(-n % 86400000000) - 1000000).tdiv 1000000 =
        -((-n % 86400000000 + 1000000) / 1000000) := by
      rw [← neg_add', Int.neg_tdiv, Int.tdiv_eq_ediv_of_nonneg (by omega)]
    rw [hmicros, hrest, hdays, hseconds, hcarry]
    split
    · refine ⟨⟨?_, ?_⟩, ?_, fun hle => absurd h (not_lt.mpr hle)⟩
      · show 0 ≤ -(-n % 1000000) + 1000000
        omega
      · show -(-n % 1000000) + 1000000 < 1000000
        omega
      · show (-(-n / 86400000000) * 86400 + -((-n % 86400000000 + 1000000) / 1000000)) * 1000000 +
          (-(-n % 1000000) + 1000000) = n
        omega
    · refine ⟨⟨?_, ?_⟩, ?_, fun hle => absurd h (not_lt.mpr hle)⟩
      · show 0 ≤ -(-n % 1000000)
        omega
      · show -(-n % 1000000) < 1000000
        omega
      · show (-(-n / 86400000000) * 86400 + -(-n % 86400000000 / 1000000)) * 1000000 +
          -(-n % 1000000) = n
        omega

end Split

/-! ## Writing and reading -/

section Texts

variable {u} {calendar : Calendar}

/-- The text is cut at its last point. -/
theorem fraction_of_append {before fraction : List Char} (h : '.' ∉ fraction) :
    (((before ++ '.' :: fraction).reverse.takeWhile (· ≠ '.')).reverse = fraction) ∧
      ((((before ++ '.' :: fraction).reverse.dropWhile (· ≠ '.')).drop 1).reverse = before) := by
  have hall : ∀ c ∈ fraction.reverse, (decide (c ≠ '.')) = true := fun c hc =>
    decide_eq_true fun hsame => h (hsame ▸ List.mem_reverse.mp hc)
  have hreverse : (before ++ '.' :: fraction).reverse =
      fraction.reverse ++ '.' :: before.reverse := by
    rw [List.reverse_append, List.reverse_cons, List.append_assoc]
    rfl
  rw [hreverse, List.takeWhile_append_of_pos hall, List.dropWhile_append_of_pos hall,
    List.takeWhile_cons_of_neg (by decide), List.dropWhile_cons_of_neg (by decide)]
  simp

/-- Six digits, filled with zeros, are read as the microseconds they are written for. -/
theorem stoi_padded {n : Nat} (hn : n < 1000000) :
    stoi (String.ofList (List.replicate (6 - (Nat.toDigits 10 n).length) '0' ++
      Nat.toDigits 10 n)) = .ok ((n : Int), 6) := by
  have hlength : (Nat.toDigits 10 n).length ≤ 6 :=
    (Nat.length_toDigits_le_iff (by decide) (by decide)).mpr hn
  have hvalue : Nat.ofDigitChars 10 (List.replicate (6 - (Nat.toDigits 10 n).length) '0' ++
      Nat.toDigits 10 n) 0 = n := by
    rw [Nat.ofDigitChars_append, Nat.ofDigitChars_replicate_zero, Nat.mul_zero,
      Nat.ofDigitChars_ten_toDigits]
  have hdigits : ∀ c ∈ List.replicate (6 - (Nat.toDigits 10 n).length) '0' ++ Nat.toDigits 10 n,
      c.isDigit = true := by
    intro c hc
    cases List.mem_append.mp hc with
    | inl hzero => rw [List.eq_of_mem_replicate hzero]; decide
    | inr hdigit => exact Nat.isDigit_of_mem_toDigits (by decide) (by decide) hdigit
  have hread := stoi_digits (List.append_ne_nil_of_right_ne_nil _ Nat.toDigits_ne_nil) hdigits
    String.toList_ofList (by omega)
  rwa [hvalue, List.length_append, List.length_replicate, Nat.sub_add_cancel hlength] at hread

/-- What is written of a time in the calendar is read as the same time. -/
theorem parse_format (facet : DateFormatIn calendar) (hcalendar : InCalendar u.wholeSeconds)
    (hfraction : u.IsFraction) : (u.format calendar >>= parse facet) = .ok u.resplit := by
  obtain ⟨n, hmicros⟩ := Int.eq_ofNat_of_zero_le hfraction.1
  have hn : n < 1000000 := by
    have := hfraction.2
    omega
  have hlength : (Nat.toDigits 10 n).length ≤ 6 :=
    (Nat.length_toDigits_le_iff (by decide) (by decide)).mpr hn
  have htext : (toString u.microseconds).toList = Nat.toDigits 10 n := by
    rw [hmicros]
    exact Nat.toList_repr
  let digits := List.replicate (6 - (Nat.toDigits 10 n).length) '0' ++ Nat.toDigits 10 n
  have hdigits : digits.length = 6 := by
    rw [List.length_append, List.length_replicate, Nat.sub_add_cancel hlength]
  have hpoint : '.' ∉ digits := by
    intro hmem
    cases List.mem_append.mp hmem with
    | inl hzero => exact absurd (List.eq_of_mem_replicate hzero) (by decide)
    | inr hdigit =>
      exact absurd (Nat.isDigit_of_mem_toDigits (by decide) (by decide) hdigit) (by decide)
  let before := dateTimeText calendar u.wholeSeconds
  have hcut : ((before ++ '.' :: digits).reverse.takeWhile (· ≠ '.')).reverse = digits ∧
      (((before ++ '.' :: digits).reverse.dropWhile (· ≠ '.')).drop 1).reverse = before :=
    fraction_of_append hpoint
  rw [format, Outcome.require_of hcalendar, Outcome.ok_bind, htext]
  show parse facet (before ++ '.' :: digits) = .ok u.resplit
  rw [parse, Outcome.require_of (List.append_ne_nil_of_right_ne_nil _ (List.cons_ne_nil _ _)),
    Outcome.ok_bind]
  dsimp only
  rw [if_pos (by simp), hcut.1, hcut.2, hdigits, Outcome.require_of (le_refl 6), Outcome.ok_bind,
    stoi_padded hn, Outcome.ok_bind, facet.read_written _ hcalendar]
  dsimp only
  rw [Nat.sub_self, pow_zero, mul_one, ← hmicros]
  -- the milliseconds of whole seconds are split as the seconds are
  have hdays : (u.wholeSeconds * 1000).tdiv 86400000 = u.wholeSeconds.tdiv 86400 :=
    Int.mul_tdiv_mul_of_pos_left _ 86400 (by decide)
  have hseconds : (u.wholeSeconds * 1000 - u.wholeSeconds.tdiv 86400 * 86400000).tdiv 1000 =
      u.wholeSeconds.tmod 86400 := by
    rw [show u.wholeSeconds * 1000 - u.wholeSeconds.tdiv 86400 * 86400000 =
      (u.wholeSeconds - 86400 * u.wholeSeconds.tdiv 86400) * 1000 by ring, ← Int.tmod_def,
      Int.mul_tdiv_cancel _ (by decide)]
  refine congrArg Outcome.ok ?_
  show UtcElems.mk ((u.wholeSeconds * 1000).tdiv 86400000)
    ((u.wholeSeconds * 1000 - (u.wholeSeconds * 1000).tdiv 86400000 * 86400000).tdiv 1000) _ = _
  rw [hdays, hseconds]
  rfl

end Texts

end UtcElems

end Alus.SnapEngine
