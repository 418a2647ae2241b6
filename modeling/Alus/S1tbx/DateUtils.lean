import Mathlib.Algebra.Order.Floor.Ring
import Mathlib.Data.List.TakeWhile
import Mathlib.Tactic.FieldSimp
import Mathlib.Tactic.IntervalCases
import Mathlib.Tactic.Ring
import Alus.Lib.Machine
import Alus.Lib.Numerals

/-!
# Times and seconds of the day

A `Utc` counts days, seconds and microseconds from the year 2000 on. `Utc::Format`
(`product_data_utc.cc`) writes it as a date and a time of the day, and
`DateUtils::DateTimeToSecOfDay` (`date_utils.cc`) reads the second of the day from what is written.

The arithmetic is exact.
-/

namespace Alus.S1tbx

open Alus.Lib

/-- `Utc`, in the range of the calendar. -/
structure Utc where
  days : Int
  seconds : Int
  microseconds : Nat
  microseconds_lt : microseconds < 1000000
  in_calendar : -219145 ≤ (days * 86400 + seconds) / 86400 ∧
    (days * 86400 + seconds) / 86400 ≤ 2921939

theorem wholeSecond_lt : 0 < 1000000 := by decide

theorem epoch_in_calendar : -219145 ≤ ((0 : Int) * 86400 + 0) / 86400 ∧
    ((0 : Int) * 86400 + 0) / 86400 ≤ 2921939 := by
  decide

/-- The texts of the calendar's days, in capital letters. -/
structure Calendar where
  text : Int → List Char
  no_blank : ∀ day, ' ' ∉ text day

/-! ## Texts of times -/

/-- The last digits of a number, filled with zeros. -/
def digitsOf : Nat → Nat → List Char
  | 0, _ => []
  | width + 1, n => digitsOf width (n / 10) ++ [Char.ofNat (48 + n % 10)]

/-- The time of the day that `Format` writes: `%H:%M:%S` and the microseconds. -/
def timeText (second microseconds : Nat) : List Char :=
  digitsOf 2 (second / 3600) ++ ':' :: (digitsOf 2 (second / 60 % 60) ++
    ':' :: (digitsOf 2 (second % 60) ++ '.' :: digitsOf 6 microseconds))

namespace Utc

variable (u : Utc)

/-- The days from the year 2000 on. -/
def day : Int := (u.days * 86400 + u.seconds) / 86400

/-- The whole seconds of the day. -/
def second : Int := (u.days * 86400 + u.seconds) % 86400

/-- `Utc::Format`, which is what `ToString` returns. -/
def format (calendar : Calendar) : List Char :=
  calendar.text u.day ++ ' ' :: timeText u.second.toNat u.microseconds

end Utc

section Reading

variable {R : Type} [Field R]

/-- The number that digits are written for. -/
def decimalValue (digits : List Char) : Nat := digits.foldl (fun n c => 10 * n + (c.toNat - 48)) 0

/-- The digits after a decimal point. -/
def fractionDigits : List Char → List Char
  | '.' :: rest => rest.takeWhile Char.isDigit
  | _ => []

/-- `std::stod` of digits with a fraction. -/
def stod (text : List Char) : Outcome R :=
  let whole := text.takeWhile Char.isDigit
  let fraction := fractionDigits (text.dropWhile Char.isDigit)
  if whole = [] then .throws
  else .ok (decimalValue whole + decimalValue fraction / 10 ^ fraction.length)

/-- `DateUtils::DateTimeToSecOfDay`. -/
def dateTimeToSecOfDay (dateTime : List Char) : Outcome R := do
  -- the date before the blank is not read
  let timeHrsMinSec ← vectorAt (dateTime.splitOn ' ') 1
  let parts := timeHrsMinSec.splitOn ':'
  let timeHrs ← vectorAt parts 0
  let timeMin ← vectorAt parts 1
  let timeSec ← vectorAt parts 2
  let hours ← stod timeHrs
  let minutes ← stod timeMin
  let seconds ← stod timeSec
  return hours * 3600 + minutes * 60 + seconds

namespace Utc

variable (u : Utc)

/-- `Utc::GetMjd`. -/
def getMjd : R := u.days + 1 / 86400 * (u.seconds + 1 / 1000000 * (u.microseconds : Nat))

/-- The time in seconds from the year 2000 on. -/
def time : R := u.days * 86400 + u.seconds + (u.microseconds : Nat) / 1000000

/-- The second of the day. -/
def secOfDay : R := u.second + (u.microseconds : Nat) / 1000000

end Utc

end Reading

/-! ## Digits -/

section Digits

theorem digit_spec {d : Nat} (hd : d < 10) :
    (Char.ofNat (48 + d)).isDigit = true ∧ (Char.ofNat (48 + d)).toNat = 48 + d := by
  interval_cases d <;> decide

theorem length_digitsOf (width n : Nat) : (digitsOf width n).length = width := by
  induction width generalizing n with
  | zero => rfl
  | succ width ih => rw [digitsOf, List.length_append, ih, List.length_singleton]

theorem digitsOf_ne_nil {width : Nat} (h : 0 < width) (n : Nat) : digitsOf width n ≠ [] := by
  apply List.ne_nil_of_length_pos
  rw [length_digitsOf]
  exact h

theorem isDigit_of_mem_digitsOf {width n : Nat} {c : Char} (hc : c ∈ digitsOf width n) :
    c.isDigit = true := by
  induction width generalizing n with
  | zero => cases hc
  | succ width ih =>
    rw [digitsOf, List.mem_append, List.mem_singleton] at hc
    cases hc with
    | inl hc => exact ih hc
    | inr hc => exact hc ▸ (digit_spec (Nat.mod_lt n (by decide))).1

/-- What the digits are written for. -/
theorem decimalValue_digitsOf (width n : Nat) :
    decimalValue (digitsOf width n) = n % 10 ^ width := by
  induction width generalizing n with
  | zero =>
    rw [pow_zero, Nat.mod_one]
    rfl
  | succ width ih =>
    have hlast := (digit_spec (Nat.mod_lt n (show 0 < 10 by decide))).2
    have hvalue : decimalValue (digitsOf (width + 1) n) =
        10 * decimalValue (digitsOf width (n / 10)) + n % 10 := by
      unfold decimalValue
      rw [digitsOf, List.foldl_append, List.foldl_cons, List.foldl_nil, hlast,
        Nat.add_sub_cancel_left]
    rw [hvalue, ih, pow_succ', Nat.mod_mul]
    ring

variable {R : Type} [Field R]

/-- A number of one digit at least is read. -/
theorem stod_digitsOf {width n : Nat} (hwidth : 0 < width) (hn : n < 10 ^ width) :
    (stod (digitsOf width n) : Outcome R) = .ok n := by
  have hall : ∀ c ∈ digitsOf width n, c.isDigit = true := fun c hc => isDigit_of_mem_digitsOf hc
  have hne := digitsOf_ne_nil hwidth n
  unfold stod
  dsimp only
  rw [List.takeWhile_eq_self_iff.mpr hall, List.dropWhile_eq_nil_iff.mpr hall, if_neg hne,
    decimalValue_digitsOf, Nat.mod_eq_of_lt hn]
  simp [decimalValue, fractionDigits]

/-- So is one with a fraction. -/
theorem stod_digitsOf_fraction {width n places m : Nat} (hwidth : 0 < width)
    (hn : n < 10 ^ width) (hm : m < 10 ^ places) :
    (stod (digitsOf width n ++ '.' :: digitsOf places m) : Outcome R) =
      .ok (n + m / 10 ^ places) := by
  have hall : ∀ c ∈ digitsOf width n, c.isDigit = true := fun c hc => isDigit_of_mem_digitsOf hc
  have hplaces : ∀ c ∈ digitsOf places m, c.isDigit = true :=
    fun c hc => isDigit_of_mem_digitsOf hc
  have hne := digitsOf_ne_nil hwidth n
  have htake : (digitsOf width n ++ '.' :: digitsOf places m).takeWhile Char.isDigit =
      digitsOf width n := by
    rw [List.takeWhile_append_of_pos hall, List.takeWhile_cons_of_neg (by decide),
      List.append_nil]
  have hdrop : (digitsOf width n ++ '.' :: digitsOf places m).dropWhile Char.isDigit =
      '.' :: digitsOf places m := by
    rw [List.dropWhile_append_of_pos hall, List.dropWhile_cons_of_neg (by decide)]
  have hfraction : fractionDigits ('.' :: digitsOf places m) = digitsOf places m :=
    List.takeWhile_eq_self_iff.mpr hplaces
  unfold stod
  rw [htake, hdrop, hfraction]
  dsimp only
  rw [if_neg hne, length_digitsOf, decimalValue_digitsOf, decimalValue_digitsOf,
    Nat.mod_eq_of_lt hn, Nat.mod_eq_of_lt hm]

end Digits

/-! ## What is read of a text -/

section Texts

/-- No digits have a separator. -/
theorem not_mem_digitsOf {c : Char} (hc : c.isDigit = false) (width n : Nat) :
    c ∉ digitsOf width n := by
  intro hmem
  rw [isDigit_of_mem_digitsOf hmem] at hc
  cases hc

/-- The pieces of a text at the first of its separators. -/
theorem splitOn_append {c : Char} {piece : List Char} (h : c ∉ piece) (rest : List Char) :
    (piece ++ c :: rest).splitOn c = piece :: rest.splitOn c := by
  rw [List.splitOn_eq_splitOnP, List.splitOn_eq_splitOnP]
  refine List.splitOnP_append_cons_of_forall_mem (p := (· == c)) (fun x hx => ?_) c
    (beq_self_eq_true c) rest
  rw [beq_eq_false_iff_ne]
  intro hsame
  exact h (hsame ▸ hx)

theorem splitOn_of_not_mem {c : Char} {piece : List Char} (h : c ∉ piece) :
    piece.splitOn c = [piece] := by
  rw [List.splitOn_eq_splitOnP]
  refine List.splitOnP_eq_singleton fun x hx => ?_
  rw [beq_eq_false_iff_ne]
  intro hsame
  exact h (hsame ▸ hx)

theorem blank_not_mem_timeText (second microseconds : Nat) :
    ' ' ∉ timeText second microseconds := by
  have hdigits : ∀ width n, ' ' ∉ digitsOf width n := not_mem_digitsOf (by decide)
  unfold timeText
  simp only [List.mem_append, List.mem_cons, not_or]
  exact ⟨hdigits _ _, by decide, hdigits _ _, by decide, hdigits _ _, by decide, hdigits _ _⟩

/-- Hours, minutes and seconds. -/
theorem splitOn_timeText (second microseconds : Nat) :
    (timeText second microseconds).splitOn ':' =
      [digitsOf 2 (second / 3600), digitsOf 2 (second / 60 % 60),
        digitsOf 2 (second % 60) ++ '.' :: digitsOf 6 microseconds] := by
  have hdigits : ∀ width n, ':' ∉ digitsOf width n := not_mem_digitsOf (by decide)
  have hlast : ':' ∉ digitsOf 2 (second % 60) ++ '.' :: digitsOf 6 microseconds := by
    simp only [List.mem_append, List.mem_cons, not_or]
    exact ⟨hdigits _ _, by decide, hdigits _ _⟩
  unfold timeText
  rw [splitOn_append (hdigits _ _), splitOn_append (hdigits _ _), splitOn_of_not_mem hlast]

namespace Utc

variable {R : Type} [Field R] [CharZero R] (u : Utc)

/-- A time that is written is read as its second of the day. The date is dropped. -/
theorem dateTimeToSecOfDay_format (calendar : Calendar) :
    dateTimeToSecOfDay (u.format calendar) = .ok (u.secOfDay : R) := by
  have hnonneg : 0 ≤ u.second := Int.emod_nonneg _ (by decide)
  have hlt : u.second < 86400 := Int.emod_lt_of_pos _ (by decide)
  obtain ⟨second, hsecond⟩ := Int.eq_ofNat_of_zero_le hnonneg
  have hpieces : (u.format calendar).splitOn ' ' =
      [calendar.text u.day, timeText second u.microseconds] := by
    unfold format
    rw [splitOn_append (calendar.no_blank _), splitOn_of_not_mem (blank_not_mem_timeText _ _),
      hsecond]
    rfl
  have hparts : second / 3600 * 3600 + second / 60 % 60 * 60 + second % 60 = second := by omega
  have hsum : ((second / 3600 : Nat) : R) * 3600 + ((second / 60 % 60 : Nat) : R) * 60 +
      ((second % 60 : Nat) : R) = second := by exact_mod_cast congrArg (Nat.cast (R := R)) hparts
  unfold dateTimeToSecOfDay
  rw [hpieces]
  show (vectorAt ((timeText second u.microseconds).splitOn ':') 0 >>= _) = _
  rw [splitOn_timeText]
  -- hours, minutes and seconds are read one after the other
  show (stod (digitsOf 2 (second / 3600)) >>= fun hours =>
    stod (digitsOf 2 (second / 60 % 60)) >>= fun minutes =>
    stod (digitsOf 2 (second % 60) ++ '.' :: digitsOf 6 u.microseconds) >>= _) = _
  rw [stod_digitsOf (by decide) (by omega), Outcome.ok_bind, stod_digitsOf (by decide) (by omega),
    Outcome.ok_bind, stod_digitsOf_fraction (by decide) (by omega) u.microseconds_lt,
    Outcome.ok_bind, secOfDay, hsecond]
  refine congrArg Outcome.ok ?_
  rw [← add_assoc, hsum]
  norm_num

omit [CharZero R] in
/-- A time is its day and its second of the day. -/
theorem time_eq : (u.time : R) = u.day * 86400 + u.secOfDay := by
  have hparts : u.day * 86400 + u.second = u.days * 86400 + u.seconds :=
    Int.ediv_mul_add_emod _ _
  have hcast := congrArg (Int.cast (R := R)) hparts
  push_cast at hcast
  unfold time secOfDay
  rw [← hcast, add_assoc]

/-- The modified Julian date in seconds is the time. -/
theorem getMjd_mul : u.getMjd * 86400 = (u.time : R) := by
  unfold getMjd time
  field_simp
  ring

end Utc

end Texts

end Alus.S1tbx
