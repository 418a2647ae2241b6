import Alus.SnapEngine.UtcTimes

/-!
# What is accepted as a time

`Utc::Parse` (`product_data_utc.cc`) with the exceptions that it throws, and
`AbstractMetadata::ParseUtc` (`abstract_metadata.cc`), which catches them. The fraction after the
last point is read by `std::stoi`, which asks for less than digits.
-/

namespace Alus.SnapEngine.UtcElems

open Alus.Lib
open Alus.Etad (stoi stoi_digits stoi_short ofDigitChars_lt StartsWithInteger)
open Alus.S1tbx (Calendar)

/-- The exceptions of `Utc::Parse`, with their texts. -/
inductive UtcException where
  | invalidArgument (what : String)
  | parseException (what : String)
  deriving DecidableEq

/-- `Utc::DATE_FORMAT_PATTERN`. -/
def dateFormatPattern : String := "%d-%b-%Y %H:%M:%S"

/-- The beginning of what is said of a time that cannot be parsed. -/
def unparseable (text : List Char) : String := "Unparseable date:" ++ String.ofList text

section Parse

variable {calendar : Calendar} (facet : DateFormatIn calendar)

/-- The end of `Utc::Parse`, where the date is read by the input facet. -/
def parseDate (text noFractionString : List Char) (micros : Int) :
    Except UtcException UtcElems :=
  match facet.read noFractionString with
  | some date => .ok (create date micros)
  | none => .error (.parseException
      (unparseable text ++ " for format: " ++ dateFormatPattern))

/-- `Utc::Parse`. `stoiWhat` is what the exception of `std::stoi` says. -/
def parseOrThrow (stoiWhat : String) (text : List Char) : Except UtcException UtcElems :=
  let fractionString := (text.reverse.takeWhile (· ≠ '.')).reverse
  let noFractionString := ((text.reverse.dropWhile (· ≠ '.')).drop 1).reverse
  let position := " at position: " ++ toString noFractionString.length
  if text = [] then .error (.invalidArgument "text argument is empty")
  else if '.' ∈ text then
    -- max. 6 digits!
    if 6 < fractionString.length then .error (.parseException (unparseable text ++ position))
    else
      match stoi (String.ofList fractionString) with
      | .ok (micros, _) =>
        parseDate facet text noFractionString (micros * 10 ^ (6 - fractionString.length))
      | _ => .error (.parseException (unparseable text ++ position ++ ", reason: " ++ stoiWhat))
  else parseDate facet text text 0

/-- `AbstractMetadata::NO_METADATA_UTC`. -/
def noMetadataUtc : UtcElems := ⟨0, 0, 0⟩

/-- `AbstractMetadata::ParseUtc`. -/
def parseUtc (stoiWhat : String) (timeStr : List Char) : Except UtcException UtcElems :=
  if timeStr = [] then .ok noMetadataUtc
  else
    match parseOrThrow facet stoiWhat timeStr with
    | .ok utc => .ok utc
    | .error (.invalidArgument what) => .error (.invalidArgument what)
    | .error (.parseException _) =>
      let before := ((timeStr.reverse.dropWhile (· ≠ '.')).drop 1).reverse
      let fractionString := (timeStr.reverse.takeWhile (· ≠ '.')).reverse
      if '.' ∈ timeStr ∧ 0 < before.length then
        -- fix some ERS times
        let newTimeStr := before ++ fractionString.filter (· ≠ '-')
        match parseOrThrow facet stoiWhat newTimeStr with
        | .ok utc => .ok utc
        | .error (.invalidArgument what) => .error (.invalidArgument what)
        | .error (.parseException _) => .ok noMetadataUtc
      else .ok noMetadataUtc

/-! ## The parts of a text -/

/-- What stands before the last point. -/
def datePart (text : List Char) : List Char :=
  if '.' ∈ text then ((text.reverse.dropWhile (· ≠ '.')).drop 1).reverse else text

/-- What stands after the last point. -/
def fractionPart (text : List Char) : Option (List Char) :=
  if '.' ∈ text then some (text.reverse.takeWhile (· ≠ '.')).reverse else none

/-- One to six decimal digits. -/
structure IsFractionText (fraction : List Char) : Prop where
  nonempty : fraction ≠ []
  short : fraction.length ≤ 6
  digits : ∀ c ∈ fraction, c.isDigit = true

/-- The microseconds of a fraction. -/
def scaled (fraction : List Char) : Nat :=
  Nat.ofDigitChars 10 fraction 0 * 10 ^ (6 - fraction.length)

/-- The microseconds of a text. -/
def microsPart (text : List Char) : Nat := ((fractionPart text).map scaled).getD 0

/-- The text of a time, with the date and time of its whole seconds. -/
structure WellFormed (text : List Char) (date : Int) : Prop where
  date : facet.read (datePart text) = some date
  fraction : ∀ fraction ∈ fractionPart text, IsFractionText fraction

/-- The text of a date with a fraction that starts with an integer and is more than digits. -/
structure Loose (text : List Char) : Prop where
  date : facet.read (datePart text) ≠ none
  fraction : ∃ fraction ∈ fractionPart text, fraction.length ≤ 6 ∧ StartsWithInteger fraction ∧
    ∃ c ∈ fraction, c.isDigit = false

/-- Exactly the text of a time is parsed, to that time. -/
structure ParsesTimes (stoiWhat : String) (text : List Char) : Prop where
  parsed : ∀ u, parseOrThrow facet stoiWhat text = .ok u ↔
    ∃ date, WellFormed facet text date ∧ u = create date (microsPart text)
  fraction : ∀ date, WellFormed facet text date → microsPart text ≤ 999999
  refused : (¬ ∃ date, WellFormed facet text date) →
    ∃ what, parseOrThrow facet stoiWhat text = .error (.parseException what)

/-! ## Fractions -/

/-- Digits start with an integer. -/
theorem IsFractionText.stoi_eq {fraction : List Char} (h : IsFractionText fraction) :
    stoi (String.ofList fraction) =
      .ok ((Nat.ofDigitChars 10 fraction 0 : Int), fraction.length) := by
  have hlt := ofDigitChars_lt h.digits 0
  have hpow : 10 ^ fraction.length ≤ 10 ^ 6 := Nat.pow_le_pow_right (by decide) h.short
  exact stoi_digits h.nonempty h.digits String.toList_ofList (by omega)

/-- A fraction is less than a second. -/
theorem IsFractionText.scaled_le {fraction : List Char} (h : IsFractionText fraction) :
    scaled fraction ≤ 999999 := by
  have hlt := ofDigitChars_lt h.digits 0
  have hall : 10 ^ fraction.length * 10 ^ (6 - fraction.length) = 10 ^ 6 := by
    rw [← Nat.pow_add, Nat.add_sub_cancel' h.short]
  have hscaled : scaled fraction < 10 ^ 6 := by
    rw [← hall]
    apply Nat.mul_lt_mul_of_pos_right
    · omega
    · exact Nat.pow_pos (by decide)
  omega

theorem fractionPart_eq_some {text fraction : List Char} (h : fractionPart text = some fraction) :
    '.' ∈ text ∧ fraction = (text.reverse.takeWhile (· ≠ '.')).reverse := by
  unfold fractionPart at h
  split at h
  · next hpoint => exact ⟨hpoint, (Option.some.inj h).symm⟩
  · cases h

/-! ## What is parsed -/

theorem parseDate_eq_ok {text part : List Char} {micros : Int} {u : UtcElems} :
    parseDate facet text part micros = .ok u ↔
      ∃ date, facet.read part = some date ∧ u = create date micros := by
  unfold parseDate
  split
  · next date hdate => simp [hdate, eq_comm]
  · next hnone => simp [hnone]

theorem parseDate_of_none {text part : List Char} (hpart : facet.read part = none) (micros : Int) :
    ∃ what, parseDate facet text part micros = .error (.parseException what) := by
  rw [parseDate, hpart]
  exact ⟨_, rfl⟩

variable {facet} {stoiWhat : String} {text fraction : List Char}

theorem parse_of_noFraction (hne : text ≠ []) (h : fractionPart text = none) :
    parseOrThrow facet stoiWhat text = parseDate facet text (datePart text) 0 := by
  have hpoint : '.' ∉ text := by
    intro hmem
    rw [fractionPart, if_pos hmem] at h
    cases h
  rw [parseOrThrow, if_neg hne, if_neg hpoint, datePart, if_neg hpoint]

theorem parse_of_fraction (h : fractionPart text = some fraction) :
    parseOrThrow facet stoiWhat text =
      if 6 < fraction.length then
        .error (.parseException
          (unparseable text ++ (" at position: " ++ toString (datePart text).length)))
      else
        match stoi (String.ofList fraction) with
        | .ok (micros, _) =>
          parseDate facet text (datePart text) (micros * 10 ^ (6 - fraction.length))
        | _ => .error (.parseException
          (unparseable text ++ (" at position: " ++ toString (datePart text).length) ++
            ", reason: " ++ stoiWhat)) := by
  have hpart := fractionPart_eq_some h
  have hne : text ≠ [] := List.ne_nil_of_mem hpart.1
  rw [parseOrThrow, if_neg hne, if_pos hpart.1, hpart.2, datePart, if_pos hpart.1]

theorem parse_of_long (h : fractionPart text = some fraction) (hlong : 6 < fraction.length) :
    ∃ what, parseOrThrow facet stoiWhat text = .error (.parseException what) := by
  rw [parse_of_fraction h, if_pos hlong]
  exact ⟨_, rfl⟩

theorem parse_of_noInteger (h : fractionPart text = some fraction) (hshort : fraction.length ≤ 6)
    (hnone : ¬ StartsWithInteger fraction) :
    ∃ what, parseOrThrow facet stoiWhat text = .error (.parseException what) := by
  rw [parse_of_fraction h, if_neg (not_lt.mpr hshort), (stoi_short hshort).2 hnone]
  exact ⟨_, rfl⟩

variable (facet stoiWhat) in
/-- What starts with an integer is taken for it. -/
theorem parse_of_integer (h : fractionPart text = some fraction) (hshort : fraction.length ≤ 6)
    (hinteger : StartsWithInteger fraction) :
    ∃ micros, parseOrThrow facet stoiWhat text =
      parseDate facet text (datePart text) micros := by
  have hread := (stoi_short hshort).1 hinteger
  cases hread with
  | intro result hresult =>
    rw [parse_of_fraction h, if_neg (not_lt.mpr hshort), hresult]
    exact ⟨_, rfl⟩

theorem parse_of_digits (h : fractionPart text = some fraction)
    (hdigits : IsFractionText fraction) :
    parseOrThrow facet stoiWhat text =
      parseDate facet text (datePart text) (microsPart text) := by
  rw [parse_of_fraction h, if_neg (not_lt.mpr hdigits.short), hdigits.stoi_eq, microsPart, h]
  show parseDate facet text _ ((Nat.ofDigitChars 10 fraction 0 : Int) * _) =
    parseDate facet text _ ((scaled fraction : Nat) : Int)
  rw [scaled, Nat.cast_mul, Nat.cast_pow]
  rfl

/-- The part before the point is a date, and one to six digits follow the point. -/
theorem parsesTimes_of_parseDate (hdigits : ∀ f ∈ fractionPart text, IsFractionText f)
    (hparse : parseOrThrow facet stoiWhat text =
      parseDate facet text (datePart text) (microsPart text)) :
    ParsesTimes facet stoiWhat text where
  parsed u := by
    rw [hparse, parseDate_eq_ok]
    exact ⟨fun ⟨date, hdate, hu⟩ => ⟨date, ⟨hdate, hdigits⟩, hu⟩,
      fun ⟨date, hwell, hu⟩ => ⟨date, hwell.date, hu⟩⟩
  fraction date hwell := by
    unfold microsPart
    cases hpart : fractionPart text with
    | none => exact Nat.zero_le _
    | some f => exact (hwell.fraction f hpart).scaled_le
  refused hnone := by
    have hdate : facet.read (datePart text) = none := by
      cases hread : facet.read (datePart text) with
      | none => rfl
      | some date => exact absurd ⟨date, hread, hdigits⟩ hnone
    rw [hparse]
    exact parseDate_of_none facet hdate _

/-- Where nothing is parsed and the text is not one of a time. -/
theorem parsesTimes_of_refused (hnone : ¬ ∃ date, WellFormed facet text date)
    (hparse : ∃ what, parseOrThrow facet stoiWhat text = .error (.parseException what)) :
    ParsesTimes facet stoiWhat text where
  parsed u := by
    cases hparse with
    | intro what hwhat =>
      rw [hwhat]
      exact ⟨fun h => (nomatch h), fun ⟨date, hwell, _⟩ => absurd ⟨date, hwell⟩ hnone⟩
  fraction date hwell := absurd ⟨date, hwell⟩ hnone
  refused _ := hparse

/-- A text of a time is parsed as one, and any other that does not start as loosely is refused. -/
theorem parsesTimes_of_not_loose (hne : text ≠ []) (hloose : ¬ Loose facet text) :
    ParsesTimes facet stoiWhat text := by
  cases hpart : fractionPart text with
  | none =>
    apply parsesTimes_of_parseDate
    · intro f hf
      rw [hpart] at hf
      cases hf
    · rw [parse_of_noFraction hne hpart, microsPart, hpart]
      rfl
  | some fraction =>
    by_cases hdigits : IsFractionText fraction
    · apply parsesTimes_of_parseDate
      · intro f hf
        rw [hpart] at hf
        exact Option.some.inj hf ▸ hdigits
      · exact parse_of_digits hpart hdigits
    · apply parsesTimes_of_refused
      · intro hwell
        cases hwell with
        | intro date hwell => exact hdigits (hwell.fraction fraction hpart)
      · by_cases hlong : 6 < fraction.length
        · exact parse_of_long hpart hlong
        · by_cases hinteger : StartsWithInteger fraction
          -- the fraction is read loosely, so that the date cannot be read
          · have hother : ∃ c ∈ fraction, c.isDigit = false := by
              by_contra hall
              apply hdigits
              refine ⟨?_, by omega, fun c hc => ?_⟩
              · intro hnil
                rw [hnil] at hinteger
                exact hinteger rfl
              · by_contra hc'
                exact hall ⟨c, hc, Bool.eq_false_iff.mpr hc'⟩
            have hdate : facet.read (datePart text) = none := by
              by_contra hsome
              exact hloose ⟨hsome, fraction, hpart, by omega, hinteger, hother⟩
            have hparse := parse_of_integer facet stoiWhat hpart
              (by omega) hinteger
            cases hparse with
            | intro micros hmicros =>
              rw [hmicros]
              exact parseDate_of_none facet hdate micros
          · exact parse_of_noInteger hpart (by omega) hinteger

theorem not_parsesTimes_nil : ¬ ParsesTimes facet stoiWhat [] := by
  intro h
  have hempty : parseOrThrow facet stoiWhat [] =
      .error (.invalidArgument "text argument is empty") := rfl
  by_cases hwell : ∃ date, WellFormed facet [] date
  · cases hwell with
    | intro date hwell =>
      have hok := (h.parsed _).mpr ⟨date, hwell, rfl⟩
      rw [hempty] at hok
      cases hok
  · cases h.refused hwell with
    | intro what hwhat =>
      rw [hempty] at hwhat
      cases hwhat

theorem not_parsesTimes_of_loose (hloose : Loose facet text) :
    ¬ ParsesTimes facet stoiWhat text := by
  intro h
  cases hloose.fraction with
  | intro fraction hfraction =>
    have hpart : fractionPart text = some fraction := hfraction.1
    have hparse := parse_of_integer facet stoiWhat hpart hfraction.2.1
      hfraction.2.2.1
    have hdate := Option.ne_none_iff_exists'.mp hloose.date
    cases hparse with
    | intro micros hmicros =>
      cases hdate with
      | intro date hdate =>
        have hok := (h.parsed (create date micros)).mp
          (hmicros.trans (parseDate_eq_ok facet |>.mpr ⟨date, hdate, rfl⟩))
        cases hok with
        | intro date' hwell =>
          have hdigits := (hwell.1.fraction fraction hpart).digits
          cases hfraction.2.2.2 with
          | intro c hc =>
            rw [hdigits c hc.1] at hc
            cases hc.2

/-- Exactly the texts that are not empty and not loose are parsed as they should be. -/
theorem parsesTimes_iff :
    ParsesTimes facet stoiWhat text ↔ text ≠ [] ∧ ¬ Loose facet text := by
  apply Iff.intro
  · intro h
    apply And.intro
    · intro hnil
      rw [hnil] at h
      exact not_parsesTimes_nil h
    · exact fun hloose => not_parsesTimes_of_loose hloose h
  · exact fun h => parsesTimes_of_not_loose h.1 h.2

/-! ## The callers -/

theorem parseDate_ok_or_refused (text part : List Char) (micros : Int) :
    (∃ u, parseDate facet text part micros = .ok u) ∨
      ∃ what, parseDate facet text part micros = .error (.parseException what) := by
  unfold parseDate
  split
  · exact .inl ⟨_, rfl⟩
  · exact .inr ⟨_, rfl⟩

variable (facet stoiWhat) in
/-- Only the empty text is an invalid argument. -/
theorem parse_ok_or_refused (hne : text ≠ []) :
    (∃ u, parseOrThrow facet stoiWhat text = .ok u) ∨
      ∃ what, parseOrThrow facet stoiWhat text = .error (.parseException what) := by
  cases hpart : fractionPart text with
  | none =>
    rw [parse_of_noFraction hne hpart]
    exact parseDate_ok_or_refused text (datePart text) 0
  | some fraction =>
    by_cases hlong : 6 < fraction.length
    · exact .inr (parse_of_long hpart hlong)
    · by_cases hinteger : StartsWithInteger fraction
      · cases parse_of_integer facet stoiWhat hpart (by omega)
          hinteger with
        | intro micros hmicros =>
          rw [hmicros]
          exact parseDate_ok_or_refused text (datePart text) micros
      · exact .inr (parse_of_noInteger hpart (by omega) hinteger)

/-- `ParseUtc` throws nothing. -/
theorem exists_parseUtc (timeStr : List Char) :
    ∃ u, parseUtc facet stoiWhat timeStr = .ok u := by
  unfold parseUtc
  by_cases hne : timeStr = []
  · exact ⟨noMetadataUtc, if_pos hne⟩
  · rw [if_neg hne]
    cases parse_ok_or_refused facet stoiWhat hne with
    | inl hok =>
      cases hok with
      | intro u hu =>
        rw [hu]
        exact ⟨u, rfl⟩
    | inr hrefused =>
      cases hrefused with
      | intro what hwhat =>
        rw [hwhat]
        dsimp only
        split
        · next hpoint =>
          -- the time without its point is not empty either
          have hne' : ((timeStr.reverse.dropWhile (· ≠ '.')).drop 1).reverse ++
              ((timeStr.reverse.takeWhile (· ≠ '.')).reverse).filter (· ≠ '-') ≠ [] := by
            apply List.append_ne_nil_of_left_ne_nil
            exact List.ne_nil_of_length_pos hpoint.2
          cases parse_ok_or_refused facet stoiWhat hne' with
          | inl hok =>
            cases hok with
            | intro u hu =>
              rw [hu]
              exact ⟨u, rfl⟩
          | inr hrefused =>
            cases hrefused with
            | intro what' hwhat' =>
              rw [hwhat']
              exact ⟨noMetadataUtc, rfl⟩
        · exact ⟨noMetadataUtc, rfl⟩

/-- The same `Utc::Parse` without a distinction of the exceptions. -/
theorem parse_eq_parseOrThrow (text : List Char) :
    parse facet text =
      match parseOrThrow facet stoiWhat text with
      | .ok u => .ok u
      | .error _ => .throws := by
  -- the two read the date in the same way
  have hdate (part : List Char) (micros : Int) :
      (match facet.read part with
        | some date => Outcome.ok (create date micros)
        | none => .throws) =
      match parseDate facet text part micros with
      | .ok u => .ok u
      | .error _ => .throws := by
    unfold parseDate
    cases facet.read part with
    | none => rfl
    | some date => rfl
  rw [parse, parseOrThrow]
  by_cases hne : text = []
  · rw [Outcome.require_of_not (not_not.mpr hne), if_pos hne]
    rfl
  · rw [Outcome.require_of hne, Outcome.ok_bind, if_neg hne]
    dsimp only
    by_cases hpoint : '.' ∈ text
    · rw [if_pos hpoint, if_pos hpoint]
      by_cases hlong : 6 < ((text.reverse.takeWhile (· ≠ '.')).reverse).length
      · rw [Outcome.require_of_not (not_le.mpr hlong), if_pos hlong]
        rfl
      · rw [Outcome.require_of (not_lt.mp hlong), if_neg hlong, Outcome.ok_bind]
        cases hread : stoi (String.ofList ((text.reverse.takeWhile (· ≠ '.')).reverse)) with
        | ok result => exact hdate _ _
        | throws => rfl
        | undefined =>
          -- a fraction of up to six characters is read or refused
          have hshort := stoi_short (not_lt.mp hlong)
          rw [hread] at hshort
          by_cases hinteger : StartsWithInteger ((text.reverse.takeWhile (· ≠ '.')).reverse)
          · cases (hshort.1 hinteger).choose_spec
          · cases hshort.2 hinteger
    · rw [if_neg hpoint, if_neg hpoint]
      exact hdate text 0

end Parse

end Alus.SnapEngine.UtcElems
