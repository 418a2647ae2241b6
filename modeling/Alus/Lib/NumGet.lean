import Alus.Lib.Binary32
import Alus.Lib.Machine
import Alus.Lib.NumberStream

/-!
# Decimal integers and `float`s from a stream

What `std::num_get` takes for an `int` and for a `float` in the C locale, and what it makes of it.
For an `int` it takes a sign and digits, for a `float` also a point and an exponent. An integer that
does not fit and a number that is rounded to an infinity are failures, as is a number that was only
begun.
-/

namespace Alus.Lib

open Binary32 (lastExponent roundHalfEven)

/-! ## Numbers as texts -/

def digitsValue (digits : List Char) : Option Nat :=
  if digits ≠ [] ∧ digits.all Char.isDigit then some (Nat.ofDigitChars 10 digits 0) else none

/-- A sign, if there is one, and digits. -/
def signedValue : List Char → Option Int
  | '-' :: digits => (digitsValue digits).map fun (n : Nat) => -(n : Int)
  | '+' :: digits => (digitsValue digits).map fun (n : Nat) => (n : Int)
  | digits => (digitsValue digits).map fun (n : Nat) => (n : Int)

/-- An `int`. -/
def intValue (text : List Char) : Option Int := (signedValue text).filter (Fits 32 ·)

/-- Digits, with a point among, before or behind them. -/
def mantissaValue (text : List Char) : Option ℚ :=
  match text.dropWhile Char.isDigit with
  | [] => (digitsValue text).map fun (n : Nat) => (n : ℚ)
  | '.' :: fraction =>
    (digitsValue (text.takeWhile Char.isDigit ++ fraction)).map fun (n : Nat) =>
      (n : ℚ) / 10 ^ fraction.length
  | _ => none

/-- The letter before an exponent. -/
def isMark (c : Char) : Bool := c == 'e' || c == 'E'

/-- A mantissa, and an exponent if there is one. -/
def unsignedValue (text : List Char) : Option ℚ :=
  match text.dropWhile (!isMark ·) with
  | [] => mantissaValue text
  | _ :: exponent => do
    let mantissa ← mantissaValue (text.takeWhile (!isMark ·))
    let e ← signedValue exponent
    return mantissa * 10 ^ e

def numberValue : List Char → Option ℚ
  | '-' :: text => (unsignedValue text).map fun q => -q
  | '+' :: text => unsignedValue text
  | text => unsignedValue text

/-- The `float` nearest to a number, a subnormal one included, unless it is an infinity. -/
def toFloat (q : ℚ) : Option ℚ :=
  let unit : ℚ := 2 ^ max (lastExponent q) (-149)
  let value := roundHalfEven (q / unit) * unit
  if |value| < 2 ^ 128 then some value else none

/-- A `float`. -/
def floatValue (text : List Char) : Option ℚ := (numberValue text).bind toFloat

/-! ## The characters that are taken -/

/-- The character can be part of a number. -/
def inNumber (c : Char) : Bool := c.isDigit || c == '+' || c == '-' || c == '.' || isMark c

inductive IntState where
  | start
  | digits

def intStep : IntState → Char → Option IntState
  | .start, c => if c = '+' ∨ c = '-' ∨ c.isDigit then some .digits else none
  | .digits, c => if c.isDigit then some .digits else none

/-- `mantissa` knows whether there has been a digit and whether there has been a point. -/
inductive FloatState where
  | start
  | mantissa (digit point : Bool)
  | mark
  | exponent

def mantissaStep (digit point : Bool) (c : Char) : Option FloatState :=
  if c.isDigit then some (.mantissa true point)
  else if c = '.' ∧ point = false then some (.mantissa digit true)
  else if isMark c ∧ digit = true then some .mark
  else none

def floatStep : FloatState → Char → Option FloatState
  | .start, c =>
    if c = '+' ∨ c = '-' then some (.mantissa false false) else mantissaStep false false c
  | .mantissa digit point, c => mantissaStep digit point c
  | .mark, c => if c = '+' ∨ c = '-' ∨ c.isDigit then some .exponent else none
  | .exponent, c => if c.isDigit then some .exponent else none

theorem inNumber_of_intStep {s s' : IntState} {c : Char} (h : intStep s c = some s') :
    inNumber c = true := by
  cases s <;> simp only [intStep] at h <;> grind [inNumber]

theorem inNumber_of_floatStep {s s' : FloatState} {c : Char} (h : floatStep s c = some s') :
    inNumber c = true := by
  cases s <;> simp only [floatStep, mantissaStep] at h <;> grind [inNumber]

/-! ## Numbers are taken whole -/

theorem digits_of_digitsValue {digits : List Char} {n : Nat} (h : digitsValue digits = some n) :
    digits ≠ [] ∧ ∀ c ∈ digits, c.isDigit = true := by
  unfold digitsValue at h
  split at h
  · next hdigits => exact ⟨hdigits.1, List.all_eq_true.mp hdigits.2⟩
  · cases h

section Signed

variable {σ : Type} {step : σ → Char → Option σ} {start s : σ}
  (hstart : ∀ c, c = '+' ∨ c = '-' ∨ c.isDigit = true → step start c = some s)
  (hstep : ∀ c, c.isDigit = true → step s c = some s)

include hstep

/-- Digits that keep a state are taken. -/
theorem foldlM_digits {digits : List Char} (h : ∀ c ∈ digits, c.isDigit = true) :
    digits.foldlM step s = some s := by
  induction digits with
  | nil => rfl
  | cons c digits ih =>
    have hc := hstep c (h c List.mem_cons_self)
    simp [hc, ih fun d hd => h d (List.mem_cons_of_mem _ hd)]

include hstart

/-- A sign and digits are taken, where each of them leads to such a state. -/
theorem foldlM_signed {text : List Char} {z : Int} (h : signedValue text = some z) :
    text.foldlM step start = some s := by
  have htaken (c : Char) (digits : List Char) (hc : c = '+' ∨ c = '-' ∨ c.isDigit = true)
      (hdigits : ∀ d ∈ digits, d.isDigit = true) : (c :: digits).foldlM step start = some s := by
    simp [hstart c hc, foldlM_digits hstep hdigits]
  unfold signedValue at h
  split at h
  · next digits =>
    obtain ⟨n, hn, -⟩ := Option.map_eq_some_iff.mp h
    exact htaken '-' digits (by simp) (digits_of_digitsValue hn).2
  · next digits =>
    obtain ⟨n, hn, -⟩ := Option.map_eq_some_iff.mp h
    exact htaken '+' digits (by simp) (digits_of_digitsValue hn).2
  · obtain ⟨n, hn, -⟩ := Option.map_eq_some_iff.mp h
    obtain ⟨hne, hdigits⟩ := digits_of_digitsValue hn
    obtain ⟨c, digits, rfl⟩ := List.exists_cons_of_ne_nil hne
    exact htaken c digits (.inr (.inr (hdigits c List.mem_cons_self)))
      fun d hd => hdigits d (List.mem_cons_of_mem _ hd)

end Signed

theorem accepts_int {text : List Char} {z : Int} (h : signedValue text = some z) :
    (text.foldlM intStep .start).isSome := by
  rw [foldlM_signed (fun c hc => if_pos hc) (fun c hc => if_pos hc) h]
  rfl

theorem foldlM_mantissa {digits : List Char} (h : ∀ c ∈ digits, c.isDigit = true)
    (digit point : Bool) : digits.foldlM floatStep (.mantissa digit point) =
      some (.mantissa (digit || !digits.isEmpty) point) := by
  induction digits generalizing digit with
  | nil => simp
  | cons c digits ih =>
    have hc := h c List.mem_cons_self
    simp [floatStep, mantissaStep, hc, ih fun d hd => h d (List.mem_cons_of_mem _ hd)]

/-- A mantissa has a digit. -/
theorem accepts_mantissa {text : List Char} {q : ℚ} (h : mantissaValue text = some q) :
    ∃ point, text.foldlM floatStep (.mantissa false false) = some (.mantissa true point) := by
  unfold mantissaValue at h
  split at h
  · obtain ⟨n, hn, -⟩ := Option.map_eq_some_iff.mp h
    obtain ⟨hne, hdigits⟩ := digits_of_digitsValue hn
    exact ⟨false, by simp [foldlM_mantissa hdigits, hne]⟩
  · next fraction hpoint =>
    obtain ⟨n, hn, -⟩ := Option.map_eq_some_iff.mp h
    obtain ⟨hne, hdigits⟩ := digits_of_digitsValue hn
    have hwhole := foldlM_mantissa (fun c hc => hdigits c (List.mem_append_left _ hc)) false false
    have hfraction := foldlM_mantissa (fun c hc => hdigits c (List.mem_append_right _ hc))
      (!(text.takeWhile Char.isDigit).isEmpty) true
    have hdigit : (!(text.takeWhile Char.isDigit).isEmpty || !fraction.isEmpty) = true := by
      rw [Ne, List.append_eq_nil_iff] at hne
      grind
    have hsplit := List.takeWhile_append_dropWhile (p := Char.isDigit) (l := text)
    rw [hpoint] at hsplit
    refine ⟨true, ?_⟩
    rw [← hsplit, List.foldlM_append, hwhole, Option.bind_eq_bind, Option.bind_some,
      List.foldlM_cons]
    simp only [Bool.false_or, floatStep, mantissaStep, Option.bind_eq_bind]
    rw [if_neg (by decide), if_pos (by simp), Option.bind_some, hfraction, hdigit]
  · cases h

theorem accepts_exponent {text : List Char} {z : Int} (h : signedValue text = some z) :
    (text.foldlM floatStep .mark).isSome := by
  rw [foldlM_signed (fun c hc => if_pos hc) (fun c hc => if_pos hc) h]
  rfl

theorem accepts_unsigned {text : List Char} {q : ℚ} (h : unsignedValue text = some q) :
    (text.foldlM floatStep (.mantissa false false)).isSome := by
  unfold unsignedValue at h
  split at h
  · obtain ⟨point, hmantissa⟩ := accepts_mantissa h
    simp [hmantissa]
  · next mark exponent hmark =>
    simp only [Option.bind_eq_bind, Option.bind_eq_some_iff] at h
    obtain ⟨mantissa, hm, e, he, -⟩ := h
    obtain ⟨point, hmantissa⟩ := accepts_mantissa hm
    have hletter : isMark mark = true := by
      have hfirst := List.head?_dropWhile_not (!isMark ·) text
      rw [hmark] at hfirst
      simpa using hfirst
    have hdigit : mark.isDigit = false := by
      simp only [isMark, Bool.or_eq_true, beq_iff_eq] at hletter
      rcases hletter with rfl | rfl <;> decide
    have hpoint : mark ≠ '.' := by
      rintro rfl
      exact absurd hletter (by decide)
    have hsplit := List.takeWhile_append_dropWhile (p := (!isMark ·)) (l := text)
    rw [hmark] at hsplit
    rw [← hsplit, List.foldlM_append, hmantissa, Option.bind_eq_bind, Option.bind_some,
      List.foldlM_cons]
    simpa [floatStep, mantissaStep, hdigit, hpoint, hletter] using accepts_exponent he

theorem accepts_float {text : List Char} {q : ℚ} (h : numberValue text = some q) :
    (text.foldlM floatStep .start).isSome := by
  unfold numberValue at h
  split at h
  · obtain ⟨q', hq, -⟩ := Option.map_eq_some_iff.mp h
    simpa [floatStep] using accepts_unsigned hq
  · simpa [floatStep] using accepts_unsigned h
  · next hminus hplus =>
    cases text with
    | nil => rfl
    | cons c text =>
      have hsign : ¬ (c = '+' ∨ c = '-') := by
        rintro (rfl | rfl)
        · exact hplus text rfl
        · exact hminus text rfl
      simpa [floatStep, hsign] using accepts_unsigned h

/-! ## The extractions -/

section Extractions

variable {isBlank : Char → Bool} (hblank : ∀ c, isBlank c = true → inNumber c = false)

/-- `operator>>` of an `int`. -/
def intGet : NumGet isBlank IntState Int where
  start := .start
  step := intStep
  value := intValue
  value_nil := rfl
  step_blank s c hc := by
    cases hstep : intStep s c with
    | none => rfl
    | some s' => cases (inNumber_of_intStep hstep).symm.trans (hblank c hc)
  accepts text a h := accepts_int (Option.filter_eq_some_iff.mp h).1

/-- `operator>>` of a `float`. -/
def floatGet : NumGet isBlank FloatState ℚ where
  start := .start
  step := floatStep
  value := floatValue
  value_nil := rfl
  step_blank s c hc := by
    cases hstep : floatStep s c with
    | none => rfl
    | some s' => cases (inNumber_of_floatStep hstep).symm.trans (hblank c hc)
  accepts text a h := by
    obtain ⟨q, hq, -⟩ := Option.bind_eq_some_iff.mp h
    exact accepts_float hq

/-! ## Integers that are written -/

theorem digitsValue_toDigits (n : Nat) : digitsValue (Nat.toDigits 10 n) = some n := by
  have hdigits : (Nat.toDigits 10 n).all Char.isDigit = true :=
    List.all_eq_true.mpr fun c hc => Nat.isDigit_of_mem_toDigits (by decide) (by decide) hc
  rw [digitsValue, if_pos ⟨Nat.toDigits_ne_nil, hdigits⟩, Nat.ofDigitChars_ten_toDigits]

theorem toList_toString (z : Int) : (toString z).toList =
    if z < 0 then '-' :: Nat.toDigits 10 z.natAbs else Nat.toDigits 10 z.natAbs := by
  cases z with
  | ofNat n => exact Nat.toList_repr
  | negSucc n =>
    show ("-" ++ Nat.repr (n + 1)).toList = _
    simp [Nat.toList_repr]

/-- An integer is read as it is written. -/
theorem signedValue_toString (z : Int) : signedValue (toString z).toList = some z := by
  rw [toList_toString]
  split
  · next hneg =>
    rw [signedValue, digitsValue_toDigits, Option.map_some, Option.some.injEq]
    omega
  · next hpos =>
    have hfirst := digits_of_digitsValue (digitsValue_toDigits z.natAbs)
    unfold signedValue
    split
    · next heq => exact absurd (hfirst.2 '-' (by simp [heq])) (by decide)
    · next heq => exact absurd (hfirst.2 '+' (by simp [heq])) (by decide)
    · rw [digitsValue_toDigits, Option.map_some, Option.some.injEq]
      omega

theorem intValue_toString {z : Int} (h : Fits 32 z) : intValue (toString z).toList = some z := by
  rw [intValue, signedValue_toString, Option.filter_some, if_pos (by simpa using h)]

include hblank in
theorem not_blank_toString (z : Int) : ∀ c ∈ (toString z).toList, isBlank c = false := by
  intro c hc
  have hnumber : inNumber c = true := by
    rw [toList_toString] at hc
    have hdigit (h : c ∈ Nat.toDigits 10 z.natAbs) : inNumber c = true := by
      simp [inNumber, Nat.isDigit_of_mem_toDigits (by decide) (by decide) h]
    split at hc
    · rcases List.mem_cons.mp hc with rfl | hc
      · rfl
      · exact hdigit hc
    · exact hdigit hc
  cases hc : isBlank c with
  | false => rfl
  | true => cases hnumber.symm.trans (hblank c hc)

theorem toString_ne_nil (z : Int) : (toString z).toList ≠ [] := by
  rw [toList_toString]
  split
  · simp
  · exact Nat.toDigits_ne_nil

end Extractions

end Alus.Lib
