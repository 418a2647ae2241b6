import Mathlib.Data.List.TakeWhile
import Mathlib.Data.Rat.Floor
import Alus.Lib.Machine
import Alus.Lib.Xml

/-!
# Reading values of an annotation

The readers of single values in `sentinel1_etad_product.cc`: trimmed texts, numbers, positive
integers and UTC times. Only the values of floating-point and time texts are left open: a
`Readers` gives them.
-/

namespace Alus.Etad

open Alus.Lib
open Outcome (require)

/-! ## Characters -/

/-- `std::isspace`, in the C locale. -/
def isSpace (c : Char) : Bool := c.toNat == 32 || (9 ≤ c.toNat && c.toNat ≤ 13)

/-- `boost::algorithm::trim_copy`. -/
def trimCopy (text : String) : String :=
  String.ofList (((text.toList.dropWhile isSpace).reverse.dropWhile isSpace).reverse)

/-- `ToLower`. -/
def toLower (text : String) : List Char := text.toList.map Char.toLower

/-- What is left after a character in the given class. -/
def afterChar (p : Char → Bool) : List Char → Option (List Char)
  | [] => none
  | c :: rest => if p c then some rest else none

/-- What is left after so many digits. -/
def afterDigits : Nat → List Char → Option (List Char)
  | 0, l => some l
  | n + 1, l => (afterChar Char.isDigit l).bind (afterDigits n)

/-- What is left after `[0-5]\d`. -/
def afterSixty (l : List Char) : Option (List Char) :=
  (afterChar (fun c => '0' ≤ c && c ≤ '5') l).bind (afterDigits 1)

/-- What is left after `[01]\d|2[0-3]`. -/
def afterHour : List Char → Option (List Char)
  | '2' :: l => afterChar (fun c => '0' ≤ c && c ≤ '3') l
  | l => (afterChar (fun c => c == '0' || c == '1') l).bind (afterDigits 1)

/-- `(?:\.\d{1,6})?Z?` up to the end. -/
def fractionAndZone (l : List Char) : Bool :=
  let rest :=
    match l with
    | '.' :: digits =>
      let count := (digits.takeWhile Char.isDigit).length
      if 1 ≤ count && count ≤ 6 then some (digits.drop count) else none
    | _ => some l
  rest == some [] || rest == some ['Z']

/-- `UTC_PATTERN`. -/
def utcPattern (l : List Char) : Bool :=
  let afterDate := do
    let l ← afterDigits 4 l
    let l ← afterChar (· == '-') l
    let l ← afterDigits 2 l
    let l ← afterChar (· == '-') l
    let l ← afterDigits 2 l
    afterChar (· == 'T') l
  let afterTime := do
    let l ← afterDate
    let l ← afterHour l
    let l ← afterChar (· == ':') l
    let l ← afterSixty l
    let l ← afterChar (· == ':') l
    afterSixty l
  match afterTime with
  | some l => fractionAndZone l
  | none => false

/-- `std::stoi`: the value and how many characters it took. -/
def stoi (text : String) : Outcome (Int × Nat) :=
  let spaces := (text.toList.takeWhile isSpace).length
  let (sign, signLength, rest) : Int × Nat × List Char :=
    match text.toList.drop spaces with
    | '-' :: rest => (-1, 1, rest)
    | '+' :: rest => (1, 1, rest)
    | rest => (1, 0, rest)
  let digits := rest.takeWhile Char.isDigit
  let value := sign * digits.foldl (fun n (c : Char) => 10 * n + ((c.toNat : Int) - 48)) 0
  if digits ≠ [] ∧ Fits 32 value then .ok (value, spaces + signLength + digits.length)
  else .throws

theorem isDigit_iff {c : Char} : c.isDigit = true ↔ 48 ≤ c.toNat ∧ c.toNat ≤ 57 := by
  simp [Char.isDigit, UInt32.le_iff_toNat_le]

theorem foldl_digits {digits : List Char} (hdigits : ∀ c ∈ digits, c.isDigit) (n : Nat) :
    digits.foldl (fun n (c : Char) => 10 * n + ((c.toNat : Int) - 48)) (n : Int) =
      (Nat.ofDigitChars 10 digits n : Int) := by
  induction digits generalizing n with
  | nil => rw [Nat.ofDigitChars_nil, List.foldl_nil]
  | cons c digits ih =>
    have h48 := (isDigit_iff.mp (hdigits c List.mem_cons_self)).1
    have hcast : 10 * (n : Int) + ((c.toNat : Int) - 48) =
        ((10 * n + (c.toNat - 48) : Nat) : Int) := by omega
    rw [List.foldl_cons, hcast, ih fun d hd => hdigits d (List.mem_cons_of_mem c hd),
      Nat.ofDigitChars_cons]
    rfl

/-- Digits are read whole. -/
theorem stoi_digits {digits : List Char} (hne : digits ≠ []) (hdigits : ∀ c ∈ digits, c.isDigit)
    {text : String} (htext : text.toList = digits)
    (hfits : Nat.ofDigitChars 10 digits 0 < 2147483648) :
    stoi text = .ok ((Nat.ofDigitChars 10 digits 0 : Int), digits.length) := by
  have hall : digits.takeWhile Char.isDigit = digits := List.takeWhile_eq_self_iff.mpr hdigits
  cases digits with
  | nil => exact absurd rfl hne
  | cons c rest =>
    have hc := isDigit_iff.mp (hdigits c List.mem_cons_self)
    -- a digit is neither a space nor a sign
    have hspace : isSpace c = false := by
      simp [isSpace]
      omega
    have hminus : c ≠ '-' := by
      rintro rfl
      exact absurd hc.1 (by decide)
    have hplus : c ≠ '+' := by
      rintro rfl
      exact absurd hc.1 (by decide)
    have hspaces : ((c :: rest).takeWhile isSpace).length = 0 := by
      rw [List.takeWhile_cons, hspace]
      rfl
    have hvalue := foldl_digits hdigits 0
    have hf : Fits 32 (Nat.ofDigitChars 10 (c :: rest) 0 : Int) := by
      rw [fits32_iff]
      omega
    simp only [stoi, htext, hspaces, List.drop_zero]
    split
    · next heq => exact absurd (List.cons.inj heq).1 hminus
    · next heq => exact absurd (List.cons.inj heq).1 hplus
    · rw [hall, one_mul, show (0 : Int) = ((0 : Nat) : Int) from rfl, hvalue,
        if_pos ⟨List.cons_ne_nil _ _, hf⟩, zero_add, zero_add]

/-- A count that `std::to_string` writes is read back. -/
theorem stoi_toString {n : Nat} (hn : n < 2147483648) :
    stoi (toString (n : Int)) = .ok ((n : Int), (Nat.toDigits 10 n).length) := by
  have htext : (toString (n : Int)).toList = Nat.toDigits 10 n := by
    show (Nat.repr n).toList = Nat.toDigits 10 n
    exact Nat.toList_repr
  have hvalue : Nat.ofDigitChars 10 (Nat.toDigits 10 n) 0 = n := Nat.ofDigitChars_ten_toDigits
  have hread := stoi_digits Nat.toDigits_ne_nil
    (fun c hc => Nat.isDigit_of_mem_toDigits (by decide) (by decide) hc) htext (by omega)
  rwa [hvalue] at hread

/-! ## Short texts of integers -/

/-- What is left after a sign. -/
def afterSign : List Char → List Char
  | '-' :: rest => rest
  | '+' :: rest => rest
  | rest => rest

/-- A digit follows the leading spaces and the sign. What comes after the digits is not looked
at. -/
def StartsWithInteger (text : List Char) : Prop :=
  (afterSign (text.dropWhile isSpace)).takeWhile Char.isDigit ≠ []

instance (text : List Char) : Decidable (StartsWithInteger text) :=
  inferInstanceAs (Decidable (_ ≠ _))

theorem ofDigitChars_lt {digits : List Char} (hdigits : ∀ c ∈ digits, c.isDigit) (n : Nat) :
    Nat.ofDigitChars 10 digits n < (n + 1) * 10 ^ digits.length := by
  induction digits generalizing n with
  | nil =>
    rw [Nat.ofDigitChars_nil, List.length_nil]
    omega
  | cons c digits ih =>
    have h57 := (isDigit_iff.mp (hdigits c List.mem_cons_self)).2
    have hrest := ih (fun d hd => hdigits d (List.mem_cons_of_mem c hd))
      (10 * n + (c.toNat - '0'.toNat))
    rw [Nat.ofDigitChars_cons, List.length_cons, Nat.pow_succ']
    calc Nat.ofDigitChars 10 digits (10 * n + (c.toNat - '0'.toNat))
        < (10 * n + (c.toNat - '0'.toNat) + 1) * 10 ^ digits.length := hrest
      _ ≤ (n + 1) * 10 * 10 ^ digits.length := by
        apply Nat.mul_le_mul_right
        show 10 * n + (c.toNat - 48) + 1 ≤ (n + 1) * 10
        omega
      _ = (n + 1) * (10 * 10 ^ digits.length) := Nat.mul_assoc _ _ _

theorem length_afterSign_le (text : List Char) : (afterSign text).length ≤ text.length := by
  unfold afterSign
  split
  · exact Nat.le_succ _
  · exact Nat.le_succ _
  · exact le_refl _

/-- The integer that few characters start with. -/
theorem fits_stoi {text rest : List Char} {sign : Int} (hlength : text.length ≤ 6)
    (hrest : afterSign (text.dropWhile isSpace) = rest) (hsign : sign = 1 ∨ sign = -1) :
    Fits 32 (sign * (rest.takeWhile Char.isDigit).foldl
      (fun n (c : Char) => 10 * n + ((c.toNat : Int) - 48)) 0) := by
  have hdigits : ∀ c ∈ rest.takeWhile Char.isDigit, c.isDigit = true := fun c hc =>
    List.mem_takeWhile_imp hc
  have hshort : (rest.takeWhile Char.isDigit).length ≤ 6 := by
    have htake := (List.takeWhile_prefix Char.isDigit (l := rest)).length_le
    have hafter := length_afterSign_le (text.dropWhile isSpace)
    have hdrop := (List.dropWhile_suffix isSpace (l := text)).length_le
    rw [hrest] at hafter
    omega
  have hvalue := foldl_digits hdigits 0
  have hlt := ofDigitChars_lt hdigits 0
  have hpow : 10 ^ (rest.takeWhile Char.isDigit).length ≤ 10 ^ 6 :=
    Nat.pow_le_pow_right (by decide) hshort
  rw [Nat.cast_zero] at hvalue
  rw [hvalue, fits32_iff]
  cases hsign with
  | inl hplus =>
    rw [hplus]
    omega
  | inr hminus =>
    rw [hminus]
    omega

/-- Few characters are read exactly when they start with an integer. -/
theorem stoi_short {text : List Char} (hlength : text.length ≤ 6) :
    (StartsWithInteger text → ∃ result, stoi (String.ofList text) = .ok result) ∧
      (¬ StartsWithInteger text → stoi (String.ofList text) = .throws) := by
  have hdrop : text.drop (text.takeWhile isSpace).length = text.dropWhile isSpace := by
    have hsplit := List.takeWhile_append_dropWhile (p := isSpace) (l := text)
    calc text.drop (text.takeWhile isSpace).length
        = (text.takeWhile isSpace ++ text.dropWhile isSpace).drop
            (text.takeWhile isSpace).length := by rw [hsplit]
      _ = text.dropWhile isSpace := List.drop_left
  have hsigned : ∃ (sign : Int) (signLength : Nat),
      (match text.dropWhile isSpace with
        | '-' :: rest => (-1, 1, rest)
        | '+' :: rest => (1, 1, rest)
        | rest => (1, 0, rest)) = (sign, signLength, afterSign (text.dropWhile isSpace)) ∧
      (sign = 1 ∨ sign = -1) := by
    unfold afterSign
    split
    · exact ⟨-1, 1, rfl, .inr rfl⟩
    · exact ⟨1, 1, rfl, .inl rfl⟩
    · exact ⟨1, 0, rfl, .inl rfl⟩
  obtain ⟨sign, signLength, hmatch, hsign⟩ := hsigned
  simp only [stoi, String.toList_ofList, hdrop, hmatch]
  apply And.intro
  · intro hdigits
    exact ⟨_, if_pos ⟨hdigits, fits_stoi hlength rfl hsign⟩⟩
  · intro hnone
    exact if_neg fun h => hnone h.1

/-! ## Values of a node -/

/-- The conversions of texts to numbers and times: `std::stod`, with how many characters it took
and nothing for a value that is not finite, and the seconds from the start of 2000 to what
`time_from_string` reads, with nothing for a special time. -/
structure Readers (T : Type) where
  stod : String → Option (T × Nat)
  timeFromString : String → Option T

/-- `Text`. -/
def readText (node : XmlNode) (field : String) : Outcome String := do
  let value := trimCopy (node.child field).childValue
  require (value ≠ "")
  return value

/-- `std::numeric_limits<size_t>::max()`. -/
def sizeMax : Nat := 2 ^ 64 - 1

/-- `PositiveInteger`. -/
def positiveInteger (text : String) : Outcome Int := do
  let (value, consumed) ← stoi text
  require (consumed = text.toList.length ∧ value > 0)
  return value

/-- `Index`. -/
def readIndex (node : XmlNode) (field : String) : Outcome Int :=
  match node.attributeValue field with
  | some value => positiveInteger value
  | none => .throws

/-- `CheckCount`. -/
def checkCount (node : XmlNode) (count : Nat) : Outcome Unit := do
  let expected ← readIndex node "count"
  require (expected = count)

section Readers

variable {T : Type} (readers : Readers T)

/-- `Number`, of a field. -/
def readNumber (node : XmlNode) (field : String) : Outcome T := do
  let text ← readText node field
  match readers.stod text with
  | some (value, consumed) => do
    require (consumed = text.toList.length)
    return value
  | none => .throws

/-- `Time`. -/
def readTime (node : XmlNode) (field : String) : Outcome T := do
  let text ← readText node field
  require (utcPattern text.toList)
  let withoutZone := if text.toList.getLast? = some 'Z' then text.toList.dropLast else text.toList
  let dateTimeSeparator := 10
  match readers.timeFromString (String.ofList (withoutZone.set dateTimeSeparator ' ')) with
  | some time => return time
  | none => .throws

end Readers

/-! ## Readers for plain texts -/

section Sample

/-- The value of a text of digits. -/
def digitsValue (digits : List Char) : ℚ :=
  digits.foldl (fun n c => 10 * n + ((c.toNat : ℚ) - 48)) 0

/-- Numbers without a sign, a fraction or an exponent, and times of the first day of 2000. -/
def sampleReaders : Readers ℚ where
  stod text :=
    let digits := text.toList.takeWhile Char.isDigit
    if digits = [] then none else some (digitsValue digits, digits.length)
  timeFromString text :=
    let part (first : Nat) := digitsValue ((text.toList.drop first).take 2)
    if text.toList.take 10 = "2000-01-01".toList then
      let fraction := text.toList.drop 20
      some (part 11 * 3600 + part 14 * 60 + part 17 +
        digitsValue fraction / 10 ^ fraction.length)
    else none

def leaf (name value : String) : XmlContent := .element name [] [.text value]

end Sample

end Alus.Etad
