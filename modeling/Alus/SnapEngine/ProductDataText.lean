import Alus.Lib.Text
import Alus.SnapEngine.PugixmlMetaDataReader

/-!
# Product data as texts

`GetElemString` and `SetElems` of the classes of `ProductData` (`product_data.cc`,
`product_data_*.cc`): the elements are joined with commas, and each piece of a text is converted
and checked against the limits of the class. The texts of floating-point numbers are parameters.
-/

namespace Alus.SnapEngine.Dimap

open Alus.Lib
open Alus.Etad (afterSign foldl_digits isDigit_iff isSpace stoi stoi_toString)
open Alus.S1tbx (Calendar isDigit_of_mem_digitsOf)
open Outcome (collect collect_eq_ok require)

/-! ## Integers -/

/-- What `strtol` and the like read of a text: if there is a minus, and the value of the digits. -/
def readDecimal (text : String) : Option (Bool × Nat) :=
  let signed := text.toList.dropWhile isSpace
  let digits := (afterSign signed).takeWhile Char.isDigit
  if digits = [] then none else some (signed.head? = some '-', Nat.ofDigitChars 10 digits 0)

/-- `std::stoll`, and `std::stol` where a `long` has 64 bits. -/
def stoll (text : String) : Outcome Int :=
  match readDecimal text with
  | some (negative, magnitude) =>
    let value : Int := if negative then -magnitude else magnitude
    if Fits 64 value then .ok value else .throws
  | none => .throws

/-- `std::stoull` and `std::stoul`, which negate within their range. -/
def stoull (text : String) : Outcome Int :=
  match readDecimal text with
  | some (negative, magnitude) =>
    if magnitude < 2 ^ 64 then
      if negative then .ok ((2 ^ 64 - magnitude) % 2 ^ 64 : Nat) else .ok magnitude
    else .throws
  | none => .throws

/-- `Byte`, `Short`, `Int`, `Long`, `UByte`, `UShort` and `UInt`. -/
inductive IntegerType where
  | int8 | int16 | int32 | int64 | uint8 | uint16 | uint32
  deriving DecidableEq

namespace IntegerType

def typeString : IntegerType → String
  | int8 => "int8"
  | int16 => "int16"
  | int32 => "int32"
  | int64 => "int64"
  | uint8 => "uint8"
  | uint16 => "uint16"
  | uint32 => "uint32"

/-- The values of an element of the array. -/
def InRange : IntegerType → Int → Prop
  | int8, v => -128 ≤ v ∧ v ≤ 127
  | int16, v => -32768 ≤ v ∧ v ≤ 32767
  | int32, v => -2147483648 ≤ v ∧ v ≤ 2147483647
  | int64, v => Fits 64 v
  | uint8, v => 0 ≤ v ∧ v ≤ 255
  | uint16, v => 0 ≤ v ∧ v ≤ 65535
  | uint32, v => 0 ≤ v ∧ v ≤ 4294967295

instance (type : IntegerType) (v : Int) : Decidable (type.InRange v) := by
  cases type <;> exact inferInstanceAs (Decidable (_ ∧ _))

/-- An element of the array. -/
abbrev Elem (type : IntegerType) : Type := {v : Int // type.InRange v}

/-- The conversion that `SetElems` uses. -/
def convert : IntegerType → String → Outcome Int
  | int8, s | int16, s => do
    let (v, _) ← stoi s
    return v
  | int32, s | int64, s => stoll s
  | uint8, s | uint16, s | uint32, s => stoull s

/-- What `SetElems` makes of a text. A `Long` has the limits of the conversion. -/
def setElem (type : IntegerType) (s : String) : Outcome type.Elem := do
  let v ← type.convert s
  if h : type.InRange v then .ok ⟨v, h⟩ else .throws

end IntegerType

/-! ## Product data -/

/-- How the elements of a `Float` or a `Double` are written and read. What is written has no comma
and no control characters, is more than blanks, and can be read. -/
structure FloatText (F : Type) where
  elemString : F → String
  setElem : String → Outcome F
  /-- The value that is read of what is written. -/
  rounded : F → F
  setElem_elemString : ∀ v, setElem (elemString v) = .ok (rounded v)
  not_mem_elemString : ∀ v, ',' ∉ (elemString v).toList
  exists_mem_elemString : ∀ v, ∃ c ∈ (elemString v).toList, isSpace c = false
  printable_elemString : ∀ v, ∀ c ∈ (elemString v).toList, ' ' ≤ c

/-- The classes of `ProductData`, with their arrays. -/
inductive ProductData (F G : Type) where
  | integers (type : IntegerType) (array : List type.Elem)
  | float32 (array : List F)
  | float64 (array : List G)
  | ascii (array : String)
  | utc (array : UtcElems)

/-- The conversions: the date format, whose dates have no comma and no control characters, and the
texts of `Float` and of `Double`. -/
structure Conversions (F G : Type) (calendar : Calendar) where
  facet : DateFormatIn calendar
  float32 : FloatText F
  float64 : FloatText G
  not_mem_date : ∀ day, ',' ∉ calendar.text day
  printable_date : ∀ day, ∀ c ∈ calendar.text day, ' ' ≤ c

variable {F G : Type} {calendar : Calendar}

namespace ProductData

/-- `GetTypeString`. -/
def typeString : ProductData F G → String
  | integers type _ => type.typeString
  | float32 _ => "float32"
  | float64 _ => "float64"
  | ascii _ => "ascii"
  | utc _ => "utc"

/-- The texts of the elements, of which a scalar has one. -/
def joined (texts : List String) : String := String.intercalate "," texts

/-- `GetElemString`. There is no date outside the calendar. -/
def getElemString (conversions : Conversions F G calendar) : ProductData F G → Outcome String
  | integers _ array => .ok (joined (array.map fun v => toString v.1))
  | float32 array => .ok (joined (array.map conversions.float32.elemString))
  | float64 array => .ok (joined (array.map conversions.float64.elemString))
  | ascii array => .ok array
  | utc array => do
    let text ← array.format calendar
    return String.ofList text

/-- An element of `UInt`, as `GetElemIntAt` returns it. -/
def signed (v : Int) : Int := if v < 2147483648 then v else v - 4294967296

/-- `SetElems` of a `Utc`, which is a `UInt` with three elements. There is no element for a fourth
text. -/
def setUtcElems (texts : List String) : Outcome (ProductData F G) := do
  let elems ← collect ((texts.take 4).map IntegerType.uint32.setElem)
  match elems.map fun v => signed v.1 with
  | [] => return utc ⟨0, 0, 0⟩
  | [days] => return utc ⟨days, 0, 0⟩
  | [days, seconds] => return utc ⟨days, seconds, 0⟩
  | [days, seconds, microseconds] => return utc ⟨days, seconds, microseconds⟩
  | _ => .undefined

def setIntegers (type : IntegerType) (texts : List String) : Outcome (ProductData F G) := do
  let array ← collect (texts.map type.setElem)
  return integers type array

/-- `CreateInstance`, with as many elements as there are texts, and `SetElems`. The reader makes
an `ASCII` of its text. -/
def setElems (conversions : Conversions F G calendar) (type : ProductType)
    (texts : List String) : Outcome (ProductData F G) :=
  match type with
  | .int8 => setIntegers .int8 texts
  | .int16 => setIntegers .int16 texts
  | .int32 => setIntegers .int32 texts
  | .int64 => setIntegers .int64 texts
  | .uint8 => setIntegers .uint8 texts
  | .uint16 => setIntegers .uint16 texts
  | .uint32 => setIntegers .uint32 texts
  | .float32 => do
    let array ← collect (texts.map conversions.float32.setElem)
    return float32 array
  | .float64 => do
    let array ← collect (texts.map conversions.float64.setElem)
    return float64 array
  | .utc => setUtcElems texts
  | .ascii | .undefined => .throws

end ProductData

/-- The conversions of the classes. -/
def productDataReader (conversions : Conversions F G calendar) : DataReader (ProductData F G) where
  createAscii := .ascii
  utcParse text :=
    match UtcElems.parse conversions.facet text.toList with
    | .ok u => some (.utc u)
    | _ => none
  setElems := ProductData.setElems conversions

/-- A text of spaces only, which the parser of the file drops. -/
def isBlank (text : String) : Bool := text.toList.all isSpace

/-- A text without control characters. -/
def IsPrintable (text : String) : Prop := ∀ c ∈ text.toList, ' ' ≤ c

theorem printable_of_all {text : List Char} (h : text.all (fun c => ' '.toNat ≤ c.toNat)) :
    ∀ c ∈ text, ' ' ≤ c :=
  fun c hc => of_decide_eq_true (List.all_eq_true.mp h c hc)

namespace ProductData

/-- There is more than spaces to write. -/
def hasText : ProductData F G → Bool
  | integers _ array => !array.isEmpty
  | float32 array => !array.isEmpty
  | float64 array => !array.isEmpty
  | ascii array => !isBlank array
  | utc _ => true

/-- A time has a date in the calendar and less than a second of microseconds. -/
def IsTimed : ProductData F G → Prop
  | utc u => InCalendar u.wholeSeconds ∧ u.IsFraction
  | _ => True

/-- A text has no control characters. -/
def HasPrintableText : ProductData F G → Prop
  | ascii array => IsPrintable array
  | _ => True

/-- What is read of the text of the data. -/
def reread (conversions : Conversions F G calendar) : ProductData F G → ProductData F G
  | integers type array => integers type array
  | float32 array => float32 (array.map conversions.float32.rounded)
  | float64 array => float64 (array.map conversions.float64.rounded)
  | ascii array => ascii array
  | utc u => utc u.resplit

end ProductData

/-! ## Reading what was written -/

section Integers

/-- The digits of a number, after its sign. -/
theorem toList_toString (n : Int) : (toString n).toList =
    if n < 0 then '-' :: Nat.toDigits 10 n.natAbs else Nat.toDigits 10 n.natAbs := by
  cases n with
  | ofNat n => simp [Int.toString_eq_repr, Int.repr, Nat.toList_repr]
  | negSucc n =>
    rw [if_pos (Int.negSucc_lt_zero n), Int.toString_eq_repr, Int.repr]
    simp [Nat.toList_repr, Int.natAbs_negSucc]

theorem isDigit_of_mem_toDigits {n : Nat} {c : Char} (h : c ∈ Nat.toDigits 10 n) :
    c.isDigit = true :=
  Nat.isDigit_of_mem_toDigits (by decide) (by decide) h

/-- A character of a number is a digit or the sign. -/
theorem mem_toString {n : Int} {c : Char} (h : c ∈ (toString n).toList) :
    c = '-' ∨ c.isDigit = true := by
  rw [toList_toString] at h
  split at h
  · exact (List.mem_cons.mp h).imp_right isDigit_of_mem_toDigits
  · exact .inr (isDigit_of_mem_toDigits h)

/-- Digits are not spaces and have no sign. -/
theorem afterSign_toDigits (n : Nat) :
    (Nat.toDigits 10 n).dropWhile isSpace = Nat.toDigits 10 n ∧
      afterSign (Nat.toDigits 10 n) = Nat.toDigits 10 n ∧
      (Nat.toDigits 10 n).head? ≠ some '-' := by
  have hdigits : ∀ c ∈ Nat.toDigits 10 n, c.isDigit = true := fun c => isDigit_of_mem_toDigits
  cases hlist : Nat.toDigits 10 n with
  | nil => exact absurd hlist Nat.toDigits_ne_nil
  | cons c rest =>
    have hc := isDigit_iff.mp (hdigits c (by simp [hlist]))
    have hspace : isSpace c = false := by
      simp [isSpace]
      omega
    have hminus : c ≠ '-' := by
      rintro rfl
      exact absurd hc.1 (by decide)
    have hplus : c ≠ '+' := by
      rintro rfl
      exact absurd hc.1 (by decide)
    refine ⟨by simp [hspace], ?_, by simpa using hminus⟩
    simp [afterSign, hminus, hplus]

theorem takeWhile_toDigits (n : Nat) :
    (Nat.toDigits 10 n).takeWhile Char.isDigit = Nat.toDigits 10 n :=
  List.takeWhile_eq_self_iff.mpr fun _ => isDigit_of_mem_toDigits

/-- What `std::to_string` writes is read back. -/
theorem readDecimal_toString (n : Int) :
    readDecimal (toString n) = some (decide (n < 0), n.natAbs) := by
  obtain ⟨hspace, hsign, hminus⟩ := afterSign_toDigits n.natAbs
  unfold readDecimal
  rw [toList_toString]
  by_cases h : n < 0
  · have hblank : isSpace '-' = false := by decide
    simp [h, hblank, afterSign, takeWhile_toDigits, Nat.toDigits_ne_nil]
  · simp only [h, if_false, hspace, hsign, takeWhile_toDigits, Nat.toDigits_ne_nil,
      Nat.ofDigitChars_ten_toDigits, hminus, decide_false]

theorem stoll_toString {n : Int} (h : Fits 64 n) : stoll (toString n) = .ok n := by
  rw [stoll, readDecimal_toString]
  dsimp only
  have hvalue : (if decide (n < 0) = true then -(n.natAbs : Int) else n.natAbs) = n := by
    simp only [decide_eq_true_eq]
    split <;> omega
  rw [hvalue, if_pos h]

theorem stoull_toString {n : Int} (h : 0 ≤ n) (hlt : n < 2 ^ 64) :
    stoull (toString n) = .ok n := by
  rw [stoull, readDecimal_toString]
  dsimp only
  rw [if_pos (by omega), if_neg (by simpa using h)]
  exact congrArg Outcome.ok (Int.natAbs_of_nonneg h)

theorem stoi_fits {n : Int} (h : Fits 32 n) :
    ∃ consumed, stoi (toString n) = .ok (n, consumed) := by
  rw [fits32_iff] at h
  rcases Int.lt_or_le n 0 with hneg | hnonneg
  · have htext : (toString n).toList = '-' :: Nat.toDigits 10 n.natAbs := by
      rw [toList_toString, if_pos hneg]
    have hvalue := foldl_digits (fun _ => isDigit_of_mem_toDigits (n := n.natAbs)) 0
    rw [Nat.ofDigitChars_ten_toDigits, Nat.cast_zero] at hvalue
    have hspace : (('-' :: Nat.toDigits 10 n.natAbs).takeWhile isSpace).length = 0 := by
      simp [show isSpace '-' = false by decide]
    refine ⟨0 + 1 + (Nat.toDigits 10 n.natAbs).length, ?_⟩
    simp only [stoi, htext, hspace, List.drop_zero, takeWhile_toDigits, hvalue]
    have hn : -1 * (n.natAbs : Int) = n := by omega
    rw [hn, if_pos ⟨Nat.toDigits_ne_nil, fits32_iff.mpr h⟩]
  · obtain ⟨m, rfl⟩ := Int.eq_ofNat_of_zero_le hnonneg
    exact ⟨_, stoi_toString (by omega)⟩

/-- Each class reads back what it writes of an element. -/
theorem IntegerType.setElem_toString (type : IntegerType) (v : type.Elem) :
    type.setElem (toString v.1) = .ok v := by
  have hconvert : type.convert (toString v.1) = .ok v.1 := by
    have hv := v.2
    cases type with
    | int8 | int16 =>
      have hfits : Fits 32 v.1 := fits32_iff.mpr ⟨by have := hv.1; omega, by have := hv.2; omega⟩
      obtain ⟨consumed, hread⟩ := stoi_fits hfits
      rw [convert, hread]
      rfl
    | int32 => exact stoll_toString ⟨by have := hv.1; omega, by have := hv.2; omega⟩
    | int64 => exact stoll_toString hv
    | uint8 | uint16 | uint32 => exact stoull_toString hv.1 (by have := hv.2; omega)
  rw [setElem, hconvert, Outcome.ok_bind, dif_pos v.2]

end Integers

section Data

variable (conversions : Conversions F G calendar)

/-- Joined texts are split and converted one by one. -/
theorem collect_splitOn_joined {α A : Type} {setElem : String → Outcome A} (text : α → String)
    (value : α → A) (hread : ∀ v, setElem (text v) = .ok (value v))
    (hcomma : ∀ v, ',' ∉ (text v).toList) {array : List α} (hne : array ≠ []) :
    collect (((ProductData.joined (array.map text)).splitOn ",").map setElem) =
      .ok (array.map value) := by
  have hsplit : (ProductData.joined (array.map text)).splitOn "," = array.map text := by
    refine splitOn_intercalate (c := ',') (by simpa using hne) fun piece hpiece => ?_
    obtain ⟨v, -, rfl⟩ := List.mem_map.mp hpiece
    exact hcomma v
  rw [hsplit, collect_eq_ok, List.map_map, List.map_map]
  exact List.map_congr_left fun v _ => hread v

/-- A character of joined texts is in one of them, or separates them. -/
theorem mem_joined {c : Char} {texts : List String} (h : c ∈ (ProductData.joined texts).toList) :
    c = ',' ∨ ∃ text ∈ texts, c ∈ text.toList := by
  induction texts with
  | nil => simp [ProductData.joined] at h
  | cons text rest ih =>
    by_cases hrest : rest = []
    · subst hrest
      exact .inr ⟨text, List.mem_singleton_self text, by simpa [ProductData.joined] using h⟩
    · rw [ProductData.joined, String.intercalate_cons_of_ne_nil hrest] at h
      simp only [String.toList_append, List.mem_append] at h
      rcases h with (hfirst | hcomma) | hmore
      · exact .inr ⟨text, List.mem_cons_self, hfirst⟩
      · exact .inl (by simpa using hcomma)
      · obtain hcomma | ⟨text', hmem, hc⟩ := ih hmore
        · exact .inl hcomma
        · exact .inr ⟨text', List.mem_cons_of_mem _ hmem, hc⟩

/-- The first of joined texts has its characters in them. -/
theorem mem_joined_of_mem {c : Char} {text : String} {rest : List String} (h : c ∈ text.toList) :
    c ∈ (ProductData.joined (text :: rest)).toList := by
  rw [ProductData.joined, String.toList_intercalate]
  cases rest <;> simp [List.intercalate, h]

/-- A text of the data, and what becomes of it. -/
structure WrittenText (data : ProductData F G) (text : String) : Prop where
  written : data.getElemString conversions = .ok text
  blank : isBlank text = !data.hasText
  read : data.hasText = true →
    readData (productDataReader conversions) data.typeString text =
      .ok (some (data.reread conversions))
  printable : data.HasPrintableText → IsPrintable text

section Arrays

variable {α : Type}

theorem isBlank_joined (elemString : α → String) (array : List α)
    (h : ∀ v, ∃ c ∈ (elemString v).toList, isSpace c = false) :
    isBlank (ProductData.joined (array.map elemString)) = array.isEmpty := by
  cases array with
  | nil => simp [ProductData.joined, isBlank]
  | cons v rest =>
    obtain ⟨c, hc, hspace⟩ := h v
    have hmem : c ∈ (ProductData.joined ((v :: rest).map elemString)).toList :=
      mem_joined_of_mem hc
    rw [isBlank, List.isEmpty_cons, List.all_eq_false]
    exact ⟨c, hmem, by simp [hspace]⟩

theorem isPrintable_joined {elemString : α → String} {array : List α}
    (h : ∀ v, ∀ c ∈ (elemString v).toList, ' ' ≤ c) :
    IsPrintable (ProductData.joined (array.map elemString)) := by
  intro c hc
  rcases mem_joined hc with rfl | ⟨text, htext, hmem⟩
  · decide
  · obtain ⟨v, -, rfl⟩ := List.mem_map.mp htext
    exact h v c hmem

end Arrays

theorem digit_printable {c : Char} (h : c.isDigit = true) : c ≠ ',' ∧ ' ' ≤ c := by
  have hrange := isDigit_iff.mp h
  refine ⟨?_, ?_⟩
  · rintro rfl
    exact absurd hrange.1 (by decide)
  · rw [Char.le_def, UInt32.le_iff_toNat_le]
    exact le_trans (by decide) hrange.1

/-- The text of an integer has digits and a sign only. -/
theorem toString_characters (n : Int) : ',' ∉ (toString n).toList ∧
    (∃ c ∈ (toString n).toList, isSpace c = false) ∧ ∀ c ∈ (toString n).toList, ' ' ≤ c := by
  have hchar (c : Char) (hc : c ∈ (toString n).toList) :
      c ≠ ',' ∧ isSpace c = false ∧ ' ' ≤ c := by
    rcases mem_toString hc with rfl | hdigit
    · decide
    · have hrange := isDigit_iff.mp hdigit
      obtain ⟨hcomma, hprintable⟩ := digit_printable hdigit
      exact ⟨hcomma, by simp [isSpace]; omega, hprintable⟩
  refine ⟨fun h => (hchar _ h).1 rfl, ?_, fun c hc => (hchar c hc).2.2⟩
  have hne : (toString n).toList ≠ [] := by
    rw [toList_toString]
    split <;> simp [Nat.toDigits_ne_nil]
  obtain ⟨c, hc⟩ := List.exists_mem_of_ne_nil _ hne
  exact ⟨c, hc, (hchar c hc).2.1⟩

/-- The class is found by the name of its type. -/
theorem readData_integers {type : IntegerType} {text : String} {data : ProductData F G}
    (h : ProductData.setIntegers type (text.splitOn ",") = .ok data) :
    readData (productDataReader conversions) type.typeString text = .ok (some data) := by
  cases type <;>
    simp [readData, IntegerType.typeString, getType, productDataReader, ProductData.setElems, h]

theorem writtenText_integers (type : IntegerType) (array : List type.Elem) :
    WrittenText conversions (.integers type array)
      (ProductData.joined (array.map fun v => toString v.1)) where
  written := rfl
  blank := by
    have hblank := isBlank_joined (fun v => toString v.1) array
      fun v => (toString_characters v.1).2.1
    rw [hblank, ProductData.hasText, Bool.not_not]
  read h := by
    have hne : array ≠ [] := by simpa [ProductData.hasText] using h
    have hset := collect_splitOn_joined (fun v : type.Elem => toString v.1) id
      type.setElem_toString (fun v => (toString_characters v.1).1) hne
    rw [List.map_id] at hset
    refine readData_integers conversions ?_
    rw [ProductData.setIntegers, hset]
    rfl
  printable _ := isPrintable_joined fun v => (toString_characters v.1).2.2

theorem writtenText_float32 (array : List F) : WrittenText conversions (.float32 array)
    (ProductData.joined (array.map conversions.float32.elemString)) where
  written := rfl
  blank := by
    rw [isBlank_joined _ _ conversions.float32.exists_mem_elemString, ProductData.hasText,
      Bool.not_not]
  read h := by
    have hne : array ≠ [] := by simpa [ProductData.hasText] using h
    have hset := collect_splitOn_joined _ _ conversions.float32.setElem_elemString
      conversions.float32.not_mem_elemString hne
    simp [readData, ProductData.typeString, getType, productDataReader, ProductData.setElems, hset,
      ProductData.reread]
  printable _ := isPrintable_joined conversions.float32.printable_elemString

theorem writtenText_float64 (array : List G) : WrittenText conversions (.float64 array)
    (ProductData.joined (array.map conversions.float64.elemString)) where
  written := rfl
  blank := by
    rw [isBlank_joined _ _ conversions.float64.exists_mem_elemString, ProductData.hasText,
      Bool.not_not]
  read h := by
    have hne : array ≠ [] := by simpa [ProductData.hasText] using h
    have hset := collect_splitOn_joined _ _ conversions.float64.setElem_elemString
      conversions.float64.not_mem_elemString hne
    simp [readData, ProductData.typeString, getType, productDataReader, ProductData.setElems, hset,
      ProductData.reread]
  printable _ := isPrintable_joined conversions.float64.printable_elemString

theorem writtenText_ascii (array : String) :
    WrittenText conversions (.ascii array) array where
  written := rfl
  blank := (Bool.not_not _).symm
  read _ := by simp [readData, ProductData.typeString, getType, productDataReader,
    ProductData.reread]
  printable h := h

/-- The characters of a time of the day. -/
theorem clockText_characters {n : Nat} {c : Char} (h : c ∈ clockText n) :
    c = ':' ∨ c.isDigit = true := by
  unfold clockText at h
  simp only [List.mem_append, List.mem_cons] at h
  rcases h with h | h | h | h | h
  · exact .inr (isDigit_of_mem_digitsOf h)
  · exact .inl h
  · exact .inr (isDigit_of_mem_digitsOf h)
  · exact .inl h
  · exact .inr (isDigit_of_mem_digitsOf h)

/-- The text of a time in the calendar. -/
theorem format_eq {u : UtcElems} {text : List Char} (h : u.format calendar = .ok text) :
    text = dateTimeText calendar u.wholeSeconds ++ '.' ::
      (List.replicate (6 - (toString u.microseconds).toList.length) '0' ++
        (toString u.microseconds).toList) := by
  obtain ⟨_, -, htext⟩ := Outcome.bind_eq_ok.mp h
  exact (Outcome.ok.inj htext).symm

/-- A character of a time is one of its date, a separator or a digit. -/
theorem mem_format {u : UtcElems} {text : List Char} {c : Char}
    (h : u.format calendar = .ok text) (hc : c ∈ text) :
    (∃ day, c ∈ calendar.text day) ∨ c ∈ [' ', ':', '.', '-'] ∨ c.isDigit = true := by
  rw [format_eq h, dateTimeText] at hc
  simp only [List.mem_append, List.mem_cons] at hc
  rcases hc with (hdate | hblank | hclock) | hpoint | hzero | hmicros
  · exact .inl ⟨_, hdate⟩
  · exact .inr (.inl (by simp [hblank]))
  · rcases clockText_characters hclock with rfl | hdigit
    · exact .inr (.inl (by simp))
    · exact .inr (.inr hdigit)
  · exact .inr (.inl (by simp [hpoint]))
  · rw [List.eq_of_mem_replicate hzero]
    exact .inr (.inr (by decide))
  · rcases mem_toString hmicros with rfl | hdigit
    · exact .inr (.inl (by simp))
    · exact .inr (.inr hdigit)

theorem writtenText_utc {u : UtcElems} (h : (ProductData.utc u : ProductData F G).IsTimed) :
    ∃ text, WrittenText conversions (.utc u) text := by
  obtain ⟨hcalendar, hfraction⟩ := h
  obtain ⟨text, hformat⟩ : ∃ text, u.format calendar = .ok text := by
    rw [UtcElems.format, Outcome.require_of hcalendar]
    exact ⟨_, rfl⟩
  have hparse := UtcElems.parse_format conversions.facet hcalendar hfraction
  rw [hformat, Outcome.ok_bind] at hparse
  -- a date has none of its own, and digits have none
  have hchar (c : Char) (hc : c ∈ text) : c ≠ ',' ∧ ' ' ≤ c := by
    rcases mem_format hformat hc with ⟨day, hday⟩ | hmark | hdigit
    · exact ⟨fun hsame => conversions.not_mem_date day (hsame ▸ hday),
        conversions.printable_date day c hday⟩
    · simp only [List.mem_cons, List.not_mem_nil, or_false] at hmark
      rcases hmark with rfl | rfl | rfl | rfl <;> decide
    · exact digit_printable hdigit
  have hpoint : '.' ∈ text := by
    rw [format_eq hformat]
    simp
  refine ⟨String.ofList text, by rw [ProductData.getElemString, hformat]; rfl, ?_, fun _ => ?_,
    fun _ => ?_⟩
  · rw [isBlank, String.toList_ofList, ProductData.hasText, Bool.not_true, List.all_eq_false]
    exact ⟨'.', hpoint, by decide⟩
  · have hcomma : ¬ ',' ∈ text := fun hmem => (hchar _ hmem).1 rfl
    simp [readData, ProductData.typeString, getType, productDataReader, hcomma, hparse,
      ProductData.reread]
  · intro c hc
    exact (hchar c (by simpa using hc)).2

/-- What is written of data is read as the data, rounded or split as its class does it. -/
theorem exists_writtenText {data : ProductData F G} (h : data.IsTimed) :
    ∃ text, WrittenText conversions data text := by
  cases data with
  | integers type array => exact ⟨_, writtenText_integers conversions type array⟩
  | float32 array => exact ⟨_, writtenText_float32 conversions array⟩
  | float64 array => exact ⟨_, writtenText_float64 conversions array⟩
  | ascii array => exact ⟨_, writtenText_ascii conversions array⟩
  | utc u => exact writtenText_utc conversions h

end Data

end Alus.SnapEngine.Dimap
