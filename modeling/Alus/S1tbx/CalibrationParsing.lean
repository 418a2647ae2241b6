import Mathlib.Logic.Function.Basic
import Alus.Lib.NumGet
import Alus.SnapEngine.OrbitMetadata
import Alus.SnapEngine.UtcTimes
import Alus.TopsarDeburst.CalibrationVectors

/-!
# The calibration vectors of the metadata

`Sentinel1Utils::GetCalibrationVectors` (`sentinel1_utils.cc`) reads the vectors of a list of
metadata elements. The pixels and the values of each selected band are texts of numbers with blanks
between them; with each text the metadata says how many numbers it has. A text is read from a
stream until an extraction fails, and is accepted if the stream is then at its end.
-/

namespace Alus.S1tbx.Calibration

open Alus.Lib
open Alus.Etad (isSpace stoi)
open Alus.SnapEngine (UtcElems nodeGet)
open Alus.TopsarDeburst (CalibrationUnit validateMetadataCount)
open Outcome (require collect)

/-! ## Metadata -/

/-- `ProductData`: a text, or data of another type with what `GetElemString` and `GetElemInt` return
of it, nothing where they throw. -/
inductive ProductData where
  | ascii (text : List Char)
  | other (elemString : Option (List Char)) (elemInt : Option Int)

/-- `MetadataAttribute`. -/
structure MetadataAttribute where
  name : List Char
  data : ProductData

/-- `MetadataElement`. -/
inductive MetadataElement where
  | mk (name : List Char) (attributes : List MetadataAttribute) (elements : List MetadataElement)

namespace MetadataElement

def name : MetadataElement → List Char
  | mk name _ _ => name

def attributes : MetadataElement → List MetadataAttribute
  | mk _ attributes _ => attributes

/-- `GetElements`. -/
def elements : MetadataElement → List MetadataElement
  | mk _ _ elements => elements

/-- `GetAttribute`. -/
def getAttribute (element : MetadataElement) (name : List Char) :
    Outcome (Option MetadataAttribute) :=
  nodeGet MetadataAttribute.name element.attributes name

/-- `GetElement`, and `check_that_metadata_exists`. -/
def getElement (element : MetadataElement) (name : List Char) : Outcome MetadataElement := do
  match ← nodeGet MetadataElement.name element.elements name with
  | some child => return child
  | none => .throws

/-- `GetElemString`. -/
def elemString : ProductData → Outcome (List Char)
  | .ascii text => .ok text
  | .other (some text) _ => .ok text
  | .other none _ => .throws

/-- `GetAttributeString`. -/
def getAttributeString (element : MetadataElement) (name : List Char) : Outcome (List Char) := do
  match ← element.getAttribute name with
  | some found => elemString found.data
  | none => .throws

/-- `GetAttributeString`, with a default value. -/
def getAttributeStringOr (element : MetadataElement) (name defaultValue : List Char) :
    Outcome (List Char) := do
  match ← element.getAttribute name with
  | some found => elemString found.data
  | none => return defaultValue

/-- `GetAttributeInt`. -/
def getAttributeInt (element : MetadataElement) (name : List Char) : Outcome Int := do
  match ← element.getAttribute name with
  | some ⟨_, .ascii text⟩ => do
    let (value, _) ← stoi (String.ofList text)
    return value
  | some ⟨_, .other _ (some value)⟩ => return value
  | some ⟨_, .other _ none⟩ => .throws
  | none => .throws

end MetadataElement

/-! ## Texts of numbers -/

/-- A blank is no part of a number. -/
theorem not_inNumber_of_isSpace (c : Char) (h : isSpace c = true) : inNumber c = false := by
  simp only [isSpace, Bool.or_eq_true, Bool.and_eq_true, beq_iff_eq, decide_eq_true_eq] at h
  have hdigit : c.isDigit = false := by
    rw [Bool.eq_false_iff, Ne, Etad.isDigit_iff]
    omega
  have hne (d : Char) (hd : 32 < d.toNat) : (c == d) = false := by
    rw [beq_eq_false_iff_ne]
    rintro rfl
    omega
  simp [inNumber, isMark, hdigit, hne]

/-- `operator>>` of an `int`. -/
def readInt : NumGet isSpace IntState Int := intGet not_inNumber_of_isSpace

/-- `operator>>` of a `float`. -/
def readFloat : NumGet isSpace FloatState ℚ := floatGet not_inNumber_of_isSpace

/-- `AddWhitespaceSeparatedValuesImpl`. -/
def addWhitespaceSeparatedValues {σ α : Type} (operator : NumGet isSpace σ α) (values : List α)
    (text : List Char) : Outcome (List α) := do
  let (read, stream) := IStream.readWhile operator ⟨text, false, false⟩
  require (stream.eof = true)
  return values ++ read

/-! ## Calibration vectors -/

/-- `Utc::Parse`, with a pattern. `readDate` is the input facet of the pattern. -/
def utcParse (readDate : List Char → Option Int) (text : List Char) : Outcome UtcElems := do
  require (text ≠ [])
  let fractionString := (text.reverse.takeWhile (· ≠ '.')).reverse
  let noFractionString := ((text.reverse.dropWhile (· ≠ '.')).drop 1).reverse
  if '.' ∈ text then do
    require (fractionString.length ≤ 6)
    let (micros, _) ← stoi (String.ofList fractionString)
    match readDate noFractionString with
    | some date => return UtcElems.create date (micros * 10 ^ (6 - fractionString.length))
    | none => .throws
  else
    match readDate text with
    | some date => return UtcElems.create date 0
    | none => .throws

/-- `Utc::Parse` without a pattern has one of its own. -/
theorem parse_eq_utcParse {calendar : Calendar} (facet : SnapEngine.DateFormatIn calendar)
    (text : List Char) : UtcElems.parse facet text = utcParse facet.read text := rfl

/-- `GetTime`, where `readDate` is the input facet of `%Y-%m-%dT%H:%M:%S`. -/
def getTime (readDate : List Char → Option Int) (element : MetadataElement) (tag : List Char) :
    Outcome UtcElems := do
  let start ← element.getAttributeStringOr tag "-".toList
  utcParse readDate start

/-- `CalibrationVector`. -/
structure CalibrationVector (R : Type) where
  timeMjd : R
  line : Int
  pixels : List Int
  sigmaNought : List ℚ
  betaNought : List ℚ
  gamma : List ℚ
  dn : List ℚ
  arraySize : Nat

/-- The names of the bands in `AbstractMetadata`. -/
def bandName : CalibrationUnit → List Char
  | .sigmaNought => "sigmaNought".toList
  | .betaNought => "betaNought".toList
  | .gamma => "gamma".toList
  | .dn => "dn".toList

/-- The bands in the order of a map with their names as keys. -/
def bands : List CalibrationUnit := [.betaNought, .dn, .gamma, .sigmaNought]

/-- `fetch_unit_data`. -/
def fetchUnitData (element : MetadataElement) (count : Int) (unitData : CalibrationUnit → List ℚ)
    (selectedType : CalibrationUnit) : Outcome (CalibrationUnit → List ℚ) := do
  let unitElement ← element.getElement (bandName selectedType)
  let unitCount ← unitElement.getAttributeInt "count".toList
  let unitString ← unitElement.getAttributeString (bandName selectedType)
  let unitVector ← addWhitespaceSeparatedValues readFloat (unitData selectedType) unitString
  validateMetadataCount unitCount unitVector.length
  require (unitCount = count)
  return Function.update unitData selectedType unitVector

section Vectors

variable (R : Type) [Field R] (readDate : List Char → Option Int)
  (selected : CalibrationUnit → Bool)

/-- One pass of the loop over the elements of the list. -/
def getCalibrationVector (element : MetadataElement) : Outcome (CalibrationVector R) := do
  let time ← getTime readDate element "azimuthTime".toList
  let line ← element.getAttributeInt "line".toList
  let pixelElement ← element.getElement "pixel".toList
  let pixelString ← pixelElement.getAttributeString "pixel".toList
  let count ← pixelElement.getAttributeInt "count".toList
  let pixels ← addWhitespaceSeparatedValues readInt [] pixelString
  validateMetadataCount count pixels.length
  let unitData ← bands.foldlM
    (fun data unit => if selected unit then fetchUnitData element count data unit else return data)
    fun _ => []
  return ⟨time.getMjd R, line, pixels, unitData .sigmaNought, unitData .betaNought, unitData .gamma,
    unitData .dn, count.toNat⟩

/-- `GetCalibrationVectors`. -/
def getCalibrationVectors (calibrationVectorListElement : MetadataElement) :
    Outcome (List (CalibrationVector R)) :=
  collect (calibrationVectorListElement.elements.map (getCalibrationVector R readDate selected))

end Vectors

/-! ## What the vectors should be -/

/-- The numbers of a text in order, each a word of it. -/
def IsNumbers {α : Type} (value : List Char → Option α) (text : List Char) (values : List α) :
    Prop :=
  (words isSpace text).map value = values.map some

/-- How a text stands for numbers. -/
structure TextFormat where
  ints : List Char → List Int → Prop
  floats : List Char → List ℚ → Prop

/-- Numbers with blanks between them. -/
def separated : TextFormat := ⟨IsNumbers intValue, IsNumbers floatValue⟩

/-- Numbers that are read from a stream up to its end. -/
def streamed : TextFormat := ⟨ReadsToEnd readInt, ReadsToEnd readFloat⟩

/-- The list of the given name, with as many entries as are declared. -/
def ListIn {α : Type} (format : List Char → List α → Prop) (element : MetadataElement)
    (name : List Char) (values : List α) : Prop :=
  ∃ child text, element.getElement name = .ok child ∧
    child.getAttributeInt "count".toList = .ok (values.length : Int) ∧
    child.getAttributeString name = .ok text ∧ format text values

/-- The list of a band. -/
def CalibrationVector.band {R : Type} (vector : CalibrationVector R) : CalibrationUnit → List ℚ
  | .sigmaNought => vector.sigmaNought
  | .betaNought => vector.betaNought
  | .gamma => vector.gamma
  | .dn => vector.dn

/-- The vector of an element, whose texts have the given format. -/
structure VectorOf (R : Type) [Field R] (format : TextFormat) (readDate : List Char → Option Int)
    (selected : CalibrationUnit → Bool) (element : MetadataElement) (vector : CalibrationVector R) :
    Prop where
  time : ∃ time, getTime readDate element "azimuthTime".toList = .ok time ∧
    vector.timeMjd = time.getMjd R
  line : element.getAttributeInt "line".toList = .ok vector.line
  pixels : ListIn format.ints element "pixel".toList vector.pixels
  units : ∀ unit, selected unit = true →
    ListIn format.floats element (bandName unit) (vector.band unit) ∧
      (vector.band unit).length = vector.pixels.length
  unselected : ∀ unit, selected unit = false → vector.band unit = []
  arraySize : vector.arraySize = vector.pixels.length

/-- Calibration vectors are parsed completely or refused, and integers are read as they are
written. -/
structure ParsedOrRefused (R : Type) [Field R] (readDate : List Char → Option Int)
    (selected : CalibrationUnit → Bool) (list : MetadataElement) : Prop where
  outcome : getCalibrationVectors R readDate selected list = .throws ∨
    ∃ vectors, getCalibrationVectors R readDate selected list = .ok vectors ∧
      List.Forall₂ (VectorOf R separated readDate selected) list.elements vectors
  roundTrip : ∀ values : List Int, (∀ z ∈ values, Fits 32 z) →
    addWhitespaceSeparatedValues readInt []
        ([' '].intercalate (values.map fun z => (toString z).toList)) = .ok values ∧
      addWhitespaceSeparatedValues readInt []
        (values.flatMap fun z => (toString z).toList ++ [' ']) = .ok values

/-- The text of the given name is read to its end and has as many numbers as are declared. -/
def Counted {σ α : Type} (operator : NumGet isSpace σ α) (element : MetadataElement)
    (name : List Char) (count : Nat) : Prop :=
  ∃ values, ListIn (ReadsToEnd operator) element name values ∧ values.length = count

/-- Nothing is thrown for the element. -/
structure Passes (readDate : List Char → Option Int) (selected : CalibrationUnit → Bool)
    (element : MetadataElement) : Prop where
  time : ∃ time, getTime readDate element "azimuthTime".toList = .ok time
  line : ∃ line, element.getAttributeInt "line".toList = .ok line
  lists : ∃ count, Counted readInt element "pixel".toList count ∧
    ∀ unit, selected unit = true → Counted readFloat element (bandName unit) count

/-- Each word of the text that is read is a number. -/
def WordsAreNumbers {α : Type} (value : List Char → Option α) (element : MetadataElement)
    (name : List Char) : Prop :=
  ∀ child text, element.getElement name = .ok child → child.getAttributeString name = .ok text →
    ∀ word ∈ words isSpace text, (value word).isSome

/-- The texts of an element that are read have numbers with blanks between them only. -/
structure SeparatedTexts (selected : CalibrationUnit → Bool) (element : MetadataElement) :
    Prop where
  pixels : WordsAreNumbers intValue element "pixel".toList
  units : ∀ unit, selected unit = true → WordsAreNumbers floatValue element (bandName unit)

/-! ## Reading a text -/

theorem addWhitespaceSeparatedValues_eq_ok {σ α : Type} {operator : NumGet isSpace σ α}
    {text : List Char} {values : List α} :
    addWhitespaceSeparatedValues operator [] text = .ok values ↔
      ReadsToEnd operator text values := by
  show _ ↔ ReadsToEnd operator (IStream.mk text false false).rest values
  rw [← IStream.readWhile_iff rfl (by simp)]
  simp only [addWhitespaceSeparatedValues, Outcome.bind_eq_ok, Outcome.require_eq_ok,
    Outcome.pure_eq, Outcome.ok.injEq, List.nil_append, exists_and_left]
  constructor
  · rintro ⟨heof, -, hvalues⟩
    exact ⟨hvalues, heof⟩
  · rintro ⟨hvalues, heof⟩
    exact ⟨heof, ⟨⟩, hvalues⟩

theorem addWhitespaceSeparatedValues_ne_undefined {σ α : Type} (operator : NumGet isSpace σ α)
    (values : List α) (text : List Char) :
    addWhitespaceSeparatedValues operator values text ≠ .undefined :=
  Outcome.bind_ne_undefined (Outcome.require_ne_undefined _) fun _ _ => by simp

/-- Numbers with blanks between them are read. -/
theorem IsNumbers.reads {σ α : Type} {operator : NumGet isSpace σ α} {text : List Char}
    {values : List α} (h : IsNumbers operator.value text values) :
    ReadsToEnd operator text values :=
  reads_of_words h

theorem isNumbers_filterMap {α : Type} {value : List Char → Option α} {text : List Char}
    (h : ∀ word ∈ words isSpace text, (value word).isSome) :
    IsNumbers value text ((words isSpace text).filterMap value) := by
  unfold IsNumbers
  revert h
  induction words isSpace text with
  | nil => exact fun _ => rfl
  | cons word rest ih =>
    intro h
    obtain ⟨a, ha⟩ := Option.isSome_iff_exists.mp (h word List.mem_cons_self)
    simp [ha, ih fun w hw => h w (List.mem_cons_of_mem _ hw)]

/-- What is read of a text is the words of it when these are numbers. -/
theorem isNumbers_of_reads {σ α : Type} {operator : NumGet isSpace σ α} {text : List Char}
    {values : List α} (h : ReadsToEnd operator text values)
    (hwords : ∀ word ∈ words isSpace text, (operator.value word).isSome) :
    IsNumbers operator.value text values := by
  have hnumbers := isNumbers_filterMap hwords
  rwa [h.unique hnumbers.reads]

theorem validateMetadataCount_eq_ok {count : Int} {length : Nat} {u : PUnit} :
    validateMetadataCount count length = .ok u ↔ count = length := by
  rw [validateMetadataCount, Outcome.require_eq_ok]
  omega

theorem isSome_of_isNumbers {α : Type} {value : List Char → Option α} {text : List Char}
    {values : List α} (h : IsNumbers value text values) :
    ∀ word ∈ words isSpace text, (value word).isSome := by
  intro word hword
  have hmem : value word ∈ values.map some := h ▸ List.mem_map_of_mem hword
  obtain ⟨a, -, ha⟩ := List.mem_map.mp hmem
  rw [← ha, Option.isSome_some]

/-! ## Reading an element -/

/-- The lists of a vector are those it is made of. -/
theorem CalibrationVector.band_mk {R : Type} (timeMjd : R) (line : Int) (pixels : List Int)
    (arraySize : Nat) (lists : CalibrationUnit → List ℚ) (unit : CalibrationUnit) :
    CalibrationVector.band ⟨timeMjd, line, pixels, lists .sigmaNought, lists .betaNought,
      lists .gamma, lists .dn, arraySize⟩ unit = lists unit := by
  cases unit <;> rfl

section Element

variable {R : Type} [Field R] {readDate : List Char → Option Int}
  {selected : CalibrationUnit → Bool} {element : MetadataElement}

/-- The list that is read for a band: none for one that is not selected. -/
structure BandRead (selected : CalibrationUnit → Bool) (element : MetadataElement) (count : Int)
    (unit : CalibrationUnit) (values : List ℚ) : Prop where
  read : selected unit = true →
    ListIn (ReadsToEnd readFloat) element (bandName unit) values ∧ (values.length : Int) = count
  empty : selected unit = false → values = []

theorem fetchUnitData_eq_ok {count : Int} {data data' : CalibrationUnit → List ℚ}
    {unit : CalibrationUnit} (hempty : data unit = []) :
    fetchUnitData element count data unit = .ok data' ↔
      ∃ values, (ListIn (ReadsToEnd readFloat) element (bandName unit) values ∧
        (values.length : Int) = count) ∧ data' = Function.update data unit values := by
  simp only [fetchUnitData, hempty, Outcome.bind_eq_ok, addWhitespaceSeparatedValues_eq_ok,
    validateMetadataCount_eq_ok, Outcome.require_eq_ok, Outcome.pure_eq, Outcome.ok.injEq]
  constructor
  · rintro ⟨child, hchild, unitCount, hcount, text, htext, values, hread, -, rfl, -, rfl, rfl⟩
    exact ⟨values, ⟨⟨child, text, hchild, hcount, htext, hread⟩, rfl⟩, rfl⟩
  · rintro ⟨values, ⟨⟨child, text, hchild, hcount, htext, hread⟩, rfl⟩, rfl⟩
    exact ⟨child, hchild, _, hcount, text, htext, values, hread, ⟨⟩, rfl, ⟨⟩, rfl, rfl⟩

/-- One pass over the bands. -/
theorem bandPass_eq_ok {count : Int} {data data' : CalibrationUnit → List ℚ}
    {unit : CalibrationUnit} (hempty : data unit = []) :
    (if selected unit then fetchUnitData element count data unit else pure data) = .ok data' ↔
      ∃ values, BandRead selected element count unit values ∧
        data' = Function.update data unit values := by
  cases hselected : selected unit with
  | true =>
    rw [if_pos rfl, fetchUnitData_eq_ok hempty]
    constructor
    · rintro ⟨values, hread, rfl⟩
      exact ⟨values, ⟨fun _ => hread, by simp [hselected]⟩, rfl⟩
    · rintro ⟨values, hband, rfl⟩
      exact ⟨values, hband.read hselected, rfl⟩
  | false =>
    have hsame : Function.update data unit [] = data := by
      rw [← hempty, Function.update_eq_self]
    rw [if_neg (by simp), Outcome.pure_eq, Outcome.ok.injEq]
    constructor
    · rintro rfl
      exact ⟨[], ⟨by simp [hselected], fun _ => rfl⟩, hsame.symm⟩
    · rintro ⟨values, hband, rfl⟩
      rw [hband.empty hselected, hsame]

/-- The loop over bands fills the list of each, and leaves the others. -/
theorem foldlM_bands (count : Int) {units : List CalibrationUnit} (hnodup : units.Nodup)
    (data data' : CalibrationUnit → List ℚ) (hempty : ∀ unit ∈ units, data unit = []) :
    units.foldlM (fun data unit =>
        if selected unit then fetchUnitData element count data unit else pure data) data =
        .ok data' ↔
      (∀ unit ∈ units, BandRead selected element count unit (data' unit)) ∧
        ∀ unit ∉ units, data' unit = data unit := by
  -- the induction is on the bands left, each of which is still empty
  induction units generalizing data with
  | nil =>
    simp only [List.foldlM_nil, Outcome.pure_eq, Outcome.ok.injEq, List.not_mem_nil,
      IsEmpty.forall_iff, implies_true, true_and, not_false_eq_true, forall_const]
    rw [eq_comm, funext_iff]
  | cons first rest ih =>
    obtain ⟨hfirst, hrest⟩ := List.nodup_cons.mp hnodup
    simp only [List.foldlM_cons, Outcome.bind_eq_ok,
      bandPass_eq_ok (hempty first List.mem_cons_self)]
    have hnext (values : List ℚ) := ih hrest (Function.update data first values)
      fun unit hunit => by
        rw [Function.update_of_ne (ne_of_mem_of_not_mem hunit hfirst)]
        exact hempty unit (List.mem_cons_of_mem _ hunit)
    constructor
    · rintro ⟨-, ⟨values, hband, rfl⟩, hloop⟩
      obtain ⟨hbands, hkept⟩ := (hnext values).mp hloop
      -- no later band writes the list of the first one
      have hvalue : data' first = values := by
        rw [hkept first hfirst, Function.update_self]
      refine ⟨List.forall_mem_cons.mpr ⟨hvalue ▸ hband, hbands⟩, fun unit hunit => ?_⟩
      rw [List.mem_cons, not_or] at hunit
      rw [hkept unit hunit.2, Function.update_of_ne hunit.1]
    · rintro ⟨hbands, hkept⟩
      obtain ⟨hband, hbands⟩ := List.forall_mem_cons.mp hbands
      refine ⟨_, ⟨data' first, hband, rfl⟩, (hnext _).mpr ⟨hbands, fun unit hunit => ?_⟩⟩
      by_cases hsame : unit = first
      · rw [hsame, Function.update_self]
      · rw [Function.update_of_ne hsame, hkept unit (by simp [hsame, hunit])]

/-- The pass over an element returns its vector, as the texts are read from a stream. -/
theorem getCalibrationVector_eq_ok {vector : CalibrationVector R} :
    getCalibrationVector R readDate selected element = .ok vector ↔
      VectorOf R streamed readDate selected element vector := by
  have hall (unit : CalibrationUnit) : unit ∈ bands := by cases unit <;> decide
  -- the loop over the bands, from empty lists
  have hbands (count : Int) (data : CalibrationUnit → List ℚ) :=
    @foldlM_bands selected element count bands (by decide) (fun _ => []) data fun _ _ => rfl
  constructor
  · intro h
    simp only [getCalibrationVector, Outcome.bind_eq_ok] at h
    obtain ⟨time, htime, line, hline, child, hchild, text, htext, count, hcount, pixels, hpixels, _,
      hvalid, data, hdata, hvector⟩ := h
    rw [addWhitespaceSeparatedValues_eq_ok] at hpixels
    obtain rfl := validateMetadataCount_eq_ok.mp hvalid
    obtain rfl := Outcome.ok.inj hvector
    have hread (unit : CalibrationUnit) := ((hbands _ data).mp hdata).1 unit (hall unit)
    refine ⟨⟨time, htime, rfl⟩, hline, ⟨child, text, hchild, hcount, htext, hpixels⟩, ?_, ?_, rfl⟩
    -- a selected band has been read, the others are as they were
    · intro unit hunit
      obtain ⟨hlist, hlength⟩ := (hread unit).read hunit
      rw [CalibrationVector.band_mk]
      exact ⟨hlist, Int.ofNat.inj hlength⟩
    · intro unit hunit
      rw [CalibrationVector.band_mk]
      exact (hread unit).empty hunit
  · rintro ⟨⟨time, htime, hmjd⟩, hline, ⟨child, text, hchild, hcount, htext, hpixels⟩, hunits,
      hunselected, hsize⟩
    have hloop := (hbands vector.pixels.length vector.band).mpr
      ⟨fun unit _ => ⟨fun hunit => ⟨(hunits unit hunit).1, congrArg _ (hunits unit hunit).2⟩,
        hunselected unit⟩, fun unit hunit => absurd (hall unit) hunit⟩
    have hvalid := (validateMetadataCount_eq_ok (u := (⟨⟩ : PUnit.{1}))).mpr
      (rfl : (vector.pixels.length : Int) = vector.pixels.length)
    simp only [getCalibrationVector, htime, hline, hchild, htext, hcount, Outcome.ok_bind,
      addWhitespaceSeparatedValues_eq_ok.mpr hpixels, hvalid, hloop]
    rw [← hmjd, Int.toNat_natCast, ← hsize]
    rfl

/-- The element has a vector when it passes the checks. -/
theorem passes_iff : Passes readDate selected element ↔
    ∃ vector, VectorOf R streamed readDate selected element vector := by
  constructor
  · rintro ⟨⟨time, htime⟩, ⟨line, hline⟩, count, ⟨pixels, hpixels, rfl⟩, hunits⟩
    have hbands (unit : CalibrationUnit) : ∃ values,
        BandRead selected element pixels.length unit values := by
      cases hselected : selected unit with
      | true =>
        obtain ⟨values, hlist, hlength⟩ := hunits unit hselected
        exact ⟨values, fun _ => ⟨hlist, congrArg _ hlength⟩, by simp [hselected]⟩
      | false => exact ⟨[], by simp [hselected], fun _ => rfl⟩
    choose band hband using hbands
    refine ⟨⟨time.getMjd R, line, pixels, band .sigmaNought, band .betaNought, band .gamma,
      band .dn, pixels.length⟩, ⟨time, htime, rfl⟩, hline, hpixels, fun unit hunit => ?_,
      fun unit hunit => ?_, rfl⟩
    · obtain ⟨hlist, hlength⟩ := (hband unit).read hunit
      rw [CalibrationVector.band_mk]
      exact ⟨hlist, Int.ofNat.inj hlength⟩
    · rw [CalibrationVector.band_mk]
      exact (hband unit).empty hunit
  · rintro ⟨vector, ⟨time, htime, -⟩, hline, hpixels, hunits, -, -⟩
    exact ⟨⟨time, htime⟩, ⟨_, hline⟩, _, ⟨_, hpixels, rfl⟩,
      fun unit hunit => ⟨_, (hunits unit hunit).1, (hunits unit hunit).2⟩⟩

end Element

/-! ## The outcome -/

section Defined

variable {R : Type} [Field R] {readDate : List Char → Option Int}
  {selected : CalibrationUnit → Bool} {element : MetadataElement} {name : List Char}

theorem nodeGet_ne_undefined {α : Type} (getName : α → List Char) (nodes : List α)
    (name : List Char) : nodeGet getName nodes name ≠ .undefined := by
  unfold nodeGet SnapEngine.indexOf
  refine Outcome.bind_ne_undefined ?_ fun found _ => ?_
  · exact Outcome.bind_ne_undefined (Outcome.require_ne_undefined _) fun _ _ => by simp
  cases found <;> simp

theorem stoi_ne_undefined (text : String) : stoi text ≠ .undefined := by
  unfold stoi
  dsimp only
  split <;> split <;> nofun

theorem getElement_ne_undefined : element.getElement name ≠ .undefined :=
  Outcome.bind_ne_undefined (nodeGet_ne_undefined _ _ _) fun found _ => by cases found <;> simp

theorem elemString_ne_undefined (data : ProductData) :
    MetadataElement.elemString data ≠ .undefined := by
  unfold MetadataElement.elemString
  split <;> simp

theorem getAttributeString_ne_undefined : element.getAttributeString name ≠ .undefined :=
  Outcome.bind_ne_undefined (nodeGet_ne_undefined _ _ _) fun found _ => by
    cases found with
    | none => simp
    | some found => exact elemString_ne_undefined _

theorem getAttributeInt_ne_undefined : element.getAttributeInt name ≠ .undefined :=
  Outcome.bind_ne_undefined (nodeGet_ne_undefined _ _ _) fun found _ => by
    split
    · exact Outcome.bind_ne_undefined (stoi_ne_undefined _) fun _ _ => by simp
    all_goals simp

theorem utcParse_ne_undefined (text : List Char) : utcParse readDate text ≠ .undefined := by
  refine Outcome.bind_ne_undefined (Outcome.require_ne_undefined _) fun _ _ => ?_
  split
  · refine Outcome.bind_ne_undefined (Outcome.require_ne_undefined _) fun _ _ => ?_
    refine Outcome.bind_ne_undefined (stoi_ne_undefined _) fun _ _ => ?_
    dsimp only
    split <;> nofun
  · split <;> nofun

theorem getTime_ne_undefined : getTime readDate element name ≠ .undefined := by
  refine Outcome.bind_ne_undefined ?_ fun text _ => utcParse_ne_undefined text
  refine Outcome.bind_ne_undefined (nodeGet_ne_undefined _ _ _) fun found _ => ?_
  cases found with
  | none => simp
  | some found => exact elemString_ne_undefined _

theorem validateMetadataCount_ne_undefined (count : Int) (length : Nat) :
    validateMetadataCount count length ≠ .undefined :=
  Outcome.require_ne_undefined _

theorem fetchUnitData_ne_undefined (count : Int) (data : CalibrationUnit → List ℚ)
    (unit : CalibrationUnit) : fetchUnitData element count data unit ≠ .undefined := by
  refine Outcome.bind_ne_undefined getElement_ne_undefined fun _ _ => ?_
  refine Outcome.bind_ne_undefined getAttributeInt_ne_undefined fun _ _ => ?_
  refine Outcome.bind_ne_undefined getAttributeString_ne_undefined fun _ _ => ?_
  refine Outcome.bind_ne_undefined (addWhitespaceSeparatedValues_ne_undefined _ _ _) fun _ _ => ?_
  refine Outcome.bind_ne_undefined (validateMetadataCount_ne_undefined _ _) fun _ _ => ?_
  exact Outcome.bind_ne_undefined (Outcome.require_ne_undefined _) fun _ _ => by simp

theorem getCalibrationVector_ne_undefined :
    getCalibrationVector R readDate selected element ≠ .undefined := by
  refine Outcome.bind_ne_undefined getTime_ne_undefined fun _ _ => ?_
  refine Outcome.bind_ne_undefined getAttributeInt_ne_undefined fun _ _ => ?_
  refine Outcome.bind_ne_undefined getElement_ne_undefined fun _ _ => ?_
  refine Outcome.bind_ne_undefined getAttributeString_ne_undefined fun _ _ => ?_
  refine Outcome.bind_ne_undefined getAttributeInt_ne_undefined fun _ _ => ?_
  refine Outcome.bind_ne_undefined (addWhitespaceSeparatedValues_ne_undefined _ _ _) fun _ _ => ?_
  refine Outcome.bind_ne_undefined (validateMetadataCount_ne_undefined _ _) fun _ _ => ?_
  refine Outcome.bind_ne_undefined (Outcome.foldlM_ne_undefined (fun unit _ data => ?_) _)
    fun _ _ => by simp
  split
  · exact fetchUnitData_ne_undefined _ _ _
  · simp

end Defined

/-! ## Complete or refused -/

section Parsed

variable {R : Type} [Field R] {readDate : List Char → Option Int}
  {selected : CalibrationUnit → Bool} {element list : MetadataElement}

theorem collect_map_eq_ok_iff {α β : Type} {f : α → Outcome β} {l : List α} {bs : List β} :
    collect (l.map f) = .ok bs ↔ List.Forall₂ (fun a b => f a = .ok b) l bs := by
  rw [Outcome.collect_eq_ok, ← List.forall₂_eq_eq_eq, List.forall₂_map_left_iff,
    List.forall₂_map_right_iff]

/-- The vectors are returned as the texts are read from streams. -/
theorem getCalibrationVectors_eq_ok {vectors : List (CalibrationVector R)} :
    getCalibrationVectors R readDate selected list = .ok vectors ↔
      List.Forall₂ (VectorOf R streamed readDate selected) list.elements vectors := by
  simp only [getCalibrationVectors, collect_map_eq_ok_iff, getCalibrationVector_eq_ok]

variable (R readDate selected list) in
theorem getCalibrationVectors_ok_or_throws :
    (∃ vectors, getCalibrationVectors R readDate selected list = .ok vectors) ∨
      getCalibrationVectors R readDate selected list = .throws := by
  have hdefined : getCalibrationVectors R readDate selected list ≠ .undefined :=
    Outcome.collect_ne_undefined (by simpa using fun _ _ => getCalibrationVector_ne_undefined)
  cases h : getCalibrationVectors R readDate selected list with
  | ok vectors => exact .inl ⟨vectors, rfl⟩
  | throws => exact .inr rfl
  | undefined => exact absurd h hdefined

/-- A list is what its text holds when the words of this are numbers. -/
theorem listIn_isNumbers_iff {σ α : Type} {operator : NumGet isSpace σ α} {name : List Char}
    {values : List α} (h : ListIn (ReadsToEnd operator) element name values) :
    ListIn (IsNumbers operator.value) element name values ↔
      WordsAreNumbers operator.value element name := by
  obtain ⟨child, text, hchild, hcount, htext, hreads⟩ := h
  constructor
  · rintro ⟨child', text', hchild', -, htext', hnumbers⟩ child'' text'' hchild'' htext''
    obtain rfl := Outcome.ok.inj (hchild'.symm.trans hchild'')
    obtain rfl := Outcome.ok.inj (htext'.symm.trans htext'')
    exact isSome_of_isNumbers hnumbers
  · intro hwords
    exact ⟨child, text, hchild, hcount, htext,
      isNumbers_of_reads hreads (hwords child text hchild htext)⟩

/-- A vector that is read is the one of the texts when these have nothing but numbers and blanks. -/
theorem vectorOf_separated_iff {vector : CalibrationVector R}
    (h : VectorOf R streamed readDate selected element vector) :
    VectorOf R separated readDate selected element vector ↔ SeparatedTexts selected element := by
  constructor
  · intro hseparated
    exact ⟨(listIn_isNumbers_iff h.pixels).mp hseparated.pixels,
      fun unit hunit => (listIn_isNumbers_iff (h.units unit hunit).1).mp
        (hseparated.units unit hunit).1⟩
  · intro htexts
    exact { h with
      pixels := (listIn_isNumbers_iff h.pixels).mpr htexts.pixels
      units := fun unit hunit => ⟨(listIn_isNumbers_iff (h.units unit hunit).1).mpr
        (htexts.units unit hunit), (h.units unit hunit).2⟩ }

theorem forall₂_separated_iff {elements : List MetadataElement}
    {vectors : List (CalibrationVector R)}
    (h : List.Forall₂ (VectorOf R streamed readDate selected) elements vectors) :
    List.Forall₂ (VectorOf R separated readDate selected) elements vectors ↔
      ∀ element ∈ elements, SeparatedTexts selected element := by
  constructor
  · intro hseparated
    have hboth := List.Forall₂.mp (S := fun element vector => SeparatedTexts selected element ∧
        VectorOf R streamed readDate selected element vector)
      (fun element vector hread hvector =>
        ⟨(vectorOf_separated_iff hread).mp hvector, hread⟩) h hseparated
    exact ((List.forall₂_and_left _ _).mp hboth).1
  · intro htexts
    exact ((List.forall₂_and_left _ _).mpr ⟨htexts, h⟩).imp fun element vector hboth =>
      (vectorOf_separated_iff hboth.2).mpr hboth.1

/-- Integers are read as they are written. -/
theorem reads_written {values : List Int} (h : ∀ z ∈ values, Fits 32 z) :
    addWhitespaceSeparatedValues readInt []
        ([' '].intercalate (values.map fun z => (toString z).toList)) = .ok values ∧
      addWhitespaceSeparatedValues readInt []
        (values.flatMap fun z => (toString z).toList ++ [' ']) = .ok values := by
  have hne : ∀ word ∈ values.map fun z => (toString z).toList, word ≠ [] := by
    simpa using fun z _ => toString_ne_nil z
  have hword : ∀ word ∈ values.map fun z => (toString z).toList, ∀ c ∈ word, isSpace c = false := by
    simpa using fun z _ => not_blank_toString not_inNumber_of_isSpace z
  have hvalues : (values.map fun z => (toString z).toList).map intValue = values.map some := by
    rw [List.map_map]
    exact List.map_congr_left fun z hz => intValue_toString (h z hz)
  have hbetween := words_intercalate ' ' (rfl : isSpace ' ' = true) hne hword
  have hafter := words_flatMap ' ' (rfl : isSpace ' ' = true) hne hword
  rw [List.flatMap_map] at hafter
  rw [addWhitespaceSeparatedValues_eq_ok, addWhitespaceSeparatedValues_eq_ok]
  constructor
  · apply IsNumbers.reads
    show (words isSpace _).map intValue = _
    rw [hbetween, hvalues]
  · apply IsNumbers.reads
    show (words isSpace _).map intValue = _
    rw [hafter, hvalues]

/-- The vectors are parsed completely or refused exactly when in a list that passes all checks each
text has nothing but numbers and blanks. -/
theorem parsedOrRefused_iff (R : Type) [Field R] (readDate : List Char → Option Int)
    (selected : CalibrationUnit → Bool) (list : MetadataElement) :
    ParsedOrRefused R readDate selected list ↔
      ((∀ element ∈ list.elements, Passes readDate selected element) →
        ∀ element ∈ list.elements, SeparatedTexts selected element) := by
  constructor
  · rintro ⟨houtcome, -⟩ hpasses
    have hreturns : ∀ element ∈ list.elements, ∃ vector,
        getCalibrationVector R readDate selected element = .ok vector := fun element helement =>
      (passes_iff.mp (hpasses element helement)).imp fun _ => getCalibrationVector_eq_ok.mpr
    obtain ⟨vectors, hok, -⟩ := Outcome.exists_collect_map hreturns
    rcases houtcome with hthrows | ⟨vectors', hok', hseparated⟩
    · cases hthrows.symm.trans hok
    · exact (forall₂_separated_iff (getCalibrationVectors_eq_ok.mp hok')).mp hseparated
  · intro h
    refine ⟨?_, fun values hvalues => reads_written hvalues⟩
    rcases getCalibrationVectors_ok_or_throws R readDate selected list with ⟨vectors, hok⟩ | hthrows
    · have hread := getCalibrationVectors_eq_ok.mp hok
      have hpasses := (List.forall₂_and_left (p := Passes readDate selected) _ _).mp
        (hread.imp fun element vector hvector => ⟨passes_iff.mpr ⟨vector, hvector⟩, hvector⟩)
      exact .inr ⟨vectors, hok, (forall₂_separated_iff hread).mpr (h hpasses.1)⟩
    · exact .inl hthrows

end Parsed

/-- An element whose pixels are a text of two numbers and a sign, counted as two. -/
def signAtEnd : MetadataElement :=
  .mk "calibrationVector".toList
    [⟨"azimuthTime".toList, .ascii "2000-01-01T00:00:00".toList⟩,
      ⟨"line".toList, .other (some "0".toList) (some 0)⟩]
    [.mk "pixel".toList
      [⟨"pixel".toList, .ascii "0 1 -".toList⟩, ⟨"count".toList, .other (some "2".toList) (some 2)⟩]
      []]

/-- A facet that reads the start of the year 2000. -/
def readStart (text : List Char) : Option Int :=
  if text = "2000-01-01T00:00:00".toList then some 0 else none

theorem reads_signAtEnd : ReadsToEnd readInt "0 1 -".toList [0, 1] := by
  refine @ReadsToEnd.number _ _ _ _ _ ['0'] " 1 -".toList _ _ (by decide) rfl (by decide) ?_
  refine @ReadsToEnd.number _ _ _ _ _ ['1'] " -".toList _ _ (by decide) rfl (by decide) ?_
  exact @ReadsToEnd.incomplete _ _ _ _ _ ['-'] (by decide) rfl (by decide)

theorem vectorOf_signAtEnd : VectorOf ℚ streamed readStart (fun _ => false) signAtEnd
    ⟨0, 0, [0, 1], [], [], [], [], 2⟩ where
  time := ⟨⟨0, 0, 0⟩, by decide, by simp [UtcElems.getMjd]⟩
  line := by decide
  pixels := ⟨_, _, rfl, rfl, rfl, reads_signAtEnd⟩
  units := by simp
  unselected unit _ := by cases unit <;> rfl
  arraySize := rfl

/-- The two numbers are returned. -/
theorem not_parsedOrRefused_signAtEnd : ¬ ParsedOrRefused ℚ readStart (fun _ => false)
    (.mk "calibrationVectorList".toList [] [signAtEnd]) := by
  rintro ⟨houtcome, -⟩
  have hok : getCalibrationVectors ℚ readStart (fun _ => false)
      (.mk "calibrationVectorList".toList [] [signAtEnd]) = .ok _ :=
    getCalibrationVectors_eq_ok.mpr (.cons vectorOf_signAtEnd .nil)
  rcases houtcome with hthrows | ⟨vectors, hok', hseparated⟩
  · cases hthrows.symm.trans hok
  · have htexts := (forall₂_separated_iff (getCalibrationVectors_eq_ok.mp hok')).mp hseparated
      signAtEnd List.mem_cons_self
    have hword := htexts.pixels _ _ rfl rfl ['-'] (by decide)
    revert hword
    decide

end Alus.S1tbx.Calibration
