import Mathlib.Data.Rat.Floor
import Alus.S1tbx.DopplerParameters

/-!
# Doppler parameters of a split product

The split cuts the burst list of the annotation to the selected bursts; the lists of the Doppler
centroid and of the azimuth FM rate stay whole. `Sentinel1Utils` takes the entry of a burst by
its index in the product it reads, so that the bursts of the split product get the entries of
the first bursts of the swath.
-/

namespace Alus.TopsarSplit

open Alus.Lib Alus.S1tbx Polynomial
open Alus.Etad (stoi stoi_toString)

/-- A source with the annotation that its records are read from. -/
structure TopsarProduct (R ε : Type) extends SplitOperator R ε where
  swathElems : List (SwathElem R ε)
  annotations_eq : annotations = some (swathElems.map SwathElem.toAnnotationElem)
  selected_count : ∀ subswath info elem, toSource.subswathName = .ok subswath →
    toSource.selectedSubswathInfo subswath = .ok info →
    getSubSwathMetadata swathElems info.subswathName = .ok elem →
      ∃ consumed, stoi elem.count = .ok (info.numOfBursts, consumed)

section Product

variable {R U ε : Type}

/-- The elements that `RemoveElements` keeps. -/
def keptElems (s : TopsarProduct R ε) (subswath : String) : List (SwathElem R ε) :=
  s.swathElems.filter fun elem =>
    find elem.name.toUpper subswath &&
      (s.selectBands subswath).1.any fun pol => find elem.name.toUpper pol

/-- The elements of the split product, with the edits of `UpdateOriginalMetadata`. -/
def splitElems (s : TopsarProduct R ε) (subswath : String) (t : Target R U ε) :
    List (SwathElem R ε) :=
  List.zipWith (fun elem edited => { elem with toAnnotationElem := edited })
    (keptElems s subswath) t.annotations

/-- The rows of the bursts from `first` to `last`. -/
def burstsOf (rows : DopplerRows R) (first last : Int) : DopplerRows R where
  dopplerCentroid :=
    (rows.dopplerCentroid.drop (first - 1).toNat).take (last - first + 1).toNat
  rangeDependDopplerRate :=
    (rows.rangeDependDopplerRate.drop (first - 1).toNat).take (last - first + 1).toNat

end Product

section Commutes

variable {R U A ε : Type} [Field R] [LinearOrder R] [DecidableEq ε] (azimuthTime : ε → R)
  (utc : R → U) (format : U → String) (readWkt : String → Option A)
  (isCovered : List (Coordinates R) → A → Bool)

/-- Whatever burst range the split accepts, the rows of the split product are the rows of these
bursts in the product before the split. -/
def SplitCommutes (s : TopsarProduct R ε) : Prop :=
  ∀ subswath info t rows, s.subswathName = .ok subswath →
    s.selectedSubswathInfo subswath = .ok info →
    splitInitialize utc format readWkt isCovered s.toSource = .ok t →
    subSwathDoppler azimuthTime s.swathElems info.subswathName = .ok rows →
      subSwathDoppler azimuthTime (splitElems s subswath t) info.subswathName =
        .ok (burstsOf rows t.firstBurstIndex t.lastBurstIndex)

/-- Entry `b` of the element that the split product reads and entry `first - 1 + b` of the one
that the source reads are one polynomial, up to what vanishes at every sample of a line. -/
structure SameEstimates (source kept : SwathElem R ε) (first last : Int) : Prop where
  samples : kept.samplesPerBurst = source.samplesPerBurst
  centroidEntries : last - first + 1 ≤ kept.dcEstimateList.length
  rateEntries : kept.samplesPerBurst = 0 ∨ last - first + 1 ≤ kept.azimuthFmRateList.length
  centroid : ∀ b < (last - first + 1).toNat, ∀ estimate estimate',
    kept.dcEstimateList[b]? = some estimate →
    source.dcEstimateList[(first - 1).toNat + b]? = some estimate' →
      descPochhammer R source.samplesPerBurst ∣ dcInPixels kept estimate -
        dcInPixels source estimate'
  rate : ∀ b < (last - first + 1).toNat, ∀ rate rate',
    kept.azimuthFmRateList[b]? = some rate →
    source.azimuthFmRateList[(first - 1).toNat + b]? = some rate' →
      descPochhammer R source.samplesPerBurst ∣ dopplerRateInPixels kept rate -
        dopplerRateInPixels source rate'

end Commutes

/-! ## The edited annotation -/

section Edited

variable {R U A ε : Type} {utc : R → U} {format : U → String} {readWkt : String → Option A}
  {isCovered : List (Coordinates R) → A → Bool}

theorem map_keptElems {s : TopsarProduct R ε} {elems : List (AnnotationElem ε)}
    (h : s.annotations = some elems) (subswath : String) :
    (keptElems s subswath).map SwathElem.toAnnotationElem =
      removeElements subswath (s.selectBands subswath).1 elems := by
  obtain rfl := Option.some.inj (h.symm.trans s.annotations_eq)
  rw [removeElements, List.filter_map]
  rfl

/-- The element that the split product reads is the cut of the first kept one. -/
theorem getSubSwathMetadata_zipWith {info : SubSwathInfo R} {first last : Int}
    (subSwathName : String) {kept : List (SwathElem R ε)} {edits : List (AnnotationElem ε)}
    (h : List.Forall₂ (CutTo utc format info first last)
      (kept.map SwathElem.toAnnotationElem) edits) :
    (getSubSwathMetadata kept subSwathName = .undefined ∧
      getSubSwathMetadata (List.zipWith (fun elem edited =>
        { elem with toAnnotationElem := edited }) kept edits) subSwathName = .undefined) ∨
    ∃ elem ∈ kept, ∃ edited, CutTo utc format info first last elem.toAnnotationElem edited ∧
      getSubSwathMetadata kept subSwathName = .ok elem ∧
      getSubSwathMetadata (List.zipWith (fun elem edited =>
        { elem with toAnnotationElem := edited }) kept edits) subSwathName =
          .ok { elem with toAnnotationElem := edited } := by
  induction kept generalizing edits with
  | nil => exact .inl ⟨rfl, rfl⟩
  | cons elem kept ih =>
    rw [List.map_cons] at h
    cases h with
    | cons hcut hrest =>
      next edited edits =>
      simp only [getSubSwathMetadata, List.zipWith_cons_cons, List.find?_cons, hcut.name] at ih ⊢
      cases hfind : find elem.name subSwathName.toLower with
      | true => exact .inr ⟨elem, List.mem_cons_self, edited, hcut, rfl, rfl⟩
      | false =>
        rcases ih hrest with hnone | ⟨other, hmem, edited', hcut', hok, hok'⟩
        · exact .inl hnone
        · exact .inr ⟨other, List.mem_cons_of_mem _ hmem, edited', hcut', hok, hok'⟩

variable [DecidableEq ε]

/-- An accepted range is applied to every edit. -/
theorem consistent_of_splitInitialize {s : SplitOperator R ε} {subswath : String}
    {info : SubSwathInfo R} {t : Target R U ε} (hname : s.subswathName = .ok subswath)
    (hinfo : s.selectedSubswathInfo subswath = .ok info)
    (h : splitInitialize utc format readWkt isCovered s.toSource = .ok t) :
    Consistent utc format s.toSource subswath info t := by
  have hvalid : s.isValid := by
    obtain ⟨_, hcheck, -⟩ := Outcome.bind_eq_ok.mp h
    exact Outcome.require_eq_ok.mp hcheck
  rw [splitInitialize_eq utc format readWkt isCovered hvalid hname hinfo] at h
  obtain ⟨range, hrange, happly⟩ := Outcome.bind_eq_ok.mp h
  obtain ⟨h1, hlast, -, -⟩ := burstRange_eq_ok readWkt isCovered hrange
  rcases le_or_gt range.1 range.2 with hle | hpast
  · rcases applyRange_of_range utc format s hname hinfo h1 hle hlast with
      hthrows | ⟨t', hok, hconsistent⟩
    · rw [hthrows] at happly
      cases happly
    · obtain rfl := Outcome.ok.inj (hok.symm.trans happly)
      exact hconsistent
  · exact absurd happly ((applyRange_past utc format s.toSource subswath info hpast).1 t)

end Edited

/-! ## The rows of the split product -/

section Rows

variable {R : Type} [Field R] [LinearOrder R]

theorem take_drop_map_range {α : Type} (f : Nat → α) {n k m : Nat} (h : k + m ≤ n) :
    (((List.range n).map f).drop k).take m = (List.range m).map fun b => f (k + b) := by
  refine List.ext_getElem (by simp; omega) fun b hb hb' => ?_
  simp

variable {ε : Type} [CharZero R]

omit [LinearOrder R] in
theorem dcInPixels_dvd_iff {n : Nat} {elem elem' : SwathElem R ε}
    {estimate estimate' : DcPolynomial R} :
    descPochhammer R n ∣ dcInPixels elem estimate - dcInPixels elem' estimate' ↔
      ∀ x < n, dcValue elem estimate x = dcValue elem' estimate' x := by
  rw [descPochhammer_dvd_sub_iff]
  simp only [eval_dcInPixels]

omit [LinearOrder R] in
theorem dopplerRateInPixels_dvd_iff {n : Nat} {elem elem' : SwathElem R ε}
    {rate rate' : AzimuthFmRate R} :
    descPochhammer R n ∣ dopplerRateInPixels elem rate - dopplerRateInPixels elem' rate' ↔
      ∀ x < n, dopplerRateValue elem rate x = dopplerRateValue elem' rate' x := by
  rw [descPochhammer_dvd_sub_iff]
  simp only [eval_dopplerRateInPixels]

/-- The rows of the cut element are the source rows of the selected bursts exactly when the
entries agree. -/
theorem dopplerParameters_cut_iff {azimuthTime : ε → R} {source : SwathElem R ε}
    (kept : SwathElem R ε) (edited : AnnotationElem ε) {bursts first last : Int}
    {consumed consumed' : Nat} (hsource : stoi source.count = .ok (bursts, consumed))
    (hcount : stoi edited.count = .ok (last - first + 1, consumed'))
    (h1 : 1 ≤ first) (hle : first ≤ last) (hlast : last ≤ bursts) {rows : DopplerRows R}
    (hrows : dopplerParameters azimuthTime source = .ok rows) :
    dopplerParameters azimuthTime { kept with toAnnotationElem := edited } =
        .ok (burstsOf rows first last) ↔
      SameEstimates source kept first last := by
  obtain ⟨hdc, hfits, hrate, hcentroidRows, hrateRows⟩ :=
    (dopplerParameters_eq_ok hsource).mp hrows
  have hcut : stoi ({ kept with toAnnotationElem := edited } : SwathElem R ε).count =
    .ok (last - first + 1, consumed') := hcount
  rw [dopplerParameters_eq_ok hcut]
  -- the edit leaves what the values are computed from
  have hdcValue : dcValue { kept with toAnnotationElem := edited } = dcValue kept := rfl
  have hrateValue :
    dopplerRateValue { kept with toAnnotationElem := edited } = dopplerRateValue kept := rfl
  rw [hdcValue, hrateValue]
  dsimp only
  have hslice : (first - 1).toNat + (last - first + 1).toNat ≤ bursts.toNat := by omega
  simp only [burstsOf, hcentroidRows, hrateRows, take_drop_map_range _ hslice, List.map_inj_left,
    List.mem_range]
  constructor
  · rintro ⟨hlen, _, hlen', hcentroid, hdoppler⟩
    have hsame : kept.samplesPerBurst = source.samplesPerBurst := by
      -- the first burst has a row in both products
      have hfirst := congrArg List.length (hcentroid 0 (by omega))
      rw [length_burstRow (by omega), length_burstRow (by omega)] at hfirst
      exact hfirst.symm
    rw [hsame] at hlen' hcentroid hdoppler
    refine ⟨hsame, hlen, ?_, fun b hb estimate estimate' he he' => ?_,
      fun b hb entry entry' he he' => ?_⟩
    · rw [hsame]
      omega
    · apply dcInPixels_dvd_iff.mpr
      exact (burstRow_eq_iff (.inr (by omega)) (.inr (by omega))).mp (hcentroid b hb).symm
        estimate estimate' he he'
    · apply dopplerRateInPixels_dvd_iff.mpr
      exact (burstRow_eq_iff (by omega) (by omega)).mp (hdoppler b hb).symm entry entry' he he'
  · intro h
    have hfewer : (last - first + 1) * kept.samplesPerBurst ≤ bursts * kept.samplesPerBurst :=
      Int.mul_le_mul_of_nonneg_right (by omega) (by omega)
    have hpos : 0 ≤ (last - first + 1) * (kept.samplesPerBurst : Int) :=
      Int.mul_nonneg (by omega) (by omega)
    have hrateEntries := h.rateEntries
    have hcentroidEntries := h.centroidEntries
    rw [h.samples] at hfewer hpos hrateEntries ⊢
    refine ⟨hcentroidEntries, ?_, by omega, fun b hb => Eq.symm ?_, fun b hb => Eq.symm ?_⟩
    · rw [fits32_iff] at hfits ⊢
      omega
    · apply (burstRow_eq_iff (.inr (by omega)) (.inr (by omega))).mpr
      exact fun estimate estimate' he he' =>
        dcInPixels_dvd_iff.mp (h.centroid b hb estimate estimate' he he')
    · apply (burstRow_eq_iff (by omega) (by omega)).mpr
      exact fun entry entry' he he' =>
        dopplerRateInPixels_dvd_iff.mp (h.rate b hb entry entry' he he')

omit [LinearOrder R] [CharZero R] in
/-- From the first burst on, the entries of an element are its own. -/
theorem sameEstimates_first (source : SwathElem R ε) {last : Int}
    (hdc : last ≤ source.dcEstimateList.length)
    (hrate : source.samplesPerBurst = 0 ∨ last ≤ source.azimuthFmRateList.length) :
    SameEstimates source source 1 last where
  samples := rfl
  centroidEntries := by omega
  rateEntries := by omega
  centroid b _ estimate estimate' h h' := by
    rw [Int.sub_self, Int.toNat_zero, zero_add, h, Option.some.injEq] at h'
    rw [h', sub_self]
    exact dvd_zero _
  rate b _ entry entry' h h' := by
    rw [Int.sub_self, Int.toNat_zero, zero_add, h, Option.some.injEq] at h'
    rw [h', sub_self]
    exact dvd_zero _

omit [LinearOrder R] in
/-- On lines with more samples than coefficients the centroids are one polynomial. -/
theorem SameEstimates.dcInPixels_eq {source kept : SwathElem R ε} {first last : Int}
    (h : SameEstimates source kept first last) {b : Nat} (hb : b < (last - first + 1).toNat)
    {estimate estimate' : DcPolynomial R} (he : kept.dcEstimateList[b]? = some estimate)
    (he' : source.dcEstimateList[(first - 1).toNat + b]? = some estimate')
    (hwide : estimate.dataDcPolynomial.length ≤ source.samplesPerBurst)
    (hwide' : estimate'.dataDcPolynomial.length ≤ source.samplesPerBurst) :
    dcInPixels kept estimate = dcInPixels source estimate' :=
  eq_of_descPochhammer_dvd_sub (h.centroid b hb estimate estimate' he he')
    ((degree_dcInPixels_lt kept estimate).trans_le (by exact_mod_cast hwide))
    ((degree_dcInPixels_lt source estimate').trans_le (by exact_mod_cast hwide'))

omit [LinearOrder R] in
/-- On lines of three samples the rates are one polynomial. -/
theorem SameEstimates.dopplerRateInPixels_eq {source kept : SwathElem R ε} {first last : Int}
    (h : SameEstimates source kept first last) {b : Nat} (hb : b < (last - first + 1).toNat)
    {rate rate' : AzimuthFmRate R} (he : kept.azimuthFmRateList[b]? = some rate)
    (he' : source.azimuthFmRateList[(first - 1).toNat + b]? = some rate')
    (hwide : 3 ≤ source.samplesPerBurst) :
    dopplerRateInPixels kept rate = dopplerRateInPixels source rate' :=
  eq_of_descPochhammer_dvd_sub (h.rate b hb rate rate' he he')
    ((degree_dopplerRateInPixels_lt kept rate).trans_le (by exact_mod_cast hwide))
    ((degree_dopplerRateInPixels_lt source rate').trans_le (by exact_mod_cast hwide))

end Rows

/-! ## Results -/

section Results

variable {R U A ε : Type} [Field R] [LinearOrder R] [CharZero R] [DecidableEq ε]
  {azimuthTime : ε → R} {utc : R → U} {format : U → String} {readWkt : String → Option A}
  {isCovered : List (Coordinates R) → A → Bool}

/-- The rows of an accepted range, when the first kept element of the sub-swath is known. -/
theorem subSwathDoppler_splitElems (s : TopsarProduct R ε) {subswath : String}
    {info : SubSwathInfo R} {t : Target R U ε} {source : SwathElem R ε} {rows : DopplerRows R}
    (hname : s.subswathName = .ok subswath) (hinfo : s.selectedSubswathInfo subswath = .ok info)
    (hsplit : splitInitialize utc format readWkt isCovered s.toSource = .ok t)
    (hsource : getSubSwathMetadata s.swathElems info.subswathName = .ok source)
    (hrows : dopplerParameters azimuthTime source = .ok rows) :
    (getSubSwathMetadata (keptElems s subswath) info.subswathName = .undefined ∧
      subSwathDoppler azimuthTime (splitElems s subswath t) info.subswathName = .undefined) ∨
    ∃ kept, getSubSwathMetadata (keptElems s subswath) info.subswathName = .ok kept ∧
      (subSwathDoppler azimuthTime (splitElems s subswath t) info.subswathName =
          .ok (burstsOf rows t.firstBurstIndex t.lastBurstIndex) ↔
        SameEstimates source kept t.firstBurstIndex t.lastBurstIndex) := by
  have hconsistent := consistent_of_splitInitialize hname hinfo hsplit
  obtain ⟨h1, hle, hlast⟩ := hconsistent.range
  obtain ⟨elems, helems, hcuts⟩ := hconsistent.bursts
  rw [← map_keptElems helems] at hcuts
  unfold subSwathDoppler
  rcases getSubSwathMetadata_zipWith info.subswathName hcuts with
    ⟨hnone, hnone'⟩ | ⟨kept, hmem, edited, hcut, hkept, hedited⟩
  · refine .inl ⟨hnone, ?_⟩
    rw [splitElems, hnone', Outcome.undefined_bind]
  · refine .inr ⟨kept, hkept, ?_⟩
    rw [splitElems, hedited, Outcome.ok_bind]
    -- the count of the cut element is the number of the bursts of the range
    obtain ⟨hswath, hfind⟩ := List.mem_filter.mp hmem
    rw [Bool.and_eq_true] at hfind
    have hlength := (s.annotation_bursts subswath info hname hinfo _ s.annotations_eq _
      (List.mem_map_of_mem hswath) hfind.1).1
    have hfew : (edited.burstList.length : Int) = t.lastBurstIndex - t.firstBurstIndex + 1 := by
      rw [hcut.burstList, List.length_take, List.length_drop]
      omega
    have hlines : info.numOfBursts * 1 ≤ info.numOfBursts * info.linesPerBurst :=
      Int.mul_le_mul_of_nonneg_left info.lines_pos info.bursts_nonneg
    have hraster := info.raster_fits
    have hsmall : edited.burstList.length < 2147483648 := by omega
    have hcount := stoi_toString hsmall
    rw [← hcut.count, hfew] at hcount
    obtain ⟨consumed, hbursts⟩ := s.selected_count subswath info source hname hinfo hsource
    exact dopplerParameters_cut_iff kept edited hbursts hcount h1 hle hlast hrows

/-- **When a split keeps the Doppler parameters.** Let the parameters of the source be computed.
The split product has the rows of its bursts, computed without a read past either list, exactly
when the annotation that it reads has the estimates of these bursts among its first entries. -/
theorem splitDoppler_iff (s : TopsarProduct R ε) {subswath : String}
    {info : SubSwathInfo R} {t : Target R U ε} {source : SwathElem R ε} {rows : DopplerRows R}
    (hname : s.subswathName = .ok subswath) (hinfo : s.selectedSubswathInfo subswath = .ok info)
    (hsplit : splitInitialize utc format readWkt isCovered s.toSource = .ok t)
    (hsource : getSubSwathMetadata s.swathElems info.subswathName = .ok source)
    (hrows : dopplerParameters azimuthTime source = .ok rows) :
    subSwathDoppler azimuthTime (splitElems s subswath t) info.subswathName =
        .ok (burstsOf rows t.firstBurstIndex t.lastBurstIndex) ↔
      ∃ kept, getSubSwathMetadata (keptElems s subswath) info.subswathName = .ok kept ∧
        SameEstimates source kept t.firstBurstIndex t.lastBurstIndex := by
  rcases subSwathDoppler_splitElems s hname hinfo hsplit hsource hrows with
    ⟨hnone, hundefined⟩ | ⟨kept, hkept, hiff⟩
  · rw [hundefined, hnone]
    exact ⟨fun h => (nomatch h), fun ⟨_, h, _⟩ => (nomatch h)⟩
  · rw [hiff, hkept]
    exact ⟨fun h => ⟨kept, rfl, h⟩, fun ⟨_, hsame, h⟩ => Outcome.ok.inj hsame ▸ h⟩

end Results

/-! ## Two bursts -/

/-- The record of two bursts of one line. -/
def twoBursts : SubSwathInfo ℚ where
  subswathName := "IW1"
  numOfBursts := 2
  linesPerBurst := 1
  burstFirstLineTime := [0, 3]
  burstLastLineTime := [0, 3]
  numOfGeoPointsPerLine := 1
  coordinates := [[⟨0, 2⟩], [⟨0, 1⟩], [⟨0, 0⟩]]
  bursts_nonneg := by decide
  lines_pos := Int.one_pos
  raster_fits := by decide
  firstTimes := rfl
  lastTimes := rfl
  points_pos := Int.one_pos
  geoLines := by decide
  geoPoints := by simp

/-- The split to the second of the two bursts. -/
def secondBurstSource : Source ℚ Nat where
  isValid := true
  subSwathNames := ["IW1"]
  subSwaths := [twoBursts]
  polarizations := ["VV"]
  bands := [⟨"i_IW1_VV", 1, 2⟩]
  annotations := some [⟨"s1a-iw1-slc-vv", "2", [0, 1], "2", "", ""⟩]
  subswath := "IW1"
  selectedPolarisations := ["VV"]
  burstAoiWkt := ""
  firstBurst := 2
  lastBurst := 2

theorem secondBurstSource_selected {subswath : String} {info : SubSwathInfo ℚ}
    (hname : secondBurstSource.subswathName = .ok subswath)
    (hinfo : secondBurstSource.selectedSubswathInfo subswath = .ok info) : info = twoBursts := by
  obtain rfl := Outcome.ok.inj (show Outcome.ok "IW1" = .ok subswath from hname)
  exact (Outcome.ok.inj (show Outcome.ok twoBursts = .ok info from hinfo)).symm

/-- The annotation of the two bursts. The estimates are constants: one for the first burst. -/
def twoBurstElem (second : ℚ) : SwathElem ℚ Nat where
  name := "s1a-iw1-slc-vv"
  count := "2"
  burstList := [0, 1]
  numberOfLines := "2"
  productFirstLineUtcTime := ""
  productLastLineUtcTime := ""
  linesPerBurst := 1
  samplesPerBurst := 1
  azimuthTimeInterval := 1
  slantRangeTime := 0
  rangePixelSpacing := 1
  dcEstimateList := [⟨0, 0, [1]⟩, ⟨3, 0, [second]⟩]
  azimuthFmRateList := [⟨0, 0, 1, 0, 0⟩, ⟨3, 0, second, 0, 0⟩]
  coefficients_ne_nil := by simp

theorem getSubSwathMetadata_twoBurstElem (second : ℚ) :
    getSubSwathMetadata [twoBurstElem second] "IW1" = .ok (twoBurstElem second) := by
  have hfind : find "s1a-iw1-slc-vv" "IW1".toLower = true := by decide +kernel
  have hfirst : [twoBurstElem second].find? (fun elem => find elem.name "IW1".toLower) =
    some (twoBurstElem second) := List.find?_cons_of_pos hfind
  rw [getSubSwathMetadata, hfirst]

def secondBurstProduct (second : ℚ) : TopsarProduct ℚ Nat where
  toSource := secondBurstSource
  bands_height := by
    intro subswath info hname hinfo band hband _
    obtain rfl := secondBurstSource_selected hname hinfo
    obtain rfl := List.mem_singleton.mp hband
    rfl
  annotation_bursts := by
    intro subswath info hname hinfo elems helems elem helem _
    obtain rfl := secondBurstSource_selected hname hinfo
    obtain rfl := Option.some.inj helems
    obtain rfl := List.mem_singleton.mp helem
    exact ⟨rfl, by decide⟩
  swathElems := [twoBurstElem second]
  annotations_eq := rfl
  selected_count := by
    intro subswath info elem hname hinfo helem
    obtain rfl := secondBurstSource_selected hname hinfo
    obtain rfl := Outcome.ok.inj ((getSubSwathMetadata_twoBurstElem second).symm.trans helem)
    have hcount : stoi "2" = .ok (2, 1) := by decide +kernel
    exact ⟨1, hcount⟩

theorem splitInitialize_secondBurst :
    ∃ t, splitInitialize (fun seconds : ℚ => seconds) (fun _ => "")
        (fun _ => (none : Option Unit)) (fun _ _ => false) secondBurstSource = .ok t ∧
      t.firstBurstIndex = 2 ∧ t.lastBurstIndex = 2 := by
  have hrange : (splitInitialize (fun seconds : ℚ => seconds) (fun _ => "")
      (fun _ => (none : Option Unit)) (fun _ _ => false) secondBurstSource).bind
        (fun t => .ok (t.firstBurstIndex, t.lastBurstIndex)) = .ok (2, 2) := by decide +kernel
  obtain ⟨t, ht, hindices⟩ := Outcome.bind_eq_ok.mp hrange
  obtain ⟨hfirst, hlast⟩ := Prod.mk.inj (Outcome.ok.inj hindices)
  exact ⟨t, ht, hfirst, hlast⟩

theorem getSubSwathMetadata_keptElems (second : ℚ) :
    getSubSwathMetadata (keptElems (secondBurstProduct second) "IW1") "IW1" =
      .ok (twoBurstElem second) := by
  have hkept : (find "s1a-iw1-slc-vv".toUpper "IW1" &&
      (secondBurstSource.selectBands "IW1").1.any fun pol =>
        find "s1a-iw1-slc-vv".toUpper pol) = true := by decide +kernel
  rw [show keptElems (secondBurstProduct second) "IW1" = [twoBurstElem second] from
    List.filter_cons_of_pos hkept]
  exact getSubSwathMetadata_twoBurstElem second

/-- Equal estimates stay those of the second burst. -/
theorem splitDoppler_secondBurst :
    ∃ t, splitInitialize (fun seconds : ℚ => seconds) (fun _ => "")
        (fun _ => (none : Option Unit)) (fun _ _ => false) secondBurstSource = .ok t ∧
      subSwathDoppler (fun b : Nat => 3 * (b : ℚ)) (splitElems (secondBurstProduct 1) "IW1" t)
        "IW1" = .ok ⟨[[1]], [[1]]⟩ := by
  obtain ⟨t, hsplit, hfirst, hlast⟩ := splitInitialize_secondBurst
  refine ⟨t, hsplit, ?_⟩
  have hrows : dopplerParameters (fun b : Nat => 3 * (b : ℚ)) (twoBurstElem 1) =
    .ok ⟨[[1], [1]], [[1], [1]]⟩ := by decide +kernel
  have hiff := splitDoppler_iff (secondBurstProduct 1) rfl rfl hsplit
    (getSubSwathMetadata_twoBurstElem 1) hrows
  rw [hfirst, hlast] at hiff
  refine hiff.mpr ⟨twoBurstElem 1, getSubSwathMetadata_keptElems 1,
    ⟨rfl, by decide, by decide, ?_, ?_⟩⟩
  · intro b hb estimate estimate' he he'
    obtain rfl : b = 0 := by omega
    obtain rfl := Option.some.inj he
    obtain rfl := Option.some.inj he'
    apply dcInPixels_dvd_iff.mpr
    decide +kernel
  · intro b hb rate rate' he he'
    obtain rfl : b = 0 := by omega
    obtain rfl := Option.some.inj he
    obtain rfl := Option.some.inj he'
    apply dopplerRateInPixels_dvd_iff.mpr
    decide +kernel

/-- The split to the second burst has the centroid of the first. -/
theorem not_splitCommutes_secondBurst :
    ¬ SplitCommutes (fun b : Nat => 3 * (b : ℚ)) (fun seconds : ℚ => seconds) (fun _ => "")
      (fun _ => (none : Option Unit)) (fun _ _ => false) (secondBurstProduct 2) := by
  intro h
  obtain ⟨t, hsplit, hfirst, hlast⟩ := splitInitialize_secondBurst
  have hrows : dopplerParameters (fun b : Nat => 3 * (b : ℚ)) (twoBurstElem 2) =
    .ok ⟨[[1], [2]], [[1], [2]]⟩ := by decide +kernel
  have hdoppler : subSwathDoppler (fun b : Nat => 3 * (b : ℚ)) [twoBurstElem 2] "IW1" =
      .ok ⟨[[1], [2]], [[1], [2]]⟩ := by
    rw [subSwathDoppler, getSubSwathMetadata_twoBurstElem, Outcome.ok_bind, hrows]
  have hcommutes := h "IW1" twoBursts t _ rfl rfl hsplit hdoppler
  rcases subSwathDoppler_splitElems (secondBurstProduct 2) rfl rfl hsplit
    (getSubSwathMetadata_twoBurstElem 2) hrows with ⟨hnone, -⟩ | ⟨kept, hkept, hiff⟩
  · exact nomatch (getSubSwathMetadata_keptElems 2).symm.trans hnone
  · obtain rfl := Outcome.ok.inj ((getSubSwathMetadata_keptElems 2).symm.trans hkept)
    have hsame := hiff.mp hcommutes
    rw [hfirst, hlast] at hsame
    have hvalue := dcInPixels_dvd_iff.mp
      (hsame.centroid 0 (by decide) ⟨0, 0, [1]⟩ ⟨3, 0, [2]⟩ rfl rfl) 0 (by decide)
    exact absurd hvalue (by decide +kernel)

end Alus.TopsarSplit
