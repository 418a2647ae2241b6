import Mathlib.Data.List.Infix
import Alus.Etad.EtadProduct
import Alus.Etad.SlcMetadata
import Alus.Lib.Search

/-!
# Association of SLC bursts with ETAD bursts

`AssociateBursts` of `etad_preparation.cc` finds the acquisition of an ETAD product that a
Sentinel-1 SLC product belongs to, the swath in it, and for each selected burst the one ETAD burst
that starts at the same time and covers it.

Times are exact numbers. The errors have texts that nothing but a reader of the log uses.
-/

namespace Alus.Etad

open Alus.Lib
open Outcome (require)

structure BurstSelection where
  firstBurst : Nat
  burstCount : Nat
  deriving DecidableEq, Repr

structure BurstAssociation where
  slcBurstIndex : Nat
  splitBurstIndex : Nat
  firstOutputLine : Nat
  etadBIndex : Int
  deriving DecidableEq, Repr

structure AcquisitionAssociation where
  etadPIndex : Int
  bursts : List BurstAssociation
  deriving DecidableEq, Repr

/-! ## The acquisition -/

/-- How many characters `\d{8}T\d{6}_\d{8}T\d{6}(?:_\d{6})?` takes at the start of the text. -/
def sensingTimesLength (l : List Char) : Option Nat := do
  let l ← afterDigits 8 l
  let l ← afterChar (· == 'T') l
  let l ← afterDigits 6 l
  let l ← afterChar (· == '_') l
  let l ← afterDigits 8 l
  let l ← afterChar (· == 'T') l
  let l ← afterDigits 6 l
  if ((afterChar (· == '_') l).bind (afterDigits 6)).isSome then return 38 else return 31

/-- `regex_search` for `SENSING_TIMES`: the first place where it matches. -/
def searchSensingTimes : List Char → Option (List Char)
  | [] => none
  | c :: l =>
    match sensingTimesLength (c :: l) with
    | some length => some ((c :: l).take length)
    | none => searchSensingTimes l

/-- `text.find(pattern) != std::string::npos`. -/
def occursIn (pattern text : List Char) : Bool := text.tails.any pattern.isPrefixOf

/-- `'_' << std::setfill('0') << std::setw(6) << absolute_orbit << '_'`, of a positive orbit. -/
def orbitText (absoluteOrbit : Int) : List Char :=
  let digits := Nat.toDigits 10 absoluteOrbit.toNat
  '_' :: List.replicate (6 - digits.length) '0' ++ digits ++ ['_']

section Association

variable {T : Type} [Field T] [LinearOrder T]

/-- `BURST_START_TOLERANCE_SECONDS`. -/
def burstStartToleranceSeconds : T := 1 / 10

/-- `ACQUISITION_TIME_TOLERANCE_SECONDS`. -/
def acquisitionTimeToleranceSeconds : T := 1

omit [Field T] [LinearOrder T] in
/-- The product of the acquisition has the sensing times of the SLC product's name in its own. -/
def nameMatches (slc : Slc.Metadata T) (acquisition : Acquisition T) : Bool :=
  match searchSensingTimes slc.productName.toList with
  | some sensingTimes =>
    occursIn (sensingTimes.map Char.toLower) (toLower acquisition.productId)
  | none => false

/-- The product of the acquisition is of the same mission and orbit, and covers the SLC product. -/
def orbitMatches (slc : Slc.Metadata T) (acquisition : Acquisition T) : Bool :=
  slc.absoluteOrbit > 0 && !slc.mission.isEmpty &&
    (toLower slc.mission).isPrefixOf (toLower acquisition.productId) &&
    occursIn (orbitText slc.absoluteOrbit) (toLower acquisition.productId) &&
    acquisition.startTime - acquisitionTimeToleranceSeconds ≤ slc.startTime &&
    slc.stopTime ≤ acquisition.stopTime + acquisitionTimeToleranceSeconds

/-- `MatchSlcAcquisition`. -/
def matchSlcAcquisition (slc : Slc.Metadata T) (etad : Metadata T) :
    Outcome (Acquisition T) := do
  let byName ← findOnly (nameMatches slc) etad.acquisitions
  match byName with
  | some acquisition => return acquisition
  | none =>
    let found ← findOnly (orbitMatches slc) etad.acquisitions
    match found with
    | some acquisition => return acquisition
    | none => .throws

/-! ## The bursts -/

/-- The candidate starts with the SLC burst. -/
def startsWith (source : Slc.Burst T) (candidate : Burst T) : Bool :=
  |source.firstLineTime - candidate.coverage.azimuthMin| < burstStartToleranceSeconds

/-- The only burst of a swath that starts with the SLC burst. -/
def matchBurst (etad : Metadata T) (burstIndices : List Int) (source : Slc.Burst T) :
    Outcome (Option (Burst T)) :=
  burstIndices.foldlM (fun found bIndex => do
    let candidate ← getBurst etad bIndex
    if startsWith source candidate then
      if found.isSome then .throws else return some candidate
    else return found) none

/-- The coverage strictly contains the SLC burst. -/
def Covers (slc : Slc.Metadata T) (source : Slc.Burst T) (coverage : Coverage T) : Prop :=
  let raster := slc.raster
  let lastLineTime :=
    source.firstLineTime + ((raster.linesPerBurst - 1 : Nat) : T) * raster.azimuthTimeInterval
  let lastRangeTime :=
    raster.firstRangeTime + ((raster.samplesPerBurst - 1 : Nat) : T) * raster.rangeTimeInterval
  source.firstLineTime > coverage.azimuthMin ∧ lastLineTime < coverage.azimuthMax ∧
    raster.firstRangeTime > coverage.rangeMin ∧ lastRangeTime < coverage.rangeMax

instance (slc : Slc.Metadata T) (source : Slc.Burst T) (coverage : Coverage T) :
    Decidable (Covers slc source coverage) :=
  inferInstanceAs (Decidable (_ ∧ _))

/-- One round of the loop over the selected bursts. -/
def associateBurst (slc : Slc.Metadata T) (firstBurst : Nat) (etad : Metadata T) (swath : Swath)
    (bursts : List BurstAssociation) (splitIndex : Nat) : Outcome (List BurstAssociation) := do
  let sourceIndex := firstBurst + splitIndex
  let source ← vectorIndex slc.bursts sourceIndex
  let found ← matchBurst etad swath.burstIndices source
  match found with
  | none => .throws
  | some burst => do
    require (Covers slc source burst.coverage)
    require (burst.bIndex ∉ bursts.map BurstAssociation.etadBIndex)
    return bursts ++
      [⟨sourceIndex, splitIndex, splitIndex * slc.raster.linesPerBurst, burst.bIndex⟩]

/-- `AssociateBursts`. -/
def associateBursts (slc : Slc.Metadata T) (selection : BurstSelection) (etad : Metadata T) :
    Outcome AcquisitionAssociation := do
  require (selection.burstCount > 0)
  require (selection.firstBurst ≤ slc.bursts.length ∧
    selection.burstCount ≤ slc.bursts.length - selection.firstBurst)
  require (slc.raster.linesPerBurst > 0 ∧ slc.raster.samplesPerBurst > 0)
  let acquisition ← matchSlcAcquisition slc etad
  match acquisition.swaths.find? fun swath => swath.swathId = slc.swathId with
  | none => .throws
  | some swath => do
    require (selection.burstCount ≤ sizeMax / slc.raster.linesPerBurst)
    let bursts ← (List.range selection.burstCount).foldlM
      (associateBurst slc selection.firstBurst etad swath) []
    return ⟨acquisition.pIndex, bursts⟩

/-! ## What an association is -/

/-- The acquisition is the only one whose name matches, or else the only one whose orbit does. -/
def SingleMatch (slc : Slc.Metadata T) (etad : Metadata T) (acquisition : Acquisition T) : Prop :=
  etad.acquisitions.filter (nameMatches slc) = [acquisition] ∨
    etad.acquisitions.filter (nameMatches slc) = [] ∧
      etad.acquisitions.filter (orbitMatches slc) = [acquisition]

/-- One entry: the SLC burst and the ETAD burst it is put with. -/
structure EntryCorrect (slc : Slc.Metadata T) (selection : BurstSelection) (etad : Metadata T)
    (swath : Swath) (i : Nat) (entry : BurstAssociation) (source : Slc.Burst T)
    (burst : Burst T) : Prop where
  slcBurstIndex : entry.slcBurstIndex = selection.firstBurst + i
  splitBurstIndex : entry.splitBurstIndex = i
  firstOutputLine : entry.firstOutputLine = i * slc.raster.linesPerBurst
  etadBIndex : entry.etadBIndex = burst.bIndex
  source_eq : slc.bursts[selection.firstBurst + i]? = some source
  burst_mem : burst ∈ etad.bursts
  listed : burst.bIndex ∈ swath.burstIndices
  start_lt : |source.firstLineTime - burst.coverage.azimuthMin| < burstStartToleranceSeconds
  covers : Covers slc source burst.coverage

/-- A one-to-one association within one swath of one acquisition. -/
structure AssociationCorrect (slc : Slc.Metadata T) (selection : BurstSelection)
    (etad : Metadata T) (result : AcquisitionAssociation) (acquisition : Acquisition T)
    (swath : Swath) : Prop where
  single : SingleMatch slc etad acquisition
  pIndex : result.etadPIndex = acquisition.pIndex
  swath_mem : swath ∈ acquisition.swaths
  swathId : swath.swathId = slc.swathId
  count : result.bursts.length = selection.burstCount
  entries : ∀ i entry, result.bursts[i]? = some entry →
    ∃ source burst, EntryCorrect slc selection etad swath i entry source burst
  distinct : (result.bursts.map BurstAssociation.etadBIndex).Nodup

theorem matchSlcAcquisition_eq_ok {slc : Slc.Metadata T} {etad : Metadata T}
    {acquisition : Acquisition T} (h : matchSlcAcquisition slc etad = .ok acquisition) :
    SingleMatch slc etad acquisition := by
  unfold matchSlcAcquisition at h
  rw [Outcome.bind_eq_ok] at h
  obtain ⟨byName, hbyName, h⟩ := h
  cases byName with
  | some a =>
    obtain rfl := Outcome.ok.inj h
    exact .inl (findOnly_eq_some.mp hbyName)
  | none =>
    -- no name matches: the orbit decides
    rw [Outcome.bind_eq_ok] at h
    obtain ⟨found, hfound, h⟩ := h
    cases found with
    | some a =>
      obtain rfl := Outcome.ok.inj h
      exact .inr ⟨findOnly_eq_none.mp hbyName, findOnly_eq_some.mp hfound⟩
    | none => cases h

/-- What the search for a burst remembers starts with the SLC burst. -/
theorem matchBurst_eq_some {etad : Metadata T} {burstIndices : List Int} {source : Slc.Burst T}
    {burst : Burst T} (h : matchBurst etad burstIndices source = .ok (some burst)) :
    burst ∈ etad.bursts ∧ burst.bIndex ∈ burstIndices ∧ startsWith source burst := by
  refine Outcome.foldlM_inv (fun found : Option (Burst T) => ∀ burst, found = some burst →
    burst ∈ etad.bursts ∧ burst.bIndex ∈ burstIndices ∧ startsWith source burst) ?_
    (fun burst hnone => absurd hnone.symm (Option.some_ne_none burst)) h burst rfl
  intro found bIndex found' hbIndex hfound hround
  rw [Outcome.bind_eq_ok] at hround
  obtain ⟨candidate, hcandidate, hround⟩ := hround
  obtain ⟨hmem, rfl⟩ := getBurst_eq_ok hcandidate
  split at hround
  · next hstarts =>
    split at hround
    · cases hround
    · rw [← Outcome.ok.inj hround]
      intro burst hsome
      exact Option.some.inj hsome ▸ ⟨hmem, hbIndex, hstarts⟩
  · exact Outcome.ok.inj hround ▸ hfound

theorem associateBurst_eq_ok {slc : Slc.Metadata T} {selection : BurstSelection}
    {etad : Metadata T} {swath : Swath} {bursts bursts' : List BurstAssociation} {i : Nat}
    (h : associateBurst slc selection.firstBurst etad swath bursts i = .ok bursts') :
    ∃ entry source burst, bursts' = bursts ++ [entry] ∧
      entry.etadBIndex ∉ bursts.map BurstAssociation.etadBIndex ∧
      EntryCorrect slc selection etad swath i entry source burst := by
  unfold associateBurst at h
  simp only [Outcome.bind_eq_ok] at h
  obtain ⟨source, hsource, found, hfound, h⟩ := h
  cases found with
  | none => cases h
  | some burst =>
    simp only [Outcome.bind_eq_ok, Outcome.require_eq_ok, Outcome.pure_eq, Outcome.ok.injEq] at h
    obtain ⟨-, hcovers, -, hnew, rfl⟩ := h
    obtain ⟨hmem, hlisted, hstarts⟩ := matchBurst_eq_some hfound
    exact ⟨_, source, burst, rfl, hnew, rfl, rfl, rfl, rfl, (vectorIndex_eq_ok.mp hsource).2, hmem,
      hlisted, of_decide_eq_true hstarts, hcovers⟩

/-- The loop over the selected bursts: an entry for each, in order, with an ETAD burst of its
own. -/
theorem associateBurst_run {slc : Slc.Metadata T} {selection : BurstSelection}
    {etad : Metadata T} {swath : Swath} (n : Nat) {bursts : List BurstAssociation}
    (h : (List.range n).foldlM (associateBurst slc selection.firstBurst etad swath) [] =
      .ok bursts) :
    bursts.length = n ∧ (bursts.map BurstAssociation.etadBIndex).Nodup ∧
      ∀ i entry, bursts[i]? = some entry →
        ∃ source burst, EntryCorrect slc selection etad swath i entry source burst := by
  induction n generalizing bursts with
  | zero =>
    obtain rfl := Outcome.ok.inj h
    exact ⟨rfl, List.nodup_nil, fun i entry hentry => by simp at hentry⟩
  | succ n ih =>
    rw [List.range_succ, List.foldlM_append, Outcome.bind_eq_ok] at h
    obtain ⟨before, hbefore, hlast⟩ := h
    obtain ⟨hlength, hdistinct, hentries⟩ := ih hbefore
    rw [List.foldlM_cons, Outcome.bind_eq_ok] at hlast
    obtain ⟨after, hafter, hend⟩ := hlast
    obtain rfl := Outcome.ok.inj hend
    obtain ⟨entry, source, burst, rfl, hnew, hcorrect⟩ := associateBurst_eq_ok hafter
    refine ⟨by rw [List.length_append, hlength, List.length_singleton],
      nodup_map_append hdistinct hnew, fun i entry' hentry' => ?_⟩
    rcases Nat.lt_or_ge i n with hlt | hge
    · rw [List.getElem?_append_left (by omega)] at hentry'
      exact hentries i entry' hentry'
    -- the entry of this round
    · rw [List.getElem?_append_right (by omega)] at hentry'
      obtain ⟨hi, hentry'⟩ := List.getElem?_eq_some_iff.mp hentry'
      rw [List.length_singleton] at hi
      obtain rfl : i = n := by omega
      rw [List.getElem_singleton] at hentry'
      exact ⟨source, burst, hentry' ▸ hcorrect⟩

theorem associateBursts_eq_ok {slc : Slc.Metadata T} {selection : BurstSelection}
    {etad : Metadata T} {result : AcquisitionAssociation}
    (h : associateBursts slc selection etad = .ok result) :
    ∃ acquisition swath, AssociationCorrect slc selection etad result acquisition swath := by
  unfold associateBursts at h
  simp only [Outcome.bind_eq_ok, Outcome.require_eq_ok] at h
  obtain ⟨-, -, -, -, -, -, acquisition, hacquisition, h⟩ := h
  split at h
  · cases h
  · next swath hswath =>
    simp only [Outcome.bind_eq_ok, Outcome.require_eq_ok, Outcome.pure_eq, Outcome.ok.injEq] at h
    obtain ⟨-, -, bursts, hbursts, rfl⟩ := h
    obtain ⟨hlength, hdistinct, hentries⟩ := associateBurst_run _ hbursts
    exact ⟨acquisition, swath, matchSlcAcquisition_eq_ok hacquisition, rfl,
      List.mem_of_find?_eq_some hswath, by simpa using List.find?_some hswath, hlength, hentries,
      hdistinct⟩

/-! ## The order of the listing -/

structure SwathReordered (swath swath' : Swath) : Prop where
  swathId : swath.swathId = swath'.swathId
  sIndex : swath.sIndex = swath'.sIndex
  burstIndices : swath.burstIndices.Perm swath'.burstIndices

structure AcquisitionReordered (acquisition acquisition' : Acquisition T) : Prop where
  productId : acquisition.productId = acquisition'.productId
  pIndex : acquisition.pIndex = acquisition'.pIndex
  startTime : acquisition.startTime = acquisition'.startTime
  stopTime : acquisition.stopTime = acquisition'.stopTime
  swaths : PermBy SwathReordered acquisition.swaths acquisition'.swaths

/-- The same metadata, its acquisitions, swaths, burst indices and bursts in another order. -/
structure MetadataReordered (etad etad' : Metadata T) : Prop where
  mission : etad.mission = etad'.mission
  mode : etad.mode = etad'.mode
  coverage : etad.coverage = etad'.coverage
  carrierFrequencyHz : etad.carrierFrequencyHz = etad'.carrierFrequencyHz
  calibrations : etad.calibrations = etad'.calibrations
  acquisitions : PermBy AcquisitionReordered etad.acquisitions etad'.acquisitions
  bursts : etad.bursts.Perm etad'.bursts

omit [Field T] [LinearOrder T] in
theorem getBurst_reordered {etad etad' : Metadata T} (hconsistent : etad.Consistent)
    (h : MetadataReordered etad' etad) (bIndex : Int) :
    getBurst etad' bIndex = getBurst etad bIndex := by
  have hfind : (etad'.bursts.find? fun burst => burst.bIndex = bIndex) =
      etad.bursts.find? fun burst => burst.bIndex = bIndex := by
    rcases find?_permBy (fun a b (hab : a = b) => by rw [hab]) (permBy_of_perm h.bursts)
      (length_filter_key_le hconsistent.bIndex_nodup bIndex) with ⟨h, h'⟩ | ⟨a, b, h, h', rfl⟩
    · exact h.trans h'.symm
    · exact h.trans h'.symm
  unfold getBurst
  rw [hfind]

/-- The search among bursts that are all in the table, without the table. -/
theorem matchBurst_eq_findOnly {etad : Metadata T} {burstIndices : List Int}
    (source : Slc.Burst T)
    (h : ∀ bIndex ∈ burstIndices, ∃ burst, getBurst etad bIndex = .ok burst) :
    matchBurst etad burstIndices source = findOnly (startsWith source)
      (burstIndices.filterMap fun bIndex =>
        etad.bursts.find? fun burst => burst.bIndex = bIndex) := by
  unfold matchBurst findOnly
  generalize (none : Option (Burst T)) = found
  induction burstIndices generalizing found with
  | nil => rfl
  | cons bIndex burstIndices ih =>
    obtain ⟨burst, hburst⟩ := h bIndex List.mem_cons_self
    have hfind : (etad.bursts.find? fun burst => burst.bIndex = bIndex) = some burst := by
      unfold getBurst at hburst
      split at hburst
      · next found hfound => rw [hfound, Outcome.ok.inj hburst]
      · cases hburst
    rw [List.filterMap_cons_some (f := fun bIndex => etad.bursts.find? fun burst =>
      burst.bIndex = bIndex) hfind, List.foldlM_cons, List.foldlM_cons, hburst, Outcome.ok_bind]
    refine congrArg (_ >>= ·) (funext fun found' => ?_)
    exact ih (fun b hb => h b (List.mem_cons_of_mem bIndex hb)) found'

theorem matchBurst_reordered {etad etad' : Metadata T} (hconsistent : etad.Consistent)
    (h : MetadataReordered etad' etad) {burstIndices burstIndices' : List Int}
    (hperm : burstIndices'.Perm burstIndices)
    (hlisted : ∀ bIndex ∈ burstIndices, ∃ burst, getBurst etad bIndex = .ok burst)
    (source : Slc.Burst T) :
    matchBurst etad' burstIndices' source = matchBurst etad burstIndices source := by
  have htable : matchBurst etad' burstIndices' source = matchBurst etad burstIndices' source := by
    unfold matchBurst
    simp only [getBurst_reordered hconsistent h]
  rw [htable, matchBurst_eq_findOnly source hlisted,
    matchBurst_eq_findOnly source fun bIndex hb => hlisted bIndex (hperm.mem_iff.mp hb)]
  exact findOnly_perm _ (hperm.filterMap _)

/-- The acquisition that is found is the same, its own lists reordered. -/
theorem matchSlcAcquisition_reordered {etad etad' : Metadata T} (h : MetadataReordered etad' etad)
    (slc : Slc.Metadata T) :
    (matchSlcAcquisition slc etad' = .throws ∧ matchSlcAcquisition slc etad = .throws) ∨
      ∃ acquisition' acquisition, matchSlcAcquisition slc etad' = .ok acquisition' ∧
        matchSlcAcquisition slc etad = .ok acquisition ∧
          AcquisitionReordered acquisition' acquisition := by
  have hname : ∀ a a' : Acquisition T, AcquisitionReordered a a' →
      (nameMatches slc a ↔ nameMatches slc a') := by
    intro a a' ha
    unfold nameMatches
    rw [ha.productId]
  have horbit : ∀ a a' : Acquisition T, AcquisitionReordered a a' →
      (orbitMatches slc a ↔ orbitMatches slc a') := by
    intro a a' ha
    unfold orbitMatches
    rw [ha.productId, ha.startTime, ha.stopTime]
  unfold matchSlcAcquisition
  -- the names decide, and where they do not the orbits do
  rcases findOnly_permBy hname h.acquisitions with
    ⟨h', hsame⟩ | ⟨h', hsame⟩ | ⟨a, b, h', hsame, hab⟩
  · rw [h', hsame]
    exact .inl ⟨rfl, rfl⟩
  · rw [h', hsame, Outcome.ok_bind, Outcome.ok_bind]
    rcases findOnly_permBy horbit h.acquisitions with
      ⟨h', hsame⟩ | ⟨h', hsame⟩ | ⟨a, b, h', hsame, hab⟩
    · rw [h', hsame]
      exact .inl ⟨rfl, rfl⟩
    · rw [h', hsame]
      exact .inl ⟨rfl, rfl⟩
    · rw [h', hsame]
      exact .inr ⟨a, b, rfl, rfl, hab⟩
  · rw [h', hsame]
    exact .inr ⟨a, b, rfl, rfl, hab⟩

theorem SingleMatch.mem {slc : Slc.Metadata T} {etad : Metadata T} {acquisition : Acquisition T}
    (h : SingleMatch slc etad acquisition) : acquisition ∈ etad.acquisitions := by
  rcases h with h | ⟨-, h⟩
  · exact List.mem_of_mem_filter (h ▸ List.mem_singleton_self acquisition)
  · exact List.mem_of_mem_filter (h ▸ List.mem_singleton_self acquisition)

/-- The order of the listing does not matter. -/
theorem associateBursts_reordered {etad etad' : Metadata T} (hconsistent : etad.Consistent)
    (h : MetadataReordered etad' etad) (slc : Slc.Metadata T) (selection : BurstSelection) :
    associateBursts slc selection etad' = associateBursts slc selection etad := by
  unfold associateBursts
  rcases matchSlcAcquisition_reordered h slc with
    ⟨h', hsame⟩ | ⟨acquisition', acquisition, h', hsame, hacquisition⟩
  · rw [h', hsame]
    simp only [Outcome.throws_bind]
  · rw [h', hsame]
    simp only [Outcome.ok_bind, hacquisition.pIndex]
    have hmem := (matchSlcAcquisition_eq_ok hsame).mem
    have hswathId : ∀ s s' : Swath, SwathReordered s s' →
        (decide (s.swathId = slc.swathId) ↔ decide (s'.swathId = slc.swathId)) := by
      intro s s' hs
      rw [hs.swathId]
    rcases find?_permBy hswathId hacquisition.swaths
      (length_filter_key_le (hconsistent.swathId_nodup acquisition hmem) slc.swathId) with
      ⟨hnone', hnone⟩ | ⟨swath', swath, hsome', hsome, hswath⟩
    · rw [hnone', hnone]
    -- the same rounds
    · have hrounds : associateBurst slc selection.firstBurst etad' swath' =
          associateBurst slc selection.firstBurst etad swath := by
        have hlisted : ∀ bIndex ∈ swath.burstIndices, ∃ burst,
            getBurst etad bIndex = .ok burst := by
          intro bIndex hbIndex
          obtain ⟨burst, hburst, rfl, -⟩ := hconsistent.listed_agrees acquisition hmem swath
            (List.mem_of_find?_eq_some hsome) bIndex hbIndex
          exact ⟨burst, hconsistent.getBurst_eq hburst⟩
        funext bursts splitIndex
        unfold associateBurst
        simp only [matchBurst_reordered hconsistent h hswath.burstIndices hlisted]
      rw [hsome', hsome]
      simp only [hrounds]

/-! ## No undefined outcome -/

theorem matchSlcAcquisition_ne_undefined (slc : Slc.Metadata T) (etad : Metadata T) :
    matchSlcAcquisition slc etad ≠ .undefined := by
  unfold matchSlcAcquisition
  refine Outcome.bind_ne_undefined (findOnly_ne_undefined _ _) fun byName _ => ?_
  cases byName with
  | some acquisition => nofun
  | none =>
    refine Outcome.bind_ne_undefined (findOnly_ne_undefined _ _) fun found _ => ?_
    cases found <;> nofun

theorem matchBurst_ne_undefined (etad : Metadata T) (burstIndices : List Int)
    (source : Slc.Burst T) : matchBurst etad burstIndices source ≠ .undefined := by
  refine Outcome.foldlM_ne_undefined (fun bIndex _ found => ?_) none
  refine Outcome.bind_ne_undefined ?_ fun candidate _ => ?_
  · unfold getBurst
    split <;> nofun
  · split
    · split <;> nofun
    · nofun

/-- A round for a burst that is there. -/
theorem associateBurst_ne_undefined (slc : Slc.Metadata T) (etad : Metadata T) (swath : Swath)
    (bursts : List BurstAssociation) {firstBurst splitIndex : Nat}
    (h : firstBurst + splitIndex < slc.bursts.length) :
    associateBurst slc firstBurst etad swath bursts splitIndex ≠ .undefined := by
  unfold associateBurst
  refine Outcome.bind_ne_undefined ?_ fun source _ => ?_
  · rw [vectorIndex_natCast h]
    nofun
  · refine Outcome.bind_ne_undefined (matchBurst_ne_undefined _ _ _) fun found _ => ?_
    cases found with
    | none => nofun
    | some burst =>
      refine Outcome.bind_ne_undefined (Outcome.require_ne_undefined _) fun _ _ => ?_
      exact Outcome.bind_ne_undefined (Outcome.require_ne_undefined _) fun _ _ => by nofun

theorem associateBursts_ne_undefined (slc : Slc.Metadata T) (selection : BurstSelection)
    (etad : Metadata T) : associateBursts slc selection etad ≠ .undefined := by
  unfold associateBursts
  refine Outcome.bind_ne_undefined (Outcome.require_ne_undefined _) fun _ _ => ?_
  refine Outcome.bind_ne_undefined (Outcome.require_ne_undefined _) fun _ hfits => ?_
  refine Outcome.bind_ne_undefined (Outcome.require_ne_undefined _) fun _ _ => ?_
  refine Outcome.bind_ne_undefined (matchSlcAcquisition_ne_undefined _ _) fun acquisition _ => ?_
  split
  · nofun
  · refine Outcome.bind_ne_undefined (Outcome.require_ne_undefined _) fun _ _ => ?_
    refine Outcome.bind_ne_undefined ?_ fun _ _ => by nofun
    refine Outcome.foldlM_ne_undefined (fun splitIndex hsplit bursts => ?_) []
    have hselected := Outcome.require_eq_ok.mp hfits
    have hlt := List.mem_range.mp hsplit
    exact associateBurst_ne_undefined slc etad _ bursts (by omega)

/-- An association either throws or is one to one and correct, and it does not depend on the
order in which the ETAD annotation lists anything. -/
theorem associateBursts_correct {readers : Readers T} {document : XmlNode} {etad : Metadata T}
    (hread : parseAnnotation readers document = .ok etad) (slc : Slc.Metadata T)
    (selection : BurstSelection) :
    (associateBursts slc selection etad = .throws ∨
      ∃ result acquisition swath, associateBursts slc selection etad = .ok result ∧
        AssociationCorrect slc selection etad result acquisition swath) ∧
      ∀ etad', MetadataReordered etad' etad →
        associateBursts slc selection etad' = associateBursts slc selection etad := by
  refine ⟨?_, fun etad' h =>
    associateBursts_reordered (parseAnnotation_consistent hread).1 h slc selection⟩
  cases h : associateBursts slc selection etad with
  | ok result =>
    obtain ⟨acquisition, swath, hcorrect⟩ := associateBursts_eq_ok h
    exact .inr ⟨result, acquisition, swath, rfl, hcorrect⟩
  | throws => exact .inl rfl
  | undefined => exact absurd h (associateBursts_ne_undefined slc selection etad)

end Association

/-- The one burst of the sample products. -/
theorem associateBursts_correct_sample :
    associateBursts Slc.sampleMetadata ⟨0, 1⟩ (sampleMetadata 11 11) = .ok ⟨1, [⟨0, 0, 0, 7⟩]⟩ ∧
      (associateBursts Slc.sampleMetadata ⟨0, 1⟩ (sampleMetadata 11 11) = .throws ∨
        ∃ result acquisition swath,
          associateBursts Slc.sampleMetadata ⟨0, 1⟩ (sampleMetadata 11 11) = .ok result ∧
            AssociationCorrect Slc.sampleMetadata ⟨0, 1⟩ (sampleMetadata 11 11) result acquisition
              swath) ∧
      ∀ etad', MetadataReordered etad' (sampleMetadata 11 11) →
        associateBursts Slc.sampleMetadata ⟨0, 1⟩ etad' =
          associateBursts Slc.sampleMetadata ⟨0, 1⟩ (sampleMetadata 11 11) :=
  ⟨by decide +kernel, associateBursts_correct parseAnnotation_sample Slc.sampleMetadata ⟨0, 1⟩⟩

end Alus.Etad
