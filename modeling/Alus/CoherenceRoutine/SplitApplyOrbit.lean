import Mathlib.Data.String.Basic
import Alus.TopsarSplit.Split

/-!
# Loading one acquisition

`Execute::SplitApplyOrbit` (`coherence-estimation-routine/src/execute.cc`) opens a product,
splits the sub-swaths that the parameters select and applies the orbit file to each of them. It
fills two vectors, the splits and the names of their sub-swaths, and every user of the result
reads them by one index. `CalcSingleCoherence` then pairs the sub-swaths of two acquisitions by
name.

The product reader, the polygons, the orbit file and the processing of one pair are parameters.
-/

namespace Alus.CoherenceRoutine

open Alus.Lib
open Alus.TopsarSplit (Source Target Coordinates splitInitialize)

/-- `FULL_SUBSWATH_BURST_INDEX_START`. -/
def fullSubswathBurstIndexStart : Nat := 1

/-- `FULL_SUBSWATH_BURST_INDEX_END`. -/
def fullSubswathBurstIndexEnd : Nat := 9999

/-- A product as the reader leaves it. `GetSubSwathNames` sorts. -/
structure Product (R ε : Type) extends Source R ε where
  names_sorted : subSwathNames.Pairwise (· ≤ ·)

/-- A `TopsarSplit` after `Initialize`. -/
structure TopsarSplit (R U ε : Type) where
  subswath : String
  target : Target R U ε

/-- The parameters the routine reads. -/
structure Parameters where
  subswath : String
  polarisation : String
  aoi : String
  orbitDir : String

/-- What the routine calls: any of it may throw. -/
structure Services (R U ε A : Type) where
  utc : R → U
  format : U → String
  readProductNodes : String → Outcome (Product R ε)
  readWkt : String → Option A
  extractSwathPolygon : Target R U ε → Outcome (List (Coordinates R))
  isWithinSwath : A → List (Coordinates R) → Bool
  isCovered : List (Coordinates R) → A → Bool
  openPixelReader : Product R ε → TopsarSplit R U ε → Outcome Unit
  isOrbitFileAssigned : Bool
  initializeWithoutUpdate : TopsarSplit R U ε → Outcome Unit
  initializeOrbit : TopsarSplit R U ε → Outcome String
  gpuInit : Outcome Unit
  processSwath : String → TopsarSplit R U ε → TopsarSplit R U ε → Outcome Unit
  mergeSwaths : List String → Outcome Unit

/-- `Container::AddOrAppend` on the entry of one key. -/
def addOrAppend (entry : Option String) (value : String) : Option String :=
  match entry with
  | none => some value
  | some old => some (old ++ " " ++ value)

section Load

variable {R U ε A : Type} [DecidableEq ε] (services : Services R U ε A) (params : Parameters)

/-- The constructor of `TopsarSplit` and its `Initialize`. -/
def newSplit (product : Product R ε) (subswath aoi : String) (firstBurst lastBurst : Nat) :
    Outcome (TopsarSplit R U ε) := do
  let operator : Source R ε := { product.toSource with
    subswath
    selectedPolarisations := [params.polarisation]
    burstAoiWkt := aoi
    firstBurst
    lastBurst }
  let target ← splitInitialize services.utc services.format services.readWkt services.isCovered
    operator
  let name ← operator.subswathName
  return { subswath := name, target }

/-- A split of a whole sub-swath. -/
def newFullSplit (product : Product R ε) (subswath aoi : String) :
    Outcome (TopsarSplit R U ε) :=
  newSplit services params product subswath aoi fullSubswathBurstIndexStart
    fullSubswathBurstIndexEnd

/-- The two vectors that `SplitApplyOrbit` fills. -/
structure Selection (R U ε : Type) where
  splits : List (TopsarSplit R U ε)
  swathSelection : List String

/-- The split of the sub-swath of the parameters: of the area of interest, or of the bursts
asked for, where two equal indices below the first one stand for all bursts. -/
def subswathSplit (product : Product R ε) (burstIndexStart burstIndexEnd : Nat) :
    Outcome (TopsarSplit R U ε) :=
  if ¬ params.aoi.isEmpty then
    newFullSplit services params product params.subswath params.aoi
  else if burstIndexStart = burstIndexEnd ∧ burstIndexStart < fullSubswathBurstIndexStart then
    newFullSplit services params product params.subswath ""
  else
    newSplit services params product params.subswath "" burstIndexStart burstIndexEnd

def selectSubswath (product : Product R ε) (burstIndexStart burstIndexEnd : Nat)
    (out : Selection R U ε) : Outcome (Selection R U ε) := do
  let split ← subswathSplit services params product burstIndexStart burstIndexEnd
  return { splits := out.splits ++ [split], swathSelection := [params.subswath] }

/-- Every sub-swath of the product. -/
def selectAll (product : Product R ε) (out : Selection R U ε) : Outcome (Selection R U ε) := do
  let splits ← Outcome.collect
    (product.subSwathNames.map fun swath => newFullSplit services params product swath "")
  return { splits := out.splits ++ splits, swathSelection := product.subSwathNames }

/-- The search for the sub-swaths of the area of interest. -/
def searchSwaths (product : Product R ε) (aoi : A) :
    List String → Selection R U ε → Outcome (Selection R U ε)
  | [], out => return out
  | swath :: rest, out => do
    let swathSplit ← newFullSplit services params product swath ""
    let swathPoly ← services.extractSwathPolygon swathSplit.target
    if services.isWithinSwath aoi swathPoly then
      -- One sub-swath holds the whole area: what was found before is dropped.
      let split ← newFullSplit services params product swath params.aoi
      return { splits := [split], swathSelection := [swath] }
    else if services.isCovered swathPoly aoi then
      let split ← newFullSplit services params product swath params.aoi
      searchSwaths product aoi rest
        { splits := out.splits ++ [split], swathSelection := out.swathSelection ++ [swath] }
    else
      searchSwaths product aoi rest out

/-- The three ways to select sub-swaths. -/
def selectSplits (product : Product R ε) (burstIndexStart burstIndexEnd : Nat)
    (out : Selection R U ε) : Outcome (Selection R U ε) :=
  if ¬ params.subswath.isEmpty then
    selectSubswath services params product burstIndexStart burstIndexEnd out
  else if params.aoi.isEmpty then
    selectAll services params product out
  else
    match services.readWkt params.aoi with
    | none => .throws
    | some aoi => searchSwaths services params product aoi product.subSwathNames out

/-- `orbit_source` and the entry `ORBIT_SOURCE` of the metadata. -/
structure OrbitSource where
  orbitSource : String
  metadata : Option String

/-- The orbit file of one split, by the name the metadata gets. -/
def orbitName (split : TopsarSplit R U ε) : Outcome String :=
  if params.orbitDir.isEmpty ∧ ¬ services.isOrbitFileAssigned then do
    services.initializeWithoutUpdate split
    return "SAFE"
  else
    services.initializeOrbit split

/-- One round of the loop over the splits. The first name that is not empty stays. -/
def applyOrbit (product : Product R ε) (source : OrbitSource) (split : TopsarSplit R U ε) :
    Outcome OrbitSource := do
  services.openPixelReader product split
  let name ← orbitName services params split
  if source.orbitSource.isEmpty then
    return { orbitSource := name, metadata := addOrAppend source.metadata name }
  else
    return source

/-- `SplitApplyOrbit`. -/
def splitApplyOrbit (path : String) (burstIndexStart burstIndexEnd : Nat)
    (out : Selection R U ε) (metadata : Option String) :
    Outcome (Selection R U ε × OrbitSource) := do
  let product ← services.readProductNodes path
  let selected ← selectSplits services params product burstIndexStart burstIndexEnd out
  Outcome.require (selected.swathSelection ≠ [])
  let source ← selected.splits.foldlM (applyOrbit services params product)
    { orbitSource := "", metadata }
  return (selected, source)

end Load

/-! ## The two vectors are aligned -/

/-- The split at every index is the split of the sub-swath at that index. -/
def Selection.Aligned {R U ε : Type} (out : Selection R U ε) : Prop :=
  out.splits.map TopsarSplit.subswath = out.swathSelection

theorem Selection.aligned_nil {R U ε : Type} : (⟨[], []⟩ : Selection R U ε).Aligned := rfl

theorem Selection.Aligned.append {R U ε : Type} {out : Selection R U ε} (h : out.Aligned)
    {split : TopsarSplit R U ε} {swath : String} (hs : split.subswath = swath) :
    Selection.Aligned
      { splits := out.splits ++ [split], swathSelection := out.swathSelection ++ [swath] } := by
  show (out.splits ++ [split]).map TopsarSplit.subswath = out.swathSelection ++ [swath]
  rw [List.map_append, h, List.map_singleton, hs]

theorem Selection.Aligned.length {R U ε : Type} {out : Selection R U ε} (h : out.Aligned) :
    out.swathSelection.length = out.splits.length := by
  rw [← h, List.length_map]

/-- Index by index: the two vectors end together, and agree before. -/
theorem Selection.Aligned.getElem? {R U ε : Type} {out : Selection R U ε} (h : out.Aligned)
    (i : Nat) : out.swathSelection[i]? = (out.splits[i]?).map TopsarSplit.subswath := by
  rw [← h, List.getElem?_map]

/-- The empty name is the least. -/
theorem eq_empty_of_le {name : String} (h : name ≤ "") : name = "" := by
  have hle : name.toList ≤ [] := by simpa using String.le_iff_toList_le.mp h
  cases hname : name.toList with
  | nil => exact String.toList_inj.mp (by simpa using hname)
  | cons c cs => exact absurd (hname ▸ hle) (by simp)

section Aligned

variable {R U ε A : Type} {product : Product R ε}

/-- So a product that lists the empty name lists it first. -/
theorem Product.front_of_empty_mem (h : "" ∈ product.subSwathNames) :
    ∃ rest, product.subSwathNames = "" :: rest := by
  have hsorted := product.names_sorted
  cases hnames : product.subSwathNames with
  | nil => exact absurd (hnames ▸ h) List.not_mem_nil
  | cons front rest =>
    rw [hnames] at h hsorted
    rcases List.mem_cons.mp h with heq | hrest
    · exact ⟨rest, by rw [heq]⟩
    · have hle : front ≤ "" := (List.pairwise_cons.mp hsorted).1 "" hrest
      exact ⟨rest, by rw [eq_empty_of_le hle]⟩

variable [DecidableEq ε] {services : Services R U ε A} {params : Parameters}

/-- A split keeps the name it was asked for. An empty name stands for the first sub-swath of
the product, which is the empty one again when the product has such a name. -/
theorem newSplit_subswath {subswath aoi : String} {firstBurst lastBurst : Nat}
    {split : TopsarSplit R U ε}
    (hname : subswath.isEmpty = false ∨ subswath ∈ product.subSwathNames)
    (h : newSplit services params product subswath aoi firstBurst lastBurst = .ok split) :
    split.subswath = subswath := by
  simp only [newSplit, Outcome.bind_eq_ok, Outcome.pure_eq, Outcome.ok.injEq] at h
  obtain ⟨target, -, name, hsub, rfl⟩ := h
  show name = subswath
  simp only [Source.subswathName] at hsub
  cases hempty : subswath.isEmpty with
  | false =>
    rw [hempty] at hsub
    exact (Outcome.ok.inj hsub).symm
  | true =>
    have hnil : subswath = "" := String.isEmpty_iff.mp hempty
    have hmem : "" ∈ product.subSwathNames := by
      rcases hname with hfalse | hmem
      · exact absurd (hempty.symm.trans hfalse) (by decide)
      · exact hnil ▸ hmem
    obtain ⟨rest, hnames⟩ := Product.front_of_empty_mem hmem
    rw [hempty, hnames] at hsub
    rw [hnil]
    exact (Outcome.ok.inj hsub).symm

theorem selectSubswath_aligned {burstIndexStart burstIndexEnd : Nat} {out : Selection R U ε}
    (hsub : params.subswath.isEmpty = false)
    (h : selectSubswath services params product burstIndexStart burstIndexEnd ⟨[], []⟩ = .ok out) :
    out.Aligned := by
  simp only [selectSubswath, Outcome.bind_eq_ok, Outcome.pure_eq, Outcome.ok.injEq] at h
  obtain ⟨split, hsplit, rfl⟩ := h
  have hname : split.subswath = params.subswath := by
    unfold subswathSplit at hsplit
    split_ifs at hsplit <;> exact newSplit_subswath (.inl hsub) hsplit
  show ([] ++ [split]).map TopsarSplit.subswath = [params.subswath]
  rw [List.nil_append, List.map_singleton, hname]

theorem selectAll_aligned {out : Selection R U ε}
    (h : selectAll services params product ⟨[], []⟩ = .ok out) : out.Aligned := by
  simp only [selectAll, Outcome.bind_eq_ok, Outcome.pure_eq, Outcome.ok.injEq] at h
  obtain ⟨splits, hsplits, rfl⟩ := h
  have hmap := Outcome.collect_eq_ok.mp hsplits
  show ([] ++ splits).map TopsarSplit.subswath = product.subSwathNames
  have hlen : splits.length = product.subSwathNames.length := by
    simpa using (congrArg List.length hmap).symm
  apply List.ext_getElem (by simpa using hlen)
  intro i hi hi'
  have hi'' : i < splits.length := by simpa using hi
  have hget : newFullSplit services params product product.subSwathNames[i] "" = .ok splits[i] := by
    have := congrArg (·[i]?) hmap
    simpa [hi', hi''] using this
  simpa using newSplit_subswath (.inr (List.getElem_mem hi')) hget

/-- Over the search: what was aligned stays aligned, whether it grows or is replaced. -/
theorem searchSwaths_aligned {aoi : A} {swaths : List String} {out found : Selection R U ε}
    (hswaths : ∀ swath ∈ swaths, swath ∈ product.subSwathNames) (hout : out.Aligned)
    (h : searchSwaths services params product aoi swaths out = .ok found) : found.Aligned := by
  induction swaths generalizing out with
  | nil => exact Outcome.ok.inj h ▸ hout
  | cons swath rest ih =>
    have hmem : swath ∈ product.subSwathNames := hswaths swath List.mem_cons_self
    have hrest : ∀ s ∈ rest, s ∈ product.subSwathNames :=
      fun s hs => hswaths s (List.mem_cons_of_mem swath hs)
    simp only [searchSwaths, Outcome.bind_eq_ok] at h
    obtain ⟨swathSplit, -, swathPoly, -, h⟩ := h
    split_ifs at h
    -- The area lies within this sub-swath: one split, and one name.
    · simp only [Outcome.bind_eq_ok, Outcome.pure_eq, Outcome.ok.injEq] at h
      obtain ⟨split, hsplit, rfl⟩ := h
      show [split].map TopsarSplit.subswath = [swath]
      rw [List.map_singleton, newSplit_subswath (.inr hmem) hsplit]
    -- The area reaches into it: both vectors grow by one.
    · simp only [Outcome.bind_eq_ok] at h
      obtain ⟨split, hsplit, h⟩ := h
      exact ih hrest (hout.append (newSplit_subswath (.inr hmem) hsplit)) h
    · exact ih hrest hout h

/-- **Alignment.** From two empty vectors, `SplitApplyOrbit` fills both alike, and neither
stays empty. -/
theorem splitApplyOrbit_aligned {path : String} {burstIndexStart burstIndexEnd : Nat}
    {metadata : Option String} {out : Selection R U ε} {source : OrbitSource}
    (h : splitApplyOrbit services params path burstIndexStart burstIndexEnd ⟨[], []⟩ metadata =
      .ok (out, source)) : out.Aligned ∧ out.splits ≠ [] := by
  simp only [splitApplyOrbit, Outcome.bind_eq_ok, Outcome.pure_eq, Outcome.ok.injEq,
    Outcome.require_eq_ok, Prod.mk.injEq] at h
  obtain ⟨product, -, selected, hselect, -, hne, -, -, rfl, -⟩ := h
  have haligned : selected.Aligned := by
    unfold selectSplits at hselect
    split_ifs at hselect with hsub haoi
    · exact selectAll_aligned hselect
    · cases hread : services.readWkt params.aoi with
      | none => rw [hread] at hselect; cases hselect
      | some aoi =>
        rw [hread] at hselect
        exact searchSwaths_aligned (fun _ hs => hs) Selection.aligned_nil hselect
    · exact selectSubswath_aligned (eq_false_of_ne_true hsub) hselect
  refine ⟨haligned, fun hsplits => hne ?_⟩
  rw [← haligned, hsplits, List.map_nil]

end Aligned

/-! ## One pair -/

section Pair

variable {R U ε A : Type} (services : Services R U ε A)

/-- One round over the splits of the reference: its sub-swath, looked up by name in the
secondary. -/
def processReference (reference secondary : Selection R U ε) (referenceIndex : Nat) :
    Outcome (List String) := do
  let referenceSwath ← vectorAt reference.swathSelection referenceIndex
  match secondary.swathSelection.idxOf? referenceSwath with
  | none => return []
  | some secondaryIndex => do
    let referenceSplit ← vectorAt reference.splits referenceIndex
    let secondarySplit ← vectorAt secondary.splits secondaryIndex
    services.processSwath referenceSwath referenceSplit secondarySplit
    return [referenceSwath]

/-- `CalcSingleCoherence`, as far as it reads the vectors. -/
def calcSingleCoherence (reference secondary : Selection R U ε) : Outcome Unit := do
  let processed ← (List.range reference.splits.length).foldlM
    (fun swaths referenceIndex => do
      let more ← processReference services reference secondary referenceIndex
      return swaths ++ more) []
  services.mergeSwaths processed

/-- **A pair is a pair of one sub-swath.** Over aligned vectors a round reads no index past an
end, and what it processes under a name are the two splits of that name. -/
theorem processReference_eq {reference secondary : Selection R U ε} (href : reference.Aligned)
    (hsec : secondary.Aligned) {i : Nat} (hi : i < reference.splits.length) :
    (reference.splits[i].subswath ∉ secondary.swathSelection ∧
      processReference services reference secondary i = .ok []) ∨
    ∃ split ∈ secondary.splits, split.subswath = reference.splits[i].subswath ∧
      processReference services reference secondary i = (do
        services.processSwath reference.splits[i].subswath reference.splits[i] split
        return [reference.splits[i].subswath]) := by
  have hswath : vectorAt reference.swathSelection i = .ok reference.splits[i].subswath := by
    have hlen : i < reference.swathSelection.length := href.length ▸ hi
    rw [vectorAt_natCast hlen]
    have hget := href.getElem? i
    rw [List.getElem?_eq_getElem hlen, List.getElem?_eq_getElem hi] at hget
    exact congrArg Outcome.ok (Option.some.inj hget)
  simp only [processReference, hswath, Outcome.ok_bind]
  cases hfind : secondary.swathSelection.idxOf? reference.splits[i].subswath with
  | none =>
    left
    exact ⟨List.idxOf?_eq_none_iff.mp hfind, rfl⟩
  | some j =>
    right
    obtain ⟨hj, hname, -⟩ := List.idxOf?_eq_some_iff.mp hfind
    have hlen : j < secondary.splits.length := hsec.length ▸ hj
    have hget := hsec.getElem? j
    rw [List.getElem?_eq_getElem hj, List.getElem?_eq_getElem hlen] at hget
    refine ⟨secondary.splits[j], List.getElem_mem hlen, ?_, ?_⟩
    · rw [← hname]
      exact (Option.some.inj hget).symm
    · simp only [vectorAt_natCast hi, vectorAt_natCast hlen, Outcome.ok_bind, Outcome.pure_eq]

end Pair

end Alus.CoherenceRoutine
