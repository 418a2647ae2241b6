import Mathlib.Algebra.Order.Ring.Int
import Mathlib.Data.Finset.Max
import Mathlib.Data.Rat.Defs
import Mathlib.Order.Interval.Finset.Nat
import Mathlib.Order.Interval.Set.OrdConnected
import Alus.Lib.Machine

/-!
# The valid area of a sub-swath

`FillSubswathMetaData` (`sentinel1_utils.cc`) reads the burst list of an annotation: each burst
has the first and the last valid sample of each of its lines, -1 where a line has none. From them
come the first and the last valid line of each burst, with their times, and the columns that are
valid in every burst. The arithmetic on times is exact.
-/

namespace Alus.S1tbx.ValidArea

open Alus.Lib

/-! ## The burst list -/

/-- `SECONDS_IN_DAY`. -/
def secondsInDay : Nat := 86400

/-- An element of the burst list. Its azimuth time is a modified Julian date. -/
structure BurstElement (F : Type) where
  azimuthTime : F
  firstValidSample : List Int
  lastValidSample : List Int

/-- What the loop uses of the image information and the swath timing. -/
structure ImageInformation (F : Type) where
  numOfSamples : Int
  linesPerBurst : PositiveInt
  azimuthTimeInterval : F

/-- The fields of `SubSwathInfo` that come from the burst list. -/
structure SubSwathInfo (F : Type) where
  burstFirstLineTime : List F
  burstLastLineTime : List F
  burstFirstValidLineTime : List F
  burstLastValidLineTime : List F
  firstValidSample : List (List Int)
  lastValidSample : List (List Int)
  firstValidLine : List Int
  lastValidLine : List Int
  firstValidPixel : Int
  lastValidPixel : Int
  firstValidLineTime : F
  lastValidLineTime : F
  deriving DecidableEq, Repr

/-- The variables of the loop over the lines of a burst. -/
structure LineScan where
  firstValidPixel : Int
  firstValidLineIdx : Int
  lastValidLineIdx : Int
  deriving DecidableEq, Repr

/-- `static_cast<int>` of a `size_t`. -/
def lineIndex (n : Nat) : Int := Int.bmod n 4294967296

/-- A pass of the loop over the lines: the first valid sample of a line, and the index of it. -/
def scanLine (s : LineScan) (line : Int × Nat) : Outcome LineScan :=
  if line.1 ≠ -1 then
    let firstValidPixel := if line.1 > s.firstValidPixel then line.1 else s.firstValidPixel
    -- the first valid line; every further one raises the index of the last by one
    if s.firstValidLineIdx = -1 then
      .ok ⟨firstValidPixel, lineIndex line.2, lineIndex line.2⟩
    else do
      let lastValidLineIdx ← int32 (s.lastValidLineIdx + 1)
      return ⟨firstValidPixel, s.firstValidLineIdx, lastValidLineIdx⟩
  else .ok s

/-- The loop over the lines of a burst. -/
def scanLines (firstValidPixel : Int) (samples : List Int) : Outcome LineScan :=
  samples.zipIdx.foldlM scanLine ⟨firstValidPixel, -1, -1⟩

/-- The loop over the last valid samples of a burst. -/
def scanLastPixels (lastValidPixel : Int) (samples : List Int) : Int :=
  samples.foldl (fun last pixel => if pixel ≠ -1 ∧ pixel < last then pixel else last)
    lastValidPixel

section Fill

variable {F : Type} [Ring F] (image : ImageInformation F)

/-- The fields before the burst list is read. -/
def initialInfo : SubSwathInfo F :=
  ⟨[], [], [], [], [], [], [], [], 0, image.numOfSamples, 0, 0⟩

/-- The time of a line of a burst. -/
def lineTime (burst : BurstElement F) (line : Int) : F :=
  burst.azimuthTime * (secondsInDay : F) + (line : F) * image.azimuthTimeInterval

/-- A pass of the loop over the bursts. What is read back with `.at(k)` is what the pass has
just appended; the two pixels are the variables that the loop keeps beside the fields. -/
def fillBurst (info : SubSwathInfo F) (burst : BurstElement F) : Outcome (SubSwathInfo F) := do
  let s ← scanLines info.firstValidPixel burst.firstValidSample
  return { info with
    burstFirstLineTime :=
      info.burstFirstLineTime ++ [burst.azimuthTime * (secondsInDay : F)]
    burstLastLineTime :=
      info.burstLastLineTime ++ [lineTime image burst (image.linesPerBurst.val - 1)]
    firstValidSample := info.firstValidSample ++ [burst.firstValidSample]
    lastValidSample := info.lastValidSample ++ [burst.lastValidSample]
    burstFirstValidLineTime :=
      info.burstFirstValidLineTime ++ [lineTime image burst s.firstValidLineIdx]
    burstLastValidLineTime :=
      info.burstLastValidLineTime ++ [lineTime image burst s.lastValidLineIdx]
    firstValidLine := info.firstValidLine ++ [s.firstValidLineIdx]
    lastValidLine := info.lastValidLine ++ [s.lastValidLineIdx]
    firstValidPixel := s.firstValidPixel
    lastValidPixel := scanLastPixels info.lastValidPixel burst.lastValidSample }

/-- The loop over the bursts. -/
def fillBursts (bursts : List (BurstElement F)) : Outcome (SubSwathInfo F) :=
  bursts.foldlM (fillBurst image) (initialInfo image)

/-- `FillSubswathMetaData`, the burst list, with the number of bursts that it declares. -/
def fillBurstList (numOfBursts : Int) (bursts : List (BurstElement F)) :
    Outcome (SubSwathInfo F) :=
  if numOfBursts > 0 then do
    let info ← fillBursts image bursts
    let firstValidLineTime ← vectorAt info.burstFirstValidLineTime 0
    let lastValidLineTime ← vectorAt info.burstLastValidLineTime (numOfBursts - 1)
    return { info with
      firstValidLineTime := firstValidLineTime, lastValidLineTime := lastValidLineTime }
  else return initialInfo image

end Fill

/-! ## The valid lines of a burst -/

/-- The lines with a valid first sample. -/
def validLines (samples : List Int) : Finset Nat :=
  (Finset.range samples.length).filter fun i => samples[i]? ≠ some (-1)

/-- The valid samples of a burst. -/
def validSamples (samples : List Int) : Set Int := {z | z ∈ samples ∧ z ≠ -1}

theorem mem_validLines {samples : List Int} {i : Nat} :
    i ∈ validLines samples ↔ ∃ z, samples[i]? = some z ∧ z ≠ -1 := by
  rw [validLines, Finset.mem_filter, Finset.mem_range]
  constructor
  · intro h
    exact ⟨samples[i], List.getElem?_eq_getElem h.1, fun hz => h.2 (by simp [hz, h.1])⟩
  · rintro ⟨z, hz, hne⟩
    refine ⟨(List.getElem?_eq_some_iff.mp hz).1, fun hinvalid => hne ?_⟩
    exact Option.some.inj (hz.symm.trans hinvalid)

theorem lt_length_of_mem {samples : List Int} {i : Nat} (h : i ∈ validLines samples) :
    i < samples.length :=
  Finset.mem_range.mp (Finset.mem_filter.mp h).1

theorem validLines_concat (samples : List Int) (z : Int) :
    validLines (samples ++ [z]) =
      if z ≠ -1 then insert samples.length (validLines samples) else validLines samples := by
  ext i
  have hold : i < samples.length → (samples ++ [z])[i]? = samples[i]? := List.getElem?_append_left
  split
  · rw [Finset.mem_insert, mem_validLines, mem_validLines]
    grind
  · rw [mem_validLines, mem_validLines]
    grind

theorem validSamples_concat (samples : List Int) (z : Int) :
    validSamples (samples ++ [z]) =
      if z ≠ -1 then insert z (validSamples samples) else validSamples samples := by
  ext w
  unfold validSamples
  split <;> simp only [Set.mem_insert_iff, Set.mem_ofPred_eq, List.mem_append,
    List.mem_singleton] <;> grind

/-- Lines from `f` to `l`: as many as these are, when none between them is missing. -/
theorem card_eq_iff_ordConnected {lines : Finset Nat} {f l : Nat}
    (hf : IsLeast (lines : Set Nat) f) (hl : IsGreatest (lines : Set Nat) l) :
    f + lines.card = l + 1 ↔ (lines : Set Nat).OrdConnected := by
  have hsub : lines ⊆ Finset.Icc f l := fun i hi => Finset.mem_Icc.mpr ⟨hf.2 hi, hl.2 hi⟩
  have hle : f ≤ l := hf.2 hl.1
  have hcard : (Finset.Icc f l).card = l + 1 - f := Nat.card_Icc f l
  constructor
  · intro h
    have hall : lines = Finset.Icc f l := Finset.eq_of_subset_of_card_le hsub (by omega)
    rw [hall, Finset.coe_Icc]
    exact Set.ordConnected_Icc
  · intro h
    have hall : lines = Finset.Icc f l := by
      apply hsub.antisymm
      intro i hi
      exact h.out hf.1 hl.1 (Finset.mem_Icc.mp hi)
    rw [hall, hcard]
    omega

/-! ## The loop over the lines -/

theorem lineIndex_of_lt {n : Nat} (h : n < 2147483648) : lineIndex n = n := by
  unfold lineIndex
  rw [Int.bmod_def]
  omega

theorem fits_lineIndex (n : Nat) : Fits 32 (lineIndex n) := by
  unfold lineIndex
  rw [fits32_iff, Int.bmod_def]
  omega

/-- What the loop has found in the lines it went over, from the pixel `p` on. The last line
follows from the number of valid lines, not from where they are. -/
structure Scanned (p : Int) (samples : List Int) (s : LineScan) : Prop where
  first_fits : Fits 32 s.firstValidLineIdx
  last_fits : Fits 32 s.lastValidLineIdx
  pixel : IsGreatest (insert p (validSamples samples)) s.firstValidPixel
  no_line : validLines samples = ∅ → s.firstValidLineIdx = -1 ∧ s.lastValidLineIdx = -1
  lines : ∀ f : Nat, IsLeast (validLines samples : Set Nat) f → f < 2147483648 →
    s.firstValidLineIdx = f ∧ s.lastValidLineIdx + 1 = f + (validLines samples).card

theorem Scanned.nil (p : Int) : Scanned p [] ⟨p, -1, -1⟩ where
  first_fits := show Fits 32 (-1) by decide
  last_fits := show Fits 32 (-1) by decide
  pixel := by simp [validSamples]
  no_line _ := ⟨rfl, rfl⟩
  lines f hf := absurd hf.1 (by simp [validLines])

theorem isGreatest_insert_ite {S : Set Int} {p z : Int} (h : IsGreatest S p) :
    IsGreatest (insert z S) (if z > p then z else p) := by
  have hmax := (isGreatest_singleton (a := z)).union h
  rw [Set.singleton_union] at hmax
  split
  · rwa [max_eq_left (by omega)] at hmax
  · rwa [max_eq_right (by omega)] at hmax

/-- The first valid line stays the first one. -/
theorem isLeast_of_validLines_concat {z : Int} {samples : List Int} {f : Nat}
    (hf : IsLeast (validLines (samples ++ [z]) : Set Nat) f) (hne : validLines samples ≠ ∅) :
    IsLeast (validLines samples : Set Nat) f := by
  rw [validLines_concat] at hf
  split at hf
  · obtain ⟨i, hi⟩ := Finset.nonempty_iff_ne_empty.mpr hne
    have hfi : f ≤ i := hf.2 (Finset.mem_coe.mpr (Finset.mem_insert_of_mem hi))
    refine ⟨?_, fun j hj => hf.2 (Finset.mem_coe.mpr (Finset.mem_insert_of_mem hj))⟩
    refine Finset.mem_of_mem_insert_of_ne (Finset.mem_coe.mp hf.1) ?_
    have := lt_length_of_mem hi
    omega
  · exact hf

/-- A line without valid samples changes nothing. -/
theorem Scanned.concat_invalid {p : Int} {samples : List Int} {s : LineScan}
    (hs : Scanned p samples s) : Scanned p (samples ++ [-1]) s := by
  have hlines : validLines (samples ++ [-1]) = validLines samples := by
    rw [validLines_concat, if_neg (by simp)]
  have hsamples : validSamples (samples ++ [-1]) = validSamples samples := by
    rw [validSamples_concat, if_neg (by simp)]
  exact ⟨hs.first_fits, hs.last_fits, by rw [hsamples]; exact hs.pixel,
    by rw [hlines]; exact hs.no_line, by rw [hlines]; exact hs.lines⟩

/-- What a pass does to what was found. -/
theorem Scanned.concat {p z : Int} {samples : List Int} {s s' : LineScan}
    (hs : Scanned p samples s) (h : scanLine s (z, samples.length) = .ok s') :
    Scanned p (samples ++ [z]) s' := by
  unfold scanLine at h
  by_cases hz : z = -1
  · rw [if_neg (by simpa using hz), Outcome.ok.injEq] at h
    subst h
    rw [hz]
    exact hs.concat_invalid
  · have hlines : validLines (samples ++ [z]) = insert samples.length (validLines samples) := by
      rw [validLines_concat, if_pos hz]
    have hpixel : IsGreatest (insert p (validSamples (samples ++ [z])))
        (if z > s.firstValidPixel then z else s.firstValidPixel) := by
      rw [validSamples_concat, if_pos hz, Set.insert_comm]
      exact isGreatest_insert_ite hs.pixel
    have hnew : samples.length ∉ validLines samples := fun hmem =>
      lt_irrefl _ (lt_length_of_mem hmem)
    have hsome : validLines (samples ++ [z]) ≠ ∅ := by
      rw [hlines]
      exact Finset.insert_ne_empty _ _
    rw [if_pos hz] at h
    by_cases hfirst : s.firstValidLineIdx = -1
    · dsimp only at h
      rw [if_pos hfirst, Outcome.ok.injEq] at h
      subst h
      have hfits := fits_lineIndex samples.length
      generalize hindex : lineIndex samples.length = index at hfits ⊢
      refine ⟨hfits, hfits, hpixel, fun he => absurd he hsome, ?_⟩
      intro f hf hlt
      by_cases hempty : validLines samples = ∅
      -- the first valid line
      · have hfn : f = samples.length := by
          rw [hlines, hempty] at hf
          simpa using hf.1
        rw [lineIndex_of_lt (by omega), ← hfn] at hindex
        refine ⟨hindex.symm, ?_⟩
        rw [hlines, hempty, ← hindex]
        rfl
      · have := (hs.lines f (isLeast_of_validLines_concat hf hempty) hlt).1
        omega
    -- a later one raises the number of valid lines
    · dsimp only at h
      rw [if_neg hfirst] at h
      refine Outcome.of_bind_eq_ok h fun last hlast h => ?_
      obtain ⟨hfits, rfl⟩ := int32_eq_ok.mp hlast
      cases h
      refine ⟨hs.first_fits, hfits, hpixel, fun he => absurd he hsome, ?_⟩
      intro f hf hlt
      have hne : validLines samples ≠ ∅ := fun he => hfirst (hs.no_line he).1
      have hold := hs.lines f (isLeast_of_validLines_concat hf hne) hlt
      refine ⟨hold.1, ?_⟩
      show s.lastValidLineIdx + 1 + 1 = _
      rw [hlines, Finset.card_insert_of_notMem hnew, hold.2]
      push_cast
      omega

theorem scanLines_concat (p z : Int) (samples : List Int) :
    scanLines p (samples ++ [z]) =
      scanLines p samples >>= fun s => scanLine s (z, samples.length) := by
  unfold scanLines
  rw [List.zipIdx_append, List.foldlM_append, Nat.zero_add, List.zipIdx_singleton]
  simp only [List.foldlM_cons, List.foldlM_nil, bind_pure]

theorem scanned_of_scanLines {p : Int} {samples : List Int} {s : LineScan}
    (h : scanLines p samples = .ok s) : Scanned p samples s := by
  induction samples using List.reverseRecOn generalizing s with
  | nil =>
    cases h
    exact Scanned.nil p
  | append_singleton samples z ih =>
    rw [scanLines_concat] at h
    exact Outcome.of_bind_eq_ok h fun s₀ hs₀ hz => (ih hs₀).concat hz

/-- Lines whose indices are numbers of `int` are gone over without an overflow. -/
theorem exists_scanLines {p : Int} {samples : List Int}
    (h : ∀ i ∈ validLines samples, i < 2147483648) : ∃ s, scanLines p samples = .ok s := by
  induction samples using List.reverseRecOn with
  | nil => exact ⟨_, rfl⟩
  | append_singleton samples z ih =>
    have hsub : validLines samples ⊆ validLines (samples ++ [z]) := by
      rw [validLines_concat]
      split
      · exact Finset.subset_insert _ _
      · exact Finset.Subset.rfl
    obtain ⟨s, hs⟩ := ih fun i hi => h i (hsub hi)
    rw [scanLines_concat, hs, Outcome.ok_bind]
    have hscanned := scanned_of_scanLines hs
    unfold scanLine
    split
    · rename_i hz
      dsimp only
      split
      · exact ⟨_, rfl⟩
      · rename_i hfirst
        have hne : (validLines samples).Nonempty := by
          rw [Finset.nonempty_iff_ne_empty]
          exact fun he => hfirst (hscanned.no_line he).1
        have hmin := Finset.isLeast_min' _ hne
        have hlt := lt_length_of_mem (Finset.min'_mem _ hne)
        have hn : samples.length < 2147483648 := by
          apply h
          rw [validLines_concat, if_pos hz]
          exact Finset.mem_insert_self _ _
        -- the valid lines lie between the first one and this one
        have hcard : (validLines samples).card ≤
            samples.length - (validLines samples).min' hne := by
          rw [← Nat.card_Ico]
          apply Finset.card_le_card
          intro i hi
          exact Finset.mem_Ico.mpr ⟨hmin.2 hi, lt_length_of_mem hi⟩
        have hlast := (hscanned.lines _ hmin (by omega)).2
        have hfits : Fits 32 (s.lastValidLineIdx + 1) := by
          rw [fits32_iff]
          omega
        rw [int32_of_fits hfits]
        exact ⟨_, rfl⟩
    · exact ⟨_, rfl⟩

/-- The line indices of a burst are its first and last valid line exactly when no line between
them is invalid. -/
theorem Scanned.lines_correct_iff {p : Int} {samples : List Int} {s : LineScan}
    (hs : Scanned p samples s) :
    (∃ f l : Nat, IsLeast (validLines samples : Set Nat) f ∧
      IsGreatest (validLines samples : Set Nat) l ∧ s.firstValidLineIdx = f ∧
      s.lastValidLineIdx = l) ↔
    (validLines samples).Nonempty ∧ (validLines samples : Set Nat).OrdConnected ∧
      ∀ i ∈ validLines samples, i < 2147483648 := by
  constructor
  · rintro ⟨f, l, hf, hl, hsf, hsl⟩
    have hffits := fits32_iff.mp hs.first_fits
    have hlfits := fits32_iff.mp hs.last_fits
    have hlines := (hs.lines f hf (by omega)).2
    refine ⟨⟨f, hf.1⟩, (card_eq_iff_ordConnected hf hl).mp (by omega), fun i hi => ?_⟩
    have : i ≤ l := hl.2 hi
    omega
  · rintro ⟨hne, hconnected, hlt⟩
    have hf := Finset.isLeast_min' _ hne
    have hl := Finset.isGreatest_max' _ hne
    have hcard := (card_eq_iff_ordConnected hf hl).mpr hconnected
    have hlines := hs.lines _ hf (hlt _ hf.1)
    exact ⟨_, _, hf, hl, hlines.1, by omega⟩

/-! ## The loop over the last valid samples -/

theorem isLeast_scanLastPixels {S : Set Int} {p : Int} (h : IsLeast S p) (samples : List Int) :
    IsLeast (S ∪ validSamples samples) (scanLastPixels p samples) := by
  induction samples using List.reverseRecOn with
  | nil => simpa [validSamples, scanLastPixels] using h
  | append_singleton samples z ih =>
    unfold scanLastPixels at ih ⊢
    rw [List.foldl_concat, validSamples_concat]
    by_cases hz : z = -1
    · rw [if_neg (by simpa using hz), if_neg fun hboth => hboth.1 hz]
      exact ih
    · rw [if_pos hz, Set.union_insert, ← Set.singleton_union]
      have hmin := (isLeast_singleton (a := z)).union ih
      split
      · rwa [min_eq_left (by omega)] at hmin
      · rwa [min_eq_right (by omega)] at hmin

/-! ## The loop over the bursts -/

section Bursts

variable {F : Type}

/-- The valid first samples of all bursts. -/
def firstSamples (bursts : List (BurstElement F)) : Set Int :=
  {z | ∃ b ∈ bursts, z ∈ validSamples b.firstValidSample}

/-- The valid last samples of all bursts. -/
def lastSamples (bursts : List (BurstElement F)) : Set Int :=
  {z | ∃ b ∈ bursts, z ∈ validSamples b.lastValidSample}

theorem firstSamples_concat (bursts : List (BurstElement F)) (b : BurstElement F) :
    firstSamples (bursts ++ [b]) = firstSamples bursts ∪ validSamples b.firstValidSample := by
  ext z
  simp [firstSamples, or_and_right, exists_or]

theorem lastSamples_concat (bursts : List (BurstElement F)) (b : BurstElement F) :
    lastSamples (bursts ++ [b]) = lastSamples bursts ∪ validSamples b.lastValidSample := by
  ext z
  simp [lastSamples, or_and_right, exists_or]

variable [Ring F] {image : ImageInformation F}

/-- What the fields hold after the bursts. -/
structure Filled (image : ImageInformation F) (bursts : List (BurstElement F))
    (info : SubSwathInfo F) : Prop where
  firstLines : info.firstValidLine.length = bursts.length
  lastLines : info.lastValidLine.length = bursts.length
  firstTimes : info.burstFirstValidLineTime.length = bursts.length
  lastTimes : info.burstLastValidLineTime.length = bursts.length
  lines : ∀ (k : Nat) (b : BurstElement F), bursts[k]? = some b →
    ∃ p s, Scanned p b.firstValidSample s ∧
      info.firstValidLine[k]? = some s.firstValidLineIdx ∧
      info.lastValidLine[k]? = some s.lastValidLineIdx ∧
      info.burstFirstValidLineTime[k]? = some (lineTime image b s.firstValidLineIdx) ∧
      info.burstLastValidLineTime[k]? = some (lineTime image b s.lastValidLineIdx)
  firstPixel : IsGreatest (insert 0 (firstSamples bursts)) info.firstValidPixel
  lastPixel : IsLeast (insert image.numOfSamples (lastSamples bursts)) info.lastValidPixel

theorem Filled.nil (image : ImageInformation F) : Filled image [] (initialInfo image) where
  firstLines := rfl
  lastLines := rfl
  firstTimes := rfl
  lastTimes := rfl
  lines k b hk := by simp at hk
  firstPixel := by simp [firstSamples, initialInfo]
  lastPixel := by simp [lastSamples, initialInfo]

theorem isGreatest_of_scanned {S : Set Int} {p q : Int} {samples : List Int}
    (hS : IsGreatest S p) (h : IsGreatest (insert p (validSamples samples)) q) :
    IsGreatest (S ∪ validSamples samples) q := by
  refine ⟨?_, fun z hz => ?_⟩
  · cases h.1 with
    | inl hp => exact .inl (hp ▸ hS.1)
    | inr hq => exact .inr hq
  · cases hz with
    | inl hz => exact le_trans (hS.2 hz) (h.2 (Set.mem_insert _ _))
    | inr hz => exact h.2 (Set.mem_insert_of_mem _ hz)

/-- What a pass does to what the fields hold. -/
theorem Filled.concat {bursts : List (BurstElement F)} {b : BurstElement F}
    {info info' : SubSwathInfo F} (hi : Filled image bursts info)
    (h : fillBurst image info b = .ok info') : Filled image (bursts ++ [b]) info' := by
  refine Outcome.of_bind_eq_ok h fun s hs h => ?_
  cases h
  have hscanned := scanned_of_scanLines hs
  -- the entry of the new burst
  have hlast {α : Type} {v : List α} {k : Nat} {a : α} (hv : v.length = bursts.length)
      (hk : k = bursts.length) : (v ++ [a])[k]? = some a := by
    rw [hk, ← hv]
    exact List.getElem?_concat_length
  -- the entries of the bursts before
  have hold {α : Type} {v : List α} {k : Nat} {a a' : α} (hk : v[k]? = some a') :
      (v ++ [a])[k]? = some a' := by
    rw [List.getElem?_append_left (List.getElem?_eq_some_iff.mp hk).1]
    exact hk
  refine ⟨?_, ?_, ?_, ?_, ?_, ?_, ?_⟩
  · simp [hi.firstLines]
  · simp [hi.lastLines]
  · simp [hi.firstTimes]
  · simp [hi.lastTimes]
  · intro k b' hk
    by_cases hlt : k < bursts.length
    · rw [List.getElem?_append_left hlt] at hk
      obtain ⟨p, s', hs', hf, hl, htf, htl⟩ := hi.lines k b' hk
      exact ⟨p, s', hs', hold hf, hold hl, hold htf, hold htl⟩
    · have hkb : k = bursts.length := by
        have := (List.getElem?_eq_some_iff.mp hk).1
        simp only [List.length_append, List.length_singleton] at this
        omega
      rw [hlast rfl hkb, Option.some.injEq] at hk
      subst hk
      exact ⟨_, s, hscanned, hlast hi.firstLines hkb, hlast hi.lastLines hkb,
        hlast hi.firstTimes hkb, hlast hi.lastTimes hkb⟩
  · rw [firstSamples_concat, ← Set.insert_union]
    exact isGreatest_of_scanned hi.firstPixel hscanned.pixel
  · rw [lastSamples_concat, ← Set.insert_union]
    exact isLeast_scanLastPixels hi.lastPixel b.lastValidSample

theorem fillBursts_concat (bursts : List (BurstElement F)) (b : BurstElement F) :
    fillBursts image (bursts ++ [b]) =
      fillBursts image bursts >>= fun info => fillBurst image info b := by
  unfold fillBursts
  rw [List.foldlM_append]
  simp only [List.foldlM_cons, List.foldlM_nil, bind_pure]

theorem filled_of_fillBursts {bursts : List (BurstElement F)} {info : SubSwathInfo F}
    (h : fillBursts image bursts = .ok info) : Filled image bursts info := by
  induction bursts using List.reverseRecOn generalizing info with
  | nil =>
    cases h
    exact Filled.nil image
  | append_singleton bursts b ih =>
    rw [fillBursts_concat] at h
    exact Outcome.of_bind_eq_ok h fun info₀ hinfo₀ hb => (ih hinfo₀).concat hb

theorem exists_fillBursts {bursts : List (BurstElement F)}
    (h : ∀ b ∈ bursts, ∀ i ∈ validLines b.firstValidSample, i < 2147483648) :
    ∃ info, fillBursts image bursts = .ok info := by
  refine Outcome.exists_foldlM (fun info b hb => ?_) _
  obtain ⟨s, hs⟩ := exists_scanLines (p := info.firstValidPixel) (h b hb)
  unfold fillBurst
  rw [hs]
  exact ⟨_, rfl⟩

end Bursts

/-! ## The valid area -/

section Area

variable {F : Type} [Ring F]

/-- The pixel lies between the first and the last valid sample of the line. -/
def ValidPixel (b : BurstElement F) (line : Nat) (pixel : Int) : Prop :=
  ∃ first last, b.firstValidSample[line]? = some first ∧ first ≠ -1 ∧
    b.lastValidSample[line]? = some last ∧ last ≠ -1 ∧ first ≤ pixel ∧ pixel ≤ last

/-- The fields of burst `k` are its first and last line with a valid first sample, and their
times. -/
def HasValidLines (image : ImageInformation F) (info : SubSwathInfo F) (k : Nat)
    (b : BurstElement F) : Prop :=
  ∃ f l : Nat,
    IsLeast (validLines b.firstValidSample : Set Nat) f ∧
    IsGreatest (validLines b.firstValidSample : Set Nat) l ∧
    info.firstValidLine[k]? = some (f : Int) ∧ info.lastValidLine[k]? = some (l : Int) ∧
    info.burstFirstValidLineTime[k]? =
      some (b.azimuthTime * (secondsInDay : F) + (f : F) * image.azimuthTimeInterval) ∧
    info.burstLastValidLineTime[k]? =
      some (b.azimuthTime * (secondsInDay : F) + (l : F) * image.azimuthTimeInterval)

/-- The fields are the valid area of the bursts. -/
structure IsValidArea (image : ImageInformation F) (bursts : List (BurstElement F))
    (info : SubSwathInfo F) : Prop where
  lines : ∀ (k : Nat) (b : BurstElement F), bursts[k]? = some b →
    HasValidLines image info k b
  firstPixel : (firstSamples bursts).Nonempty →
    IsGreatest (firstSamples bursts) info.firstValidPixel
  lastPixel : (lastSamples bursts).Nonempty → IsLeast (lastSamples bursts) info.lastValidPixel
  pixels : ∀ b ∈ bursts, ∀ i ∈ validLines b.firstValidSample, ∀ pixel,
    info.firstValidPixel ≤ pixel → pixel ≤ info.lastValidPixel → ValidPixel b i pixel

/-- The annotation is one whose valid area is found: as many bursts as declared, each with
consecutive valid lines, samples within the image, and a last valid sample on each valid line or
no column that all bursts share. -/
structure WellAnnotated (image : ImageInformation F) (numOfBursts : Int)
    (bursts : List (BurstElement F)) : Prop where
  count : (numOfBursts ≤ 0 ∧ bursts = []) ∨ (0 < numOfBursts ∧ numOfBursts ≤ bursts.length)
  lines : ∀ b ∈ bursts, (validLines b.firstValidSample).Nonempty ∧
    (validLines b.firstValidSample : Set Nat).OrdConnected ∧
    ∀ i ∈ validLines b.firstValidSample, i < 2147483648
  first : (firstSamples bursts).Nonempty → ∃ z ∈ firstSamples bursts, 0 ≤ z
  last : (lastSamples bursts).Nonempty → ∃ z ∈ lastSamples bursts, z ≤ image.numOfSamples
  valid : (∀ b ∈ bursts, ∀ i ∈ validLines b.firstValidSample,
      ∃ z, b.lastValidSample[i]? = some z ∧ z ≠ -1) ∨
    ∃ first ∈ firstSamples bursts, ∃ last ∈ insert image.numOfSamples (lastSamples bursts),
      last < first

theorem isGreatest_iff_of_insert {S : Set Int} {a p : Int} (h : IsGreatest (insert a S) p) :
    IsGreatest S p ↔ ∃ z ∈ S, a ≤ z := by
  constructor
  · intro hp
    exact ⟨p, hp.1, h.2 (Set.mem_insert a S)⟩
  · rintro ⟨z, hz, haz⟩
    refine ⟨?_, fun w hw => h.2 (Set.mem_insert_of_mem a hw)⟩
    cases h.1 with
    | inl hpa =>
      have hzp : z ≤ p := h.2 (Set.mem_insert_of_mem a hz)
      rwa [show p = z by omega]
    | inr hp => exact hp

theorem isLeast_iff_of_insert {S : Set Int} {a p : Int} (h : IsLeast (insert a S) p) :
    IsLeast S p ↔ ∃ z ∈ S, z ≤ a := by
  constructor
  · intro hp
    exact ⟨p, hp.1, h.2 (Set.mem_insert a S)⟩
  · rintro ⟨z, hz, hza⟩
    refine ⟨?_, fun w hw => h.2 (Set.mem_insert_of_mem a hw)⟩
    cases h.1 with
    | inl hpa =>
      have hpz : p ≤ z := h.2 (Set.mem_insert_of_mem a hz)
      rwa [show p = z by omega]
    | inr hp => exact hp

variable {image : ImageInformation F} {bursts : List (BurstElement F)} {info : SubSwathInfo F}

/-- The lines of all bursts are right exactly when the valid lines of each are consecutive. -/
theorem Filled.lines_iff (hi : Filled image bursts info) :
    (∀ (k : Nat) (b : BurstElement F), bursts[k]? = some b → HasValidLines image info k b) ↔
    ∀ b ∈ bursts, (validLines b.firstValidSample).Nonempty ∧
      (validLines b.firstValidSample : Set Nat).OrdConnected ∧
      ∀ i ∈ validLines b.firstValidSample, i < 2147483648 := by
  constructor
  · intro h b hb
    obtain ⟨k, hk⟩ := List.mem_iff_getElem?.mp hb
    obtain ⟨p, s, hs, hfirst, hlast, -, -⟩ := hi.lines k b hk
    obtain ⟨f, l, hf, hl, hsf, hsl, -, -⟩ := h k b hk
    rw [hfirst, Option.some.injEq] at hsf
    rw [hlast, Option.some.injEq] at hsl
    exact hs.lines_correct_iff.mp ⟨f, l, hf, hl, hsf, hsl⟩
  · intro h k b hk
    obtain ⟨p, s, hs, hfirst, hlast, htf, htl⟩ := hi.lines k b hk
    obtain ⟨f, l, hf, hl, hsf, hsl⟩ :=
      hs.lines_correct_iff.mpr (h b (List.mem_of_getElem? hk))
    refine ⟨f, l, hf, hl, hsf ▸ hfirst, hsl ▸ hlast, ?_, ?_⟩
    · rw [htf, hsf, lineTime, Int.cast_natCast]
    · rw [htl, hsl, lineTime, Int.cast_natCast]

/-- The columns between the two pixels are valid exactly when each valid line has a last valid
sample, or when there are none. -/
theorem Filled.pixels_iff (hi : Filled image bursts info) :
    (∀ b ∈ bursts, ∀ i ∈ validLines b.firstValidSample, ∀ pixel,
      info.firstValidPixel ≤ pixel → pixel ≤ info.lastValidPixel → ValidPixel b i pixel) ↔
    (∀ b ∈ bursts, ∀ i ∈ validLines b.firstValidSample,
      ∃ z, b.lastValidSample[i]? = some z ∧ z ≠ -1) ∨
    info.lastValidPixel < info.firstValidPixel := by
  constructor
  · intro h
    by_cases hlt : info.lastValidPixel < info.firstValidPixel
    · exact .inr hlt
    · left
      intro b hb i hmem
      obtain ⟨_, last, -, -, hlast, hne, -, -⟩ :=
        h b hb i hmem info.firstValidPixel le_rfl (by omega)
      exact ⟨last, hlast, hne⟩
  · rintro (h | h) b hb i hmem pixel hfp hpl
    · obtain ⟨first, hfirst, hfne⟩ := mem_validLines.mp hmem
      obtain ⟨last, hlast, hlne⟩ := h b hb i hmem
      have hf : first ≤ info.firstValidPixel := by
        apply hi.firstPixel.2
        exact Set.mem_insert_of_mem _ ⟨b, hb, List.mem_of_getElem? hfirst, hfne⟩
      have hl : info.lastValidPixel ≤ last := by
        apply hi.lastPixel.2
        exact Set.mem_insert_of_mem _ ⟨b, hb, List.mem_of_getElem? hlast, hlne⟩
      exact ⟨first, last, hfirst, hfne, hlast, hlne, hf.trans hfp, hpl.trans hl⟩
    · omega

theorem Filled.no_column_iff (hi : Filled image bursts info)
    (hfirst : (firstSamples bursts).Nonempty →
      IsGreatest (firstSamples bursts) info.firstValidPixel) :
    ((∀ b ∈ bursts, ∀ i ∈ validLines b.firstValidSample,
        ∃ z, b.lastValidSample[i]? = some z ∧ z ≠ -1) ∨
      info.lastValidPixel < info.firstValidPixel) ↔
    (∀ b ∈ bursts, ∀ i ∈ validLines b.firstValidSample,
        ∃ z, b.lastValidSample[i]? = some z ∧ z ≠ -1) ∨
      ∃ first ∈ firstSamples bursts, ∃ last ∈ insert image.numOfSamples (lastSamples bursts),
        last < first := by
  by_cases hsome : (firstSamples bursts).Nonempty
  · have hmax := hfirst hsome
    apply or_congr_right
    constructor
    · intro h
      exact ⟨_, hmax.1, _, hi.lastPixel.1, h⟩
    · rintro ⟨first, hf, last, hl, hlt⟩
      have := hmax.2 hf
      have := hi.lastPixel.2 hl
      omega
  -- without a valid line there is none that lacks a last sample
  · have hall : ∀ b ∈ bursts, ∀ i ∈ validLines b.firstValidSample,
        ∃ z, b.lastValidSample[i]? = some z ∧ z ≠ -1 := by
      intro b hb i hmem
      obtain ⟨z, hz, hne⟩ := mem_validLines.mp hmem
      exact absurd ⟨z, b, hb, List.mem_of_getElem? hz, hne⟩ hsome
    exact iff_of_true (.inl hall) (.inl hall)

theorem Filled.isValidArea_iff (hi : Filled image bursts info) {numOfBursts : Int}
    (hcount : (numOfBursts ≤ 0 ∧ bursts = []) ∨
      (0 < numOfBursts ∧ numOfBursts ≤ bursts.length)) :
    IsValidArea image bursts info ↔ WellAnnotated image numOfBursts bursts := by
  constructor
  · intro h
    refine ⟨hcount, hi.lines_iff.mp h.lines, fun hne => ?_, fun hne => ?_, ?_⟩
    · exact (isGreatest_iff_of_insert hi.firstPixel).mp (h.firstPixel hne)
    · exact (isLeast_iff_of_insert hi.lastPixel).mp (h.lastPixel hne)
    · exact (hi.no_column_iff h.firstPixel).mp (hi.pixels_iff.mp h.pixels)
  · intro h
    have hfirst : (firstSamples bursts).Nonempty →
        IsGreatest (firstSamples bursts) info.firstValidPixel := fun hne =>
      (isGreatest_iff_of_insert hi.firstPixel).mpr (h.first hne)
    refine ⟨hi.lines_iff.mpr h.lines, hfirst, fun hne => ?_, ?_⟩
    · exact (isLeast_iff_of_insert hi.lastPixel).mpr (h.last hne)
    · exact hi.pixels_iff.mpr ((hi.no_column_iff hfirst).mpr h.valid)

/-- The times of the sub-swath are those of the first and of the last declared burst. -/
theorem fillBurstList_eq_ok {numOfBursts : Int} (hpos : 0 < numOfBursts) :
    fillBurstList image numOfBursts bursts = .ok info ↔
      ∃ filled first last, fillBursts image bursts = .ok filled ∧
        vectorAt filled.burstFirstValidLineTime 0 = .ok first ∧
        vectorAt filled.burstLastValidLineTime (numOfBursts - 1) = .ok last ∧
        info = { filled with firstValidLineTime := first, lastValidLineTime := last } := by
  unfold fillBurstList
  rw [if_pos hpos]
  simp only [Outcome.bind_eq_ok, Outcome.pure_eq, Outcome.ok.injEq]
  constructor
  · rintro ⟨filled, hfilled, first, hfirst, last, hlast, rfl⟩
    exact ⟨filled, first, last, hfilled, hfirst, hlast, rfl⟩
  · rintro ⟨filled, first, last, hfilled, hfirst, hlast, rfl⟩
    exact ⟨filled, hfilled, first, hfirst, last, hlast, rfl⟩

/-- The two times are no part of what the bursts left in the other fields. -/
theorem isValidArea_with_times (first last : F) :
    IsValidArea image bursts { info with firstValidLineTime := first, lastValidLineTime := last } ↔
      IsValidArea image bursts info :=
  ⟨fun h => ⟨h.lines, h.firstPixel, h.lastPixel, h.pixels⟩,
    fun h => ⟨h.lines, h.firstPixel, h.lastPixel, h.pixels⟩⟩

variable (image bursts)

/-- The valid area is that of the bursts exactly when the annotation is well formed and no
invalid line lies between two valid lines of a burst. -/
theorem validArea_correct_iff (numOfBursts : Int) :
    (∃ info, fillBurstList image numOfBursts bursts = .ok info ∧
      IsValidArea image bursts info) ↔ WellAnnotated image numOfBursts bursts := by
  by_cases hpos : 0 < numOfBursts
  · constructor
    · rintro ⟨info, hinfo, harea⟩
      obtain ⟨filled, first, last, hfilled, -, hlast, rfl⟩ := (fillBurstList_eq_ok hpos).mp hinfo
      have hi := filled_of_fillBursts hfilled
      have hlen : numOfBursts ≤ bursts.length := by
        unfold vectorAt at hlast
        rw [if_pos (by omega)] at hlast
        cases hat : filled.burstLastValidLineTime[(numOfBursts - 1).toNat]? with
        | none => rw [hat] at hlast; cases hlast
        | some t =>
          have := (List.getElem?_eq_some_iff.mp hat).1
          rw [hi.lastTimes] at this
          omega
      exact (hi.isValidArea_iff (.inr ⟨hpos, hlen⟩)).mp ((isValidArea_with_times _ _).mp harea)
    · intro h
      have hlen : numOfBursts ≤ bursts.length := by
        cases h.count with
        | inl hnone => omega
        | inr hsome => exact hsome.2
      have hrun : ∃ filled, fillBursts image bursts = .ok filled :=
        exists_fillBursts fun b hb => (h.lines b hb).2.2
      obtain ⟨filled, hfilled⟩ := hrun
      have hi := filled_of_fillBursts hfilled
      have hfirstAt : 0 < filled.burstFirstValidLineTime.length := by
        rw [hi.firstTimes]
        omega
      have hlastAt : (numOfBursts - 1).toNat < filled.burstLastValidLineTime.length := by
        rw [hi.lastTimes]
        omega
      have hindex : ((numOfBursts - 1).toNat : Int) = numOfBursts - 1 := by omega
      refine ⟨_, (fillBurstList_eq_ok hpos).mpr ⟨filled, _, _, hfilled,
        vectorAt_natCast hfirstAt, hindex ▸ vectorAt_natCast hlastAt, rfl⟩, ?_⟩
      exact (isValidArea_with_times _ _).mpr ((hi.isValidArea_iff h.count).mpr h)
  · have hzero : fillBurstList image numOfBursts bursts = .ok (initialInfo image) := if_neg hpos
    rw [hzero]
    constructor
    · rintro ⟨info, hinfo, harea⟩
      cases hinfo
      cases bursts with
      | nil => exact ((Filled.nil image).isValidArea_iff (.inl ⟨by omega, rfl⟩)).mp harea
      | cons b bursts =>
        -- no burst is read, so that no line is there
        obtain ⟨f, l, -, -, hf, -⟩ := harea.lines 0 b rfl
        cases hf
    · intro h
      cases h.count with
      | inl hnone =>
        rw [hnone.2] at h ⊢
        exact ⟨_, rfl, ((Filled.nil image).isValidArea_iff h.count).mpr h⟩
      | inr hsome => omega

end Area

/-- One burst of three lines, the middle one invalid. -/
def gappedBurst : BurstElement ℚ where
  azimuthTime := 0
  firstValidSample := [5, -1, 5]
  lastValidSample := [10, -1, 10]

def smallImage : ImageInformation ℚ where
  numOfSamples := 20
  linesPerBurst := ⟨3, by decide⟩
  azimuthTimeInterval := 1

/-- Its last valid line is said to be line 1, which is invalid. -/
theorem validArea_gap : ¬ ∃ info, fillBurstList smallImage 1 [gappedBurst] = .ok info ∧
    IsValidArea smallImage [gappedBurst] info := by
  rintro ⟨info, hinfo, harea⟩
  have hline : info.lastValidLine = [1] := by
    have hrun : fillBurstList smallImage 1 [gappedBurst] =
        .ok ⟨[0], [2], [0], [1], [[5, -1, 5]], [[10, -1, 10]], [0], [1], 5, 10, 0, 1⟩ := by
      decide +kernel
    rw [hrun, Outcome.ok.injEq] at hinfo
    rw [← hinfo]
  obtain ⟨f, l, -, hl, -, hsome, -⟩ := harea.lines 0 gappedBurst rfl
  rw [hline] at hsome
  have hl1 : l = 1 := by simpa using hsome.symm
  have hmem : (2 : Nat) ∈ validLines gappedBurst.firstValidSample := by decide
  have := hl.2 hmem
  omega

end Alus.S1tbx.ValidArea
