import Mathlib.Data.Rat.Floor
import Alus.ThermalNoise.NoiseLoops

/-!
# The noise table and the tiling

The noise at a pixel is that of the last block with range vectors that contains it. A tile computes
it when its overlap with that block is more than one column and more than one row, and when the loop
over the lines of the overlap keeps pace with the times of the range vectors.
-/

namespace Alus.ThermalNoise

open Alus.Lib

variable {T : Type} [Field T] [LinearOrder T]

/-! ## The blocks of a pixel -/

def NoiseBlock.Contains (nav : NoiseBlock) (x y : Int) : Prop :=
  nav.firstRangeSample ≤ x ∧ x ≤ nav.lastRangeSample ∧
    nav.firstAzimuthLine ≤ y ∧ y ≤ nav.lastAzimuthLine

instance (nav : NoiseBlock) (x y : Int) : Decidable (nav.Contains x y) :=
  inferInstanceAs (Decidable (_ ∧ _ ∧ _ ∧ _))

/-- More than one column and more than one row. -/
def Overlap.Wide (o : Overlap) : Prop := o.nx0 < o.nxMax ∧ o.ny0 < o.nyMax

instance (o : Overlap) : Decidable o.Wide := inferInstanceAs (Decidable (_ ∧ _))

theorem mem_overlap {tile : Rectangle} {nav : NoiseBlock} {x y : Int} (h : tile.Contains x y) :
    (x ∈ intRange (overlap tile nav).nx0 ((overlap tile nav).nxMax + 1) ∧
      y ∈ intRange (overlap tile nav).ny0 ((overlap tile nav).nyMax + 1)) ↔
      nav.Contains x y := by
  simp only [mem_intRange, overlap, NoiseBlock.Contains, Rectangle.Contains] at h ⊢
  omega

/-- The metadata without the noise values: the areas of the blocks and the times. -/
structure NoiseGeometry (T : Type) [Field T] [LinearOrder T] where
  blocks : List NoiseBlock
  azimuthTimes : List T
  timeMaps : TimeMaps T
  ordered : azimuthTimes.Pairwise (· < ·)

def ThermalNoiseInfo.geometry (info : ThermalNoiseInfo T) : NoiseGeometry T where
  blocks := info.noiseAzimuthVectors.map (·.toNoiseBlock)
  azimuthTimes := info.noiseRangeVectors.map (·.timeMjd)
  timeMaps := info.timeMaps
  ordered := info.ordered

namespace NoiseGeometry

variable (g : NoiseGeometry T) (firstLineTime lineTimeInterval : T)

def indices (nav : NoiseBlock) : List Nat :=
  g.timeMaps.blockIndices firstLineTime lineTimeInterval g.azimuthTimes nav

/-- The times of the range vectors of a block. -/
def selectedTimes (nav : NoiseBlock) : List T :=
  (g.indices firstLineTime lineTimeInterval nav).filterMap (g.azimuthTimes[·]?)

/-- The block contains the pixel and has range vectors. -/
def Feeds (x y : Int) (nav : NoiseBlock) : Prop :=
  nav.Contains x y ∧ g.indices firstLineTime lineTimeInterval nav ≠ []

instance (x y : Int) (nav : NoiseBlock) :
    Decidable (g.Feeds firstLineTime lineTimeInterval x y nav) :=
  inferInstanceAs (Decidable (_ ∧ _))

/-- The last block of a pixel. -/
def decidingBlock (x y : Int) : Option NoiseBlock :=
  (g.blocks.filter fun nav => g.Feeds firstLineTime lineTimeInterval x y nav).getLast?

/-- Where a tile meets the deciding block of one of its pixels, the overlap is more than one column
and more than one row, and from no earlier line of the overlap to the pixel's does the time pass
more range vectors of the block than lines. -/
def TileMeetsBlocks (tile : Rectangle) : Prop :=
  ∀ firstLineTime lineTimeInterval,
    g.timeMaps.lineTimes = some (firstLineTime, lineTimeInterval) →
    ∀ x y, tile.Contains x y → ∀ nav,
      g.decidingBlock firstLineTime lineTimeInterval x y = some nav →
      (overlap tile nav).Wide ∧
        KeepsPace (g.selectedTimes firstLineTime lineTimeInterval nav)
          (overlapTime firstLineTime lineTimeInterval (overlap tile nav))
          (y - (overlap tile nav).ny0).toNat

end NoiseGeometry

/-! ## Selected range vectors -/

theorem closerVector_cases (blockCentreTime front back : T) (closest : Option (T × Nat))
    (v : T × Nat) :
    closerVector blockCentreTime front back closest v = closest ∨
      closerVector blockCentreTime front back closest v = some v := by
  unfold closerVector
  split
  · exact .inl rfl
  · split
    · exact .inr rfl
    · split
      · exact .inr rfl
      · exact .inl rfl

/-- The search finds one of the vectors it goes through, or keeps what it had. -/
theorem foldl_closerVector_mem {blockCentreTime front back : T} {l : List (T × Nat)}
    {acc : Option (T × Nat)} {w : T × Nat}
    (h : l.foldl (closerVector blockCentreTime front back) acc = some w) :
    w ∈ l ∨ acc = some w := by
  induction l generalizing acc with
  | nil => exact .inr h
  | cons v l ih =>
    rw [List.foldl_cons] at h
    rcases ih h with hl | hacc
    · exact .inl (List.mem_cons_of_mem v hl)
    · rcases closerVector_cases blockCentreTime front back acc v with hkeep | hnew
      · exact .inr (hkeep ▸ hacc)
      · rw [hnew] at hacc
        exact .inl (Option.some.inj hacc ▸ List.mem_cons_self)

theorem determineNoiseVectorIndices_sound (startAzTime endAzTime : T) (azimuthTimes : List T)
    (swathStartEndTimes : List T) :
    (determineNoiseVectorIndices startAzTime endAzTime azimuthTimes
      swathStartEndTimes).Pairwise (· < ·) ∧
    ∀ i ∈ determineNoiseVectorIndices startAzTime endAzTime azimuthTimes swathStartEndTimes,
      i < azimuthTimes.length := by
  have hlt : ∀ v ∈ azimuthTimes.zipIdx, v.2 < azimuthTimes.length := fun v hv =>
    (List.getElem?_eq_some_iff.mp (List.mem_zipIdx_iff_getElem?.mp hv)).1
  unfold determineNoiseVectorIndices
  dsimp only
  split
  · split
    next v hv =>
      refine ⟨List.pairwise_singleton _ _, fun i hi => ?_⟩
      rw [List.mem_singleton.mp hi]
      rcases foldl_closerVector_mem hv with hmem | hnone
      · exact hlt v hmem
      · cases hnone
    next => exact ⟨List.Pairwise.nil, fun i hi => (nomatch hi)⟩
  · constructor
    · refine List.Pairwise.sublist (List.Sublist.map _ (List.filter_sublist)) ?_
      rw [List.zipIdx_map_snd]
      exact List.pairwise_lt_range'
    · intro i hi
      obtain ⟨v, hv, rfl⟩ := List.mem_map.mp hi
      exact hlt v (List.mem_filter.mp hv).1

theorem NoiseGeometry.selectedTimes_ordered (g : NoiseGeometry T)
    (firstLineTime lineTimeInterval : T) (nav : NoiseBlock) :
    (g.selectedTimes firstLineTime lineTimeInterval nav).Pairwise (· < ·) := by
  refine List.Pairwise.filterMap _ (fun i j hij t ht t' ht' => ?_)
    (determineNoiseVectorIndices_sound _ _ _ _).1
  obtain ⟨hi, rfl⟩ := List.getElem?_eq_some_iff.mp ht
  obtain ⟨hj, rfl⟩ := List.getElem?_eq_some_iff.mp ht'
  exact List.pairwise_iff_getElem.mp g.ordered _ _ _ _ hij

namespace ThermalNoiseInfo

variable (info : ThermalNoiseInfo T) (firstLineTime lineTimeInterval : T)

/-- The range vectors of a block. -/
def selected (nav : NoiseBlock) : List (NoiseVector T) :=
  (info.geometry.indices firstLineTime lineTimeInterval nav).filterMap
    (info.noiseRangeVectors[·]?)

theorem selected_times (nav : NoiseBlock) :
    (info.selected firstLineTime lineTimeInterval nav).map (·.timeMjd) =
      info.geometry.selectedTimes firstLineTime lineTimeInterval nav := by
  rw [selected, NoiseGeometry.selectedTimes, List.map_filterMap]
  refine List.filterMap_congr fun i _ => ?_
  rw [geometry, List.getElem?_map]

theorem selected_ne_nil {nav : NoiseBlock}
    (h : info.geometry.indices firstLineTime lineTimeInterval nav ≠ []) :
    info.selected firstLineTime lineTimeInterval nav ≠ [] := by
  obtain ⟨i, hi⟩ := List.exists_mem_of_ne_nil _ h
  have hlt : i < (info.noiseRangeVectors.map (·.timeMjd)).length :=
    (determineNoiseVectorIndices_sound _ _ _ _).2 i hi
  rw [List.length_map] at hlt
  exact List.ne_nil_of_mem (List.mem_filterMap.mpr ⟨i, hi, List.getElem?_eq_getElem hlt⟩)

/-- The noise that a block gives a pixel. -/
def blockNoise (nav : NoiseAzimuthVector T) (x y : Int) : T :=
  let vectors := info.selected firstLineTime lineTimeInterval nav.toNoiseBlock
  nav.noise y * interpolant (vectors.map (·.timeMjd)) (vectors.map (·.noise x))
    (lineTime firstLineTime lineTimeInterval y)

/-- The last azimuth vector of a pixel. -/
def decidingVector (x y : Int) : Option (NoiseAzimuthVector T) :=
  (info.noiseAzimuthVectors.filter fun nav =>
    info.geometry.Feeds firstLineTime lineTimeInterval x y nav.toNoiseBlock).getLast?

/-- The noise at a pixel; there is none without the times of the lines. -/
def noiseAt (x y : Int) : Outcome T :=
  match info.timeMaps.lineTimes with
  | none => .throws
  | some (firstLineTime, lineTimeInterval) =>
    match info.decidingVector firstLineTime lineTimeInterval x y with
    | none => .ok 0
    | some nav => .ok (info.blockNoise firstLineTime lineTimeInterval nav x y)

theorem decidingVector_block (x y : Int) :
    (info.decidingVector firstLineTime lineTimeInterval x y).map (·.toNoiseBlock) =
      info.geometry.decidingBlock firstLineTime lineTimeInterval x y := by
  rw [NoiseGeometry.decidingBlock, decidingVector, ← List.getLast?_map]
  rw [geometry, List.filter_map]
  rfl

end ThermalNoiseInfo

/-! ## What a tile computes -/

section Tile

variable [IsStrictOrderedRing T] (info : ThermalNoiseInfo T) (tile : Rectangle)
  (firstLineTime lineTimeInterval : T)

/-- The value that the loops write for a block at a pixel of the tile. -/
def writtenNoise (nav : NoiseAzimuthVector T) (x y : Int) : T :=
  let vectors := info.selected firstLineTime lineTimeInterval nav.toNoiseBlock
  loopNoise (overlap tile nav.toNoiseBlock) firstLineTime lineTimeInterval
    (vectors.map (·.timeMjd)) (vectors.map (·.noise)) nav.noise x y

/-- The tile writes the block at the pixel. -/
def Writes (x y : Int) (nav : NoiseAzimuthVector T) : Prop :=
  (overlap tile nav.toNoiseBlock).Wide ∧
    info.geometry.Feeds firstLineTime lineTimeInterval x y nav.toNoiseBlock

instance (x y : Int) (nav : NoiseAzimuthVector T) :
    Decidable (Writes info tile firstLineTime lineTimeInterval x y nav) :=
  inferInstanceAs (Decidable (_ ∧ _))

theorem rangeProfile_eq {o : Overlap} {indices : List Nat}
    (h : ∀ i ∈ indices, i < info.noiseRangeVectors.length) :
    Outcome.collect (indices.map (rangeProfile info o)) =
      .ok ((indices.filterMap (info.noiseRangeVectors[·]?)).map fun nv =>
        (nv.timeMjd, (intRange o.nx0 (o.nxMax + 1)).map nv.noise)) := by
  rw [Outcome.collect_eq_ok]
  induction indices with
  | nil => rfl
  | cons i indices ih =>
    have hi := h i List.mem_cons_self
    have hprofile : rangeProfile info o i = .ok ((info.noiseRangeVectors[i]).timeMjd,
        (intRange o.nx0 (o.nxMax + 1)).map (info.noiseRangeVectors[i]).noise) := by
      rw [rangeProfile, vectorAt_natCast hi, Outcome.ok_bind, fillRangeNoise_eq]
      rfl
    rw [List.map_cons, hprofile, ih fun j hj => h j (List.mem_cons_of_mem i hj),
      List.filterMap_cons, List.getElem?_eq_getElem hi]
    rfl

/-- A block that is written: its loops return, and fill the overlap. -/
theorem addBlock_of_wide {nav : NoiseAzimuthVector T} (values : Int → Int → T)
    (hwide : (overlap tile nav.toNoiseBlock).Wide)
    (hindices : info.geometry.indices firstLineTime lineTimeInterval nav.toNoiseBlock ≠ []) :
    addBlock info tile firstLineTime lineTimeInterval values nav =
      .ok ((intRange (overlap tile nav.toNoiseBlock).nx0
          ((overlap tile nav.toNoiseBlock).nxMax + 1)).foldl (fun values x =>
        writeColumn tile (intRange (overlap tile nav.toNoiseBlock).ny0
          ((overlap tile nav.toNoiseBlock).nyMax + 1)) x
          (writtenNoise info tile firstLineTime lineTimeInterval nav x) values) values) := by
  have hguard : ¬ ((overlap tile nav.toNoiseBlock).nx0 ≥ (overlap tile nav.toNoiseBlock).nxMax ∨
      (overlap tile nav.toNoiseBlock).ny0 ≥ (overlap tile nav.toNoiseBlock).nyMax) := by
    unfold Overlap.Wide at hwide
    omega
  -- the indices depend on the times of the vectors only
  have hgeometry : info.timeMaps.blockIndices firstLineTime lineTimeInterval
      (info.noiseRangeVectors.map (·.timeMjd)) nav.toNoiseBlock =
        info.geometry.indices firstLineTime lineTimeInterval nav.toNoiseBlock := rfl
  have hvalid : ∀ i ∈ info.geometry.indices firstLineTime lineTimeInterval nav.toNoiseBlock,
      i < info.noiseRangeVectors.length := fun i hi => by
    have hlt : i < (info.noiseRangeVectors.map (·.timeMjd)).length :=
      (determineNoiseVectorIndices_sound _ _ _ _).2 i hi
    rwa [List.length_map] at hlt
  have hordered : ((info.selected firstLineTime lineTimeInterval nav.toNoiseBlock).map
      (·.timeMjd)).Pairwise (· < ·) := by
    rw [info.selected_times]
    exact info.geometry.selectedTimes_ordered _ _ _
  have hne : (info.selected firstLineTime lineTimeInterval nav.toNoiseBlock).map
      (·.timeMjd) ≠ [] := by
    rw [Ne, List.map_eq_nil_iff]
    exact info.selected_ne_nil _ _ hindices
  have hsizes : ((info.selected firstLineTime lineTimeInterval nav.toNoiseBlock).map
      NoiseVector.noise).length = ((info.selected firstLineTime lineTimeInterval
        nav.toNoiseBlock).map (·.timeMjd)).length := by
    rw [List.length_map, List.length_map]
  have hmatrix := computeNoiseMatrix_eq tile (overlap tile nav.toNoiseBlock) firstLineTime
    lineTimeInterval hordered hne hsizes nav.noise values
  unfold addBlock
  dsimp only
  rw [if_neg hguard, hgeometry, if_neg hindices, rangeProfile_eq info hvalid,
    fillAzimuthNoise_eq, Outcome.ok_bind, Outcome.ok_bind, List.map_map, List.map_map]
  rw [rangeTables, List.map_map] at hmatrix
  exact hmatrix

theorem addBlock_apply (values : Int → Int → T) (nav : NoiseAzimuthVector T) :
    ∃ values', addBlock info tile firstLineTime lineTimeInterval values nav = .ok values' ∧
      ∀ x y, tile.Contains x y → values' (y - tile.y) (x - tile.x) =
        if Writes info tile firstLineTime lineTimeInterval x y nav then
          writtenNoise info tile firstLineTime lineTimeInterval nav x y
        else values (y - tile.y) (x - tile.x) := by
  by_cases hwide : (overlap tile nav.toNoiseBlock).Wide
  · by_cases hindices : info.geometry.indices firstLineTime lineTimeInterval nav.toNoiseBlock = []
    · refine ⟨values, ?_, fun x y _ => (if_neg fun hw => hw.2.2 hindices).symm⟩
      unfold addBlock
      dsimp only
      split
      · rfl
      · exact if_pos hindices
    · refine ⟨_, addBlock_of_wide info tile _ _ values hwide hindices, fun x y hpix => ?_⟩
      rw [foldl_writeColumn_apply]
      refine if_congr ?_ rfl rfl
      rw [mem_overlap hpix]
      exact ⟨fun hin => ⟨hwide, hin, hindices⟩, fun hw => hw.2.1⟩
  · refine ⟨values, if_pos ?_, fun x y _ => (if_neg fun hw => hwide hw.1).symm⟩
    unfold Overlap.Wide at hwide
    omega

/-- The last element of a loop that overwrites. -/
theorem foldl_overwrite {α β : Type} (p : β → Prop) [DecidablePred p] (v : β → α) (a : α)
    (l : List β) :
    l.foldl (fun a b => if p b then v b else a) a =
      (((l.filter (p ·)).getLast?).map v).getD a := by
  induction l using List.reverseRecOn with
  | nil => rfl
  | append_singleton l b ih =>
    rw [List.foldl_append, List.foldl_cons, List.foldl_nil, List.filter_append]
    by_cases hb : p b
    · simp [hb]
    · simp [hb, ih]

theorem buildNoiseLut_apply
    (hmaps : info.timeMaps.lineTimes = some (firstLineTime, lineTimeInterval)) :
    ∃ values, buildNoiseLut tile info = .ok values ∧
      ∀ x y, tile.Contains x y → values (y - tile.y) (x - tile.x) =
        (((info.noiseAzimuthVectors.filter
          (Writes info tile firstLineTime lineTimeInterval x y ·)).getLast?).map
            fun nav => writtenNoise info tile firstLineTime lineTimeInterval nav x y).getD 0 := by
  have hloop : ∀ (navs : List (NoiseAzimuthVector T)) (values : Int → Int → T),
      ∃ values', navs.foldlM (addBlock info tile firstLineTime lineTimeInterval) values =
          .ok values' ∧
        ∀ x y, tile.Contains x y → values' (y - tile.y) (x - tile.x) =
          navs.foldl (fun a nav => if Writes info tile firstLineTime lineTimeInterval x y nav then
            writtenNoise info tile firstLineTime lineTimeInterval nav x y else a)
            (values (y - tile.y) (x - tile.x)) := by
    intro navs
    induction navs with
    | nil => exact fun values => ⟨values, rfl, fun _ _ _ => rfl⟩
    | cons nav navs ih =>
      intro values
      obtain ⟨values₁, hadd, happly⟩ :=
        addBlock_apply info tile firstLineTime lineTimeInterval values nav
      obtain ⟨values', hrest, hvalues⟩ := ih values₁
      refine ⟨values', ?_, fun x y hpix => ?_⟩
      · rw [List.foldlM_cons, hadd, Outcome.ok_bind, hrest]
      · rw [hvalues x y hpix, happly x y hpix, List.foldl_cons]
  obtain ⟨values, hok, hvalues⟩ := hloop info.noiseAzimuthVectors fun _ _ => 0
  refine ⟨values, ?_, fun x y hpix => ?_⟩
  · rw [buildNoiseLut, hmaps]
    exact hok
  · rw [hvalues x y hpix, foldl_overwrite]

end Tile

/-! ## The noise of a tile -/

/-- The noise at a pixel of a tile. -/
def tileNoise (info : ThermalNoiseInfo T) (tile : Rectangle) (x y : Int) : Outcome T := do
  let values ← buildNoiseLut tile info
  return values (y - tile.y) (x - tile.x)

section Tile

variable [IsStrictOrderedRing T] {info : ThermalNoiseInfo T} {tile : Rectangle}
  {firstLineTime lineTimeInterval : T} {x y : Int}

theorem tileNoise_of_lineTimes
    (hmaps : info.timeMaps.lineTimes = some (firstLineTime, lineTimeInterval))
    (hpix : tile.Contains x y) :
    tileNoise info tile x y =
      .ok ((((info.noiseAzimuthVectors.filter
        (Writes info tile firstLineTime lineTimeInterval x y ·)).getLast?).map
          fun nav => writtenNoise info tile firstLineTime lineTimeInterval nav x y).getD 0) := by
  obtain ⟨values, hok, hvalues⟩ :=
    buildNoiseLut_apply info tile firstLineTime lineTimeInterval hmaps
  rw [tileNoise, hok, Outcome.ok_bind, hvalues x y hpix]
  rfl

omit [IsStrictOrderedRing T] in
theorem lineTimeInterval_pos {maps : TimeMaps T}
    (h : maps.lineTimes = some (firstLineTime, lineTimeInterval)) : 0 < lineTimeInterval := by
  unfold TimeMaps.lineTimes at h
  split at h
  next t0 _ deltaT _ _ hdelta =>
    obtain ⟨_, rfl⟩ := Prod.mk.inj (Option.some.inj h)
    exact maps.advancing deltaT (hdelta ▸ List.mem_cons_self)
  next => cases h

theorem strictMono_overlapTime (firstLineTime : T) (h : 0 < lineTimeInterval) (o : Overlap) :
    StrictMono (overlapTime firstLineTime lineTimeInterval o) := fun j k hjk => by
  have hlines : ((o.ny0 + j : Int) : T) < ((o.ny0 + k : Int) : T) := by
    exact_mod_cast (show o.ny0 + (j : Int) < o.ny0 + k by omega)
  exact add_lt_add_right (mul_lt_mul_of_pos_left hlines h) firstLineTime

omit [LinearOrder T] [IsStrictOrderedRing T] in
theorem overlapTime_of_contains {nav : NoiseBlock} (hpix : tile.Contains x y)
    (hnav : nav.Contains x y) :
    overlapTime firstLineTime lineTimeInterval (overlap tile nav)
      (y - (overlap tile nav).ny0).toNat = lineTime firstLineTime lineTimeInterval y := by
  have hy := (mem_intRange.mp ((mem_overlap hpix).mpr hnav).2).1
  rw [overlapTime, show (overlap tile nav).ny0 + ((y - (overlap tile nav).ny0).toNat : Int) = y by
    omega]

/-- The loops write the noise of the block where they keep pace. -/
theorem writtenNoise_eq (hinterval : 0 < lineTimeInterval) {nav : NoiseAzimuthVector T}
    (hpix : tile.Contains x y) (hnav : nav.Contains x y)
    (hpace : KeepsPace (info.geometry.selectedTimes firstLineTime lineTimeInterval nav.toNoiseBlock)
      (overlapTime firstLineTime lineTimeInterval (overlap tile nav.toNoiseBlock))
      (y - (overlap tile nav.toNoiseBlock).ny0).toNat) :
    writtenNoise info tile firstLineTime lineTimeInterval nav x y =
      info.blockNoise firstLineTime lineTimeInterval nav x y := by
  have hloop := loopValue_eq
    (info.geometry.selectedTimes_ordered firstLineTime lineTimeInterval nav.toNoiseBlock)
    ((info.selected firstLineTime lineTimeInterval nav.toNoiseBlock).map (·.noise x))
    (strictMono_overlapTime firstLineTime hinterval _) hpace
  rw [overlapTime_of_contains hpix hnav, ← info.selected_times] at hloop
  rw [writtenNoise, ThermalNoiseInfo.blockNoise, loopNoise, List.map_map]
  exact congrArg _ hloop

omit [Field T] [LinearOrder T] [IsStrictOrderedRing T] in
/-- A last element that passes a second test is the last to pass both. -/
theorem getLast?_filter_of_imp {α : Type} {p q : α → Prop} [DecidablePred p] [DecidablePred q]
    {l : List α} {a : α} (himp : ∀ b, q b → p b) (h : (l.filter (p ·)).getLast? = some a)
    (hq : q a) : (l.filter (q ·)).getLast? = some a := by
  have hboth : l.filter (q ·) = (l.filter (p ·)).filter (q ·) := by
    rw [List.filter_filter]
    refine List.filter_congr fun b _ => ?_
    by_cases hb : q b
    · simp [hb, himp b hb]
    · simp [hb]
  obtain ⟨init, hinit⟩ := List.getLast?_eq_some_iff.mp h
  rw [hboth, hinit, List.filter_append, List.filter_cons_of_pos (by simpa using hq)]
  simp

omit [IsStrictOrderedRing T] in
/-- The tile writes the deciding vector of the pixel last, if at all. -/
theorem lastWritten_eq {nav : NoiseAzimuthVector T}
    (hlast : info.decidingVector firstLineTime lineTimeInterval x y = some nav)
    (hwide : (overlap tile nav.toNoiseBlock).Wide) :
    (info.noiseAzimuthVectors.filter
      (Writes info tile firstLineTime lineTimeInterval x y ·)).getLast? = some nav := by
  have hmem := (List.mem_filter.mp (List.mem_of_getLast? hlast)).2
  exact getLast?_filter_of_imp (fun b hb => hb.2) hlast ⟨hwide, of_decide_eq_true hmem⟩

theorem tileNoise_eq_noiseAt (h : info.geometry.TileMeetsBlocks tile)
    (hpix : tile.Contains x y) : tileNoise info tile x y = info.noiseAt x y := by
  cases hmaps : info.timeMaps.lineTimes with
  | none =>
    rw [ThermalNoiseInfo.noiseAt, hmaps, tileNoise, buildNoiseLut, hmaps]
    rfl
  | some times =>
    obtain ⟨firstLineTime, lineTimeInterval⟩ := times
    rw [tileNoise_of_lineTimes hmaps hpix, ThermalNoiseInfo.noiseAt, hmaps]
    dsimp only
    have hblock := info.decidingVector_block firstLineTime lineTimeInterval x y
    cases hlast : info.decidingVector firstLineTime lineTimeInterval x y with
    | none =>
      -- no block is written where none feeds the pixel
      have hnone : info.noiseAzimuthVectors.filter
          (Writes info tile firstLineTime lineTimeInterval x y ·) = [] := by
        rw [List.filter_eq_nil_iff]
        intro nav hnav hwrites
        have hempty := List.getLast?_eq_none_iff.mp hlast
        rw [List.filter_eq_nil_iff] at hempty
        exact hempty nav hnav (decide_eq_true (of_decide_eq_true hwrites).2)
      rw [hnone]
      rfl
    | some nav =>
      rw [hlast] at hblock
      obtain ⟨hwide, hpace⟩ := h _ _ hmaps x y hpix nav.toNoiseBlock hblock.symm
      have hfeeds := of_decide_eq_true (List.mem_filter.mp (List.mem_of_getLast? hlast)).2
      rw [lastWritten_eq hlast hwide]
      exact congrArg Outcome.ok (writtenNoise_eq (lineTimeInterval_pos hmaps) hpix hfeeds.1 hpace)

end Tile

/-! ## Noise values that tell the tiles apart -/

namespace NoiseGeometry

variable (g : NoiseGeometry T) (factor : NoiseBlock → T) (profile : T → T)

/-- One factor for every block and one range noise at every time. -/
def fill : ThermalNoiseInfo T where
  noiseAzimuthVectors := g.blocks.map fun nav =>
    ⟨nav, [0], [factor nav], List.pairwise_singleton _ _, rfl, List.cons_ne_nil _ _⟩
  noiseRangeVectors := g.azimuthTimes.map fun t =>
    ⟨t, [0], [profile t], List.pairwise_singleton _ _, rfl, List.cons_ne_nil _ _⟩
  timeMaps := g.timeMaps
  ordered := by
    rw [List.map_map]
    exact (List.map_id _).symm ▸ g.ordered

theorem geometry_fill : (g.fill factor profile).geometry = g := by
  simp [fill, ThermalNoiseInfo.geometry, Function.comp_def]

variable {g factor profile}

theorem noise_of_mem_fill {nav : NoiseAzimuthVector T}
    (h : nav ∈ (g.fill factor profile).noiseAzimuthVectors) (y : Int) :
    nav.noise y = factor nav.toNoiseBlock := by
  obtain ⟨b, _, rfl⟩ := List.mem_map.mp h
  exact interpolant_singleton _ _ _

variable (g factor profile) in
theorem selected_fill (firstLineTime lineTimeInterval : T) (nav : NoiseBlock) (x : Int) :
    ((g.fill factor profile).selected firstLineTime lineTimeInterval nav).map (·.noise x) =
      (g.selectedTimes firstLineTime lineTimeInterval nav).map profile := by
  have htimes := (g.fill factor profile).selected_times firstLineTime lineTimeInterval nav
  rw [geometry_fill] at htimes
  rw [← htimes, List.map_map]
  refine List.map_congr_left fun nv hnv => ?_
  obtain ⟨i, _, hi⟩ := List.mem_filterMap.mp hnv
  obtain ⟨t, _, rfl⟩ := List.mem_map.mp (List.mem_of_getElem? hi)
  exact interpolant_singleton _ _ _

end NoiseGeometry

/-! ## Tile independence -/

section Tilings

variable {g : NoiseGeometry T} {firstLineTime lineTimeInterval : T} {x y : Int} {b : NoiseBlock}

/-- The reference noise of a pixel, for noise values that are constant on each block and at each
time. -/
theorem exists_deciding_fill
    (hmaps : g.timeMaps.lineTimes = some (firstLineTime, lineTimeInterval))
    (hb : g.decidingBlock firstLineTime lineTimeInterval x y = some b) (factor : NoiseBlock → T)
    (profile : T → T) :
    ∃ nav : NoiseAzimuthVector T, nav.toNoiseBlock = b ∧ nav.noise y = factor b ∧
      (g.fill factor profile).decidingVector firstLineTime lineTimeInterval x y = some nav ∧
      (g.fill factor profile).noiseAt x y = .ok (factor b *
        interpolant (g.selectedTimes firstLineTime lineTimeInterval b)
          ((g.selectedTimes firstLineTime lineTimeInterval b).map profile)
          (lineTime firstLineTime lineTimeInterval y)) := by
  have hblock := (g.fill factor profile).decidingVector_block firstLineTime lineTimeInterval x y
  rw [NoiseGeometry.geometry_fill, hb] at hblock
  obtain ⟨nav, hnav, rfl⟩ := Option.map_eq_some_iff.mp hblock
  have hnoise := NoiseGeometry.noise_of_mem_fill
    (List.mem_filter.mp (List.mem_of_getLast? hnav)).1 y
  have hmaps' : (g.fill factor profile).timeMaps.lineTimes =
      some (firstLineTime, lineTimeInterval) := hmaps
  refine ⟨nav, rfl, hnoise, hnav, ?_⟩
  rw [ThermalNoiseInfo.noiseAt, hmaps']
  dsimp only
  rw [hnav]
  dsimp only
  rw [ThermalNoiseInfo.blockNoise, hnoise, ThermalNoiseInfo.selected_times,
    NoiseGeometry.geometry_fill, NoiseGeometry.selected_fill g factor profile]

theorem selectedTimes_ne_nil
    (hb : g.decidingBlock firstLineTime lineTimeInterval x y = some b) :
    g.selectedTimes firstLineTime lineTimeInterval b ≠ [] := by
  have hfeeds := of_decide_eq_true (List.mem_filter.mp (List.mem_of_getLast? hb)).2
  have hfill : (g.fill (fun _ => 0) fun _ => 0).geometry = g := NoiseGeometry.geometry_fill ..
  have hne := (g.fill (fun _ => 0) fun _ => 0).selected_ne_nil firstLineTime lineTimeInterval
    (by rw [hfill]; exact hfeeds.2)
  rw [← hfill, ← ThermalNoiseInfo.selected_times, Ne, List.map_eq_nil_iff]
  exact hne

variable [IsStrictOrderedRing T] {tile : Rectangle}

/-- A block that is skipped leaves a pixel it decides without its noise. -/
theorem wide_of_noise
    (h : ∀ info : ThermalNoiseInfo T, info.geometry = g →
      ∀ x y, tile.Contains x y → tileNoise info tile x y = info.noiseAt x y)
    (hmaps : g.timeMaps.lineTimes = some (firstLineTime, lineTimeInterval))
    (hpix : tile.Contains x y)
    (hb : g.decidingBlock firstLineTime lineTimeInterval x y = some b) :
    (overlap tile b).Wide := by
  by_contra hnarrow
  let factor : NoiseBlock → T := fun nav => if (overlap tile nav).Wide then 0 else 1
  obtain ⟨nav, _, _, _, hnoise⟩ := exists_deciding_fill hmaps hb factor fun _ => 1
  have hone : (g.fill factor fun _ => 1).noiseAt x y = .ok 1 := by
    rw [hnoise, interpolant_const (selectedTimes_ne_nil hb), mul_one]
    exact congrArg Outcome.ok (if_neg hnarrow)
  -- every block that the tile writes has the factor zero
  have hzero : tileNoise (g.fill factor fun _ => 1) tile x y = .ok 0 := by
    rw [tileNoise_of_lineTimes hmaps hpix]
    cases hlast : ((g.fill factor fun _ => 1).noiseAzimuthVectors.filter
        (Writes (g.fill factor fun _ => 1) tile firstLineTime lineTimeInterval x y ·)).getLast? with
    | none => rfl
    | some nav' =>
      obtain ⟨hmem, hwrites⟩ := List.mem_filter.mp (List.mem_of_getLast? hlast)
      have hfactor : nav'.noise y = 0 :=
        (NoiseGeometry.noise_of_mem_fill hmem y).trans (if_pos (of_decide_eq_true hwrites).1)
      show Outcome.ok (writtenNoise _ tile _ _ nav' x y) = .ok 0
      rw [writtenNoise, loopNoise, hfactor, zero_mul]
  have hsame := h _ (NoiseGeometry.geometry_fill g factor fun _ => 1) x y hpix
  rw [hzero, hone] at hsame
  exact zero_ne_one (Outcome.ok.inj hsame)

/-- A loop that falls behind reads another time segment than the pixel's. -/
theorem keepsPace_of_noise
    (h : ∀ info : ThermalNoiseInfo T, info.geometry = g →
      ∀ x y, tile.Contains x y → tileNoise info tile x y = info.noiseAt x y)
    (hmaps : g.timeMaps.lineTimes = some (firstLineTime, lineTimeInterval))
    (hpix : tile.Contains x y)
    (hb : g.decidingBlock firstLineTime lineTimeInterval x y = some b)
    (hwide : (overlap tile b).Wide) :
    KeepsPace (g.selectedTimes firstLineTime lineTimeInterval b)
      (overlapTime firstLineTime lineTimeInterval (overlap tile b))
      (y - (overlap tile b).ny0).toNat := by
  have hpos := strictMono_overlapTime firstLineTime (lineTimeInterval_pos hmaps) (overlap tile b)
  rw [← locates_cursor_iff hpos]
  by_contra hbehind
  -- a cursor that is behind reads the wrong segment, which a step function shows
  have hlag := cursor_lt_of_not_locates hpos hbehind
  have hordered := g.selectedTimes_ordered firstLineTime lineTimeInterval b
  set times := g.selectedTimes firstLineTime lineTimeInterval b with htimes
  set k := (y - (overlap tile b).ny0).toNat with hk
  set c := cursor times (overlapTime firstLineTime lineTimeInterval (overlap tile b)) k with hc
  obtain ⟨nav, rfl, hfactor, hlast, hnoise⟩ :=
    exists_deciding_fill hmaps hb (fun _ => 1) (stepAfter times (c + 1))
  have hfeeds := of_decide_eq_true (List.mem_filter.mp (List.mem_of_getLast? hb)).2
  have htime : overlapTime firstLineTime lineTimeInterval (overlap tile nav.toNoiseBlock) k =
      lineTime firstLineTime lineTimeInterval y := overlapTime_of_contains hpix hfeeds.1
  obtain ⟨hlen, _⟩ := (lt_knotsBelow hordered).mp hlag
  have hwritten : tileNoise (g.fill (fun _ => 1) (stepAfter times (c + 1))) tile x y =
      .ok (onSegment times (times.map (stepAfter times (c + 1))) c
        (lineTime firstLineTime lineTimeInterval y)) := by
    rw [tileNoise_of_lineTimes hmaps hpix, lastWritten_eq hlast hwide]
    show Outcome.ok (writtenNoise _ tile _ _ nav x y) = _
    rw [writtenNoise, loopNoise, hfactor, one_mul, ThermalNoiseInfo.selected_times,
      NoiseGeometry.geometry_fill, List.map_map]
    have hvalues := NoiseGeometry.selected_fill g (fun _ => 1) (stepAfter times (c + 1))
      firstLineTime lineTimeInterval nav.toNoiseBlock x
    have hmap : ((· x) ∘ NoiseVector.noise : NoiseVector T → T) = fun nv => nv.noise x := rfl
    rw [hmap, hvalues, ← htimes, ← hk, loopValue, if_neg (by omega), ← hc, htime]
  have hsame := h _ (NoiseGeometry.geometry_fill g (fun _ => 1) (stepAfter times (c + 1))) x y hpix
  rw [hwritten, hnoise, one_mul, ← htimes] at hsame
  rw [htime] at hlag
  exact onSegment_ne_interpolant hordered hlag (Outcome.ok.inj hsame)

theorem tileMeetsBlocks_iff :
    g.TileMeetsBlocks tile ↔ ∀ info : ThermalNoiseInfo T, info.geometry = g →
      ∀ x y, tile.Contains x y → tileNoise info tile x y = info.noiseAt x y := by
  constructor
  · rintro h info rfl x y hpix
    exact tileNoise_eq_noiseAt h hpix
  · intro h firstLineTime lineTimeInterval hmaps x y hpix b hb
    have hwide := wide_of_noise h hmaps hpix hb
    exact ⟨hwide, keepsPace_of_noise h hmaps hpix hb hwide⟩

/-- The band computed in two tilings: each pixel has the same noise in both, namely its own. -/
def SameNoise (info : ThermalNoiseInfo T) (width height : Int) (tiles tiles' : List Rectangle) :
    Prop :=
  ∀ x y, 0 ≤ x → x < width → 0 ≤ y → y < height →
    image (tileNoise info) (fun _ _ => .ok 0) tiles x y =
        image (tileNoise info) (fun _ _ => .ok 0) tiles' x y ∧
      image (tileNoise info) (fun _ _ => .ok 0) tiles x y = info.noiseAt x y

omit [IsStrictOrderedRing T] in
theorem image_eq_noiseAt_iff {info : ThermalNoiseInfo T} {width height : Int}
    {tiles : List Rectangle} (hp : IsPartition width height tiles) :
    (∀ x y, 0 ≤ x → x < width → 0 ≤ y → y < height →
      image (tileNoise info) (fun _ _ => .ok 0) tiles x y = info.noiseAt x y) ↔
    ∀ t ∈ tiles, ∀ x y, t.Contains x y → tileNoise info t x y = info.noiseAt x y := by
  constructor
  · intro h t ht x y hpix
    have hinside := hp.inside t ht
    simp only [Rectangle.Inside, Rectangle.Contains] at hinside hpix
    rw [← h x y (by omega) (by omega) (by omega) (by omega)]
    exact (image_of_contains _ hp.disjoint ht hpix).symm
  · intro h x y hx hx' hy hy'
    obtain ⟨t, ht, hpix⟩ := hp.covers x y hx hx' hy hy'
    rw [image_of_contains _ hp.disjoint ht hpix]
    exact h t ht x y hpix

/-- **When the noise does not depend on the tiling**: for all noise values over these blocks and
times, two tilings of the band give the same noise, that of the last block of each pixel, exactly
when every tile of both meets its blocks in more than a column and more than a row and keeps pace
with the range vectors. -/
theorem sameNoise_iff {width height : Int} {tiles tiles' : List Rectangle}
    (hp : IsPartition width height tiles) (hp' : IsPartition width height tiles') :
    (∀ info : ThermalNoiseInfo T, info.geometry = g → SameNoise info width height tiles tiles') ↔
      (∀ t ∈ tiles, g.TileMeetsBlocks t) ∧ ∀ t ∈ tiles', g.TileMeetsBlocks t := by
  constructor
  · intro h
    constructor
    · intro t ht
      refine tileMeetsBlocks_iff.mpr fun info hinfo => ?_
      refine (image_eq_noiseAt_iff hp).mp (fun x y hx hx' hy hy' => ?_) t ht
      exact (h info hinfo x y hx hx' hy hy').2
    · intro t ht
      refine tileMeetsBlocks_iff.mpr fun info hinfo => ?_
      refine (image_eq_noiseAt_iff hp').mp (fun x y hx hx' hy hy' => ?_) t ht
      obtain ⟨hsame, hnoise⟩ := h info hinfo x y hx hx' hy hy'
      rw [← hsame, hnoise]
  · rintro ⟨h, h'⟩ info hinfo x y hx hx' hy hy'
    have hfirst := (image_eq_noiseAt_iff hp).mpr
      (fun t ht => tileMeetsBlocks_iff.mp (h t ht) info hinfo) x y hx hx' hy hy'
    have hsecond := (image_eq_noiseAt_iff hp').mpr
      (fun t ht => tileMeetsBlocks_iff.mp (h' t ht) info hinfo) x y hx hx' hy hy'
    exact ⟨hfirst.trans hsecond.symm, hfirst⟩

end Tilings

/-! ## The tiles of the band -/

section Tiles

variable {tileWidth tileHeight xMax yMax : Int}

theorem mem_calculateTiles {t : Rectangle} :
    t ∈ calculateTiles tileWidth tileHeight xMax yMax ↔
      ∃ yIndex ∈ intRange 0 (yMax.tdiv tileHeight + 1),
        ∃ xIndex ∈ intRange 0 (xMax.tdiv tileWidth + 1),
          xIndex * tileWidth ≤ xMax ∧ yIndex * tileHeight ≤ yMax ∧
          t = getIntersection ⟨xIndex * tileWidth, yIndex * tileHeight, tileWidth, tileHeight⟩
            ⟨0, 0, xMax, yMax⟩ ∧ t.width ≠ 0 ∧ t.height ≠ 0 := by
  simp only [calculateTiles, List.mem_flatMap, List.mem_filterMap]
  refine exists_congr fun yIndex => and_congr_right fun _ => exists_congr fun xIndex =>
    and_congr_right fun _ => ?_
  split
  next hout =>
    refine ⟨fun h => (nomatch h), fun h => ?_⟩
    omega
  next hin =>
    split
    next hne =>
      constructor
      · intro h
        cases h
        exact ⟨by omega, by omega, rfl, hne⟩
      · rintro ⟨_, _, rfl, _⟩
        rfl
    next hempty =>
      refine ⟨fun h => (nomatch h), fun h => ?_⟩
      obtain ⟨_, _, rfl, hne⟩ := h
      exact absurd hne hempty

/-- A tile of the band lies in its cell of the grid. -/
theorem cell_of_contains {a size z : Int} (limit : Int) (h : a * size ≤ z)
    (h' : z < min (a * size + size) limit) (hsize : 0 < size) : z / size = a := by
  have hdiv := (Int.ediv_emod_unique hsize (r := z - a * size) (q := a) (a := z)).mpr
    ⟨by rw [Int.mul_comm size a]; omega, by omega, by omega⟩
  exact hdiv.1

theorem intersection_contains {xIndex yIndex x y : Int} (hw : 0 < tileWidth) (hh : 0 < tileHeight)
    (h : (getIntersection ⟨xIndex * tileWidth, yIndex * tileHeight, tileWidth, tileHeight⟩
      ⟨0, 0, xMax, yMax⟩).Contains x y) : x / tileWidth = xIndex ∧ y / tileHeight = yIndex := by
  simp only [getIntersection, Rectangle.Contains] at h
  exact ⟨cell_of_contains (0 + xMax) (by omega) (by omega) hw,
    cell_of_contains (0 + yMax) (by omega) (by omega) hh⟩

/-- The grid index of a pixel of the band. -/
theorem gridIndex_bounds {size limit z : Int} (hsize : 0 < size) (h0 : 0 ≤ z) (hlt : z < limit) :
    z / size ∈ intRange 0 (limit.tdiv size + 1) ∧ z / size * size ≤ z ∧
      z < z / size * size + size := by
  have hmono : z / size ≤ limit / size := Int.ediv_le_ediv hsize hlt.le
  have hpos : 0 ≤ z / size := Int.ediv_nonneg h0 hsize.le
  rw [Int.tdiv_eq_ediv_of_nonneg (by omega)]
  refine ⟨mem_intRange.mpr ⟨hpos, by omega⟩, Int.ediv_mul_le z hsize.ne', ?_⟩
  have hlt := Int.lt_ediv_add_one_mul_self z hsize
  rwa [Int.add_mul, Int.one_mul] at hlt

/-- The tiles of the program are a tiling of the band. -/
theorem isPartition_calculateTiles (hw : 0 < tileWidth) (hh : 0 < tileHeight) :
    IsPartition xMax yMax (calculateTiles tileWidth tileHeight xMax yMax) := by
  refine ⟨fun t ht => ?_, ?_, fun x y hx hx' hy hy' => ?_⟩
  · obtain ⟨yIndex, hyIndex, xIndex, hxIndex, hxle, hyle, rfl, hwidth, hheight⟩ :=
      mem_calculateTiles.mp ht
    have hx0 : 0 ≤ xIndex * tileWidth := Int.mul_nonneg (mem_intRange.mp hxIndex).1 hw.le
    have hy0 : 0 ≤ yIndex * tileHeight := Int.mul_nonneg (mem_intRange.mp hyIndex).1 hh.le
    simp only [getIntersection, Rectangle.Inside] at hwidth hheight ⊢
    omega
  -- two tiles of the grid differ in a row or a column index
  · rw [calculateTiles, List.pairwise_flatMap]
    refine ⟨fun yIndex _ => ?_, ?_⟩
    · refine List.Pairwise.filterMap _ (fun i j hij t ht t' ht' x y hpix hpix' => ?_)
        (nodup_intRange _ _)
      dsimp only at ht ht'
      split at ht <;> split at ht' <;> try contradiction
      split at ht <;> split at ht' <;> try contradiction
      cases ht
      cases ht'
      exact hij ((intersection_contains hw hh hpix).1.symm.trans
        (intersection_contains hw hh hpix').1)
    · refine (nodup_intRange _ _).imp fun {i j} hij t ht t' ht' x y hpix hpix' => ?_
      obtain ⟨xIndex, _, ht⟩ := List.mem_filterMap.mp ht
      obtain ⟨xIndex', _, ht'⟩ := List.mem_filterMap.mp ht'
      dsimp only at ht ht'
      split at ht <;> split at ht' <;> try contradiction
      split at ht <;> split at ht' <;> try contradiction
      cases ht
      cases ht'
      exact hij ((intersection_contains hw hh hpix).2.symm.trans
        (intersection_contains hw hh hpix').2)
  -- the tile of a pixel is found by division
  · obtain ⟨hxIndex, hxlow, hxhigh⟩ := gridIndex_bounds hw hx hx'
    obtain ⟨hyIndex, hylow, hyhigh⟩ := gridIndex_bounds hh hy hy'
    have hx0 : 0 ≤ x / tileWidth * tileWidth := Int.mul_nonneg (mem_intRange.mp hxIndex).1 hw.le
    have hy0 : 0 ≤ y / tileHeight * tileHeight := Int.mul_nonneg (mem_intRange.mp hyIndex).1 hh.le
    refine ⟨_, mem_calculateTiles.mpr
      ⟨_, hyIndex, _, hxIndex, by omega, by omega, rfl, ?_, ?_⟩, ?_⟩
    · simp only [getIntersection]
      omega
    · simp only [getIntersection]
      omega
    · simp only [getIntersection, Rectangle.Contains]
      omega

end Tiles

/-! ## A block that reaches one column of a tile -/

section OneColumn

/-- A raster of three columns and two rows in one block, with all noise values one. -/
def oneColumnInfo : ThermalNoiseInfo ℚ where
  noiseAzimuthVectors := [⟨⟨"IW1", 0, 0, 1, 2⟩, [0], [1], by decide, rfl, by decide⟩]
  noiseRangeVectors := [⟨0, [0], [1], by decide, rfl, by decide⟩]
  timeMaps := ⟨[("iw", 0)], [("iw", 1)], [], by simp⟩
  ordered := by simp

/-- Tiles of two columns leave the last column to a tile of its own, where the block is skipped. -/
theorem not_sameNoise_oneColumn :
    ¬ ∀ tiles tiles', IsPartition 3 2 tiles → IsPartition 3 2 tiles' →
      SameNoise oneColumnInfo 3 2 tiles tiles' := by
  intro h
  have htwo : IsPartition 3 2 (calculateTiles 2 2 3 2) :=
    isPartition_calculateTiles (by decide) (by decide)
  have hone : IsPartition 3 2 (calculateTiles 3 2 3 2) :=
    isPartition_calculateTiles (by decide) (by decide)
  obtain ⟨hsame, _⟩ := h _ _ htwo hone 2 0 (by decide) (by decide) (by decide) (by decide)
  have hskipped : image (tileNoise oneColumnInfo) (fun _ _ => .ok 0) (calculateTiles 2 2 3 2) 2 0 =
      .ok 0 := by
    decide +kernel
  have hfilled : image (tileNoise oneColumnInfo) (fun _ _ => .ok 0) (calculateTiles 3 2 3 2) 2 0 =
      .ok 1 := by
    decide +kernel
  rw [hskipped, hfilled] at hsame
  exact absurd (Outcome.ok.inj hsame) (by decide)

/-- One tile of all three columns. -/
theorem sameNoise_oneColumn :
    (∀ info : ThermalNoiseInfo ℚ, info.geometry = oneColumnInfo.geometry →
      SameNoise info 3 2 (calculateTiles 3 2 3 2) (calculateTiles 3 2 3 2)) ↔
    (∀ t ∈ calculateTiles 3 2 3 2, oneColumnInfo.geometry.TileMeetsBlocks t) ∧
      ∀ t ∈ calculateTiles 3 2 3 2, oneColumnInfo.geometry.TileMeetsBlocks t :=
  sameNoise_iff (isPartition_calculateTiles (by decide) (by decide))
    (isPartition_calculateTiles (by decide) (by decide))

end OneColumn

end Alus.ThermalNoise
