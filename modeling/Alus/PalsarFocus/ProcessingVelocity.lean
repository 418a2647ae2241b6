import Mathlib.Algebra.Field.Basic
import Mathlib.Data.List.Chain
import Mathlib.Data.Rat.Cast.OfScientific
import Mathlib.Data.Rat.Sqrt
import Mathlib.Order.Defs.LinearOrder
import Alus.Lib.Loop
import Alus.Lib.Numerals

/-!
# The orbit position closest to the scene

`EstimateProcessingVelocity` (`palsar-focus/src/processing_velocity_estimate.cc`) looks for the
azimuth index at which the orbit is closest to the scene centre. One loop goes up from the index of
the centre and one down, and each stops where the distance no longer falls. The fit that follows
is anchored at the orbit position that the loops leave.

The numbers are those of a field with an order, and the functions of the mathematical library are
parameters.
-/

namespace Alus.PalsarFocus

open Alus.Lib

/-! ## Data -/

structure OrbitInfo (R : Type) where
  timePoint : R
  xPos : R
  yPos : R
  zPos : R
  xVel : R
  yVel : R
  zVel : R
  deriving DecidableEq, Repr

/-- The functions of the mathematical library. -/
structure Libm (R : Type) where
  sqrt : R → R
  sin : R → R
  cos : R → R
  pi : R

/-- `SARMetadata`, as far as the search reads it. The times are in microseconds. -/
structure SceneMetadata (R : Type) where
  pulseRepetitionFrequency : R
  centerTime : Int
  firstOrbitTime : Int
  azimuthSize : Nat
  centerLat : R
  centerLon : R
  orbitStateVectors : List (OrbitInfo R)

section Search

variable {R : Type} [Field R]

/-- `OrbitInfo r = {}`. -/
def OrbitInfo.zero : OrbitInfo R := ⟨0, 0, 0, 0, 0, 0, 0⟩

/-- The weight of the `i`th state vector. -/
def lagrangeMult (osv : List (OrbitInfo R)) (timePoint : R) (i : Nat) : R :=
  (List.range osv.length).foldl (fun mult j =>
    if i = j then mult
    else mult * ((timePoint - (osv.getD j .zero).timePoint) /
      ((osv.getD i .zero).timePoint - (osv.getD j .zero).timePoint))) 1

def interpolateOrbit (osv : List (OrbitInfo R)) (timePoint : R) : OrbitInfo R :=
  (List.range osv.length).foldl (fun r i =>
    let mult := lagrangeMult osv timePoint i
    let v := osv.getD i .zero
    { r with
      xPos := r.xPos + mult * v.xPos
      yPos := r.yPos + mult * v.yPos
      zPos := r.zPos + mult * v.zPos
      xVel := r.xVel + mult * v.xVel
      yVel := r.yVel + mult * v.yVel
      zVel := r.zVel + mult * v.zVel }) { OrbitInfo.zero with timePoint }

namespace Wgs84

/-- `WGS84::A`. -/
def a : R := 6378137.0

def b : R := 6356752.3142451794975639665996337

def flatEarthCoef : R := 1.0 / ((a - b) / a)

def e2 : R := 2.0 / flatEarthCoef - 1.0 / (flatEarthCoef * flatEarthCoef)

end Wgs84

variable (libm : Libm R)

def geo2xyzWgs84 (latitude longitude altitude : R) : R × R × R :=
  let dtor := libm.pi / 180
  let lat := latitude * dtor
  let lon := longitude * dtor
  let sinLat := libm.sin lat
  let n := Wgs84.a / libm.sqrt (1 - Wgs84.e2 * sinLat * sinLat)
  let nCosLat := (n + altitude) * libm.cos lat
  (nCosLat * libm.cos lon, nCosLat * libm.sin lon, (n + altitude - Wgs84.e2 * n) * sinLat)

def calcDistance (pos : OrbitInfo R) (p : R × R × R) : R :=
  let dx := pos.xPos - p.1
  let dy := pos.yPos - p.2.1
  let dz := pos.zPos - p.2.2
  libm.sqrt (dx * dx + dy * dy + dz * dz)

namespace SceneMetadata

variable (metadata : SceneMetadata R)

def pri : R := 1 / metadata.pulseRepetitionFrequency

/-- `total_milliseconds` drops the microseconds. -/
def centerTimePoint : R :=
  ((metadata.centerTime - metadata.firstOrbitTime).tdiv 1000 : Int) / 1000

def centerAzIdx : Nat := metadata.azimuthSize / 2

def idxTime (i : Nat) : R :=
  metadata.centerTimePoint + ((i : Int) - (metadata.centerAzIdx : Int) : Int) * metadata.pri

/-- The orbit at an azimuth index. -/
def posAt (i : Nat) : OrbitInfo R :=
  interpolateOrbit metadata.orbitStateVectors (metadata.idxTime i)

/-- Its distance to the scene centre. -/
def distAt (i : Nat) : R :=
  calcDistance libm (metadata.posAt i)
    (geo2xyzWgs84 libm metadata.centerLat metadata.centerLon 0)

end SceneMetadata

/-- What the loops share. -/
structure Closest (R : Type) where
  min : R
  minIdx : Nat
  minPos : OrbitInfo R
  deriving DecidableEq, Repr

variable [LinearOrder R] (metadata : SceneMetadata R)

/-- The body of both loops. -/
def closestStep (st : Closest R) (i : Nat) : Option (Closest R) :=
  let pos := metadata.posAt i
  let newDist := metadata.distAt libm i
  if newDist < st.min then some ⟨newDist, i, pos⟩ else none

/-- The state before the first loop. -/
def closestInit : Closest R :=
  let midPoint := interpolateOrbit metadata.orbitStateVectors metadata.centerTimePoint
  let p := geo2xyzWgs84 libm metadata.centerLat metadata.centerLon 0
  ⟨calcDistance libm midPoint p, metadata.centerAzIdx, .zero⟩

/-- The two search loops of `EstimateProcessingVelocity`. -/
def searchClosest : Closest R :=
  let c := metadata.centerAzIdx
  let up := foldlBreak (closestStep libm metadata) (closestInit libm metadata)
    (List.range' (c + 1) (metadata.azimuthSize - (c + 1)))
  foldlBreak (closestStep libm metadata) up (List.range' 1 (c - 1)).reverse

/-- The state belongs to the azimuth index that is closest to the scene. -/
structure AnchoredAtClosest (st : Closest R) : Prop where
  index : 1 ≤ st.minIdx ∧ st.minIdx < metadata.azimuthSize
  smallest : ∀ i, 1 ≤ i → i < metadata.azimuthSize →
    metadata.distAt libm st.minIdx ≤ metadata.distAt libm i
  position : st.minPos = metadata.posAt st.minIdx

end Search

/-! ## Falling and rising -/

section FallsThenRises

variable {R : Type} [LinearOrder R]

/-- On the indices from 1 to `n - 1`, the values fall strictly to those of `k` to `l`, which may be
one index, and rise strictly from there. -/
structure FallsThenRises (d : Nat → R) (n k l : Nat) : Prop where
  bounds : 1 ≤ k ∧ k ≤ l ∧ l < n
  falls : ∀ i, 1 ≤ i → i < k → d (i + 1) < d i
  level : ∀ i, k ≤ i → i < l → d (i + 1) = d i
  rises : ∀ i, l ≤ i → i + 1 < n → d i < d (i + 1)

variable {d : Nat → R} {n k l i : Nat}

theorem FallsThenRises.level_eq (h : FallsThenRises d n k l) (hki : k ≤ i) (hil : i ≤ l) :
    d i = d k := by
  induction i, hki using Nat.le_induction with
  | base => rfl
  | succ i hki ih => rw [h.level i hki hil, ih (by omega)]

theorem FallsThenRises.le_of_le (h : FallsThenRises d n k l) (h1 : 1 ≤ i) (hik : i ≤ k) :
    d k ≤ d i := by
  induction hik using Nat.decreasingInduction with
  | self => exact le_refl _
  | of_succ i hik ih => exact (ih (by omega)).trans (h.falls i h1 hik).le

theorem FallsThenRises.le_of_ge (h : FallsThenRises d n k l) (hli : l ≤ i) (hin : i < n) :
    d l ≤ d i := by
  induction i, hli using Nat.le_induction with
  | base => exact le_refl _
  | succ i hli ih => exact (ih (by omega)).trans (h.rises i hli hin).le

/-- The level part is the lowest. -/
theorem FallsThenRises.smallest (h : FallsThenRises d n k l) {j : Nat} (hkj : k ≤ j) (hjl : j ≤ l)
    (h1 : 1 ≤ i) (hin : i < n) : d j ≤ d i := by
  rw [h.level_eq hkj hjl]
  rcases le_total i k with hik | hki
  · exact h.le_of_le h1 hik
  · rcases le_total i l with hil | hli
    · exact (h.level_eq hki hil).ge
    · rw [← h.level_eq (hkj.trans hjl) (le_refl l)]
      exact h.le_of_ge hli hin

end FallsThenRises

/-! ## The loops -/

section Loops

variable {R : Type} [Field R] [LinearOrder R] {libm : Libm R} {metadata : SceneMetadata R}

omit [LinearOrder R] in
theorem posAt_centerAzIdx : metadata.posAt metadata.centerAzIdx =
    interpolateOrbit metadata.orbitStateVectors metadata.centerTimePoint := by
  rw [SceneMetadata.posAt, SceneMetadata.idxTime, sub_self, Int.cast_zero, zero_mul, add_zero]

omit [LinearOrder R] in
theorem closestInit_eq : closestInit libm metadata =
    ⟨metadata.distAt libm metadata.centerAzIdx, metadata.centerAzIdx, .zero⟩ := by
  rw [closestInit, SceneMetadata.distAt, posAt_centerAzIdx]

/-- Index, distance and position stay in step while the distance falls. -/
theorem foldlM_closestStep {g : Nat → Nat} {steps : Nat} {pos : OrbitInfo R}
    (hfalls : ∀ t < steps,
      metadata.distAt libm (g (t + 1)) < metadata.distAt libm (g t)) :
    ((List.range steps).map fun t => g (t + 1)).foldlM (closestStep libm metadata)
        ⟨metadata.distAt libm (g 0), g 0, pos⟩ =
      some ⟨metadata.distAt libm (g steps), g steps,
        if steps = 0 then pos else metadata.posAt (g steps)⟩ := by
  induction steps with
  | zero => rfl
  | succ steps ih =>
    rw [List.range_succ, List.map_append, List.foldlM_append,
      ih fun t ht => hfalls t (Nat.lt_succ_of_lt ht)]
    have hlast := hfalls steps (Nat.lt_succ_self steps)
    rw [Option.bind_eq_bind, Option.bind_some, List.map_singleton, List.foldlM_cons, closestStep,
      if_pos hlast, if_neg (Nat.succ_ne_zero steps)]
    rfl

variable (libm metadata) in
/-- One loop, along the indices `g`: it goes on while the distance falls. -/
theorem foldlBreak_closestStep (g : Nat → Nat) {steps total : Nat} (pos : OrbitInfo R)
    (hle : steps ≤ total)
    (hfalls : ∀ t < steps, metadata.distAt libm (g (t + 1)) < metadata.distAt libm (g t))
    (hstop : steps < total →
      metadata.distAt libm (g steps) ≤ metadata.distAt libm (g (steps + 1))) :
    foldlBreak (closestStep libm metadata) ⟨metadata.distAt libm (g 0), g 0, pos⟩
        ((List.range total).map fun t => g (t + 1)) =
      ⟨metadata.distAt libm (g steps), g steps,
        if steps = 0 then pos else metadata.posAt (g steps)⟩ := by
  obtain ⟨rest, rfl⟩ := Nat.exists_eq_add_of_le hle
  rw [List.range_add, List.map_append, foldlBreak_append (foldlM_closestStep hfalls)]
  refine foldlBreak_of_break fun i hi => ?_
  cases rest with
  | zero => simp at hi
  | succ rest =>
    rw [List.range_succ_eq_map] at hi
    simp only [List.map_cons, List.head?_cons, Option.mem_def, Option.some.injEq, add_zero] at hi
    subst hi
    exact if_neg (not_lt.mpr (hstop (by omega)))

theorem searchUp {j : Nat} {pos : OrbitInfo R} (hcj : metadata.centerAzIdx ≤ j)
    (hjn : j < metadata.azimuthSize)
    (hfalls : ∀ i, metadata.centerAzIdx ≤ i → i < j →
      metadata.distAt libm (i + 1) < metadata.distAt libm i)
    (hstop : j + 1 < metadata.azimuthSize →
      metadata.distAt libm j ≤ metadata.distAt libm (j + 1)) :
    foldlBreak (closestStep libm metadata)
        ⟨metadata.distAt libm metadata.centerAzIdx, metadata.centerAzIdx, pos⟩
        (List.range' (metadata.centerAzIdx + 1)
          (metadata.azimuthSize - (metadata.centerAzIdx + 1))) =
      ⟨metadata.distAt libm j, j,
        if j = metadata.centerAzIdx then pos else metadata.posAt j⟩ := by
  obtain ⟨steps, rfl⟩ := Nat.exists_eq_add_of_le hcj
  have hindices : ∀ n c : Nat, List.range' (c + 1) n =
      (List.range n).map fun t => c + (t + 1) := by
    intro n c
    rw [List.range'_eq_map_range]
    exact List.map_congr_left fun t _ => by rw [Nat.add_assoc, Nat.add_comm 1]
  have hloop := foldlBreak_closestStep libm metadata (metadata.centerAzIdx + ·) pos
    (show steps ≤ metadata.azimuthSize - (metadata.centerAzIdx + 1) by omega)
    (fun t ht => hfalls _ (Nat.le_add_right _ t) (Nat.add_lt_add_left ht _))
    (fun ht => hstop (by omega))
  rw [hindices]
  refine hloop.trans ?_
  simp only [Nat.add_eq_left]

theorem searchDown {j : Nat} {pos : OrbitInfo R} (hjc : j ≤ metadata.centerAzIdx) (hj : 1 ≤ j)
    (hfalls : ∀ i, j ≤ i → i < metadata.centerAzIdx →
      metadata.distAt libm i < metadata.distAt libm (i + 1))
    (hstop : 1 < j → metadata.distAt libm j ≤ metadata.distAt libm (j - 1)) :
    foldlBreak (closestStep libm metadata)
        ⟨metadata.distAt libm metadata.centerAzIdx, metadata.centerAzIdx, pos⟩
        (List.range' 1 (metadata.centerAzIdx - 1)).reverse =
      ⟨metadata.distAt libm j, j,
        if j = metadata.centerAzIdx then pos else metadata.posAt j⟩ := by
  have hindices : ∀ c : Nat, (List.range' 1 (c - 1)).reverse =
      (List.range (c - 1)).map fun t => c - (t + 1) := by
    intro c
    rw [List.reverse_range']
    exact List.map_congr_left fun t ht => by
      rw [List.mem_range] at ht
      omega
  have hlast : metadata.centerAzIdx - (metadata.centerAzIdx - j) = j := by omega
  have hloop := foldlBreak_closestStep libm metadata (metadata.centerAzIdx - ·) pos
    (show metadata.centerAzIdx - j ≤ metadata.centerAzIdx - 1 by omega)
    (fun t ht => ?_) (fun ht => ?_)
  · rw [hindices]
    refine hloop.trans ?_
    simp only [hlast]
    by_cases h : j = metadata.centerAzIdx
    · rw [if_pos h, if_pos (by omega)]
    · rw [if_neg h, if_neg (by omega)]
  · have hfall := hfalls (metadata.centerAzIdx - (t + 1)) (by omega) (by omega)
    rwa [show metadata.centerAzIdx - (t + 1) + 1 = metadata.centerAzIdx - t by omega] at hfall
  · rw [hlast, show metadata.centerAzIdx - (metadata.centerAzIdx - j + 1) = j - 1 by omega]
    exact hstop (by omega)

/-- The loops end in the level part, and remember the position unless they never moved. -/
theorem searchClosest_eq {k l : Nat}
    (h : FallsThenRises (metadata.distAt libm) metadata.azimuthSize k l) :
    ∃ j, (k ≤ j ∧ j ≤ l) ∧ (j ≠ metadata.centerAzIdx →
        metadata.distAt libm j < metadata.distAt libm metadata.centerAzIdx) ∧
      searchClosest libm metadata = ⟨metadata.distAt libm j, j,
        if j = metadata.centerAzIdx then .zero else metadata.posAt j⟩ := by
  obtain ⟨hk, hkl, hln⟩ := h.bounds
  have hc : metadata.centerAzIdx = metadata.azimuthSize / 2 := rfl
  rw [searchClosest, closestInit_eq]
  by_cases hck : metadata.centerAzIdx < k
  -- the first loop goes up to `k`, and the second stops at once
  · have hlow : metadata.distAt libm k < metadata.distAt libm metadata.centerAzIdx :=
      (h.smallest (le_refl k) hkl (by omega) (by omega)).trans_lt
        (h.falls metadata.centerAzIdx (by omega) hck)
    have hnext : k + 1 < metadata.azimuthSize →
        metadata.distAt libm k ≤ metadata.distAt libm (k + 1) := fun hlt =>
      h.smallest (le_refl k) hkl (by omega) hlt
    refine ⟨k, ⟨le_refl k, hkl⟩, fun _ => hlow, ?_⟩
    rw [searchUp hck.le (by omega) (fun i hci => h.falls i (by omega)) hnext]
    refine foldlBreak_of_break fun i hi => if_neg (not_lt.mpr ?_)
    have hmem := List.mem_reverse.mp (List.mem_of_mem_head? hi)
    rw [List.mem_range'_1] at hmem
    exact h.smallest (le_refl k) hkl hmem.1 (by omega)
  -- the first loop stops at once
  · have hstay : metadata.centerAzIdx + 1 < metadata.azimuthSize →
        metadata.distAt libm metadata.centerAzIdx ≤
          metadata.distAt libm (metadata.centerAzIdx + 1) := by
      intro hlt
      by_cases hcl : metadata.centerAzIdx < l
      · exact (h.level _ (not_lt.mp hck) hcl).ge
      · exact (h.rises _ (not_lt.mp hcl) hlt).le
    rw [searchUp (le_refl _) (by omega) (fun i hi hi' => absurd hi' (not_lt.mpr hi)) hstay,
      if_pos rfl]
    by_cases hcl : metadata.centerAzIdx ≤ l
    · refine ⟨metadata.centerAzIdx, ⟨not_lt.mp hck, hcl⟩, fun hne => absurd rfl hne, ?_⟩
      exact searchDown (le_refl _) (by omega) (fun i hi hi' => absurd hi' (not_lt.mpr hi))
        fun hlt => h.smallest (not_lt.mp hck) hcl (by omega) (by omega)
    · have hlc := not_le.mp hcl
      refine ⟨l, ⟨hkl, le_refl l⟩, fun _ => ?_, ?_⟩
      · have hrise := h.rises (metadata.centerAzIdx - 1) (by omega) (by omega)
        rw [Nat.sub_add_cancel (by omega)] at hrise
        exact (h.smallest hkl (le_refl l) (by omega) (by omega)).trans_lt hrise
      · exact searchDown hlc.le (by omega) (fun i hi hi' => h.rises i hi (by omega))
          fun hlt => h.smallest hkl (le_refl l) (by omega) (by omega)

/-- The position of the centre is never stored, so some other index has to be closer, or the
position that was not stored is the one that the search starts with. -/
def CentreImproved (libm : Libm R) (metadata : SceneMetadata R) : Prop :=
  (∃ i, (1 ≤ i ∧ i < metadata.azimuthSize) ∧
    metadata.distAt libm i < metadata.distAt libm metadata.centerAzIdx) ∨
  interpolateOrbit metadata.orbitStateVectors metadata.centerTimePoint = .zero

/-- **When the search anchors the fit.** -/
theorem anchoredAtClosest_iff {k l : Nat}
    (h : FallsThenRises (metadata.distAt libm) metadata.azimuthSize k l) :
    AnchoredAtClosest libm metadata (searchClosest libm metadata) ↔
      CentreImproved libm metadata := by
  obtain ⟨j, ⟨hkj, hjl⟩, hlow, hsearch⟩ := searchClosest_eq h
  obtain ⟨hk, -, hln⟩ := h.bounds
  rw [hsearch]
  constructor
  · intro hanchor
    by_cases hj : j = metadata.centerAzIdx
    · have hpos := hanchor.position
      rw [if_pos hj, hj, posAt_centerAzIdx] at hpos
      exact .inr hpos.symm
    · exact .inl ⟨j, ⟨hk.trans hkj, hjl.trans_lt hln⟩, hlow hj⟩
  · intro himproved
    refine ⟨⟨hk.trans hkj, hjl.trans_lt hln⟩, fun i h1 hin => h.smallest hkj hjl h1 hin, ?_⟩
    by_cases hj : j = metadata.centerAzIdx
    · rw [if_pos hj]
      rcases himproved with ⟨i, ⟨h1, hin⟩, hlt⟩ | hzero
      · have hle := h.smallest hkj hjl h1 hin
        rw [hj] at hle
        exact absurd hlt (not_lt.mpr hle)
      · rw [hj, posAt_centerAzIdx, hzero]
    · rw [if_neg hj]

end Loops

/-! ## A scene on the equator -/

/-- The square root of a square, and the sine and cosine of zero. -/
def equatorLibm : Libm ℚ where
  sqrt := Rat.sqrt
  sin := fun q => q
  cos := fun _ => 1
  pi := 355 / 113

/-- The orbit passes 720 km above the scene 40 s after its first state vector, and the lines are
40 s apart. -/
def equatorScene (azimuthSize : Nat) (centerTime : Int) : SceneMetadata ℚ where
  pulseRepetitionFrequency := 1 / 40
  centerTime := centerTime
  firstOrbitTime := 0
  azimuthSize := azimuthSize
  centerLat := 0
  centerLon := 0
  orbitStateVectors :=
    [⟨0, 7098137, -300000, 0, 0, 7500, 0⟩, ⟨80, 7098137, 300000, 0, 0, 7500, 0⟩]

/-- The centre is the first of two lines, and the second one is closer. -/
theorem fallsThenRises_secondLine :
    FallsThenRises ((equatorScene 3 0).distAt equatorLibm) 3 2 2 where
  bounds := by decide
  falls i h1 hi := by
    obtain rfl : i = 1 := by omega
    decide +kernel
  level i hi hi' := absurd hi' (not_lt.mpr hi)
  rises i hi hi' := by omega

theorem anchoredAtClosest_secondLine :
    AnchoredAtClosest equatorLibm (equatorScene 3 0)
      (searchClosest equatorLibm (equatorScene 3 0)) :=
  (anchoredAtClosest_iff fallsThenRises_secondLine).mpr
    (.inl ⟨2, by decide, by decide +kernel⟩)

/-- The centre is the closest of three lines. Its index is found, but not its position. -/
theorem not_anchoredAtClosest_centre :
    FallsThenRises ((equatorScene 4 40000000).distAt equatorLibm) 4 2 2 ∧
      ¬ AnchoredAtClosest equatorLibm (equatorScene 4 40000000)
        (searchClosest equatorLibm (equatorScene 4 40000000)) := by
  constructor
  · refine ⟨by decide, fun i h1 hi => ?_, fun i hi hi' => absurd hi' (not_lt.mpr hi),
      fun i hi hi' => ?_⟩
    · obtain rfl : i = 1 := by omega
      decide +kernel
    · obtain rfl : i = 2 := by omega
      decide +kernel
  · intro hanchor
    have hpos : (searchClosest equatorLibm (equatorScene 4 40000000)).minPos ≠
        (equatorScene 4 40000000).posAt
          (searchClosest equatorLibm (equatorScene 4 40000000)).minIdx := by
      decide +kernel
    exact hpos hanchor.position

end Alus.PalsarFocus
