import Mathlib.Data.Rat.Floor
import Mathlib.Data.List.Range
import Alus.Lib.Machine
import Alus.Lib.Search

/-!
# The tile size of a GeoTIFF

`FindOptimalTileSize` (`gdal_util.cc`) looks among the multiples of 16 from 256 to 512 for the tile
size that pads a raster least. It compares what the last tile lacks, which for a tile size that
divides the raster is a whole tile and not nothing; and it takes every tile size that the raster
divides.
-/

namespace Alus.Util

open Alus.Lib

/-! ## The function -/

/-- `a % b` of C++. -/
def remainder (a b : Int) : Outcome Int :=
  if b = 0 ∨ ¬ Fits 32 (a.tdiv b) then .undefined else .ok (a.tmod b)

/-- The values of `tile_size`. -/
def tileSizes : List Int := (List.range 17).map fun k : Nat => 256 + 16 * (k : Int)

/-- A round of the loop of `FindOptimalTileSize`. -/
def tileSizeRound (rasterDimension best tileSize : Int) : Outcome Int := do
  let rest ← remainder tileSize rasterDimension
  if rest = 0 then return tileSize
  else
    let restCurrent ← remainder rasterDimension tileSize
    let paddingCurrent ← int32 (tileSize - restCurrent)
    let restBest ← remainder rasterDimension best
    let paddingBest ← int32 (best - restBest)
    if restBest ≠ 0 ∧ paddingCurrent ≤ paddingBest then return tileSize
    else return best

def findOptimalTileSize (rasterDimension : Int) : Outcome String := do
  let defaultTileSize : Int := 256
  let best ← tileSizes.foldlM (tileSizeRound rasterDimension) defaultTileSize
  return toString best

/-! ## What the best tile size is -/

/-- A multiple of 16 in the range that is tried. -/
structure IsTileSize (tileSize : Int) : Prop where
  low : 256 ≤ tileSize
  high : tileSize ≤ 512
  multiple : 16 ∣ tileSize

/-- What the tiles that cover a raster have in excess of it. -/
def padding (rasterDimension tileSize : Int) : Int :=
  ⌈(rasterDimension : ℚ) / tileSize⌉ * tileSize - rasterDimension

/-- The tile size that is returned pads the raster least, so it divides it if some tile size does.
-/
def MinimisesPadding (rasterDimension : Int) : Prop :=
  ∃ best, findOptimalTileSize rasterDimension = .ok (toString best) ∧ IsTileSize best ∧
    (∀ tileSize, IsTileSize tileSize →
      padding rasterDimension best ≤ padding rasterDimension tileSize) ∧
    ((∃ tileSize, IsTileSize tileSize ∧ tileSize ∣ rasterDimension) → best ∣ rasterDimension)

/-- The raster divides no tile size behind the first one but itself, and no other of these divides
the raster, unless the first one does. -/
def NoOtherDivides (rasterDimension : Int) : Prop :=
  ∀ tileSize, IsTileSize tileSize → tileSize ≠ 256 → tileSize ≠ rasterDimension →
    ¬ rasterDimension ∣ tileSize ∧ (tileSize ∣ rasterDimension → 256 ∣ rasterDimension)

/-! ## A round -/

/-- The best tile size after a round. -/
def better (rasterDimension best tileSize : Int) : Int :=
  if rasterDimension ∣ tileSize then tileSize
  else if ¬ best ∣ rasterDimension ∧
      tileSize - rasterDimension % tileSize ≤ best - rasterDimension % best then tileSize
  else best

theorem mem_tileSizes {tileSize : Int} : tileSize ∈ tileSizes ↔ IsTileSize tileSize := by
  simp only [tileSizes, List.mem_map, List.mem_range]
  constructor
  · rintro ⟨k, hk, rfl⟩
    exact ⟨by omega, by omega, by omega⟩
  · intro h
    have hlow := h.low
    have hhigh := h.high
    obtain ⟨m, hm⟩ := h.multiple
    exact ⟨(m - 16).toNat, by omega, by omega⟩

theorem remainder_eq {a b : Int} (ha : 0 ≤ a ∧ a < 2147483648) (hb : 0 < b) :
    remainder a b = .ok (a % b) := by
  have hquotient : Fits 32 (a.tdiv b) := by
    rw [Int.tdiv_eq_ediv_of_nonneg ha.1, fits32_iff]
    have hnonneg := Int.ediv_nonneg ha.1 hb.le
    have hle := Int.ediv_le_self b ha.1
    omega
  rw [remainder, if_neg (by simp [hb.ne', hquotient]), Int.tmod_eq_emod_of_nonneg ha.1]

section Positive

variable {d : Int} (hd : 0 < d ∧ d < 2147483648)

include hd

theorem tileSizeRound_eq {best tileSize : Int} (hbest : IsTileSize best)
    (htile : IsTileSize tileSize) :
    tileSizeRound d best tileSize = .ok (better d best tileSize) := by
  have hb := hbest.low
  have hb' := hbest.high
  have ht := htile.low
  have ht' := htile.high
  have hcurrent := Int.emod_nonneg d (show tileSize ≠ 0 by omega)
  have hcurrent' := Int.emod_lt_of_pos d (show 0 < tileSize by omega)
  have hrest := Int.emod_nonneg d (show best ≠ 0 by omega)
  have hrest' := Int.emod_lt_of_pos d (show 0 < best by omega)
  have hdvd : ¬ best ∣ d ↔ d % best ≠ 0 := not_congr Int.dvd_iff_emod_eq_zero
  simp only [better, hdvd]
  rw [tileSizeRound, remainder_eq (by omega) hd.1, Outcome.ok_bind]
  split
  · next hzero => rw [if_pos (Int.dvd_of_emod_eq_zero hzero), Outcome.pure_eq]
  · next hzero =>
    rw [if_neg fun hdvd => hzero (Int.emod_eq_zero_of_dvd hdvd),
      remainder_eq (by omega) (by omega), Outcome.ok_bind, int32_of_bounds (by omega) (by omega),
      Outcome.ok_bind, remainder_eq (by omega) (by omega), Outcome.ok_bind,
      int32_of_bounds (by omega) (by omega), Outcome.ok_bind, Outcome.pure_eq, Outcome.pure_eq]
    split <;> rfl

omit hd in
theorem isTileSize_better {best tileSize : Int} (hbest : IsTileSize best)
    (htile : IsTileSize tileSize) : IsTileSize (better d best tileSize) := by
  unfold better
  split
  · exact htile
  · split
    · exact htile
    · exact hbest

/-- The tile size that is returned, without the checks. -/
def bestTileSize (rasterDimension : Int) : Int :=
  tileSizes.foldl (better rasterDimension) 256

theorem findOptimalTileSize_eq :
    findOptimalTileSize d = .ok (toString (bestTileSize d)) ∧ IsTileSize (bestTileSize d) := by
  have hloop : ∀ (l : List Int) (best : Int), (∀ t ∈ l, IsTileSize t) → IsTileSize best →
      l.foldlM (tileSizeRound d) best = .ok (l.foldl (better d) best) ∧
        IsTileSize (l.foldl (better d) best) := by
    intro l
    induction l with
    | nil => exact fun best _ hbest => ⟨rfl, hbest⟩
    | cons t l ih =>
      intro best hl hbest
      have ht := hl t List.mem_cons_self
      rw [List.foldlM_cons, tileSizeRound_eq hd hbest ht, Outcome.ok_bind, List.foldl_cons]
      exact ih _ (fun t' ht' => hl t' (List.mem_cons_of_mem t ht')) (isTileSize_better hbest ht)
  obtain ⟨hfold, hsize⟩ := hloop tileSizes 256 (fun t => mem_tileSizes.mp) (by
    exact ⟨by decide, by decide, by decide⟩)
  refine ⟨?_, hsize⟩
  rw [findOptimalTileSize, hfold]
  rfl

end Positive

/-! ## Padding -/

section Padding

variable {d : Int}

/-- The padding is nothing for a divisor, and else what the last tile lacks. -/
theorem padding_eq {t : Int} (ht : 0 < t) :
    padding d t = if t ∣ d then 0 else t - d % t := by
  have hcast : (t : ℚ) = (t.toNat : ℚ) := by
    rw [← Int.cast_natCast, Int.toNat_of_nonneg ht.le]
  have hceil : ⌈(d : ℚ) / t⌉ = -(-d / t) := by
    rw [hcast, Rat.ceil_intCast_div_natCast, Int.toNat_of_nonneg ht.le]
  have hdiv := Int.mul_ediv_add_emod (-d) t
  have hneg : -d % t = if t ∣ d then 0 else t - d % t := by
    rw [Int.neg_emod, Int.natAbs_of_nonneg ht.le]
  calc padding d t = -d - t * (-d / t) := by rw [padding, hceil]; ring
    _ = if t ∣ d then 0 else t - d % t := by rw [← hneg]; omega

theorem padding_of_dvd {t : Int} (ht : 0 < t) (hdvd : t ∣ d) : padding d t = 0 := by
  rw [padding_eq ht, if_pos hdvd]

/-- What does not divide the raster pads it. -/
theorem padding_pos {t : Int} (ht : 0 < t) (hdvd : ¬ t ∣ d) : 0 < padding d t := by
  rw [padding_eq ht, if_neg hdvd]
  have hlt := Int.emod_lt_of_pos d ht
  omega

theorem padding_nonneg {t : Int} (ht : 0 < t) : 0 ≤ padding d t := by
  by_cases hdvd : t ∣ d
  · rw [padding_of_dvd ht hdvd]
  · exact (padding_pos ht hdvd).le

theorem padding_of_le {t : Int} (hd : 0 < d) (hle : d ≤ t) : padding d t = t - d := by
  rcases Int.lt_or_eq_of_le hle with hlt | heq
  · have hdvd : ¬ t ∣ d := fun h => absurd (Int.le_of_dvd hd h) (by omega)
    rw [padding_eq (by omega), if_neg hdvd, Int.emod_eq_of_lt hd.le hlt]
  · rw [padding_of_dvd (by omega) (heq ▸ Int.dvd_refl d), heq, Int.sub_self]

/-- A tile size is divided by the raster only where it is the raster. -/
theorem NoOtherDivides.eq_of_dvd_left (hcond : NoOtherDivides d) {t : Int} (ht : IsTileSize t)
    (hdvd : d ∣ t) : t = d := by
  by_contra hne
  rcases eq_or_ne t 256 with rfl | h
  -- the raster divides the last tile size as well
  · have hle := Int.le_of_dvd (by decide) hdvd
    exact (hcond 512 ⟨by decide, by decide, by decide⟩ (by decide) (by omega)).1
      (hdvd.trans (by decide))
  · exact (hcond t ht h hne).1 hdvd

/-- Where a tile size divides the raster, so does the first one, or it is the raster. -/
theorem NoOtherDivides.dvd_first (hcond : NoOtherDivides d) {t : Int} (ht : IsTileSize t)
    (hdvd : t ∣ d) (hne : t ≠ d) : 256 ∣ d := by
  rcases eq_or_ne t 256 with rfl | h
  · exact hdvd
  · exact (hcond t ht h hne).2 hdvd

/-- A round compares paddings, unless one of the tile sizes divides the raster or is divided by it.
-/
theorem padding_better_le (hd : 0 < d) (hcond : NoOtherDivides d) {best t : Int}
    (hbest : IsTileSize best) (hfirst : padding d best ≤ padding d 256) (ht : IsTileSize t) :
    padding d (better d best t) ≤ padding d best ∧ padding d (better d best t) ≤ padding d t := by
  have hb := hbest.low
  have hlow := ht.low
  have hhigh := ht.high
  -- a best tile size that does not divide the raster has a padding; then no tile size has none
  have hnone : ¬ best ∣ d → t ∣ d → t = d := by
    intro hnot hdvd
    by_contra hne
    have hzero := padding_of_dvd (show (0 : Int) < 256 by decide) (hcond.dvd_first ht hdvd hne)
    have hpos := padding_pos (show 0 < best by omega) hnot
    omega
  unfold better
  split
  · next hdvd =>
    obtain rfl := hcond.eq_of_dvd_left ht hdvd
    have hzero : padding t t = 0 := padding_of_dvd (by omega) (Int.dvd_refl t)
    rw [hzero]
    exact ⟨padding_nonneg (by omega), le_refl _⟩
  · next hdvd =>
    have hnot : ¬ best ∣ d → ¬ t ∣ d := fun hbd htd =>
      hdvd ((hnone hbd htd) ▸ Int.dvd_refl d)
    split
    · next h =>
      refine ⟨?_, le_refl _⟩
      rw [padding_eq (by omega), padding_eq (by omega), if_neg (hnot h.1), if_neg h.1]
      exact h.2
    · next h =>
      refine ⟨le_refl _, ?_⟩
      by_cases hbd : best ∣ d
      · rw [padding_of_dvd (by omega) hbd]
        exact padding_nonneg (by omega)
      · rw [padding_eq (by omega), padding_eq (by omega), if_neg hbd, if_neg (hnot hbd)]
        exact (not_le.mp fun hle => h ⟨hbd, hle⟩).le

/-- Where no other tile size divides the raster or is divided by it, the loop ends with the least
padding. -/
theorem padding_bestTileSize_le (hd : 0 < d) (hcond : NoOtherDivides d) {t : Int}
    (ht : IsTileSize t) : padding d (bestTileSize d) ≤ padding d t := by
  have hfirst : IsTileSize 256 := ⟨by decide, by decide, by decide⟩
  have hloop := foldl_best_le (padding d) (better d)
    (fun best => IsTileSize best ∧ padding d best ≤ padding d 256) (l := tileSizes)
    (fun best hbest t ht => by
      obtain ⟨hle, hle'⟩ :=
        padding_better_le hd hcond hbest.1 hbest.2 (mem_tileSizes.mp ht)
      exact ⟨⟨isTileSize_better hbest.1 (mem_tileSizes.mp ht), hle.trans hbest.2⟩, hle, hle'⟩)
    ⟨hfirst, le_refl _⟩
  exact hloop.2.2 t (mem_tileSizes.mpr ht)

end Padding

/-! ## Tile sizes that are taken or passed over -/

section Taken

variable {d : Int}

theorem better_cases (best t : Int) : better d best t = t ∨ better d best t = best := by
  unfold better
  split
  · exact .inl rfl
  · split
    · exact .inl rfl
    · exact .inr rfl

theorem tileSizes_ascend : tileSizes.Pairwise (· < ·) := by decide

/-- The loop does not come back to the first tile size. -/
theorem lt_foldl_better {l : List Int} (hl : ∀ t ∈ l, 256 < t) {best : Int} (hbest : 256 < best) :
    256 < l.foldl (better d) best := by
  induction l generalizing best with
  | nil => exact hbest
  | cons t l ih =>
    have ht := hl t List.mem_cons_self
    rw [List.foldl_cons]
    refine ih (fun t' ht' => hl t' (List.mem_cons_of_mem t ht')) ?_
    rcases better_cases (d := d) best t with h | h
    · rwa [h]
    · rwa [h]

/-- A tile size that the raster divides is taken, and the first one is lost. -/
theorem lt_bestTileSize {t : Int} (ht : IsTileSize t) (hlt : 256 < t) (hdvd : d ∣ t) :
    256 < bestTileSize d := by
  obtain ⟨before, after, hsplit⟩ := List.append_of_mem (mem_tileSizes.mpr ht)
  have hascend := tileSizes_ascend
  rw [hsplit, List.pairwise_append, List.pairwise_cons] at hascend
  rw [bestTileSize, hsplit, List.foldl_append, List.foldl_cons, better, if_pos hdvd]
  exact lt_foldl_better (fun t' ht' => hlt.trans (hascend.2.1.1 t' ht')) hlt

/-- A tile size that divides the raster is not taken after one that does not: what its last tile
lacks is the whole tile. -/
theorem not_dvd_foldl_better (hd : 512 < d) {l : List Int} (hl : ∀ t ∈ l, IsTileSize t)
    (hascend : l.Pairwise (· < ·)) {best : Int} (hbest : 0 < best) (hle : ∀ t ∈ l, best ≤ t)
    (hnot : ¬ best ∣ d) : ¬ l.foldl (better d) best ∣ d := by
  induction l generalizing best with
  | nil => exact hnot
  | cons t l ih =>
    rw [List.pairwise_cons] at hascend
    have ht := hl t List.mem_cons_self
    have hlow := ht.low
    have hhigh := ht.high
    have hbt := hle t List.mem_cons_self
    have hrest := @ih (fun t' ht' => hl t' (List.mem_cons_of_mem t ht')) hascend.2
    rw [List.foldl_cons, better, if_neg fun h => absurd (Int.le_of_dvd (by omega) h) (by omega)]
    split
    · next h =>
      refine hrest (by omega) (fun t' ht' => (hascend.1 t' ht').le) fun htd => ?_
      have hzero := Int.emod_eq_zero_of_dvd htd
      have hpos : d % best ≠ 0 := fun h0 => hnot (Int.dvd_of_emod_eq_zero h0)
      have hnonneg := Int.emod_nonneg d hbest.ne'
      omega
    · next h => exact hrest hbest (fun t' ht' => hle t' (List.mem_cons_of_mem t ht')) hnot

theorem not_bestTileSize_dvd (hd : 512 < d) (hnot : ¬ 256 ∣ d) : ¬ bestTileSize d ∣ d :=
  not_dvd_foldl_better hd (fun t => mem_tileSizes.mp) tileSizes_ascend (by decide)
    (fun t ht => (mem_tileSizes.mp ht).low) hnot

end Taken

/-- Different numbers have different texts. -/
theorem toString_inj {a b : Int} (ha : 0 ≤ a) (hb : 0 ≤ b) (h : toString a = toString b) :
    a = b := by
  obtain ⟨m, rfl⟩ := Int.eq_ofNat_of_zero_le ha
  obtain ⟨n, rfl⟩ := Int.eq_ofNat_of_zero_le hb
  have hdigits : ∀ k : Nat, (toString (k : Int)).toList = Nat.toDigits 10 k := by
    intro k
    show (Nat.repr k).toList = Nat.toDigits 10 k
    exact Nat.toList_repr
  have hread := congrArg (fun text : String => Nat.ofDigitChars 10 text.toList 0) h
  simp only [hdigits, Nat.ofDigitChars_ten_toDigits] at hread
  rw [hread]

/-- A tile size that leaves less than the one that is returned. -/
theorem not_minimisesPadding_of {d t : Int} (hd : 0 < d ∧ d < 2147483648) (ht : IsTileSize t)
    (hlt : padding d t < padding d (bestTileSize d)) : ¬ MinimisesPadding d := by
  rintro ⟨best, hfind, hbest, hall, -⟩
  obtain ⟨hfind', hsize⟩ := findOptimalTileSize_eq hd
  have hlow := hbest.low
  have hlow' := hsize.low
  have htext := Outcome.ok.inj (hfind.symm.trans hfind')
  rw [← toString_inj (by omega) (by omega) htext] at hlt
  exact absurd (hall t ht) (not_le.mpr hlt)

theorem two_mul_le_of_dvd {a b : Int} (hdvd : a ∣ b) (hb : 0 < b) (hne : b ≠ a) : 2 * a ≤ b := by
  obtain ⟨k, rfl⟩ := hdvd
  rcases Int.lt_or_le 0 a with ha | ha
  · have hk : 0 < k := pos_of_mul_pos_right hb ha.le
    have hk1 : k ≠ 1 := fun h => hne (by rw [h, Int.mul_one])
    calc 2 * a = a * 2 := Int.mul_comm 2 a
      _ ≤ a * k := Int.mul_le_mul_of_nonneg_left (by omega) ha.le
  · omega

/-- The least padding is found exactly where no other tile size divides the raster or is divided by
it. -/
theorem minimisesPadding_iff (d : PositiveInt) : MinimisesPadding d.1 ↔ NoOtherDivides d.1 := by
  obtain ⟨d, hd⟩ := d
  show MinimisesPadding d ↔ NoOtherDivides d
  have hfirst : IsTileSize 256 := ⟨by decide, by decide, by decide⟩
  constructor
  · intro hmin t ht hne hother
    have hlow := ht.low
    have hhigh := ht.high
    refine ⟨fun hdvd => ?_, fun hdvd => ?_⟩
    -- the raster is at most half the tile size, and the first tile size pads it least
    · have hhalf := two_mul_le_of_dvd hdvd (by omega) hother
      have hbest := lt_bestTileSize ht (by omega) hdvd
      refine not_minimisesPadding_of hd hfirst ?_ hmin
      rw [padding_of_le hd.1 (by omega), padding_of_le hd.1 (by omega)]
      omega
    · by_contra hnot
      have htwice := two_mul_le_of_dvd hdvd hd.1 (Ne.symm hother)
      obtain ⟨-, hsize⟩ := findOptimalTileSize_eq hd
      have hsizelow := hsize.low
      refine not_minimisesPadding_of hd ht ?_ hmin
      rw [padding_of_dvd (by omega) hdvd]
      exact padding_pos (by omega) (not_bestTileSize_dvd (by omega) hnot)
  · intro hcond
    obtain ⟨hfind, hsize⟩ := findOptimalTileSize_eq hd
    have hall : ∀ t, IsTileSize t → padding d (bestTileSize d) ≤ padding d t := fun t ht =>
      padding_bestTileSize_le hd.1 hcond ht
    refine ⟨bestTileSize d, hfind, hsize, hall, ?_⟩
    rintro ⟨t, ht, hdvd⟩
    by_contra hnot
    have hlow := ht.low
    have hsizelow := hsize.low
    have hle := hall t ht
    have hpos := padding_pos (show 0 < bestTileSize d by omega) hnot
    rw [padding_of_dvd (by omega) hdvd] at hle
    omega

/-- A raster of two tiles of 272 gets tiles of another size. -/
theorem not_minimisesPadding_twoTiles : ¬ MinimisesPadding 544 := by
  have ht : IsTileSize 272 := ⟨by decide, by decide, by decide⟩
  obtain ⟨-, hsize⟩ := findOptimalTileSize_eq (d := 544) (by decide)
  have hlow := hsize.low
  refine not_minimisesPadding_of (by decide) ht ?_
  have hdvd : (272 : Int) ∣ 544 := ⟨2, rfl⟩
  rw [padding_of_dvd (by decide) hdvd]
  exact padding_pos (by omega) (not_bestTileSize_dvd (by decide) (by omega))

end Alus.Util
