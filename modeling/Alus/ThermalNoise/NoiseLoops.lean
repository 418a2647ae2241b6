import Alus.ThermalNoise.NoiseLut

/-!
# The loops of the noise table

What each loop of the noise table computes, as a function of the pixel. The loops over the knots of
a table keep up with them, so that their values are the interpolated ones. The loop over the lines
need not keep up with the times of the range vectors; its value is stated with its cursor.
-/

namespace Alus.ThermalNoise

open Alus.Lib

/-! ## The index of the segment -/

section Index

variable {K : Type} [LinearOrder K] {knots : List K} {s : K} {c : Nat}

theorem indexBefore_eq (h : knots.Pairwise (· < ·)) (hlen : 2 ≤ knots.length) (s : K) :
    indexBefore s knots = knotsUpTo knots s := by
  unfold indexBefore
  split
  next i hi =>
    rw [List.findIdx?_eq_some_iff_getElem] at hi
    obtain ⟨hi, hafter, hbefore⟩ := hi
    have hafter : s < knots[i] := of_decide_eq_true hafter
    -- the first greater knot ends the interval of the position
    have hupper : ¬ i - 1 < knotsUpTo knots s := fun hlt => by
      obtain ⟨hc, hle⟩ := (lt_knotsUpTo h).mp hlt
      have hmono : i ≤ i - 1 + 1 := by omega
      have hknot : knots[i] ≤ knots[i - 1 + 1] := by
        rcases hmono.lt_or_eq with hlt | heq
        · exact (List.pairwise_iff_getElem.mp h _ _ _ _ hlt).le
        · simp only [← heq, le_refl]
      exact absurd (hafter.trans_le hknot) (not_lt.mpr hle)
    have hlower : i - 1 ≤ knotsUpTo knots s := by
      by_contra hlt
      have hle : knots[i - 1] ≤ s := by
        have hprev := hbefore (i - 1) (by omega)
        simpa using hprev
      have hcount : i - 2 < knotsUpTo knots s :=
        (lt_knotsUpTo h).mpr ⟨by omega, by simpa only [show i - 2 + 1 = i - 1 by omega] using hle⟩
      omega
    split <;> omega
  -- without a greater knot it is the last interval
  next hnone =>
    rw [List.findIdx?_eq_none_iff] at hnone
    have hupper := knotsUpTo_le knots s
    have hlower : knots.length - 2 ≤ knotsUpTo knots s := by
      by_contra hlt
      have hle : knots[knots.length - 2] ≤ s := by
        have hlast := hnone _ (List.getElem_mem (by omega : knots.length - 2 < knots.length))
        simpa using hlast
      have hcount : knots.length - 3 < knotsUpTo knots s :=
        (lt_knotsUpTo h).mpr ⟨by omega,
          by simpa only [show knots.length - 3 + 1 = knots.length - 2 by omega] using hle⟩
      omega
    omega

theorem advance_eq (h : knots.Pairwise (· < ·)) (hc : c + 1 < knots.length) (s : K) :
    (if s > knots[c + 1] ∧ (c : Int) < knots.length - 2 then (c : Int) + 1 else c) =
      (advance knots c s : Int) := by
  unfold advance
  by_cases hlt : c < knotsBelow knots s
  · obtain ⟨hc', hknot⟩ := (lt_knotsBelow h).mp hlt
    rw [if_pos hlt, if_pos ⟨hknot, by omega⟩]
    rfl
  · rw [if_neg hlt, if_neg]
    intro hstep
    exact hlt ((lt_knotsBelow h).mpr ⟨by omega, hstep.1⟩)

theorem advance_lt (hc : c + 1 < knots.length) : advance knots c s + 1 < knots.length := by
  unfold advance
  split
  next hlt =>
    have hle := hlt.trans_le ((knotsBelow_le_knotsUpTo knots s).trans (knotsUpTo_le knots s))
    omega
  next => exact hc

end Index

variable {T : Type} [Field T] [LinearOrder T]

/-! ## The values of a table -/

section Table

variable {pixels : List Int}

omit [LinearOrder T] in
theorem interpolateNoise_eq (h : pixels.Pairwise (· < ·)) (noiseLut : List T)
    (hsize : noiseLut.length = pixels.length)
    {c : Nat} (hc : c + 1 < pixels.length) (s : Int) :
    interpolateNoise pixels[c] pixels[c + 1] noiseLut[c] noiseLut[c + 1] s =
      onSegment (pixels.map (Int.cast : Int → T)) noiseLut c s := by
  have hne : pixels[c] ≠ pixels[c + 1] :=
    (List.pairwise_iff_getElem.mp h _ _ _ _ (Nat.lt_succ_self c)).ne
  have hc' : c + 1 < (pixels.map (Int.cast : Int → T)).length := by
    rwa [List.length_map]
  rw [interpolateNoise, if_neg hne, onSegment, lerp,
    List.getD_eq_getElem _ _ (by omega : c < (pixels.map (Int.cast : Int → T)).length),
    List.getD_eq_getElem _ _ hc', List.getD_eq_getElem _ _ (by omega : c < noiseLut.length),
    List.getD_eq_getElem _ _ (by omega : c + 1 < noiseLut.length), List.getElem_map,
    List.getElem_map, Int.cast_sub, Int.cast_sub]

/-- The loop over the samples from the `k`-th on. -/
theorem interpolateSamples_from [IsStrictOrderedRing T] (h : pixels.Pairwise (· < ·))
    (hlen : 2 ≤ pixels.length) (noiseLut : List T) (hsize : noiseLut.length = pixels.length)
    (first : Int) (n : Nat) : ∀ (k c : Nat),
    advance pixels c (first + k) = cursor pixels (fun i => first + i) k → c + 1 < pixels.length →
    interpolateSamples pixels noiseLut c (intRange (first + k) (first + k + n)) =
      .ok ((intRange (first + k) (first + k + n)).map fun (s : Int) =>
        interpolant (pixels.map (Int.cast : Int → T)) noiseLut (s : T)) := by
  induction n with
  | zero =>
    intro k c _ _
    rw [intRange_eq_nil (by omega)]
    rfl
  | succ n ih =>
    intro k c hcursor hc
    have hc' := advance_lt (s := first + k) hc
    have hmono : StrictMono fun i : Nat => first + (i : Int) := fun i j hij => by
      show first + (i : Int) < first + j
      omega
    have hloc : Locates pixels (advance pixels c (first + k)) (first + k) := by
      rw [hcursor]
      exact (locates_cursor_iff hmono k).mpr (keepsPace_int h first k)
    have hloc' := (locates_map_intCast (T := T)).mpr hloc
    have hknots : (pixels.map (Int.cast : Int → T)).Pairwise (· < ·) :=
      h.map _ fun a b hab => Int.cast_lt.mpr hab
    have hvalue := (interpolateNoise_eq h noiseLut hsize hc' (first + k)).trans
      (onSegment_eq_interpolant hknots (by simpa using hlen) noiseLut hloc')
    -- the rest of the loop goes on from the next sample with the cursor of this one
    have hrest := ih (k + 1) (advance pixels c (first + k)) (by rw [hcursor]; rfl) hc'
    rw [intRange_cons (by omega), interpolateSamples]
    rw [show (c : Int) + 1 = (c + 1 : Nat) by omega, vectorAt_natCast hc, Outcome.ok_bind]
    dsimp only
    rw [show ((c + 1 : Nat) : Int) = (c : Int) + 1 by omega, advance_eq h hc,
      show (advance pixels c (first + k) : Int) + 1 = (advance pixels c (first + k) + 1 : Nat) by
        omega,
      vectorAt_natCast (by omega), vectorAt_natCast hc', vectorAt_natCast (by omega),
      vectorAt_natCast (by omega)]
    simp only [Outcome.ok_bind, hvalue]
    rw [show first + (k : Int) + 1 = first + (k + 1 : Nat) by omega,
      show first + (k : Int) + (n + 1 : Nat) = first + (k + 1 : Nat) + n by omega, hrest]
    rfl

theorem interpolateSamples_eq [IsStrictOrderedRing T] (h : pixels.Pairwise (· < ·))
    (hlen : 2 ≤ pixels.length) (noiseLut : List T) (hsize : noiseLut.length = pixels.length)
    (first last : Int) :
    interpolateSamples pixels noiseLut (getSampleIndex first pixels) (intRange first last) =
      .ok ((intRange first last).map fun (s : Int) =>
        interpolant (pixels.map (Int.cast : Int → T)) noiseLut (s : T)) := by
  rcases le_total last first with hle | hle
  · rw [intRange_eq_nil hle]
    rfl
  · have hstart : advance pixels (knotsUpTo pixels first) (first + (0 : Nat)) =
        cursor pixels (fun i => first + i) 0 := by
      show advance pixels _ (first + 0) = knotsUpTo pixels (first + 0)
      rw [Int.add_zero]
      exact advance_of_locates (locates_knotsUpTo pixels first)
    have hbound : knotsUpTo pixels first + 1 < pixels.length := by
      have hle := knotsUpTo_le pixels first
      omega
    have hloop := interpolateSamples_from h hlen noiseLut hsize first
      (last - first).toNat 0 _ hstart hbound
    rw [show first + ((0 : Nat) : Int) = first by omega,
      show first + ((last - first).toNat : Int) = last by omega] at hloop
    rw [getSampleIndex, indexBefore_eq h hlen]
    exact hloop

theorem constantSamples_eq (noiseLut : List T) (hsize : noiseLut.length = pixels.length)
    (hlen : pixels.length = 1)    (samples : List Int) :
    constantSamples noiseLut samples =
      .ok (samples.map fun (s : Int) =>
        interpolant (pixels.map (Int.cast : Int → T)) noiseLut (s : T)) := by
  obtain ⟨noise, rfl⟩ := List.length_eq_one_iff.mp (hsize.trans hlen)
  have hconst : ∀ t : T, interpolant (pixels.map (Int.cast : Int → T)) [noise] t = noise :=
    fun t => if_pos (by rw [List.length_map]; omega)
  simp only [hconst]
  rfl

end Table

/-- The noise of a range vector at a sample. -/
def NoiseVector.noise (nv : NoiseVector T) (x : Int) : T :=
  interpolant (nv.pixels.map Int.cast) nv.noiseLut x

/-- The noise factor of an azimuth vector at a line. -/
def NoiseAzimuthVector.noise (nav : NoiseAzimuthVector T) (y : Int) : T :=
  interpolant (nav.lines.map Int.cast) nav.noiseAzimuthLut y

theorem fillRangeNoise_eq [IsStrictOrderedRing T] (nv : NoiseVector T) (first last : Int) :
    fillRangeNoise nv first last = .ok ((intRange first (last + 1)).map nv.noise) := by
  have hpos : 0 < nv.pixels.length := List.length_pos_iff.mpr nv.nonempty
  rw [fillRangeNoise, if_neg (by omega)]
  by_cases hone : nv.pixels.length = 1
  · rw [if_pos hone]
    exact constantSamples_eq nv.noiseLut nv.sizes hone _
  · rw [if_neg hone]
    exact interpolateSamples_eq nv.increasing (by omega) nv.noiseLut nv.sizes first (last + 1)

theorem fillAzimuthNoise_eq [IsStrictOrderedRing T] (nav : NoiseAzimuthVector T)
    (first last : Int) :
    fillAzimuthNoise nav first last = .ok ((intRange first (last + 1)).map nav.noise) := by
  have hpos : 0 < nav.lines.length := List.length_pos_iff.mpr nav.nonempty
  rw [fillAzimuthNoise]
  by_cases hone : nav.lines.length < 2
  · rw [if_pos hone]
    exact constantSamples_eq nav.noiseAzimuthLut nav.sizes (by omega) _
  · rw [if_neg hone]
    exact interpolateSamples_eq nav.increasing (by omega) nav.noiseAzimuthLut nav.sizes first
      (last + 1)

omit [Field T] [LinearOrder T] in
/-- The entry of an interpolated vector. -/
theorem vectorAt_map_intRange {a b i : Int} (f : Int → T) (ha : a ≤ i) (hb : i < b) :
    vectorAt ((intRange a b).map f) (i - a) = .ok (f i) := by
  have hi : (i - a).toNat < ((intRange a b).map f).length := by
    rw [List.length_map, length_intRange]
    omega
  have hget := getElem?_intRange (a := a) (b := b) (i := (i - a).toNat) (by omega)
  rw [show a + ((i - a).toNat : Int) = i by omega, List.getElem?_eq_some_iff] at hget
  obtain ⟨_, hget⟩ := hget
  rw [show i - a = ((i - a).toNat : Int) by omega, vectorAt_natCast hi, List.getElem_map, hget]

omit [Field T] [LinearOrder T] in
theorem vectorIndex_map_intRange {a b i : Int} (f : Int → T) (ha : a ≤ i) (hb : i < b) :
    vectorIndex ((intRange a b).map f) (i - a) = .ok (f i) := by
  have hi : (i - a).toNat < ((intRange a b).map f).length := by
    rw [List.length_map, length_intRange]
    omega
  have hat := vectorAt_map_intRange f ha hb
  rw [show i - a = ((i - a).toNat : Int) by omega, vectorAt_natCast hi] at hat
  rw [show i - a = ((i - a).toNat : Int) by omega, vectorIndex_natCast hi]
  exact hat

/-! ## The noise matrix -/

section Matrix

/-- The range noise that the loop over the lines interpolates at the `k`-th of them. -/
def loopValue (times values : List T) (pos : Nat → T) (k : Nat) : T :=
  if times.length < 2 then values.headD 0
  else onSegment times values (cursor times pos k) (pos k)

theorem loopValue_eq {times : List T} (h : times.Pairwise (· < ·)) (values : List T)
    {pos : Nat → T} (hpos : StrictMono pos) {k : Nat} (hpace : KeepsPace times pos k) :
    loopValue times values pos k = interpolant times values (pos k) := by
  unfold loopValue
  split
  next hlen => exact (if_pos hlen).symm
  next hlen =>
    exact onSegment_eq_interpolant h (by omega) values ((locates_cursor_iff hpos k).mpr hpace)

/-- The writes of one column. -/
def writeColumn (tile : Rectangle) (lines : List Int) (x : Int) (v : Int → T)
    (values : Int → Int → T) : Int → Int → T :=
  lines.foldl (fun values y => setValue values (y - tile.y) (x - tile.x) (v y)) values

omit [Field T] [LinearOrder T] in
theorem writeColumn_apply (tile : Rectangle) (lines : List Int) (x : Int) (v : Int → T)
    (values : Int → Int → T) (x' y' : Int) :
    writeColumn tile lines x v values (y' - tile.y) (x' - tile.x) =
      if x' = x ∧ y' ∈ lines then v y' else values (y' - tile.y) (x' - tile.x) := by
  induction lines generalizing values with
  | nil => simp [writeColumn]
  | cons y lines ih =>
    rw [writeColumn, List.foldl_cons]
    refine (ih _).trans ?_
    by_cases hlater : x' = x ∧ y' ∈ lines
    · rw [if_pos hlater, if_pos ⟨hlater.1, List.mem_cons_of_mem y hlater.2⟩]
    · rw [if_neg hlater, setValue]
      by_cases hhere : x' = x ∧ y' = y
      · rw [if_pos (by omega), if_pos ⟨hhere.1, hhere.2 ▸ List.mem_cons_self⟩, hhere.2]
      · rw [if_neg (by omega), if_neg]
        rintro ⟨hx, hy⟩
        rcases List.mem_cons.mp hy with hy | hy
        · exact hhere ⟨hx, hy⟩
        · exact hlater ⟨hx, hy⟩

omit [Field T] [LinearOrder T] in
theorem foldl_writeColumn_apply (tile : Rectangle) (lines columns : List Int)
    (v : Int → Int → T) (values : Int → Int → T) (x' y' : Int) :
    columns.foldl (fun values x => writeColumn tile lines x (v x) values) values (y' - tile.y)
        (x' - tile.x) =
      if x' ∈ columns ∧ y' ∈ lines then v x' y' else values (y' - tile.y) (x' - tile.x) := by
  induction columns generalizing values with
  | nil => simp
  | cons x columns ih =>
    rw [List.foldl_cons, ih]
    by_cases hlater : x' ∈ columns ∧ y' ∈ lines
    · rw [if_pos hlater, if_pos ⟨List.mem_cons_of_mem x hlater.1, hlater.2⟩]
    · rw [if_neg hlater, writeColumn_apply]
      by_cases hhere : x' = x ∧ y' ∈ lines
      · rw [if_pos hhere, if_pos ⟨hhere.1 ▸ List.mem_cons_self, hhere.2⟩, hhere.1]
      · rw [if_neg hhere, if_neg]
        rintro ⟨hx, hy⟩
        rcases List.mem_cons.mp hx with hx | hx
        · exact hhere ⟨hx, hy⟩
        · exact hlater ⟨hx, hy⟩

variable {tile : Rectangle} {o : Overlap} {firstLineTime lineTimeInterval : T} {times : List T}
  {profiles : List (Int → T)} {factor : Int → T}

/-- The interpolated range vectors of the overlap. -/
def rangeTables (o : Overlap) (profiles : List (Int → T)) : List (List T) :=
  profiles.map fun f => (intRange o.nx0 (o.nxMax + 1)).map f

/-- The interpolated azimuth vector of the overlap. -/
def azimuthTable (o : Overlap) (factor : Int → T) : List T :=
  (intRange o.ny0 (o.nyMax + 1)).map factor

def lineTime (firstLineTime lineTimeInterval : T) (y : Int) : T :=
  firstLineTime + lineTimeInterval * y

/-- The times of the lines of the overlap, from its first one on. -/
def overlapTime (firstLineTime lineTimeInterval : T) (o : Overlap) (k : Nat) : T :=
  lineTime firstLineTime lineTimeInterval (o.ny0 + k)

/-- The value that a block writes at a pixel of the overlap. -/
def loopNoise (o : Overlap) (firstLineTime lineTimeInterval : T) (times : List T)
    (profiles : List (Int → T)) (factor : Int → T) (x y : Int) : T :=
  factor y * loopValue times (profiles.map (· x))
    (overlapTime firstLineTime lineTimeInterval o) (y - o.ny0).toNat

theorem constantColumn_eq (hone : times.length = 1) (hsize : profiles.length = times.length)
    {x : Int} (hx : x ∈ intRange o.nx0 (o.nxMax + 1)) (values : Int → Int → T) :
    constantColumn tile o (rangeTables o profiles) (azimuthTable o factor) x values =
      .ok (writeColumn tile (intRange o.ny0 (o.nyMax + 1)) x
        (loopNoise o firstLineTime lineTimeInterval times profiles factor x) values) := by
  obtain ⟨f, rfl⟩ := List.length_eq_one_iff.mp (hsize.trans hone)
  obtain ⟨hx0, hxMax⟩ := mem_intRange.mp hx
  refine Outcome.foldlM_eq_ok (fun y hy values => ?_) values
  obtain ⟨hy0, hyMax⟩ := mem_intRange.mp hy
  have hvalue : loopNoise o firstLineTime lineTimeInterval times [f] factor x y =
      factor y * f x := by
    rw [loopNoise, loopValue, if_pos (by omega)]
    rfl
  have hfront : vectorIndex (rangeTables o [f]) 0 =
      .ok ((intRange o.nx0 (o.nxMax + 1)).map f) := rfl
  rw [azimuthTable, vectorAt_map_intRange factor hy0 hyMax, hfront, hvalue]
  simp only [Outcome.ok_bind, vectorAt_map_intRange f hx0 hxMax]
  rfl

theorem interpolateNoiseByTime_eq (h : times.Pairwise (· < ·)) {values : List T}
    (hsize : values.length = times.length) {c : Nat} (hc : c + 1 < times.length) (t : T) :
    interpolateNoiseByTime times[c] times[c + 1] values[c] values[c + 1] t =
      onSegment times values c t := by
  have hne : times[c] ≠ times[c + 1] :=
    (List.pairwise_iff_getElem.mp h _ _ _ _ (Nat.lt_succ_self c)).ne
  rw [interpolateNoiseByTime, if_neg hne, onSegment, lerp,
    List.getD_eq_getElem _ _ (by omega : c < times.length), List.getD_eq_getElem _ _ hc,
    List.getD_eq_getElem _ _ (by omega : c < values.length),
    List.getD_eq_getElem _ _ (by omega : c + 1 < values.length)]

omit [Field T] [LinearOrder T] in
theorem vectorIndex_rangeTables (profiles : List (Int → T)) {x : Int}
    (hx : x ∈ intRange o.nx0 (o.nxMax + 1)) {i : Nat} (hi : i < (profiles.map (· x)).length) :
    ∃ r, vectorIndex (rangeTables o profiles) (i : Int) = .ok r ∧
      vectorIndex r (x - o.nx0) = .ok (profiles.map (· x))[i] := by
  obtain ⟨hx0, hxMax⟩ := mem_intRange.mp hx
  have htable : i < (rangeTables o profiles).length := by
    simpa [rangeTables] using hi
  refine ⟨_, vectorIndex_natCast htable, ?_⟩
  simp only [rangeTables, List.getElem_map]
  exact vectorIndex_map_intRange _ hx0 hxMax

/-- The column from the `k`-th line of the overlap on. -/
theorem timeColumn_from (tile : Rectangle) (factor : Int → T) (h : times.Pairwise (· < ·))
    (hlen : 2 ≤ times.length) (hsize : profiles.length = times.length) {x : Int}
    (hx : x ∈ intRange o.nx0 (o.nxMax + 1))
    (n : Nat) : ∀ (k c : Nat) (values : Int → Int → T), o.ny0 + k + n ≤ o.nyMax + 1 →
    advance times c (overlapTime firstLineTime lineTimeInterval o k) =
      cursor times (overlapTime firstLineTime lineTimeInterval o) k → c + 1 < times.length →
    timeColumn tile o firstLineTime lineTimeInterval times (rangeTables o profiles)
        (azimuthTable o factor) x c (intRange (o.ny0 + k) (o.ny0 + k + n)) values =
      .ok (writeColumn tile (intRange (o.ny0 + k) (o.ny0 + k + n)) x
        (loopNoise o firstLineTime lineTimeInterval times profiles factor x) values) := by
  induction n with
  | zero =>
    intro k c values _ _ _
    rw [intRange_eq_nil (by omega)]
    rfl
  | succ n ih =>
    intro k c values hbound hcursor hc
    have hc' := advance_lt (s := overlapTime firstLineTime lineTimeInterval o k) hc
    set c' := advance times c (overlapTime firstLineTime lineTimeInterval o k) with hadvance
    have hvalues : (profiles.map (· x)).length = times.length := by
      rw [List.length_map, hsize]
    obtain ⟨r1, hr1, hnoise1⟩ := vectorIndex_rangeTables profiles hx (i := c') (by omega)
    obtain ⟨r2, hr2, hnoise2⟩ := vectorIndex_rangeTables profiles hx (i := c' + 1) (by omega)
    have hvalue : loopNoise o firstLineTime lineTimeInterval times profiles factor x (o.ny0 + k) =
        factor (o.ny0 + k) * onSegment times (profiles.map (· x)) c'
          (overlapTime firstLineTime lineTimeInterval o k) := by
      rw [loopNoise, loopValue, if_neg (by omega), show (o.ny0 + (k : Int) - o.ny0).toNat = k by
        omega, hcursor]
    have htime := interpolateNoiseByTime_eq h hvalues hc'
      (overlapTime firstLineTime lineTimeInterval o k)
    -- the remaining rows start from the cursor that this row has left
    have hrest := ih (k + 1) c' (setValue values (o.ny0 + k - tile.y) (x - tile.x)
      (loopNoise o firstLineTime lineTimeInterval times profiles factor x (o.ny0 + k)))
      (by omega) (by rw [hcursor]; rfl) hc'
    rw [intRange_cons (by omega), timeColumn]
    rw [show (c : Int) + 1 = (c + 1 : Nat) by omega, vectorIndex_natCast hc, Outcome.ok_bind]
    dsimp only
    rw [show ((c + 1 : Nat) : Int) = (c : Int) + 1 by omega]
    have hadv := advance_eq h hc (overlapTime firstLineTime lineTimeInterval o k)
    rw [← hadvance, overlapTime, lineTime] at hadv
    rw [hadv, show (c' : Int) + 1 = (c' + 1 : Nat) by omega, azimuthTable,
      vectorIndex_map_intRange factor (by omega) (by omega), vectorIndex_natCast (by omega),
      vectorIndex_natCast hc', hr1, hr2]
    simp only [Outcome.ok_bind, hnoise1, hnoise2]
    rw [overlapTime, lineTime] at htime hvalue
    rw [htime, ← hvalue, show o.ny0 + (k : Int) + 1 = o.ny0 + (k + 1 : Nat) by omega,
      show o.ny0 + (k : Int) + (n + 1 : Nat) = o.ny0 + (k + 1 : Nat) + n by omega]
    exact hrest

theorem computeNoiseMatrix_eq (tile : Rectangle) (o : Overlap)
    (firstLineTime lineTimeInterval : T) (h : times.Pairwise (· < ·)) (hne : times ≠ [])
    (hsize : profiles.length = times.length) (factor : Int → T) (values : Int → Int → T) :
    computeNoiseMatrix tile o firstLineTime lineTimeInterval times (rangeTables o profiles)
        (azimuthTable o factor) values =
      .ok ((intRange o.nx0 (o.nxMax + 1)).foldl (fun values x =>
        writeColumn tile (intRange o.ny0 (o.nyMax + 1)) x
          (loopNoise o firstLineTime lineTimeInterval times profiles factor x) values) values) := by
  have hpos : 0 < times.length := List.length_pos_iff.mpr hne
  rw [computeNoiseMatrix]
  by_cases hone : times.length = 1
  · rw [if_pos hone]
    exact Outcome.foldlM_eq_ok (fun x hx values => constantColumn_eq hone hsize hx values) values
  · rw [if_neg hone, indexBefore_eq h (by omega)]
    refine Outcome.foldlM_eq_ok (fun x hx values => ?_) values
    rcases le_total (o.nyMax + 1) o.ny0 with hle | hle
    · rw [intRange_eq_nil hle]
      rfl
    · have hstart : overlapTime firstLineTime lineTimeInterval o 0 =
          firstLineTime + lineTimeInterval * o.ny0 := by
        rw [overlapTime, lineTime, Nat.cast_zero, Int.add_zero]
      have hcursor : advance times (knotsUpTo times (firstLineTime + lineTimeInterval * o.ny0))
          (overlapTime firstLineTime lineTimeInterval o 0) =
          cursor times (overlapTime firstLineTime lineTimeInterval o) 0 := by
        rw [cursor, hstart]
        exact advance_of_locates (locates_knotsUpTo _ _)
      have hle' := knotsUpTo_le times (firstLineTime + lineTimeInterval * o.ny0)
      have hcolumn := timeColumn_from tile factor h (by omega) hsize hx
        (o.nyMax + 1 - o.ny0).toNat 0 _ values (by omega) hcursor (by omega)
      rwa [show o.ny0 + ((0 : Nat) : Int) + ((o.nyMax + 1 - o.ny0).toNat : Int) = o.nyMax + 1 by
        omega, show o.ny0 + ((0 : Nat) : Int) = o.ny0 by omega] at hcolumn

end Matrix

end Alus.ThermalNoise
