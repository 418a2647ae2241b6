import Mathlib.Algebra.Order.Field.Basic
import Mathlib.Algebra.Order.Ring.Cast
import Mathlib.Data.List.GetD
import Mathlib.Tactic.FieldSimp
import Mathlib.Tactic.Ring
import Alus.Lib.IntRange

/-!
# Interpolation by a cursor

A function given at increasing knots is interpolated linearly between neighbouring knots, and the
end segments are extended outwards. A loop over increasing positions keeps the segment in a cursor
that moves at most one segment per position. The cursor is a function of the position alone as long
as the positions pass no more knots than there are positions.
-/

namespace Alus.Lib

theorem countP_eq_add {α : Type*} {p q r : α → Bool} {l : List α}
    (hor : ∀ a, r a = (p a || q a)) (hand : ∀ a, (p a && q a) = false) :
    l.countP r = l.countP p + l.countP q := by
  induction l with
  | nil => rfl
  | cons a l ih =>
    have h1 := hor a
    have h2 := hand a
    simp only [List.countP_cons, ih, h1]
    cases hp : p a <;> cases hq : q a <;> simp_all <;> omega

/-! ## Knots -/

section Knots

variable {K : Type*} [LinearOrder K]

/-- The knots between two segments. -/
def innerKnots (knots : List K) : List K := knots.tail.dropLast

omit [LinearOrder K] in
theorem length_innerKnots (knots : List K) : (innerKnots knots).length = knots.length - 2 := by
  simp only [innerKnots, List.length_dropLast, List.length_tail]
  omega

omit [LinearOrder K] in
theorem getElem_innerKnots {knots : List K} {i : Nat} (h : i < (innerKnots knots).length) :
    ∃ h' : i + 1 < knots.length, (innerKnots knots)[i] = knots[i + 1] := by
  rw [length_innerKnots] at h
  exact ⟨by omega, by simp [innerKnots]⟩

theorem pairwise_innerKnots {knots : List K} (h : knots.Pairwise (· < ·)) :
    (innerKnots knots).Pairwise (· < ·) :=
  h.sublist ((List.dropLast_sublist _).trans (List.tail_sublist _))

/-- In an increasing list the elements of a lower set come first. -/
theorem lt_countP_iff {l : List K} (hl : l.Pairwise (· < ·)) {p : K → Bool}
    (hp : ∀ a b, a < b → p b = true → p a = true) {i : Nat} :
    i < l.countP p ↔ ∃ h : i < l.length, p l[i] = true := by
  induction l generalizing i with
  | nil => simp
  | cons a l ih =>
    obtain ⟨ha, hl⟩ := List.pairwise_cons.mp hl
    cases hpa : p a with
    | false =>
      -- nothing after the first element that is not counted is counted
      have hnone : ∀ b ∈ l, ¬ p b = true := fun b hb hpb => by
        rw [hp a b (ha b hb) hpb] at hpa
        cases hpa
      have hzero : (a :: l).countP p = 0 := by
        rw [List.countP_eq_zero]
        intro b hb
        rcases List.mem_cons.mp hb with rfl | hb
        · simp [hpa]
        · exact hnone b hb
      rw [hzero]
      refine ⟨fun h => absurd h (Nat.not_lt_zero i), fun ⟨h, hpi⟩ => ?_⟩
      exact absurd hpi (List.countP_eq_zero.mp hzero _ (List.getElem_mem h))
    | true =>
      rw [List.countP_cons_of_pos hpa]
      cases i with
      | zero => simp [hpa]
      | succ i =>
        rw [Nat.add_lt_add_iff_right, ih hl]
        simp

/-- The number of inner knots before the position. -/
def knotsBelow (knots : List K) (s : K) : Nat := (innerKnots knots).countP (· < s)

/-- The number of inner knots before the position or at it. -/
def knotsUpTo (knots : List K) (s : K) : Nat := (innerKnots knots).countP (· ≤ s)

section

variable {knots : List K} {s s' : K} {c : Nat}

theorem lt_knotsBelow (h : knots.Pairwise (· < ·)) :
    c < knotsBelow knots s ↔ ∃ hc : c + 2 < knots.length, knots[c + 1] < s := by
  rw [knotsBelow, lt_countP_iff (pairwise_innerKnots h)
    fun a b hab hb => by simpa using hab.trans (by simpa using hb)]
  constructor
  · intro ⟨hc, hlt⟩
    obtain ⟨_, hget⟩ := getElem_innerKnots hc
    rw [length_innerKnots] at hc
    exact ⟨by omega, hget ▸ of_decide_eq_true hlt⟩
  · intro ⟨hc, hlt⟩
    have hc' : c < (innerKnots knots).length := by
      rw [length_innerKnots]
      omega
    obtain ⟨_, hget⟩ := getElem_innerKnots hc'
    exact ⟨hc', decide_eq_true (hget ▸ hlt)⟩

theorem lt_knotsUpTo (h : knots.Pairwise (· < ·)) :
    c < knotsUpTo knots s ↔ ∃ hc : c + 2 < knots.length, knots[c + 1] ≤ s := by
  rw [knotsUpTo, lt_countP_iff (pairwise_innerKnots h)
    fun a b hab hb => by simpa using hab.le.trans (by simpa using hb)]
  constructor
  · intro ⟨hc, hle⟩
    obtain ⟨_, hget⟩ := getElem_innerKnots hc
    rw [length_innerKnots] at hc
    exact ⟨by omega, hget ▸ of_decide_eq_true hle⟩
  · intro ⟨hc, hle⟩
    have hc' : c < (innerKnots knots).length := by
      rw [length_innerKnots]
      omega
    obtain ⟨_, hget⟩ := getElem_innerKnots hc'
    exact ⟨hc', decide_eq_true (hget ▸ hle)⟩

theorem knotsBelow_le_knotsUpTo (knots : List K) (s : K) :
    knotsBelow knots s ≤ knotsUpTo knots s :=
  List.countP_mono_left fun a _ h => by simpa using (show a < s by simpa using h).le

theorem knotsUpTo_le (knots : List K) (s : K) : knotsUpTo knots s ≤ knots.length - 2 := by
  rw [← length_innerKnots]
  exact List.countP_le_length

/-- The segment whose start is not after the position and whose end is. -/
theorem knotsUpTo_eq (h : knots.Pairwise (· < ·)) (hc : c + 1 < knots.length)
    (hstart : c = 0 ∨ knots[c] ≤ s) (hend : c + 2 = knots.length ∨ s < knots[c + 1]) :
    knotsUpTo knots s = c := by
  refine le_antisymm (not_lt.mp fun hlt => ?_) ?_
  · obtain ⟨hc', hle⟩ := (lt_knotsUpTo h).mp hlt
    cases hend with
    | inl hlast => omega
    | inr hbefore => exact absurd hle (not_le.mpr hbefore)
  · cases hstart with
    | inl hzero => omega
    | inr hle =>
      cases c with
      | zero => exact Nat.zero_le _
      | succ c => exact (lt_knotsUpTo h).mpr ⟨hc, hle⟩

theorem knotsUpTo_mono (knots : List K) (h : s ≤ s') : knotsUpTo knots s ≤ knotsUpTo knots s' :=
  List.countP_mono_left fun q _ hq => by simpa using (show q ≤ s by simpa using hq).trans h

/-- The cursor is on a segment that has the position, or on an end segment beyond which it lies. -/
def Locates (knots : List K) (c : Nat) (s : K) : Prop :=
  knotsBelow knots s ≤ c ∧ c ≤ knotsUpTo knots s

theorem locates_knotsUpTo (knots : List K) (s : K) : Locates knots (knotsUpTo knots s) s :=
  ⟨knotsBelow_le_knotsUpTo knots s, le_rfl⟩

end

/-! ## The cursor -/

/-- The cursor moves to the next segment when the position has left this one. -/
def advance (knots : List K) (c : Nat) (s : K) : Nat :=
  if c < knotsBelow knots s then c + 1 else c

theorem advance_of_locates {knots : List K} {c : Nat} {s : K} (h : Locates knots c s) :
    advance knots c s = c :=
  if_neg (not_lt.mpr h.1)

/-- The cursor at the `k`-th position of a loop that starts at the first one. -/
def cursor (knots : List K) (pos : Nat → K) : Nat → Nat
  | 0 => knotsUpTo knots (pos 0)
  | k + 1 => advance knots (cursor knots pos k) (pos (k + 1))

/-- The inner knots after the start that the loop passes from the `j`-th position to the `k`-th. -/
def knotsPassed (knots : List K) (pos : Nat → K) (j k : Nat) : Nat :=
  (innerKnots knots).countP fun q => pos 0 < q ∧ pos j ≤ q ∧ q < pos k

/-- No stretch of positions up to the `k`-th passes more knots than it has steps. -/
def KeepsPace (knots : List K) (pos : Nat → K) (k : Nat) : Prop :=
  ∀ j ≤ k, knotsPassed knots pos j k ≤ k - j

instance (knots : List K) (pos : Nat → K) (k : Nat) : Decidable (KeepsPace knots pos k) :=
  inferInstanceAs (Decidable (∀ j ≤ k, _))

section

variable {knots : List K} {pos : Nat → K}

/-- The segment of a cursor that lost no ground. -/
def reached (knots : List K) (pos : Nat → K) : Nat → Nat
  | 0 => knotsUpTo knots (pos 0)
  | k + 1 => knotsBelow knots (pos (k + 1))

theorem knotsBelow_le_reached (k : Nat) : knotsBelow knots (pos k) ≤ reached knots pos k := by
  cases k with
  | zero => exact knotsBelow_le_knotsUpTo _ _
  | succ k => exact le_rfl

theorem reached_le_knotsUpTo (k : Nat) : reached knots pos k ≤ knotsUpTo knots (pos k) := by
  cases k with
  | zero => exact le_rfl
  | succ k => exact knotsBelow_le_knotsUpTo _ _

theorem reached_eq_add (knots : List K) (hpos : StrictMono pos) {j k : Nat} (h : j ≤ k) :
    reached knots pos k = reached knots pos j + knotsPassed knots pos j k := by
  rcases h.lt_or_eq with hlt | rfl
  · obtain ⟨k, rfl⟩ : ∃ k', k = k' + 1 := ⟨k - 1, by omega⟩
    have hjk := hpos hlt
    cases j with
    | zero =>
      refine countP_eq_add (fun q => ?_) fun q => ?_
      -- a knot at the start was reached there
      · rcases lt_or_ge (pos 0) q with hq | hq
        · simp [hq, hq.le, not_le.mpr hq]
        · simp [hq, not_lt.mpr hq, hq.trans_lt hjk]
      · rcases lt_or_ge (pos 0) q with hq | hq
        · simp [not_le.mpr hq]
        · simp [not_lt.mpr hq]
    | succ j =>
      have h0 : pos 0 < pos (j + 1) := hpos (Nat.succ_pos j)
      refine countP_eq_add (fun q => ?_) fun q => ?_
      · rcases lt_or_ge q (pos (j + 1)) with hq | hq
        · simp [hq, hq.trans hjk]
        · simp [hq, not_lt.mpr hq, h0.trans_le hq]
      · rcases lt_or_ge q (pos (j + 1)) with hq | hq
        · simp [not_le.mpr hq]
        · simp [not_lt.mpr hq]
  · have hnone : knotsPassed knots pos j j = 0 := by
      rw [knotsPassed, List.countP_eq_zero]
      intro q _ hq
      have hq := of_decide_eq_true hq
      exact absurd hq.2.2 (not_lt.mpr hq.2.1)
    rw [hnone, Nat.add_zero]

theorem cursor_le_reached (knots : List K) (hpos : StrictMono pos) (k : Nat) :
    cursor knots pos k ≤ reached knots pos k := by
  induction k with
  | zero => exact le_rfl
  | succ k ih =>
    have hstep := reached_eq_add knots hpos (Nat.le_add_right k 1)
    show advance knots _ _ ≤ _
    unfold advance
    split
    next h => exact h
    next h => omega

theorem cursor_add_le (knots : List K) (pos : Nat → K) (j m : Nat) :
    cursor knots pos (j + m) ≤ cursor knots pos j + m := by
  induction m with
  | zero => exact le_rfl
  | succ m ih =>
    have hstep : cursor knots pos (j + m + 1) ≤ cursor knots pos (j + m) + 1 := by
      show advance knots _ _ ≤ _
      unfold advance
      split <;> omega
    exact hstep.trans (by omega)

/-- The cursor has moved at every position since it last was on the segment of its position. -/
theorem exists_le_cursor (knots : List K) (pos : Nat → K) (k : Nat) :
    ∃ j ≤ k, reached knots pos j + (k - j) ≤ cursor knots pos k := by
  induction k with
  | zero => exact ⟨0, le_rfl, le_rfl⟩
  | succ k ih =>
    obtain ⟨j, hj, hle⟩ := ih
    by_cases hlag : cursor knots pos k < knotsBelow knots (pos (k + 1))
    · have hmoves : cursor knots pos (k + 1) = cursor knots pos k + 1 := if_pos hlag
      exact ⟨j, by omega, by omega⟩
    · have hstays : cursor knots pos (k + 1) = cursor knots pos k := if_neg hlag
      refine ⟨k + 1, le_rfl, ?_⟩
      show knotsBelow knots (pos (k + 1)) + (k + 1 - (k + 1)) ≤ _
      omega

/-- **The cursor is a function of the position** exactly when the loop keeps pace with the knots. -/
theorem locates_cursor_iff (hpos : StrictMono pos) (k : Nat) :
    Locates knots (cursor knots pos k) (pos k) ↔ KeepsPace knots pos k := by
  constructor
  · intro hloc j hj
    have hreached : reached knots pos k ≤ cursor knots pos k := by
      cases k with
      | zero => exact le_rfl
      | succ k => exact hloc.1
    have hadd := reached_eq_add knots hpos hj
    have hslow : cursor knots pos k ≤ cursor knots pos j + (k - j) := by
      have h := cursor_add_le knots pos j (k - j)
      rwa [Nat.add_sub_cancel' hj] at h
    have hbehind := cursor_le_reached knots hpos j
    omega
  · intro hpace
    obtain ⟨j, hj, hle⟩ := exists_le_cursor knots pos k
    have hadd := reached_eq_add knots hpos hj
    have hpassed := hpace j hj
    exact ⟨(knotsBelow_le_reached k).trans (by omega),
      (cursor_le_reached knots hpos k).trans (reached_le_knotsUpTo k)⟩

/-- A cursor that is not on it has fallen behind. -/
theorem cursor_lt_of_not_locates (hpos : StrictMono pos) {k : Nat}
    (h : ¬ Locates knots (cursor knots pos k) (pos k)) :
    cursor knots pos k < knotsBelow knots (pos k) := by
  by_contra hge
  exact h ⟨not_lt.mp hge, (cursor_le_reached knots hpos k).trans (reached_le_knotsUpTo k)⟩

end

end Knots

/-! ## Loops over integers -/

/-- Increasing integers in an interval are no more than the interval has. -/
theorem countP_interval_le {l : List Int} (hl : l.Pairwise (· < ·)) {p : Int → Bool} {a b : Int}
    (hp : ∀ q, p q = true → a ≤ q ∧ q < b) : l.countP p ≤ (b - a).toNat := by
  have hnodup : (l.filter p).Nodup := (hl.imp fun h => ne_of_lt h).filter _
  have hsub : l.filter p ⊆ intRange a b := fun q hq =>
    mem_intRange.mpr (hp q (List.mem_filter.mp hq).2)
  rw [List.countP_eq_length_filter, ← length_intRange]
  exact (List.subperm_of_subset hnodup hsub).length_le

/-- Integer knots visited integer by integer: the loop always keeps pace. -/
theorem keepsPace_int {knots : List Int} (h : knots.Pairwise (· < ·)) (first : Int) (k : Nat) :
    KeepsPace knots (fun i => first + i) k := by
  intro j hj
  refine (countP_interval_le (pairwise_innerKnots h) (a := first + j) (b := first + k)
    fun q hq => ?_).trans (by omega)
  have hq := of_decide_eq_true hq
  exact ⟨hq.2.1, hq.2.2⟩

section Linear

variable {T : Type*} [Field T]

/-- The line through two points. -/
def lerp (t1 t2 v1 v2 t : T) : T := v1 + (t - t1) / (t2 - t1) * (v2 - v1)

theorem lerp_left (t1 t2 v1 v2 : T) : lerp t1 t2 v1 v2 t1 = v1 := by
  simp [lerp]

theorem lerp_right {t1 t2 : T} (h : t1 ≠ t2) (v1 v2 : T) : lerp t1 t2 v1 v2 t2 = v2 := by
  rw [lerp, div_self (sub_ne_zero.mpr h.symm), one_mul, add_sub_cancel]

theorem lerp_const (t1 t2 v t : T) : lerp t1 t2 v v t = v := by
  simp [lerp]

theorem lerp_affine {t1 t2 : T} (h : t1 ≠ t2) (a b t : T) :
    lerp t1 t2 (a + b * t1) (a + b * t2) t = a + b * t := by
  have hne : t2 - t1 ≠ 0 := sub_ne_zero.mpr h.symm
  rw [lerp]
  field_simp
  ring

end Linear

section Field

variable {T : Type*} [Field T] [LinearOrder T] [IsStrictOrderedRing T]

theorem locates_map_intCast {knots : List Int} {c : Nat} {s : Int} :
    Locates (knots.map (Int.cast : Int → T)) c (s : T) ↔ Locates knots c s := by
  have hinner : innerKnots (knots.map (Int.cast : Int → T)) = (innerKnots knots).map Int.cast := by
    rw [innerKnots, innerKnots, ← List.map_tail, List.map_dropLast]
  simp only [Locates, knotsBelow, knotsUpTo, hinner, List.countP_map, Function.comp_def,
    Int.cast_lt, Int.cast_le]

/-! ## Linear interpolation -/

/-- The line of the segment from knot `c` to the next. -/
def onSegment (knots values : List T) (c : Nat) (t : T) : T :=
  lerp (knots.getD c 0) (knots.getD (c + 1) 0) (values.getD c 0) (values.getD (c + 1) 0) t

/-- The piecewise linear function through the knots; a constant when there is one knot. -/
def interpolant (knots values : List T) (t : T) : T :=
  if knots.length < 2 then values.headD 0 else onSegment knots values (knotsUpTo knots t) t

omit [IsStrictOrderedRing T] in
@[simp] theorem interpolant_singleton (q v t : T) : interpolant [q] [v] t = v := by
  simp [interpolant]

omit [IsStrictOrderedRing T] in
theorem interpolant_const {knots : List T} (h : knots ≠ []) (v t : T) :
    interpolant knots (knots.map fun _ => v) t = v := by
  have hpos : 0 < knots.length := List.length_pos_iff.mpr h
  have hvalue : ∀ i, i < knots.length → (knots.map fun _ => v).getD i 0 = v := fun i hi => by
    rw [List.getD_eq_getElem _ _ (by rwa [List.length_map]), List.getElem_map]
  have hlast := knotsUpTo_le knots t
  rw [interpolant]
  split
  next =>
    obtain ⟨q, rest, rfl⟩ := List.exists_cons_of_ne_nil h
    rfl
  next hlen =>
    rw [onSegment, hvalue _ (by omega), hvalue _ (by omega), lerp_const]

omit [IsStrictOrderedRing T] in
/-- Every segment that has the position gives the same value: two of them meet at a knot. -/
theorem onSegment_eq_interpolant {knots : List T} (h : knots.Pairwise (· < ·))
    (hlen : 2 ≤ knots.length) (values : List T) {c : Nat} {t : T} (hloc : Locates knots c t) :
    onSegment knots values c t = interpolant knots values t := by
  rw [interpolant, if_neg (by omega)]
  rcases hloc.2.lt_or_eq with hlt | rfl
  · obtain ⟨hc, hle⟩ := (lt_knotsUpTo h).mp hlt
    have hnext : knots[c + 1] = t := by
      refine le_antisymm hle (not_lt.mp fun hbelow => ?_)
      exact absurd ((lt_knotsBelow h).mpr ⟨hc, hbelow⟩) (not_lt.mpr hloc.1)
    have hseg : knotsUpTo knots t = c + 1 := by
      refine le_antisymm (not_lt.mp fun hmore => ?_) hlt
      obtain ⟨hc', hle'⟩ := (lt_knotsUpTo h).mp hmore
      have hinc : knots[c + 1] < knots[c + 2] := List.pairwise_iff_getElem.mp h _ _ _ _ (by omega)
      exact absurd (hinc.trans_le hle') (not_lt.mpr hnext.ge)
    have hne : knots[c] ≠ knots[c + 1] :=
      (List.pairwise_iff_getElem.mp h _ _ _ _ (Nat.lt_succ_self c)).ne
    rw [hseg, onSegment, onSegment, List.getD_eq_getElem _ _ (by omega : c < knots.length),
      List.getD_eq_getElem _ _ (by omega : c + 1 < knots.length), ← hnext, lerp_right hne,
      lerp_left]
  · rfl

omit [IsStrictOrderedRing T] in
/-- An affine function is interpolated exactly, also beyond the ends. -/
theorem interpolant_affine {knots : List T} (h : knots.Pairwise (· < ·)) (hlen : 2 ≤ knots.length)
    (a b t : T) : interpolant knots (knots.map fun q => a + b * q) t = a + b * t := by
  have hlast := knotsUpTo_le knots t
  have hvalue : ∀ i, i < knots.length →
      (knots.map fun q => a + b * q).getD i 0 = a + b * knots.getD i 0 := fun i hi => by
    rw [List.getD_eq_getElem _ _ (by rwa [List.length_map]), List.getElem_map,
      List.getD_eq_getElem _ _ hi]
  have hne : knots.getD (knotsUpTo knots t) 0 ≠ knots.getD (knotsUpTo knots t + 1) 0 := by
    rw [List.getD_eq_getElem _ _ (by omega), List.getD_eq_getElem _ _ (by omega)]
    exact (List.pairwise_iff_getElem.mp h _ _ _ _ (Nat.lt_succ_self _)).ne
  rw [interpolant, if_neg (by omega), onSegment, hvalue _ (by omega), hvalue _ (by omega)]
  exact lerp_affine hne a b t

/-- The function that is zero up to the knot `c` and one from the next on. -/
def stepAfter (knots : List T) (c : Nat) (q : T) : T :=
  if q ≤ knots.getD c 0 then 0 else 1

/-- A cursor that has fallen behind reads another line than the position's. -/
theorem onSegment_ne_interpolant {knots : List T} (h : knots.Pairwise (· < ·)) {c : Nat} {t : T}
    (hlag : c < knotsBelow knots t) :
    onSegment knots (knots.map (stepAfter knots (c + 1))) c t ≠
      interpolant knots (knots.map (stepAfter knots (c + 1))) t := by
  obtain ⟨hc, hlt⟩ := (lt_knotsBelow h).mp hlag
  have hvalue : ∀ i, (hi : i < knots.length) →
      (knots.map (stepAfter knots (c + 1))).getD i 0 = if i ≤ c + 1 then 0 else 1 := by
    intro i hi
    rw [List.getD_eq_getElem _ _ (by simpa using hi), List.getElem_map, stepAfter,
      List.getD_eq_getElem _ _ (by omega : c + 1 < knots.length)]
    refine if_congr ?_ rfl rfl
    constructor
    · intro hle
      by_contra hgt
      exact absurd (List.pairwise_iff_getElem.mp h _ _ _ _ (by omega)) (not_lt.mpr hle)
    · intro hle
      rcases hle.lt_or_eq with hlt | rfl
      · exact (List.pairwise_iff_getElem.mp h _ _ _ _ hlt).le
      · exact le_rfl
  set j := knotsUpTo knots t with hj
  have hjlow : c + 1 ≤ j := hlag.trans_le (knotsBelow_le_knotsUpTo knots t)
  have hjhigh : j ≤ knots.length - 2 := knotsUpTo_le knots t
  -- the segment that was left ends where the function starts to rise
  have hbehind : onSegment knots (knots.map (stepAfter knots (c + 1))) c t = 0 := by
    rw [onSegment, hvalue c (by omega), hvalue (c + 1) (by omega), if_pos (by omega),
      if_pos le_rfl, lerp_const]
  rw [hbehind, interpolant, if_neg (by omega), onSegment, ← hj, hvalue j (by omega),
    hvalue (j + 1) (by omega), if_neg (by omega : ¬ j + 1 ≤ c + 1)]
  rcases hjlow.lt_or_eq with hlater | heq
  · rw [if_neg (by omega), lerp_const]
    exact zero_ne_one
  -- the position is after the knot at which the function starts to rise
  · rw [if_pos (by omega), lerp, zero_add, sub_zero, mul_one,
      List.getD_eq_getElem _ _ (by omega : j < knots.length),
      List.getD_eq_getElem _ _ (by omega : j + 1 < knots.length)]
    have hinc : knots[j] < knots[j + 1] :=
      List.pairwise_iff_getElem.mp h _ _ _ _ (Nat.lt_succ_self j)
    have hpast : knots[j] < t := by
      simpa only [← heq] using hlt
    exact (div_pos (sub_pos.mpr hpast) (sub_pos.mpr hinc)).ne

end Field

end Alus.Lib
