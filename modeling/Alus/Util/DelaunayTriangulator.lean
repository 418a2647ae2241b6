import Mathlib.Algebra.Order.Ring.Rat
import Alus.Lib.StdSort

/-!
# The points of a triangulation

`TriangulateCPU2` (`exotic-operations/src/delaunay_triangulator.cc`) sorts the valid points before
they are triangulated. Its comparison is true of a point and itself, so it is the order "not after"
and no strict one, on which `std::sort` is not defined. It agrees with the strict order on points
with different coordinates, and an implementation that compares nothing else sorts them.

A coordinate is a number. The triangulator is a parameter.
-/

namespace Alus.Util

open Alus.Lib

structure PointDouble (D : Type) where
  x : D
  y : D
  index : Nat
  deriving DecidableEq, Repr

section Model

variable {D : Type} [LinearOrder D] [Mul D]

/-- The points whose coordinates are both valid. -/
def validPoints (xCoords : Nat → D) (xMultiplier : D) (yCoords : Nat → D) (yMultiplier : D)
    (size : Nat) (invalidIndex : D) : List (PointDouble D) :=
  (List.range size).filterMap fun i =>
    if xCoords i ≠ invalidIndex ∧ yCoords i ≠ invalidIndex then
      some ⟨xCoords i * xMultiplier, yCoords i * yMultiplier, i⟩
    else none

omit [Mul D] in
/-- The comparison that the points are sorted by. -/
def comparePoints (p1 p2 : PointDouble D) : Bool :=
  if p1.x < p2.x then true
  else if p1.x > p2.x then false
  else if p1.y < p2.y then true
  else if p1.y > p2.y then false
  else true

/-- `TriangulateCPU2`, with what `SnapDelaunayTriangulator` makes of the points. -/
def triangulateCpu2 {T : Type} (impl : SortImpl (PointDouble D))
    (triangulate : List (PointDouble D) → Outcome (List T)) (xCoords : Nat → D) (xMultiplier : D)
    (yCoords : Nat → D) (yMultiplier : D) (size : Nat) (invalidIndex : D) : Outcome (List T) := do
  let points := validPoints xCoords xMultiplier yCoords yMultiplier size invalidIndex
  let points ← stdSort impl comparePoints points
  triangulate points

end Model

/-! ## Sorting by a strict order -/

section Property

variable {D : Type}

def PointDouble.coords (p : PointDouble D) : D × D := (p.x, p.y)

/-- The pairs that both arrays have. -/
def coordinates (xCoords yCoords : Nat → D) (size : Nat) : List (D × D) :=
  (List.range size).map fun i => (xCoords i, yCoords i)

variable [LinearOrder D]

/-- One point does not come behind another by `x` and then `y`. -/
def NotBehind (p q : PointDouble D) : Prop := p.x < q.x ∨ (p.x = q.x ∧ p.y ≤ q.y)

variable [Mul D]

/-- The triangulator receives these points. -/
def Receives (impl : SortImpl (PointDouble D)) (xCoords : Nat → D) (xMultiplier : D)
    (yCoords : Nat → D) (yMultiplier : D) (size : Nat) (invalidIndex : D)
    (received : List (PointDouble D)) : Prop :=
  ∀ (T : Type) (triangulate : List (PointDouble D) → Outcome (List T)),
    triangulateCpu2 impl triangulate xCoords xMultiplier yCoords yMultiplier size invalidIndex =
      triangulate received

/-- The comparison is a strict weak order on the valid points, the triangulator receives each of
them once and in order, and other orders of the same input make no difference. -/
structure SortsStrictly (impl : SortImpl (PointDouble D)) (xCoords : Nat → D) (xMultiplier : D)
    (yCoords : Nat → D) (yMultiplier : D) (size : Nat) (invalidIndex : D) : Prop where
  order : StrictWeak comparePoints
    (validPoints xCoords xMultiplier yCoords yMultiplier size invalidIndex)
  receives : ∃ received,
    Receives impl xCoords xMultiplier yCoords yMultiplier size invalidIndex received ∧
      received.Perm (validPoints xCoords xMultiplier yCoords yMultiplier size invalidIndex) ∧
      received.Pairwise NotBehind
  anyOrder : ∀ xCoords' yCoords',
    (coordinates xCoords' yCoords' size).Perm (coordinates xCoords yCoords size) →
    ∃ received received',
      Receives impl xCoords xMultiplier yCoords yMultiplier size invalidIndex received ∧
      Receives impl xCoords' xMultiplier yCoords' yMultiplier size invalidIndex received' ∧
      received'.map PointDouble.coords = received.map PointDouble.coords

end Property

/-! ## The comparison -/

section Comparison

variable {D : Type} [LinearOrder D]

/-- The comparison is true of all points that are not behind each other. -/
theorem comparePoints_eq_true {p q : PointDouble D} :
    comparePoints p q = true ↔ NotBehind p q := by
  unfold comparePoints NotBehind
  split
  · next hx => simp [hx]
  · split
    · next hx hx' => simp [hx, hx'.ne']
    · next hx hx' =>
      have heq : p.x = q.x := le_antisymm (not_lt.mp hx') (not_lt.mp hx)
      split
      · next hy => simp [heq, hy.le]
      · split
        · next hy hy' => simp [heq, hy']
        · next hy hy' => simp [heq, not_lt.mp hy']

/-- It is true of a point and itself. -/
theorem comparePoints_self (p : PointDouble D) : comparePoints p p = true :=
  comparePoints_eq_true.mpr (.inr ⟨rfl, le_refl p.y⟩)

/-- The strict order. -/
def lexLess (p q : PointDouble D) : Bool := decide (p.x < q.x ∨ (p.x = q.x ∧ p.y < q.y))

/-- Points with different coordinates are compared by the strict order. -/
theorem comparePoints_eq_lexLess {p q : PointDouble D} (h : p.coords ≠ q.coords) :
    comparePoints p q = lexLess p q := by
  rw [Bool.eq_iff_iff, comparePoints_eq_true, lexLess, decide_eq_true_eq, NotBehind]
  have hne : p.x = q.x → p.y ≠ q.y := fun hx hy => h (Prod.ext hx hy)
  constructor
  · intro hle
    cases hle with
    | inl hx => exact .inl hx
    | inr hy => exact .inr ⟨hy.1, lt_of_le_of_ne hy.2 (hne hy.1)⟩
  · intro hlt
    cases hlt with
    | inl hx => exact .inl hx
    | inr hy => exact .inr ⟨hy.1, hy.2.le⟩

theorem lexLess_eq_false {p q : PointDouble D} : lexLess p q = false ↔ NotBehind q p := by
  rw [lexLess, decide_eq_false_iff_not, NotBehind]
  constructor
  · intro h
    push Not at h
    cases lt_or_eq_of_le h.1 with
    | inl hx => exact .inl hx
    | inr hx => exact .inr ⟨hx, h.2 hx.symm⟩
  · intro h hlt
    cases h with
    | inl hx =>
      cases hlt with
      | inl hx' => exact lt_asymm hx hx'
      | inr hy => exact absurd hy.1.symm hx.ne
    | inr hy =>
      cases hlt with
      | inl hx' => exact absurd hy.1.symm hx'.ne
      | inr hy' => exact not_lt.mpr hy.2 hy'.2

/-- An order of the second coordinate, behind that of the first. -/
theorem lex_trans (rel : D → D → Prop) (hrel : ∀ a b c, rel a b → rel b c → rel a c)
    {p q r : PointDouble D} (h : p.x < q.x ∨ p.x = q.x ∧ rel p.y q.y)
    (h' : q.x < r.x ∨ q.x = r.x ∧ rel q.y r.y) : p.x < r.x ∨ p.x = r.x ∧ rel p.y r.y := by
  cases h with
  | inl hx =>
    cases h' with
    | inl hx' => exact .inl (hx.trans hx')
    | inr hy' => exact .inl (hx.trans_eq hy'.1)
  | inr hy =>
    cases h' with
    | inl hx' => exact .inl (hy.1.trans_lt hx')
    | inr hy' => exact .inr ⟨hy.1.trans hy'.1, hrel _ _ _ hy.2 hy'.2⟩

theorem NotBehind.trans {p q r : PointDouble D} (h : NotBehind p q) (h' : NotBehind q r) :
    NotBehind p r :=
  lex_trans (· ≤ ·) (fun _ _ _ => le_trans) h h'

theorem NotBehind.antisymm {p q : PointDouble D} (h : NotBehind p q) (h' : NotBehind q p) :
    p.coords = q.coords := by
  cases h with
  | inl hx =>
    cases h' with
    | inl hx' => exact absurd hx' (lt_asymm hx)
    | inr hy' => exact absurd hy'.1.symm hx.ne
  | inr hy =>
    cases h' with
    | inl hx' => exact absurd hy.1.symm hx'.ne
    | inr hy' => exact Prod.ext hy.1 (le_antisymm hy.2 hy'.2)

theorem lexLess_strictWeak (l : List (PointDouble D)) : StrictWeak lexLess l where
  irrefl p _ := lexLess_eq_false.mpr (.inr ⟨rfl, le_refl p.y⟩)
  asymm p _ q _ h := by
    have h := of_decide_eq_true h
    apply lexLess_eq_false.mpr
    cases h with
    | inl hx => exact .inl hx
    | inr hy => exact .inr ⟨hy.1, hy.2.le⟩
  trans p _ q _ r _ h h' := by
    have h := of_decide_eq_true h
    have h' := of_decide_eq_true h'
    exact decide_eq_true (lex_trans (· < ·) (fun _ _ _ => lt_trans) h h')
  incomp p _ q _ r _ h h' := by
    simp only [lexLess_eq_false] at h h' ⊢
    exact ⟨h'.1.trans h.1, h.2.trans h'.2⟩

end Comparison

/-! ## The points received -/

section Received

variable {D : Type} [LinearOrder D] [Mul D] {impl : SortImpl (PointDouble D)}
  {xCoords yCoords : Nat → D} {xMultiplier yMultiplier : D} {size : Nat} {invalidIndex : D}

/-- The coordinates of the valid points are made of the pairs of the input. -/
theorem map_coords_validPoints :
    (validPoints xCoords xMultiplier yCoords yMultiplier size invalidIndex).map PointDouble.coords =
      (coordinates xCoords yCoords size).filterMap fun c =>
        if c.1 ≠ invalidIndex ∧ c.2 ≠ invalidIndex then
          some (c.1 * xMultiplier, c.2 * yMultiplier)
        else none := by
  rw [validPoints, coordinates, List.map_filterMap, List.filterMap_map]
  apply List.filterMap_congr
  intro i _
  by_cases hvalid : xCoords i ≠ invalidIndex ∧ yCoords i ≠ invalidIndex
  · rw [if_pos hvalid, Function.comp_apply, if_pos hvalid]
    rfl
  · rw [if_neg hvalid, Function.comp_apply, if_neg hvalid]
    rfl

/-- Another order of the input has the same points but for their indices. -/
theorem perm_coords_validPoints {xCoords' yCoords' : Nat → D}
    (h : (coordinates xCoords' yCoords' size).Perm (coordinates xCoords yCoords size)) :
    ((validPoints xCoords' xMultiplier yCoords' yMultiplier size invalidIndex).map
      PointDouble.coords).Perm
      ((validPoints xCoords xMultiplier yCoords yMultiplier size invalidIndex).map
        PointDouble.coords) := by
  rw [map_coords_validPoints, map_coords_validPoints]
  exact h.filterMap _

/-- Without valid points nothing is received. -/
theorem receives_nil
    (h : validPoints xCoords xMultiplier yCoords yMultiplier size invalidIndex = []) :
    Receives impl xCoords xMultiplier yCoords yMultiplier size invalidIndex [] := by
  intro T triangulate
  rw [triangulateCpu2, h, stdSort_eq_ok.mpr ⟨strictWeak_nil _, impl.run_nil _⟩]
  rfl

omit [Mul D] in
/-- Where the points are different, an implementation that does not compare a point with itself
sorts them as by the strict order. -/
theorem run_of_distinct (hapart : impl.ComparesApart) {points : List (PointDouble D)}
    (hdistinct : (points.map PointDouble.coords).Nodup) :
    impl.run comparePoints points = impl.run lexLess points := by
  apply hapart
  apply (List.pairwise_map.mp hdistinct).imp
  intro p q hne
  exact ⟨comparePoints_eq_lexLess hne, comparePoints_eq_lexLess hne.symm⟩

omit [Mul D] in
/-- It makes each point come once, and in order. -/
theorem run_sorted (hapart : impl.ComparesApart) {points : List (PointDouble D)}
    (hdistinct : (points.map PointDouble.coords).Nodup) :
    (impl.run comparePoints points).Perm points ∧
      (impl.run comparePoints points).Pairwise NotBehind := by
  rw [run_of_distinct hapart hdistinct]
  refine ⟨impl.perm _ _ (lexLess_strictWeak points), ?_⟩
  apply (impl.sorted _ _ (lexLess_strictWeak points)).imp
  intro p q h
  exact lexLess_eq_false.mp h

omit [Mul D] in
/-- And it makes the same of the same points in another order. -/
theorem run_anyOrder (hapart : impl.ComparesApart) {points points' : List (PointDouble D)}
    (hdistinct : (points.map PointDouble.coords).Nodup)
    (hperm : (points'.map PointDouble.coords).Perm (points.map PointDouble.coords)) :
    (impl.run comparePoints points').map PointDouble.coords =
      (impl.run comparePoints points).map PointDouble.coords := by
  obtain ⟨hsame, hsorted⟩ := run_sorted hapart hdistinct
  obtain ⟨hsame', hsorted'⟩ := run_sorted hapart (hperm.nodup_iff.mpr hdistinct)
  let behind : D × D → D × D → Prop := fun c c' => c.1 < c'.1 ∨ (c.1 = c'.1 ∧ c.2 ≤ c'.2)
  have hcoords : ∀ l : List (PointDouble D), l.Pairwise NotBehind →
      (l.map PointDouble.coords).Pairwise behind := by
    intro l hl
    exact List.pairwise_map.mpr hl
  apply List.Perm.eq_of_pairwise _ (hcoords _ hsorted') (hcoords _ hsorted)
  · exact (hsame'.map _).trans (hperm.trans (hsame.map _).symm)
  · intro c c' _ _ h h'
    exact NotBehind.antisymm (p := ⟨c.1, c.2, 0⟩) (q := ⟨c'.1, c'.2, 0⟩) h h'

theorem validPoints_eq_nil :
    validPoints xCoords xMultiplier yCoords yMultiplier size invalidIndex = [] ↔
      ∀ i < size, xCoords i = invalidIndex ∨ yCoords i = invalidIndex := by
  rw [validPoints, List.filterMap_eq_nil_iff]
  simp only [List.mem_range]
  refine forall₂_congr fun i _ => ?_
  split
  · next hvalid => simp [hvalid.1, hvalid.2]
  · next hvalid => simpa [or_iff_not_imp_left] using hvalid

/-- A point that is valid is not before itself. -/
theorem SortsStrictly.validPoints_eq
    (h : SortsStrictly impl xCoords xMultiplier yCoords yMultiplier size invalidIndex) :
    validPoints xCoords xMultiplier yCoords yMultiplier size invalidIndex = [] := by
  apply List.eq_nil_iff_forall_not_mem.mpr
  intro p hp
  have hself := h.order.irrefl p hp
  rw [comparePoints_self] at hself
  cases hself

/-- **When the comparison is a strict order.** It is true of every point and itself, so it is one
where there is no valid point. -/
theorem sortsStrictly_iff (impl : SortImpl (PointDouble D)) (xCoords : Nat → D) (xMultiplier : D)
    (yCoords : Nat → D) (yMultiplier : D) (size : Nat) (invalidIndex : D) :
    SortsStrictly impl xCoords xMultiplier yCoords yMultiplier size invalidIndex ↔
      ∀ i < size, xCoords i = invalidIndex ∨ yCoords i = invalidIndex := by
  rw [← validPoints_eq_nil]
  constructor
  · intro h
    exact h.validPoints_eq
  · intro hnone
    refine ⟨?_, ⟨[], receives_nil hnone, ?_, .nil⟩, fun xCoords' yCoords' hperm => ?_⟩
    · rw [hnone]
      exact strictWeak_nil _
    · rw [hnone]
    -- another order of the input has no valid points either
    · have hcoords : ((validPoints xCoords' xMultiplier yCoords' yMultiplier size
          invalidIndex).map PointDouble.coords).Perm
          ((validPoints xCoords xMultiplier yCoords yMultiplier size invalidIndex).map
            PointDouble.coords) := perm_coords_validPoints hperm
      rw [hnone] at hcoords
      have hnone' := List.map_eq_nil_iff.mp hcoords.eq_nil
      exact ⟨[], [], receives_nil hnone, receives_nil hnone', rfl⟩

/-- Two points of the same coordinates. -/
theorem not_sortsStrictly_coincident :
    ¬ SortsStrictly SortImpl.byMerge (fun _ => (0 : ℚ)) 1 (fun _ => 0) 1 2 (-9999) := by
  intro h
  have hnone := validPoints_eq_nil.mp h.validPoints_eq 0 (by decide)
  revert hnone
  decide

end Received

end Alus.Util
