import Mathlib.Algebra.Order.Field.Basic
import Mathlib.Tactic.FieldSimp
import Mathlib.Tactic.Linarith
import Mathlib.Tactic.LinearCombination
import Mathlib.Tactic.Positivity
import Mathlib.Tactic.Ring
import Alus.Lib.Numerals

/-!
# Triangles of the plane

A point is weighed against the vertices of a triangle by the signed areas that it spans with the
edges. Multiplied by the area of the triangle, the weights do not depend on the orientation: they
are nonnegative on the triangle and positive inside, and they interpolate whatever is affine. Two
triangles whose insides are apart do not meet inside either of them.
-/

namespace Alus.Lib

/-- Three things in an order. -/
structure Triple (α : Type) where
  a : α
  b : α
  c : α
  deriving DecidableEq, Repr

namespace Triple

variable {α β : Type}

def map (f : α → β) (t : Triple α) : Triple β := ⟨f t.a, f t.b, f t.c⟩

def Forall (p : α → Prop) (t : Triple α) : Prop := p t.a ∧ p t.b ∧ p t.c

instance {p : α → Prop} [DecidablePred p] (t : Triple α) : Decidable (t.Forall p) :=
  inferInstanceAs (Decidable (_ ∧ _))

/-- The same three things in another order: a swap of the first two and a rotation give all six
orders. -/
inductive Reordered : Triple α → Triple α → Prop
  | refl (t : Triple α) : Reordered t t
  | swap (t : Triple α) : Reordered t ⟨t.b, t.a, t.c⟩
  | rotate (t : Triple α) : Reordered t ⟨t.b, t.c, t.a⟩
  | trans {t t' t'' : Triple α} : Reordered t t' → Reordered t' t'' → Reordered t t''

/-- What a swap and a rotation keep is kept by all orders. -/
theorem Reordered.eq_of {γ : Type*} {f : Triple α → γ}
    (hswap : ∀ t : Triple α, f ⟨t.b, t.a, t.c⟩ = f t)
    (hrotate : ∀ t : Triple α, f ⟨t.b, t.c, t.a⟩ = f t) {t t' : Triple α} (h : Reordered t t') :
    f t' = f t := by
  induction h with
  | refl t => rfl
  | swap t => exact hswap t
  | rotate t => exact hrotate t
  | trans _ _ ih ih' => exact ih'.trans ih

theorem Reordered.map (f : α → β) {t t' : Triple α} (h : Reordered t t') :
    Reordered (t.map f) (t'.map f) := by
  induction h with
  | refl t => exact .refl _
  | swap t => exact .swap (t.map f)
  | rotate t => exact .rotate (t.map f)
  | trans _ _ ih ih' => exact ih.trans ih'

theorem Reordered.forall_iff {p : α → Prop} {t t' : Triple α} (h : Reordered t t') :
    t'.Forall p ↔ t.Forall p := by
  refine iff_of_eq (h.eq_of (f := fun t => t.Forall p) (fun t => ?_) fun t => ?_)
  · exact propext and_left_comm
  · exact propext (and_rotate (a := p t.a)).symm

end Triple

section Weights

variable {T : Type} [Field T]

/-- Twice the signed area of the triangle `p`, `q`, `r`. -/
def cross (p q r : T × T) : T := (q.1 - p.1) * (r.2 - p.2) - (r.1 - p.1) * (q.2 - p.2)

theorem cross_rotate (p q r : T × T) : cross q r p = cross p q r := by
  simp only [cross]
  ring

namespace Triple

def area (t : Triple (T × T)) : T := cross t.a t.b t.c

/-- The areas that `p` spans with the edges opposite to the vertices. -/
def weights (t : Triple (T × T)) (p : T × T) : Triple T :=
  ⟨cross p t.b t.c, cross t.a p t.c, cross t.a t.b p⟩

variable {t t' : Triple (T × T)}

theorem weights_sum (t : Triple (T × T)) (p : T × T) :
    (t.weights p).a + (t.weights p).b + (t.weights p).c = t.area := by
  simp only [weights, area, cross]
  ring

/-- The weights reproduce what is affine. -/
theorem weights_affine (t : Triple (T × T)) (p : T × T) (k l m : T) :
    (t.weights p).a * (k * t.a.1 + l * t.a.2 + m) + (t.weights p).b * (k * t.b.1 + l * t.b.2 + m) +
      (t.weights p).c * (k * t.c.1 + l * t.c.2 + m) = t.area * (k * p.1 + l * p.2 + m) := by
  simp only [weights, area, cross]
  ring

theorem area_swap (t : Triple (T × T)) : area ⟨t.b, t.a, t.c⟩ = -t.area := by
  simp only [area, cross]
  ring

theorem area_rotate (t : Triple (T × T)) : area ⟨t.b, t.c, t.a⟩ = t.area := by
  simp only [area, cross]
  ring

theorem weights_swap (t : Triple (T × T)) (p : T × T) : weights ⟨t.b, t.a, t.c⟩ p =
    ⟨-(t.weights p).b, -(t.weights p).a, -(t.weights p).c⟩ := by
  simp only [weights, cross, mk.injEq]
  refine ⟨?_, ?_, ?_⟩ <;> ring

theorem weights_rotate (t : Triple (T × T)) (p : T × T) : weights ⟨t.b, t.c, t.a⟩ p =
    ⟨(t.weights p).b, (t.weights p).c, (t.weights p).a⟩ := by
  simp only [weights, cross, mk.injEq]
  refine ⟨?_, ?_, ?_⟩ <;> ring

/-- The point that divides the way from `p` to `q` at `e`. -/
def between (e : T) (p q : T × T) : T × T :=
  ((1 - e) * p.1 + e * q.1, (1 - e) * p.2 + e * q.2)

theorem weights_between (t : Triple (T × T)) (e : T) (p q : T × T) : t.weights (between e p q) =
    ⟨(1 - e) * (t.weights p).a + e * (t.weights q).a,
      (1 - e) * (t.weights p).b + e * (t.weights q).b,
      (1 - e) * (t.weights p).c + e * (t.weights q).c⟩ := by
  simp only [weights, between, cross, mk.injEq]
  refine ⟨?_, ?_, ?_⟩ <;> ring

def centre (t : Triple (T × T)) : T × T :=
  ((t.a.1 + t.b.1 + t.c.1) / 3, (t.a.2 + t.b.2 + t.c.2) / 3)

theorem weights_centre [CharZero T] (t : Triple (T × T)) :
    t.weights t.centre = ⟨t.area / 3, t.area / 3, t.area / 3⟩ := by
  simp only [weights, centre, area, cross, mk.injEq]
  refine ⟨?_, ?_, ?_⟩ <;> ring

theorem Reordered.area_ne_zero (h : Reordered t t') : t'.area ≠ 0 ↔ t.area ≠ 0 := by
  refine iff_of_eq (h.eq_of (f := fun t => t.area ≠ 0) (fun t => ?_) fun t => ?_)
  · rw [area_swap, neg_ne_zero]
  · rw [area_rotate]

/-- The products of the area and the weights do not depend on the orientation. -/
theorem Reordered.scaledWeights {P : T → Prop} (h : Reordered t t') (p : T × T) :
    ((t'.weights p).Forall fun w => P (t'.area * w)) ↔
      (t.weights p).Forall fun w => P (t.area * w) := by
  refine iff_of_eq (h.eq_of (f := fun t => (t.weights p).Forall fun w => P (t.area * w))
    (fun t => propext ?_) fun t => propext ?_)
  · rw [area_swap, weights_swap]
    simp only [Forall, neg_mul_neg]
    exact and_left_comm
  · rw [area_rotate, weights_rotate]
    exact and_rotate.symm

/-- The value at `p` of the plane through three points over the vertices. -/
def planeAt (s : Triple ((T × T) × T)) (p : T × T) : T :=
  (((s.map Prod.fst).weights p).a * s.a.2 + ((s.map Prod.fst).weights p).b * s.b.2 +
    ((s.map Prod.fst).weights p).c * s.c.2) / (s.map Prod.fst).area

theorem planeAt_eq {s : Triple ((T × T) × T)} (harea : (s.map Prod.fst).area ≠ 0) {k l m : T}
    (hplane : s.Forall fun v => k * v.1.1 + l * v.1.2 + m = v.2) (p : T × T) :
    s.planeAt p = k * p.1 + l * p.2 + m := by
  obtain ⟨ha, hb, hc⟩ := hplane
  have haffine := weights_affine (s.map Prod.fst) p k l m
  rw [planeAt, div_eq_iff harea, ← ha, ← hb, ← hc]
  exact haffine.trans (mul_comm _ _)

theorem Reordered.planeAt_eq {s s' : Triple ((T × T) × T)} (h : Reordered s s') (p : T × T) :
    s'.planeAt p = s.planeAt p := by
  refine h.eq_of (f := fun s => s.planeAt p) (fun s => ?_) fun s => ?_
  · have harea := area_swap (s.map Prod.fst)
    have hweights := weights_swap (s.map Prod.fst) p
    simp only [Triple.map] at harea hweights
    simp only [planeAt, Triple.map, harea, hweights]
    rw [← neg_div_neg_eq, neg_neg]
    congr 1
    ring
  · have harea := area_rotate (s.map Prod.fst)
    have hweights := weights_rotate (s.map Prod.fst) p
    simp only [Triple.map] at harea hweights
    simp only [planeAt, Triple.map, harea, hweights]
    congr 1
    ring

end Triple

end Weights

section Order

variable {T : Type} [Field T] [LinearOrder T]

namespace Triple

/-- `p` is on the triangle. -/
def Closed (t : Triple (T × T)) (p : T × T) : Prop :=
  (t.weights p).Forall fun w => 0 ≤ t.area * w

/-- `p` is on the triangle, and on none of its edges. -/
def Interior (t : Triple (T × T)) (p : T × T) : Prop :=
  (t.weights p).Forall fun w => 0 < t.area * w

instance (t : Triple (T × T)) (p : T × T) : Decidable (t.Closed p) :=
  inferInstanceAs (Decidable (Triple.Forall _ _))

instance (t : Triple (T × T)) (p : T × T) : Decidable (t.Interior p) :=
  inferInstanceAs (Decidable (Triple.Forall _ _))

variable {t t' : Triple (T × T)} {p q : T × T}

theorem Interior.closed (h : t.Interior p) : t.Closed p :=
  ⟨le_of_lt h.1, le_of_lt h.2.1, le_of_lt h.2.2⟩

theorem Reordered.closed_iff (h : Reordered t t') (p : T × T) : t'.Closed p ↔ t.Closed p :=
  h.scaledWeights p

theorem Reordered.interior_iff (h : Reordered t t') (p : T × T) : t'.Interior p ↔ t.Interior p :=
  h.scaledWeights p

theorem interior_between {e : T} : t.Interior (between e p q) ↔
    0 < (1 - e) * (t.area * (t.weights p).a) + e * (t.area * (t.weights q).a) ∧
      0 < (1 - e) * (t.area * (t.weights p).b) + e * (t.area * (t.weights q).b) ∧
      0 < (1 - e) * (t.area * (t.weights p).c) + e * (t.area * (t.weights q).c) := by
  have hfactor : ∀ x y : T, (1 - e) * (t.area * x) + e * (t.area * y) =
      t.area * ((1 - e) * x + e * y) := fun x y => by
    ring
  rw [Interior, weights_between, hfactor, hfactor, hfactor]
  exact Iff.rfl

variable [IsStrictOrderedRing T]

/-- What is affine and nonnegative at the vertices is nonnegative on the triangle. -/
theorem Closed.affine_nonneg (h : t.Closed p) (harea : t.area ≠ 0) {k l m : T}
    (hvertex : t.Forall fun v => 0 ≤ k * v.1 + l * v.2 + m) : 0 ≤ k * p.1 + l * p.2 + m := by
  obtain ⟨ha, hb, hc⟩ := h
  have hsum : (t.area * t.area) * (k * p.1 + l * p.2 + m) =
      t.area * (t.weights p).a * (k * t.a.1 + l * t.a.2 + m) +
        t.area * (t.weights p).b * (k * t.b.1 + l * t.b.2 + m) +
        t.area * (t.weights p).c * (k * t.c.1 + l * t.c.2 + m) := by
    linear_combination -t.area * weights_affine t p k l m
  have hpos : 0 < t.area * t.area := mul_self_pos.mpr harea
  refine nonneg_of_mul_nonneg_right ?_ hpos
  rw [hsum]
  exact add_nonneg (add_nonneg (mul_nonneg ha hvertex.1) (mul_nonneg hb hvertex.2.1))
    (mul_nonneg hc hvertex.2.2)

theorem Closed.fst_bounds (h : t.Closed p) (harea : t.area ≠ 0) :
    min (min t.a.1 t.b.1) t.c.1 ≤ p.1 ∧ p.1 ≤ max (max t.a.1 t.b.1) t.c.1 := by
  have hmin := h.affine_nonneg (k := 1) (l := 0) (m := -min (min t.a.1 t.b.1) t.c.1) harea
    ⟨by simp, by simp, by simp⟩
  have hmax := h.affine_nonneg (k := -1) (l := 0) (m := max (max t.a.1 t.b.1) t.c.1) harea
    ⟨by simp, by simp, by simp⟩
  constructor <;> linarith

theorem Closed.snd_bounds (h : t.Closed p) (harea : t.area ≠ 0) :
    min (min t.a.2 t.b.2) t.c.2 ≤ p.2 ∧ p.2 ≤ max (max t.a.2 t.b.2) t.c.2 := by
  have hmin := h.affine_nonneg (k := 0) (l := 1) (m := -min (min t.a.2 t.b.2) t.c.2) harea
    ⟨by simp, by simp, by simp⟩
  have hmax := h.affine_nonneg (k := 0) (l := -1) (m := max (max t.a.2 t.b.2) t.c.2) harea
    ⟨by simp, by simp, by simp⟩
  constructor <;> linarith

/-- Turned one way the triangle has positive weights, turned the other way negative ones. -/
theorem closed_of_weights_nonneg (harea : t.area ≠ 0) :
    ((t.weights p).Forall fun w => 0 ≤ w) ↔ 0 < t.area ∧ t.Closed p := by
  constructor
  · rintro ⟨ha, hb, hc⟩
    have hpos : 0 < t.area := by
      refine lt_of_le_of_ne ?_ harea.symm
      rw [← weights_sum t p]
      exact add_nonneg (add_nonneg ha hb) hc
    exact ⟨hpos, mul_nonneg hpos.le ha, mul_nonneg hpos.le hb, mul_nonneg hpos.le hc⟩
  · rintro ⟨hpos, ha, hb, hc⟩
    exact ⟨nonneg_of_mul_nonneg_right ha hpos, nonneg_of_mul_nonneg_right hb hpos,
      nonneg_of_mul_nonneg_right hc hpos⟩

theorem interior_of_weights_neg :
    ((t.weights p).Forall fun w => w < 0) ↔ t.area < 0 ∧ t.Interior p := by
  constructor
  · rintro ⟨ha, hb, hc⟩
    have hneg : t.area < 0 := by
      rw [← weights_sum t p]
      exact add_neg (add_neg ha hb) hc
    exact ⟨hneg, mul_pos_of_neg_of_neg hneg ha, mul_pos_of_neg_of_neg hneg hb,
      mul_pos_of_neg_of_neg hneg hc⟩
  · rintro ⟨hneg, ha, hb, hc⟩
    exact ⟨neg_of_mul_pos_right ha hneg.le, neg_of_mul_pos_right hb hneg.le,
      neg_of_mul_pos_right hc hneg.le⟩

/-! ### Triangles next to each other -/

/-- A positive value stays positive over a short way to another one. -/
theorem exists_step {x : T} (hx : 0 < x) (y : T) :
    ∃ d > 0, ∀ e, 0 < e → e ≤ d → 0 < (1 - e) * x + e * y := by
  have hsum : 0 < x + |y| := add_pos_of_pos_of_nonneg hx (abs_nonneg y)
  refine ⟨x / (2 * (x + |y|)), div_pos hx (by positivity), fun e he hle => ?_⟩
  rw [le_div_iff₀ (by positivity)] at hle
  have habs : e * -|y| ≤ e * y := mul_le_mul_of_nonneg_left (neg_abs_le y) he.le
  linarith

theorem interior_centre (harea : t.area ≠ 0) : t.Interior t.centre := by
  have hpos : 0 < t.area * (t.area / 3) := by
    rw [← mul_div_assoc]
    exact div_pos (mul_self_pos.mpr harea) three_pos
  rw [Interior, weights_centre]
  exact ⟨hpos, hpos, hpos⟩

/-- Where a triangle meets the inside of another one, their insides meet. -/
theorem Closed.exists_interior (h : t.Closed p) (harea : t.area ≠ 0) (h' : t'.Interior p) :
    ∃ q, t.Interior q ∧ t'.Interior q := by
  -- a short way towards the centre of `t` leads inside it, and not out of `t'`
  obtain ⟨da, hda, hstepa⟩ := exists_step h'.1 (t'.area * (t'.weights t.centre).a)
  obtain ⟨db, hdb, hstepb⟩ := exists_step h'.2.1 (t'.area * (t'.weights t.centre).b)
  obtain ⟨dc, hdc, hstepc⟩ := exists_step h'.2.2 (t'.area * (t'.weights t.centre).c)
  have hpos : 0 < min (min da db) (min dc 1) := lt_min (lt_min hda hdb) (lt_min hdc one_pos)
  refine ⟨between (min (min da db) (min dc 1)) p t.centre, ?_, ?_⟩
  · have hmiddle := interior_centre harea
    have hle : min (min da db) (min dc 1) ≤ 1 := (min_le_right _ _).trans (min_le_right _ _)
    have hmix : ∀ {x y : T}, 0 ≤ x → 0 < y →
        0 < (1 - min (min da db) (min dc 1)) * x + min (min da db) (min dc 1) * y := by
      intro x y hx hy
      exact add_pos_of_nonneg_of_pos (mul_nonneg (sub_nonneg.mpr hle) hx) (mul_pos hpos hy)
    refine interior_between.mpr ⟨?_, ?_, ?_⟩
    · exact hmix h.1 hmiddle.1
    · exact hmix h.2.1 hmiddle.2.1
    · exact hmix h.2.2 hmiddle.2.2
  · refine interior_between.mpr ⟨?_, ?_, ?_⟩
    · exact hstepa _ hpos ((min_le_left _ _).trans (min_le_left _ _))
    · exact hstepb _ hpos ((min_le_left _ _).trans (min_le_right _ _))
    · exact hstepc _ hpos ((min_le_right _ _).trans (min_le_left _ _))

end Triple

end Order

end Alus.Lib
