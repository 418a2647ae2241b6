import Mathlib.Algebra.BigOperators.Intervals
import Mathlib.Algebra.Order.BigOperators.Group.List
import Mathlib.Data.Int.ConditionallyCompleteOrder
import Mathlib.Data.Int.Interval
import Mathlib.Data.List.Basic
import Alus.Lib.Machine

/-!
# Loops over integer ranges

The loop `for (int i = a; i < b; i++)` visits `intRange a b`. An accumulating loop is a left fold,
and here it adds in the order of the loop: no law of addition beyond the neutral zero is used, so
that what is proved of the loop holds of rounded addition as well.
-/

namespace Alus.Lib

/-- The integers from `a` up to, not including, `b`. -/
def intRange (a b : Int) : List Int :=
  (List.range (b - a).toNat).map fun (i : Nat) => a + i

@[simp] theorem mem_intRange {a b i : Int} : i ∈ intRange a b ↔ a ≤ i ∧ i < b := by
  simp only [intRange, List.mem_map, List.mem_range]
  constructor
  · rintro ⟨n, hn, rfl⟩
    omega
  · rintro ⟨ha, hb⟩
    exact ⟨(i - a).toNat, by omega, by omega⟩

theorem length_intRange (a b : Int) : (intRange a b).length = (b - a).toNat := by
  simp [intRange]

theorem nodup_intRange (a b : Int) : (intRange a b).Nodup :=
  List.nodup_range.map fun i j h => by simpa using h

theorem intRange_append {a m b : Int} (h1 : a ≤ m) (h2 : m ≤ b) :
    intRange a b = intRange a m ++ intRange m b := by
  have hlen : (b - a).toNat = (m - a).toNat + (b - m).toNat := by omega
  rw [intRange, hlen, List.range_add, List.map_append, List.map_map, intRange, intRange]
  refine congrArg _ (List.map_congr_left fun i _ => ?_)
  simp only [Function.comp_apply]
  omega

theorem intRange_eq_nil {a b : Int} (h : b ≤ a) : intRange a b = [] := by
  rw [intRange, show (b - a).toNat = 0 by omega]
  rfl

theorem intRange_cons {a b : Int} (h : a < b) : intRange a b = a :: intRange (a + 1) b := by
  have hone : intRange a (a + 1) = [a] := by
    rw [intRange, show (a + 1 - a).toNat = 1 by omega]
    simp
  rw [intRange_append (show a ≤ a + 1 by omega) h, hone, List.singleton_append]

theorem intRange_succ {a b : Int} (h : a ≤ b) : intRange a (b + 1) = intRange a b ++ [b] := by
  rw [intRange_append h (show b ≤ b + 1 by omega), intRange_cons (show b < b + 1 by omega),
    intRange_eq_nil (le_refl (b + 1))]

/-- A loop over a range returns, and takes what holds at its start to its end. -/
theorem exists_foldlM_intRange {α : Type} {f : α → Int → Outcome α} (P : Int → α → Prop)
    {a b : Int} (hab : a ≤ b)
    (hstep : ∀ i s, a ≤ i → i < b → P i s → ∃ s', f s i = .ok s' ∧ P (i + 1) s') {s : α}
    (hs : P a s) : ∃ s', (intRange a b).foldlM f s = .ok s' ∧ P b s' := by
  induction b, hab using Int.leInduction with
  | base => exact ⟨s, by rw [intRange_eq_nil (le_refl a)]; rfl, hs⟩
  | succ b hab ih =>
    obtain ⟨s₁, hrun, hs₁⟩ := ih fun i s hi hlt => hstep i s hi (by omega)
    obtain ⟨s', hlast, hs'⟩ := hstep b s₁ hab (by omega) hs₁
    refine ⟨s', ?_, hs'⟩
    rw [intRange_succ hab, List.foldlM_append, hrun, Outcome.ok_bind, List.foldlM_cons, hlast,
      Outcome.ok_bind]
    rfl

/-- Loops over the rows of a rectangle, and in each over its columns, take what holds of a number of
pixels from none to all of them. -/
theorem exists_foldlM_rows {α : Type} {f : Int → α → Int → Outcome α} (P : Int → α → Prop)
    {x₀ y₀ w h : Int} (hw : 0 ≤ w) (hh : 0 ≤ h)
    (hstep : ∀ x y s, x₀ ≤ x → x < x₀ + w → y₀ ≤ y → y < y₀ + h →
      P (x - x₀ + (y - y₀) * w) s → ∃ s', f y s x = .ok s' ∧ P (x - x₀ + (y - y₀) * w + 1) s')
    {s : α} (hs : P 0 s) :
    ∃ s', (intRange y₀ (y₀ + h)).foldlM
      (fun s y => (intRange x₀ (x₀ + w)).foldlM (f y) s) s = .ok s' ∧ P (w * h) s' := by
  have hrow : ∀ y s, y₀ ≤ y → y < y₀ + h → P ((y - y₀) * w) s →
      ∃ s', (intRange x₀ (x₀ + w)).foldlM (f y) s = .ok s' ∧ P ((y + 1 - y₀) * w) s' := by
    intro y s hy hy' hs
    obtain ⟨s', hrun, hs'⟩ := exists_foldlM_intRange
      (fun x s => P (x - x₀ + (y - y₀) * w) s) (show x₀ ≤ x₀ + w by omega)
      (fun x s hx hx' hs => by
        have hnext : x + 1 - x₀ + (y - y₀) * w = x - x₀ + (y - y₀) * w + 1 := by omega
        rw [hnext]
        exact hstep x y s hx hx' hy hy' hs)
      (by rw [Int.sub_self, Int.zero_add]; exact hs)
    refine ⟨s', hrun, ?_⟩
    have hend : (y + 1 - y₀) * w = x₀ + w - x₀ + (y - y₀) * w := by
      rw [show y + 1 - y₀ = y - y₀ + 1 by omega, Int.add_mul, Int.one_mul]
      omega
    rw [hend]
    exact hs'
  obtain ⟨s', hrun, hs'⟩ := exists_foldlM_intRange (fun y s => P ((y - y₀) * w) s)
    (show y₀ ≤ y₀ + h by omega) hrow (by rw [Int.sub_self, Int.zero_mul]; exact hs)
  refine ⟨s', hrun, ?_⟩
  rw [add_sub_cancel_left, Int.mul_comm] at hs'
  exact hs'

theorem getElem?_intRange {a b : Int} {i : Nat} (h : a + i < b) :
    (intRange a b)[i]? = some (a + i) := by
  rw [intRange, List.getElem?_map, List.getElem?_range (by omega)]
  rfl

/-- The same range, counted from elsewhere. -/
theorem map_add_intRange (a b s : Int) :
    (intRange a b).map (· + s) = intRange (a + s) (b + s) := by
  rw [intRange, intRange, List.map_map, show b + s - (a + s) = b - a by omega]
  refine List.map_congr_left fun i _ => ?_
  simp only [Function.comp_apply]
  omega

section Sum

variable {R : Type*} [AddZeroClass R]

/-- `acc += f(i)` for the elements of the list, from `acc`. -/
def sumFrom (acc : R) (l : List Int) (f : Int → R) : R :=
  l.foldl (fun acc i => acc + f i) acc

theorem sumFrom_congr {acc : R} {l : List Int} {f g : Int → R} (h : ∀ i ∈ l, f i = g i) :
    sumFrom acc l f = sumFrom acc l g :=
  List.foldl_ext _ _ acc fun a i hi => by rw [h i hi]

/-- A loop that adds nothing. -/
theorem sumFrom_of_zero (acc : R) {l : List Int} {f : Int → R} (h : ∀ i ∈ l, f i = 0) :
    sumFrom acc l f = acc := by
  rw [sumFrom_congr (g := fun _ => 0) h]
  clear h
  induction l generalizing acc with
  | nil => rfl
  | cons i l ih =>
    rw [sumFrom, List.foldl_cons, add_zero]
    exact ih acc

/-- A loop that stops adding from `m` on is the loop up to `m`. -/
theorem sumFrom_intRange_of_zero {acc : R} {a b m : Int} {f : Int → R}
    (h : ∀ i, a ≤ i → i < b → m ≤ i → f i = 0) :
    sumFrom acc (intRange a b) f = sumFrom acc (intRange a (min b m)) f := by
  rcases le_total b m with hbm | hmb
  · rw [min_eq_left hbm]
  · rw [min_eq_right hmb]
    rcases le_total a m with ham | hma
    · rw [intRange_append ham hmb]
      rw [sumFrom, List.foldl_append]
      refine sumFrom_of_zero _ fun i hi => ?_
      obtain ⟨h1, h2⟩ := mem_intRange.mp hi
      exact h i (by omega) h2 h1
    · rw [intRange_eq_nil hma]
      refine sumFrom_of_zero _ fun i hi => ?_
      obtain ⟨h1, h2⟩ := mem_intRange.mp hi
      exact h i h1 h2 (by omega)

/-- A round that is skipped adds zero. -/
theorem foldl_guard (acc : R) (l : List Int) (p : Int → Prop) [DecidablePred p] (f : Int → R) :
    l.foldl (fun acc i => if p i then acc + f i else acc) acc =
      sumFrom acc l fun i => if p i then f i else 0 := by
  refine List.foldl_ext _ _ acc fun a i _ => ?_
  by_cases hp : p i
  · simp only [if_pos hp]
  · simp only [if_neg hp, add_zero]

theorem sumFrom_shift (acc : R) (a b s : Int) (f : Int → R) :
    sumFrom acc (intRange a b) (fun i => f (i + s)) = sumFrom acc (intRange (a + s) (b + s)) f := by
  rw [← map_add_intRange, sumFrom, sumFrom, List.foldl_map]

end Sum

/-- With a commutative addition the loop is the sum over the interval. -/
theorem sumFrom_eq_sum {R : Type*} [AddCommMonoid R] (a b : Int) (f : Int → R) :
    sumFrom 0 (intRange a b) f = ∑ i ∈ Finset.Ico a b, f i := by
  have hlist : ∀ (l : List Int) (acc : R), sumFrom acc l f = acc + (l.map f).sum := by
    intro l
    induction l with
    | nil => intro acc; simp [sumFrom]
    | cons i l ih =>
      intro acc
      have h := ih (acc + f i)
      rw [sumFrom] at h ⊢
      rw [List.foldl_cons, h, List.map_cons, List.sum_cons, add_assoc]
  have hset : (intRange a b).toFinset = Finset.Ico a b := by
    ext i
    simp
  rw [hlist, zero_add, ← hset, List.sum_toFinset f (nodup_intRange a b)]

end Alus.Lib
