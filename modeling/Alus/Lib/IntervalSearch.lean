import Mathlib.Data.List.Basic
import Mathlib.Order.Lattice
import Mathlib.Order.Nat
import Mathlib.Tactic.Push

/-!
# The interval of a position

Knots bound intervals that follow each other. A loop that looks for the first half-open interval
with a position finds one between two knots on both sides of it, whatever the knots in between, and
none at the last of increasing knots. A search that extends the end intervals misses this position
only.
-/

namespace Alus.Lib

variable {K : Type} [LinearOrder K] {f : Nat → K} {n : Nat} {s : K}

/-! ## Half-open intervals -/

/-- The first of `n` intervals that has the position. -/
def findInterval (f : Nat → K) (n : Nat) (s : K) : Option Nat :=
  (List.range n).find? fun k => f k ≤ s ∧ s < f (k + 1)

theorem exists_interval (hfirst : f 0 ≤ s) (hlast : s < f n) :
    ∃ k < n, f k ≤ s ∧ s < f (k + 1) := by
  induction n with
  | zero => exact absurd hfirst (not_le_of_gt hlast)
  | succ n ih =>
    rcases le_or_gt (f n) s with hle | hgt
    · exact ⟨n, Nat.lt_succ_self n, hle, hlast⟩
    · obtain ⟨k, hk, hinterval⟩ := ih hgt
      exact ⟨k, hk.trans (Nat.lt_succ_self n), hinterval⟩

theorem findInterval_spec {k : Nat} (h : findInterval f n s = some k) :
    k < n ∧ f k ≤ s ∧ s < f (k + 1) := by
  obtain ⟨hinterval, hk, -⟩ := List.find?_range_eq_some.mp h
  exact ⟨List.mem_range.mp hk, of_decide_eq_true hinterval⟩

/-- None has it when no knot after the first is past it. -/
theorem findInterval_eq_none (hfirst : f 0 ≤ s) :
    findInterval f n s = none ↔ ∀ k < n, f (k + 1) ≤ s := by
  rw [findInterval, List.find?_range_eq_none]
  constructor
  · intro h k hk
    by_contra hpast
    obtain ⟨i, hi, hinterval⟩ := exists_interval (n := k + 1) hfirst (lt_of_not_ge hpast)
    have hnone := h i (by omega)
    simp [hinterval] at hnone
  · intro h k hk
    have hle := h k hk
    simp [hle]

/-- The first match of a list, by its index. -/
theorem findIdx?_eq_find?_range {α : Type} (l : List α) {p : α → Bool} {q : Nat → Bool}
    (h : ∀ k a, l[k]? = some a → p a = q k) : l.findIdx? p = (List.range l.length).find? q := by
  induction l generalizing q with
  | nil => rfl
  | cons a l ih =>
    have hrest := ih (q := q ∘ Nat.succ) fun k a hk => h (k + 1) a hk
    rw [List.findIdx?_cons, List.length_cons, List.range_succ_eq_map, List.find?_cons,
      ← h 0 a rfl, List.find?_map, hrest]
    cases p a with
    | true => rfl
    | false => rfl

/-- The loop over the pairs of elements that follow each other. -/
theorem findIdx?_zip_tail {α : Type} (l : List α) (g : α → K) (d s : K) :
    ((l.zip l.tail).findIdx? fun (a, b) => g a ≤ s ∧ s < g b) =
      findInterval (fun k => (l[k]?).elim d g) (l.length - 1) s := by
  have hlength : (l.zip l.tail).length = l.length - 1 := by
    rw [List.length_zip, List.length_tail]
    omega
  rw [findInterval, ← hlength]
  refine findIdx?_eq_find?_range _ fun k (a, b) hk => ?_
  obtain ⟨ha, hb⟩ := List.getElem?_zip_eq_some.mp hk
  rw [List.getElem?_tail] at hb
  simp [ha, hb]

/-! ## Increasing knots -/

/-- The knots from the first to the `n`-th increase. -/
def Increasing (f : Nat → K) (n : Nat) : Prop := ∀ i j, i < j → j ≤ n → f i < f j

theorem Increasing.le (h : Increasing f n) {i j : Nat} (hij : i ≤ j) (hj : j ≤ n) : f i ≤ f j := by
  rcases hij.eq_or_lt with rfl | hlt
  · exact le_refl _
  · exact (h i j hlt hj).le

/-- The search that extends the first interval and the last one outwards. -/
def searchInterval (f : Nat → K) (n : Nat) (s : K) : Option Nat :=
  if s < f 0 then some 0
  else if f n < s then some (n - 1)
  else findInterval f n s

/-- The only position that no interval has is that of the last knot. -/
theorem searchInterval_eq_none (h : Increasing f n) (hn : 0 < n) :
    searchInterval f n s = none ↔ s = f n := by
  rw [searchInterval]
  split
  · rename_i hbefore
    refine iff_of_false (by simp) fun hs => ?_
    exact absurd (hbefore.trans (h 0 n hn (le_refl n))) (hs ▸ lt_irrefl _)
  · rename_i hfirst
    split
    · rename_i hafter
      exact iff_of_false (by simp) hafter.ne'
    · rename_i hlast
      rw [findInterval_eq_none (le_of_not_gt hfirst)]
      constructor
      · intro hall
        have hle := hall (n - 1) (by omega)
        rw [Nat.sub_add_cancel hn] at hle
        exact le_antisymm (le_of_not_gt hlast) hle
      · rintro rfl k hk
        exact h.le (by omega) (le_refl n)

/-- What is found has the position, or is an end interval that the position lies beyond. -/
theorem searchInterval_spec (h : Increasing f n) (hn : 0 < n) {k : Nat}
    (hk : searchInterval f n s = some k) :
    k < n ∧ (f 0 ≤ s → f k ≤ s) ∧ (s ≤ f n → s < f (k + 1)) := by
  rw [searchInterval] at hk
  split at hk
  · rename_i hbefore
    cases hk
    exact ⟨hn, id, fun _ => hbefore.trans (h 0 1 Nat.zero_lt_one hn)⟩
  · split at hk
    · rename_i hafter
      cases hk
      exact ⟨by omega, fun _ => (h.le (Nat.sub_le n 1) (le_refl n)).trans hafter.le,
        fun hle => absurd hle (not_le_of_gt hafter)⟩
    · obtain ⟨hlt, hle, hpast⟩ := findInterval_spec hk
      exact ⟨hlt, fun _ => hle, fun _ => hpast⟩

/-- Beyond the knots it is an end interval. -/
theorem searchInterval_outside (houtside : s < f 0 ∨ f n < s) :
    searchInterval f n s = some (if s < f 0 then 0 else n - 1) := by
  rw [searchInterval]
  split
  · rfl
  · rename_i hfirst
    exact if_pos (houtside.resolve_left hfirst)

/-- At a knot other than the last the interval that begins there is found. -/
theorem searchInterval_knot (h : Increasing f n) {j : Nat} (hj : j < n) :
    searchInterval f n (f j) = some j := by
  cases hk : searchInterval f n (f j) with
  | none =>
    rw [searchInterval_eq_none h (by omega)] at hk
    exact absurd hk (h j n hj (le_refl n)).ne
  | some k =>
    obtain ⟨hlt, hle, hpast⟩ := searchInterval_spec h (by omega) hk
    have hbefore := hle (h.le (Nat.zero_le j) hj.le)
    have hafter := hpast (h.le hj.le (le_refl n))
    rcases Nat.lt_trichotomy j k with hjk | rfl | hkj
    · exact absurd hbefore (not_le_of_gt (h j k hjk hlt.le))
    · rfl
    · exact absurd hafter (not_lt_of_ge (h.le hkj hj.le))

/-! ## The search that keeps the last knot -/

/-- The search that extends the first interval outwards and takes the last one where no interval
has the position. -/
def closedSearch (f : Nat → K) (n : Nat) (s : K) : Nat :=
  if s < f 0 then 0 else (findInterval f n s).getD (n - 1)

/-- What is found has the position, or is the first interval before it, or the last one after
every knot. -/
theorem closedSearch_spec (f : Nat → K) (hn : 0 < n) (s : K) :
    closedSearch f n s < n ∧
      (s < f 0 ∧ closedSearch f n s = 0 ∨
        (∀ k ≤ n, f k ≤ s) ∧ closedSearch f n s = n - 1 ∨
        f (closedSearch f n s) ≤ s ∧ s < f (closedSearch f n s + 1)) := by
  rw [closedSearch]
  split
  · rename_i hbefore
    exact ⟨hn, .inl ⟨hbefore, rfl⟩⟩
  · rename_i hfirst
    have hle := le_of_not_gt hfirst
    cases hk : findInterval f n s with
    | none =>
      refine ⟨Nat.sub_lt hn Nat.zero_lt_one, .inr (.inl ⟨fun k hkn => ?_, rfl⟩)⟩
      cases k with
      | zero => exact hle
      | succ k => exact (findInterval_eq_none hle).mp hk k hkn
    | some k =>
      obtain ⟨hlt, hinterval⟩ := findInterval_spec hk
      exact ⟨hlt, .inr (.inr hinterval)⟩

/-- The interval that is found is empty only beyond the knots. -/
theorem closedSearch_empty_iff (f : Nat → K) (hn : 0 < n) (s : K) :
    f (closedSearch f n s) = f (closedSearch f n s + 1) ↔
      s < f 0 ∧ f 0 = f 1 ∨ (∀ k ≤ n, f k ≤ s) ∧ f (n - 1) = f n := by
  rcases lt_or_ge s (f 0) with hbefore | hfirst
  · have hzero : closedSearch f n s = 0 := if_pos hbefore
    have hnot : ¬ ∀ k ≤ n, f k ≤ s := fun h => absurd (h 0 (Nat.zero_le n)) (not_le_of_gt hbefore)
    rw [hzero]
    simp [hbefore, hnot]
  · rw [or_iff_right fun h => absurd hfirst (not_le_of_gt h.1)]
    obtain ⟨hlt, hbefore | hafter | hinside⟩ := closedSearch_spec f hn s
    · exact absurd hfirst (not_le_of_gt hbefore.1)
    · rw [hafter.2, Nat.sub_add_cancel hn]
      exact (and_iff_right hafter.1).symm
    · refine iff_of_false (fun h => ?_) fun h => ?_
      · exact absurd (h ▸ hinside.2) (not_lt_of_ge hinside.1)
      · exact absurd hinside.2 (not_lt_of_ge (h.1 _ hlt))

/-- Before the interval that is found every knot but the first is passed. -/
theorem le_of_lt_closedSearch {k : Nat} (hk : k < closedSearch f n s) :
    f 0 ≤ s ∧ f (k + 1) ≤ s := by
  rw [closedSearch] at hk
  split at hk
  · omega
  · rename_i hfirst
    have hle := le_of_not_gt hfirst
    refine ⟨hle, ?_⟩
    by_contra hpast
    obtain ⟨i, hi, hinterval⟩ := exists_interval (n := k + 1) hle (lt_of_not_ge hpast)
    cases hfound : findInterval f n s with
    | none =>
      rw [hfound, Option.getD_none] at hk
      exact hpast ((findInterval_eq_none hle).mp hfound k (by omega))
    | some j =>
      rw [hfound, Option.getD_some] at hk
      obtain ⟨-, -, hnone⟩ := List.find?_range_eq_some.mp hfound
      have hnot := hnone i (by omega)
      simp [hinterval] at hnot

/-- At a knot other than the last the interval that begins there is found, at the last knot the
last one. -/
theorem closedSearch_knot (h : Increasing f n) {j : Nat} (hj : j ≤ n) :
    closedSearch f n (f j) = min j (n - 1) := by
  rw [closedSearch, if_neg (not_lt_of_ge (h.le (Nat.zero_le j) hj))]
  cases hk : findInterval f n (f j) with
  | none =>
    have hall := (findInterval_eq_none (h.le (Nat.zero_le j) hj)).mp hk
    have hlast : j = n := by
      by_contra hne
      exact absurd (hall j (by omega)) (not_le_of_gt (h j (j + 1) (Nat.lt_succ_self j) (by omega)))
    rw [Option.getD_none]
    omega
  | some k =>
    obtain ⟨hlt, hle, hpast⟩ := findInterval_spec hk
    rw [Option.getD_some]
    rcases Nat.lt_trichotomy j k with hjk | rfl | hkj
    · exact absurd hle (not_le_of_gt (h j k hjk hlt.le))
    · omega
    · exact absurd hpast (not_lt_of_ge (h.le hkj hj))

end Alus.Lib
