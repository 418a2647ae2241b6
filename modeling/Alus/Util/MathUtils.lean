import Mathlib.Data.List.Pairwise
import Alus.Lib.Machine

/-!
# The searches of `math_utils.cuh`

Two binary searches over an ordered array, each with a negative result of its own for a key that is
not there, and the selection by arithmetic that takes these results apart. The indices of an array
in memory are far from the bounds of `int64_t`.
-/

namespace Alus.Mathutils

open Alus.Lib

/-- The middle index of C++ lies between the two ends, also for negative ends. -/
theorem mid_mem {a b : Int} (h : a ≤ b) : a ≤ (a + b).tdiv 2 ∧ (a + b).tdiv 2 ≤ b := by
  rw [Int.tdiv_eq_ediv]
  split
  · omega
  · rw [Int.sign_eq_one_of_pos (by decide)]
    omega

/-! ## The functions -/

variable {K : Type} [LinearOrder K]

/-- `ChooseOne`: the two cases weighted with the predicate and its complement. -/
def chooseOne (predicate : Prop) [Decidable predicate] (trueCase falseCase : Int) : Int :=
  (decide predicate).toInt * trueCase + (1 - (decide predicate).toInt) * falseCase

/-- The loop of `FindFirstGreaterElement`. -/
def greaterLoop (value : K) (values : List K) (start stop foundIndex : Int) : Outcome Int :=
  if start ≤ stop then do
    let mid := (start + stop).tdiv 2
    let midValue ← vectorIndex values mid
    if midValue ≤ value then greaterLoop value values (mid + 1) stop foundIndex
    else greaterLoop value values start (mid - 1) mid
  else .ok foundIndex
termination_by (stop - start + 1).toNat
decreasing_by
  all_goals
    have hmid := mid_mem ‹start ≤ stop›
    omega

def findFirstGreaterElement (value : K) (size : Int) (values : List K) : Outcome Int := do
  let last ← vectorIndex values (size - 1)
  if last ≤ value then return -1
  else greaterLoop value values 0 size (-1)

/-- The loop of `BinarySearch`. -/
def searchLoop (key : K) (values : List K) (low high : Int) : Outcome Int :=
  if low ≤ high then do
    let mid := (low + high).tdiv 2
    let midValue ← vectorIndex values mid
    if midValue < key then searchLoop key values (mid + 1) high
    else if midValue > key then searchLoop key values low (mid - 1)
    else .ok mid
  else .ok (-(low + 1))
termination_by (high - low + 1).toNat
decreasing_by
  all_goals
    have hmid := mid_mem ‹low ≤ high›
    omega

def binarySearch (key : K) (size : Int) (values : List K) : Outcome Int :=
  searchLoop key values 0 (size - 1)

theorem chooseOne_eq (p : Prop) [Decidable p] (a b : Int) :
    chooseOne p a b = if p then a else b := by
  by_cases h : p <;> simp [chooseOne, h]

/-! ## What the searches find

The elements before the searched range compare one way with the key and those behind it the other
way; an iteration keeps this, whichever side of the middle it drops.
-/

variable {key : K} {values : List K}

/-- All elements before index `i` satisfy `p`. -/
def Before (values : List K) (p : K → Prop) (i : Int) : Prop :=
  ∀ (j : Nat) (h : j < values.length), (j : Int) < i → p values[j]

/-- All elements from index `i` on satisfy `p`. -/
def From (values : List K) (p : K → Prop) (i : Int) : Prop :=
  ∀ (j : Nat) (h : j < values.length), i ≤ j → p values[j]

theorem before_of_le (hsorted : values.Pairwise (· ≤ ·)) {p : K → Prop}
    (hdown : ∀ a b, a ≤ b → p b → p a) {n : Nat} (hn : n < values.length) (hp : p values[n]) :
    Before values p (n + 1) := by
  intro j hj hlt
  apply hdown _ _ _ hp
  rcases Nat.lt_or_ge j n with h | h
  · exact List.pairwise_iff_getElem.mp hsorted j n hj hn h
  · obtain rfl : j = n := by omega
    exact le_rfl

theorem from_of_le (hsorted : values.Pairwise (· ≤ ·)) {p : K → Prop}
    (hup : ∀ a b, a ≤ b → p a → p b) {n : Nat} (hn : n < values.length) (hp : p values[n]) :
    From values p n := by
  intro j hj hle
  apply hup _ _ _ hp
  rcases Nat.lt_or_ge n j with h | h
  · exact List.pairwise_iff_getElem.mp hsorted n j hn hj h
  · obtain rfl : j = n := by omega
    exact le_rfl

omit [LinearOrder K] in
/-- An index in the array is a position in it. -/
theorem exists_read {index : Int} (hindex : 0 ≤ index ∧ index < values.length) :
    ∃ (n : Nat) (h : n < values.length), index = n ∧
      vectorIndex values index = .ok values[n] := by
  obtain ⟨n, rfl⟩ := Int.eq_ofNat_of_zero_le hindex.1
  have hn : n < values.length := by omega
  exact ⟨n, hn, rfl, vectorIndex_natCast hn⟩

/-- The index of the loop is the first one behind the elements up to the key. -/
theorem greaterLoop_spec (hsorted : values.Pairwise (· ≤ ·)) (start stop found : Int)
    (hstart : 0 ≤ start ∧ start ≤ stop + 1) (hbefore : Before values (· ≤ key) start)
    (hbehind : (stop = values.length ∧ ∃ h : 0 < values.length, key < values[values.length - 1]) ∨
      found = stop + 1 ∧ ∃ (n : Nat) (h : n < values.length), found = n ∧ key < values[n]) :
    ∃ n : Nat, greaterLoop key values start stop found = .ok n ∧ n < values.length ∧
      Before values (· ≤ key) n ∧ From values (key < ·) n := by
  fun_induction greaterLoop key values start stop found with
  | case1 start stop found hle mid ihlow ihhigh =>
    have hmid : start ≤ mid ∧ mid ≤ stop := mid_mem hle
    have hlt : mid < values.length := by
      obtain ⟨rfl, hpos, hlast⟩ | ⟨rfl, n, hn, heq, -⟩ := hbehind
      -- the last element is behind the key, so the range starts before the end
      · have : start ≤ values.length - 1 := by
          by_contra hend
          exact (hbefore _ (by omega) (by omega)).not_gt hlast
        change (start + values.length).tdiv 2 < _
        rw [Int.tdiv_eq_ediv_of_nonneg (by omega)]
        omega
      · omega
    obtain ⟨n, hnlt, hn, hread⟩ := exists_read (show 0 ≤ mid ∧ mid < values.length by omega)
    rw [hn] at ihlow ihhigh hmid hread ⊢
    rw [hread, Outcome.ok_bind]
    split
    · next hkey =>
      exact ihlow (by omega)
        (before_of_le hsorted (fun _ _ => le_trans) hnlt hkey) hbehind
    · next hkey =>
      exact ihhigh (by omega) hbefore (.inr ⟨by omega, n, hnlt, rfl, not_le.mp hkey⟩)
  | case2 start stop found hgt =>
    obtain ⟨rfl, hpos, hlast⟩ | ⟨rfl, n, hn, heq, hkey⟩ := hbehind
    · exact absurd hlast (hbefore _ (by omega) (by omega)).not_gt
    · refine ⟨n, by rw [heq], hn, ?_, ?_⟩
      · rwa [← heq, show stop + 1 = start by omega]
      · exact from_of_le hsorted (fun _ _ hle hlt => hlt.trans_le hle) hn hkey

omit [LinearOrder K] in
theorem vectorIndex_last (hne : 0 < values.length) :
    vectorIndex values ((values.length : Int) - 1) = .ok values[values.length - 1] := by
  rw [show (values.length : Int) - 1 = (values.length - 1 : Nat) by omega]
  exact vectorIndex_natCast (by omega)

theorem findFirstGreaterElement_last (hne : 0 < values.length)
    (hle : values[values.length - 1] ≤ key) :
    findFirstGreaterElement key values.length values = .ok (-1) := by
  rw [findFirstGreaterElement, vectorIndex_last hne, Outcome.ok_bind, if_pos hle, Outcome.pure_eq]

/-- **The first greater element**, when the last one is greater. -/
theorem findFirstGreaterElement_spec (hsorted : values.Pairwise (· ≤ ·)) (hne : 0 < values.length)
    (hlt : key < values[values.length - 1]) :
    ∃ n : Nat, findFirstGreaterElement key values.length values = .ok n ∧ n < values.length ∧
      Before values (· ≤ key) n ∧ From values (key < ·) n := by
  rw [findFirstGreaterElement, vectorIndex_last hne, Outcome.ok_bind, if_neg hlt.not_ge]
  exact greaterLoop_spec hsorted 0 values.length (-1) (by omega) (fun j _ hj => by omega)
    (.inl ⟨rfl, hne, hlt⟩)

/-- The loop ends at the key, or tells where it would be inserted. -/
theorem searchLoop_spec (hsorted : values.Pairwise (· ≤ ·)) (low high : Int)
    (hlow : 0 ≤ low ∧ low ≤ high + 1 ∧ high < values.length)
    (hbefore : Before values (· < key) low) (hbehind : From values (key < ·) (high + 1)) :
    (∃ n : Nat, searchLoop key values low high = .ok n ∧
      ∃ h : n < values.length, values[n] = key) ∨
    ∃ n : Nat, searchLoop key values low high = .ok (-(n + 1)) ∧ n ≤ values.length ∧
      Before values (· < key) n ∧ From values (key < ·) n := by
  fun_induction searchLoop key values low high with
  | case1 low high hle mid ihlow ihhigh =>
    have hmid : low ≤ mid ∧ mid ≤ high := mid_mem hle
    obtain ⟨n, hnlt, hn, hread⟩ := exists_read (show 0 ≤ mid ∧ mid < values.length by omega)
    rw [hn] at ihlow ihhigh hmid hread ⊢
    rw [hread, Outcome.ok_bind]
    rcases lt_trichotomy values[n] key with hless | hsame | hgreater
    · rw [if_pos hless]
      exact ihlow (by omega) (before_of_le hsorted (fun _ _ => lt_of_le_of_lt) hnlt hless) hbehind
    · rw [if_neg hsame.not_lt, if_neg hsame.not_gt]
      exact .inl ⟨n, rfl, hnlt, hsame⟩
    · rw [if_neg hgreater.not_gt, if_pos hgreater]
      apply ihhigh (by omega) hbefore
      rw [sub_add_cancel]
      exact from_of_le hsorted (fun _ _ hle hlt => hlt.trans_le hle) hnlt hgreater
  | case2 low high hgt =>
    obtain ⟨n, rfl⟩ : ∃ n : Nat, low = n := ⟨low.toNat, by omega⟩
    refine .inr ⟨n, rfl, by omega, hbefore, ?_⟩
    rwa [show high + 1 = (n : Int) by omega] at hbehind

theorem binarySearch_spec (hsorted : values.Pairwise (· ≤ ·)) (key : K) :
    (∃ n : Nat, binarySearch key values.length values = .ok n ∧
      ∃ h : n < values.length, values[n] = key) ∨
    ∃ n : Nat, binarySearch key values.length values = .ok (-(n + 1)) ∧ n ≤ values.length ∧
      Before values (· < key) n ∧ From values (key < ·) n :=
  searchLoop_spec hsorted 0 (values.length - 1) (by omega) (fun j _ hj => by omega)
    (fun j hj hle => by omega)

/-! ## The results of the searches -/

/-- `FindFirstGreaterElement` returns the smallest index of a greater element, or -1 when there is
none. -/
structure FindsFirstGreater (value : K) (values : List K) : Prop where
  found : (∃ v ∈ values, value < v) → ∃ n : Nat,
    findFirstGreaterElement value values.length values = .ok n ∧
      ∃ h : n < values.length, value < values[n] ∧
        ∀ (j : Nat) (hj : j < values.length), j < n → ¬ value < values[j]
  notFound : (¬ ∃ v ∈ values, value < v) →
    findFirstGreaterElement value values.length values = .ok (-1)

/-- `BinarySearch` returns the index of the key, or tells how many elements are below it. -/
structure SearchesKey (key : K) (values : List K) : Prop where
  found : ∀ (n : Nat) (h : n < values.length), values[n] = key →
    binarySearch key values.length values = .ok n
  notFound : key ∉ values →
    binarySearch key values.length values = .ok (-((values.countP (· < key) : Nat) + 1))

/-- The last element is the greatest one. -/
theorem exists_greater_iff (hsorted : values.Pairwise (· ≤ ·)) (hne : 0 < values.length) :
    (∃ v ∈ values, key < v) ↔ key < values[values.length - 1] := by
  constructor
  · rintro ⟨v, hv, hlt⟩
    obtain ⟨j, hj, rfl⟩ := List.getElem_of_mem hv
    by_contra hlast
    have hbefore := before_of_le hsorted (p := (· ≤ key)) (fun _ _ => le_trans) (by omega)
      (not_lt.mp hlast)
    exact (hbefore j hj (by omega)).not_gt hlt
  · exact fun hlt => ⟨_, List.getElem_mem _, hlt⟩

/-- The elements below a key are those before the index that divides the array at it. -/
theorem countP_of_divided {n : Nat} (hn : n ≤ values.length)
    (hbefore : Before values (· < key) n) (hfrom : From values (key < ·) n) :
    values.countP (· < key) = n := by
  have hlow : (values.take n).countP (· < key) = n := by
    have hall : ∀ v ∈ values.take n, decide (v < key) = true := by
      intro v hv
      obtain ⟨j, hj, rfl⟩ := List.getElem_of_mem hv
      rw [List.length_take] at hj
      rw [List.getElem_take]
      exact decide_eq_true (hbefore j (by omega) (by omega))
    rw [List.countP_eq_length.mpr hall, List.length_take, Nat.min_eq_left hn]
  have hhigh : (values.drop n).countP (· < key) = 0 := by
    rw [List.countP_eq_zero]
    intro v hv
    obtain ⟨j, hj, rfl⟩ := List.getElem_of_mem hv
    rw [List.length_drop] at hj
    rw [List.getElem_drop, decide_eq_true_eq, not_lt]
    exact (hfrom (n + j) (by omega) (by omega)).le
  calc values.countP (· < key)
      = (values.take n ++ values.drop n).countP (· < key) := by rw [List.take_append_drop]
    _ = n := by rw [List.countP_append, hlow, hhigh, Nat.add_zero]

/-- A key that divides the array is not in it. -/
theorem not_mem_of_divided {n : Nat} (hbefore : Before values (· < key) n)
    (hfrom : From values (key < ·) n) : key ∉ values := by
  intro hkey
  obtain ⟨j, hj, heq⟩ := List.getElem_of_mem hkey
  rcases Nat.lt_or_ge j n with hlt | hge
  · exact (hbefore j hj (by omega)).ne heq
  · exact (hfrom j hj (by omega)).ne heq.symm

theorem findsFirstGreater (hsorted : values.Pairwise (· ≤ ·)) (hne : 0 < values.length)
    (value : K) : FindsFirstGreater value values where
  found hgreater := by
    obtain ⟨n, hfind, hn, hbefore, hfrom⟩ := findFirstGreaterElement_spec hsorted hne
      ((exists_greater_iff hsorted hne).mp hgreater)
    exact ⟨n, hfind, hn, hfrom n hn (le_refl _),
      fun j hj hjn => (hbefore j hj (by omega)).not_gt⟩
  notFound hnone :=
    findFirstGreaterElement_last hne
      (not_lt.mp fun hlt => hnone ((exists_greater_iff hsorted hne).mpr hlt))

theorem searchesKey (hsorted : values.Pairwise (· < ·)) (key : K) : SearchesKey key values where
  found n hn hkey := by
    obtain ⟨m, hsearch, hm, hsame⟩ | ⟨m, -, -, hbefore, hfrom⟩ :=
      binarySearch_spec (hsorted.imp le_of_lt) key
    -- the key occurs once
    · have hnodup : values.Nodup := hsorted.imp ne_of_lt
      have heq : m = n := (List.getElem_inj hnodup).mp (hsame.trans hkey.symm)
      rw [hsearch, heq]
    · exact absurd (hkey ▸ List.getElem_mem hn) (not_mem_of_divided hbefore hfrom)
  notFound hnone := by
    obtain ⟨m, -, hm, hsame⟩ | ⟨m, hsearch, hm, hbefore, hfrom⟩ :=
      binarySearch_spec (hsorted.imp le_of_lt) key
    · exact absurd (hsame ▸ List.getElem_mem hm) hnone
    · rw [hsearch, countP_of_divided hm hbefore hfrom]

/-- **The searches.** On an ascending array both find what they are for, without reading outside of
it; `FindFirstGreaterElement` needs an element to look at. -/
theorem searches_correct (values : List K) :
    (values ≠ [] → values.Pairwise (· ≤ ·) → ∀ value, FindsFirstGreater value values) ∧
      (values.Pairwise (· < ·) → ∀ key, SearchesKey key values) :=
  ⟨fun hne hsorted => findsFirstGreater hsorted (List.length_pos_iff.mpr hne),
    searchesKey⟩

theorem searches_correct_three :
    FindsFirstGreater 4 [1, 4, 4, 9] ∧ SearchesKey 5 [1, 4, 9] :=
  ⟨(searches_correct [1, 4, 4, 9]).1 (by decide) (by decide) 4,
    (searches_correct [1, 4, 9]).2 (by decide) 5⟩

end Alus.Mathutils
