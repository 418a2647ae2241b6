import Mathlib.Data.List.Sort
import Alus.Lib.Machine

/-!
# `std::sort`

The comparison has to be a strict weak order on the elements, and elsewhere the behaviour is
undefined. Elements of which neither is before the other come in any order, so an implementation is
a parameter.
-/

namespace Alus.Lib

variable {α : Type}

/-- The comparison is a strict weak order on the elements of a list. -/
structure StrictWeak (less : α → α → Bool) (l : List α) : Prop where
  irrefl : ∀ a ∈ l, less a a = false
  asymm : ∀ a ∈ l, ∀ b ∈ l, less a b = true → less b a = false
  trans : ∀ a ∈ l, ∀ b ∈ l, ∀ c ∈ l, less a b = true → less b c = true → less a c = true
  incomp : ∀ a ∈ l, ∀ b ∈ l, ∀ c ∈ l, less a b = false ∧ less b a = false →
    less b c = false ∧ less c b = false → less a c = false ∧ less c a = false

theorem strictWeak_iff {less : α → α → Bool} {l : List α} : StrictWeak less l ↔
    (∀ a ∈ l, less a a = false) ∧
    (∀ a ∈ l, ∀ b ∈ l, less a b = true → less b a = false) ∧
    (∀ a ∈ l, ∀ b ∈ l, ∀ c ∈ l, less a b = true → less b c = true → less a c = true) ∧
    ∀ a ∈ l, ∀ b ∈ l, ∀ c ∈ l, less a b = false ∧ less b a = false →
      less b c = false ∧ less c b = false → less a c = false ∧ less c a = false :=
  ⟨fun h => ⟨h.irrefl, h.asymm, h.trans, h.incomp⟩, fun h => ⟨h.1, h.2.1, h.2.2.1, h.2.2.2⟩⟩

instance (less : α → α → Bool) (l : List α) : Decidable (StrictWeak less l) :=
  decidable_of_iff _ strictWeak_iff.symm

/-- What an implementation does to a list on which the comparison is a strict weak order. -/
structure SortImpl (α : Type) where
  run : (α → α → Bool) → List α → List α
  perm : ∀ less l, StrictWeak less l → (run less l).Perm l
  sorted : ∀ less l, StrictWeak less l → (run less l).Pairwise fun a b => less b a = false

/-- `std::sort(l.begin(), l.end(), less)`. -/
def stdSort (impl : SortImpl α) (less : α → α → Bool) (l : List α) : Outcome (List α) :=
  if StrictWeak less l then .ok (impl.run less l) else .undefined

theorem stdSort_eq_ok {impl : SortImpl α} {less : α → α → Bool} {l l' : List α} :
    stdSort impl less l = .ok l' ↔ StrictWeak less l ∧ impl.run less l = l' := by
  unfold stdSort
  split
  · simp [*]
  · simp [*]

theorem strictWeak_nil (less : α → α → Bool) : StrictWeak less [] where
  irrefl _ ha := absurd ha List.not_mem_nil
  asymm _ ha := absurd ha List.not_mem_nil
  trans _ ha := absurd ha List.not_mem_nil
  incomp _ ha := absurd ha List.not_mem_nil

/-- There is nothing to sort. -/
theorem SortImpl.run_nil (impl : SortImpl α) (less : α → α → Bool) : impl.run less [] = [] :=
  (impl.perm less [] (strictWeak_nil less)).eq_nil

/-- Comparisons that agree on elements at different places. -/
def AgreeApart (less less' : α → α → Bool) (l : List α) : Prop :=
  l.Pairwise fun a b => less a b = less' a b ∧ less b a = less' b a

/-- The implementation does not compare an element with itself. -/
def SortImpl.ComparesApart (impl : SortImpl α) : Prop :=
  ∀ less less' l, AgreeApart less less' l → impl.run less l = impl.run less' l

/-! ## Merge sort is an implementation -/

section Merge

/-- `b` is not before `a`. -/
def notAfter (less : α → α → Bool) (a b : α) : Bool := !less b a

theorem StrictWeak.notAfter_total {less : α → α → Bool} {l : List α} (h : StrictWeak less l)
    {a b : α} (ha : a ∈ l) (hb : b ∈ l) : notAfter less a b || notAfter less b a := by
  unfold notAfter
  cases hab : less a b with
  | false => rw [Bool.not_false, Bool.or_true]
  | true => rw [h.asymm a ha b hb hab, Bool.not_false, Bool.true_or]

theorem StrictWeak.notAfter_trans {less : α → α → Bool} {l : List α} (h : StrictWeak less l)
    {a b c : α} (ha : a ∈ l) (hb : b ∈ l) (hc : c ∈ l) (hab : notAfter less a b = true)
    (hbc : notAfter less b c = true) : notAfter less a c = true := by
  simp only [notAfter, Bool.not_eq_true'] at hab hbc ⊢
  cases hca : less c a with
  | false => rfl
  | true =>
    -- then neither of `a` and `b` is before the other, nor of `b` and `c`
    have hab' : less a b = false := by
      cases hcase : less a b with
      | false => rfl
      | true => exact absurd (h.trans c hc a ha b hb hca hcase) (by simp [hbc])
    have hbc' : less b c = false := by
      cases hcase : less b c with
      | false => rfl
      | true => exact absurd (h.trans b hb c hc a ha hcase hca) (by simp [hab])
    exact absurd hca (by simp [(h.incomp a ha b hb c hc ⟨hab', hab⟩ ⟨hbc', hbc⟩).2])

theorem merge_congr {le le' : α → α → Bool} {l r : List α}
    (h : ∀ a ∈ l, ∀ b ∈ r, le a b = le' a b) : l.merge r le = l.merge r le' := by
  induction l generalizing r with
  | nil => rw [List.nil_merge, List.nil_merge]
  | cons a l ihl =>
    induction r with
    | nil => rw [List.merge_right, List.merge_right]
    | cons b r ihr =>
      have hleft := ihl (r := b :: r) fun x hx y hy => h x (List.mem_cons_of_mem a hx) y hy
      have hright := ihr fun x hx y hy => h x hx y (List.mem_cons_of_mem b hy)
      rw [List.merge, List.merge, h a List.mem_cons_self b List.mem_cons_self, hleft, hright]

open List.MergeSort.Internal in
/-- Only elements at different places are compared. -/
theorem mergeSort_congr {le le' : α → α → Bool} (l : List α)
    (h : l.Pairwise fun a b => le a b = le' a b) : l.mergeSort le = l.mergeSort le' := by
  match l with
  | [] => rw [List.mergeSort_nil, List.mergeSort_nil]
  | [a] => rw [List.mergeSort_singleton, List.mergeSort_singleton]
  | a :: b :: l =>
    have hsplit : (splitInTwo ⟨a :: b :: l, rfl⟩).1.1 ++ (splitInTwo ⟨a :: b :: l, rfl⟩).2.1 =
        a :: b :: l := splitInTwo_fst_append_splitInTwo_snd ⟨a :: b :: l, rfl⟩
    have hfst : (splitInTwo ⟨a :: b :: l, rfl⟩).1.1.length < (a :: b :: l).length := by
      rw [(splitInTwo ⟨a :: b :: l, rfl⟩).1.2, List.length_cons, List.length_cons]
      omega
    have hsnd : (splitInTwo ⟨a :: b :: l, rfl⟩).2.1.length < (a :: b :: l).length := by
      rw [(splitInTwo ⟨a :: b :: l, rfl⟩).2.2, List.length_cons, List.length_cons]
      omega
    have hparts := h
    rw [← hsplit, List.pairwise_append] at hparts
    rw [List.mergeSort, List.mergeSort, mergeSort_congr _ hparts.1, mergeSort_congr _ hparts.2.1]
    apply merge_congr
    intro x hx y hy
    exact hparts.2.2 x (List.mem_mergeSort.mp hx) y (List.mem_mergeSort.mp hy)
termination_by l.length

/-- The implementation by merge sort. -/
def SortImpl.byMerge : SortImpl α where
  run less l := (l.attach.mergeSort fun a b => notAfter less a.1 b.1).map Subtype.val
  perm less l _ := by
    have hperm := (List.mergeSort_perm l.attach fun a b => notAfter less a.1 b.1).map Subtype.val
    rwa [List.attach_map_subtype_val] at hperm
  sorted less l h := by
    have hsorted : (l.attach.mergeSort fun a b => notAfter less a.1 b.1).Pairwise
        fun a b => notAfter less a.1 b.1 = true :=
      List.pairwise_mergeSort
        (fun (a b c : {a // a ∈ l}) hab hbc => h.notAfter_trans a.2 b.2 c.2 hab hbc)
        (fun (a b : {a // a ∈ l}) => h.notAfter_total a.2 b.2) l.attach
    apply List.pairwise_map.mpr
    apply hsorted.imp
    intro a b hab
    simpa only [notAfter, Bool.not_eq_true'] using hab

theorem SortImpl.byMerge_comparesApart : (SortImpl.byMerge (α := α)).ComparesApart := by
  intro less less' l h
  show (l.attach.mergeSort _).map Subtype.val = (l.attach.mergeSort _).map Subtype.val
  rw [mergeSort_congr l.attach]
  have hattach : (l.attach.map Subtype.val).Pairwise
      fun a b => less a b = less' a b ∧ less b a = less' b a := by
    rwa [List.attach_map_subtype_val]
  apply (List.pairwise_map.mp hattach).imp
  intro a b hab
  rw [notAfter, notAfter, hab.2]

end Merge

end Alus.Lib
