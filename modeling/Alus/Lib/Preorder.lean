import Mathlib.Data.List.Induction
import Mathlib.Data.List.Infix

/-!
# Pre-order traversals

The nodes of a forest in pre-order, each with the positions of its ancestors. In such a list every
node is a child of the node before it or of one of this node's ancestors, or has no parent; what the
order says about ancestors follows from that alone.
-/

namespace Alus.Lib

universe u

variable {α : Type u}

/-- A node with the positions of its ancestors in the traversal, the nearest one first. -/
structure Visit (α : Type u) where
  node : α
  ancestors : List Nat

namespace Visit

/-- How many ancestors there are. -/
def depth (v : Visit α) : Nat := v.ancestors.length

end Visit

/-- The last node of a traversal, with its ancestors. -/
def lastPath (visits : List (Visit α)) : List Nat :=
  match visits.getLast? with
  | some v => (visits.length - 1) :: v.ancestors
  | none => []

/-- The list is a traversal in pre-order. -/
inductive IsPreorder : List (Visit α) → Prop where
  | nil : IsPreorder []
  | concat {done : List (Visit α)} {v : Visit α} (hdone : IsPreorder done)
      (hpath : v.ancestors <:+ lastPath done) : IsPreorder (done ++ [v])

variable {visits done : List (Visit α)} {v : Visit α}

theorem lastPath_concat (done : List (Visit α)) (v : Visit α) :
    lastPath (done ++ [v]) = done.length :: v.ancestors := by
  rw [lastPath, List.getLast?_concat, List.length_append, List.length_singleton,
    Nat.add_sub_cancel]

theorem isPreorder_concat :
    IsPreorder (done ++ [v]) ↔ IsPreorder done ∧ v.ancestors <:+ lastPath done := by
  constructor
  · intro h
    generalize hvisits : done ++ [v] = visits at h
    cases h with
    | nil => simp at hvisits
    | concat hdone hpath =>
      obtain ⟨rfl, hlast⟩ := List.append_inj' hvisits rfl
      obtain rfl := List.cons.inj hlast |>.1
      exact ⟨hdone, hpath⟩
  · rintro ⟨hdone, hpath⟩
    exact .concat hdone hpath

/-- A part of a traversal from its beginning is one, and the next node is below its last path. -/
theorem IsPreorder.of_append {rest : List (Visit α)} (h : IsPreorder (done ++ v :: rest)) :
    IsPreorder done ∧ v.ancestors <:+ lastPath done := by
  induction rest using List.reverseRecOn with
  | nil => exact isPreorder_concat.mp h
  | append_singleton rest w ih =>
    rw [← List.cons_append, ← List.append_assoc, isPreorder_concat] at h
    exact ih h.1

/-- What is behind `p` on the path are the ancestors of `p`, and all nodes visited after `p` are
below it. -/
theorem IsPreorder.of_suffix {visits : List (Visit α)} (h : IsPreorder visits) {p : Nat}
    {more : List Nat} (hsuffix : p :: more <:+ lastPath visits) :
    (∃ u, visits[p]? = some u ∧ u.ancestors = more) ∧
      ∀ j v, p < j → visits[j]? = some v → more.length < v.depth := by
  induction h generalizing p more with
  | nil =>
    rw [show lastPath ([] : List (Visit α)) = [] from rfl, List.suffix_nil] at hsuffix
    cases hsuffix
  | concat hdone hpath ih =>
    next done v =>
    rw [lastPath_concat, List.suffix_cons_iff] at hsuffix
    rcases hsuffix with heq | hsuffix
    -- the node itself is the last one
    · obtain ⟨rfl, rfl⟩ := List.cons.inj heq
      refine ⟨⟨v, List.getElem?_concat_length, rfl⟩, fun j w hj hw => ?_⟩
      have hlt := (List.getElem?_eq_some_iff.mp hw).1
      rw [List.length_append, List.length_singleton] at hlt
      omega
    · obtain ⟨⟨u, hu, hmore⟩, hbelow⟩ := ih (hsuffix.trans hpath)
      have hp := (List.getElem?_eq_some_iff.mp hu).1
      refine ⟨⟨u, ?_, hmore⟩, fun j w hj hw => ?_⟩
      · rw [List.getElem?_append_left hp, hu]
      · rcases Nat.lt_or_ge j done.length with hlt | hge
        · rw [List.getElem?_append_left hlt] at hw
          exact hbelow j w hj hw
        · have hjlt := (List.getElem?_eq_some_iff.mp hw).1
          rw [List.length_append, List.length_singleton] at hjlt
          obtain rfl : j = done.length := by omega
          rw [List.getElem?_concat_length, Option.some.injEq] at hw
          rw [← hw, Visit.depth]
          exact hsuffix.length_le

/-! ## The last node at a depth -/

/-- The position of the last node at a depth that satisfies `p`. -/
def lastAt (p : α → Bool) (visits : List (Visit α)) (depth : Nat) : Option Nat :=
  visits.zipIdx.foldl
    (fun found e => if p e.1.node ∧ e.1.depth = depth then some e.2 else found) none

variable {p : α → Bool}

theorem lastAt_concat (p : α → Bool) (done : List (Visit α)) (v : Visit α) (depth : Nat) :
    lastAt p (done ++ [v]) depth =
      if p v.node ∧ v.depth = depth then some done.length else lastAt p done depth := by
  rw [lastAt, List.zipIdx_append, List.foldl_append]
  simp only [List.zipIdx_singleton, List.foldl_cons, List.foldl_nil, Nat.zero_add]
  rfl

/-- The node that is found satisfies `p` at this depth. -/
theorem lastAt_eq_some {depth j : Nat} (h : lastAt p visits depth = some j) :
    ∃ u, visits[j]? = some u ∧ p u.node = true ∧ u.depth = depth := by
  induction visits using List.reverseRecOn with
  | nil => cases h
  | append_singleton done v ih =>
    rw [lastAt_concat] at h
    split at h
    · next hv =>
      obtain rfl := Option.some.inj h
      exact ⟨v, List.getElem?_concat_length, hv⟩
    · obtain ⟨u, hu, hp⟩ := ih h
      exact ⟨u, by rw [List.getElem?_append_left (List.getElem?_eq_some_iff.mp hu).1, hu], hp⟩

/-- The last node is the one behind those before it. -/
theorem eq_of_getElem?_concat {j : Nat} {u : Visit α} (hge : done.length ≤ j)
    (hu : (done ++ [v])[j]? = some u) : j = done.length ∧ v = u := by
  have hjlt := (List.getElem?_eq_some_iff.mp hu).1
  rw [List.length_append, List.length_singleton] at hjlt
  obtain rfl : j = done.length := by omega
  rw [List.getElem?_concat_length, Option.some.injEq] at hu
  exact ⟨rfl, hu⟩

/-- A node that satisfies `p` is found, if there is no later one at its depth. -/
theorem lastAt_of_last {j : Nat} {u : Visit α} (hu : visits[j]? = some u) (hp : p u.node = true)
    (hlater : ∀ k w, j < k → visits[k]? = some w → w.depth ≠ u.depth) :
    lastAt p visits u.depth = some j := by
  induction visits using List.reverseRecOn with
  | nil => simp at hu
  | append_singleton done v ih =>
    rw [lastAt_concat]
    rcases Nat.lt_or_ge j done.length with hlt | hge
    · have hv := hlater done.length v hlt List.getElem?_concat_length
      rw [if_neg fun h => hv h.2]
      rw [List.getElem?_append_left hlt] at hu
      refine ih hu fun k w hk hw => hlater k w hk ?_
      rw [List.getElem?_append_left (List.getElem?_eq_some_iff.mp hw).1, hw]
    · obtain ⟨rfl, rfl⟩ := eq_of_getElem?_concat hge hu
      rw [if_pos ⟨hp, rfl⟩]

/-- Nothing is found only where there is nothing. -/
theorem lastAt_isSome {j : Nat} {u : Visit α} (hu : visits[j]? = some u) (hp : p u.node = true) :
    (lastAt p visits u.depth).isSome := by
  induction visits using List.reverseRecOn with
  | nil => simp at hu
  | append_singleton done v ih =>
    rw [lastAt_concat]
    split
    · rfl
    · next hv =>
      rcases Nat.lt_or_ge j done.length with hlt | hge
      · rw [List.getElem?_append_left hlt] at hu
        exact ih hu
      · obtain ⟨rfl, rfl⟩ := eq_of_getElem?_concat hge hu
        exact absurd ⟨hp, rfl⟩ hv

/-! ## Parents -/

/-- The next node's parent, if it satisfies `p`, is the last such node one level up. -/
theorem lastAt_parent (h : IsPreorder done) (hpath : v.ancestors <:+ lastPath done) {parent : Nat}
    {more : List Nat} (hv : v.ancestors = parent :: more) :
    ∃ u, done[parent]? = some u ∧ u.ancestors = more ∧
      (p u.node = true → lastAt p done more.length = some parent) := by
  rw [hv] at hpath
  obtain ⟨⟨u, hu, rfl⟩, hbelow⟩ := h.of_suffix hpath
  refine ⟨u, hu, rfl, fun hp => lastAt_of_last hu hp fun k w hk hw => ?_⟩
  exact (hbelow k w hk hw).ne'

/-- The positions on the path lead to nodes above. -/
theorem depth_of_mem_ancestors (h : IsPreorder done) {path : List Nat}
    (hpath : path <:+ lastPath done) {q : Nat} (hq : q ∈ path) :
    ∃ u, done[q]? = some u ∧ u.depth < path.length := by
  induction path with
  | nil => cases hq
  | cons first more ih =>
    rcases List.mem_cons.mp hq with rfl | hmore
    · obtain ⟨⟨u, hu, hmore⟩, -⟩ := h.of_suffix hpath
      refine ⟨u, hu, ?_⟩
      rw [Visit.depth, hmore, List.length_cons]
      exact Nat.lt_succ_self _
    · obtain ⟨u, hu, hlt⟩ := ih ((List.suffix_cons first more).trans hpath) hmore
      exact ⟨u, hu, by rw [List.length_cons]; omega⟩

/-! ## Numbers and targets -/

/-- How many nodes before a position satisfy `p`. -/
def numberOf (p : α → Bool) (visits : List (Visit α)) (i : Nat) : Nat :=
  (visits.take i).countP fun v => p v.node

/-- The numbers of the nodes that satisfy `p` and have a target, in order. -/
def withTarget (p : α → Bool) (target : Nat → Nat) (visits : List (Visit α)) (a : Nat) : List Nat :=
  (visits.zipIdx.filter fun e => p e.1.node ∧ target e.2 = a).map fun e => numberOf p visits e.2

theorem numberOf_append {i : Nat} (hi : i ≤ done.length) (rest : List (Visit α)) :
    numberOf p (done ++ rest) i = numberOf p done i := by
  rw [numberOf, numberOf, List.take_append_of_le_length hi]

theorem numberOf_le {i j : Nat} (hij : i ≤ j) (visits : List (Visit α)) :
    numberOf p visits i ≤ numberOf p visits j :=
  (List.take_sublist_take_left hij).countP_le

theorem numberOf_lt {i j : Nat} (hij : i < j) (hv : visits[i]? = some v) (hp : p v.node = true) :
    numberOf p visits i < numberOf p visits j := by
  have hprefix : numberOf p visits (i + 1) ≤ numberOf p visits j := numberOf_le hij visits
  rw [numberOf, List.take_add_one, hv, Option.toList_some, List.countP_append,
    List.countP_singleton, if_pos hp] at hprefix
  exact hprefix

theorem numberOf_inj {i j : Nat} {u : Visit α} (hv : visits[i]? = some v) (hp : p v.node = true)
    (hu : visits[j]? = some u) (hp' : p u.node = true)
    (h : numberOf p visits i = numberOf p visits j) : i = j := by
  rcases Nat.lt_trichotomy i j with hlt | heq | hgt
  · exact absurd h (numberOf_lt hlt hv hp).ne
  · exact heq
  · exact absurd h.symm (numberOf_lt hgt hu hp').ne

theorem withTarget_concat (target : Nat → Nat) (done : List (Visit α)) (v : Visit α) (a : Nat) :
    withTarget p target (done ++ [v]) a =
      withTarget p target done a ++
        if p v.node ∧ target done.length = a then [numberOf p done done.length] else [] := by
  rw [withTarget, List.zipIdx_append, List.filter_append, List.map_append]
  congr 1
  · refine List.map_congr_left fun e he => ?_
    have hlt := List.snd_lt_of_mem_zipIdx (List.mem_of_mem_filter he)
    rw [numberOf_append (by omega)]
  · rw [List.zipIdx_singleton, Nat.zero_add]
    by_cases h : p v.node ∧ target done.length = a
    · rw [if_pos h, List.filter_cons_of_pos (by simpa using h), List.filter_nil,
        List.map_singleton, numberOf_append (Nat.le_refl _)]
    · rw [if_neg h, List.filter_cons_of_neg (by simpa using h), List.filter_nil, List.map_nil]

/-- Only the targets of the nodes that satisfy `p` count. -/
theorem withTarget_congr {target target' : Nat → Nat}
    (h : ∀ i v, visits[i]? = some v → p v.node = true → target i = target' i) (a : Nat) :
    withTarget p target visits a = withTarget p target' visits a := by
  rw [withTarget, withTarget]
  congr 1
  refine List.filter_congr fun e he => ?_
  have hv : visits[e.2]? = some e.1 := List.mem_zipIdx_iff_getElem?.mp he
  by_cases hp : p e.1.node = true
  · rw [h e.2 e.1 hv hp]
  · simp [hp]

theorem withTarget_eq_nil {target : Nat → Nat} {a : Nat}
    (h : ∀ i v, visits[i]? = some v → p v.node = true → target i ≠ a) :
    withTarget p target visits a = [] := by
  rw [withTarget, List.map_eq_nil_iff, List.filter_eq_nil_iff]
  intro e he
  simpa using h e.2 e.1 (List.mem_zipIdx_iff_getElem?.mp he)

/-- A node is listed at its target, and there only. -/
theorem mem_withTarget {target : Nat → Nat} {i a : Nat} (hv : visits[i]? = some v)
    (hp : p v.node = true) : numberOf p visits i ∈ withTarget p target visits a ↔ target i = a := by
  simp only [withTarget, List.mem_map, List.mem_filter, decide_eq_true_eq]
  constructor
  · rintro ⟨e, ⟨he, hp', ha⟩, hnumber⟩
    obtain rfl := numberOf_inj (List.mem_zipIdx_iff_getElem?.mp he) hp' hv hp hnumber
    exact ha
  · intro ha
    exact ⟨(v, i), ⟨List.mem_zipIdx_iff_getElem?.mpr hv, hp, ha⟩, rfl⟩

end Alus.Lib
