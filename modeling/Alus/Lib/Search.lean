import Mathlib.Data.List.Forall2
import Mathlib.Data.List.Perm.Basic
import Alus.Lib.Machine

/-!
# Searching a list

The loop that remembers the first match and throws at a second one, and what becomes of it and of
`find?` when the list is reordered, or reordered with each element replaced by a related one. A loop
that remembers the best element so far.
-/

namespace Alus.Lib

variable {α β : Type}

/-! ## Reordered lists -/

/-- `l` is `l'` in another order, up to `R`. -/
def PermBy (R : α → β → Prop) (l : List α) (l' : List β) : Prop :=
  ∃ m, l.Perm m ∧ List.Forall₂ R m l'

namespace PermBy

variable {R : α → β → Prop} {l : List α} {l' : List β}

theorem filter {p : α → Bool} {q : β → Bool} (hpq : ∀ a b, R a b → (p a ↔ q b))
    (h : PermBy R l l') : PermBy R (l.filter p) (l'.filter q) := by
  obtain ⟨m, hperm, hrel⟩ := h
  exact ⟨m.filter p, hperm.filter p, List.rel_filter (fun a b hab => hpq a b hab) hrel⟩

theorem eq_nil (h : PermBy R l []) : l = [] := by
  obtain ⟨m, hperm, hrel⟩ := h
  rw [List.forall₂_nil_right_iff.mp hrel] at hperm
  exact hperm.eq_nil

theorem eq_singleton {b : β} (h : PermBy R l [b]) : ∃ a, l = [a] ∧ R a b := by
  obtain ⟨m, hperm, hrel⟩ := h
  cases hrel with
  | cons hab htail =>
    cases htail
    exact ⟨_, hperm.eq_singleton, hab⟩

theorem length_eq (h : PermBy R l l') : l.length = l'.length := by
  obtain ⟨m, hperm, hrel⟩ := h
  rw [hperm.length_eq, hrel.length_eq]

/-- Each element of the one list has a related one in the other. -/
theorem exists_left (h : PermBy R l l') {b : β} (hb : b ∈ l') : ∃ a ∈ l, R a b := by
  obtain ⟨m, hperm, hrel⟩ := h
  obtain ⟨k, hk, rfl⟩ := List.getElem_of_mem hb
  have hkm : k < m.length := by rwa [hrel.length_eq]
  exact ⟨m[k], hperm.mem_iff.mpr (List.getElem_mem hkm), hrel.get hkm hk⟩

theorem exists_right (h : PermBy R l l') {a : α} (ha : a ∈ l) : ∃ b ∈ l', R a b := by
  obtain ⟨m, hperm, hrel⟩ := h
  obtain ⟨k, hk, rfl⟩ := List.getElem_of_mem (hperm.mem_iff.mp ha)
  have hkl : k < l'.length := by rwa [← hrel.length_eq]
  exact ⟨l'[k], List.getElem_mem hkl, hrel.get hk hkl⟩

/-- Replacing each element by a related one. -/
theorem map {f : α → β} (hf : ∀ a ∈ l, R a (f a)) : PermBy R l (l.map f) :=
  ⟨l, List.Perm.refl l, List.forall₂_map_right_iff.mpr (List.forall₂_same.mpr hf)⟩

end PermBy

theorem permBy_of_perm {l l' : List α} (h : l.Perm l') : PermBy Eq l l' :=
  ⟨l', h, List.forall₂_eq_eq_eq ▸ rfl⟩

/-! ## The only match -/

/-- The only element that satisfies `p`, if there is one; a second one throws. -/
def findOnly (p : α → Bool) (l : List α) : Outcome (Option α) :=
  l.foldlM (fun found a =>
    if p a then (if found.isSome then .throws else .ok (some a)) else .ok found) none

/-- After a match the loop only looks for a second one. -/
theorem foldlM_found (p : α → Bool) (l : List α) (found : α) :
    l.foldlM (fun found a =>
        if p a then (if found.isSome then Outcome.throws else .ok (some a)) else .ok found)
      (some found) = if l.filter p = [] then .ok (some found) else .throws := by
  induction l with
  | nil => rfl
  | cons a l ih =>
    rw [List.foldlM_cons]
    by_cases ha : p a
    · rw [if_pos ha, List.filter_cons_of_pos ha, if_neg (List.cons_ne_nil _ _)]
      rfl
    · rw [if_neg ha, List.filter_cons_of_neg ha]
      exact ih

/-- The loop by the matches there are. -/
theorem findOnly_eq (p : α → Bool) (l : List α) :
    findOnly p l =
      match l.filter p with
      | [] => .ok none
      | [a] => .ok (some a)
      | _ :: _ :: _ => .throws := by
  unfold findOnly
  induction l with
  | nil => rfl
  | cons a l ih =>
    rw [List.foldlM_cons]
    by_cases ha : p a
    · rw [if_pos ha, List.filter_cons_of_pos ha]
      refine (foldlM_found p l a).trans ?_
      cases l.filter p with
      | nil => rfl
      | cons b rest => rfl
    · rw [if_neg ha, List.filter_cons_of_neg ha]
      exact ih

theorem findOnly_eq_some {p : α → Bool} {l : List α} {a : α} :
    findOnly p l = .ok (some a) ↔ l.filter p = [a] := by
  rw [findOnly_eq]
  rcases l.filter p with _ | ⟨b, _ | ⟨c, rest⟩⟩ <;> simp

theorem findOnly_eq_none {p : α → Bool} {l : List α} :
    findOnly p l = .ok none ↔ l.filter p = [] := by
  rw [findOnly_eq]
  rcases l.filter p with _ | ⟨b, _ | ⟨c, rest⟩⟩ <;> simp

theorem findOnly_ne_undefined (p : α → Bool) (l : List α) : findOnly p l ≠ .undefined := by
  rw [findOnly_eq]
  split <;> nofun

/-- Reordering changes no more than the match itself. -/
theorem findOnly_permBy {R : α → β → Prop} {p : α → Bool} {q : β → Bool}
    (hpq : ∀ a b, R a b → (p a ↔ q b)) {l : List α} {l' : List β} (h : PermBy R l l') :
    (findOnly p l = .throws ∧ findOnly q l' = .throws) ∨
      (findOnly p l = .ok none ∧ findOnly q l' = .ok none) ∨
        ∃ a b, findOnly p l = .ok (some a) ∧ findOnly q l' = .ok (some b) ∧ R a b := by
  have hfilter := h.filter hpq
  rw [findOnly_eq q l']
  cases hq : l'.filter q with
  | nil =>
    rw [hq] at hfilter
    exact .inr (.inl ⟨findOnly_eq_none.mpr hfilter.eq_nil, rfl⟩)
  | cons b rest =>
    cases rest with
    | nil =>
      rw [hq] at hfilter
      obtain ⟨a, ha, hab⟩ := hfilter.eq_singleton
      exact .inr (.inr ⟨a, b, findOnly_eq_some.mpr ha, rfl, hab⟩)
    | cons b' rest =>
      refine .inl ⟨?_, rfl⟩
      have hlength := hfilter.length_eq
      rw [hq] at hlength
      rw [findOnly_eq]
      generalize l.filter p = found at hlength
      rcases found with _ | ⟨c, _ | ⟨c', rest'⟩⟩
      · simp at hlength
      · simp at hlength
      · rfl

/-- The same list in another order. -/
theorem findOnly_perm (p : α → Bool) {l l' : List α} (h : l.Perm l') :
    findOnly p l = findOnly p l' := by
  rcases findOnly_permBy (fun a b (hab : a = b) => by rw [hab]) (permBy_of_perm h) with
    ⟨h, h'⟩ | ⟨h, h'⟩ | ⟨a, b, h, h', rfl⟩
  · exact h.trans h'.symm
  · exact h.trans h'.symm
  · exact h.trans h'.symm

/-! ## `find?` where there is at most one match -/

/-- A key that no two elements share picks at most one. -/
theorem length_filter_key_le {κ : Type} [DecidableEq κ] {f : α → κ} {l : List α}
    (h : (l.map f).Nodup) (k : κ) : (l.filter fun a => f a = k).length ≤ 1 := by
  induction l with
  | nil => exact Nat.zero_le 1
  | cons a l ih =>
    rw [List.map_cons, List.nodup_cons] at h
    by_cases ha : f a = k
    · have hrest : (l.filter fun a => f a = k) = [] := by
        refine List.filter_eq_nil_iff.mpr fun b hb hk => h.1 ?_
        rw [ha, ← of_decide_eq_true hk]
        exact List.mem_map_of_mem hb
      rw [List.filter_cons_of_pos (by simpa using ha), hrest]
      exact le_refl 1
    · rw [List.filter_cons_of_neg (by simpa using ha)]
      exact ih h.2

/-- Reordering a list with one match or none changes no more than the match itself. -/
theorem find?_permBy {R : α → β → Prop} {p : α → Bool} {q : β → Bool}
    (hpq : ∀ a b, R a b → (p a ↔ q b)) {l : List α} {l' : List β} (h : PermBy R l l')
    (hlength : (l'.filter q).length ≤ 1) :
    (l.find? p = none ∧ l'.find? q = none) ∨
      ∃ a b, l.find? p = some a ∧ l'.find? q = some b ∧ R a b := by
  have hfilter := h.filter hpq
  rw [← List.head?_filter, ← List.head?_filter]
  cases hq : l'.filter q with
  | nil =>
    rw [hq] at hfilter
    rw [hfilter.eq_nil]
    exact .inl ⟨rfl, rfl⟩
  | cons b rest =>
    have hrest : rest = [] := by
      rw [hq, List.length_cons] at hlength
      exact List.length_eq_zero_iff.mp (by omega)
    rw [hq, hrest] at hfilter
    obtain ⟨a, ha, hab⟩ := hfilter.eq_singleton
    rw [ha]
    exact .inr ⟨a, b, rfl, rfl, hab⟩

/-! ## The best element so far -/

/-- Where no round ends with more than it had, nor with more than the element it looks at, the loop
ends with the least cost of all. `I` is what the rounds need of the best element so far. -/
theorem foldl_best_le {κ : Type} [Preorder κ] (cost : α → κ) (better : α → α → α) (I : α → Prop)
    {l : List α} (hround : ∀ best, I best → ∀ a ∈ l, I (better best a) ∧
      cost (better best a) ≤ cost best ∧ cost (better best a) ≤ cost a)
    {best : α} (hbest : I best) :
    I (l.foldl better best) ∧ cost (l.foldl better best) ≤ cost best ∧
      ∀ a ∈ l, cost (l.foldl better best) ≤ cost a := by
  induction l generalizing best with
  | nil => exact ⟨hbest, le_refl _, fun a ha => absurd ha List.not_mem_nil⟩
  | cons b l ih =>
    obtain ⟨hI, hle, hb⟩ := hround best hbest b List.mem_cons_self
    obtain ⟨hI', hle', hall⟩ :=
      ih (fun best hbest a ha => hround best hbest a (List.mem_cons_of_mem b ha)) hI
    refine ⟨hI', hle'.trans hle, List.forall_mem_cons.mpr ⟨hle'.trans hb, hall⟩⟩

end Alus.Lib
