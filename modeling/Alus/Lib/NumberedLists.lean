import Mathlib.Data.List.Basic

/-!
# Numbered lists

Lists with the numbers `0 .. n-1` are put one after the other. The entries, each with the number of
its list, tell the lists again. Two lists that are read in different ways agree when they agree at
each place.
-/

namespace Alus.Lib

variable {α β γ : Type}

/-- The entries of the lists, in order, each with the number of its list. -/
def numbered (n : Nat) (l : Nat → List α) : List (Nat × α) :=
  (List.range n).flatMap fun s => (l s).map (Prod.mk s)

theorem numbered_succ (n : Nat) (l : Nat → List α) :
    numbered (n + 1) l = numbered n l ++ (l n).map (Prod.mk n) := by
  rw [numbered, List.range_succ, List.flatMap_append, List.flatMap_singleton]
  rfl

/-- The entries of a number are the list of that number. -/
theorem filterMap_numbered (n : Nat) (l : Nat → List α) (s : Nat) :
    ((numbered n l).filterMap fun e => if e.1 = s then some e.2 else none) =
      if s < n then l s else [] := by
  induction n with
  | zero => rfl
  | succ n ih =>
    rw [numbered_succ, List.filterMap_append, ih, List.filterMap_map]
    rcases Nat.lt_trichotomy s n with hlt | heq | hgt
    · have hother : ((fun e : Nat × α => if e.1 = s then some e.2 else none) ∘ Prod.mk n) =
          fun _ => none := funext fun a => if_neg (Nat.ne_of_gt hlt)
      rw [hother, List.filterMap_none, List.append_nil, if_pos hlt, if_pos (by omega)]
    · have hsame : ((fun e : Nat × α => if e.1 = s then some e.2 else none) ∘ Prod.mk n) =
          some := funext fun a => if_pos heq.symm
      rw [hsame, List.filterMap_some, if_neg (by omega), if_pos (by omega), List.nil_append, heq]
    · have hother : ((fun e : Nat × α => if e.1 = s then some e.2 else none) ∘ Prod.mk n) =
          fun _ => none := funext fun a => if_neg (Nat.ne_of_lt hgt)
      rw [hother, List.filterMap_none, if_neg (by omega), if_neg (by omega), List.append_nil]

/-- Numbered entries tell the lists that they come from. -/
theorem numbered_inj {n : Nat} {l l' : Nat → List α} :
    numbered n l = numbered n l' ↔ ∀ s < n, l s = l' s := by
  constructor
  · intro h s hs
    have hentries := congrArg
      (List.filterMap fun e : Nat × α => if e.1 = s then some e.2 else none) h
    rw [filterMap_numbered, filterMap_numbered, if_pos hs, if_pos hs] at hentries
    exact hentries
  · intro h
    exact List.flatMap_congr fun s hs => by rw [h s (List.mem_range.mp hs)]

/-- Two lists agree in what is read from their entries when they are as long and agree at each
place. -/
theorem map_eq_map_iff_places {f : α → γ} {g : β → γ} {as : List α} {bs : List β} :
    as.map f = bs.map g ↔ as.length = bs.length ∧
      ∀ (i : Nat) a b, as[i]? = some a → bs[i]? = some b → f a = g b := by
  constructor
  · intro h
    have hlength := congrArg List.length h
    rw [List.length_map, List.length_map] at hlength
    refine ⟨hlength, fun i a b ha hb => ?_⟩
    have hi := congrArg (fun l => l[i]?) h
    simp only [List.getElem?_map, ha, hb, Option.map_some, Option.some.injEq] at hi
    exact hi
  · rintro ⟨hlength, hplaces⟩
    apply List.ext_getElem
    · rw [List.length_map, List.length_map, hlength]
    · intro i hi hi'
      rw [List.length_map] at hi hi'
      rw [List.getElem_map, List.getElem_map]
      exact hplaces i _ _ (List.getElem?_eq_getElem hi) (List.getElem?_eq_getElem hi')

/-- The entries of a list that are kept, without their places. -/
theorem map_fst_filter_zipIdx (keep : α → Bool) (l : List α) (k : Nat) :
    ((l.zipIdx k).filter fun entry => keep entry.1).map Prod.fst = l.filter keep := by
  induction l generalizing k with
  | nil => rfl
  | cons a l ih =>
    rw [List.zipIdx_cons, List.filter_cons, List.filter_cons]
    split
    · rw [List.map_cons, ih]
    · exact ih (k + 1)

theorem pairwise_range_iff {R : Nat → Nat → Prop} {n : Nat} :
    (List.range n).Pairwise R ↔ ∀ i j, i < j → j < n → R i j := by
  rw [List.pairwise_iff_getElem]
  constructor
  · intro h i j hij hj
    have hplaces := h i j (by rw [List.length_range]; omega) (by rwa [List.length_range]) hij
    rwa [List.getElem_range, List.getElem_range] at hplaces
  · intro h i j hi hj hij
    rw [List.length_range] at hj
    rw [List.getElem_range, List.getElem_range]
    exact h i j hij hj

end Alus.Lib
