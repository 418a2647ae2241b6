import Mathlib.Data.List.Basic
import Mathlib.Order.Bounds.Basic

/-!
# Ordered maps

A `std::map`: entries by ascending keys, one for each key. An assignment replaces the entry of its
key, and `upper_bound` finds the first entry with a greater key.
-/

namespace Alus.Lib

variable {κ α : Type*} [LinearOrder κ]

/-- A `std::map`. -/
structure OrderedMap (κ α : Type*) [LinearOrder κ] where
  entries : List (κ × α)
  ascending : entries.Pairwise fun e e' => e.1 < e'.1

/-- The entries after `m[k] = a`. -/
def insertEntry (k : κ) (a : α) : List (κ × α) → List (κ × α)
  | [] => [(k, a)]
  | e :: entries =>
    if k < e.1 then (k, a) :: e :: entries
    else if k = e.1 then (k, a) :: entries
    else e :: insertEntry k a entries

theorem mem_insertEntry_imp {k : κ} {a : α} {entries : List (κ × α)} {e : κ × α}
    (h : e ∈ insertEntry k a entries) : e = (k, a) ∨ e ∈ entries := by
  induction entries with
  | nil => exact .inl (List.mem_singleton.mp h)
  | cons e' entries ih =>
    rw [insertEntry] at h
    split at h
    · exact List.mem_cons.mp h
    · split at h
      · cases List.mem_cons.mp h with
        | inl heq => exact .inl heq
        | inr hmem => exact .inr (List.mem_cons_of_mem e' hmem)
      · cases List.mem_cons.mp h with
        | inl heq => exact .inr (heq ▸ List.mem_cons_self)
        | inr hmem =>
          cases ih hmem with
          | inl heq => exact .inl heq
          | inr hmem => exact .inr (List.mem_cons_of_mem e' hmem)

theorem insertEntry_ascending {k : κ} {a : α} {entries : List (κ × α)}
    (h : entries.Pairwise fun e e' => e.1 < e'.1) :
    (insertEntry k a entries).Pairwise fun e e' => e.1 < e'.1 := by
  induction entries with
  | nil => exact List.pairwise_singleton _ _
  | cons e entries ih =>
    have hhead := (List.pairwise_cons.mp h).1
    have htail := (List.pairwise_cons.mp h).2
    rw [insertEntry]
    split
    · next hless =>
      apply List.Pairwise.cons _ h
      intro e' he'
      cases List.mem_cons.mp he' with
      | inl heq => exact heq ▸ hless
      | inr hmem => exact hless.trans (hhead e' hmem)
    · next hnot =>
      split
      · next heq =>
        apply List.Pairwise.cons _ htail
        intro e' he'
        exact heq ▸ hhead e' he'
      · next hne =>
        apply List.Pairwise.cons _ (ih htail)
        intro e' he'
        cases mem_insertEntry_imp he' with
        | inl heq =>
          rw [heq]
          exact lt_of_le_of_ne (not_lt.mp hnot) (Ne.symm hne)
        | inr hmem => exact hhead e' hmem

/-- An assignment leaves the entries of other keys as they are. -/
theorem mem_insertEntry {k : κ} {a : α} {entries : List (κ × α)}
    (h : entries.Pairwise fun e e' => e.1 < e'.1) {e : κ × α} :
    e ∈ insertEntry k a entries ↔ e = (k, a) ∨ (e.1 ≠ k ∧ e ∈ entries) := by
  induction entries with
  | nil => simp [insertEntry]
  | cons e' entries ih =>
    have hhead := (List.pairwise_cons.mp h).1
    have htail := (List.pairwise_cons.mp h).2
    rw [insertEntry]
    split
    · next hless =>
      -- all keys are greater
      have hother : e ∈ e' :: entries → e.1 ≠ k := by
        intro hmem
        cases List.mem_cons.mp hmem with
        | inl heq => exact heq ▸ hless.ne'
        | inr hmem => exact (hless.trans (hhead e hmem)).ne'
      rw [List.mem_cons]
      exact or_congr_right ⟨fun hmem => ⟨hother hmem, hmem⟩, fun hmem => hmem.2⟩
    · split
      · next heq =>
        have hother : e ∈ entries ↔ e.1 ≠ k ∧ e ∈ e' :: entries := by
          apply Iff.intro
          · exact fun hmem => ⟨heq ▸ (hhead e hmem).ne', List.mem_cons_of_mem e' hmem⟩
          · intro hmem
            cases List.mem_cons.mp hmem.2 with
            | inl hsame => exact absurd (hsame ▸ heq.symm) hmem.1
            | inr hmem => exact hmem
        rw [List.mem_cons, hother]
      · next hne =>
        rw [List.mem_cons, ih htail, List.mem_cons]
        apply Iff.intro
        · intro hmem
          cases hmem with
          | inl hsame => exact .inr ⟨hsame ▸ Ne.symm hne, .inl hsame⟩
          | inr hmem =>
            cases hmem with
            | inl hsame => exact .inl hsame
            | inr hmem => exact .inr ⟨hmem.1, .inr hmem.2⟩
        · intro hmem
          cases hmem with
          | inl hsame => exact .inr (.inl hsame)
          | inr hmem =>
            cases hmem.2 with
            | inl hsame => exact .inl hsame
            | inr hrest => exact .inr (.inr ⟨hmem.1, hrest⟩)

namespace OrderedMap

/-- No entries. -/
def empty : OrderedMap κ α := ⟨[], List.Pairwise.nil⟩

variable (m : OrderedMap κ α)

/-- `m[k] = a`. -/
def insert (k : κ) (a : α) : OrderedMap κ α :=
  ⟨insertEntry k a m.entries, insertEntry_ascending m.ascending⟩

/-- `m.upper_bound(k)`, without a value for `m.end()`. -/
def upperBound (k : κ) : Option (κ × α) := m.entries.find? fun e => k < e.1

instance : Membership (κ × α) (OrderedMap κ α) where
  mem m e := e ∈ m.entries

variable {m}

theorem not_mem_empty (e : κ × α) : e ∉ (empty : OrderedMap κ α) := List.not_mem_nil

theorem mem_insert {k : κ} {a : α} {e : κ × α} :
    e ∈ m.insert k a ↔ e = (k, a) ∨ (e.1 ≠ k ∧ e ∈ m) :=
  mem_insertEntry m.ascending

/-- The first greater key is the least one. -/
theorem upperBound_spec {k : κ} {e : κ × α} (h : m.upperBound k = some e) :
    e ∈ m ∧ IsLeast {k' | k < k' ∧ ∃ e' ∈ m, e'.1 = k'} e.1 := by
  have hmem : e ∈ m := List.mem_of_find?_eq_some h
  have hkey : k < e.1 := by simpa using List.find?_some h
  refine ⟨hmem, ⟨hkey, e, hmem, rfl⟩, ?_⟩
  intro k' hk'
  obtain ⟨hless, e', he', rfl⟩ := hk'
  obtain ⟨before, after, hsplit, hbefore⟩ := (List.find?_eq_some_iff_append.mp h).2
  have hascending := m.ascending
  rw [hsplit, List.pairwise_append] at hascending
  have hmem' : e' ∈ before ++ e :: after := hsplit ▸ he'
  cases List.mem_append.mp hmem' with
  | inl hmem' => exact absurd hless (by simpa using hbefore e' hmem')
  | inr hmem' =>
    cases List.mem_cons.mp hmem' with
    | inl hsame => exact hsame ▸ le_refl _
    | inr hmem' => exact ((List.pairwise_cons.mp hascending.2.1).1 e' hmem').le

theorem upperBound_eq_none {k : κ} : m.upperBound k = none ↔ ∀ e ∈ m, e.1 ≤ k := by
  unfold upperBound
  rw [List.find?_eq_none]
  simp only [decide_eq_true_eq, not_lt]
  rfl

/-- The entries after assignments, where no two assign different values to one key. -/
theorem mem_foldl_insert {entries : List (κ × α)}
    (hsame : ∀ e ∈ entries, ∀ e' ∈ entries, e.1 = e'.1 → e = e')
    (hmap : ∀ e ∈ entries, ∀ e' ∈ m, e.1 = e'.1 → e = e') {e : κ × α} :
    e ∈ entries.foldl (fun m e => m.insert e.1 e.2) m ↔ e ∈ entries ∨ e ∈ m := by
  induction entries generalizing m with
  | nil => simp
  | cons first entries ih =>
    have hfirst {e' : κ × α} : e' ∈ m.insert first.1 first.2 ↔ e' = first ∨ e' ∈ m := by
      rw [mem_insert]
      apply or_congr_right'
      intro hne
      apply Iff.intro
      · exact fun h => h.2
      · intro hmem
        refine ⟨fun hkey => hne ?_, hmem⟩
        exact (hmap first List.mem_cons_self e' hmem hkey.symm).symm
    rw [List.foldl_cons, ih, hfirst, List.mem_cons]
    · tauto
    · exact fun e he e' he' =>
        hsame e (List.mem_cons_of_mem first he) e' (List.mem_cons_of_mem first he')
    · intro e he e' he'
      cases hfirst.mp he' with
      | inl heq =>
        rw [heq]
        exact hsame e (List.mem_cons_of_mem first he) first List.mem_cons_self
      | inr hmem => exact hmap e (List.mem_cons_of_mem first he) e' hmem

end OrderedMap

end Alus.Lib
