import Mathlib.Data.List.Basic
import Mathlib.Data.List.Nodup

/-!
# Updates in place

A kernel that reads a cell of an array and stores its result in the same cell. Every thread has a
cell of its own, so the order of the threads does not matter; each cell is read before it is
overwritten, and once.
-/

namespace Alus.Lib

variable {ι D : Type*}

/-- A cell is replaced by what is computed of it; `none` where there is no such cell, or where
nothing can be computed of it. -/
def updateCell (f : D → Option D) (m : List D) (a : Nat) : Option (List D) := do
  let d ← m[a]?
  let d' ← f d
  return m.set a d'

/-- The threads one after the other, each with the cell at its address. -/
def launchInPlace (address : ι → Nat) (f : ι → D → Option D) (order : List ι) (m : List D) :
    Option (List D) :=
  order.foldlM (fun m i => updateCell (f i) m (address i)) m

theorem updateCell_eq {f : D → Option D} {m : List D} {a : Nat} {d d' : D} (hd : m[a]? = some d)
    (hf : f d = some d') : updateCell f m a = some (m.set a d') := by
  simp [updateCell, hd, hf]

variable {address : ι → Nat} {f : ι → D → Option D}

/-- Each thread finds what its cell held before the launch. -/
theorem launchInPlace_eq (value : ι → D) {order : List ι} (hnodup : (order.map address).Nodup)
    {m : List D} (h : ∀ i ∈ order, ∃ d, m[address i]? = some d ∧ f i d = some (value i)) :
    ∃ m', launchInPlace address f order m = some m' ∧ m'.length = m.length ∧
      (∀ i ∈ order, m'[address i]? = some (value i)) ∧
      ∀ a ∉ order.map address, m'[a]? = m[a]? := by
  -- the induction is on the order; later threads do not use the cell of the first one
  induction order generalizing m with
  | nil => exact ⟨m, rfl, rfl, fun i hi => absurd hi List.not_mem_nil, fun a _ => rfl⟩
  | cons i order ih =>
    obtain ⟨hi, hnodup⟩ := List.nodup_cons.mp hnodup
    obtain ⟨d, hd, hf⟩ := h i List.mem_cons_self
    have hlt : address i < m.length := (List.getElem?_eq_some_iff.mp hd).1
    have hother {a : Nat} (ha : a ≠ address i) : (m.set (address i) (value i))[a]? = m[a]? :=
      List.getElem?_set_ne ha.symm
    have hrest : ∀ j ∈ order, ∃ d, (m.set (address i) (value i))[address j]? = some d ∧
        f j d = some (value j) := by
      intro j hj
      rw [hother fun heq => hi (heq ▸ List.mem_map_of_mem hj)]
      exact h j (List.mem_cons_of_mem i hj)
    obtain ⟨m', hm', hlength, hvalue, hkept⟩ := ih hnodup hrest
    refine ⟨m', ?_, hlength.trans List.length_set, fun j hj => ?_, fun a ha => ?_⟩
    · rw [launchInPlace, List.foldlM_cons, updateCell_eq hd hf]
      exact hm'
    · rcases List.mem_cons.mp hj with rfl | hj
      · rw [hkept _ hi, List.getElem?_set_self hlt]
      · exact hvalue j hj
    · rw [List.map_cons, List.mem_cons, not_or] at ha
      rw [hkept a ha.2, hother ha.1]

end Alus.Lib
