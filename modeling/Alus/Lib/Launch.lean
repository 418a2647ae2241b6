import Mathlib.Data.List.Basic
import Mathlib.Data.List.Nodup

/-!
# Launching one thread per cell

A data-parallel kernel runs one thread for each cell of an index set, in no particular order.
When every active thread reads and writes one address only, and no two active threads share
it, the memory after the launch is described cell by cell, whatever the order was.
-/

namespace Alus.Lib

variable {ι σ κ α : Type*}

/-- The memory after the threads have run, one after another, in the order of the list. -/
def launch (thread : ι → σ → σ) (order : List ι) (m : σ) : σ :=
  order.foldl (fun m i => thread i m) m

@[simp] theorem launch_nil (thread : ι → σ → σ) (m : σ) : launch thread [] m = m := rfl

@[simp] theorem launch_cons (thread : ι → σ → σ) (i : ι) (order : List ι) (m : σ) :
    launch thread (i :: order) m = launch thread order (thread i m) := rfl

/-- Every active thread `i` maps the content of its own address `addr i` by `cell i`; nothing
else changes. -/
structure OwnCell (active : ι → Prop) (thread : ι → σ → σ) (get : σ → κ → α) (addr : ι → κ)
    (cell : ι → α → α) : Prop where
  own : ∀ i m, active i → get (thread i m) (addr i) = cell i (get m (addr i))
  other : ∀ i m k, (active i → k ≠ addr i) → get (thread i m) k = get m k

namespace OwnCell

variable {active : ι → Prop} {thread : ι → σ → σ} {get : σ → κ → α} {addr : ι → κ}
  {cell : ι → α → α}

/-- An address that no active thread owns keeps its content. -/
theorem launch_of_forall_ne (h : OwnCell active thread get addr cell) {order : List ι} {k : κ}
    (hk : ∀ i ∈ order, active i → k ≠ addr i) (m : σ) :
    get (launch thread order m) k = get m k := by
  induction order generalizing m with
  | nil => rfl
  | cons i order ih =>
    rw [launch_cons, ih fun j hj => hk j (List.mem_cons_of_mem _ hj)]
    exact h.other i m k (hk i List.mem_cons_self)

/-- The address of an active thread holds what the thread makes of its first content. -/
theorem launch_addr (h : OwnCell active thread get addr cell) {order : List ι}
    (hnodup : order.Nodup) {i : ι} (hi : i ∈ order) (hact : active i)
    (hinj : ∀ j ∈ order, active j → addr j = addr i → j = i) (m : σ) :
    get (launch thread order m) (addr i) = cell i (get m (addr i)) := by
  induction order generalizing m with
  | nil => cases hi
  | cons j order ih =>
    obtain ⟨hj, hnodup⟩ := List.nodup_cons.mp hnodup
    have hinj' : ∀ l ∈ order, active l → addr l = addr i → l = i :=
      fun l hl => hinj l (List.mem_cons_of_mem _ hl)
    rw [launch_cons]
    rcases List.mem_cons.mp hi with rfl | hi
    · rw [h.launch_of_forall_ne fun l hl hl' heq => hj (hinj' l hl hl' heq.symm ▸ hl)]
      exact h.own i m hact
    · have hne : active j → addr i ≠ addr j := fun hj' heq =>
        hj (hinj j List.mem_cons_self hj' heq.symm ▸ hi)
      rw [ih hnodup hi hinj', h.other j m (addr i) hne]

end OwnCell

end Alus.Lib
