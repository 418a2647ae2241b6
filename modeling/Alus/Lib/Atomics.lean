import Alus.Lib.Reduction

/-!
# Atomic additions

The threads of a launch add numbers to cells of the device memory, each addition being atomic. They
are ordered in no particular way, not even those of one thread, and what a cell holds at the end is
the sum of all that was added to it, in the width of the cell.
-/

namespace Alus.Lib

/-- How a device orders the atomic operations of a launch. -/
structure AtomicOrder where
  order : List ThreadStep → List ThreadStep
  perm : ∀ steps, (order steps).Perm steps

section Add

variable {κ : Type} [DecidableEq κ]

/-- `atomicAdd(&m[k], a)`, on an unsigned number of so many bits. -/
def atomicAdd (bits : Nat) (m : κ → Nat) (k : κ) (a : Nat) : κ → Nat :=
  Function.update m k ((m k + a) % 2 ^ bits)

/-- The launch of a kernel whose threads make so many atomic additions each, numbered by the phase
of the step. A grid that the device does not take is refused, and nothing runs. -/
def launchAtomicAdds (s : AtomicOrder) (grid block : Dim3) (additions bits : Nat)
    (kernel : ThreadStep → Outcome (κ × Nat)) (m : κ → Nat) : Outcome (κ → Nat) :=
  if grid.Valid then
    (s.order (threadSteps grid block additions)).foldlM (fun m t => do
      let (k, a) ← kernel t
      return atomicAdd bits m k a) m
  else .ok m

/-- What a cell holds after additions in any order. -/
theorem foldl_atomicAdd {ι : Type} (bits : Nat) (cell : ι → κ) (val : ι → Nat) (order : List ι)
    {m : κ → Nat} {k : κ} (hk : m k < 2 ^ bits) :
    order.foldl (fun m t => atomicAdd bits m (cell t) (val t)) m k =
      (m k + ((order.filter fun t => cell t = k).map val).sum) % 2 ^ bits := by
  induction order generalizing m with
  | nil =>
    show m k = (m k + 0) % 2 ^ bits
    rw [Nat.add_zero, Nat.mod_eq_of_lt hk]
  | cons t order ih =>
    rw [List.foldl_cons]
    by_cases hcell : cell t = k
    · have hfirst : atomicAdd bits m (cell t) (val t) k = (m k + val t) % 2 ^ bits := by
        rw [hcell, atomicAdd, Function.update_self]
      rw [ih (hfirst ▸ Nat.mod_lt _ (Nat.two_pow_pos bits)), hfirst,
        List.filter_cons_of_pos (by simpa using hcell), List.map_cons, List.sum_cons,
        Nat.mod_add_mod, Nat.add_assoc]
    · have hother : atomicAdd bits m (cell t) (val t) k = m k :=
        Function.update_of_ne (Ne.symm hcell) _ m
      rw [ih (hother ▸ hk), hother, List.filter_cons_of_neg (by simpa using hcell)]

variable {s : AtomicOrder} {grid block : Dim3} {additions bits : Nat}
  {kernel : ThreadStep → Outcome (κ × Nat)} {m m' : κ → Nat}

/-- Whatever the order, each cell ends with the sum of what the threads add to it. -/
theorem exists_launchAtomicAdds (s : AtomicOrder) (block : Dim3) (additions bits : Nat)
    (hvalid : grid.Valid) (cell : ThreadStep → κ) (val : ThreadStep → Nat)
    (hkernel : ∀ t ∈ threadSteps grid block additions, kernel t = .ok (cell t, val t))
    (m : κ → Nat) :
    ∃ m', launchAtomicAdds s grid block additions bits kernel m = .ok m' ∧ ∀ k, m k < 2 ^ bits →
      m' k = (m k + (((threadSteps grid block additions).filter fun t => cell t = k).map val).sum) %
        2 ^ bits := by
  have hperm := s.perm (threadSteps grid block additions)
  have hstep : ∀ t ∈ s.order (threadSteps grid block additions), ∀ m : κ → Nat,
      (do
        let (k, a) ← kernel t
        return atomicAdd bits m k a : Outcome (κ → Nat)) =
      .ok (atomicAdd bits m (cell t) (val t)) := by
    intro t ht m
    rw [hkernel t (hperm.mem_iff.mp ht)]
    rfl
  have hrun := Outcome.foldlM_eq_ok hstep m
  rw [launchAtomicAdds, if_pos hvalid]
  refine ⟨_, hrun, fun k hk => ?_⟩
  rw [foldl_atomicAdd bits cell val _ hk, ((hperm.filter _).map val).sum_eq]

/-- A launch that returns has run the threads. -/
theorem ok_of_launchAtomicAdds
    (h : launchAtomicAdds s grid block additions bits kernel m = .ok m') (hvalid : grid.Valid)
    {t : ThreadStep} (ht : t ∈ threadSteps grid block additions) : ∃ w, kernel t = .ok w := by
  rw [launchAtomicAdds, if_pos hvalid] at h
  obtain ⟨_, _, hstep⟩ := Outcome.ok_of_foldlM h ((s.perm _).mem_iff.mpr ht)
  obtain ⟨w, hw, -⟩ := Outcome.bind_eq_ok.mp hstep
  exact ⟨w, hw⟩

end Add

/-! ## Sums over the threads -/

/-- The steps of one phase. -/
theorem filter_threadSteps (grid block : Dim3) {phase phases : Nat} (h : phase < phases) :
    (threadSteps grid block phases).filter (fun t => t.phase = phase) =
      phaseSteps grid block phase := by
  induction phases with
  | zero => omega
  | succ phases ih =>
    rw [threadSteps_succ, List.filter_append]
    cases Nat.lt_succ_iff_lt_or_eq.mp h with
    | inl hless =>
      have hnone : (phaseSteps grid block phases).filter (fun t => t.phase = phase) = [] := by
        apply List.filter_eq_nil_iff.mpr
        intro t ht
        simp only [decide_eq_true_eq]
        rw [(mem_phaseSteps.mp ht).1]
        omega
      rw [ih hless, hnone, List.append_nil]
    | inr hsame =>
      have hnone : (threadSteps grid block phases).filter (fun t => t.phase = phase) = [] := by
        apply List.filter_eq_nil_iff.mpr
        intro t ht
        simp only [decide_eq_true_eq]
        have hless := (mem_threadSteps.mp ht).1
        omega
      have hall : (phaseSteps grid block phases).filter (fun t => t.phase = phase) =
          phaseSteps grid block phases := by
        apply List.filter_eq_self.mpr
        intro t ht
        simp only [decide_eq_true_eq]
        rw [(mem_phaseSteps.mp ht).1, hsame]
      rw [hnone, hall, List.nil_append, hsame]

theorem sum_map_product {α β M : Type*} [AddCommMonoid M] (l : List α) (l' : List β)
    (f : α × β → M) :
    ((l ×ˢ l').map f).sum = (l.map fun a => (l'.map fun b => f (a, b)).sum).sum := by
  induction l with
  | nil => rfl
  | cons a l ih =>
    rw [List.product_cons, List.map_append, List.sum_append, List.map_map, ih, List.map_cons,
      List.sum_cons]
    rfl

/-- The sum over the threads of a phase, block by block. -/
theorem sum_phaseSteps {M : Type*} [AddCommMonoid M] (grid block : Dim3) (phase : Nat)
    (f : ThreadStep → M) :
    ((phaseSteps grid block phase).map f).sum =
      ∑ blockY ∈ Finset.range grid.y, ∑ blockX ∈ Finset.range grid.x,
        ∑ threadY ∈ Finset.range block.y, ∑ threadX ∈ Finset.range block.x,
          f ⟨phase, blockX, blockY, threadX, threadY⟩ := by
  rw [phaseSteps, List.map_map, sum_map_product, sum_map_product, sum_map_range]
  refine Finset.sum_congr rfl fun blockY _ => ?_
  rw [sum_map_range]
  refine Finset.sum_congr rfl fun blockX _ => ?_
  rw [sum_map_product, sum_map_range]
  refine Finset.sum_congr rfl fun threadY _ => ?_
  rw [sum_map_range]
  rfl

end Alus.Lib
