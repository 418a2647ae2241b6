import Mathlib.Algebra.BigOperators.Group.Finset.Basic
import Mathlib.Data.List.Nodup
import Mathlib.Data.List.ProdSigma
import Mathlib.Data.List.Perm.Basic
import Mathlib.Logic.Function.Basic
import Alus.Lib.Machine

/-!
# Kernels over a grid of blocks

A launch runs the threads of all the blocks of a grid, in no particular order. A barrier cuts the
threads of a block into phases: none of them enters a phase before the others have left the one
before. The order of a run is a list of thread steps, one for each thread and phase.

A step that only stores what it computes from its own position is described by its store, and what
a cell holds after the launch does not depend on the order. Where a step reads what others have
stored, the order is first brought to the one that goes phase by phase.
-/

namespace Alus.Lib

/-! ## Configurations -/

/-- `dim3`, without its third component. -/
structure Dim3 where
  x : Nat
  y : Nat
  deriving DecidableEq, Repr

/-- The device takes a grid that is not empty and not larger than it can count. -/
def Dim3.Valid (grid : Dim3) : Prop :=
  (0 < grid.x ∧ grid.x ≤ 2147483647) ∧ 0 < grid.y ∧ grid.y ≤ 65535

instance (grid : Dim3) : Decidable grid.Valid := inferInstanceAs (Decidable (_ ∧ _))

/-- The part of a thread between two barriers. -/
structure ThreadStep where
  phase : Nat
  blockX : Nat
  blockY : Nat
  threadX : Nat
  threadY : Nat
  deriving DecidableEq, Repr

namespace ThreadStep

/-- `threadIdx.x + blockIdx.x * blockDim.x`. -/
def posX (block : Dim3) (t : ThreadStep) : Nat := t.threadX + t.blockX * block.x

def posY (block : Dim3) (t : ThreadStep) : Nat := t.threadY + t.blockY * block.y

/-- `t` may run before `t'`: in one block, the phases follow each other. -/
def MayPrecede (t t' : ThreadStep) : Prop :=
  t.blockX = t'.blockX ∧ t.blockY = t'.blockY → t.phase ≤ t'.phase

end ThreadStep

/-- The steps of one phase, in all the blocks. -/
def phaseSteps (grid block : Dim3) (phase : Nat) : List ThreadStep :=
  ((List.range grid.y ×ˢ List.range grid.x) ×ˢ (List.range block.y ×ˢ List.range block.x)).map
    fun p => ⟨phase, p.1.2, p.1.1, p.2.2, p.2.1⟩

/-- All the steps of a launch, phase by phase. -/
def threadSteps (grid block : Dim3) (phases : Nat) : List ThreadStep :=
  (List.range phases).flatMap (phaseSteps grid block)

theorem mem_phaseSteps {grid block : Dim3} {phase : Nat} {t : ThreadStep} :
    t ∈ phaseSteps grid block phase ↔ t.phase = phase ∧
      (t.blockX < grid.x ∧ t.blockY < grid.y) ∧ t.threadX < block.x ∧ t.threadY < block.y := by
  obtain ⟨phase', blockX, blockY, threadX, threadY⟩ := t
  simp only [phaseSteps, List.mem_map, List.mem_product, List.mem_range, ThreadStep.mk.injEq,
    Prod.exists]
  constructor
  · rintro ⟨_, _, _, _, hmem, rfl, rfl, rfl, rfl, rfl⟩
    exact ⟨rfl, ⟨hmem.1.2, hmem.1.1⟩, hmem.2.2, hmem.2.1⟩
  · rintro ⟨rfl, ⟨hbx, hby⟩, htx, hty⟩
    exact ⟨blockY, blockX, threadY, threadX, ⟨⟨hby, hbx⟩, hty, htx⟩, rfl, rfl, rfl, rfl, rfl⟩

theorem mem_threadSteps {grid block : Dim3} {phases : Nat} {t : ThreadStep} :
    t ∈ threadSteps grid block phases ↔ t.phase < phases ∧
      (t.blockX < grid.x ∧ t.blockY < grid.y) ∧ t.threadX < block.x ∧ t.threadY < block.y := by
  simp only [threadSteps, List.mem_flatMap, List.mem_range, mem_phaseSteps]
  constructor
  · rintro ⟨phase, hphase, rfl, hbounds⟩
    exact ⟨hphase, hbounds⟩
  · rintro ⟨hphase, hbounds⟩
    exact ⟨t.phase, hphase, rfl, hbounds⟩

theorem threadSteps_succ (grid block : Dim3) (phases : Nat) :
    threadSteps grid block (phases + 1) =
      threadSteps grid block phases ++ phaseSteps grid block phases := by
  rw [threadSteps, List.range_succ, List.flatMap_append, List.flatMap_singleton, threadSteps]

theorem nodup_phaseSteps (grid block : Dim3) (phase : Nat) :
    (phaseSteps grid block phase).Nodup := by
  refine List.Nodup.map ?_ ((List.nodup_range.product List.nodup_range).product
    (List.nodup_range.product List.nodup_range))
  rintro ⟨⟨a, b⟩, c, d⟩ ⟨⟨a', b'⟩, c', d'⟩ h
  simp only [ThreadStep.mk.injEq, true_and] at h
  obtain ⟨rfl, rfl, rfl, rfl⟩ := h
  rfl

theorem nodup_threadSteps (grid block : Dim3) (phases : Nat) :
    (threadSteps grid block phases).Nodup := by
  refine List.nodup_flatMap.mpr ⟨fun phase _ => nodup_phaseSteps grid block phase, ?_⟩
  refine List.nodup_range.imp_of_mem fun {p q} _ _ hne t ht ht' => hne ?_
  rw [← (mem_phaseSteps.mp ht).1, (mem_phaseSteps.mp ht').1]

/-- Phase by phase, no step runs before one that it has to wait for. -/
theorem mayPrecede_threadSteps (grid block : Dim3) (phases : Nat) :
    (threadSteps grid block phases).Pairwise ThreadStep.MayPrecede := by
  refine List.pairwise_flatMap.mpr ⟨fun phase _ => ?_, ?_⟩
  · refine (nodup_phaseSteps grid block phase).imp_of_mem fun {t t'} ht ht' _ _ => ?_
    rw [(mem_phaseSteps.mp ht).1, (mem_phaseSteps.mp ht').1]
  · refine List.pairwise_lt_range.imp fun {p q} hlt t ht t' ht' _ => ?_
    rw [(mem_phaseSteps.mp ht).1, (mem_phaseSteps.mp ht').1]
    exact le_of_lt hlt

theorem pos_lt {blocks width b t : Nat} (hb : b < blocks) (ht : t < width) :
    t + b * width < blocks * width := by
  have hrow : (b + 1) * width ≤ blocks * width := Nat.mul_le_mul_right width hb
  rw [Nat.add_one_mul] at hrow
  omega

/-- The thread at a position of the grid. -/
theorem exists_threadStep {grid block : Dim3} {phases phase x y : Nat} (hp : phase < phases)
    (hx : x < grid.x * block.x) (hy : y < grid.y * block.y) :
    ∃ t ∈ threadSteps grid block phases, t.phase = phase ∧ t.posX block = x ∧
      t.posY block = y := by
  have hbx : 0 < block.x := Nat.pos_of_ne_zero fun h => by simp [h] at hx
  have hby : 0 < block.y := Nat.pos_of_ne_zero fun h => by simp [h] at hy
  refine ⟨⟨phase, x / block.x, y / block.y, x % block.x, y % block.y⟩, mem_threadSteps.mpr
    ⟨hp, ⟨Nat.div_lt_of_lt_mul ?_, Nat.div_lt_of_lt_mul ?_⟩, Nat.mod_lt _ hbx, Nat.mod_lt _ hby⟩,
    rfl, Nat.mod_add_div' x block.x, Nat.mod_add_div' y block.y⟩
  · rwa [Nat.mul_comm]
  · rwa [Nat.mul_comm]

/-! ## Orders -/

/-- How a device runs the steps of a launch: all of them, and in each block phase after phase. -/
structure Scheduler where
  order : List ThreadStep → List ThreadStep
  perm : ∀ steps, (order steps).Perm steps
  barrier : ∀ steps, (order steps).Pairwise ThreadStep.MayPrecede

/-- The device that runs phase by phase. -/
def Scheduler.byPhase : Scheduler where
  order steps := steps.mergeSort fun t t' => t.phase ≤ t'.phase
  perm steps := List.mergeSort_perm steps _
  barrier steps := by
    have hsorted : (steps.mergeSort fun t t' => t.phase ≤ t'.phase).Pairwise
        fun t t' => decide (t.phase ≤ t'.phase) = true := List.pairwise_mergeSort
      (fun a b c hab hbc => by simpa using le_trans (of_decide_eq_true hab) (of_decide_eq_true hbc))
      (fun a b => by simpa using le_total a.phase b.phase) steps
    refine hsorted.imp fun {t t'} h => ?_
    intro _
    exact of_decide_eq_true h

theorem Scheduler.mem_order (s : Scheduler) {steps : List ThreadStep} {t : ThreadStep} :
    t ∈ s.order steps ↔ t ∈ steps :=
  (s.perm steps).mem_iff

section Reorder

variable {ι σ : Type*} {f : σ → ι → σ}

/-- A step moves to the front past steps that it commutes with. -/
theorem foldl_move_front {a : ι} {before after : List ι}
    (hcomm : ∀ b ∈ before, ∀ m, f (f m a) b = f (f m b) a) (m : σ) :
    (before ++ a :: after).foldl f m = (a :: (before ++ after)).foldl f m := by
  induction before generalizing m with
  | nil => rfl
  | cons b before ih =>
    rw [List.cons_append, List.foldl_cons, ih fun c hc => hcomm c (List.mem_cons_of_mem b hc)]
    simp only [List.foldl_cons, List.cons_append]
    rw [hcomm b List.mem_cons_self]

/-- Two orders of the same steps end in the same state, when any two steps that they order
differently commute. -/
theorem foldl_eq_of_perm {R : ι → ι → Prop} {l l' : List ι} (hperm : l.Perm l')
    (hnodup : l.Nodup) (hl : l.Pairwise R) (hl' : l'.Pairwise R)
    (hcomm : ∀ a ∈ l, ∀ b ∈ l, a ≠ b → R a b → R b a → ∀ m, f (f m a) b = f (f m b) a) (m : σ) :
    l.foldl f m = l'.foldl f m := by
  induction l generalizing l' m with
  | nil => rw [hperm.nil_eq]
  | cons a l ih =>
    obtain ⟨before, after, rfl⟩ := List.append_of_mem (hperm.subset List.mem_cons_self)
    obtain ⟨hfirst, hl⟩ := List.pairwise_cons.mp hl
    obtain ⟨hnotin, hnodup⟩ := List.nodup_cons.mp hnodup
    obtain ⟨hbefore, hrest, hacross⟩ := List.pairwise_append.mp hl'
    -- `a` is the first step of one order, and is moved to the front of the other
    have hperm' : l.Perm (before ++ after) :=
      (List.perm_cons a).mp (hperm.trans List.perm_middle)
    -- what comes before `a` in the second order comes after it in the first
    have hmove : ∀ b ∈ before, ∀ m, f (f m a) b = f (f m b) a := by
      intro b hb
      have hbl : b ∈ l := hperm'.mem_iff.mpr (List.mem_append_left after hb)
      have hne : a ≠ b := fun h => hnotin (h ▸ hbl)
      exact hcomm a List.mem_cons_self b (List.mem_cons_of_mem a hbl) hne (hfirst b hbl)
        (hacross b hb a List.mem_cons_self)
    rw [foldl_move_front hmove, List.foldl_cons, List.foldl_cons]
    refine ih hperm' hnodup hl ?_ ?_ (f m a)
    · exact List.pairwise_append.mpr ⟨hbefore, (List.pairwise_cons.mp hrest).2,
        fun x hx y hy => hacross x hx y (List.mem_cons_of_mem a hy)⟩
    · exact fun x hx y hy => hcomm x (List.mem_cons_of_mem a hx) y (List.mem_cons_of_mem a hy)

end Reorder

/-- Every run of a launch ends as the one that goes phase by phase, when the steps of one phase
and the steps of different blocks commute. -/
theorem Scheduler.foldl_order {σ : Type*} {f : σ → ThreadStep → σ} (s : Scheduler)
    {grid block : Dim3} {phases : Nat}
    (hcomm : ∀ t ∈ threadSteps grid block phases, ∀ t' ∈ threadSteps grid block phases, t ≠ t' →
      ((t.blockX = t'.blockX ∧ t.blockY = t'.blockY) → t.phase = t'.phase) →
        ∀ m, f (f m t) t' = f (f m t') t) (m : σ) :
    (s.order (threadSteps grid block phases)).foldl f m =
      (threadSteps grid block phases).foldl f m := by
  refine (foldl_eq_of_perm (s.perm _).symm (nodup_threadSteps grid block phases)
    (mayPrecede_threadSteps grid block phases) (s.barrier _) ?_ m).symm
  intro t ht t' ht' hne hbefore hafter
  refine hcomm t ht t' ht' hne fun hblock => le_antisymm (hbefore hblock) ?_
  exact hafter ⟨hblock.1.symm, hblock.2.symm⟩

/-! ## Stores -/

section Stores

variable {ι κ α : Type} [DecidableEq κ]

/-- A memory after a store, if there is one. -/
def applyStore (m : κ → α) : Option (κ × α) → κ → α
  | some (k, a) => Function.update m k a
  | none => m

/-- The memory after the threads have stored what they compute, in the order of the list. -/
def runStores (thread : ι → Outcome (Option (κ × α))) (order : List ι) (m : κ → α) :
    Outcome (κ → α) :=
  order.foldlM (fun m t => do return applyStore m (← thread t)) m

variable {thread : ι → Outcome (Option (κ × α))} {order : List ι} {m m' : κ → α}

theorem runStores_cons_eq_ok {t : ι} :
    runStores thread (t :: order) m = .ok m' ↔
      ∃ w, thread t = .ok w ∧ runStores thread order (applyStore m w) = .ok m' := by
  simp only [runStores, List.foldlM_cons, Outcome.bind_eq_ok, Outcome.pure_eq]
  constructor
  · rintro ⟨m₁, ⟨w, hw, hm₁⟩, hrest⟩
    rw [Outcome.ok.injEq] at hm₁
    subst hm₁
    exact ⟨w, hw, hrest⟩
  · rintro ⟨w, hw, hrest⟩
    exact ⟨_, ⟨w, hw, rfl⟩, hrest⟩

theorem exists_runStores (h : ∀ t ∈ order, ∃ w, thread t = .ok w) (m : κ → α) :
    ∃ m', runStores thread order m = .ok m' := by
  induction order generalizing m with
  | nil => exact ⟨m, rfl⟩
  | cons t order ih =>
    obtain ⟨w, hw⟩ := h t List.mem_cons_self
    obtain ⟨m', hm'⟩ := ih (fun t' ht' => h t' (List.mem_cons_of_mem t ht')) (applyStore m w)
    exact ⟨m', runStores_cons_eq_ok.mpr ⟨w, hw, hm'⟩⟩

/-- A launch that returns has run every thread. -/
theorem ok_of_runStores (h : runStores thread order m = .ok m') {t : ι} (ht : t ∈ order) :
    ∃ w, thread t = .ok w := by
  induction order generalizing m with
  | nil => cases ht
  | cons t' order ih =>
    obtain ⟨w, hw, hrest⟩ := runStores_cons_eq_ok.mp h
    rcases List.mem_cons.mp ht with rfl | ht
    · exact ⟨w, hw⟩
    · exact ih hrest ht

/-- A cell that no thread stores to keeps its value. -/
theorem runStores_kept (h : runStores thread order m = .ok m') {k : κ}
    (hk : ∀ t ∈ order, ∀ a, thread t ≠ .ok (some (k, a))) : m' k = m k := by
  induction order generalizing m with
  | nil =>
    rw [Outcome.ok.inj h]
  | cons t order ih =>
    obtain ⟨w, hw, hrest⟩ := runStores_cons_eq_ok.mp h
    rw [ih hrest fun t' ht' => hk t' (List.mem_cons_of_mem t ht')]
    cases w with
    | none => rfl
    | some w =>
      have hne : k ≠ w.1 := fun heq => hk t List.mem_cons_self w.2 (by rw [hw, heq])
      exact Function.update_of_ne hne w.2 m

/-- A cell that some thread stores to holds that value, when no thread stores another one. -/
theorem runStores_stored (h : runStores thread order m = .ok m') {k : κ} {a : α}
    (ht : ∃ t ∈ order, thread t = .ok (some (k, a)))
    (hsame : ∀ t ∈ order, ∀ b, thread t = .ok (some (k, b)) → b = a) : m' k = a := by
  induction order generalizing m with
  | nil =>
    obtain ⟨t, ht, -⟩ := ht
    cases ht
  | cons t order ih =>
    obtain ⟨w, hw, hrest⟩ := runStores_cons_eq_ok.mp h
    have hsame' : ∀ u ∈ order, ∀ b, thread u = .ok (some (k, b)) → b = a :=
      fun u hu => hsame u (List.mem_cons_of_mem t hu)
    by_cases hlater : ∃ u ∈ order, thread u = .ok (some (k, a))
    · exact ih hrest hlater hsame'
    -- the first thread is the last one to store there
    · have hfirst : thread t = .ok (some (k, a)) := by
        obtain ⟨u, hu, hstore⟩ := ht
        rcases List.mem_cons.mp hu with rfl | hu
        · exact hstore
        · exact absurd ⟨u, hu, hstore⟩ hlater
      have hkept : m' k = applyStore m w k :=
        runStores_kept hrest fun u hu b hb => hlater ⟨u, hu, hsame' u hu b hb ▸ hb⟩
      rw [hw, Outcome.ok.injEq] at hfirst
      rw [hkept, hfirst]
      exact Function.update_self k a m

end Stores

/-! ## Launches of kernels that store -/

/-- An index that is computed in `int` and is not negative. -/
def index32 (n : Nat) : Outcome Nat := if n < 2147483648 then .ok n else .undefined

theorem index32_eq_ok {n k : Nat} : index32 n = .ok k ↔ n < 2147483648 ∧ k = n := by
  unfold index32
  split
  · simp [*, eq_comm]
  · simp [*]

theorem index32_of_lt {n : Nat} (h : n < 2147483648) : index32 n = .ok n := if_pos h

section Launch

variable {κ α : Type} [DecidableEq κ]

/-- The launch of a kernel whose threads store what they compute from their positions. A grid that
the device does not take is refused, and nothing runs. -/
def launchStores (s : Scheduler) (grid block : Dim3)
    (kernel : Nat → Nat → Outcome (Option (κ × α))) (m : κ → α) : Outcome (κ → α) :=
  if grid.Valid then
    runStores (fun t => kernel (t.posX block) (t.posY block))
      (s.order (threadSteps grid block 1)) m
  else .ok m

variable {s : Scheduler} {grid block : Dim3} {kernel : Nat → Nat → Outcome (Option (κ × α))}
  {m m' : κ → α}

variable (s grid block) in
theorem exists_launchStores
    (h : ∀ x < grid.x * block.x, ∀ y < grid.y * block.y, ∃ w, kernel x y = .ok w) (m : κ → α) :
    ∃ m', launchStores s grid block kernel m = .ok m' := by
  unfold launchStores
  split
  · refine exists_runStores (fun t ht => ?_) m
    obtain ⟨-, ⟨hbx, hby⟩, htx, hty⟩ := mem_threadSteps.mp (s.mem_order.mp ht)
    exact h _ (pos_lt hbx htx) _ (pos_lt hby hty)
  · exact ⟨m, rfl⟩

theorem ok_of_launchStores (h : launchStores s grid block kernel m = .ok m') (hv : grid.Valid)
    {x y : Nat} (hx : x < grid.x * block.x) (hy : y < grid.y * block.y) :
    ∃ w, kernel x y = .ok w := by
  rw [launchStores, if_pos hv] at h
  obtain ⟨t, ht, -, hposX, hposY⟩ := exists_threadStep Nat.one_pos hx hy
  obtain ⟨w, hw⟩ := ok_of_runStores h (s.mem_order.mpr ht)
  exact ⟨w, by rwa [hposX, hposY] at hw⟩

/-- A cell that no thread stores to keeps its value. -/
theorem launchStores_kept (h : launchStores s grid block kernel m = .ok m') {k : κ}
    (hk : ∀ x < grid.x * block.x, ∀ y < grid.y * block.y, ∀ a, kernel x y ≠ .ok (some (k, a))) :
    m' k = m k := by
  unfold launchStores at h
  split at h
  · refine runStores_kept h fun t ht => ?_
    obtain ⟨-, ⟨hbx, hby⟩, htx, hty⟩ := mem_threadSteps.mp (s.mem_order.mp ht)
    exact hk _ (pos_lt hbx htx) _ (pos_lt hby hty)
  · rw [Outcome.ok.inj h]

/-- A cell that a thread of the grid stores to holds that value, when no thread stores another
one. -/
theorem launchStores_stored (h : launchStores s grid block kernel m = .ok m') (hv : grid.Valid)
    {x y : Nat} (hx : x < grid.x * block.x) (hy : y < grid.y * block.y) {k : κ} {a : α}
    (hw : kernel x y = .ok (some (k, a)))
    (hsame : ∀ x' y' b, kernel x' y' = .ok (some (k, b)) → b = a) : m' k = a := by
  rw [launchStores, if_pos hv] at h
  obtain ⟨t, ht, -, hposX, hposY⟩ := exists_threadStep Nat.one_pos hx hy
  refine runStores_stored h ⟨t, s.mem_order.mpr ht, ?_⟩ fun t' _ b hb => hsame _ _ b hb
  rw [hposX, hposY]
  exact hw

end Launch

/-! ## Launches of kernels that read what they store -/

section Steps

variable {ι κ α : Type} [DecidableEq κ] {active : ι → Prop} [DecidablePred active] {addr : ι → κ}
  {val : ι → (κ → α) → α}

/-- A step that stores to its own cell what it reads from the memory, or does nothing. -/
def storeStep (active : ι → Prop) [DecidablePred active] (addr : ι → κ) (val : ι → (κ → α) → α)
    (m : κ → α) (t : ι) : κ → α :=
  if active t then Function.update m (addr t) (val t m) else m

/-- What step `t` stores does not depend on the cell of step `t'`. -/
def Unread (active : ι → Prop) (addr : ι → κ) (val : ι → (κ → α) → α) (t t' : ι) : Prop :=
  active t → active t' → addr t ≠ addr t' ∧ ∀ m a, val t (Function.update m (addr t') a) = val t m

theorem storeStep_comm {t t' : ι} (h : Unread active addr val t t')
    (h' : Unread active addr val t' t) (m : κ → α) :
    storeStep active addr val (storeStep active addr val m t) t' =
      storeStep active addr val (storeStep active addr val m t') t := by
  unfold storeStep
  by_cases ht : active t
  · by_cases ht' : active t'
    · obtain ⟨hne, hval⟩ := h ht ht'
      simp only [if_pos ht, if_pos ht']
      rw [(h' ht' ht).2, hval]
      exact Function.update_comm hne _ _ m
    · simp only [if_pos ht, if_neg ht']
  · simp only [if_neg ht]

/-- After steps that do not read each other's cells, the cell of each holds what the step reads
from the first memory, and the other cells are unchanged. -/
theorem foldl_storeStep {steps : List ι} (hnodup : steps.Nodup)
    (hunread : ∀ t ∈ steps, ∀ t' ∈ steps, t ≠ t' → Unread active addr val t t') (m : κ → α) :
    (∀ t ∈ steps, active t →
        steps.foldl (storeStep active addr val) m (addr t) = val t m) ∧
      ∀ k, (∀ t ∈ steps, active t → k ≠ addr t) →
        steps.foldl (storeStep active addr val) m k = m k := by
  induction steps generalizing m with
  | nil => exact ⟨fun t ht => absurd ht List.not_mem_nil, fun _ _ => rfl⟩
  | cons u steps ih =>
    obtain ⟨hu, hnodup⟩ := List.nodup_cons.mp hnodup
    obtain ⟨hcells, hother⟩ := ih hnodup (fun t ht t' ht' => hunread t (List.mem_cons_of_mem u ht)
      t' (List.mem_cons_of_mem u ht')) (storeStep active addr val m u)
    refine ⟨fun t ht hact => ?_, fun k hk => ?_⟩
    · rw [List.foldl_cons]
      rcases List.mem_cons.mp ht with rfl | ht
      -- what the step has stored stays, since the later ones have other cells
      · have hlater : ∀ t' ∈ steps, active t' → addr t ≠ addr t' := fun t' ht' hact' =>
          (hunread t List.mem_cons_self t' (List.mem_cons_of_mem t ht')
            (fun h => hu (h ▸ ht')) hact hact').1
        rw [hother _ hlater, storeStep, if_pos hact, Function.update_self]
      -- and a later step does not read the cell of the first
      · rw [hcells t ht hact, storeStep]
        split
        · next hact' =>
          have hne : t ≠ u := fun h => hu (h ▸ ht)
          exact (hunread t (List.mem_cons_of_mem u ht) u List.mem_cons_self hne hact hact').2 m _
        · rfl
    · rw [List.foldl_cons, hother k fun t ht => hk t (List.mem_cons_of_mem u ht), storeStep]
      split
      · next hact => exact Function.update_of_ne (hk u List.mem_cons_self hact) _ m
      · rfl

/-- Steps that do not read each other's cells end alike when they store alike. -/
theorem foldl_storeStep_congr {val' : ι → (κ → α) → α} {steps : List ι} (hnodup : steps.Nodup)
    (hunread : ∀ t ∈ steps, ∀ t' ∈ steps, t ≠ t' → Unread active addr val t t')
    (hunread' : ∀ t ∈ steps, ∀ t' ∈ steps, t ≠ t' → Unread active addr val' t t') (m : κ → α)
    (hval : ∀ t ∈ steps, active t → val t m = val' t m) :
    steps.foldl (storeStep active addr val) m = steps.foldl (storeStep active addr val') m := by
  obtain ⟨hcells, hother⟩ := foldl_storeStep hnodup hunread m
  obtain ⟨hcells', hother'⟩ := foldl_storeStep hnodup hunread' m
  funext k
  by_cases hk : ∃ t ∈ steps, active t ∧ k = addr t
  · obtain ⟨t, ht, hact, rfl⟩ := hk
    rw [hcells t ht hact, hcells' t ht hact, hval t ht hact]
  · have hnone : ∀ t ∈ steps, active t → k ≠ addr t := fun t ht hact heq => hk ⟨t, ht, hact, heq⟩
    rw [hother k hnone, hother' k hnone]

end Steps

section LaunchSteps

variable {κ α : Type} [DecidableEq κ]

/-- The launch of a kernel with barriers, whose steps read the memory and store to one cell. -/
def launchSteps (s : Scheduler) (grid block : Dim3) (phases : Nat)
    (kernel : ThreadStep → (κ → α) → Outcome (Option (κ × α))) (m : κ → α) : Outcome (κ → α) :=
  if grid.Valid then
    (s.order (threadSteps grid block phases)).foldlM
      (fun m t => do return applyStore m (← kernel t m)) m
  else .ok m

variable {s : Scheduler} {grid block : Dim3} {phases : Nat}
  {kernel : ThreadStep → (κ → α) → Outcome (Option (κ × α))} {active : ThreadStep → Prop}
  [DecidablePred active] {addr : ThreadStep → κ} {val : ThreadStep → (κ → α) → α}

variable (s block phases) in
/-- A launch whose steps return, and do not read each other's cells unless a barrier separates
them, ends as if it had gone phase by phase. -/
theorem launchSteps_eq_ok (hvalid : grid.Valid)
    (hkernel : ∀ t ∈ threadSteps grid block phases, ∀ m,
      kernel t m = .ok (if active t then some (addr t, val t m) else none))
    (hunread : ∀ t ∈ threadSteps grid block phases, ∀ t' ∈ threadSteps grid block phases, t ≠ t' →
      ((t.blockX = t'.blockX ∧ t.blockY = t'.blockY) → t.phase = t'.phase) →
        Unread active addr val t t') (m : κ → α) :
    launchSteps s grid block phases kernel m =
      .ok ((threadSteps grid block phases).foldl (storeStep active addr val) m) := by
  rw [launchSteps, if_pos hvalid]
  have hpure : ∀ t ∈ s.order (threadSteps grid block phases), ∀ m : κ → α,
      (do return applyStore m (← kernel t m) : Outcome (κ → α)) =
        .ok (storeStep active addr val m t) := by
    intro t ht m
    rw [hkernel t (s.mem_order.mp ht) m, Outcome.ok_bind, Outcome.pure_eq, storeStep]
    split <;> rfl
  rw [Outcome.foldlM_eq_ok hpure m, s.foldl_order]
  intro t ht t' ht' hne hphase
  exact storeStep_comm (hunread t ht t' ht' hne hphase) (hunread t' ht' t ht hne.symm
    fun h => (hphase ⟨h.1.symm, h.2.symm⟩).symm)

/-- A launch that returns has run every step, on some memory. -/
theorem ok_of_launchSteps {m m' : κ → α} (h : launchSteps s grid block phases kernel m = .ok m')
    (hvalid : grid.Valid) {t : ThreadStep} (ht : t ∈ threadSteps grid block phases) :
    ∃ m w, kernel t m = .ok w := by
  rw [launchSteps, if_pos hvalid] at h
  obtain ⟨m₁, m₂, hstep⟩ := Outcome.ok_of_foldlM h (s.mem_order.mpr ht)
  obtain ⟨w, hw, -⟩ := Outcome.bind_eq_ok.mp hstep
  exact ⟨m₁, w, hw⟩

/-- A cell that no step stores to keeps its value. -/
theorem launchSteps_kept {m m' : κ → α} (h : launchSteps s grid block phases kernel m = .ok m')
    {k : κ} (hk : ∀ t ∈ threadSteps grid block phases, ∀ m a, kernel t m ≠ .ok (some (k, a))) :
    m' k = m k := by
  unfold launchSteps at h
  split at h
  · refine Outcome.foldlM_inv (fun m₁ => m₁ k = m k) (fun m₁ t m₂ ht hm₁ hstep => ?_) rfl h
    obtain ⟨w, hw, hm₂⟩ := Outcome.bind_eq_ok.mp hstep
    rw [Outcome.pure_eq, Outcome.ok.injEq] at hm₂
    rw [← hm₂, ← hm₁]
    cases w with
    | none => rfl
    | some w =>
      have hne : k ≠ w.1 := fun heq => hk t (s.mem_order.mp ht) m₁ w.2 (by rw [hw, heq])
      exact Function.update_of_ne hne w.2 m₁
  · rw [Outcome.ok.inj h]

end LaunchSteps

/-! ## Sums in strides -/

/-- The values of `for (int i = start; i < stop; i += step)`. -/
def stridedRange (start stop step : Nat) : List Nat :=
  List.range' start ((stop - start + step - 1) / step) step

theorem mem_stridedRange {start stop step i : Nat} (hstep : 0 < step) :
    i ∈ stridedRange start stop step ↔ i < stop ∧ ∃ k, i = start + step * k := by
  rw [stridedRange, List.mem_range']
  constructor
  · rintro ⟨k, hk, rfl⟩
    have hle : step * (k + 1) ≤ stop - start + step - 1 :=
      (Nat.mul_le_mul_left step hk).trans (Nat.mul_div_le _ step)
    rw [Nat.mul_add_one] at hle
    exact ⟨by omega, k, rfl⟩
  · rintro ⟨hlt, k, rfl⟩
    refine ⟨k, (Nat.le_div_iff_mul_le hstep).mpr ?_, rfl⟩
    rw [Nat.add_one_mul, Nat.mul_comm k]
    omega

theorem nodup_stridedRange {start stop step : Nat} (hstep : 0 < step) :
    (stridedRange start stop step).Nodup :=
  List.nodup_range' _ hstep

/-- The threads of a block share the range out among them. -/
theorem sum_stridedRange {M : Type*} [AddCommMonoid M] {step : Nat} (hstep : 0 < step) (stop : Nat)
    (f : Nat → M) :
    ∑ start ∈ Finset.range step, ((stridedRange start stop step).map f).sum =
      ∑ i ∈ Finset.range stop, f i := by
  have hfiber : ∀ start ∈ Finset.range step, ((stridedRange start stop step).map f).sum =
      ∑ i ∈ Finset.range stop with i % step = start, f i := by
    intro start hstart
    have hset : (stridedRange start stop step).toFinset =
        Finset.filter (fun i => i % step = start) (Finset.range stop) := by
      ext i
      simp only [List.mem_toFinset, mem_stridedRange hstep, Finset.mem_filter, Finset.mem_range]
      refine and_congr_right fun _ => ⟨?_, fun h => ⟨i / step, ?_⟩⟩
      · rintro ⟨k, rfl⟩
        rw [Nat.add_mul_mod_self_left, Nat.mod_eq_of_lt (Finset.mem_range.mp hstart)]
      · rw [← h, Nat.mod_add_div]
    rw [← hset, List.sum_toFinset f (nodup_stridedRange hstep)]
  rw [Finset.sum_congr rfl hfiber]
  exact Finset.sum_fiberwise_of_maps_to
    (fun i _ => Finset.mem_range.mpr (Nat.mod_lt i hstep)) f

/-- An accumulating loop. -/
theorem foldl_add_map {ι M : Type*} [AddMonoid M] (l : List ι) (f : ι → M) (a : M) :
    l.foldl (fun acc i => acc + f i) a = a + (l.map f).sum := by
  induction l generalizing a with
  | nil => rw [List.foldl_nil, List.map_nil, List.sum_nil, add_zero]
  | cons i l ih => rw [List.foldl_cons, ih, List.map_cons, List.sum_cons, add_assoc]

/-- One round of a tree reduction keeps the sum. -/
theorem sum_halves {M : Type*} [AddCommMonoid M] (f : Nat → M) (n : Nat) :
    ∑ t ∈ Finset.range n, (f t + f (t + n)) = ∑ t ∈ Finset.range (n + n), f t := by
  rw [Finset.sum_range_add, Finset.sum_add_distrib]
  exact congrArg _ (Finset.sum_congr rfl fun t _ => by rw [Nat.add_comm])

/-! ## Images stored by rows -/

/-- The position in a row and the row are found again from the index. -/
theorem row_index_inj {width x y x' y' : Nat} (hx : x < width) (hx' : x' < width)
    (h : y * width + x = y' * width + x') : x = x' ∧ y = y' := by
  have hmod : (y * width + x) % width = (y' * width + x') % width := by rw [h]
  have hdiv : (y * width + x) / width = (y' * width + x') / width := by rw [h]
  rw [Nat.mul_add_mod_of_lt hx, Nat.mul_add_mod_of_lt hx'] at hmod
  rw [Nat.mul_comm y, Nat.mul_comm y', Nat.mul_add_div (by omega), Nat.mul_add_div (by omega),
    Nat.div_eq_of_lt hx, Nat.div_eq_of_lt hx'] at hdiv
  exact ⟨hmod, hdiv⟩

/-- An index of an image is below the number of its elements. -/
theorem row_index_lt {width height x y : Nat} (hx : x < width) (hy : y < height) :
    y * width + x < width * height := by
  have hrow : (y + 1) * width ≤ height * width := Nat.mul_le_mul_right width hy
  rw [Nat.add_one_mul] at hrow
  rw [Nat.mul_comm width height]
  omega

/-- A launch whose blocks cover an image, and whose threads store one element each inside of it and
nothing outside, fills the image. -/
theorem exists_launchImage {α : Type} (s : Scheduler) {grid block : Dim3} {width height : Nat}
    {kernel : Nat → Nat → Outcome (Option (Nat × α))} {value : Nat → Nat → α}
    (hvalid : grid.Valid) (hwidth : width ≤ grid.x * block.x) (hheight : height ≤ grid.y * block.y)
    (hinside : ∀ x y, x < width → y < height →
      kernel x y = .ok (some (y * width + x, value x y)))
    (houtside : ∀ x y, ¬ (x < width ∧ y < height) → ∀ w, kernel x y ≠ .ok (some w))
    (hreturns : ∀ x < grid.x * block.x, ∀ y < grid.y * block.y, ∃ w, kernel x y = .ok w)
    (m : Nat → α) :
    ∃ m', launchStores s grid block kernel m = .ok m' ∧
      ∀ x y, x < width → y < height → m' (y * width + x) = value x y := by
  obtain ⟨m', hm'⟩ := exists_launchStores s grid block hreturns m
  refine ⟨m', hm', fun x y hx hy => ?_⟩
  apply launchStores_stored hm' hvalid (by omega) (by omega) (hinside x y hx hy)
  intro x' y' b hb
  by_cases hin : x' < width ∧ y' < height
  -- two threads of the image that store to one element are one thread
  · rw [hinside x' y' hin.1 hin.2, Outcome.ok.injEq, Option.some.injEq, Prod.mk.injEq] at hb
    obtain ⟨hindex, hvalue⟩ := hb
    obtain ⟨rfl, rfl⟩ := row_index_inj hin.1 hx hindex
    exact hvalue.symm
  · exact absurd hb (houtside x' y' hin _)

end Alus.Lib
