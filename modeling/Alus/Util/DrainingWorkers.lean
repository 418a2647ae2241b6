import Alus.Lib.Machine
import Alus.Util.ImageWorkers

/-!
# Workers that drain the queue

The threads of the backgeocoding controller pop a task and then look at the exceptions: when there
are any, they leave the task as it is and pop the next one. A task is computed as a whole, and what
it gives is written piece by piece, each under a lock of the writer. What is thrown meanwhile is
added to the exceptions, and the thread goes on with the next task.

The queue is empty at the end in any case; what is written is complete when nothing was thrown.
-/

namespace Alus.Util

open Alus.Lib

variable {T ι W E : Type*} [DecidableEq ι]

/-! ## The system -/

/-- Where a thread stands, with its task and the position this had in the queue. -/
inductive TaskState (T W : Type*) where
  | popping
  /-- about to read the number of the exceptions -/
  | testing (position : Nat) (task : T)
  | computing (position : Nat) (task : T)
  /-- with what is still to be written -/
  | writing (position : Nat) (task : T) (rest : List W)
  | stopped

structure DrainState (T ι W E : Type*) where
  queue : ThreadSafeTileQueue T
  workers : ι → TaskState T W
  exceptions : List E
  written : List (Nat × W)

/-- A step of one thread. -/
inductive DrainStep (work : T → Outcome (List W)) :
    DrainState T ι W E → DrainState T ι W E → Prop where
  | pop (s : DrainState T ι W E) (w : ι) (task : T) (q : ThreadSafeTileQueue T)
      (hw : s.workers w = .popping) (hpop : s.queue.popFront = some (task, q)) :
      DrainStep work s { s with
        queue := q
        workers := Function.update s.workers w (.testing s.queue.queueIndex task) }
  | popEmpty (s : DrainState T ι W E) (w : ι) (hw : s.workers w = .popping)
      (hpop : s.queue.popFront = none) :
      DrainStep work s { s with workers := Function.update s.workers w .stopped }
  | skip (s : DrainState T ι W E) (w : ι) (p : Nat) (task : T)
      (hw : s.workers w = .testing p task) (hthrown : s.exceptions ≠ []) :
      DrainStep work s { s with workers := Function.update s.workers w .popping }
  | enter (s : DrainState T ι W E) (w : ι) (p : Nat) (task : T)
      (hw : s.workers w = .testing p task) (hnone : s.exceptions = []) :
      DrainStep work s { s with workers := Function.update s.workers w (.computing p task) }
  | compute (s : DrainState T ι W E) (w : ι) (p : Nat) (task : T) (values : List W)
      (hw : s.workers w = .computing p task) (hwork : work task = .ok values) :
      DrainStep work s { s with workers := Function.update s.workers w (.writing p task values) }
  | write (s : DrainState T ι W E) (w : ι) (p : Nat) (task : T) (value : W) (rest : List W)
      (hw : s.workers w = .writing p task (value :: rest)) :
      DrainStep work s { s with
        workers := Function.update s.workers w (.writing p task rest)
        written := s.written ++ [(p, value)] }
  | finish (s : DrainState T ι W E) (w : ι) (p : Nat) (task : T)
      (hw : s.workers w = .writing p task []) :
      DrainStep work s { s with workers := Function.update s.workers w .popping }
  | raise (s : DrainState T ι W E) (w : ι) (p : Nat) (task : T) (e : E)
      (hw : s.workers w = .computing p task ∨
        ∃ value rest, s.workers w = .writing p task (value :: rest)) :
      DrainStep work s { s with
        workers := Function.update s.workers w .popping
        exceptions := s.exceptions ++ [e] }

/-- What is written of a task that can be computed. -/
def outputs (work : T → Outcome (List W)) (task : T) : List W :=
  match work task with
  | .ok values => values
  | _ => []

/-- The threads over `tasks`, with nothing written and nothing thrown. -/
def drain (ι E : Type*) [DecidableEq ι] (work : T → Outcome (List W)) (tasks : List T) :
    System (DrainState T ι W E) where
  init s := s.queue = .insertData tasks ∧ (∀ w, s.workers w = .popping) ∧ s.exceptions = [] ∧
    s.written = []
  step := DrainStep work

namespace TaskState

/-- The task of a thread. -/
def held : TaskState T W → Option (Nat × T)
  | testing p task | computing p task | writing p task _ => some (p, task)
  | popping | stopped => none

/-- The task of a thread that has not met an exception before it. -/
def begun : TaskState T W → Option (Nat × T)
  | computing p task | writing p task _ => some (p, task)
  | testing .. | popping | stopped => none

/-- What of the task has been written where a thread stands. -/
def Wrote (work : T → Outcome (List W)) (part : List W) : TaskState T W → Prop
  | writing _ task rest => work task = .ok (part ++ rest)
  | _ => part = []

end TaskState

theorem outputs_eq {work : T → Outcome (List W)} {task : T} {values : List W}
    (h : work task = .ok values) : outputs work task = values := by
  rw [outputs, h]

/-! ## The invariant -/

/-- What holds of the queue, the threads and what was written in every reachable state. -/
structure DrainInv (work : T → Outcome (List W)) (tasks : List T) (s : DrainState T ι W E) :
    Prop where
  tasks_eq : s.queue.tiles = tasks
  held : ∀ w p task, (s.workers w).held = some (p, task) →
    p < s.queue.queueIndex ∧ tasks[p]? = some task
  apart : ∀ w w' p task task', (s.workers w).held = some (p, task) →
    (s.workers w').held = some (p, task') → w = w'
  wrote : ∀ w p task, (s.workers w).held = some (p, task) →
    (s.workers w).Wrote work (writesAt s.written p)
  part : ∀ p task, tasks[p]? = some task →
    writesAt s.written p = [] ∨ ∃ values, work task = .ok values ∧ writesAt s.written p <+: values
  /-- without an exception a task that no thread has any more is written -/
  complete : ∀ p task, tasks[p]? = some task → p < s.queue.queueIndex → s.exceptions = [] →
    (∀ w, (s.workers w).held ≠ some (p, task)) → work task = .ok (writesAt s.written p)
  unwritten : ∀ p, s.queue.queueIndex ≤ p → writesAt s.written p = []
  stopped : ∀ w, s.workers w = .stopped → s.queue.queueIndex = tasks.length

section Invariant

variable {work : T → Outcome (List W)} {tasks : List T} {s t : DrainState T ι W E}

theorem drainInv_init (h : (drain ι E work tasks).init s) : DrainInv work tasks s := by
  obtain ⟨hqueue, hworkers, -, hwritten⟩ := h
  have hindex : s.queue.queueIndex = 0 := by rw [hqueue]; rfl
  have hheld (w : ι) : (s.workers w).held = none := by rw [hworkers w]; rfl
  refine ⟨by rw [hqueue]; rfl, ?_, ?_, ?_, ?_, ?_, ?_, ?_⟩
  · intro w p task hw
    simp [hheld] at hw
  · intro w w' p task task' hw
    simp [hheld] at hw
  · intro w p task hw
    simp [hheld] at hw
  · intro p task _
    exact .inl (by rw [hwritten]; rfl)
  · intro p task _ hp
    omega
  · intro p _
    rw [hwritten]
    rfl
  · intro w hw
    simp [hworkers w] at hw

/-- A thread goes on with its task; what it writes is part of this. -/
theorem DrainInv.keep (h : DrainInv work tasks s) {w : ι} {p : Nat} {task : T} {x : TaskState T W}
    (hheld : (s.workers w).held = some (p, task)) (hx : x.held = some (p, task))
    (hworkers : t.workers = Function.update s.workers w x) (hqueue : t.queue = s.queue)
    (hexceptions : t.exceptions = s.exceptions)
    (hother : ∀ q ≠ p, writesAt t.written q = writesAt s.written q)
    (hwrote : x.Wrote work (writesAt t.written p))
    (hpart : writesAt t.written p = [] ∨
      ∃ values, work task = .ok values ∧ writesAt t.written p <+: values) :
    DrainInv work tasks t := by
  have hsame (v : ι) : (t.workers v).held = (s.workers v).held := by
    rw [hworkers]
    by_cases hv : v = w
    · subst hv
      rw [Function.update_self, hx, hheld]
    · rw [Function.update_of_ne hv]
  obtain ⟨hlt, htask⟩ := h.held w p task hheld
  refine ⟨hqueue ▸ h.tasks_eq, fun v q task' hv => ?held, fun v v' q task₁ task₂ hv hv' => ?apart,
    fun v q task' hv => ?wrote, fun q task' hq => ?part, fun q task' hq hlt' hnone hfree =>
    ?complete, fun q hq => ?unwritten, fun v hv => ?stopped⟩
  case held =>
    rw [hqueue]
    exact h.held v q task' (hsame v ▸ hv)
  case apart => exact h.apart v v' q task₁ task₂ (hsame v ▸ hv) (hsame v' ▸ hv')
  case wrote =>
    rw [hsame] at hv
    rw [hworkers]
    by_cases hvw : v = w
    · subst hvw
      obtain rfl : p = q := congrArg Prod.fst (Option.some.inj (hheld.symm.trans hv))
      rwa [Function.update_self]
    · have hne : q ≠ p := by
        rintro rfl
        exact hvw (h.apart v w q task' task hv hheld)
      rw [Function.update_of_ne hvw, hother q hne]
      exact h.wrote v q task' hv
  case part =>
    by_cases hqp : q = p
    · subst hqp
      obtain rfl := Option.some.inj (htask.symm.trans hq)
      exact hpart
    · rw [hother q hqp]
      exact h.part q task' hq
  case complete =>
    have hqp : q ≠ p := by
      rintro rfl
      obtain rfl := Option.some.inj (htask.symm.trans hq)
      exact hfree w (by rw [hsame, hheld])
    rw [hother q hqp]
    exact h.complete q task' hq (hqueue ▸ hlt') (hexceptions ▸ hnone) fun v => hsame v ▸ hfree v
  case unwritten =>
    rw [hqueue] at hq
    rw [hother q (by omega)]
    exact h.unwritten q hq
  case stopped =>
    rw [hworkers] at hv
    rw [hqueue]
    by_cases hvw : v = w
    · subst hvw
      rw [Function.update_self] at hv
      rw [hv] at hx
      cases hx
    · rw [Function.update_of_ne hvw] at hv
      exact h.stopped v hv

/-- A thread has done with its task, or something was thrown. -/
theorem DrainInv.release (h : DrainInv work tasks s) {w : ι} {x : TaskState T W}
    (hx : x.held = none) (hworkers : t.workers = Function.update s.workers w x)
    (hqueue : t.queue = s.queue) (hwritten : t.written = s.written)
    (hexceptions : t.exceptions = [] → s.exceptions = [] ∧ ∀ p task,
      (s.workers w).held = some (p, task) → work task = .ok (writesAt s.written p))
    (hstopped : x = .stopped → s.queue.queueIndex = tasks.length) :
    DrainInv work tasks t := by
  have hheld {v : ι} {q : Nat × T} (hv : (t.workers v).held = some q) :
      v ≠ w ∧ t.workers v = s.workers v := by
    rw [hworkers] at hv ⊢
    by_cases hvw : v = w
    · subst hvw
      rw [Function.update_self, hx] at hv
      cases hv
    · exact ⟨hvw, Function.update_of_ne hvw _ _⟩
  refine ⟨hqueue ▸ h.tasks_eq, fun v q task hv => ?held, fun v v' q task₁ task₂ hv hv' => ?apart,
    fun v q task hv => ?wrote, fun q task hq => hwritten ▸ h.part q task hq,
    fun q task hq hlt hnone hfree => ?complete, fun q hq => ?unwritten, fun v hv => ?stopped⟩
  case held =>
    rw [hqueue]
    exact h.held v q task ((hheld hv).2 ▸ hv)
  case apart =>
    exact h.apart v v' q task₁ task₂ ((hheld hv).2 ▸ hv) ((hheld hv').2 ▸ hv')
  case wrote =>
    rw [hwritten, (hheld hv).2]
    exact h.wrote v q task ((hheld hv).2 ▸ hv)
  case complete =>
    obtain ⟨hbefore, hdone⟩ := hexceptions hnone
    rw [hwritten]
    by_cases hown : (s.workers w).held = some (q, task)
    · exact hdone q task hown
    · refine h.complete q task hq (hqueue ▸ hlt) hbefore fun v => ?_
      by_cases hvw : v = w
      · exact hvw ▸ hown
      · have hv := hfree v
        rwa [hworkers, Function.update_of_ne hvw] at hv
  case unwritten =>
    rw [hwritten]
    exact h.unwritten q (hqueue ▸ hq)
  case stopped =>
    rw [hqueue]
    rw [hworkers] at hv
    by_cases hvw : v = w
    · subst hvw
      exact hstopped (by rwa [Function.update_self] at hv)
    · rw [Function.update_of_ne hvw] at hv
      exact h.stopped v hv

theorem DrainInv.pop (h : DrainInv work tasks s) {w : ι} {task : T} {q : ThreadSafeTileQueue T}
    (hw : s.workers w = .popping) (hpop : s.queue.popFront = some (task, q)) :
    DrainInv work tasks { s with
      queue := q
      workers := Function.update s.workers w (.testing s.queue.queueIndex task) } := by
  obtain ⟨hget, htiles, hindex⟩ := ThreadSafeTileQueue.popFront_eq_some hpop
  have hlt : s.queue.queueIndex < s.queue.tiles.length := (List.getElem?_eq_some_iff.mp hget).1
  rw [h.tasks_eq] at hget hlt
  have hunwritten := h.unwritten s.queue.queueIndex (Nat.le_refl _)
  -- a thread has its task from before, or it has the one that was popped
  have hcases {v : ι} {p : Nat} {task' : T}
      (hv : (Function.update s.workers w (.testing s.queue.queueIndex task) v).held =
        some (p, task')) :
      (v ≠ w ∧ (s.workers v).held = some (p, task')) ∨
        (v = w ∧ p = s.queue.queueIndex ∧ task' = task) := by
    by_cases hvw : v = w
    · subst hvw
      rw [Function.update_self] at hv
      obtain ⟨rfl, rfl⟩ := Prod.mk.inj (Option.some.inj hv)
      exact .inr ⟨rfl, rfl, rfl⟩
    · rw [Function.update_of_ne hvw] at hv
      exact .inl ⟨hvw, hv⟩
  refine ⟨htiles.trans h.tasks_eq, fun v p task' hv => ?held,
    fun v v' p task₁ task₂ hv hv' => ?apart, fun v p task' hv => ?wrote, h.part,
    fun p task' hp hbefore hnone hfree => ?complete, fun p hp => ?unwritten, fun v hv => ?stopped⟩
  case held =>
    dsimp only
    rcases hcases hv with ⟨-, hv⟩ | ⟨-, rfl, rfl⟩
    · obtain ⟨hold, htask⟩ := h.held v p task' hv
      exact ⟨by omega, htask⟩
    · exact ⟨by omega, hget⟩
  case apart =>
    rcases hcases hv with ⟨-, hold⟩ | ⟨hown, hp, -⟩ <;>
      rcases hcases hv' with ⟨-, hold'⟩ | ⟨hown', hp', -⟩
    · exact h.apart v v' p task₁ task₂ hold hold'
    · have hlt := (h.held v p task₁ hold).1
      omega
    · have hlt := (h.held v' p task₂ hold').1
      omega
    · rw [hown, hown']
  case wrote =>
    rcases hcases hv with ⟨hvw, hv⟩ | ⟨rfl, rfl, -⟩
    · dsimp only
      rw [Function.update_of_ne hvw]
      exact h.wrote v p task' hv
    · dsimp only
      rw [Function.update_self]
      exact hunwritten
  case complete =>
    dsimp only at hbefore hnone hfree
    have hne : p ≠ s.queue.queueIndex := by
      rintro rfl
      obtain rfl := Option.some.inj (hget.symm.trans hp)
      exact hfree w (by rw [Function.update_self]; rfl)
    refine h.complete p task' hp (by omega) hnone fun v => ?_
    by_cases hvw : v = w
    · subst hvw
      rw [hw]
      exact nofun
    · have hv := hfree v
      rwa [Function.update_of_ne hvw] at hv
  case unwritten =>
    dsimp only at hp ⊢
    exact h.unwritten p (by omega)
  case stopped =>
    dsimp only at hv
    by_cases hvw : v = w
    · subst hvw
      rw [Function.update_self] at hv
      cases hv
    · rw [Function.update_of_ne hvw] at hv
      have hend := h.stopped v hv
      omega

/-- Every step keeps the invariant. -/
theorem drainInv_preserved : (drain ι E work tasks).Preserves (DrainInv work tasks) := by
  intro s t h hstep
  cases hstep with
  | pop w task q hw hpop => exact h.pop hw hpop
  | popEmpty w hw hpop =>
    refine h.release (x := .stopped) rfl rfl rfl rfl (fun hnone => ⟨hnone, ?_⟩) fun _ => ?_
    · simp [hw, TaskState.held]
    · rw [← h.tasks_eq]
      exact ThreadSafeTileQueue.popFront_eq_none hpop
  | skip w p task hw hthrown =>
    exact h.release (x := .popping) rfl rfl rfl rfl (fun hnone => absurd hnone hthrown) nofun
  | enter w p task hw hnone =>
    have hheld : (s.workers w).held = some (p, task) := by rw [hw]; rfl
    have hwrote := h.wrote w p task hheld
    rw [hw] at hwrote
    exact h.keep (x := .computing p task) hheld rfl rfl rfl rfl (fun _ _ => rfl) hwrote
      (.inl hwrote)
  | compute w p task values hw hwork =>
    have hheld : (s.workers w).held = some (p, task) := by rw [hw]; rfl
    have hwrote : writesAt s.written p = [] := by
      have hwrote := h.wrote w p task hheld
      rwa [hw] at hwrote
    refine h.keep (x := .writing p task values) hheld rfl rfl rfl rfl (fun _ _ => rfl) ?_
      (.inl hwrote)
    show work task = .ok (writesAt s.written p ++ values)
    rw [hwrote, List.nil_append, hwork]
  | write w p task value rest hw =>
    have hheld : (s.workers w).held = some (p, task) := by rw [hw]; rfl
    have hwrote : work task = .ok (writesAt s.written p ++ value :: rest) := by
      have hwrote := h.wrote w p task hheld
      rwa [hw] at hwrote
    have hself : writesAt (s.written ++ [(p, value)]) p = writesAt s.written p ++ [value] := by
      simp [writesAt]
    have hnext : work task = .ok (writesAt (s.written ++ [(p, value)]) p ++ rest) := by
      rw [hself, List.append_assoc]
      exact hwrote
    refine h.keep (x := .writing p task rest) hheld rfl rfl rfl rfl (fun q hq => ?_) hnext
      (.inr ⟨_, hnext, List.prefix_append _ _⟩)
    simp [writesAt, hq.symm]
  | finish w p task hw =>
    have hheld : (s.workers w).held = some (p, task) := by rw [hw]; rfl
    have hwrote := h.wrote w p task hheld
    rw [hw] at hwrote
    refine h.release (x := .popping) rfl rfl rfl rfl (fun hnone => ⟨hnone, fun q task' hq => ?_⟩)
      nofun
    obtain ⟨rfl, rfl⟩ := Prod.mk.inj (Option.some.inj (hheld.symm.trans hq))
    rw [← List.append_nil (writesAt s.written p)]
    exact hwrote
  | raise w p task e hw =>
    exact h.release (x := .popping) rfl rfl rfl rfl
      (fun hnone => absurd hnone (List.append_ne_nil_of_right_ne_nil _ (by simp))) nofun

theorem drainInv_of_reachable (hs : (drain ι E work tasks).Reachable s) :
    DrainInv work tasks s :=
  hs.invariant (fun _ => drainInv_init) drainInv_preserved

omit [DecidableEq ι] in
/-- When all threads have stopped and nothing was thrown, every task is written. -/
theorem DrainInv.all_written (h : DrainInv work tasks s) (hsome : Nonempty ι)
    (hstopped : ∀ w, s.workers w = .stopped) (hnone : s.exceptions = []) {p : Nat} {task : T}
    (htask : tasks[p]? = some task) : work task = .ok (writesAt s.written p) := by
  obtain ⟨w⟩ := hsome
  refine h.complete p task htask ?_ hnone fun v => ?_
  · rw [h.stopped w (hstopped w)]
    exact (List.getElem?_eq_some_iff.mp htask).1
  · rw [hstopped v]
    exact nofun

omit [DecidableEq ι] in
/-- Whatever was written belongs to a task. -/
theorem DrainInv.mem_written (h : DrainInv work tasks s) {e : Nat × W} (he : e ∈ s.written) :
    ∃ task values, tasks[e.1]? = some task ∧ work task = .ok values ∧ e.2 ∈ values := by
  have hmem : e.2 ∈ writesAt s.written e.1 := mem_writesAt.mpr he
  have hlt : e.1 < tasks.length := by
    by_contra hge
    have hindex := s.queue.index_le
    rw [h.tasks_eq] at hindex
    rw [h.unwritten e.1 (by omega)] at hmem
    cases hmem
  have htask := List.getElem?_eq_getElem hlt
  rcases h.part e.1 _ htask with hnil | ⟨values, hwork, hprefix⟩
  · rw [hnil] at hmem
    cases hmem
  · exact ⟨_, values, htask, hwork, hprefix.subset hmem⟩

end Invariant

/-! ## After an exception -/

/-- What a run from `s` may have done by `t`: the exceptions stay in their order, and once there is
one only the tasks that had been begun are written on. -/
structure GoesOnFrom (s t : DrainState T ι W E) : Prop where
  exceptions : s.exceptions <+: t.exceptions
  begun : s.exceptions ≠ [] → ∀ w e, (t.workers w).begun = some e → (s.workers w).begun = some e
  written : s.exceptions ≠ [] → ∀ e ∈ t.written, e ∈ s.written ∨
    ∃ w task, (s.workers w).begun = some (e.1, task)

section Exceptions

variable {work : T → Outcome (List W)} {tasks : List T} {s t u : DrainState T ι W E}

/-- A step that neither begins a task nor writes. -/
theorem GoesOnFrom.of_update (h : GoesOnFrom s t) {w : ι} {x : TaskState T W}
    (hworkers : u.workers = Function.update t.workers w x)
    (hx : ∀ e, x.begun = some e → (t.workers w).begun = some e)
    (hexceptions : t.exceptions <+: u.exceptions) (hwritten : u.written = t.written) :
    GoesOnFrom s u := by
  refine ⟨h.exceptions.trans hexceptions, fun hthrown v e hv => ?_,
    fun hthrown e he => h.written hthrown e (hwritten ▸ he)⟩
  rw [hworkers] at hv
  by_cases hvw : v = w
  · subst hvw
    rw [Function.update_self] at hv
    exact h.begun hthrown v e (hx e hv)
  · rw [Function.update_of_ne hvw] at hv
    exact h.begun hthrown v e hv

theorem goesOnFrom_preserved (s : DrainState T ι W E) :
    (drain ι E work tasks).Preserves (GoesOnFrom s) := by
  intro t u h hstep
  cases hstep with
  | pop w task q hw hpop => exact h.of_update rfl nofun (List.prefix_refl _) rfl
  | popEmpty w hw hpop => exact h.of_update rfl nofun (List.prefix_refl _) rfl
  | skip w p task hw hthrown => exact h.of_update rfl nofun (List.prefix_refl _) rfl
  | finish w p task hw => exact h.of_update rfl nofun (List.prefix_refl _) rfl
  | raise w p task e hw => exact h.of_update rfl nofun (List.prefix_append _ _) rfl
  | compute w p task values hw hwork =>
    refine h.of_update rfl (fun e he => ?_) (List.prefix_refl _) rfl
    rw [hw]
    exact he
  | enter w p task hw hnone =>
    -- no task is begun after an exception
    have hempty : s.exceptions = [] := List.prefix_nil.mp (hnone ▸ h.exceptions)
    exact ⟨h.exceptions, fun hthrown => absurd hempty hthrown,
      fun hthrown => absurd hempty hthrown⟩
  | write w p task value rest hw =>
    have hbegun : (t.workers w).begun = some (p, task) := by rw [hw]; rfl
    refine ⟨h.exceptions, fun hthrown v e hv => ?_, fun hthrown e he => ?_⟩
    · dsimp only at hv
      by_cases hvw : v = w
      · subst hvw
        rw [Function.update_self] at hv
        exact h.begun hthrown v e (hbegun.trans hv)
      · rw [Function.update_of_ne hvw] at hv
        exact h.begun hthrown v e hv
    · rcases List.mem_append.mp he with he | he
      · exact h.written hthrown e he
      · obtain rfl := List.mem_singleton.mp he
        exact .inr ⟨w, task, h.begun hthrown w _ hbegun⟩

theorem goesOnFrom_of_runs (hr : (drain ι E work tasks).Runs s t) : GoesOnFrom s t :=
  (goesOnFrom_preserved s).runs ⟨List.prefix_refl _, fun _ _ _ => id, fun _ _ => .inl⟩ hr

end Exceptions

/-! ## The end of a run -/

section End

variable {work : T → Outcome (List W)} {tasks : List T} {s t : DrainState T ι W E}

/-- How far a thread is from having to pop again, or from its end. -/
def TaskState.rank (work : T → Outcome (List W)) : TaskState T W → Nat
  | popping => 1
  | testing _ task => 4 + (outputs work task).length
  | computing _ task => 3 + (outputs work task).length
  | writing _ _ rest => 2 + rest.length
  | stopped => 0

/-- A step pops a task, or brings one thread nearer to its end. -/
theorem rank_of_drainStep (h : DrainStep work s t) :
    (t.queue = s.queue ∧ ∃ w x, t.workers = Function.update s.workers w x ∧
      x.rank work < (s.workers w).rank work) ∨
    ∃ task q, s.queue.popFront = some (task, q) ∧ t.queue = q := by
  cases h with
  | pop w task q hw hpop => exact .inr ⟨task, q, hpop, rfl⟩
  | popEmpty w hw hpop => exact .inl ⟨rfl, w, _, rfl, by simp [hw, TaskState.rank]⟩
  | skip w p task hw hthrown =>
    refine .inl ⟨rfl, w, _, rfl, ?_⟩
    simp only [hw, TaskState.rank]
    omega
  | enter w p task hw hnone =>
    refine .inl ⟨rfl, w, _, rfl, ?_⟩
    simp only [hw, TaskState.rank]
    omega
  | compute w p task values hw hwork =>
    refine .inl ⟨rfl, w, _, rfl, ?_⟩
    simp only [hw, outputs_eq hwork, TaskState.rank]
    omega
  | write w p task value rest hw =>
    refine .inl ⟨rfl, w, _, rfl, ?_⟩
    simp only [hw, TaskState.rank, List.length_cons]
    omega
  | finish w p task hw => exact .inl ⟨rfl, w, _, rfl, by simp [hw, TaskState.rank]⟩
  | raise w p task e hw =>
    refine .inl ⟨rfl, w, _, rfl, ?_⟩
    rcases hw with hw | ⟨value, rest, hw⟩
    · simp only [hw, TaskState.rank]
      omega
    · simp only [hw, TaskState.rank]
      omega

/-- **Every run ends.** -/
theorem wellFounded_drainStep [Fintype ι] (work : T → Outcome (List W)) :
    WellFounded fun t s : DrainState T ι W E => DrainStep work s t := by
  refine Subrelation.wf (r := InvImage (Prod.Lex (· < ·) (· < ·)) fun s : DrainState T ι W E =>
    (s.queue.tiles.length - s.queue.queueIndex, ∑ w, (s.workers w).rank work)) ?_
    (InvImage.wf _ (WellFounded.prod_lex wellFounded_lt wellFounded_lt))
  intro t s hstep
  rcases rank_of_drainStep hstep with ⟨hqueue, w, x, hworkers, hlt⟩ | ⟨task, q, hpop, rfl⟩
  · simp only [InvImage, hqueue]
    refine .right _ (Finset.sum_lt_sum (fun v _ => ?_) ⟨w, Finset.mem_univ w, ?_⟩)
    · rw [hworkers]
      by_cases hv : v = w
      · subst hv
        rw [Function.update_self]
        exact hlt.le
      · rw [Function.update_of_ne hv]
    · rwa [hworkers, Function.update_self]
  · obtain ⟨hget, htiles, hindex⟩ := ThreadSafeTileQueue.popFront_eq_some hpop
    have hlt := (List.getElem?_eq_some_iff.mp hget).1
    refine .left _ _ ?_
    rw [htiles, hindex]
    omega

/-- Until all threads have stopped, some step can be taken in which nothing is thrown. -/
theorem DrainInv.progress (h : DrainInv work tasks s)
    (hwork : ∀ task ∈ tasks, ∃ values, work task = .ok values) {w : ι}
    (hw : s.workers w ≠ .stopped) :
    ∃ t, DrainStep work s t ∧ t.exceptions = s.exceptions := by
  cases hstate : s.workers w with
  | popping =>
    cases hpop : s.queue.popFront with
    | none => exact ⟨_, .popEmpty s w hstate hpop, rfl⟩
    | some popped => exact ⟨_, .pop s w popped.1 popped.2 hstate hpop, rfl⟩
  | testing p task =>
    by_cases hnone : s.exceptions = []
    · exact ⟨_, .enter s w p task hstate hnone, rfl⟩
    · exact ⟨_, .skip s w p task hstate hnone, rfl⟩
  | computing p task =>
    obtain ⟨-, htask⟩ := h.held w p task (by rw [hstate]; rfl)
    obtain ⟨values, hvalues⟩ := hwork task (List.mem_of_getElem? htask)
    exact ⟨_, .compute s w p task values hstate hvalues, rfl⟩
  | writing p task rest =>
    cases rest with
    | nil => exact ⟨_, .finish s w p task hstate, rfl⟩
    | cons value rest => exact ⟨_, .write s w p task value rest hstate, rfl⟩
  | stopped => exact absurd hstate hw

end End

/-! ## The image -/

section Image

variable {κ F : Type*}

/-- The raster after the writes. -/
def DrainState.image (write : (κ → F) → W → κ → F) (initial : κ → F) (s : DrainState T ι W E) :
    κ → F :=
  (s.written.map Prod.snd).foldl write initial

/-- What a state of the threads should be: `region` is where a write has its values. -/
structure DrainsImage (work : T → Outcome (List W)) (write : (κ → F) → W → κ → F) (tasks : List T)
    (region : W → κ → Prop) (expected : W → κ → F) (initial : κ → F)
    (s : DrainState T ι W E) : Prop where
  /-- of no task anything is written twice -/
  once : ∀ p task, tasks[p]? = some task →
    ∃ values, work task = .ok values ∧ writesAt s.written p <+: values
  outside : ∀ k, (∀ task ∈ tasks, ∀ values, work task = .ok values → ∀ value ∈ values,
    ¬ region value k) → s.image write initial k = initial k
  inside : ∀ task ∈ tasks, ∀ values, work task = .ok values → ∀ value ∈ values, ∀ k,
    region value k → s.image write initial k = initial k ∨
      s.image write initial k = expected value k
  complete : (∀ w, s.workers w = .stopped) → s.exceptions = [] → ∀ task ∈ tasks, ∀ values,
    work task = .ok values → ∀ value ∈ values, ∀ k, region value k →
      s.image write initial k = expected value k
  /-- whatever was thrown, the threads stop at an empty queue -/
  drained : ∀ w, s.workers w = .stopped → s.queue.popFront = none
  goesOn : (∃ w, s.workers w ≠ .stopped) →
    ∃ t, DrainStep work s t ∧ t.exceptions = s.exceptions
  /-- the first exception stays the first, and no task is begun after it -/
  afterwards : ∀ t, (drain ι E work tasks).Runs s t → GoesOnFrom s t

/-- **The threads write the image**, in every order of their steps, and every run ends. -/
theorem drain_writeImage [Fintype ι] (hsome : Nonempty ι) {work : T → Outcome (List W)}
    {write : (κ → F) → W → κ → F} {tasks : List T} {region : W → κ → Prop}
    {expected : W → κ → F} (hwork : ∀ task ∈ tasks, ∃ values, work task = .ok values)
    (hpaints : PaintsTiles write (tasks.flatMap (outputs work)) id region expected)
    (initial : κ → F) :
    (∀ s, (drain ι E work tasks).Reachable s →
        DrainsImage work write tasks region expected initial s) ∧
      WellFounded fun t s => (drain ι E work tasks).step s t := by
  refine ⟨fun s hs => ?_, wellFounded_drainStep work⟩
  have h := drainInv_of_reachable hs
  have hmem {task : T} (htask : task ∈ tasks) {values : List W} (hvalues : work task = .ok values)
      {value : W} (hvalue : value ∈ values) :
      value ∈ tasks.flatMap (outputs work) :=
    List.mem_flatMap.mpr ⟨task, htask, by rwa [outputs_eq hvalues]⟩
  have hall : ∀ value ∈ s.written.map Prod.snd,
      value ∈ tasks.flatMap (outputs work) := by
    intro value hvalue
    obtain ⟨e, he, rfl⟩ := List.mem_map.mp hvalue
    obtain ⟨task, values, htask, hvalues, hin⟩ := h.mem_written he
    exact hmem (List.mem_of_getElem? htask) hvalues hin
  have himage (k : κ) := hpaints.foldl_write (k := k) hall initial
  simp only [List.map_id] at himage
  refine ⟨fun p task htask => ?once, fun k hnone => ?outside,
    fun task htask values hvalues value hvalue k hin => ?inside,
    fun hstopped hnone task htask values hvalues value hvalue k hin => ?complete,
    fun w hw => ?drained, fun hgoes => ?goesOn, fun t hr => goesOnFrom_of_runs hr⟩
  case once =>
    rcases h.part p task htask with hnil | hpart
    · obtain ⟨values, hvalues⟩ := hwork task (List.mem_of_getElem? htask)
      exact ⟨values, hvalues, hnil ▸ List.nil_prefix⟩
    · exact hpart
  case outside =>
    rcases himage k with ⟨-, hsame⟩ | ⟨value, hvalue, hin, -⟩
    · exact hsame
    · obtain ⟨task, htask, hvalue⟩ := List.mem_flatMap.mp (hall value hvalue)
      obtain ⟨values, hvalues⟩ := hwork task htask
      rw [outputs_eq hvalues] at hvalue
      exact absurd hin (hnone task htask values hvalues value hvalue)
  case inside =>
    rcases himage k with ⟨-, hsame⟩ | ⟨value', hvalue', hin', hlater⟩
    · exact .inl hsame
    · exact .inr (hlater.trans (hpaints.agree value' (hall value' hvalue') value
        (hmem htask hvalues hvalue) k hin' hin))
  case complete =>
    obtain ⟨p, hp⟩ := List.getElem?_of_mem htask
    have hwritten := h.all_written hsome hstopped hnone hp
    obtain rfl := Outcome.ok.inj (hvalues.symm.trans hwritten)
    have hvalue' : value ∈ s.written.map Prod.snd :=
      List.mem_map.mpr ⟨(p, value), mem_writesAt.mp hvalue, rfl⟩
    rcases himage k with ⟨hno, -⟩ | ⟨value', hvalue', hin', hlater⟩
    · exact absurd hin (hno value hvalue')
    · exact hlater.trans (hpaints.agree value' (hall value' hvalue') value
        (hmem htask hvalues hvalue) k hin' hin)
  case drained =>
    have hend := h.stopped w hw
    rw [← h.tasks_eq] at hend
    rw [ThreadSafeTileQueue.popFront, dif_pos hend]
  case goesOn =>
    obtain ⟨w, hw⟩ := hgoes
    exact h.progress hwork hw

end Image

end Alus.Util
