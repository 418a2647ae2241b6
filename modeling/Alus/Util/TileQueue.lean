import Mathlib.Data.List.Pairwise
import Mathlib.Logic.Function.Basic
import Mathlib.Tactic.Set
import Alus.Lib.Run

/-!
# The tile queue and its workers

`util/common/include/tile_queue.h` hands tiles to the worker threads of the thermal
noise remover and of the coherence runner. Both worker loops have one shape: test the
exception flag under its mutex, pop a tile under the queue's mutex, process it; an
exception raises the flag and ends the worker. The flag test and the pop are two critical
sections, so other workers may act between them.

Each critical section is one step of `pool`; the steps of the workers interleave freely.
`received` records what `PopFront` returned to each worker, with the queue index it had.
-/

namespace Alus.Util

open Alus.Lib

/-! ## The queue -/

/-- `ThreadSafeTileQueue<T>`: the tiles and the index of the next one to hand out. -/
structure ThreadSafeTileQueue (T : Type*) where
  tiles : List T
  queueIndex : Nat
  index_le : queueIndex ≤ tiles.length

namespace ThreadSafeTileQueue

variable {T : Type*}

/-- `InsertData`: takes the tiles over and starts again at the front. -/
def insertData (tiles : List T) : ThreadSafeTileQueue T where
  tiles := tiles
  queueIndex := 0
  index_le := Nat.zero_le _

/-- `PopFront`: `none` when the index is at the end, otherwise the tile at the index. -/
def popFront (q : ThreadSafeTileQueue T) : Option (T × ThreadSafeTileQueue T) :=
  if h : q.queueIndex = q.tiles.length then
    none
  else
    have hlt : q.queueIndex < q.tiles.length := Nat.lt_of_le_of_ne q.index_le h
    some (q.tiles[q.queueIndex], { q with queueIndex := q.queueIndex + 1, index_le := hlt })

theorem popFront_eq_none {q : ThreadSafeTileQueue T} (h : q.popFront = none) :
    q.queueIndex = q.tiles.length := by
  unfold popFront at h
  split at h
  · assumption
  · cases h

/-- Everything a successful pop does: it returns the tile at the index and moves the index
one place. -/
theorem popFront_eq_some {q q' : ThreadSafeTileQueue T} {tile : T}
    (h : q.popFront = some (tile, q')) :
    q.tiles[q.queueIndex]? = some tile ∧ q'.tiles = q.tiles ∧
      q'.queueIndex = q.queueIndex + 1 := by
  unfold popFront at h
  split at h
  · cases h
  · have hlt : q.queueIndex < q.tiles.length := Nat.lt_of_le_of_ne q.index_le ‹_›
    simp only [Option.some.injEq, Prod.mk.injEq] at h
    obtain ⟨rfl, rfl⟩ := h
    exact ⟨List.getElem?_eq_getElem hlt, rfl, rfl⟩

end ThreadSafeTileQueue

/-! ## The workers -/

/-- Where a worker stands in its loop. -/
inductive WorkerState (T : Type*) where
  /-- before the loop: streams and buffers are being created, which may throw -/
  | starting
  /-- about to test the exception flag -/
  | testing
  /-- the flag was not set; about to call `PopFront` -/
  | popping
  | processing (tile : T)
  | stopped

/-- The shared data of `ThreadParams` (queue and exception) and the workers. -/
structure PoolState (T ι : Type*) where
  queue : ThreadSafeTileQueue T
  exception : Bool
  workers : ι → WorkerState T
  received : ι → List (Nat × T)

variable {T ι : Type*} [DecidableEq ι]

/-- One critical section (or the end of the work between two of them) of worker `w`. -/
inductive PoolStep : PoolState T ι → PoolState T ι → Prop where
  | start (s : PoolState T ι) (w : ι) (hw : s.workers w = .starting) :
      PoolStep s { s with workers := Function.update s.workers w .testing }
  | testContinue (s : PoolState T ι) (w : ι) (hw : s.workers w = .testing)
      (hflag : s.exception = false) :
      PoolStep s { s with workers := Function.update s.workers w .popping }
  | testStop (s : PoolState T ι) (w : ι) (hw : s.workers w = .testing)
      (hflag : s.exception = true) :
      PoolStep s { s with workers := Function.update s.workers w .stopped }
  | pop (s : PoolState T ι) (w : ι) (tile : T) (q : ThreadSafeTileQueue T)
      (hw : s.workers w = .popping) (hpop : s.queue.popFront = some (tile, q)) :
      PoolStep s { s with
        queue := q
        workers := Function.update s.workers w (.processing tile)
        received := Function.update s.received w
          (s.received w ++ [(s.queue.queueIndex, tile)]) }
  | popEmpty (s : PoolState T ι) (w : ι) (hw : s.workers w = .popping)
      (hpop : s.queue.popFront = none) :
      PoolStep s { s with workers := Function.update s.workers w .stopped }
  | finish (s : PoolState T ι) (w : ι) (tile : T) (hw : s.workers w = .processing tile) :
      PoolStep s { s with workers := Function.update s.workers w .testing }
  | raise (s : PoolState T ι) (w : ι)
      (hw : s.workers w = .starting ∨ ∃ tile, s.workers w = .processing tile) :
      PoolStep s { s with exception := true, workers := Function.update s.workers w .stopped }

/-- The pool over `tiles`: a full queue, no exception, every worker before its loop. -/
def pool (ι : Type*) [DecidableEq ι] (tiles : List T) : System (PoolState T ι) where
  init s := s.queue = .insertData tiles ∧ s.exception = false ∧
    (∀ w, s.workers w = .starting) ∧ ∀ w, s.received w = []
  step := PoolStep

/-- The queue positions worker `w` received, oldest first. -/
def PoolState.positions (s : PoolState T ι) (w : ι) : List Nat :=
  (s.received w).map Prod.fst

/-! ## The invariant -/

/-- What holds of queue, workers and received tiles in every reachable state. -/
structure PoolInv (tiles : List T) (s : PoolState T ι) : Prop where
  tiles_eq : s.queue.tiles = tiles
  /-- the positions handed out are exactly those before the index -/
  handed_out : ∀ p, p < s.queue.queueIndex ↔ ∃ w, p ∈ s.positions w
  increasing : ∀ w, (s.positions w).Pairwise (· < ·)
  disjoint : ∀ p w w', p ∈ s.positions w → p ∈ s.positions w' → w = w'
  tile_at : ∀ w e, e ∈ s.received w → tiles[e.1]? = some e.2
  /-- without an exception a worker stops only at an empty queue -/
  stopped_empty : ∀ w, s.workers w = .stopped → s.exception = false →
    s.queue.queueIndex = tiles.length

theorem poolInv_init {tiles : List T} {s : PoolState T ι} (h : (pool ι tiles).init s) :
    PoolInv tiles s := by
  obtain ⟨hq, _, hw, hr⟩ := h
  have hpos : ∀ w, s.positions w = [] := fun w => by simp [PoolState.positions, hr w]
  refine ⟨by rw [hq]; rfl, fun p => ?_, fun w => by simp [hpos w], fun p w w' hp => ?_,
    fun w e he => ?_, fun w hstop => ?_⟩
  · simp [hq, ThreadSafeTileQueue.insertData, hpos]
  · simp [hpos w] at hp
  · simp [hr w] at he
  · simp [hw w] at hstop

omit [DecidableEq ι] in
/-- A step that changes neither queue nor received tiles keeps the invariant, provided the
stopped workers it leaves (without an exception) stand at an empty queue. -/
theorem PoolInv.of_same {tiles : List T} {s t : PoolState T ι} (h : PoolInv tiles s)
    (hq : t.queue = s.queue) (hr : t.received = s.received)
    (hstop : ∀ w, t.workers w = .stopped → t.exception = false →
      s.queue.queueIndex = tiles.length) :
    PoolInv tiles t := by
  have hpos : ∀ w, t.positions w = s.positions w := fun w => by simp [PoolState.positions, hr]
  refine ⟨hq ▸ h.tiles_eq, fun p => ?_, fun w => hpos w ▸ h.increasing w,
    fun p w w' hp hp' => h.disjoint p w w' (hpos w ▸ hp) (hpos w' ▸ hp'),
    fun w e he => h.tile_at w e (hr ▸ he), fun w hw hf => hq ▸ hstop w hw hf⟩
  simp only [hq, hpos]
  exact h.handed_out p

/-- A worker set to a running state: the workers that stand stopped afterwards stood
stopped before. -/
theorem stopped_of_update {s : PoolState T ι} {w v : ι} {x : WorkerState T}
    (hx : x ≠ .stopped) (h : Function.update s.workers w x v = .stopped) :
    s.workers v = .stopped := by
  by_cases hv : v = w
  · subst hv; exact absurd (by simpa using h) hx
  · rwa [Function.update_of_ne hv] at h

theorem mem_update_append {α : Type*} {f : ι → List α} {w v : ι} {a e : α} :
    e ∈ Function.update f w (f w ++ [a]) v ↔ e ∈ f v ∨ (v = w ∧ e = a) := by
  by_cases hv : v = w
  · subst hv
    simp
  · simp [hv]

/-- The worker that receives a tile gets its position, the others keep theirs. -/
theorem positions_update {s t : PoolState T ι} {w : ι} {e : Nat × T}
    (hrec : t.received = Function.update s.received w (s.received w ++ [e])) (v : ι) :
    t.positions v = Function.update s.positions w (s.positions w ++ [e.1]) v := by
  unfold PoolState.positions
  rw [hrec]
  by_cases hv : v = w
  · subst hv
    simp
  · simp [hv]

omit [DecidableEq ι] in
/-- Everything handed out before lies below the index. -/
theorem PoolInv.fresh {tiles : List T} {s : PoolState T ι} (h : PoolInv tiles s) (v : ι) :
    s.queue.queueIndex ∉ s.positions v :=
  fun hv => absurd ((h.handed_out _).mpr ⟨v, hv⟩) (Nat.lt_irrefl _)

/-- A state in which worker `w` has received the tile at the index, and the index has moved past
its position. -/
theorem PoolInv.of_received {tiles : List T} {s t : PoolState T ι} (h : PoolInv tiles s) {w : ι}
    {tile : T} (hget : s.queue.tiles[s.queue.queueIndex]? = some tile)
    (htiles : t.queue.tiles = s.queue.tiles)
    (hidx : t.queue.queueIndex = s.queue.queueIndex + 1)
    (hrec : t.received = Function.update s.received w
      (s.received w ++ [(s.queue.queueIndex, tile)]))
    (hstopped : ∀ v, t.workers v = .stopped → t.exception = false →
      s.workers v = .stopped ∧ s.exception = false) :
    PoolInv tiles t := by
  have hlt : s.queue.queueIndex < s.queue.tiles.length :=
    (List.getElem?_eq_some_iff.mp hget).1
  have hmem : ∀ v p, p ∈ t.positions v ↔
      p ∈ s.positions v ∨ (v = w ∧ p = s.queue.queueIndex) := fun v p => by
    rw [positions_update hrec]
    exact mem_update_append
  refine ⟨htiles.trans h.tiles_eq, fun p => ?handed_out, fun v => ?increasing,
    fun p v v' hp hp' => ?disjoint, fun v e he => ?tile_at, fun v hv hf => ?stopped_empty⟩
  case handed_out =>
    rw [hidx, Nat.lt_succ_iff_lt_or_eq, h.handed_out p]
    constructor
    · rintro (⟨v, hv⟩ | rfl)
      · exact ⟨v, (hmem v p).mpr (.inl hv)⟩
      · exact ⟨w, (hmem w _).mpr (.inr ⟨rfl, rfl⟩)⟩
    · rintro ⟨v, hv⟩
      rcases (hmem v p).mp hv with hv | ⟨_, rfl⟩
      · exact .inl ⟨v, hv⟩
      · exact .inr rfl
  case increasing =>
    rw [positions_update hrec]
    by_cases hv : v = w
    · subst hv
      rw [Function.update_self, List.pairwise_append]
      refine ⟨h.increasing v, List.pairwise_singleton _ _, fun p hp p' hp' => ?_⟩
      rw [List.mem_singleton.mp hp']
      exact (h.handed_out p).mpr ⟨v, hp⟩
    · rw [Function.update_of_ne hv]
      exact h.increasing v
  case disjoint =>
    rcases (hmem v p).mp hp with hold | ⟨hv, hpos⟩ <;>
      rcases (hmem v' p).mp hp' with hold' | ⟨hv', hpos'⟩
    · exact h.disjoint p v v' hold hold'
    · exact absurd (hpos' ▸ hold) (h.fresh v)
    · exact absurd (hpos ▸ hold') (h.fresh v')
    · rw [hv, hv']
  case tile_at =>
    rw [hrec] at he
    rcases mem_update_append.mp he with he | ⟨_, rfl⟩
    · exact h.tile_at v e he
    · rw [← h.tiles_eq]
      exact hget
  case stopped_empty =>
    -- the tile was still in the queue, so no worker had stopped
    have hs := h.stopped_empty v (hstopped v hv hf).1 (hstopped v hv hf).2
    rw [h.tiles_eq] at hlt
    omega

/-- The step that hands out a tile: the index moves past exactly the position that worker
`w` receives. -/
theorem PoolInv.pop {tiles : List T} {s : PoolState T ι} (h : PoolInv tiles s) {w : ι} {tile : T}
    {q : ThreadSafeTileQueue T} (hpop : s.queue.popFront = some (tile, q)) :
    PoolInv tiles { s with
      queue := q
      workers := Function.update s.workers w (.processing tile)
      received := Function.update s.received w
        (s.received w ++ [(s.queue.queueIndex, tile)]) } := by
  obtain ⟨hget, htiles, hidx⟩ := ThreadSafeTileQueue.popFront_eq_some hpop
  exact h.of_received hget htiles hidx rfl
    fun v hv hf => ⟨stopped_of_update (by simp) hv, hf⟩

/-- Every step of the pool keeps the invariant. -/
theorem poolInv_preserved (tiles : List T) : (pool ι tiles).Preserves (PoolInv tiles) := by
  intro s t h hstep
  cases hstep with
  | start w hw =>
    exact h.of_same rfl rfl fun v hv hf => h.stopped_empty v (stopped_of_update (by simp) hv) hf
  | testContinue w hw hflag =>
    exact h.of_same rfl rfl fun v hv hf => h.stopped_empty v (stopped_of_update (by simp) hv) hf
  | testStop w hw hflag =>
    exact h.of_same rfl rfl fun v _ hf => absurd (hflag.symm.trans hf) (by simp)
  | pop w tile q hw hpop => exact h.pop hpop
  | popEmpty w hw hpop =>
    refine h.of_same rfl rfl fun v _ _ => ?_
    rw [← h.tiles_eq]
    exact ThreadSafeTileQueue.popFront_eq_none hpop
  | finish w tile hw =>
    exact h.of_same rfl rfl fun v hv hf => h.stopped_empty v (stopped_of_update (by simp) hv) hf
  | raise w hw => exact h.of_same rfl rfl fun v _ hf => absurd hf (by simp)

theorem poolInv_of_reachable {tiles : List T} {s : PoolState T ι}
    (h : (pool ι tiles).Reachable s) : PoolInv tiles s :=
  h.invariant (fun _ => poolInv_init) (poolInv_preserved tiles)

/-! ## After an exception

Once the flag is set no worker passes the flag test again, so a worker that is not
already past it takes no tile any more. -/

/-- What a run from `s` may have done by `t`, worker by worker, once the flag is set. -/
structure TakesAtMostOne (s t : PoolState T ι) : Prop where
  flag : t.exception = true
  each : ∀ w,
    (t.received w = s.received w ∧ (t.workers w = .popping → s.workers w = .popping)) ∨
      (s.workers w = .popping ∧ t.workers w ≠ .popping ∧
        ∃ e, t.received w = s.received w ++ [e])

/-- A step that sets worker `w` to a state other than `popping` and receives nothing. -/
theorem TakesAtMostOne.of_quiet {s t u : PoolState T ι} (ht : TakesAtMostOne s t) {w : ι}
    {x : WorkerState T} (hx : x ≠ .popping) (hflag : u.exception = true)
    (hrec : u.received = t.received) (hwork : u.workers = Function.update t.workers w x) :
    TakesAtMostOne s u := by
  refine ⟨hflag, fun v => ?_⟩
  have hpop : u.workers v = .popping → t.workers v = .popping := by
    rw [hwork]
    by_cases hv : v = w
    · subst hv
      intro h
      exact absurd (by simpa using h) hx
    · rw [Function.update_of_ne hv]
      exact id
  rw [hrec]
  rcases ht.each v with ⟨hr, hp⟩ | ⟨hs, hp, he⟩
  · exact .inl ⟨hr, fun h => hp (hpop h)⟩
  · exact .inr ⟨hs, fun h => hp (hpop h), he⟩

theorem takesAtMostOne_preserved (tiles : List T) (s : PoolState T ι) :
    (pool ι tiles).Preserves (TakesAtMostOne s) := by
  intro t u ht hstep
  cases hstep with
  | start w hw => exact ht.of_quiet (x := .testing) (by simp) ht.flag rfl rfl
  | testContinue w hw hflag => exact absurd (ht.flag.symm.trans hflag) (by simp)
  | testStop w hw hflag => exact ht.of_quiet (x := .stopped) (by simp) ht.flag rfl rfl
  | popEmpty w hw hpop => exact ht.of_quiet (x := .stopped) (by simp) ht.flag rfl rfl
  | finish w tile hw => exact ht.of_quiet (x := .testing) (by simp) ht.flag rfl rfl
  | raise w hw => exact ht.of_quiet (x := .stopped) (by simp) rfl rfl rfl
  | pop w tile q hw hpop =>
    refine ⟨ht.flag, fun v => ?_⟩
    by_cases hv : v = w
    · subst hv
      rcases ht.each v with ⟨hr, hp⟩ | ⟨_, hp, _⟩
      · exact .inr ⟨hp hw, by simp, _, by simp [hr]; rfl⟩
      · exact absurd hw hp
    · simpa [Function.update_of_ne hv] using ht.each v

theorem takesAtMostOne_of_runs {tiles : List T} {s t : PoolState T ι} (hflag : s.exception = true)
    (hr : (pool ι tiles).Runs s t) : TakesAtMostOne s t :=
  (takesAtMostOne_preserved tiles s).runs ⟨hflag, fun _ => .inl ⟨rfl, id⟩⟩ hr

/-! ## Results -/

/-- What is asked of the workers of a failed pool: after the flag is set no worker receives
a tile beyond those it has. -/
def StopsWithHeldTile (ι : Type*) [DecidableEq ι] (tiles : List T) : Prop :=
  ∀ s t : PoolState T ι, (pool ι tiles).Reachable s → s.exception = true →
    (pool ι tiles).Runs s t → ∀ w, t.received w = s.received w

/-- **The queue hands out each tile exactly once.** In every reachable state of any number of
workers, the tiles received are those at the recorded positions, the positions of two workers
are disjoint and each worker's are increasing; once all workers (at least one) have stopped
without an exception every position was received. After the flag is set a worker receives at most
one more tile, and that only when it had passed its flag test before. -/
theorem tileQueue_exactly_once (tiles : List T) (s : PoolState T ι)
    (hs : (pool ι tiles).Reachable s) :
    (∀ w e, e ∈ s.received w → tiles[e.1]? = some e.2) ∧
      (∀ p w w', p ∈ s.positions w → p ∈ s.positions w' → w = w') ∧
      (∀ w, (s.positions w).Pairwise (· < ·)) ∧
      (Nonempty ι → (∀ w, s.workers w = .stopped) → s.exception = false →
        ∀ p, p < tiles.length → ∃ w, p ∈ s.positions w) ∧
      (s.exception = true → ∀ t, (pool ι tiles).Runs s t → ∀ w,
        t.received w = s.received w ∨
          (s.workers w = .popping ∧ ∃ e, t.received w = s.received w ++ [e])) := by
  have hinv := poolInv_of_reachable hs
  refine ⟨hinv.tile_at, hinv.disjoint, hinv.increasing, fun ⟨w⟩ hstop hflag p hp => ?_,
    fun hflag t hr w => ?_⟩
  · have hidx := hinv.stopped_empty w (hstop w) hflag
    exact (hinv.handed_out p).mp (hidx ▸ hp)
  · rcases (takesAtMostOne_of_runs hflag hr).each w with ⟨h, _⟩ | ⟨h, _, he⟩
    · exact .inl h
    · exact .inr ⟨h, he⟩

/-- Two workers over the tiles 10 and 20: the first pops the tile 10, the second passes its
flag test, then the first raises the flag. -/
theorem raised_past_flag_test :
    ∃ s : PoolState Nat (Fin 2), (pool (Fin 2) [10, 20]).Reachable s ∧ s.exception = true ∧
      s.workers 1 = .popping ∧ s.received 1 = [] ∧
      s.queue.popFront = some (20, ⟨[10, 20], 2, by decide⟩) := by
  let s₀ : PoolState Nat (Fin 2) :=
    ⟨.insertData [10, 20], false, fun _ => .starting, fun _ => []⟩
  have hinit : (pool (Fin 2) [10, 20]).init s₀ := ⟨rfl, rfl, fun _ => rfl, fun _ => rfl⟩
  have hrun := (System.Runs.refl (M := pool (Fin 2) [10, 20]) s₀)
    |>.tail (PoolStep.start _ 0 rfl)
    |>.tail (PoolStep.testContinue _ 0 rfl rfl)
    |>.tail (PoolStep.pop _ 0 10 ⟨[10, 20], 1, by decide⟩ rfl rfl)
    |>.tail (PoolStep.start _ 1 rfl)
    |>.tail (PoolStep.testContinue _ 1 rfl rfl)
    |>.tail (PoolStep.raise _ 0 (.inr ⟨10, rfl⟩))
  exact ⟨_, ⟨s₀, hinit, hrun⟩, rfl, rfl, rfl, rfl⟩

/-- The second worker pops a tile it did not hold when the flag was raised. -/
theorem not_stopsWithHeldTile : ¬ StopsWithHeldTile (Fin 2) [10, 20] := by
  intro h
  obtain ⟨s, hs, hflag, hpopping, hrec, hpop⟩ := raised_past_flag_test
  have hstep : PoolStep s _ := .pop s 1 20 _ hpopping hpop
  have hsame := h s _ hs hflag (.tail (.refl s) hstep) 1
  simp [hrec] at hsame

/-- The theorem at the state of `raised_past_flag_test`. -/
theorem tileQueue_exactly_once_raised :
    ∃ s : PoolState Nat (Fin 2), s.exception = true ∧
      ∀ t, (pool (Fin 2) [10, 20]).Runs s t → (t.received 1).length ≤ 1 := by
  obtain ⟨s, hs, hflag, _, hrec, _⟩ := raised_past_flag_test
  refine ⟨s, hflag, fun t hr => ?_⟩
  have hall := tileQueue_exactly_once [10, 20] s hs
  rcases hall.2.2.2.2 hflag t hr 1 with h | ⟨_, e, h⟩ <;> simp [h, hrec]

end Alus.Util
