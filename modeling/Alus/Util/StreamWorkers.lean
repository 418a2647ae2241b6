import Mathlib.Algebra.BigOperators.Group.Finset.Defs
import Mathlib.Algebra.Order.BigOperators.Group.Finset
import Alus.Lib.Stream
import Alus.Util.TileQueue

/-!
# Tile workers with streams

The worker threads of the coherence runner, of thermal noise removal and of calibration process a
tile with a stream of their own: they fill a buffer, start copies and kernels on the stream, wait
for it and write the buffer out. The buffers of a thread are used again for its next tile.

The pool of workers is that of the tile queue. Here the processing of a tile has its steps, those of
the device among them, and they interleave with the steps of all the other workers.
-/

namespace Alus.Util

open Alus.Lib

variable {T ι S W : Type*} [DecidableEq ι]

/-! ## The system -/

/-- The pool, what each worker and its stream are at, and what has been written, with the position
of its tile in the queue. -/
structure WorkersState (T ι S W : Type*) where
  pool : PoolState T ι
  streams : ι → StreamState S W
  written : List (Nat × W)

/-- A step of the pool that is not a pop, a pop, or a step of a worker that processes a tile. -/
inductive WorkersStep (program : T → List (HostInstr S W)) :
    WorkersState T ι S W → WorkersState T ι S W → Prop where
  /-- a worker returns to its loop only when it has come to the end of the tile -/
  | control (s : WorkersState T ι S W) (p : PoolState T ι) (hstep : PoolStep s.pool p)
      (hreceived : p.received = s.pool.received)
      (hend : ∀ w tile, s.pool.workers w = .processing tile → p.workers w = .testing →
        (s.streams w).rest = []) :
      WorkersStep program s { s with pool := p }
  | pop (s : WorkersState T ι S W) (w : ι) (tile : T) (q : ThreadSafeTileQueue T)
      (hw : s.pool.workers w = .popping) (hpop : s.pool.queue.popFront = some (tile, q)) :
      WorkersStep program s { s with
        pool := { s.pool with
          queue := q
          workers := Function.update s.pool.workers w (.processing tile)
          received := Function.update s.pool.received w
            (s.pool.received w ++ [(s.pool.queue.queueIndex, tile)]) }
        streams := Function.update s.streams w
          ⟨program tile, (s.streams w).pending, (s.streams w).memory⟩ }
  | work (s : WorkersState T ι S W) (w : ι) (e : Nat × T) (out : Option W)
      (st : StreamState S W) (hw : s.pool.workers w = .processing e.2)
      (hlast : (s.pool.received w).getLast? = some e)
      (hstep : StreamStep (s.streams w) out st) :
      WorkersStep program s { s with
        streams := Function.update s.streams w st
        written := s.written ++ out.toList.map fun value => (e.1, value) }

/-- The workers over `tiles`, with nothing written and every buffer ready. -/
def workers (ι : Type*) [DecidableEq ι] (program : T → List (HostInstr S W)) (ready : S → Prop)
    (tiles : List T) : System (WorkersState T ι S W) where
  init s := (pool ι tiles).init s.pool ∧
    (∀ w, (s.streams w).rest = [] ∧ (s.streams w).pending = [] ∧ ready (s.streams w).memory) ∧
    s.written = []
  step := WorkersStep program

/-- What has been written of the tile at a position of the queue, oldest first. -/
def writesAt (written : List (Nat × W)) (position : Nat) : List W :=
  (written.filter fun e => e.1 = position).map Prod.snd

/-- Each tile's program is disciplined and, whatever the buffers were used for before, has this
result and leaves them ready. -/
structure ComputesTiles (program : T → List (HostInstr S W)) (ready : S → Prop)
    (result : T → List W) (tiles : List T) : Prop where
  disciplined : ∀ tile ∈ tiles, Disciplined [] (program tile)
  runs : ∀ tile ∈ tiles, HostTriple ready (program tile) (result tile) ready

/-! ## The pool under it -/

/-- In its loop, outside a tile. -/
def WorkerState.Idle : WorkerState T → Prop
  | .processing _ => False
  | .stopped => False
  | _ => True

/-- What a step of the pool that hands out no tile does to it. -/
structure ControlEffect (s p : PoolState T ι) : Prop where
  queue : p.queue = s.queue
  exception : s.exception = true → p.exception = true
  each : ∀ v, p.workers v = s.workers v ∨
    (∃ tile, s.workers v = .processing tile ∧ p.workers v = .testing) ∨
    (p.workers v = .stopped ∧ ∀ tile, s.workers v = .processing tile → p.exception = true) ∨
    ((s.workers v).Idle ∧ (p.workers v).Idle)

/-- One worker's state changes, and how. -/
theorem ControlEffect.of_update {s p : PoolState T ι} {w : ι} {x : WorkerState T}
    (hqueue : p.queue = s.queue) (hexception : s.exception = true → p.exception = true)
    (hworkers : p.workers = Function.update s.workers w x)
    (hx : (∃ tile, s.workers w = .processing tile ∧ x = .testing) ∨
      (x = .stopped ∧ ∀ tile, s.workers w = .processing tile → p.exception = true) ∨
      ((s.workers w).Idle ∧ x.Idle)) : ControlEffect s p := by
  refine ⟨hqueue, hexception, fun v => ?_⟩
  by_cases hv : v = w
  · subst hv
    rw [hworkers, Function.update_self]
    exact .inr hx
  · rw [hworkers, Function.update_of_ne hv]
    exact .inl rfl

theorem controlEffect_of_step {s p : PoolState T ι} (hstep : PoolStep s p)
    (hreceived : p.received = s.received) : ControlEffect s p := by
  cases hstep with
  | start w hw =>
    exact .of_update rfl id rfl (.inr (.inr ⟨by simp [hw, WorkerState.Idle], trivial⟩))
  | testContinue w hw hflag =>
    exact .of_update rfl id rfl (.inr (.inr ⟨by simp [hw, WorkerState.Idle], trivial⟩))
  | testStop w hw hflag => exact .of_update rfl id rfl (.inr (.inl ⟨rfl, by simp [hw]⟩))
  | popEmpty w hw hpop => exact .of_update rfl id rfl (.inr (.inl ⟨rfl, by simp [hw]⟩))
  | finish w tile hw => exact .of_update rfl id rfl (.inl ⟨tile, hw, rfl⟩)
  | raise w hw => exact .of_update rfl (fun _ => rfl) rfl (.inr (.inl ⟨rfl, fun _ _ => rfl⟩))
  | pop w tile q hw hpop =>
    -- the worker has received a tile
    have hlength := congrArg List.length (congrFun hreceived w)
    simp at hlength

/-! ## What is written at a position -/

theorem writesAt_append (written written' : List (Nat × W)) (position : Nat) :
    writesAt (written ++ written') position =
      writesAt written position ++ writesAt written' position := by
  simp [writesAt]

theorem mem_writesAt {written : List (Nat × W)} {position : Nat} {value : W} :
    value ∈ writesAt written position ↔ (position, value) ∈ written := by
  simp [writesAt]

theorem writesAt_map_self (values : List W) (position : Nat) :
    writesAt (values.map fun value => (position, value)) position = values := by
  induction values with
  | nil => rfl
  | cons value values ih => simpa [writesAt] using ih

theorem writesAt_map_of_ne (values : List W) {position position' : Nat}
    (hne : position' ≠ position) :
    writesAt (values.map fun value => (position, value)) position' = [] := by
  induction values with
  | nil => rfl
  | cons value values ih => simp [writesAt, hne.symm]

/-! ## The invariant -/

/-- What holds of the workers, their streams and what was written in every reachable state. -/
structure WorkersInv (ready : S → Prop) (result : T → List W) (tiles : List T)
    (s : WorkersState T ι S W) : Prop where
  pool : PoolInv tiles s.pool
  idle : ∀ w, (s.pool.workers w).Idle →
    (s.streams w).pending = [] ∧ ready (s.streams w).memory
  /-- a worker that processes a tile has written a part of its result, and the rest is to come -/
  working : ∀ w tile, s.pool.workers w = .processing tile → ∃ p,
    (s.pool.received w).getLast? = some (p, tile) ∧ ∃ final values, ready final ∧
      OnTheWay final values (s.streams w) ∧ writesAt s.written p ++ values = result tile
  part : ∀ w e, e ∈ s.pool.received w → writesAt s.written e.1 <+: result e.2
  complete : ∀ w e, e ∈ s.pool.received w → writesAt s.written e.1 = result e.2 ∨
    s.pool.exception = true ∨
    (s.pool.workers w = .processing e.2 ∧ (s.pool.received w).getLast? = some e)
  unwritten : ∀ p, s.pool.queue.queueIndex ≤ p → writesAt s.written p = []

section Invariant

variable {program : T → List (HostInstr S W)} {ready : S → Prop} {result : T → List W}
  {tiles : List T} {s t : WorkersState T ι S W}

theorem workersInv_init (h : (workers ι program ready tiles).init s) :
    WorkersInv ready result tiles s := by
  obtain ⟨hpool, hstreams, hwritten⟩ := h
  have hworkers : ∀ w, s.pool.workers w = .starting := hpool.2.2.1
  have hreceived : ∀ w, s.pool.received w = [] := hpool.2.2.2
  refine ⟨poolInv_init hpool, fun w _ => (hstreams w).2, fun w tile hw => ?_, fun w e he => ?_,
    fun w e he => ?_, fun p _ => by rw [hwritten]; rfl⟩
  · rw [hworkers w] at hw
    cases hw
  · rw [hreceived w] at he
    cases he
  · rw [hreceived w] at he
    cases he

omit [DecidableEq ι] in
/-- A worker that comes to the end of its tile has written its result. -/
theorem WorkersInv.finished (h : WorkersInv ready result tiles s) {w : ι} {tile : T}
    (hw : s.pool.workers w = .processing tile) (hrest : (s.streams w).rest = []) :
    (s.streams w).pending = [] ∧ ready (s.streams w).memory ∧
      ∀ e, (s.pool.received w).getLast? = some e → writesAt s.written e.1 = result e.2 := by
  obtain ⟨p, hlast, final, values, hready, hway, hvalues⟩ := h.working w tile hw
  obtain ⟨hpending, hmemory, rfl⟩ := hway.finished hrest
  refine ⟨hpending, hmemory ▸ hready, fun e he => ?_⟩
  obtain rfl := Option.some.inj (he.symm.trans hlast)
  rwa [List.append_nil] at hvalues

theorem WorkersInv.control (h : WorkersInv ready result tiles s) {p : PoolState T ι}
    (hstep : PoolStep s.pool p) (hreceived : p.received = s.pool.received)
    (hend : ∀ w tile, s.pool.workers w = .processing tile → p.workers w = .testing →
      (s.streams w).rest = []) :
    WorkersInv ready result tiles { s with pool := p } := by
  have heffect := controlEffect_of_step hstep hreceived
  refine ⟨poolInv_preserved tiles h.pool hstep, fun w hidle => ?idle, fun w tile hw => ?working,
    fun w e he => ?part, fun w e he => ?complete, fun q hq => ?unwritten⟩
  case idle =>
    rcases heffect.each w with hsame | ⟨tile, hw, htesting⟩ | ⟨hstopped, -⟩ | ⟨hidle', -⟩
    · exact h.idle w (hsame ▸ hidle)
    · exact ⟨(h.finished hw (hend w tile hw htesting)).1,
        (h.finished hw (hend w tile hw htesting)).2.1⟩
    · rw [hstopped] at hidle
      cases hidle
    · exact h.idle w hidle'
  case working =>
    -- only a pop starts a tile
    rcases heffect.each w with hsame | ⟨-, -, htesting⟩ | ⟨hstopped, -⟩ | ⟨-, hidle⟩
    · rw [hreceived]
      exact h.working w tile (hsame ▸ hw)
    · rw [htesting] at hw
      cases hw
    · rw [hstopped] at hw
      cases hw
    · rw [hw] at hidle
      cases hidle
  case part => exact h.part w e (hreceived ▸ he)
  case complete =>
    rw [hreceived] at he ⊢
    rcases h.complete w e he with hdone | hflag | ⟨hw, hlast⟩
    · exact .inl hdone
    · exact .inr (.inl (heffect.exception hflag))
    · rcases heffect.each w with hsame | ⟨tile, htile, htesting⟩ | ⟨-, hraised⟩ | ⟨hidle, -⟩
      · exact .inr (.inr ⟨hsame ▸ hw, hlast⟩)
      · exact .inl ((h.finished htile (hend w tile htile htesting)).2.2 e hlast)
      · exact .inr (.inl (hraised e.2 hw))
      · rw [hw] at hidle
        cases hidle
  case unwritten => exact h.unwritten q (heffect.queue ▸ hq)

theorem WorkersInv.pop (hcomputes : ComputesTiles program ready result tiles)
    (h : WorkersInv ready result tiles s) {w : ι} {tile : T} {q : ThreadSafeTileQueue T}
    (hw : s.pool.workers w = .popping) (hpop : s.pool.queue.popFront = some (tile, q)) :
    WorkersInv ready result tiles { s with
      pool := { s.pool with
        queue := q
        workers := Function.update s.pool.workers w (.processing tile)
        received := Function.update s.pool.received w
          (s.pool.received w ++ [(s.pool.queue.queueIndex, tile)]) }
      streams := Function.update s.streams w
        ⟨program tile, (s.streams w).pending, (s.streams w).memory⟩ } := by
  have hstep : PoolStep s.pool _ := .pop s.pool w tile q hw hpop
  obtain ⟨hget, -, hindex⟩ := ThreadSafeTileQueue.popFront_eq_some hpop
  have htile : tile ∈ tiles := by
    rw [← h.pool.tiles_eq]
    exact List.mem_of_getElem? hget
  have hunwritten := h.unwritten s.pool.queue.queueIndex (Nat.le_refl _)
  have hidle := h.idle w (by rw [hw]; trivial)
  -- the pool is that of the invariant of the pool
  refine ⟨poolInv_preserved tiles h.pool hstep, fun v hv => ?idle, fun v tile' hv => ?working,
    fun v e he => ?part, fun v e he => ?complete, fun p hp => ?unwritten⟩
  case idle =>
    dsimp only at hv ⊢
    by_cases hvw : v = w
    · subst hvw
      rw [Function.update_self] at hv
      cases hv
    · rw [Function.update_of_ne hvw] at hv ⊢
      exact h.idle v hv
  case working =>
    dsimp only at hv ⊢
    by_cases hvw : v = w
    · subst hvw
      rw [Function.update_self] at hv
      obtain rfl := WorkerState.processing.inj hv
      obtain ⟨final, hready, hrun⟩ := hcomputes.runs tile htile _ hidle.2
      refine ⟨s.pool.queue.queueIndex, by simp, final, result tile, hready, ?_, ?_⟩
      · rw [Function.update_self, hidle.1]
        exact onTheWay_start (hcomputes.disciplined tile htile) hrun
      · rw [hunwritten, List.nil_append]
    · rw [Function.update_of_ne hvw] at hv
      simp only [Function.update_of_ne hvw]
      exact h.working v tile' hv
  case part =>
    rcases mem_update_append.mp he with he | ⟨-, rfl⟩
    · exact h.part v e he
    · rw [hunwritten]
      exact List.nil_prefix
  case complete =>
    rcases mem_update_append.mp he with he | ⟨rfl, rfl⟩
    · rcases h.complete v e he with hdone | hflag | ⟨hv, hlast⟩
      · exact .inl hdone
      · exact .inr (.inl hflag)
      · have hvw : v ≠ w := by
          rintro rfl
          rw [hw] at hv
          cases hv
        simp only [Function.update_of_ne hvw]
        exact .inr (.inr ⟨hv, hlast⟩)
    · exact .inr (.inr ⟨Function.update_self _ _ _, by simp⟩)
  case unwritten =>
    dsimp only at hp
    exact h.unwritten p (by omega)

omit [DecidableEq ι] in
/-- A position that a worker holds is held by no other worker, and once. -/
theorem PoolInv.last_unique {s : PoolState T ι} (h : PoolInv tiles s) {v w : ι} {e f : Nat × T}
    (he : (s.received w).getLast? = some e) (hf : f ∈ s.received v) (hsame : f.1 = e.1) :
    v = w ∧ f = e := by
  have hmem : e ∈ s.received w := List.mem_of_getLast? he
  have hposition : e.1 ∈ s.positions v := by
    rw [← hsame]
    exact List.mem_map_of_mem hf
  obtain rfl := h.disjoint e.1 v w hposition (List.mem_map_of_mem hmem)
  refine ⟨rfl, Prod.ext hsame ?_⟩
  have htile := h.tile_at v f hf
  rw [hsame, h.tile_at v e hmem] at htile
  exact (Option.some.inj htile).symm

theorem WorkersInv.work (h : WorkersInv ready result tiles s) {w : ι} {e : Nat × T}
    {out : Option W} {st : StreamState S W} (hw : s.pool.workers w = .processing e.2)
    (hlast : (s.pool.received w).getLast? = some e) (hstep : StreamStep (s.streams w) out st) :
    WorkersInv ready result tiles { s with
      streams := Function.update s.streams w st
      written := s.written ++ out.toList.map fun value => (e.1, value) } := by
  have hmem : e ∈ s.pool.received w := List.mem_of_getLast? hlast
  obtain ⟨p, hlast', final, values, hready, hway, hvalues⟩ := h.working w e.2 hw
  obtain rfl : p = e.1 := congrArg Prod.fst (Option.some.inj (hlast'.symm.trans hlast))
  obtain ⟨rest, rfl, hway'⟩ := hway.step hstep
  have hself : writesAt (s.written ++ out.toList.map fun value => (e.1, value)) e.1 =
      writesAt s.written e.1 ++ out.toList := by
    rw [writesAt_append, writesAt_map_self]
  have hother {q : Nat} (hq : q ≠ e.1) :
      writesAt (s.written ++ out.toList.map fun value => (e.1, value)) q =
        writesAt s.written q := by
    rw [writesAt_append, writesAt_map_of_ne _ hq, List.append_nil]
  rw [← List.append_assoc, ← hself] at hvalues
  refine ⟨h.pool, fun v hv => ?idle, fun v tile hv => ?working, fun v f hf => ?part,
    fun v f hf => ?complete, fun q hq => ?unwritten⟩
  case idle =>
    have hvw : v ≠ w := by
      rintro rfl
      rw [hw] at hv
      cases hv
    dsimp only
    rw [Function.update_of_ne hvw]
    exact h.idle v hv
  case working =>
    dsimp only at hv ⊢
    by_cases hvw : v = w
    · subst hvw
      obtain rfl := WorkerState.processing.inj (hw.symm.trans hv)
      refine ⟨e.1, hlast, final, rest, hready, ?_, hvalues⟩
      rwa [Function.update_self]
    · obtain ⟨q, hq, final', values, hready', hwayTo, hrest⟩ := h.working v tile hv
      have hne : q ≠ e.1 := fun hsame =>
        hvw (h.pool.last_unique hlast (List.mem_of_getLast? hq) hsame).1
      rw [Function.update_of_ne hvw]
      refine ⟨q, hq, final', values, hready', hwayTo, ?_⟩
      rwa [hother hne]
  case part =>
    by_cases hsame : f.1 = e.1
    · obtain ⟨-, rfl⟩ := h.pool.last_unique hlast hf hsame
      exact ⟨rest, hvalues⟩
    · rw [hother hsame]
      exact h.part v f hf
  case complete =>
    by_cases hsame : f.1 = e.1
    · obtain ⟨rfl, rfl⟩ := h.pool.last_unique hlast hf hsame
      exact .inr (.inr ⟨hw, hlast⟩)
    · rw [hother hsame]
      exact h.complete v f hf
  case unwritten =>
    have hlt : e.1 < s.pool.queue.queueIndex :=
      (h.pool.handed_out e.1).mpr ⟨w, List.mem_map_of_mem hmem⟩
    dsimp only at hq
    rw [hother (by omega)]
    exact h.unwritten q hq

/-- Every step keeps the invariant. -/
theorem workersInv_preserved (hcomputes : ComputesTiles program ready result tiles) :
    (workers ι program ready tiles).Preserves (WorkersInv ready result tiles) := by
  intro s t h hstep
  cases hstep with
  | control p hstep hreceived hend => exact h.control hstep hreceived hend
  | pop w tile q hw hpop => exact h.pop hcomputes hw hpop
  | work w e out st hw hlast hstep => exact h.work hw hlast hstep

theorem workersInv_of_reachable (hcomputes : ComputesTiles program ready result tiles)
    (hs : (workers ι program ready tiles).Reachable s) : WorkersInv ready result tiles s :=
  hs.invariant (fun _ => workersInv_init) (workersInv_preserved hcomputes)

/-! ## Results -/

omit [DecidableEq ι]

/-- What is written of a tile is always a part of its result. -/
theorem WorkersInv.writesAt_prefix (h : WorkersInv ready result tiles s) {p : Nat} {tile : T}
    (htile : tiles[p]? = some tile) : writesAt s.written p <+: result tile := by
  rcases Nat.lt_or_ge p s.pool.queue.queueIndex with hlt | hge
  · obtain ⟨w, hw⟩ := (h.pool.handed_out p).mp hlt
    obtain ⟨e, he, rfl⟩ := List.mem_map.mp hw
    obtain rfl := Option.some.inj ((h.pool.tile_at w e he).symm.trans htile)
    exact h.part w e he
  · rw [h.unwritten p hge]
    exact List.nil_prefix

/-- Behind the end of the queue nothing is written. -/
theorem WorkersInv.writesAt_of_length_le (h : WorkersInv ready result tiles s) {p : Nat}
    (hp : tiles.length ≤ p) : writesAt s.written p = [] := by
  have hindex := s.pool.queue.index_le
  rw [h.pool.tiles_eq] at hindex
  exact h.unwritten p (by omega)

/-- Whatever was written belongs to the result of its tile. -/
theorem WorkersInv.mem_written (h : WorkersInv ready result tiles s) {e : Nat × W}
    (he : e ∈ s.written) : ∃ tile, tiles[e.1]? = some tile ∧ e.2 ∈ result tile := by
  have hmem : e.2 ∈ writesAt s.written e.1 := mem_writesAt.mpr he
  rcases Nat.lt_or_ge e.1 tiles.length with hlt | hge
  · have htile := List.getElem?_eq_getElem hlt
    exact ⟨tiles[e.1], htile, (h.writesAt_prefix htile).subset hmem⟩
  · rw [h.writesAt_of_length_le hge] at hmem
    cases hmem

/-- When all workers have stopped without an exception, every result is written. -/
theorem WorkersInv.all_written (h : WorkersInv ready result tiles s) (hsome : Nonempty ι)
    (hstopped : ∀ w, s.pool.workers w = .stopped) (hflag : s.pool.exception = false) {p : Nat}
    {tile : T} (htile : tiles[p]? = some tile) : writesAt s.written p = result tile := by
  obtain ⟨w⟩ := hsome
  have hindex := h.pool.stopped_empty w (hstopped w) hflag
  have hp := (List.getElem?_eq_some_iff.mp htile).1
  obtain ⟨v, hv⟩ := (h.pool.handed_out p).mp (hindex ▸ hp)
  obtain ⟨e, he, rfl⟩ := List.mem_map.mp hv
  obtain rfl := Option.some.inj ((h.pool.tile_at v e he).symm.trans htile)
  rcases h.complete v e he with hdone | hraised | ⟨hworking, -⟩
  · exact hdone
  · rw [hflag] at hraised
    cases hraised
  · rw [hstopped v] at hworking
    cases hworking

/-- No worker's next step is undefined. -/
theorem WorkersInv.not_goesWrong (h : WorkersInv ready result tiles s) {w : ι} {tile : T}
    (hw : s.pool.workers w = .processing tile) : ¬ GoesWrong (s.streams w) := by
  obtain ⟨p, -, final, values, -, hway, -⟩ := h.working w tile hw
  exact hway.not_goesWrong

end Invariant

/-! ## The end of a run -/

section End

variable {program : T → List (HostInstr S W)} {ready : S → Prop} {result : T → List W}
  {tiles : List T} {s t : WorkersState T ι S W}

/-- How far a worker is from having to pop again, or from its end. -/
def WorkersState.rank (s : WorkersState T ι S W) (w : ι) : Nat :=
  match s.pool.workers w with
  | .starting => 3
  | .testing => 2
  | .popping => 1
  | .processing _ => 3 + 2 * (s.streams w).rest.length + (s.streams w).pending.length
  | .stopped => 0

/-- A step of the host or of the device is one of finitely many. -/
theorem length_of_streamStep {u v : StreamState S W} {out : Option W} (h : StreamStep u out v) :
    2 * v.rest.length + v.pending.length < 2 * u.rest.length + u.pending.length := by
  cases h
  all_goals
    simp only [List.length_cons, List.length_append, List.length_nil]
    omega

/-- A step that hands out no tile brings one worker nearer to its end. -/
theorem rank_of_step (h : WorkersStep program s t)
    (hqueue : t.pool.queue.queueIndex = s.pool.queue.queueIndex) :
    ∃ w, t.rank w < s.rank w ∧ ∀ v, v ≠ w → t.rank v = s.rank v := by
  have hother {w : ι} {x : WorkerState T} (hworkers : t.pool.workers =
      Function.update s.pool.workers w x) (hstreams : t.streams = s.streams) (v : ι) (hv : v ≠ w) :
      t.rank v = s.rank v := by
    simp only [WorkersState.rank, hworkers, hstreams, Function.update_of_ne hv]
  cases h with
  | control p hstep hreceived hend =>
    cases hstep with
    | start w hw => exact ⟨w, by simp [WorkersState.rank, hw], hother rfl rfl⟩
    | testContinue w hw hflag => exact ⟨w, by simp [WorkersState.rank, hw], hother rfl rfl⟩
    | testStop w hw hflag => exact ⟨w, by simp [WorkersState.rank, hw], hother rfl rfl⟩
    | popEmpty w hw hpop => exact ⟨w, by simp [WorkersState.rank, hw], hother rfl rfl⟩
    | finish w tile hw =>
      refine ⟨w, ?_, hother rfl rfl⟩
      simp [WorkersState.rank, hw]
      omega
    | raise w hw =>
      refine ⟨w, ?_, hother rfl rfl⟩
      rcases hw with hw | ⟨tile, hw⟩ <;> simp [WorkersState.rank, hw]
    | pop w tile q hw hpop =>
      have hlength := congrArg List.length (congrFun hreceived w)
      simp at hlength
  | pop w tile q hw hpop =>
    have hindex := (ThreadSafeTileQueue.popFront_eq_some hpop).2.2
    dsimp only at hqueue
    omega
  | work w e out st hw hlast hstep =>
    have hlength := length_of_streamStep hstep
    refine ⟨w, ?_, fun v hv => ?_⟩
    · simp only [WorkersState.rank, hw, Function.update_self]
      omega
    · simp only [WorkersState.rank, Function.update_of_ne hv]

/-- **Every run ends.** A step hands out a tile, or brings a worker nearer to its end. -/
theorem wellFounded_workersStep [Fintype ι] (program : T → List (HostInstr S W)) :
    WellFounded fun t s : WorkersState T ι S W => WorkersStep program s t := by
  refine Subrelation.wf (r := InvImage (Prod.Lex (· < ·) (· < ·)) fun s : WorkersState T ι S W =>
    (s.pool.queue.tiles.length - s.pool.queue.queueIndex, ∑ w, s.rank w)) ?_
    (InvImage.wf _ (WellFounded.prod_lex wellFounded_lt wellFounded_lt))
  intro t s hstep
  have hpool : t.pool.queue = s.pool.queue ∨
      ∃ tile q, s.pool.queue.popFront = some (tile, q) ∧ t.pool.queue = q := by
    cases hstep with
    | control p hstep hreceived hend => exact .inl (controlEffect_of_step hstep hreceived).queue
    | pop w tile q hw hpop => exact .inr ⟨tile, q, hpop, rfl⟩
    | work w e out st hw hlast hstep => exact .inl rfl
  rcases hpool with hsame | ⟨tile, q, hpop, rfl⟩
  · obtain ⟨w, hlt, hother⟩ := rank_of_step hstep (by rw [hsame])
    simp only [InvImage, hsame]
    refine .right _ (Finset.sum_lt_sum (fun v _ => ?_) ⟨w, Finset.mem_univ w, hlt⟩)
    by_cases hv : v = w
    · exact hv ▸ hlt.le
    · exact (hother v hv).le
  · obtain ⟨hget, htiles, hindex⟩ := ThreadSafeTileQueue.popFront_eq_some hpop
    have hlt := (List.getElem?_eq_some_iff.mp hget).1
    refine .left _ _ ?_
    rw [htiles, hindex]
    omega

/-- A step of the pool in which one worker changes, and ends its tile only at its end. -/
theorem workersStep_of_update {p : PoolState T ι} {w : ι} {x : WorkerState T}
    (hstep : PoolStep s.pool p) (hreceived : p.received = s.pool.received)
    (hworkers : p.workers = Function.update s.pool.workers w x)
    (hend : ∀ tile, s.pool.workers w = .processing tile → (s.streams w).rest = []) :
    WorkersStep program s { s with pool := p } := by
  refine .control s p hstep hreceived fun v tile hv htesting => ?_
  by_cases hvw : v = w
  · subst hvw
    exact hend tile hv
  · rw [hworkers, Function.update_of_ne hvw, hv] at htesting
    cases htesting

/-- Until all workers have stopped, some step can be taken in which nothing is thrown. -/
theorem WorkersInv.progress (h : WorkersInv ready result tiles s) {w : ι}
    (hw : s.pool.workers w ≠ .stopped) :
    ∃ t, WorkersStep program s t ∧ t.pool.exception = s.pool.exception := by
  cases hstate : s.pool.workers w with
  | starting =>
    exact ⟨_, workersStep_of_update (.start s.pool w hstate) rfl rfl (by simp [hstate]), rfl⟩
  | testing =>
    cases hflag : s.pool.exception with
    | false =>
      exact ⟨_, workersStep_of_update (.testContinue s.pool w hstate hflag) rfl rfl
        (by simp [hstate]), hflag⟩
    | true =>
      exact ⟨_, workersStep_of_update (.testStop s.pool w hstate hflag) rfl rfl
        (by simp [hstate]), hflag⟩
  | popping =>
    cases hpop : s.pool.queue.popFront with
    | none =>
      exact ⟨_, workersStep_of_update (.popEmpty s.pool w hstate hpop) rfl rfl
        (by simp [hstate]), rfl⟩
    | some popped => exact ⟨_, .pop s w popped.1 popped.2 hstate hpop, rfl⟩
  | processing tile =>
    obtain ⟨p, hlast, final, values, -, hway, -⟩ := h.working w tile hstate
    by_cases hrest : (s.streams w).rest = []
    · exact ⟨_, workersStep_of_update (.finish s.pool w tile hstate) rfl rfl (fun _ _ => hrest),
        rfl⟩
    · obtain ⟨out, st, hstep⟩ := hway.progress hrest
      exact ⟨_, .work s w (p, tile) out st hstate hlast hstep, rfl⟩
  | stopped => exact absurd hstate hw

end End

end Alus.Util
