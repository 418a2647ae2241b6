import Mathlib.Algebra.Group.Nat.Defs
import Mathlib.Data.List.Induction
import Mathlib.Logic.Function.Basic
import Alus.Lib.Blocks

/-!
# The device memory arena

`MemArena` (`cuda_mem_arena.h`) reserves device memory once and hands out blocks of it by moving a
mark. Its arithmetic is that of `size_t`. The CUDA runtime is left open: each call that uses it is
told what the runtime did.

The state is that of all arenas, since an arena can be moved into another one. It keeps account of
the blocks that were handed out and not given back.
-/

namespace Alus.Cuda

open Alus.Lib

/-! ## The CUDA runtime -/

/-- What `cudaMalloc` does. Memory is aligned to 256 bytes and lies in the address space. -/
inductive CudaMalloc (size : UInt64) where
  | allocated (devPtr : UInt64) (aligned : 256 ∣ devPtr.toNat)
      (inside : devPtr.toNat + size.toNat ≤ 2 ^ 64) (nonnull : size ≠ 0 → devPtr ≠ 0)
  | failed (devPtr : UInt64)

/-- What an arena throws. -/
inductive ArenaException where
  | cudaError
  | runtimeError (what : String)
  deriving DecidableEq

/-- `CHECK_CUDA_ERR`, of a call that succeeded or did not. -/
def checkCudaErr (succeeded : Bool) : Except ArenaException Unit :=
  if succeeded then .ok () else .error .cudaError

/-! ## Arenas -/

structure MemArena where
  deviceArenaPtr : UInt64
  usedByteSize : UInt64
  maxByteSize : UInt64
  deriving DecidableEq

namespace MemArena

/-- `ARENA_ALIGNMENT`. -/
def arenaAlignment : UInt64 := 128

/-- `MemArena()`. -/
def empty : MemArena := ⟨0, 0, 0⟩

/-- `MemArena(max_bytes)`. When it throws there is no arena. -/
def construct (maxBytes : UInt64) : CudaMalloc maxBytes → Except ArenaException MemArena
  | .allocated devPtr _ _ _ => .ok ⟨devPtr, 0, maxBytes⟩
  | .failed _ => .error .cudaError

variable (arena : MemArena)

/-- `ReserveMemory`. -/
def reserveMemory (maxBytes : UInt64) (freed : Bool) (malloc : CudaMalloc maxBytes) :
    Except ArenaException Unit × MemArena :=
  if arena.deviceArenaPtr ≠ 0 ∧ ¬ freed then (checkCudaErr false, arena)
  else
    match malloc with
    | .allocated devPtr _ _ _ => (.ok (), ⟨devPtr, 0, maxBytes⟩)
    | .failed devPtr => (checkCudaErr false, { arena with deviceArenaPtr := devPtr })

/-- `Reset`. -/
def reset : MemArena := { arena with usedByteSize := 0 }

/-- `FreeMemory`. -/
def freeMemory (freed : Bool) : Except ArenaException Unit × MemArena :=
  let cleared : MemArena := { arena with usedByteSize := 0, maxByteSize := 0 }
  match checkCudaErr freed with
  | .ok () => (.ok (), { cleared with deviceArenaPtr := 0 })
  | .error e => (.error e, cleared)

/-- The text of the exception of `AllocateBytes`. -/
def overrunText (requestedBytes : UInt64) : String :=
  "Cuda mem arena overrun: used_size = " ++ toString arena.usedByteSize ++
    " max_size = " ++ toString arena.maxByteSize ++ " request = " ++ toString requestedBytes

/-- `AllocateBytes`. -/
def allocateBytes (requestedBytes : UInt64) : Except ArenaException UInt64 × MemArena :=
  if requestedBytes + arena.usedByteSize > arena.maxByteSize then
    (.error (.runtimeError (arena.overrunText requestedBytes)), arena)
  else
    let devPtr := arena.deviceArenaPtr + arena.usedByteSize
    let used := arena.usedByteSize + requestedBytes
    let alignmentOverrun := used % arenaAlignment
    let used := if alignmentOverrun ≠ 0 then used + (arenaAlignment - alignmentOverrun) else used
    (.ok devPtr, { arena with usedByteSize := used })

/-- `AllocArray`, for a type of the given size. -/
def allocArray (sizeOf nElem : UInt64) : Except ArenaException UInt64 × MemArena :=
  arena.allocateBytes (sizeOf * nElem)

end MemArena

/-! ## Requests for blocks -/

/-- What is asked of an arena. -/
inductive Asked where
  | bytes (requestedBytes : UInt64)
  | array (sizeOf nElem : UInt64)

namespace Asked

/-- How many bytes are asked for. -/
def size : Asked → Nat
  | bytes requestedBytes => requestedBytes.toNat
  | array sizeOf nElem => sizeOf.toNat * nElem.toNat

def allocate (arena : MemArena) : Asked → Except ArenaException UInt64 × MemArena
  | bytes requestedBytes => arena.allocateBytes requestedBytes
  | array sizeOf nElem => arena.allocArray sizeOf nElem

end Asked

/-- The request is too large for what is left of the arena. -/
def Overruns (arena : MemArena) (asked : Asked) : Prop :=
  arena.maxByteSize.toNat < asked.size + arena.usedByteSize.toNat

/-- The sum of what is used and what is asked for does not fit `size_t`, and what is left of it does
not pass the maximum. -/
def WrapsAround (arena : MemArena) (asked : Asked) : Prop :=
  2 ^ 64 ≤ asked.size + arena.usedByteSize.toNat ∧
    (asked.size + arena.usedByteSize.toNat) % 2 ^ 64 ≤ arena.maxByteSize.toNat

instance (arena : MemArena) (asked : Asked) : Decidable (WrapsAround arena asked) :=
  inferInstanceAs (Decidable (_ ∧ _))

/-! ## Runs -/

/-- A call, on the arenas that it names. -/
inductive Request (ι : Type) where
  | construct (i : ι) (maxBytes : UInt64) (malloc : CudaMalloc maxBytes)
  | destroy (i : ι)
  | reserveMemory (i : ι) (maxBytes : UInt64) (freed : Bool) (malloc : CudaMalloc maxBytes)
  | allocate (i : ι) (asked : Asked)
  | reset (i : ι)
  | freeMemory (i : ι) (freed : Bool)
  | moveConstruct (i oth : ι)
  | moveAssign (i rhs : ι)

/-- The arenas, with the blocks of each that are in use. -/
structure Arenas (ι : Type) where
  arena : ι → MemArena
  live : ι → List Block

namespace Arenas

variable {ι : Type} [DecidableEq ι]

/-- There is nothing in any arena. -/
def start : Arenas ι := ⟨fun _ => .empty, fun _ => []⟩

variable (s : Arenas ι)

/-- An arena and its blocks are replaced. -/
def put (i : ι) (arena : MemArena) (live : List Block) : Arenas ι :=
  ⟨Function.update s.arena i arena, Function.update s.live i live⟩

/-- The memory of one arena goes to another one, with its blocks. -/
def moveTo (i oth : ι) : Arenas ι :=
  if i = oth then s else (s.put i (s.arena oth) (s.live oth)).put oth .empty []

/-- A call. Blocks are in use until the arena is reset, gets other memory or loses its memory. -/
def step : Request ι → Arenas ι
  | .construct i maxBytes malloc =>
    match MemArena.construct maxBytes malloc with
    | .ok arena => s.put i arena []
    | .error _ => s.put i .empty []
  | .destroy i => s.put i .empty []
  | .reserveMemory i maxBytes freed malloc =>
    match (s.arena i).reserveMemory maxBytes freed malloc with
    | (.ok (), arena) => s.put i arena []
    | (.error _, arena) => s.put i arena (s.live i)
  | .allocate i asked =>
    match asked.allocate (s.arena i) with
    | (.ok devPtr, arena) =>
      let offset := (devPtr - (s.arena i).deviceArenaPtr).toNat
      s.put i arena (s.live i ++ [⟨offset, asked.size⟩])
    | (.error _, arena) => s.put i arena (s.live i)
  | .reset i => s.put i (s.arena i).reset []
  | .freeMemory i freed => s.put i ((s.arena i).freeMemory freed).2 []
  | .moveConstruct i oth => s.moveTo i oth
  | .moveAssign i rhs => s.moveTo i rhs

/-- The arenas after some calls. -/
def run (requests : List (Request ι)) : Arenas ι := requests.foldl step start

end Arenas

/-! ## What an arena promises -/

/-- The blocks in use lie in the reservation, aligned and disjoint. -/
structure BlocksCorrect (arena : MemArena) (live : List Block) : Prop where
  inside : ∀ b ∈ live, b.stop ≤ arena.maxByteSize.toNat
  aligned : ∀ b ∈ live, MemArena.arenaAlignment.toNat ∣ b.offset
  disjoint : live.Pairwise Block.Disjoint

/-- A request that does not fit throws and leaves the arena as it was. -/
def RefusesOverrun (arena : MemArena) (asked : Asked) : Prop :=
  Overruns arena asked → ∃ e, asked.allocate arena = (.error e, arena)

/-- In every state of a run the blocks in use are correct, and what does not fit is refused. -/
def HandsOutBlocks {ι : Type} [DecidableEq ι] (requests : List (Request ι)) : Prop :=
  ∀ done rest, requests = done ++ rest →
    (∀ i, BlocksCorrect ((Arenas.run done).arena i) ((Arenas.run done).live i)) ∧
      ∀ i asked, rest.head? = some (.allocate i asked) →
        RefusesOverrun ((Arenas.run done).arena i) asked

/-! ## A request -/

section Request

variable {arena : MemArena} {asked : Asked}

/-- The number of bytes that reaches the arena is that of the request, in `size_t`. -/
theorem exists_requestedBytes (arena : MemArena) (asked : Asked) :
    ∃ requestedBytes : UInt64, requestedBytes.toNat = asked.size % 2 ^ 64 ∧
      asked.allocate arena = arena.allocateBytes requestedBytes := by
  cases asked with
  | bytes requestedBytes =>
    exact ⟨requestedBytes, (Nat.mod_eq_of_lt requestedBytes.toNat_lt).symm, rfl⟩
  | array sizeOf nElem => exact ⟨sizeOf * nElem, UInt64.toNat_mul sizeOf nElem, rfl⟩

/-- What passes the maximum in `size_t` is refused. -/
theorem allocate_of_lt (h : arena.maxByteSize.toNat <
      (asked.size + arena.usedByteSize.toNat) % 2 ^ 64) :
    ∃ e, asked.allocate arena = (.error e, arena) := by
  obtain ⟨requestedBytes, hbytes, hallocate⟩ := exists_requestedBytes arena asked
  refine ⟨.runtimeError (arena.overrunText requestedBytes), ?_⟩
  rw [hallocate, MemArena.allocateBytes, if_pos]
  rwa [gt_iff_lt, UInt64.lt_iff_toNat_lt, UInt64.toNat_add, hbytes, Nat.mod_add_mod]

/-- The mark is moved to the next multiple of the alignment. -/
theorem toNat_roundUp (used : UInt64) (h : used.toNat + 128 ≤ 2 ^ 64) :
    (if used % MemArena.arenaAlignment ≠ 0 then
        used + (MemArena.arenaAlignment - used % MemArena.arenaAlignment) else used).toNat =
      alignUp 128 used.toNat := by
  have halignment : MemArena.arenaAlignment.toNat = 128 := rfl
  have hoverrun : (used % MemArena.arenaAlignment).toNat = used.toNat % 128 :=
    UInt64.toNat_mod used MemArena.arenaAlignment
  have hzero : used % MemArena.arenaAlignment = 0 ↔ used.toNat % 128 = 0 := by
    rw [← UInt64.toNat_inj, hoverrun]
    rfl
  unfold alignUp
  by_cases hmultiple : used.toNat % 128 = 0
  · rw [if_neg (not_not.mpr (hzero.mpr hmultiple)), if_pos hmultiple]
  · have hle : used % MemArena.arenaAlignment ≤ MemArena.arenaAlignment := by
      rw [UInt64.le_iff_toNat_le, hoverrun, halignment]
      omega
    rw [if_pos (mt hzero.mp hmultiple), if_neg hmultiple, UInt64.toNat_add,
      UInt64.toNat_sub_of_le _ _ hle, hoverrun, halignment, Nat.mod_eq_of_lt (by omega)]

/-- What does not pass the maximum in `size_t` is granted at the mark. -/
theorem allocate_of_le (h : (asked.size + arena.usedByteSize.toNat) % 2 ^ 64 ≤
      arena.maxByteSize.toNat) :
    ∃ devPtr used, asked.allocate arena = (.ok devPtr, { arena with usedByteSize := used }) ∧
      devPtr - arena.deviceArenaPtr = arena.usedByteSize ∧
      (asked.size + arena.usedByteSize.toNat + 128 ≤ 2 ^ 64 →
        used.toNat = alignUp 128 (asked.size + arena.usedByteSize.toNat)) := by
  obtain ⟨requestedBytes, hbytes, hallocate⟩ := exists_requestedBytes arena asked
  rw [hallocate, MemArena.allocateBytes, if_neg]
  · refine ⟨_, _, rfl, ?_, fun hfits => ?_⟩
    · rw [UInt64.add_comm, UInt64.add_sub_cancel]
    · have hused : (arena.usedByteSize + requestedBytes).toNat =
          asked.size + arena.usedByteSize.toNat := by
        rw [UInt64.toNat_add, hbytes, Nat.add_mod_mod, Nat.mod_eq_of_lt (by omega), Nat.add_comm]
      rw [← hused]
      exact toNat_roundUp _ (by omega)
  · rw [gt_iff_lt, UInt64.lt_iff_toNat_lt, UInt64.toNat_add, hbytes, Nat.mod_add_mod]
    omega

/-- The sum of a request that fits does not wrap around. -/
theorem sum_mod_le_of_fits (h : ¬ Overruns arena asked) :
    (asked.size + arena.usedByteSize.toNat) % 2 ^ 64 ≤ arena.maxByteSize.toNat := by
  have hmax := arena.maxByteSize.toNat_lt
  unfold Overruns at h
  rw [Nat.mod_eq_of_lt (by omega)]
  omega

/-- A request that is refused does not fit; one that does not fit is refused, unless its sum wraps
around. -/
theorem refusesOverrun_iff : RefusesOverrun arena asked ↔ ¬ WrapsAround arena asked := by
  unfold RefusesOverrun Overruns WrapsAround
  constructor
  · rintro hrefuses ⟨hlarge, hle⟩
    have hmax := arena.maxByteSize.toNat_lt
    obtain ⟨e, hthrows⟩ := hrefuses (by omega)
    obtain ⟨devPtr, used, hgranted, -⟩ := allocate_of_le hle
    rw [hgranted] at hthrows
    cases (Prod.mk.inj hthrows).1
  · intro hwraps hoverruns
    apply allocate_of_lt
    by_contra hle
    rcases Nat.lt_or_ge (asked.size + arena.usedByteSize.toNat) (2 ^ 64) with hlt | hge
    · rw [Nat.mod_eq_of_lt hlt] at hle
      omega
    · exact hwraps ⟨hge, by omega⟩

/-- A request that fits is granted. -/
theorem granted_of_fits (h : ¬ Overruns arena asked) :
    ∃ devPtr arena', asked.allocate arena = (.ok devPtr, arena') := by
  obtain ⟨devPtr, used, hgranted, -⟩ := allocate_of_le (sum_mod_le_of_fits h)
  exact ⟨devPtr, _, hgranted⟩

/-- A request that is refused leaves the arena as it was. -/
theorem eq_of_allocate_error {e : ArenaException} {arena' : MemArena}
    (h : asked.allocate arena = (.error e, arena')) : arena' = arena := by
  rcases Nat.lt_or_ge arena.maxByteSize.toNat
    ((asked.size + arena.usedByteSize.toNat) % 2 ^ 64) with hlt | hge
  · obtain ⟨e', hthrows⟩ := allocate_of_lt hlt
    exact (Prod.mk.inj (h.symm.trans hthrows)).2
  · obtain ⟨devPtr, used, hgranted, -⟩ := allocate_of_le hge
    rw [hgranted] at h
    cases (Prod.mk.inj h).1

end Request

/-! ## A reservation -/

section Reservation

variable {arena arena' : MemArena} {maxBytes : UInt64} {freed : Bool} {malloc : CudaMalloc maxBytes}

/-- Memory that is aligned and not null leaves out the first bytes of the address space. -/
theorem limit_of_malloc {devPtr : UInt64} (haligned : 256 ∣ devPtr.toNat)
    (hinside : devPtr.toNat + maxBytes.toNat ≤ 2 ^ 64) (hnonnull : maxBytes ≠ 0 → devPtr ≠ 0) :
    maxBytes.toNat + 256 ≤ 2 ^ 64 := by
  by_cases hzero : maxBytes = 0
  · rw [hzero]
    decide
  · have hpos : devPtr.toNat ≠ 0 := fun h => hnonnull hzero (UInt64.toNat_inj.mp h)
    have hle := Nat.le_of_dvd (Nat.pos_of_ne_zero hpos) haligned
    omega

/-- A reservation that succeeds is new memory, of which nothing is used. -/
theorem of_reserveMemory_ok (h : arena.reserveMemory maxBytes freed malloc = (.ok (), arena')) :
    maxBytes.toNat + 256 ≤ 2 ^ 64 ∧ ∃ devPtr, arena' = ⟨devPtr, 0, maxBytes⟩ := by
  unfold MemArena.reserveMemory at h
  split at h
  · cases (Prod.mk.inj h).1
  · cases malloc with
    | allocated devPtr haligned hinside hnonnull =>
      exact ⟨limit_of_malloc haligned hinside hnonnull, devPtr, (Prod.mk.inj h).2.symm⟩
    | failed devPtr => cases (Prod.mk.inj h).1

/-- A reservation that fails leaves the sizes as they were, also when the memory is lost. -/
theorem of_reserveMemory_error {e : ArenaException}
    (h : arena.reserveMemory maxBytes freed malloc = (.error e, arena')) :
    ∃ devPtr, arena' = { arena with deviceArenaPtr := devPtr } := by
  unfold MemArena.reserveMemory at h
  split at h
  · exact ⟨arena.deviceArenaPtr, (Prod.mk.inj h).2.symm⟩
  · cases malloc with
    | allocated devPtr haligned hinside hnonnull => cases (Prod.mk.inj h).1
    | failed devPtr => exact ⟨devPtr, (Prod.mk.inj h).2.symm⟩

end Reservation

/-! ## The invariant of an arena -/

/-- The blocks in use lie below the mark; the reservation is one that the runtime can make. -/
structure ArenaInv (arena : MemArena) (live : List Block) : Prop where
  limit : arena.maxByteSize.toNat + 256 ≤ 2 ^ 64
  stacked : Stacked 128 arena.maxByteSize.toNat arena.usedByteSize.toNat live

namespace ArenaInv

variable {arena : MemArena} {live : List Block} {asked : Asked}

theorem correct (h : ArenaInv arena live) : BlocksCorrect arena live where
  inside := h.stacked.inside
  aligned := h.stacked.aligned
  disjoint := h.stacked.apart.imp Block.Apart.disjoint

/-- An arena without blocks, whose mark is at the start. -/
theorem fresh (devPtr : UInt64) {maxBytes : UInt64} (h : maxBytes.toNat + 256 ≤ 2 ^ 64) :
    ArenaInv ⟨devPtr, 0, maxBytes⟩ [] where
  limit := h
  stacked := Stacked.nil maxBytes.toNat

/-- A request that fits moves the mark behind its block. -/
theorem allocate (h : ArenaInv arena live) (hwraps : ¬ WrapsAround arena asked) {devPtr : UInt64}
    {arena' : MemArena} (hgranted : asked.allocate arena = (.ok devPtr, arena')) :
    ArenaInv arena'
      (live ++ [⟨(devPtr - arena.deviceArenaPtr).toNat, asked.size⟩]) := by
  have hlimit := h.limit
  have hfits : ¬ Overruns arena asked := fun hover => by
    obtain ⟨e, hthrows⟩ := refusesOverrun_iff.mpr hwraps hover
    rw [hgranted] at hthrows
    cases (Prod.mk.inj hthrows).1
  obtain ⟨devPtr', used, hallocate, hoffset, hused⟩ := allocate_of_le (sum_mod_le_of_fits hfits)
  unfold Overruns at hfits
  rw [hallocate] at hgranted
  obtain ⟨hptr, rfl⟩ := Prod.mk.inj hgranted
  obtain rfl := Except.ok.inj hptr
  have hmark := hused (by omega)
  rw [hoffset]
  refine ⟨hlimit, h.stacked.push (by omega) ?_ ?_⟩
  · show arena.usedByteSize.toNat + asked.size ≤ used.toNat
    rw [hmark, Nat.add_comm]
    exact le_alignUp _ _
  · show 128 ∣ used.toNat
    rw [hmark]
    exact dvd_alignUp (by decide) _

end ArenaInv

/-! ## The invariant over runs -/

section Runs

variable {ι : Type} [DecidableEq ι]

/-- The invariant of every arena. -/
def ArenasInv (s : Arenas ι) : Prop := ∀ i, ArenaInv (s.arena i) (s.live i)

omit [DecidableEq ι] in
theorem arenasInv_start : ArenasInv (Arenas.start : Arenas ι) := fun _ =>
  ArenaInv.fresh 0 (by decide)

variable {s : Arenas ι}

theorem ArenasInv.put (h : ArenasInv s) (i : ι) {arena : MemArena} {live : List Block}
    (ha : ArenaInv arena live) : ArenasInv (s.put i arena live) := by
  intro j
  show ArenaInv (Function.update s.arena i arena j) (Function.update s.live i live j)
  rcases eq_or_ne j i with rfl | hne
  · rw [Function.update_self, Function.update_self]
    exact ha
  · rw [Function.update_of_ne hne, Function.update_of_ne hne]
    exact h j

theorem ArenasInv.moveTo (h : ArenasInv s) (i oth : ι) : ArenasInv (s.moveTo i oth) := by
  unfold Arenas.moveTo
  split
  · exact h
  · exact (h.put i (h oth)).put oth (arenasInv_start (ι := ι) oth)

/-- Every call keeps the invariant, but for a request whose sum wraps around. -/
theorem ArenasInv.step (h : ArenasInv s) (request : Request ι)
    (hwraps : ∀ i asked, request = .allocate i asked → ¬ WrapsAround (s.arena i) asked) :
    ArenasInv (s.step request) := by
  have hempty : ArenaInv .empty [] := ArenaInv.fresh 0 (by decide)
  cases request with
  | construct i maxBytes malloc =>
    cases malloc with
    | allocated devPtr haligned hinside hnonnull =>
      exact h.put i (ArenaInv.fresh devPtr (limit_of_malloc haligned hinside hnonnull))
    | failed devPtr => exact h.put i hempty
  | destroy i => exact h.put i hempty
  | reserveMemory i maxBytes freed malloc =>
    simp only [Arenas.step]
    split
    · next hreserved =>
      obtain ⟨hlimit, devPtr, rfl⟩ := of_reserveMemory_ok hreserved
      exact h.put i (ArenaInv.fresh devPtr hlimit)
    · next hfailed =>
      -- the blocks lie below the old mark, even where the memory was given back
      obtain ⟨devPtr, rfl⟩ := of_reserveMemory_error hfailed
      exact h.put i ⟨(h i).limit, (h i).stacked⟩
  | allocate i asked =>
    simp only [Arenas.step]
    split
    · next hgranted => exact h.put i ((h i).allocate (hwraps i asked rfl) hgranted)
    · next hrefused =>
      rw [eq_of_allocate_error hrefused]
      exact h.put i (h i)
  | reset i => exact h.put i (ArenaInv.fresh _ (h i).limit)
  | freeMemory i freed =>
    have hnone : (0 : UInt64).toNat + 256 ≤ 2 ^ 64 := by decide
    refine h.put i ?_
    cases freed with
    | true => exact ArenaInv.fresh 0 hnone
    | false => exact ArenaInv.fresh _ hnone
  | moveConstruct i oth => exact h.moveTo i oth
  | moveAssign i rhs => exact h.moveTo i rhs

/-- A run without such requests keeps the invariant. -/
theorem arenasInv_run {requests : List (Request ι)}
    (hwraps : ∀ done i asked rest, requests = done ++ .allocate i asked :: rest →
      ¬ WrapsAround ((Arenas.run done).arena i) asked)
    {done rest : List (Request ι)} (hrun : requests = done ++ rest) :
    ArenasInv (Arenas.run done) := by
  induction done using List.reverseRecOn generalizing rest with
  | nil => exact arenasInv_start
  | append_singleton done request ih =>
    rw [List.append_assoc, List.singleton_append] at hrun
    have hstep : Arenas.run (done ++ [request]) = (Arenas.run done).step request := by
      rw [Arenas.run, List.foldl_append]
      rfl
    rw [hstep]
    exact (ih hrun).step request fun i asked heq => hwraps done i asked rest (heq ▸ hrun)

/-- **The arenas** hand out blocks of their reservations, and refuse what does not fit, exactly in
the runs in which no sum of a request wraps around to a value that passes the test. -/
theorem handsOutBlocks_iff (requests : List (Request ι)) :
    HandsOutBlocks requests ↔
      ∀ done i asked rest, requests = done ++ .allocate i asked :: rest →
        ¬ WrapsAround ((Arenas.run done).arena i) asked := by
  constructor
  · intro h done i asked rest hrun
    exact refusesOverrun_iff.mp ((h done _ hrun).2 i asked rfl)
  · intro hwraps done rest hrun
    refine ⟨fun i => (arenasInv_run hwraps hrun i).correct, fun i asked hhead => ?_⟩
    obtain ⟨rest', rfl⟩ : ∃ rest', rest = .allocate i asked :: rest' := by
      cases rest with
      | nil => cases hhead
      | cons request rest' => exact ⟨rest', by rw [Option.some.inj hhead]⟩
    exact refusesOverrun_iff.mpr (hwraps done i asked rest' hrun)

end Runs

/-- An array of 2^61 `double` is taken for one of no bytes. -/
theorem not_handsOutBlocks_product :
    ¬ HandsOutBlocks [Request.reserveMemory () 1024 true
        (.allocated 4096 (by decide) (by decide) (by decide)),
      .allocate () (.array 8 2305843009213693952)] := by
  intro h
  refine refusesOverrun_iff.mp ((h [_] [_] rfl).2 () _ rfl) ?_
  decide

end Alus.Cuda
