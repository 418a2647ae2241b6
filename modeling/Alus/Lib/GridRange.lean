import Mathlib.Data.List.Dedup
import Mathlib.Data.List.Perm.Basic
import Alus.Lib.Kernel

/-!
# Loops in strides of the grid

A launch shares the indices of a range out among its threads, and each thread visits its own in
increasing order. A thread keeps what it computes on the way to itself; only its stores reach the
memory, and those of different threads reach it in no particular order. Nothing is known of a cell
that no store has reached.
-/

namespace Alus.Lib

/-! ## Shares -/

/-- The indices below the count shared out among threads: each index is visited by one thread, and
a thread visits its indices in increasing order. -/
structure ThreadShares (count : Nat) where
  shares : List (List Nat)
  increasing : ∀ share ∈ shares, share.Pairwise (· < ·)
  perm : shares.flatten.Perm (List.range count)

namespace ThreadShares

variable {count : Nat}

theorem exists_share (parts : ThreadShares count) {i : Nat} :
    (∃ share ∈ parts.shares, i ∈ share) ↔ i < count := by
  rw [← List.mem_flatten, parts.perm.mem_iff, List.mem_range]

theorem lt_of_mem (parts : ThreadShares count) {share : List Nat} (h : share ∈ parts.shares)
    {i : Nat} (hi : i ∈ share) : i < count :=
  parts.exists_share.mp ⟨share, h, hi⟩

end ThreadShares

theorem pairwise_stridedRange {start stop step : Nat} (hstep : 0 < step) :
    (stridedRange start stop step).Pairwise (· < ·) :=
  List.pairwise_lt_range' _ hstep

/-- A thread starts at its position and goes on in strides of the number of the threads. -/
def gridStrides (count threads : Nat) (hthreads : 0 < threads) : ThreadShares count where
  shares := (List.range threads).map fun t => stridedRange t count threads
  increasing share hshare := by
    obtain ⟨t, -, rfl⟩ := List.mem_map.mp hshare
    exact pairwise_stridedRange hthreads
  perm := by
    have hmem : ∀ t i, t < threads → (i ∈ stridedRange t count threads ↔
        i < count ∧ i % threads = t) := by
      intro t i ht
      rw [mem_stridedRange hthreads]
      refine and_congr_right fun _ => ⟨?_, fun h => ⟨i / threads, ?_⟩⟩
      · rintro ⟨k, rfl⟩
        rw [Nat.add_mul_mod_self_left, Nat.mod_eq_of_lt ht]
      · rw [← h, Nat.mod_add_div]
    refine (List.perm_ext_iff_of_nodup ?_ List.nodup_range).mpr fun i => ?_
    · refine List.nodup_flatten.mpr ⟨fun share hshare => ?_, ?_⟩
      · obtain ⟨t, -, rfl⟩ := List.mem_map.mp hshare
        exact nodup_stridedRange hthreads
      · rw [List.pairwise_map]
        refine List.nodup_range.imp_of_mem fun {t t'} ht ht' hne i hi hi' => hne ?_
        rw [← ((hmem t i (List.mem_range.mp ht)).mp hi).2,
          ← ((hmem t' i (List.mem_range.mp ht')).mp hi').2]
    · simp only [List.mem_flatten, List.mem_map, List.mem_range, exists_exists_and_eq_and]
      constructor
      · intro ⟨t, ht, hi⟩
        exact ((hmem t i ht).mp hi).1
      · intro hi
        have ht := Nat.mod_lt i hthreads
        exact ⟨i % threads, ht, (hmem _ i ht).mpr ⟨hi, rfl⟩⟩

/-! ## Stores in any order -/

section Stores

variable {κ α : Type}

/-- A cell of the memory; one that nothing was stored to has no known value. -/
def readCell (m : κ → Option α) (k : κ) : Outcome α :=
  match m k with
  | some a => .ok a
  | none => .undefined

theorem readCell_eq_ok {m : κ → Option α} {k : κ} {a : α} :
    readCell m k = .ok a ↔ m k = some a := by
  unfold readCell
  split <;> simp [*]

variable [DecidableEq κ]

def storeAll (stores : List (κ × α)) (m : κ → Option α) : κ → Option α :=
  stores.foldl (fun m w => Function.update m w.1 (some w.2)) m

theorem storeAll_kept {stores : List (κ × α)} {k : κ} (hk : ∀ w ∈ stores, w.1 ≠ k)
    (m : κ → Option α) : storeAll stores m k = m k := by
  induction stores generalizing m with
  | nil => rfl
  | cons w stores ih =>
    rw [storeAll, List.foldl_cons, ← storeAll, ih fun v hv => hk v (List.mem_cons_of_mem w hv)]
    exact Function.update_of_ne (hk w List.mem_cons_self).symm _ m

/-- A cell holds its value after the stores, whatever their order, when every store to it has this
value. -/
theorem storeAll_eq_some {stores : List (κ × α)} {k : κ} {a : α}
    (hstored : ∃ w ∈ stores, w.1 = k) (hsame : ∀ w ∈ stores, w.1 = k → w.2 = a)
    (m : κ → Option α) : storeAll stores m k = some a := by
  induction stores generalizing m with
  | nil =>
    obtain ⟨w, hw, -⟩ := hstored
    cases hw
  | cons w stores ih =>
    rw [storeAll, List.foldl_cons, ← storeAll]
    by_cases hlater : ∃ v ∈ stores, v.1 = k
    · exact ih hlater (fun v hv => hsame v (List.mem_cons_of_mem w hv)) _
    -- the first store is the last one to the cell
    · have hlast : ∀ v ∈ stores, v.1 ≠ k := fun v hv heq => hlater ⟨v, hv, heq⟩
      have hfirst : w.1 = k := by
        obtain ⟨v, hv, heq⟩ := hstored
        rcases List.mem_cons.mp hv with rfl | hv
        · exact heq
        · exact absurd heq (hlast v hv)
      rw [storeAll_kept hlast, ← hfirst, Function.update_self,
        hsame w List.mem_cons_self hfirst]

/-- A pass that computes a value and stores it. -/
def storeValue {ι : Type} (cell : ι → κ) (value : (κ → Option α) → ι → Outcome α)
    (m : κ → Option α) (i : ι) : Outcome (κ → Option α) := do
  let a ← value m i
  return Function.update m (cell i) (some a)

/-- A loop of passes whose values depend on no cell that the loop stores to. -/
theorem foldlM_storeValue {ι : Type} {cell : ι → κ} {value : (κ → Option α) → ι → Outcome α}
    {f : κ → α} {l : List ι} {m : κ → Option α}
    (h : ∀ i ∈ l, ∀ m', (∀ k ∉ l.map cell, m' k = m k) → value m' i = .ok (f (cell i))) :
    l.foldlM (storeValue cell value) m =
      .ok fun k => if k ∈ l.map cell then some (f k) else m k := by
  -- what the passes leave alone is the same in every memory on the way
  suffices hrun : ∀ rest ⊆ l, ∀ m', (∀ k ∉ l.map cell, m' k = m k) →
      rest.foldlM (storeValue cell value) m' =
        .ok fun k => if k ∈ rest.map cell then some (f k) else m' k by
    exact hrun l (List.Subset.refl l) m fun _ _ => rfl
  intro rest
  induction rest with
  | nil =>
    intro _ m' _
    simp
  | cons i rest ih =>
    intro hsub m' hm'
    have hi : i ∈ l := hsub List.mem_cons_self
    rw [List.foldlM_cons, storeValue, h i hi m' hm', Outcome.ok_bind, Outcome.pure_eq,
      Outcome.ok_bind, ih fun i' hi' => hsub (List.mem_cons_of_mem i hi')]
    · congr 1
      funext k
      rw [List.map_cons]
      by_cases hrest : k ∈ rest.map cell
      · rw [if_pos hrest, if_pos (List.mem_cons_of_mem _ hrest)]
      · rw [if_neg hrest]
        by_cases hk : k = cell i
        · rw [hk, Function.update_self, if_pos List.mem_cons_self]
        · rw [Function.update_of_ne hk, if_neg]
          exact fun hmem => (List.mem_cons.mp hmem).elim hk hrest
    · intro k hk
      have hne : k ≠ cell i := by
        rintro rfl
        exact hk (List.mem_map_of_mem hi)
      rw [Function.update_of_ne hne]
      exact hm' k hk

theorem foldlM_storeValue_ne_throws {ι : Type} {cell : ι → κ}
    {value : (κ → Option α) → ι → Outcome α} (h : ∀ m i, value m i ≠ .throws) (l : List ι)
    (m : κ → Option α) : l.foldlM (storeValue cell value) m ≠ .throws := by
  induction l generalizing m with
  | nil => nofun
  | cons i l ih =>
    rw [List.foldlM_cons, storeValue]
    cases hvalue : value m i with
    | ok a => exact ih _
    | throws => exact absurd hvalue (h m i)
    | undefined => nofun

/-- The order in which the stores of a launch reach the memory. -/
structure StoreOrder where
  order : ∀ {ω : Type}, List ω → List ω
  perm : ∀ {ω : Type} (stores : List ω), (order stores).Perm stores

/-- The launch of a kernel whose threads do not read what others store. -/
def launchThreads {ι : Type} (d : StoreOrder) (kernel : ι → Outcome (List (κ × α)))
    (threads : List ι) (m : κ → Option α) : Outcome (κ → Option α) := do
  let stores ← Outcome.collect (threads.map kernel)
  return storeAll (d.order stores.flatten) m

section Launch

variable {ι : Type} {d : StoreOrder} {kernel : ι → Outcome (List (κ × α))} {threads : List ι}
  {value : κ → α} {cells : ι → List κ}

/-- A launch whose threads compute a function of the cell leaves that function in the cells. -/
theorem exists_launchThreads (d : StoreOrder) (cells : ι → List κ)
    (h : ∀ t ∈ threads, kernel t = .ok ((cells t).map fun k => (k, value k)))
    (m : κ → Option α) :
    ∃ m', launchThreads d kernel threads m = .ok m' ∧
      (∀ t ∈ threads, ∀ k ∈ cells t, m' k = some (value k)) ∧
      ∀ k, (∀ t ∈ threads, k ∉ cells t) → m' k = m k := by
  let stores := threads.map fun t => (cells t).map fun k => (k, value k)
  have hcollect : Outcome.collect (threads.map kernel) = .ok stores := by
    rw [Outcome.collect_eq_ok, List.map_map]
    exact List.map_congr_left h
  have hmem : ∀ w, w ∈ d.order stores.flatten ↔ ∃ t ∈ threads, ∃ k ∈ cells t, (k, value k) = w := by
    intro w
    rw [(d.perm _).mem_iff, List.mem_flatten]
    simp only [stores, List.mem_map, exists_exists_and_eq_and]
  refine ⟨storeAll (d.order stores.flatten) m, ?_, ?_, ?_⟩
  · rw [launchThreads, hcollect]
    rfl
  · intro t ht k hk
    refine storeAll_eq_some ⟨(k, value k), (hmem _).mpr ⟨t, ht, k, hk, rfl⟩, rfl⟩ ?_ m
    intro w hw heq
    obtain ⟨t', ht', k', hk', rfl⟩ := (hmem w).mp hw
    exact congrArg value heq
  · intro k hk
    refine storeAll_kept (fun w hw heq => ?_) m
    obtain ⟨t, ht, k', hk', rfl⟩ := (hmem w).mp hw
    exact hk t ht (heq ▸ hk')

end Launch

end Stores

end Alus.Lib
