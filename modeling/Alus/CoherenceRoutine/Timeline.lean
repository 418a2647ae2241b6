import Mathlib.Data.List.Infix
import Alus.CoherenceRoutine.SplitApplyOrbit
import Alus.Lib.Run

/-!
# The coherence timeline

`Execute::RunTimeline` (`coherence-estimation-routine/src/execute.cc`) walks a sorted list of
acquisitions and computes the coherence of every two neighbours. An acquisition is loaded
once, is the secondary of one pair and the reference of the next, and is released after it was
the reference.

The loop is a transition system whose steps are the pieces of its body between two calls. A run
that ends at a call that throws is a run like any other, so what holds in every reachable state
holds there too. The trace records the calls in their order.
-/

namespace Alus.CoherenceRoutine

open Alus.Lib

/-- `TimelineDataset`. -/
structure TimelineDataset (R U ε : Type) where
  path : String
  orbitSource : String
  selection : Selection R U ε

/-- Where the loop stands. -/
inductive Point where
  | head
  | loading
  | calculating
  | done
  deriving DecidableEq, Repr

/-- What the loop does with a dataset. -/
inductive Event where
  | readOrbit (i : Nat)
  | load (i : Nat)
  | calc (reference secondary : Nat)
  | release (i : Nat)
  deriving DecidableEq, Repr

structure Timeline (R U ε : Type) where
  point : Point
  datasets : List (TimelineDataset R U ε)
  loadCnt : Nat
  calcIndex : Nat
  gpuInitDone : Bool
  metadata : Option String
  trace : List Event

section Loop

variable {R U ε A : Type} [DecidableEq ε] (services : Services R U ε A) (params : Parameters)

/-- The datasets that were selected, before the loop. -/
def startTimeline (paths : List String) : Outcome (Timeline R U ε) := do
  Outcome.require (¬ paths.length < 2)
  return {
    point := .head
    datasets := paths.map fun path => { path, orbitSource := "", selection := ⟨[], []⟩ }
    loadCnt := 0
    calcIndex := 0
    gpuInitDone := false
    metadata := none
    trace := [] }

/-- The loop condition, and the metadata of a new round. -/
def enterRound (s : Timeline R U ε) : Outcome (Timeline R U ε) :=
  if s.calcIndex < s.datasets.length - 1 then
    if s.loadCnt ≠ 0 then do
      let dataset ← vectorAt s.datasets s.calcIndex
      return { s with
        point := .loading
        metadata := addOrAppend none dataset.orbitSource
        trace := s.trace ++ [.readOrbit s.calcIndex] }
    else
      return { s with point := .loading, metadata := none }
  else
    return { s with point := .done }

/-- One round of the inner loop. -/
def loadNext (s : Timeline R U ε) : Outcome (Timeline R U ε) :=
  if s.loadCnt < 2 ∧ s.calcIndex + s.loadCnt < s.datasets.length then do
    let i := s.calcIndex + s.loadCnt
    let loadDs ← vectorAt s.datasets i
    let (selection, source) ← splitApplyOrbit services params loadDs.path
      fullSubswathBurstIndexStart fullSubswathBurstIndexEnd loadDs.selection s.metadata
    return { s with
      datasets := s.datasets.set i
        { loadDs with selection, orbitSource := source.orbitSource }
      loadCnt := s.loadCnt + 1
      metadata := source.metadata
      trace := s.trace ++ [.load i] }
  else
    return { s with point := .calculating }

/-- The device, at the first round that needs it. -/
def awaitGpu (gpuInitDone : Bool) : Outcome Unit :=
  if gpuInitDone then return () else services.gpuInit

/-- The pair, and the release of its reference. -/
def calculate (s : Timeline R U ε) : Outcome (Timeline R U ε) := do
  awaitGpu services s.gpuInitDone
  let reference ← vectorAt s.datasets s.calcIndex
  let secondary ← vectorAt s.datasets (s.calcIndex + 1 : Nat)
  calcSingleCoherence services reference.selection secondary.selection
  let free ← vectorAt s.datasets s.calcIndex
  return { s with
    point := .head
    gpuInitDone := true
    calcIndex := s.calcIndex + 1
    loadCnt := s.loadCnt - 1
    datasets := s.datasets.set s.calcIndex
      { free with selection := { free.selection with splits := [] } }
    trace := s.trace ++ [.calc s.calcIndex (s.calcIndex + 1)] ++ [.release s.calcIndex] }

/-- The piece of the body that starts at the point. -/
def advance (s : Timeline R U ε) : Outcome (Timeline R U ε) :=
  match s.point with
  | .head => enterRound s
  | .loading => loadNext services params s
  | .calculating => calculate services s
  | .done => return s

/-- `RunTimeline`'s loop over these inputs. -/
def timeline (paths : List String) : System (Timeline R U ε) where
  init s := startTimeline paths = .ok s
  step s t := s.point ≠ .done ∧ advance services params s = .ok t

end Loop

/-! ## What a trace says -/

namespace Event

/-- The datasets an event reads or frees. -/
def uses : Event → List Nat
  | .readOrbit i => [i]
  | .load _ => []
  | .calc i j => [i, j]
  | .release i => [i]

/-- The loaded datasets after an event. -/
def live (loaded : List Nat) : Event → List Nat
  | .load i => loaded ++ [i]
  | .release i => loaded.erase i
  | _ => loaded

def load? : Event → Option Nat
  | .load i => some i
  | _ => none

def pair? : Event → Option (Nat × Nat)
  | .calc i j => some (i, j)
  | _ => none

end Event

/-- The datasets that are loaded and not released. -/
def loadedAfter (trace : List Event) : List Nat :=
  trace.foldl Event.live []

/-- The datasets in the order they are loaded. -/
def loads (trace : List Event) : List Nat :=
  trace.filterMap Event.load?

/-- The pairs in the order they are processed. -/
def pairs (trace : List Event) : List (Nat × Nat) :=
  trace.filterMap Event.pair?

/-- At every point of the trace at most two datasets are loaded, and the next event uses loaded
datasets only. -/
structure Disciplined (trace : List Event) : Prop where
  loaded : ∀ before e, before ++ [e] <+: trace → ∀ i ∈ e.uses, i ∈ loadedAfter before
  atMostTwo : ∀ before, before <+: trace → (loadedAfter before).length ≤ 2

theorem loadedAfter_concat (trace : List Event) (e : Event) :
    loadedAfter (trace ++ [e]) = e.live (loadedAfter trace) := by
  unfold loadedAfter
  rw [List.foldl_append]
  rfl

theorem Disciplined.nil : Disciplined [] where
  loaded before e h := absurd (List.prefix_nil.mp h) (by simp)
  atMostTwo before h := by
    rw [List.prefix_nil.mp h]
    decide

theorem Disciplined.concat {trace : List Event} (h : Disciplined trace) {e : Event}
    (huses : ∀ i ∈ e.uses, i ∈ loadedAfter trace)
    (htwo : (e.live (loadedAfter trace)).length ≤ 2) : Disciplined (trace ++ [e]) where
  loaded before e' hp := by
    rcases List.prefix_concat_iff.mp hp with heq | hp
    · obtain ⟨rfl, rfl⟩ := List.append_singleton_inj.mp heq
      exact huses
    · exact h.loaded before e' hp
  atMostTwo before hp := by
    rcases List.prefix_concat_iff.mp hp with heq | hp
    · rw [heq, loadedAfter_concat]
      exact htwo
    · exact h.atMostTwo before hp

/-! ## The invariant of the loop -/

section Invariant

variable {R U ε A : Type}

/-- `loadCnt` at each point of the loop. The first round starts with nothing loaded, every later
one with the secondary of the pair before. -/
def CountAt (n : Nat) (s : Timeline R U ε) : Prop :=
  match s.point with
  | .head => s.calcIndex ≤ n - 1 ∧ s.loadCnt = min s.calcIndex 1
  | .loading => s.calcIndex < n - 1 ∧ min s.calcIndex 1 ≤ s.loadCnt ∧ s.loadCnt ≤ 2
  | .calculating => s.calcIndex < n - 1 ∧ s.loadCnt = 2
  | .done => s.calcIndex = n - 1 ∧ s.loadCnt = 1

/-- The datasets of a state: those in the window are loaded, the others hold no split. -/
structure DatasetsAt (datasets : List (TimelineDataset R U ε)) (calcIndex loadCnt : Nat) :
    Prop where
  released : ∀ i dataset, datasets[i]? = some dataset → i < calcIndex →
    dataset.selection.splits = []
  loaded : ∀ i dataset, datasets[i]? = some dataset → calcIndex ≤ i → i < calcIndex + loadCnt →
    dataset.selection.Aligned ∧ dataset.selection.splits ≠ []
  waiting : ∀ i dataset, datasets[i]? = some dataset → calcIndex + loadCnt ≤ i →
    dataset.selection = ⟨[], []⟩

/-- The trace of a state. -/
structure TraceAt (trace : List Event) (calcIndex loadCnt : Nat) : Prop where
  loadedAfter : loadedAfter trace = List.range' calcIndex loadCnt
  loads : loads trace = List.range (calcIndex + loadCnt)
  pairs : pairs trace = (List.range calcIndex).map fun k => (k, k + 1)
  disciplined : Disciplined trace

structure TimelineInv (n : Nat) (s : Timeline R U ε) : Prop where
  length : s.datasets.length = n
  two : 2 ≤ n
  count : CountAt n s
  datasets : DatasetsAt s.datasets s.calcIndex s.loadCnt
  trace : TraceAt s.trace s.calcIndex s.loadCnt

theorem timelineInv_start {paths : List String} {s : Timeline R U ε}
    (h : startTimeline paths = .ok s) : TimelineInv paths.length s := by
  simp only [startTimeline, Outcome.bind_eq_ok, Outcome.require_eq_ok, Outcome.pure_eq,
    Outcome.ok.injEq] at h
  obtain ⟨-, htwo, rfl⟩ := h
  exact {
    length := by simp
    two := Nat.le_of_not_lt htwo
    count := ⟨Nat.zero_le _, rfl⟩
    datasets := {
      released := fun i dataset _ hi => absurd hi (Nat.not_lt_zero i)
      loaded := fun i dataset _ _ hi => absurd hi (Nat.not_lt_zero i)
      waiting := fun i dataset hget _ => by
        obtain ⟨path, -, rfl⟩ := Option.map_eq_some_iff.mp (List.getElem?_map ▸ hget)
        rfl }
    trace := {
      loadedAfter := rfl
      loads := rfl
      pairs := rfl
      disciplined := Disciplined.nil } }

/-! ### One step -/

theorem TraceAt.readOrbit {trace : List Event} {calcIndex loadCnt : Nat}
    (h : TraceAt trace calcIndex loadCnt) (hpos : 0 < loadCnt) (htwo : loadCnt ≤ 2) :
    TraceAt (trace ++ [.readOrbit calcIndex]) calcIndex loadCnt where
  loadedAfter := by rw [loadedAfter_concat, h.loadedAfter]; rfl
  loads := by
    rw [← h.loads]
    simp [CoherenceRoutine.loads, Event.load?]
  pairs := by
    rw [← h.pairs]
    simp [CoherenceRoutine.pairs, Event.pair?]
  disciplined := by
    apply h.disciplined.concat
    · intro i hi
      rw [List.mem_singleton.mp hi, h.loadedAfter]
      exact List.mem_range'_1.mpr (by omega)
    · show (CoherenceRoutine.loadedAfter trace).length ≤ 2
      rw [h.loadedAfter, List.length_range']
      exact htwo

theorem TraceAt.load {trace : List Event} {calcIndex loadCnt : Nat}
    (h : TraceAt trace calcIndex loadCnt) (htwo : loadCnt < 2) :
    TraceAt (trace ++ [.load (calcIndex + loadCnt)]) calcIndex (loadCnt + 1) where
  loadedAfter := by
    rw [loadedAfter_concat, h.loadedAfter, List.range'_1_concat]
    rfl
  loads := by
    rw [← Nat.add_assoc, List.range_succ, ← h.loads]
    simp [CoherenceRoutine.loads, Event.load?]
  pairs := by
    rw [← h.pairs]
    simp [CoherenceRoutine.pairs, Event.pair?]
  disciplined := by
    apply h.disciplined.concat
    · intro i hi
      exact absurd hi List.not_mem_nil
    · show (CoherenceRoutine.loadedAfter trace ++ [calcIndex + loadCnt]).length ≤ 2
      rw [h.loadedAfter, List.length_append, List.length_range']
      exact htwo

/-- A pair uses both loaded datasets, and its reference is the older of them. -/
theorem TraceAt.calc {trace : List Event} {calcIndex : Nat} (h : TraceAt trace calcIndex 2) :
    TraceAt (trace ++ [.calc calcIndex (calcIndex + 1)] ++ [.release calcIndex])
      (calcIndex + 1) 1 := by
  -- both datasets of the pair are loaded, and after the release only the second
  have hlive : CoherenceRoutine.loadedAfter trace = [calcIndex, calcIndex + 1] := h.loadedAfter
  have hcalc : CoherenceRoutine.loadedAfter (trace ++ [.calc calcIndex (calcIndex + 1)]) =
      [calcIndex, calcIndex + 1] := by
    rw [loadedAfter_concat, hlive]
    rfl
  have hfree : [calcIndex, calcIndex + 1].erase calcIndex = [calcIndex + 1] := by simp
  exact {
    loadedAfter := by
      rw [loadedAfter_concat, hcalc]
      exact hfree
    loads := by
      show CoherenceRoutine.loads _ = List.range (calcIndex + 2)
      rw [← h.loads]
      simp [CoherenceRoutine.loads, Event.load?]
    pairs := by
      rw [List.range_succ, List.map_append, ← h.pairs]
      simp [CoherenceRoutine.pairs, Event.pair?]
    disciplined := by
      apply Disciplined.concat
      · apply h.disciplined.concat
        · intro i hi
          rw [hlive]
          exact hi
        · rw [hlive]
          exact Nat.le_refl 2
      · intro i hi
        rw [hcalc, List.mem_singleton.mp hi]
        exact List.mem_cons_self
      · rw [hcalc]
        show ([calcIndex, calcIndex + 1].erase calcIndex).length ≤ 2
        rw [hfree]
        exact Nat.le_succ 1 }

theorem eq_of_getElem?_set {α : Type} {l : List α} {i : Nat} {a b : α}
    (h : (l.set i a)[i]? = some b) : b = a := by
  obtain ⟨hlt, heq⟩ := List.getElem?_eq_some_iff.mp h
  rw [← heq, List.getElem_set_self]

/-- Only the dataset that is loaded changes. -/
theorem DatasetsAt.load {datasets : List (TimelineDataset R U ε)} {calcIndex loadCnt : Nat}
    (h : DatasetsAt datasets calcIndex loadCnt) {new : TimelineDataset R U ε}
    (haligned : new.selection.Aligned) (hne : new.selection.splits ≠ []) :
    DatasetsAt (datasets.set (calcIndex + loadCnt) new) calcIndex (loadCnt + 1) where
  released i dataset hget hi := by
    rw [List.getElem?_set_ne (by omega)] at hget
    exact h.released i dataset hget hi
  loaded i dataset hget hle hlt := by
    rcases Nat.lt_or_ge i (calcIndex + loadCnt) with hold | hnew
    · rw [List.getElem?_set_ne (by omega)] at hget
      exact h.loaded i dataset hget hle hold
    -- The dataset at the end of the window is the new one.
    · obtain rfl : i = calcIndex + loadCnt := by omega
      obtain rfl := eq_of_getElem?_set hget
      exact ⟨haligned, hne⟩
  waiting i dataset hget hi := by
    rw [List.getElem?_set_ne (by omega)] at hget
    exact h.waiting i dataset hget (by omega)

/-- Only the dataset that is released changes. -/
theorem DatasetsAt.release {datasets : List (TimelineDataset R U ε)} {calcIndex loadCnt : Nat}
    (h : DatasetsAt datasets calcIndex (loadCnt + 1)) {new : TimelineDataset R U ε}
    (hnew : new.selection.splits = []) :
    DatasetsAt (datasets.set calcIndex new) (calcIndex + 1) loadCnt where
  released i dataset hget hi := by
    rcases Nat.lt_or_eq_of_le (Nat.le_of_lt_succ hi) with hold | rfl
    · rw [List.getElem?_set_ne (by omega)] at hget
      exact h.released i dataset hget hold
    · obtain rfl := eq_of_getElem?_set hget
      exact hnew
  loaded i dataset hget hle hlt := by
    rw [List.getElem?_set_ne (by omega)] at hget
    exact h.loaded i dataset hget (by omega) (by omega)
  waiting i dataset hget hi := by
    rw [List.getElem?_set_ne (by omega)] at hget
    exact h.waiting i dataset hget (by omega)

variable {services : Services R U ε A} {params : Parameters}

theorem timelineInv_enterRound {n : Nat} {s t : Timeline R U ε} (hs : TimelineInv n s)
    (hpoint : s.point = .head) (h : enterRound s = .ok t) : TimelineInv n t := by
  have hcount : s.calcIndex ≤ n - 1 ∧ s.loadCnt = min s.calcIndex 1 := by
    simpa only [CountAt, hpoint] using hs.count
  have htwo := hs.two
  unfold enterRound at h
  rw [hs.length] at h
  split_ifs at h with hlt hload
  -- A later round reads the orbit source of its reference, which is loaded.
  · simp only [Outcome.bind_eq_ok, Outcome.pure_eq, Outcome.ok.injEq] at h
    obtain ⟨dataset, -, rfl⟩ := h
    exact { hs with
      count := ⟨hlt, by show min s.calcIndex 1 ≤ s.loadCnt; omega, by show s.loadCnt ≤ 2; omega⟩
      trace := hs.trace.readOrbit (by omega) (by omega) }
  · obtain rfl := Outcome.ok.inj h
    exact { hs with
      count := ⟨hlt, by show min s.calcIndex 1 ≤ s.loadCnt; omega, by show s.loadCnt ≤ 2; omega⟩ }
  · obtain rfl := Outcome.ok.inj h
    exact { hs with
      count := ⟨by show s.calcIndex = n - 1; omega, by show s.loadCnt = 1; omega⟩ }

theorem timelineInv_calculate {n : Nat} {s t : Timeline R U ε} (hs : TimelineInv n s)
    (hpoint : s.point = .calculating) (h : calculate services s = .ok t) : TimelineInv n t := by
  have hcount : s.calcIndex < n - 1 ∧ s.loadCnt = 2 := by
    simpa only [CountAt, hpoint] using hs.count
  simp only [calculate, Outcome.bind_eq_ok, Outcome.pure_eq, Outcome.ok.injEq] at h
  obtain ⟨-, -, -, -, -, -, -, -, free, -, rfl⟩ := h
  have hdatasets := hs.datasets
  have htrace := hs.trace
  rw [hcount.2] at hdatasets htrace
  have hleft : s.loadCnt - 1 = 1 := by rw [hcount.2]
  exact {
    length := by rw [← hs.length]; exact List.length_set
    two := hs.two
    count := ⟨by show s.calcIndex + 1 ≤ n - 1; omega,
      by show s.loadCnt - 1 = min (s.calcIndex + 1) 1; omega⟩
    datasets := by
      show DatasetsAt _ (s.calcIndex + 1) (s.loadCnt - 1)
      rw [hleft]
      exact hdatasets.release rfl
    trace := by
      show TraceAt _ (s.calcIndex + 1) (s.loadCnt - 1)
      rw [hleft]
      exact htrace.calc }

variable [DecidableEq ε]

theorem timelineInv_loadNext {n : Nat} {s t : Timeline R U ε} (hs : TimelineInv n s)
    (hpoint : s.point = .loading) (h : loadNext services params s = .ok t) : TimelineInv n t := by
  have hcount : s.calcIndex < n - 1 ∧ min s.calcIndex 1 ≤ s.loadCnt ∧ s.loadCnt ≤ 2 := by
    simpa only [CountAt, hpoint] using hs.count
  unfold loadNext at h
  rw [hs.length] at h
  split_ifs at h with hload
  · have hlt : s.calcIndex + s.loadCnt < s.datasets.length := hs.length ▸ hload.2
    simp only [vectorAt_natCast hlt, Outcome.ok_bind, Outcome.bind_eq_ok] at h
    obtain ⟨⟨selection, source⟩, hsplit, h⟩ := h
    obtain rfl := Outcome.ok.inj h
    -- Nothing was loaded here before, so both vectors start empty.
    have hempty := hs.datasets.waiting _ _ (List.getElem?_eq_getElem hlt) (Nat.le_refl _)
    rw [hempty] at hsplit
    obtain ⟨haligned, hne⟩ := splitApplyOrbit_aligned hsplit
    exact {
      length := by rw [← hs.length]; exact List.length_set
      two := hs.two
      count := by
        rw [CountAt, hpoint]
        exact ⟨hcount.1, by show _ ≤ s.loadCnt + 1; omega, by show s.loadCnt + 1 ≤ 2; omega⟩
      datasets := hs.datasets.load haligned hne
      trace := hs.trace.load hload.1 }
  · obtain rfl := Outcome.ok.inj h
    -- The inner loop stops with two datasets: the round has a secondary.
    exact { hs with count := ⟨hcount.1, by show s.loadCnt = 2; omega⟩ }

theorem timelineInv_step (paths : List String) :
    (timeline services params paths).Preserves (TimelineInv paths.length) := by
  intro s t hs hstep
  obtain ⟨hnotDone, h⟩ := hstep
  unfold advance at h
  cases hpoint : s.point with
  | head => rw [hpoint] at h; exact timelineInv_enterRound hs hpoint h
  | loading => rw [hpoint] at h; exact timelineInv_loadNext hs hpoint h
  | calculating => rw [hpoint] at h; exact timelineInv_calculate hs hpoint h
  | done => exact absurd hpoint hnotDone

theorem timelineInv_reachable {paths : List String} {s : Timeline R U ε}
    (h : (timeline services params paths).Reachable s) : TimelineInv paths.length s :=
  h.invariant (fun _ hinit => timelineInv_start hinit) (timelineInv_step paths)

/-! ### The loop ends -/

/-- The call the loop stands at does not return. -/
def CallFails (services : Services R U ε A) (params : Parameters) (s : Timeline R U ε) : Prop :=
  match s.point with
  | .loading => ∃ dataset ∈ s.datasets, ∀ result,
      splitApplyOrbit services params dataset.path fullSubswathBurstIndexStart
        fullSubswathBurstIndexEnd ⟨[], []⟩ s.metadata ≠ .ok result
  | .calculating => awaitGpu services s.gpuInitDone ≠ .ok () ∨
      ∃ reference ∈ s.datasets, ∃ secondary ∈ s.datasets,
        calcSingleCoherence services reference.selection secondary.selection ≠ .ok ()
  | _ => False

/-- Every step but a failing call is possible: no access runs past an end. -/
theorem advance_eq_ok {n : Nat} {s : Timeline R U ε} (hs : TimelineInv n s)
    (hcall : ¬ CallFails services params s) : ∃ t, advance services params s = .ok t := by
  have hlength := hs.length
  have hcount := hs.count
  unfold advance
  cases hpoint : s.point with
  | done => exact ⟨s, rfl⟩
  | head =>
    simp only [enterRound]
    split_ifs with hlt hload
    · have hi : s.calcIndex < s.datasets.length := by omega
      rw [vectorAt_natCast hi]
      exact ⟨_, rfl⟩
    · exact ⟨_, rfl⟩
    · exact ⟨_, rfl⟩
  | loading =>
    -- the call of the services does not fail, so it has a result
    simp only [CallFails, hpoint, not_exists, not_and, not_forall, not_not] at hcall
    simp only [loadNext]
    split_ifs with hload
    · have hi : s.calcIndex + s.loadCnt < s.datasets.length := hload.2
      obtain ⟨result, hresult⟩ := hcall _ (List.getElem_mem hi)
      have hempty := hs.datasets.waiting _ _ (List.getElem?_eq_getElem hi) (Nat.le_refl _)
      rw [vectorAt_natCast hi, Outcome.ok_bind, hempty, hresult]
      exact ⟨_, rfl⟩
    · exact ⟨_, rfl⟩
  | calculating =>
    simp only [CountAt, hpoint] at hcount
    simp only [CallFails, hpoint, not_or, not_exists, not_and, not_not] at hcall
    have hi : s.calcIndex < s.datasets.length := by omega
    have hj : s.calcIndex + 1 < s.datasets.length := by omega
    have hcalc := hcall.2 _ (List.getElem_mem hi) _ (List.getElem_mem hj)
    simp only [calculate, hcall.1, vectorAt_natCast hi, vectorAt_natCast hj, Outcome.ok_bind,
      hcalc]
    exact ⟨_, rfl⟩

/-- The steps that are left, at most. -/
def stepsLeft (n : Nat) (s : Timeline R U ε) : Nat :=
  match s.point with
  | .head => 6 * (n - 1 - s.calcIndex) + 1
  | .loading => 6 * (n - 1 - s.calcIndex) - s.loadCnt
  | .calculating => 6 * (n - 1 - s.calcIndex) - 3
  | .done => 0

theorem stepsLeft_decreases {n : Nat} {s t : Timeline R U ε} (hs : TimelineInv n s)
    (hpoint : s.point ≠ .done) (h : advance services params s = .ok t) :
    stepsLeft n t < stepsLeft n s := by
  have hcount := hs.count
  unfold advance at h
  -- a round has six, and each step of it takes at least one
  cases hp : s.point with
  | done => exact absurd hp hpoint
  | head =>
    simp only [hp, enterRound, hs.length] at h
    simp only [CountAt, hp] at hcount
    split_ifs at h with hlt hload
    · simp only [Outcome.bind_eq_ok, Outcome.pure_eq, Outcome.ok.injEq] at h
      obtain ⟨_, -, rfl⟩ := h
      simp only [stepsLeft, hp]
      omega
    · obtain rfl := Outcome.ok.inj h
      simp only [stepsLeft, hp]
      omega
    · obtain rfl := Outcome.ok.inj h
      simp only [stepsLeft, hp]
      omega
  | loading =>
    simp only [hp, loadNext, hs.length] at h
    simp only [CountAt, hp] at hcount
    split_ifs at h with hload
    · simp only [Outcome.bind_eq_ok] at h
      obtain ⟨_, -, ⟨selection, source⟩, -, h⟩ := h
      obtain rfl := Outcome.ok.inj h
      simp only [stepsLeft, hp]
      omega
    · obtain rfl := Outcome.ok.inj h
      simp only [stepsLeft, hp]
      omega
  | calculating =>
    simp only [hp, calculate, Outcome.bind_eq_ok, Outcome.pure_eq, Outcome.ok.injEq] at h
    simp only [CountAt, hp] at hcount
    obtain ⟨-, -, -, -, -, -, -, -, free, -, rfl⟩ := h
    simp only [stepsLeft, hp]
    omega

/-- From every reachable state the loop runs on to its end, or to a call that does not return. -/
theorem timeline_ends {paths : List String} (s : Timeline R U ε)
    (hs : TimelineInv paths.length s) :
    ∃ t, (timeline services params paths).Runs s t ∧
      (t.point = .done ∨ CallFails services params t) := by
  by_cases hstop : s.point = .done ∨ CallFails services params s
  · exact ⟨s, System.Runs.refl s, hstop⟩
  · obtain ⟨hpoint, hcall⟩ := not_or.mp hstop
    obtain ⟨next, hnext⟩ := advance_eq_ok hs hcall
    have hstep : (timeline services params paths).step s next := ⟨hpoint, hnext⟩
    have hless := stepsLeft_decreases hs hpoint hnext
    obtain ⟨t, hruns, ht⟩ := timeline_ends next (timelineInv_step paths hs hstep)
    exact ⟨t, System.Runs.head hstep hruns, ht⟩
  termination_by stepsLeft paths.length s

/-! ## The timeline -/

theorem range_prefix_of_le {m n : Nat} (h : m ≤ n) : List.range m <+: List.range n := by
  rw [← Nat.min_eq_left h, ← List.take_range]
  exact List.take_prefix m (List.range n)

/-- Every pair of neighbours, in order. -/
def consecutivePairs (n : Nat) : List (Nat × Nat) :=
  (List.range (n - 1)).map fun k => (k, k + 1)

/-- What holds of `n` inputs wherever the loop stands: the pairs and the loads so far are the
first of those to be done, the datasets are used as their loading allows, those that are loaded
hold a split for every selected sub-swath, and the loop comes to its end unless a call fails. -/
structure TimelineCorrect (services : Services R U ε A) (params : Parameters)
    (paths : List String) (s : Timeline R U ε) : Prop where
  pairs : pairs s.trace <+: consecutivePairs paths.length
  loads : loads s.trace <+: List.range paths.length
  finished : s.point = .done → CoherenceRoutine.pairs s.trace = consecutivePairs paths.length ∧
    CoherenceRoutine.loads s.trace = List.range paths.length
  disciplined : Disciplined s.trace
  holdsSplits : ∀ i dataset, s.datasets[i]? = some dataset →
    (dataset.selection.splits ≠ [] ↔ i ∈ loadedAfter s.trace)
  aligned : ∀ i dataset, s.datasets[i]? = some dataset → i ∈ loadedAfter s.trace →
    dataset.selection.Aligned
  ready : s.point = .calculating →
    s.calcIndex ∈ loadedAfter s.trace ∧ s.calcIndex + 1 ∈ loadedAfter s.trace
  ends : ∃ t, (timeline services params paths).Runs s t ∧
    (t.point = .done ∨ CallFails services params t)

omit [DecidableEq ε] in
theorem CountAt.bounds {n : Nat} {s : Timeline R U ε} (h : CountAt n s) (htwo : 2 ≤ n) :
    s.calcIndex ≤ n - 1 ∧ s.calcIndex + s.loadCnt ≤ n := by
  unfold CountAt at h
  split at h <;> omega

theorem TimelineInv.correct {paths : List String} {s : Timeline R U ε}
    (h : TimelineInv paths.length s) : TimelineCorrect services params paths s := by
  obtain ⟨hcalc, hload⟩ := h.count.bounds h.two
  have hmem : ∀ i, i ∈ loadedAfter s.trace ↔ s.calcIndex ≤ i ∧ i < s.calcIndex + s.loadCnt := by
    intro i
    rw [h.trace.loadedAfter]
    exact List.mem_range'_1
  exact {
    pairs := by
      rw [h.trace.pairs]
      exact (range_prefix_of_le hcalc).map _
    loads := by
      rw [h.trace.loads]
      exact range_prefix_of_le hload
    finished := fun hdone => by
      have hcount : s.calcIndex = paths.length - 1 ∧ s.loadCnt = 1 := by
        simpa only [CountAt, hdone] using h.count
      have hlast : s.calcIndex + s.loadCnt = paths.length := by
        have := h.two
        omega
      rw [h.trace.pairs, h.trace.loads, hlast, hcount.1]
      exact ⟨rfl, rfl⟩
    disciplined := h.trace.disciplined
    holdsSplits := fun i dataset hget => by
      rw [hmem]
      constructor
      · intro hne
        apply Decidable.byContradiction
        intro hout
        -- Outside the window a dataset was released, or waits.
        rcases Nat.lt_or_ge i s.calcIndex with hlt | hge
        · exact hne (h.datasets.released i dataset hget hlt)
        · have hwait := h.datasets.waiting i dataset hget (by omega)
          exact hne (by rw [hwait])
      · intro hin
        exact (h.datasets.loaded i dataset hget hin.1 hin.2).2
    aligned := fun i dataset hget hi =>
      (h.datasets.loaded i dataset hget ((hmem i).mp hi).1 ((hmem i).mp hi).2).1
    ready := fun hpoint => by
      have hcount : s.calcIndex < paths.length - 1 ∧ s.loadCnt = 2 := by
        simpa only [CountAt, hpoint] using h.count
      rw [hmem, hmem]
      omega
    ends := timeline_ends s h }

end Invariant

/-- A reader that finds one product of one sub-swath under every path. -/
def oneProduct : Services Nat Nat Nat Unit where
  utc seconds := seconds
  format := toString
  readProductNodes _ :=
    .ok { TopsarSplit.farSource with names_sorted := List.pairwise_singleton _ _ }
  readWkt _ := none
  extractSwathPolygon _ := .ok []
  isWithinSwath _ _ := false
  isCovered _ _ := false
  openPixelReader _ _ := .ok ()
  isOrbitFileAssigned := false
  initializeWithoutUpdate _ := .ok ()
  initializeOrbit _ := .ok "S1A_OPER_AUX_POEORB"
  gpuInit := .ok ()
  processSwath _ _ _ := .ok ()
  mergeSwaths _ := .ok ()

def wholeProduct : Parameters where
  subswath := ""
  polarisation := "VV"
  aoi := ""
  orbitDir := ""

end Alus.CoherenceRoutine
