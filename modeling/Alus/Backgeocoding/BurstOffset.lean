import Mathlib.Algebra.Order.Field.Basic
import Mathlib.Algebra.Field.Rat
import Mathlib.Algebra.Order.Ring.Unbundled.Rat
import Mathlib.Logic.Function.Basic
import Alus.Lib.Run
import Alus.Lib.Numerals

/-!
# The burst offset kernel

`ComputeBurstOffsetKernel` (`backgeocoding/src/burst_offset.cu`) gives every thread one
geo point. A thread reads the shared offset and stops when it is set; otherwise it computes
its own offset from the burst indices of its point and publishes it with one `atomicCAS`.

The kernel writes its `if`/`else` chain as products with the sentinel: the compare value of
each `Cas` is `INVALID_BURST_OFFSET * condition`, so `0` when the condition is false. Zero is
also a legal offset. What that does to the shared offset is the subject of this module.
-/

namespace Alus.Backgeocoding

open Alus.Lib

/-! ## Burst indices -/

/-- `BurstIndices`: the one or two bursts a point lies in, `-1` for none. -/
structure BurstIndices where
  firstBurstIndex : Int := -1
  secondBurstIndex : Int := -1
  inUpperPartOfFirstBurst : Bool := false
  inUpperPartOfSecondBurst : Bool := false
  valid : Bool := false
  deriving DecidableEq, Repr

section GetBurstIndices

variable {F : Type*} [Field F] [LinearOrder F]

/-- The loop of `GetBurstIndices` over the bursts from index `i` on. `seen` says that the
first burst has been found (`k ≠ 0`); the second one ends the loop. -/
def burstIndicesLoop (zeroDopplerTime : F) :
    List (F × F) → Int → Bool → BurstIndices → BurstIndices
  | [], _, _, indices => indices
  | (firstLineTime, lastLineTime) :: bursts, i, seen, indices =>
    if zeroDopplerTime ≥ firstLineTime ∧ zeroDopplerTime < lastLineTime then
      let inUpperPart := decide (zeroDopplerTime ≥ (firstLineTime + lastLineTime) / 2)
      -- the second burst ends the loop
      if seen then
        { indices with secondBurstIndex := i, inUpperPartOfSecondBurst := inUpperPart }
      else
        burstIndicesLoop zeroDopplerTime bursts (i + 1) true
          { indices with firstBurstIndex := i, inUpperPartOfFirstBurst := inUpperPart }
    else
      burstIndicesLoop zeroDopplerTime bursts (i + 1) seen indices

/-- `GetBurstIndices`: the bursts whose line times contain the zero Doppler time of the point,
`none` standing for `NON_VALID_ZERO_DOPPLER_TIME`. -/
def getBurstIndices (bursts : List (F × F)) (zeroDopplerTimeInDays : Option F) : BurstIndices :=
  match zeroDopplerTimeInDays with
  | none => {}
  | some days =>
    let indices := burstIndicesLoop (days * 86400) bursts 0 false {}
    { indices with
      valid := indices.firstBurstIndex ≠ -1 || indices.secondBurstIndex ≠ -1 }

/-- Indices of at most `n` bursts, in the order the loop of `GetBurstIndices` finds them. -/
structure BurstIndices.InOrder (n : Int) (b : BurstIndices) : Prop where
  first : -1 ≤ b.firstBurstIndex ∧ b.firstBurstIndex < n
  second : b.secondBurstIndex = -1 ∨
    0 ≤ b.firstBurstIndex ∧ b.firstBurstIndex < b.secondBurstIndex ∧ b.secondBurstIndex < n

theorem BurstIndices.InOrder.mono {n n' : Int} {b : BurstIndices} (h : b.InOrder n)
    (hn : n ≤ n') : b.InOrder n' := by
  obtain ⟨hfirst, hsecond⟩ := h
  exact ⟨⟨hfirst.1, by omega⟩, hsecond.imp_right fun h => ⟨h.1, h.2.1, by omega⟩⟩

theorem burstIndicesLoop_inOrder (time : F) (bursts : List (F × F)) (i : Int) (hi : 0 ≤ i)
    (seen : Bool) (b : BurstIndices) (hsecond : b.secondBurstIndex = -1)
    (hfirst : -1 ≤ b.firstBurstIndex ∧ b.firstBurstIndex < i)
    (hseen : seen = true → 0 ≤ b.firstBurstIndex) :
    (burstIndicesLoop time bursts i seen b).InOrder (i + bursts.length) := by
  induction bursts generalizing i seen b with
  | nil =>
    rw [burstIndicesLoop, List.length_nil, Nat.cast_zero, add_zero]
    exact ⟨hfirst, .inl hsecond⟩
  | cons burst bursts ih =>
    have hlen : i + ((burst :: bursts).length : Int) = i + 1 + bursts.length := by
      rw [List.length_cons]
      omega
    rw [hlen, burstIndicesLoop]
    by_cases hin : time ≥ burst.1 ∧ time < burst.2
    · rw [if_pos hin]
      -- the second burst that has the time ends the loop
      cases seen with
      | true =>
        have h0 := hseen rfl
        refine ⟨⟨hfirst.1, ?_⟩, .inr ⟨h0, hfirst.2, ?_⟩⟩
        · show b.firstBurstIndex < i + 1 + bursts.length
          omega
        · show i < i + 1 + bursts.length
          omega
      | false =>
        refine ih (i + 1) (by omega) true _ hsecond ⟨?_, ?_⟩ fun _ => hi
        · show -1 ≤ i
          omega
        · show i < i + 1
          omega
    · rw [if_neg hin]
      exact ih (i + 1) (by omega) seen b hsecond ⟨hfirst.1, by omega⟩ hseen

theorem getBurstIndices_inOrder (bursts : List (F × F)) (time : Option F) :
    (getBurstIndices bursts time).InOrder bursts.length := by
  cases time with
  | none => exact ⟨⟨le_refl _, by show (-1 : Int) < _; omega⟩, .inl rfl⟩
  | some days =>
    have h := burstIndicesLoop_inOrder (days * 86400) bursts 0 (le_refl 0) false {} rfl
      ⟨le_refl _, by decide⟩ (fun h => nomatch h)
    rw [zero_add] at h
    exact ⟨h.first, h.second⟩

end GetBurstIndices

/-! ## The offset of one point -/

/-- `mathutils::Xor`. -/
def mathXor (a b : Bool) : Bool :=
  (!a) != (!b)

/-- `mathutils::Cas` on a local variable: the new value of `*old`. -/
def mathCas (old compare value : Int) : Int :=
  (old == compare).toInt * value + (old != compare).toInt * old

/-- `INVALID_BURST_OFFSET`. -/
def invalidBurstOffset : Int := -9999

/-- The compare value `INVALID_BURST_OFFSET * condition`. -/
def compareValue (condition : Bool) : Int :=
  invalidBurstOffset * condition.toInt

theorem mathCas_eq (old compare value : Int) :
    mathCas old compare value = if old = compare then value else old := by
  unfold mathCas
  by_cases h : old = compare
  · rw [if_pos h, h]
    simp [Bool.toInt]
  · have hne : (old == compare) = false := by simpa using h
    simp [hne, h, bne, Bool.toInt]

@[simp] theorem compareValue_true : compareValue true = invalidBurstOffset := by decide

@[simp] theorem compareValue_false : compareValue false = 0 := by decide

/-- The first halves of both burst pairs agree. -/
def match11 (master slave : BurstIndices) : Bool :=
  master.inUpperPartOfFirstBurst == slave.inUpperPartOfFirstBurst

def match12 (master slave : BurstIndices) : Bool :=
  slave.secondBurstIndex != -1 &&
    master.inUpperPartOfFirstBurst == slave.inUpperPartOfSecondBurst

def match21 (master slave : BurstIndices) : Bool :=
  master.secondBurstIndex != -1 &&
    master.inUpperPartOfSecondBurst == slave.inUpperPartOfFirstBurst

def match22 (master slave : BurstIndices) : Bool :=
  master.secondBurstIndex != -1 && slave.secondBurstIndex != -1 &&
    master.inUpperPartOfSecondBurst == slave.inUpperPartOfSecondBurst

/-- The four `Cas` of the kernel on the local copy `old` of the shared offset. -/
def localOffset (old : Int) (master slave : BurstIndices) : Int :=
  let c1 := match11 master slave
  let old := mathCas old (compareValue c1) (slave.firstBurstIndex - master.firstBurstIndex)
  -- each condition is the parity of the matches so far
  let c2 := mathXor c1 (match12 master slave)
  let old := mathCas old (compareValue c2) (slave.secondBurstIndex - master.firstBurstIndex)
  let c3 := mathXor c2 (match21 master slave)
  let old := mathCas old (compareValue c3) (slave.firstBurstIndex - master.secondBurstIndex)
  let c4 := mathXor c3 (match22 master slave)
  mathCas old (compareValue c4) (slave.secondBurstIndex - master.secondBurstIndex)

/-- One thread's input: whether its point has an elevation, and its burst indices. -/
structure GeoPoint where
  hasElevation : Bool
  master : BurstIndices
  slave : BurstIndices

namespace GeoPoint

/-- The point passes the early returns in front of the offset computation. -/
def active (p : GeoPoint) : Bool :=
  p.hasElevation &&
    !(!p.master.valid || !p.slave.valid ||
      (p.master.firstBurstIndex == -1 && p.master.secondBurstIndex == -1) ||
      (p.slave.firstBurstIndex == -1 && p.slave.secondBurstIndex == -1))

/-- What the thread of the point computes from its local copy `old`. -/
def offset (p : GeoPoint) (old : Int) : Int :=
  localOffset old p.master p.slave

/-- The point produces a candidate: its thread, reading the sentinel, computes an offset. -/
def HasCandidate (p : GeoPoint) : Prop :=
  p.active ∧ p.offset invalidBurstOffset ≠ invalidBurstOffset

end GeoPoint

/-- The point a thread sees: its burst indices come from the burst times of the two
sub-swaths and the zero Doppler times of the point. -/
def geoPoint {F : Type*} [Field F] [LinearOrder F] (masterBursts slaveBursts : List (F × F))
    (hasElevation : Bool) (masterTime slaveTime : Option F) : GeoPoint where
  hasElevation := hasElevation
  master := getBurstIndices masterBursts masterTime
  slave := getBurstIndices slaveBursts slaveTime

/-! ## The threads -/

/-- Where a thread of the kernel stands. -/
inductive ThreadState where
  /-- before the read of the shared offset at the top of the kernel -/
  | reading
  /-- the read returned the sentinel; elevation and burst indices come next -/
  | computing
  /-- the local offset is computed, `atomicCAS` comes next -/
  | comparing (old : Int)
  | done

/-- The shared offset and the threads. -/
structure KernelState (ι : Type*) where
  burstOffset : Int
  threads : ι → ThreadState

variable {ι : Type*} [DecidableEq ι]

/-- The value `atomicCAS(args.burst_offset, INVALID * (old != INVALID), old)` leaves. -/
def atomicCasOffset (shared old : Int) : Int :=
  if shared = compareValue (old != invalidBurstOffset) then old else shared

/-- One step of one thread. -/
inductive KernelStep (points : ι → GeoPoint) : KernelState ι → KernelState ι → Prop where
  | readSet (s : KernelState ι) (i : ι) (hi : s.threads i = .reading)
      (hset : s.burstOffset ≠ invalidBurstOffset) :
      KernelStep points s { s with threads := Function.update s.threads i .done }
  | readInvalid (s : KernelState ι) (i : ι) (hi : s.threads i = .reading)
      (hinv : s.burstOffset = invalidBurstOffset) :
      KernelStep points s { s with threads := Function.update s.threads i .computing }
  | earlyReturn (s : KernelState ι) (i : ι) (hi : s.threads i = .computing)
      (hact : (points i).active = false) :
      KernelStep points s { s with threads := Function.update s.threads i .done }
  | compute (s : KernelState ι) (i : ι) (hi : s.threads i = .computing)
      (hact : (points i).active = true) :
      KernelStep points s { s with
        threads := Function.update s.threads i (.comparing ((points i).offset s.burstOffset)) }
  | atomicCas (s : KernelState ι) (i : ι) (old : Int) (hi : s.threads i = .comparing old) :
      KernelStep points s {
        burstOffset := atomicCasOffset s.burstOffset old
        threads := Function.update s.threads i .done }

/-- The kernel over `points`: the host sets the shared offset to the sentinel. -/
def burstOffsetKernel (points : ι → GeoPoint) : System (KernelState ι) where
  init s := s.burstOffset = invalidBurstOffset ∧ ∀ i, s.threads i = .reading
  step := KernelStep points

/-- What is asked of the kernel: a set offset never changes, and the offset stays unset only
when no point has a candidate. -/
def StableAndValid (points : ι → GeoPoint) : Prop :=
  (∀ s t, (burstOffsetKernel points).Reachable s → (burstOffsetKernel points).Runs s t →
    s.burstOffset ≠ invalidBurstOffset → t.burstOffset = s.burstOffset) ∧
  ∀ s, (burstOffsetKernel points).Reachable s → (∀ i, s.threads i = .done) →
    s.burstOffset = invalidBurstOffset → ∀ i, ¬ (points i).HasCandidate

/-- A point whose offset is zero and another one whose thread arrives at `atomicCAS` with the
sentinel: the latter compares with zero. -/
def ResetsZero (points : ι → GeoPoint) : Prop :=
  ∃ i j, i ≠ j ∧ (points i).active ∧ (points j).active ∧
    (points i).offset invalidBurstOffset = 0 ∧
    ((points j).offset invalidBurstOffset = invalidBurstOffset ∨
      (points j).offset 0 = invalidBurstOffset)

/-! ## The invariant -/

theorem atomicCasOffset_invalid (old : Int) : atomicCasOffset invalidBurstOffset old = old := by
  by_cases hold : old = invalidBurstOffset
  · rw [atomicCasOffset, hold, ite_self]
  · have hne : (old != invalidBurstOffset) = true := by simpa using hold
    rw [atomicCasOffset, hne, compareValue_true, if_pos rfl]

theorem atomicCasOffset_of_ne {shared old : Int} (hshared : shared ≠ invalidBurstOffset)
    (hzero : shared = 0 → old ≠ invalidBurstOffset) : atomicCasOffset shared old = shared := by
  unfold atomicCasOffset
  by_cases hold : old = invalidBurstOffset
  · have hne : shared ≠ 0 := fun h => hzero h hold
    rw [show (old != invalidBurstOffset) = false by simpa using hold, compareValue_false,
      if_neg hne]
  · rw [show (old != invalidBurstOffset) = true by simpa using hold, compareValue_true,
      if_neg hshared]

/-- What holds in every reachable state when no thread resets a zero. -/
structure KernelInv (points : ι → GeoPoint) (s : KernelState ι) : Prop where
  /-- a set offset was published by a thread that started from the sentinel -/
  published : s.burstOffset ≠ invalidBurstOffset →
    ∃ i, (points i).active ∧ s.threads i = .done ∧
      (points i).offset invalidBurstOffset = s.burstOffset
  /-- a thread in front of `atomicCAS` computed from the sentinel or from the set offset -/
  held : ∀ i old, s.threads i = .comparing old → (points i).active ∧
    (old = (points i).offset invalidBurstOffset ∨
      s.burstOffset ≠ invalidBurstOffset ∧ old = (points i).offset s.burstOffset)
  unset : s.burstOffset = invalidBurstOffset →
    ∀ i, s.threads i = .done → ¬ (points i).HasCandidate

variable {points : ι → GeoPoint}

theorem kernelInv_init {s : KernelState ι} (h : (burstOffsetKernel points).init s) :
    KernelInv points s := by
  obtain ⟨hinv, hread⟩ := h
  refine ⟨fun hne => absurd hinv hne, fun i old hi => ?_, fun _ i hi => ?_⟩
  · rw [hread i] at hi; cases hi
  · rw [hread i] at hi; cases hi

/-- A step of thread `i` that leaves the shared offset alone keeps the invariant when the new
state of `i` satisfies it. -/
theorem KernelInv.update {s : KernelState ι} (h : KernelInv points s) {i : ι} {x : ThreadState}
    (hi : s.threads i ≠ .done)
    (hheld : ∀ old, x = .comparing old → (points i).active ∧
      (old = (points i).offset invalidBurstOffset ∨
        s.burstOffset ≠ invalidBurstOffset ∧ old = (points i).offset s.burstOffset))
    (hunset : s.burstOffset = invalidBurstOffset → x = .done → ¬ (points i).HasCandidate) :
    KernelInv points { s with threads := Function.update s.threads i x } := by
  refine ⟨fun hne => ?_, fun j old hj => ?_, fun hinv j hj => ?_⟩
  · obtain ⟨k, hact, hdone, hoff⟩ := h.published hne
    have hk : k ≠ i := fun hk => hi (hk ▸ hdone)
    exact ⟨k, hact, (Function.update_of_ne hk _ _).trans hdone, hoff⟩
  · by_cases hji : j = i
    · subst hji
      exact hheld old (by simpa using hj)
    · exact h.held j old ((Function.update_of_ne hji _ _).symm.trans hj)
  · by_cases hji : j = i
    · subst hji
      exact hunset hinv (by simpa using hj)
    · exact h.unset hinv j ((Function.update_of_ne hji _ _).symm.trans hj)

omit [DecidableEq ι] in
/-- When no thread resets a zero, the `atomicCAS` of a thread leaves a set offset alone. -/
theorem KernelInv.atomicCas_set {s : KernelState ι} (h : KernelInv points s)
    (hzero : ¬ ResetsZero points) {i : ι} {old : Int} (hi : s.threads i = .comparing old)
    (hset : s.burstOffset ≠ invalidBurstOffset) :
    atomicCasOffset s.burstOffset old = s.burstOffset := by
  refine atomicCasOffset_of_ne hset fun h0 hold => hzero ?_
  obtain ⟨k, hkact, hkdone, hkoff⟩ := h.published hset
  obtain ⟨hact, hfrom⟩ := h.held i old hi
  have hne : k ≠ i := by
    rintro rfl
    rw [hkdone] at hi
    cases hi
  refine ⟨k, i, hne, hkact, hact, hkoff.trans h0, ?_⟩
  rcases hfrom with hfrom | ⟨_, hfrom⟩
  · exact .inl (hfrom.symm.trans hold)
  · exact .inr (by rw [← hold, hfrom, h0])

/-- The `atomicCAS` of a thread keeps the invariant. -/
theorem KernelInv.atomicCas {s : KernelState ι} (h : KernelInv points s)
    (hzero : ¬ ResetsZero points) {i : ι} {old : Int} (hi : s.threads i = .comparing old) :
    KernelInv points {
      burstOffset := atomicCasOffset s.burstOffset old
      threads := Function.update s.threads i .done } := by
  have hndone : s.threads i ≠ .done := by simp [hi]
  obtain ⟨hact, hfrom⟩ := h.held i old hi
  by_cases hset : s.burstOffset = invalidBurstOffset
  -- the offset was unset: whatever the thread holds was computed from the sentinel
  · have hold : old = (points i).offset invalidBurstOffset := by
      rcases hfrom with hfrom | ⟨hne, _⟩
      · exact hfrom
      · exact absurd hset hne
    rw [hset, atomicCasOffset_invalid]
    by_cases hinv : old = invalidBurstOffset
    · have hkeep := h.update (x := .done) hndone (fun _ hx => nomatch hx)
        fun _ _ hcand => hcand.2 (hold ▸ hinv)
      rw [hset] at hkeep
      rw [hinv]
      exact hkeep
    · refine ⟨fun _ => ⟨i, hact, Function.update_self .., hold.symm⟩, fun j v hj => ?_,
        fun h0 => absurd h0 hinv⟩
      have hji : j ≠ i := by
        rintro rfl
        simp at hj
      obtain ⟨hjact, hjfrom⟩ := h.held j v ((Function.update_of_ne hji _ _).symm.trans hj)
      rcases hjfrom with hjfrom | ⟨hne, _⟩
      · exact ⟨hjact, .inl hjfrom⟩
      · exact absurd hset hne
  · rw [h.atomicCas_set hzero hi hset]
    exact h.update hndone (fun _ hx => nomatch hx) fun hinv => absurd hinv hset

/-- One step of the kernel when no thread resets a zero: the invariant is kept and a set
offset does not change. -/
theorem kernelStep_inv (hzero : ¬ ResetsZero points) {s t : KernelState ι}
    (h : KernelInv points s) (hstep : (burstOffsetKernel points).step s t) :
    KernelInv points t ∧ (s.burstOffset ≠ invalidBurstOffset → t.burstOffset = s.burstOffset) := by
  cases hstep with
  | readSet i hi hset =>
    exact ⟨h.update (by simp [hi]) (fun _ hx => nomatch hx) (fun hinv => absurd hinv hset),
      fun _ => rfl⟩
  | readInvalid i hi hinv =>
    exact ⟨h.update (by simp [hi]) (fun _ hx => nomatch hx) (fun _ hx => nomatch hx), fun _ => rfl⟩
  | earlyReturn i hi hact =>
    exact ⟨h.update (by simp [hi]) (fun _ hx => nomatch hx)
      (fun _ _ hcand => by simp [GeoPoint.HasCandidate, hact] at hcand), fun _ => rfl⟩
  | compute i hi hact =>
    refine ⟨h.update (by simp [hi]) (fun old hx => ⟨hact, ?_⟩) (fun _ hx => nomatch hx),
      fun _ => rfl⟩
    have hold : (points i).offset s.burstOffset = old := ThreadState.comparing.inj hx
    by_cases hset : s.burstOffset = invalidBurstOffset
    · exact .inl (by rw [← hold, hset])
    · exact .inr ⟨hset, hold.symm⟩
  | atomicCas i old hi => exact ⟨h.atomicCas hzero hi, h.atomicCas_set hzero hi⟩

theorem kernelInv_preserved (hzero : ¬ ResetsZero points) :
    (burstOffsetKernel points).Preserves (KernelInv points) :=
  fun _ _ h hstep => (kernelStep_inv hzero h hstep).1

theorem kernelInv_of_reachable (hzero : ¬ ResetsZero points) {s : KernelState ι}
    (h : (burstOffsetKernel points).Reachable s) : KernelInv points s :=
  h.invariant (fun _ => kernelInv_init) (kernelInv_preserved hzero)

/-- A set offset is carried to the end of every run. -/
theorem burstOffset_stable (hzero : ¬ ResetsZero points) {s t : KernelState ι}
    (h : KernelInv points s) (hset : s.burstOffset ≠ invalidBurstOffset)
    (hr : (burstOffsetKernel points).Runs s t) : t.burstOffset = s.burstOffset := by
  refine (kernelInv_preserved hzero).runs_of_invariant
    (J := fun u => u.burstOffset = s.burstOffset) (fun u v hu hJ hstep => ?_) h rfl hr
  exact ((kernelStep_inv hzero hu hstep).2 (hJ ▸ hset)).trans hJ

/-! ## The run that loses an offset -/

/-- The state before any thread has started. -/
def initialKernelState (ι : Type*) : KernelState ι where
  burstOffset := invalidBurstOffset
  threads := fun _ => .reading

/-- Thread `i` alone, from its first read to the end of its `atomicCAS`: an unset offset
becomes the thread's own. -/
theorem runs_single {i : ι} (hact : (points i).active) {s : KernelState ι}
    (hi : s.threads i = .reading) (hinv : s.burstOffset = invalidBurstOffset) :
    (burstOffsetKernel points).Runs s {
      burstOffset := (points i).offset invalidBurstOffset
      threads := Function.update s.threads i .done } := by
  have hrun := System.Runs.refl (M := burstOffsetKernel points) s
    |>.tail (KernelStep.readInvalid s i hi hinv)
    |>.tail (KernelStep.compute _ i (Function.update_self ..) hact)
    |>.tail (KernelStep.atomicCas _ i _ (Function.update_self ..))
  simpa [hinv, atomicCasOffset_invalid] using hrun

/-- A thread without a candidate resets a zero offset, when it reads the shared offset before
the zero is published and compares after. -/
theorem not_stableAndValid_of_resetsZero (h : ResetsZero points) : ¬ StableAndValid points := by
  obtain ⟨i, j, hij, hi, hj, hzero, hreset⟩ := h
  intro ⟨hstable, _⟩
  have hinit : (burstOffsetKernel points).init (initialKernelState ι) := ⟨rfl, fun _ => rfl⟩
  -- in both runs `j` passes its first read before `i` publishes
  have hread : (burstOffsetKernel points).Runs (initialKernelState ι)
      { initialKernelState ι with
        threads := Function.update (initialKernelState ι).threads j .computing } :=
    .tail (.refl _) (KernelStep.readInvalid _ j rfl rfl)
  have hreach : ∃ s, (burstOffsetKernel points).Reachable s ∧ s.burstOffset = 0 ∧
      s.threads j = .comparing invalidBurstOffset := by
    rcases hreset with hreset | hreset
    -- `j` computes from the sentinel, then `i` publishes
    · have hcomp := hread.tail (KernelStep.compute _ j (Function.update_self ..) hj)
      have hall := hcomp.trans (runs_single (i := i) hi
        (by simp [Function.update_of_ne hij, initialKernelState]) rfl)
      refine ⟨_, ⟨_, hinit, hall⟩, hzero, ?_⟩
      simp [Function.update_of_ne hij.symm, initialKernelState, hreset]
    -- `i` publishes, then `j` computes from the zero
    · have hpub := hread.trans (runs_single (i := i) hi
        (by simp [Function.update_of_ne hij, initialKernelState]) rfl)
      have hall := hpub.tail (KernelStep.compute _ j
        (by simp [Function.update_of_ne hij.symm]) hj)
      refine ⟨_, ⟨_, hinit, hall⟩, hzero, ?_⟩
      simp [hzero, hreset]
  obtain ⟨s, hs, h0, hjc⟩ := hreach
  have hcas := hstable s _ hs (.tail (.refl s) (KernelStep.atomicCas s j _ hjc))
    (by rw [h0]; decide)
  have hlost : atomicCasOffset 0 invalidBurstOffset = invalidBurstOffset := by decide
  rw [h0] at hcas
  exact absurd (hlost.symm.trans hcas) (by decide)

/-! ## The lost zero in terms of the burst halves -/

/-- No half of the master bursts of the point agrees with a half of its slave bursts. -/
def NoHalvesMatch (m s : BurstIndices) : Prop :=
  match11 m s = false ∧ match12 m s = false ∧ match21 m s = false ∧ match22 m s = false

/-- The first pair of halves that agrees belongs to the same burst index, and no later `Cas`
moves the offset away from zero. -/
def ZeroOffset (m s : BurstIndices) : Prop :=
  (match11 m s = true ∧ match12 m s = false ∧ match21 m s = false ∧
      s.firstBurstIndex = m.firstBurstIndex ∧
      (match22 m s = true → s.secondBurstIndex = m.secondBurstIndex)) ∨
    match11 m s = false ∧
      ((match12 m s = true ∧ match21 m s = false ∧ match22 m s = false ∧
          s.secondBurstIndex = m.firstBurstIndex) ∨
        match12 m s = false ∧
          ((match21 m s = true ∧ match22 m s = false ∧ s.firstBurstIndex = m.secondBurstIndex) ∨
            (match21 m s = false ∧ match22 m s = true ∧
              s.secondBurstIndex = m.secondBurstIndex)))

section Halves

variable {m s : BurstIndices} {n : Int}

theorem second_ne_of_match12 (h : match12 m s = true) : s.secondBurstIndex ≠ -1 := by
  simp only [match12, Bool.and_eq_true, bne_iff_ne] at h
  exact h.1

theorem second_ne_of_match21 (h : match21 m s = true) : m.secondBurstIndex ≠ -1 := by
  simp only [match21, Bool.and_eq_true, bne_iff_ne] at h
  exact h.1

theorem second_ne_of_match22 (h : match22 m s = true) :
    m.secondBurstIndex ≠ -1 ∧ s.secondBurstIndex ≠ -1 := by
  simp only [match22, Bool.and_eq_true, bne_iff_ne] at h
  exact h.1

/-- Differences of burst indices stay away from the sentinel. -/
theorem localOffset_eq_invalid_iff (hn : n ≤ 9998) (hm : m.InOrder n) (hs : s.InOrder n) :
    localOffset invalidBurstOffset m s = invalidBurstOffset ↔ NoHalvesMatch m s := by
  obtain ⟨⟨hm1, hm2⟩, hm3⟩ := hm
  obtain ⟨⟨hs1, hs2⟩, hs3⟩ := hs
  unfold localOffset NoHalvesMatch
  cases match11 m s <;> cases match12 m s <;> cases match21 m s <;> cases match22 m s <;>
    simp [mathCas_eq, mathXor, invalidBurstOffset] <;> grind

theorem localOffset_zero_ne_invalid (hn : n ≤ 9998) (hm : m.InOrder n) (hs : s.InOrder n) :
    localOffset 0 m s ≠ invalidBurstOffset := by
  obtain ⟨⟨hm1, hm2⟩, hm3⟩ := hm
  obtain ⟨⟨hs1, hs2⟩, hs3⟩ := hs
  unfold localOffset
  cases match11 m s <;> cases match12 m s <;> cases match21 m s <;> cases match22 m s <;>
    simp [mathCas_eq, mathXor, invalidBurstOffset] <;> grind

theorem localOffset_eq_zero_iff (hn : n ≤ 9998) (hm : m.InOrder n) (hs : s.InOrder n) :
    localOffset invalidBurstOffset m s = 0 ↔ ZeroOffset m s := by
  have h12 := second_ne_of_match12 (m := m) (s := s)
  have h21 := second_ne_of_match21 (m := m) (s := s)
  have h22 := second_ne_of_match22 (m := m) (s := s)
  obtain ⟨⟨hm1, hm2⟩, hm3⟩ := hm
  obtain ⟨⟨hs1, hs2⟩, hs3⟩ := hs
  unfold localOffset ZeroOffset
  generalize match11 m s = b11, match12 m s = b12, match21 m s = b21, match22 m s = b22 at *
  cases b11 <;> cases b12 <;> cases b21 <;> cases b22 <;>
    simp [mathCas_eq, mathXor, invalidBurstOffset] <;> grind

end Halves

/-! ## Results -/

/-- **When the burst offset is stable and valid.** Over every set of geo points and every
interleaving of the threads, a set offset never changes and the offset stays unset only without
a candidate, exactly when no point with offset zero meets a different one whose thread
compares with the sentinel in hand. -/
theorem stableAndValid_iff (points : ι → GeoPoint) :
    StableAndValid points ↔ ¬ ResetsZero points := by
  constructor
  · intro h hreset
    exact not_stableAndValid_of_resetsZero hreset h
  · intro hzero
    refine ⟨fun s t hs hr hset => ?_, fun s hs hdone hinv i => ?_⟩
    · exact burstOffset_stable hzero (kernelInv_of_reachable hzero hs) hset hr
    · exact (kernelInv_of_reachable hzero hs).unset hinv i (hdone i)

/-- Two points of one burst a day long: the first lies in the late half of the burst in both
images, the second in the late half of the master and in the early half of the slave. -/
def shiftedPoints : Fin 2 → GeoPoint
  | 0 => geoPoint [((0 : Rat), 86400)] [(0, 86400)] true (some (3 / 4)) (some (3 / 4))
  | 1 => geoPoint [((0 : Rat), 86400)] [(0, 86400)] true (some (3 / 4)) (some (1 / 4))

/-- The second thread finds no matching half and resets the zero of the first. -/
theorem not_stableAndValid_shifted : ¬ StableAndValid shiftedPoints :=
  not_stableAndValid_of_resetsZero
    ⟨0, 1, by decide, by decide +kernel, by decide +kernel, by decide +kernel,
      .inl (by decide +kernel)⟩

/-- The condition for points whose indices `GetBurstIndices` computes from the burst times of
the two sub-swaths: a point with a matching pair of halves in the same burst, and another one
without any matching pair. -/
theorem stableAndValid_geoPoint_iff {F : Type*} [Field F] [LinearOrder F]
    {masterBursts slaveBursts : List (F × F)} (hm : masterBursts.length ≤ 9998)
    (hs : slaveBursts.length ≤ 9998) (hasElevation : ι → Bool)
    (masterTime slaveTime : ι → Option F) :
    let points := fun i => geoPoint masterBursts slaveBursts (hasElevation i) (masterTime i)
      (slaveTime i)
    StableAndValid points ↔
      ¬ ∃ i j, (points i).active ∧ (points j).active ∧
        ZeroOffset (points i).master (points i).slave ∧
        NoHalvesMatch (points j).master (points j).slave := by
  intro points
  have hmi : ∀ i, (points i).master.InOrder 9998 := fun i =>
    (getBurstIndices_inOrder masterBursts (masterTime i)).mono (by omega)
  have hsi : ∀ i, (points i).slave.InOrder 9998 := fun i =>
    (getBurstIndices_inOrder slaveBursts (slaveTime i)).mono (by omega)
  -- an offset is zero, or invalid, by what the halves of the indices have in common
  have hzero : ∀ i, (points i).offset invalidBurstOffset = 0 ↔
      ZeroOffset (points i).master (points i).slave := fun i =>
    localOffset_eq_zero_iff (le_refl _) (hmi i) (hsi i)
  have hnone : ∀ j, (points j).offset invalidBurstOffset = invalidBurstOffset ↔
      NoHalvesMatch (points j).master (points j).slave := fun j =>
    localOffset_eq_invalid_iff (le_refl _) (hmi j) (hsi j)
  rw [stableAndValid_iff, not_iff_not]
  constructor
  · rintro ⟨i, j, _, hi, hj, h0, hreset⟩
    rcases hreset with hreset | hreset
    · exact ⟨i, j, hi, hj, (hzero i).mp h0, (hnone j).mp hreset⟩
    · exact absurd hreset (localOffset_zero_ne_invalid (le_refl _) (hmi j) (hsi j))
  · rintro ⟨i, j, hi, hj, h0, hreset⟩
    have h0' := (hzero i).mpr h0
    have hreset' := (hnone j).mpr hreset
    refine ⟨i, j, ?_, hi, hj, h0', .inl hreset'⟩
    rintro rfl
    rw [h0'] at hreset'
    exact absurd hreset' (by decide)

end Alus.Backgeocoding
