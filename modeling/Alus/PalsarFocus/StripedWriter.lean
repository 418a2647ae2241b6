import Mathlib.Data.Fintype.Basic
import Mathlib.Data.List.Basic
import Mathlib.Data.List.Count
import Mathlib.Logic.Function.Basic
import Alus.Lib.Run

/-!
# The striped TIFF writer

`palsar-focus/src/img_output.cc` writes an image with two threads. The producer
(`WriteStripedDataset`) takes a host buffer from the free queue, copies the next rows of the
image into it and pushes the slice; the writer (`RowWriterTask`) pops a slice, writes its rows
one block each and gives the buffer back. The producer counts the rows of the image, the writer
waits for the rows of the dataset, and `WriteTiff` computes the two numbers separately.

Each critical section, copy or block write is one step. A copy and a block write may fail.
-/

namespace Alus.PalsarFocus

open Alus.Lib

/-! ## Data -/

/-- `QUEUE_SIZE`. -/
def queueSize : Nat := 3

/-- A host buffer, by its place in `ptr_array`. -/
abbrev HostBuffer := Fin queueSize

/-- `ImgSlice`, less the stride, which is the same for all slices of an image. -/
structure ImgSlice where
  sliceData : HostBuffer
  sliceCnt : Nat
  sliceStartIdx : Nat

/-- One call of `WriteTiff` on its fast path. `row y` is row `y` of the image as the producer
leaves it in the host buffer, after the clearing and the conversion to intensity. The padded
image keeps its sizes below its strides. -/
structure WriteTiffCall (ρ : Type*) where
  ySize : Nat
  yStride : Nat
  size_le_stride : ySize ≤ yStride
  padding : Bool
  nRowsPerSlice : Nat
  nRowsPerSlice_pos : 0 < nRowsPerSlice
  row : Nat → ρ

variable {ρ : Type*}

/-- The height of the dataset `WriteTiff` creates: what the writer reads as `total_rows`. -/
def WriteTiffCall.totalRows (call : WriteTiffCall ρ) : Nat :=
  if call.padding then call.yStride else call.ySize

/-- `act_rows`: the rows of the next slice. -/
def WriteTiffCall.actRows (call : WriteTiffCall ρ) (rowsTransferred : Nat) : Nat :=
  if rowsTransferred + call.nRowsPerSlice > call.ySize then call.ySize - rowsTransferred
  else call.nRowsPerSlice

inductive ProducerState where
  /-- at the head of the loop -/
  | looping
  /-- took a buffer; the copy comes next -/
  | holding (buffer : HostBuffer)
  /-- the slice is filled; the push comes next -/
  | ready (slice : ImgSlice)
  /-- left the loop, with the buffer of a failed copy -/
  | joining (held : Option HostBuffer)
  | finished (held : Option HostBuffer)

inductive WriterState where
  /-- at the head of the loop -/
  | waiting
  /-- row `i` of the slice comes next -/
  | writing (slice : ImgSlice) (i : Nat)
  /-- returned, with the buffer of a failed write -/
  | returned (held : Option HostBuffer)

/-- `SharedData`, the host buffers, the blocks of the file so far, and the two threads. -/
structure StripedState (ρ : Type*) where
  fileQueue : List HostBuffer
  gdalErr : Bool
  gpuQueue : List ImgSlice
  stopFileWrite : Bool
  buffers : HostBuffer → Nat → ρ
  file : List (Nat × ρ)
  producer : ProducerState
  rowsTransferred : Nat
  writer : WriterState
  rowsWritten : Nat

/-- One step of the producer or of the writer. -/
inductive StripedStep (call : WriteTiffCall ρ) : StripedState ρ → StripedState ρ → Prop where
  -- the producer
  | take (s : StripedState ρ) (buffer : HostBuffer) (rest : List HostBuffer)
      (hp : s.producer = .looping) (hrows : s.rowsTransferred < call.ySize)
      (herr : s.gdalErr = false) (hfree : s.fileQueue = buffer :: rest) :
      StripedStep call s { s with fileQueue := rest, producer := .holding buffer }
  | breakOnGdalErr (s : StripedState ρ) (hp : s.producer = .looping)
      (hrows : s.rowsTransferred < call.ySize) (herr : s.gdalErr = true) :
      StripedStep call s { s with producer := .joining none }
  | endLoop (s : StripedState ρ) (hp : s.producer = .looping)
      (hrows : call.ySize ≤ s.rowsTransferred) :
      StripedStep call s { s with producer := .joining none }
  | copy (s : StripedState ρ) (buffer : HostBuffer) (hp : s.producer = .holding buffer) :
      StripedStep call s { s with
        buffers := Function.update s.buffers buffer fun i =>
          if i < call.actRows s.rowsTransferred then call.row (s.rowsTransferred + i)
          else s.buffers buffer i
        producer := .ready ⟨buffer, call.actRows s.rowsTransferred, s.rowsTransferred⟩ }
  | copyFails (s : StripedState ρ) (buffer : HostBuffer) (garbage : Nat → ρ)
      (hp : s.producer = .holding buffer) :
      StripedStep call s { s with
        buffers := Function.update s.buffers buffer garbage
        stopFileWrite := true
        producer := .joining (some buffer) }
  | push (s : StripedState ρ) (slice : ImgSlice) (hp : s.producer = .ready slice) :
      StripedStep call s { s with
        gpuQueue := s.gpuQueue ++ [slice]
        rowsTransferred := s.rowsTransferred + slice.sliceCnt
        producer := .looping }
  | join (s : StripedState ρ) (held held' : Option HostBuffer)
      (hp : s.producer = .joining held) (hw : s.writer = .returned held') :
      StripedStep call s { s with producer := .finished held }
  -- the writer
  | exit (s : StripedState ρ) (hw : s.writer = .waiting)
      (hrows : call.totalRows ≤ s.rowsWritten) :
      StripedStep call s { s with writer := .returned none }
  | stop (s : StripedState ρ) (hw : s.writer = .waiting)
      (hrows : s.rowsWritten < call.totalRows) (hstop : s.stopFileWrite = true) :
      StripedStep call s { s with writer := .returned none }
  | pop (s : StripedState ρ) (slice : ImgSlice) (rest : List ImgSlice) (hw : s.writer = .waiting)
      (hrows : s.rowsWritten < call.totalRows) (hstop : s.stopFileWrite = false)
      (hqueue : s.gpuQueue = slice :: rest) :
      StripedStep call s { s with gpuQueue := rest, writer := .writing slice 0 }
  | writeBlock (s : StripedState ρ) (slice : ImgSlice) (i : Nat)
      (hw : s.writer = .writing slice i) (hi : i < slice.sliceCnt) :
      StripedStep call s { s with
        file := s.file ++ [(slice.sliceStartIdx + i, s.buffers slice.sliceData i)]
        rowsWritten := s.rowsWritten + 1
        writer := .writing slice (i + 1) }
  | writeFails (s : StripedState ρ) (slice : ImgSlice) (i : Nat)
      (hw : s.writer = .writing slice i) (hi : i < slice.sliceCnt) :
      StripedStep call s { s with
        gdalErr := true
        writer := .returned (some slice.sliceData) }
  | release (s : StripedState ρ) (slice : ImgSlice) (i : Nat)
      (hw : s.writer = .writing slice i) (hi : i = slice.sliceCnt) :
      StripedStep call s { s with
        fileQueue := s.fileQueue ++ [slice.sliceData]
        writer := .waiting }

/-- The two threads of a call. All buffers start in the free queue. -/
def stripedWriter (call : WriteTiffCall ρ) : System (StripedState ρ) where
  init s := s.fileQueue = List.finRange queueSize ∧ s.gdalErr = false ∧ s.gpuQueue = [] ∧
    s.stopFileWrite = false ∧ s.file = [] ∧ s.producer = .looping ∧ s.rowsTransferred = 0 ∧
    s.writer = .waiting ∧ s.rowsWritten = 0
  step := StripedStep call

/-! ## Ownership -/

def ProducerState.owned : ProducerState → List HostBuffer
  | looping => []
  | holding buffer => [buffer]
  | ready slice => [slice.sliceData]
  | joining held => held.toList
  | finished held => held.toList

def WriterState.owned : WriterState → List HostBuffer
  | waiting => []
  | writing slice _ => [slice.sliceData]
  | returned held => held.toList

/-- How often the buffer stands in the free queue, with the producer, in the filled queue and
with the writer. -/
def StripedState.ownedCount (s : StripedState ρ) (b : HostBuffer) : Nat :=
  s.fileQueue.count b + s.producer.owned.count b + (s.gpuQueue.map ImgSlice.sliceData).count b +
    s.writer.owned.count b

theorem ownedCount_step {call : WriteTiffCall ρ} {s t : StripedState ρ}
    (hstep : StripedStep call s t) (b : HostBuffer) : t.ownedCount b = s.ownedCount b := by
  cases hstep with
  | take buffer rest hp hrows herr hfree =>
    simp [StripedState.ownedCount, ProducerState.owned, hp, hfree, List.count_cons]
  | breakOnGdalErr hp hrows herr => simp [StripedState.ownedCount, ProducerState.owned, hp]
  | endLoop hp hrows => simp [StripedState.ownedCount, ProducerState.owned, hp]
  | copy buffer hp => simp [StripedState.ownedCount, ProducerState.owned, hp]
  | copyFails buffer garbage hp => simp [StripedState.ownedCount, ProducerState.owned, hp]
  | push slice hp =>
    simp [StripedState.ownedCount, ProducerState.owned, hp, List.count_append]
    omega
  | join held held' hp hw => simp [StripedState.ownedCount, ProducerState.owned, hp]
  | exit hw hrows => simp [StripedState.ownedCount, WriterState.owned, hw]
  | stop hw hrows hstop => simp [StripedState.ownedCount, WriterState.owned, hw]
  | pop slice rest hw hrows hstop hqueue =>
    simp [StripedState.ownedCount, WriterState.owned, hw, hqueue, List.count_cons]
    omega
  | writeBlock slice i hw hi => simp [StripedState.ownedCount, WriterState.owned, hw]
  | writeFails slice i hw hi => simp [StripedState.ownedCount, WriterState.owned, hw]
  | release slice i hw hi =>
    simp [StripedState.ownedCount, WriterState.owned, hw, List.count_append]
    omega

/-! ## The invariant -/

variable {call : WriteTiffCall ρ}

/-- The buffer of the slice holds the rows of the slice. -/
def ImgSlice.HoldsRows (slice : ImgSlice) (call : WriteTiffCall ρ)
    (buffers : HostBuffer → Nat → ρ) : Prop :=
  ∀ i, i < slice.sliceCnt → buffers slice.sliceData i = call.row (slice.sliceStartIdx + i)

/-- The slices continue each other from row `first` up to row `last`. -/
def Consecutive : Nat → List ImgSlice → Nat → Prop
  | first, [], last => first = last
  | first, slice :: rest, last =>
    slice.sliceStartIdx = first ∧ Consecutive (first + slice.sliceCnt) rest last

theorem Consecutive.append {first last : Nat} {slices : List ImgSlice} {slice : ImgSlice}
    (h : Consecutive first slices last) (hstart : slice.sliceStartIdx = last) :
    Consecutive first (slices ++ [slice]) (last + slice.sliceCnt) := by
  induction slices generalizing first with
  | nil =>
    obtain rfl : first = last := h
    exact ⟨hstart, rfl⟩
  | cons head rest ih => exact ⟨h.1, ih h.2⟩

theorem Consecutive.le {first last : Nat} {slices : List ImgSlice}
    (h : Consecutive first slices last) : first ≤ last := by
  induction slices generalizing first with
  | nil => exact Nat.le_of_eq h
  | cons head rest ih => exact Nat.le_trans (Nat.le_add_right _ _) (ih h.2)

/-- Where the writer stands among the rows sent so far. -/
def StripedState.WriterAt (call : WriteTiffCall ρ) (s : StripedState ρ) : Prop :=
  match s.writer with
  | .waiting => Consecutive s.rowsWritten s.gpuQueue s.rowsTransferred
  | .writing slice i =>
    i ≤ slice.sliceCnt ∧ slice.sliceStartIdx + i = s.rowsWritten ∧
      slice.HoldsRows call s.buffers ∧
      Consecutive (slice.sliceStartIdx + slice.sliceCnt) s.gpuQueue s.rowsTransferred
  | .returned _ =>
    call.totalRows ≤ s.rowsWritten ∨ s.stopFileWrite = true ∨ s.gdalErr = true

/-- The producer has left its loop. -/
def ProducerState.Ended : ProducerState → Prop
  | joining _ | finished _ => True
  | _ => False

structure StripedInv (call : WriteTiffCall ρ) (s : StripedState ρ) : Prop where
  owned : ∀ b, s.ownedCount b = 1
  transferred_le : s.rowsTransferred ≤ call.ySize
  written_le : s.rowsWritten ≤ s.rowsTransferred
  file_eq : s.file = (List.range s.rowsWritten).map fun y => (y, call.row y)
  ready : ∀ slice, s.producer = .ready slice →
    slice.sliceStartIdx = s.rowsTransferred ∧
      slice.sliceCnt = call.actRows s.rowsTransferred ∧ slice.HoldsRows call s.buffers
  queued : ∀ slice ∈ s.gpuQueue, slice.HoldsRows call s.buffers
  writerAt : s.WriterAt call
  /-- a failed write ends the writer, a failed copy the producer -/
  gdal_returned : s.gdalErr = true → ∃ held, s.writer = .returned held
  stop_ended : s.stopFileWrite = true → s.producer.Ended
  ended : s.producer.Ended →
    call.ySize ≤ s.rowsTransferred ∨ s.gdalErr = true ∨ s.stopFileWrite = true
  finished : ∀ held, s.producer = .finished held → ∃ held', s.writer = .returned held'

theorem actRows_le (rows : Nat) (h : rows ≤ call.ySize) :
    rows + call.actRows rows ≤ call.ySize := by
  unfold WriteTiffCall.actRows
  split
  · omega
  · omega

theorem actRows_pos {rows : Nat} (h : rows < call.ySize) : 0 < call.actRows rows := by
  unfold WriteTiffCall.actRows
  have hpos := call.nRowsPerSlice_pos
  split
  · omega
  · omega

theorem stripedInv_init {s : StripedState ρ} (h : (stripedWriter call).init s) :
    StripedInv call s := by
  obtain ⟨hfree, hgdal, hgpu, hstop, hfile, hp, ht, hw, hrw⟩ := h
  refine ⟨fun b => ?_, by omega, by omega, by simp [hfile, hrw], fun slice hs => ?_,
    fun slice hs => ?_, ?_, fun h => ?_, fun h => ?_, fun h => ?_, fun held h => ?_⟩
  · have hcount : (List.finRange queueSize).count b = 1 :=
      List.count_eq_one_of_mem (List.nodup_finRange _) (List.mem_finRange b)
    simp [StripedState.ownedCount, hfree, hp, hgpu, hw, ProducerState.owned, WriterState.owned,
      hcount]
  · rw [hp] at hs; cases hs
  · rw [hgpu] at hs; cases hs
  · simp [StripedState.WriterAt, hw, hgpu, ht, hrw, Consecutive]
  · rw [hgdal] at h; cases h
  · rw [hstop] at h; cases h
  · rw [hp] at h; cases h
  · rw [hp] at h; cases h

/-- A buffer in the producer's hands is in none of the filled slices. -/
theorem StripedInv.producer_buffer {s : StripedState ρ} (h : StripedInv call s)
    {buffer : HostBuffer} (hp : s.producer = .holding buffer) :
    (∀ slice ∈ s.gpuQueue, slice.sliceData ≠ buffer) ∧
      ∀ slice i, s.writer = .writing slice i → slice.sliceData ≠ buffer := by
  have hone := h.owned buffer
  have hown : s.producer.owned.count buffer = 1 := by simp [hp, ProducerState.owned]
  unfold StripedState.ownedCount at hone
  refine ⟨fun slice hs heq => ?_, fun slice i hw heq => ?_⟩
  · have hpos : 0 < (s.gpuQueue.map ImgSlice.sliceData).count buffer :=
      List.count_pos_iff.mpr (heq ▸ List.mem_map_of_mem hs)
    omega
  · have hpos : 0 < s.writer.owned.count buffer :=
      List.count_pos_iff.mpr (by simp [hw, WriterState.owned, heq])
    omega

/-- Filled slices keep their rows when the producer changes a buffer of its own. -/
theorem StripedInv.holdsRows_update {s : StripedState ρ} {buffer : HostBuffer}
    {content : Nat → ρ} {slice : ImgSlice} (hrows : slice.HoldsRows call s.buffers)
    (hne : slice.sliceData ≠ buffer) :
    slice.HoldsRows call (Function.update s.buffers buffer content) := by
  intro i hi
  rw [Function.update_of_ne hne]
  exact hrows i hi

/-- The copy fills the producer's buffer with the next rows; no filled slice changes. -/
theorem StripedInv.copy {s : StripedState ρ} (h : StripedInv call s) {buffer : HostBuffer}
    (hp : s.producer = .holding buffer) (content : Nat → ρ) (p : ProducerState)
    (hnext : p = .joining (some buffer) ∨
      p = .ready ⟨buffer, call.actRows s.rowsTransferred, s.rowsTransferred⟩ ∧
        ∀ i, i < call.actRows s.rowsTransferred → content i = call.row (s.rowsTransferred + i)) :
    (∀ slice, p = .ready slice → slice.sliceStartIdx = s.rowsTransferred ∧
      slice.sliceCnt = call.actRows s.rowsTransferred ∧
      slice.HoldsRows call (Function.update s.buffers buffer content)) ∧
    (∀ slice ∈ s.gpuQueue, slice.HoldsRows call (Function.update s.buffers buffer content)) ∧
    StripedState.WriterAt call { s with
      buffers := Function.update s.buffers buffer content
      stopFileWrite := true } ∧
    StripedState.WriterAt call { s with buffers := Function.update s.buffers buffer content } := by
  -- the buffer that is filled is neither queued nor being written
  obtain ⟨hqueue, hwriter⟩ := h.producer_buffer hp
  have hat := h.writerAt
  refine ⟨fun slice hs => ?_, fun slice hs => ?_, ?_, ?_⟩
  · rcases hnext with rfl | ⟨rfl, hcontent⟩
    · cases hs
    · obtain rfl := ProducerState.ready.inj hs
      refine ⟨rfl, rfl, fun i hi => ?_⟩
      rw [Function.update_self]
      exact hcontent i hi
  · exact StripedInv.holdsRows_update (h.queued slice hs) (hqueue slice hs)
  all_goals
    unfold StripedState.WriterAt at hat ⊢
    -- the writer holds another buffer, if any
    cases hw : s.writer with
    | waiting => simpa [hw] using hat
    | writing slice i =>
      simp only [hw] at hat ⊢
      obtain ⟨hle, hstart, hrows, hcons⟩ := hat
      exact ⟨hle, hstart, StripedInv.holdsRows_update hrows (hwriter slice i hw), hcons⟩
    | returned held =>
      simp only [hw] at hat ⊢
      simp [hat]

/-- The invariant has the buffers owned once after every step. -/
theorem StripedInv.owned_step {s t : StripedState ρ} (h : StripedInv call s)
    (hstep : StripedStep call s t) (b : HostBuffer) : t.ownedCount b = 1 :=
  (ownedCount_step hstep b).trans (h.owned b)

/-- The pushed slice continues the ones in the queue, wherever the writer stands. -/
theorem StripedInv.push {s : StripedState ρ} (h : StripedInv call s) {slice : ImgSlice}
    (hp : s.producer = .ready slice) :
    StripedInv call { s with
      gpuQueue := s.gpuQueue ++ [slice]
      rowsTransferred := s.rowsTransferred + slice.sliceCnt
      producer := .looping } := by
  obtain ⟨hstart, hcnt, hrows⟩ := h.ready slice hp
  have hat := h.writerAt
  have hle := actRows_le s.rowsTransferred h.transferred_le
  refine { h with
    owned := h.owned_step (.push s slice hp)
    transferred_le := by simp only; omega
    written_le := Nat.le_trans h.written_le (Nat.le_add_right _ _)
    ready := fun slice hs => nomatch hs
    queued := fun slice' hs => ?_
    writerAt := ?_
    stop_ended := fun hs => by simpa [hp, ProducerState.Ended] using h.stop_ended hs
    ended := fun hs => hs.elim
    finished := fun _ hs => nomatch hs }
  · rcases List.mem_append.mp hs with hs | hs
    · exact h.queued slice' hs
    · rw [List.mem_singleton.mp hs]
      exact hrows
  -- the slice that is queued continues the rows of those before it
  · unfold StripedState.WriterAt at hat ⊢
    cases hw : s.writer with
    | waiting =>
      simp only [hw] at hat ⊢
      exact hat.append hstart
    | writing slice' i =>
      simp only [hw] at hat ⊢
      exact ⟨hat.1, hat.2.1, hat.2.2.1, hat.2.2.2.append hstart⟩
    | returned held => simpa only [hw] using hat

/-- The popped slice is the one whose rows come next. -/
theorem StripedInv.pop {s : StripedState ρ} (h : StripedInv call s) {slice : ImgSlice}
    {rest : List ImgSlice} (hw : s.writer = .waiting) (hrows : s.rowsWritten < call.totalRows)
    (hstop : s.stopFileWrite = false) (hqueue : s.gpuQueue = slice :: rest) :
    StripedInv call { s with gpuQueue := rest, writer := .writing slice 0 } := by
  have hrunning : ¬ ∃ held, s.writer = .returned held := by simp [hw]
  have hat := h.writerAt
  simp only [StripedState.WriterAt, hw, hqueue, Consecutive] at hat
  have hmem : slice ∈ s.gpuQueue := hqueue ▸ List.mem_cons_self
  exact { h with
    owned := h.owned_step (.pop s slice rest hw hrows hstop hqueue)
    queued := fun slice' hs => h.queued slice' (hqueue ▸ List.mem_cons_of_mem _ hs)
    writerAt := ⟨Nat.zero_le _, hat.1, h.queued slice hmem, hat.1 ▸ hat.2⟩
    gdal_returned := fun hg => absurd (h.gdal_returned hg) hrunning
    finished := fun held hs => absurd (h.finished held hs) hrunning }

/-- The written block is the row of the image after the ones in the file. -/
theorem StripedInv.writeBlock {s : StripedState ρ} (h : StripedInv call s) {slice : ImgSlice}
    {i : Nat} (hw : s.writer = .writing slice i) (hi : i < slice.sliceCnt) :
    StripedInv call { s with
      file := s.file ++ [(slice.sliceStartIdx + i, s.buffers slice.sliceData i)]
      rowsWritten := s.rowsWritten + 1
      writer := .writing slice (i + 1) } := by
  have hrunning : ¬ ∃ held, s.writer = .returned held := by simp [hw]
  have hat := h.writerAt
  simp only [StripedState.WriterAt, hw] at hat
  obtain ⟨_, hstart, hrows, hcons⟩ := hat
  have hcons_le := hcons.le
  refine { h with
    owned := h.owned_step (.writeBlock s slice i hw hi)
    written_le := by simp only; omega
    file_eq := ?_
    writerAt := ⟨hi, by simp only; omega, hrows, hcons⟩
    gdal_returned := fun hg => absurd (h.gdal_returned hg) hrunning
    finished := fun held hs => absurd (h.finished held hs) hrunning }
  show s.file ++ [(slice.sliceStartIdx + i, s.buffers slice.sliceData i)] =
    (List.range (s.rowsWritten + 1)).map fun y => (y, call.row y)
  rw [h.file_eq, List.range_succ, List.map_append, hrows i hi, hstart]
  rfl

/-- After the last block of a slice, the next slice in the queue continues the file. -/
theorem StripedInv.release {s : StripedState ρ} (h : StripedInv call s) {slice : ImgSlice}
    {i : Nat} (hw : s.writer = .writing slice i) (hi : i = slice.sliceCnt) :
    StripedInv call { s with
      fileQueue := s.fileQueue ++ [slice.sliceData]
      writer := .waiting } := by
  have hrunning : ¬ ∃ held, s.writer = .returned held := by simp [hw]
  have hat := h.writerAt
  simp only [StripedState.WriterAt, hw] at hat
  obtain ⟨_, hstart, _, hcons⟩ := hat
  refine { h with
    owned := h.owned_step (.release s slice i hw hi)
    writerAt := ?_
    gdal_returned := fun hg => absurd (h.gdal_returned hg) hrunning
    finished := fun held hs => absurd (h.finished held hs) hrunning }
  show Consecutive s.rowsWritten s.gpuQueue s.rowsTransferred
  rw [← hstart, hi]
  exact hcons

/-- Every step of the two threads keeps the invariant. -/
theorem stripedInv_preserved (call : WriteTiffCall ρ) :
    (stripedWriter call).Preserves (StripedInv call) := by
  intro s t h hstep
  have howned := h.owned_step hstep
  -- the steps of the producer come first, and each changes only a few fields of the invariant
  cases hstep with
  | take buffer rest hp hrows herr hfree =>
    exact { h with
      owned := howned
      ready := fun slice hs => nomatch hs
      stop_ended := fun hs => by simpa [hp, ProducerState.Ended] using h.stop_ended hs
      ended := fun hs => hs.elim
      finished := fun _ hs => nomatch hs }
  | breakOnGdalErr hp hrows herr =>
    exact { h with
      owned := howned
      ready := fun slice hs => nomatch hs
      stop_ended := fun _ => trivial
      ended := fun _ => .inr (.inl herr)
      finished := fun _ hs => nomatch hs }
  | endLoop hp hrows =>
    exact { h with
      owned := howned
      ready := fun slice hs => nomatch hs
      stop_ended := fun _ => trivial
      ended := fun _ => .inl hrows
      finished := fun _ hs => nomatch hs }
  | copy buffer hp =>
    obtain ⟨hready, hqueued, _, hwriter⟩ := h.copy hp _ _
      (.inr ⟨rfl, fun i hi => if_pos hi⟩)
    exact { h with
      owned := howned
      ready := hready
      queued := hqueued
      writerAt := hwriter
      stop_ended := fun hs => by simpa [hp, ProducerState.Ended] using h.stop_ended hs
      ended := fun hs => hs.elim
      finished := fun _ hs => nomatch hs }
  | copyFails buffer garbage hp =>
    -- what a failed copy has left in its buffer is never queued
    obtain ⟨hready, hqueued, hwriter, _⟩ := h.copy hp garbage _ (.inl rfl)
    exact { h with
      owned := howned
      ready := hready
      queued := hqueued
      writerAt := hwriter
      stop_ended := fun _ => trivial
      ended := fun _ => .inr (.inr rfl)
      finished := fun _ hs => nomatch hs }
  | push slice hp => exact h.push hp
  | join held held' hp hw =>
    exact { h with
      owned := howned
      ready := fun slice hs => nomatch hs
      stop_ended := fun _ => trivial
      ended := fun _ => h.ended (by simp [hp, ProducerState.Ended])
      finished := fun _ _ => ⟨held', hw⟩ }
  | exit hw hrows =>
    -- from here on, the steps of the writer
    exact { h with
      owned := howned
      writerAt := .inl hrows
      gdal_returned := fun _ => ⟨none, rfl⟩
      finished := fun _ _ => ⟨none, rfl⟩ }
  | stop hw hrows hstop =>
    exact { h with
      owned := howned
      writerAt := .inr (.inl hstop)
      gdal_returned := fun _ => ⟨none, rfl⟩
      finished := fun _ _ => ⟨none, rfl⟩ }
  | pop slice rest hw hrows hstop hqueue => exact h.pop hw hrows hstop hqueue
  | writeBlock slice i hw hi => exact h.writeBlock hw hi
  | writeFails slice i hw hi =>
    exact { h with
      owned := howned
      writerAt := .inr (.inr rfl)
      gdal_returned := fun _ => ⟨_, rfl⟩
      ended := fun _ => .inr (.inl rfl)
      finished := fun _ _ => ⟨_, rfl⟩ }
  | release slice i hw hi => exact h.release hw hi

theorem stripedInv_of_reachable {s : StripedState ρ} (h : (stripedWriter call).Reachable s) :
    StripedInv call s :=
  h.invariant (fun _ => stripedInv_init) (stripedInv_preserved call)

/-! ## Progress -/

/-- The producer has joined the writer. -/
def StripedState.Final (s : StripedState ρ) : Prop :=
  ∃ held, s.producer = .finished held

/-- A returned writer means that the producer is not kept waiting for a buffer: all rows are
written, or one of the error flags is set and seen. -/
theorem StripedInv.returned_cases {s : StripedState ρ} (h : StripedInv call s)
    (htotal : call.totalRows = call.ySize) {held : Option HostBuffer}
    (hw : s.writer = .returned held) :
    call.ySize ≤ s.rowsTransferred ∨ s.stopFileWrite = true ∨ s.gdalErr = true := by
  have hat := h.writerAt
  simp only [StripedState.WriterAt, hw, htotal] at hat
  exact hat.imp_left fun hrows => Nat.le_trans hrows h.written_le

/-- A waiting writer that has no step: nothing is queued and rows are still expected. -/
theorem writer_waiting_step (call : WriteTiffCall ρ) {s : StripedState ρ}
    (hw : s.writer = .waiting) (hstuck : ¬ ∃ t, (stripedWriter call).step s t) :
    s.rowsWritten < call.totalRows ∧ s.stopFileWrite = false ∧ s.gpuQueue = [] := by
  have hrows : s.rowsWritten < call.totalRows := by
    by_contra hge
    exact hstuck ⟨_, .exit s hw (Nat.le_of_not_lt hge)⟩
  have hstop : s.stopFileWrite = false := by
    cases hs : s.stopFileWrite with
    | false => rfl
    | true => exact absurd ⟨_, StripedStep.stop s hw hrows hs⟩ hstuck
  refine ⟨hrows, hstop, ?_⟩
  cases hq : s.gpuQueue with
  | nil => rfl
  | cons slice rest => exact absurd ⟨_, StripedStep.pop s slice rest hw hrows hstop hq⟩ hstuck

/-- A writer in the middle of a slice always has a step. -/
theorem writer_writing_step {s : StripedState ρ} (h : StripedInv call s) {slice : ImgSlice}
    {i : Nat} (hw : s.writer = .writing slice i) : ∃ t, (stripedWriter call).step s t := by
  have hat := h.writerAt
  simp only [StripedState.WriterAt, hw] at hat
  rcases Nat.lt_or_eq_of_le hat.1 with hi | hi
  · exact ⟨_, .writeBlock s slice i hw hi⟩
  · exact ⟨_, .release s slice i hw hi⟩

/-- When both threads count the same rows, only the final states have no step. -/
theorem StripedInv.progress {s : StripedState ρ} (h : StripedInv call s)
    (htotal : call.totalRows = call.ySize) (hfinal : ¬ s.Final) :
    ∃ t, (stripedWriter call).step s t := by
  by_contra hstuck
  cases hp : s.producer with
  | holding buffer => exact hstuck ⟨_, .copy s buffer hp⟩
  | ready slice => exact hstuck ⟨_, .push s slice hp⟩
  | finished held => exact hfinal ⟨held, hp⟩
  | looping =>
    have hrows : s.rowsTransferred < call.ySize := by
      by_contra hge
      exact hstuck ⟨_, .endLoop s hp (Nat.le_of_not_lt hge)⟩
    have hgdal : s.gdalErr = false := by
      cases hg : s.gdalErr with
      | false => rfl
      | true => exact absurd ⟨_, StripedStep.breakOnGdalErr s hp hrows hg⟩ hstuck
    have hfree : s.fileQueue = [] := by
      cases hq : s.fileQueue with
      | nil => rfl
      | cons buffer rest =>
        exact absurd ⟨_, StripedStep.take s buffer rest hp hrows hgdal hq⟩ hstuck
    cases hw : s.writer with
    | writing slice i => exact hstuck (writer_writing_step h hw)
    | waiting =>
      -- no buffer is anywhere
      obtain ⟨_, _, hqueue⟩ := writer_waiting_step call hw hstuck
      have hone := h.owned ⟨0, by decide⟩
      simp [StripedState.ownedCount, hfree, hp, hqueue, hw, ProducerState.owned,
        WriterState.owned] at hone
    | returned held =>
      rcases h.returned_cases htotal hw with hall | hstop | hg
      · omega
      · have hended := h.stop_ended hstop
        simp [hp, ProducerState.Ended] at hended
      · simp [hgdal] at hg
  | joining held =>
    cases hw : s.writer with
    | writing slice i => exact hstuck (writer_writing_step h hw)
    | returned held' => exact hstuck ⟨_, .join s held held' hp hw⟩
    | waiting =>
      obtain ⟨hrows, hstop, hqueue⟩ := writer_waiting_step call hw hstuck
      have hat := h.writerAt
      simp only [StripedState.WriterAt, hw, hqueue, Consecutive] at hat
      rcases h.ended (by simp [hp, ProducerState.Ended]) with hall | hg | hs
      · omega
      · obtain ⟨held', hret⟩ := h.gdal_returned hg
        rw [hw] at hret
        cases hret
      · simp [hstop] at hs

/-! ## The stuck run

When the writer expects more rows than the image has, the two threads taking turns without any
failure end with a writer that waits for ever. -/

/-- Between two slices: `rows` rows are sent and written, nothing is queued. -/
structure BetweenSlices (s : StripedState ρ) (rows : Nat) : Prop where
  producer : s.producer = .looping
  writer : s.writer = .waiting
  gpuQueue : s.gpuQueue = []
  fileQueue : s.fileQueue ≠ []
  gdalErr : s.gdalErr = false
  stopFileWrite : s.stopFileWrite = false
  transferred : s.rowsTransferred = rows
  written : s.rowsWritten = rows

/-- A run up to the middle of a slice goes on to the end of the slice. -/
theorem runs_writeBlocks {s₀ s : StripedState ρ} (hr : (stripedWriter call).Runs s₀ s)
    {slice : ImgSlice} {i : Nat} (hw : s.writer = .writing slice i) (hi : i ≤ slice.sliceCnt) :
    ∃ file, (stripedWriter call).Runs s₀ { s with
      file := file
      rowsWritten := s.rowsWritten + (slice.sliceCnt - i)
      writer := .writing slice slice.sliceCnt } := by
  obtain ⟨n, hn⟩ : ∃ n, slice.sliceCnt = i + n := ⟨_, (Nat.add_sub_cancel' hi).symm⟩
  induction n generalizing s i with
  | zero =>
    refine ⟨s.file, ?_⟩
    have hsame : { s with
        file := s.file
        rowsWritten := s.rowsWritten + (slice.sliceCnt - i)
        writer := .writing slice slice.sliceCnt } = s := by
      rw [show slice.sliceCnt = i from hn, Nat.sub_self, Nat.add_zero, ← hw]
    rw [hsame]
    exact hr
  | succ n ih =>
    have hlt : i < slice.sliceCnt := by omega
    obtain ⟨file, hrest⟩ := ih (hr.tail (.writeBlock s slice i hw hlt)) rfl hlt (by omega)
    have hrows : s.rowsWritten + (slice.sliceCnt - i) =
        s.rowsWritten + 1 + (slice.sliceCnt - (i + 1)) := by omega
    rw [hrows]
    exact ⟨file, hrest⟩

variable (call)

/-- One slice, from the free queue to the file and back. -/
theorem runs_slice {s : StripedState ρ} {rows : Nat} (h : BetweenSlices s rows)
    (hrows : rows < call.ySize) (htotal : call.ySize ≤ call.totalRows) :
    ∃ t, (stripedWriter call).Runs s t ∧ BetweenSlices t (rows + call.actRows rows) := by
  obtain ⟨buffer, rest, hfree⟩ := List.exists_cons_of_ne_nil h.fileQueue
  have ht := h.transferred
  have hw := h.written
  have hpush := System.Runs.refl (M := stripedWriter call) s
    |>.tail (StripedStep.take s buffer rest h.producer (by omega) h.gdalErr hfree)
    |>.tail (StripedStep.copy _ buffer rfl)
    |>.tail (StripedStep.push _ ⟨buffer, call.actRows s.rowsTransferred, s.rowsTransferred⟩ rfl)
  have hpop := hpush.tail (StripedStep.pop _
    ⟨buffer, call.actRows s.rowsTransferred, s.rowsTransferred⟩ [] h.writer
    (by simp only; omega) h.stopFileWrite (by simp [h.gpuQueue]))
  obtain ⟨file, hwrite⟩ := runs_writeBlocks hpop rfl (Nat.zero_le _)
  have hall := hwrite.tail (StripedStep.release _ _ _ rfl rfl)
  refine ⟨_, hall, ⟨rfl, rfl, rfl, by simp, h.gdalErr, h.stopFileWrite, ?_, ?_⟩⟩
  · simp only [ht]
  · simp only [ht, hw, Nat.sub_zero]

/-- All slices of the image. -/
theorem runs_all {s : StripedState ρ} {rows : Nat} (h : BetweenSlices s rows)
    (hrows : rows ≤ call.ySize) (htotal : call.ySize ≤ call.totalRows) :
    ∃ t, (stripedWriter call).Runs s t ∧ BetweenSlices t call.ySize := by
  obtain ⟨n, hn⟩ : ∃ n, n = call.ySize - rows := ⟨_, rfl⟩
  induction n using Nat.strong_induction_on generalizing s rows with
  | _ n ih =>
    rcases Nat.lt_or_eq_of_le hrows with hlt | rfl
    · obtain ⟨t, hrun, ht⟩ := runs_slice call h hlt htotal
      have hpos := actRows_pos hlt
      obtain ⟨u, hrun', hu⟩ := ih _ (by omega) ht (actRows_le rows hrows) rfl
      exact ⟨u, hrun.trans hrun', hu⟩
    · exact ⟨s, .refl s, h⟩

theorem ySize_le_totalRows : call.ySize ≤ call.totalRows := by
  have hle := call.size_le_stride
  unfold WriteTiffCall.totalRows
  split <;> omega

/-- The producer has sent all rows, and the writer has written them. -/
structure AllSent (s : StripedState ρ) : Prop where
  producer : s.producer = .joining none
  writer : s.writer = .waiting
  gpuQueue : s.gpuQueue = []
  gdalErr : s.gdalErr = false
  stopFileWrite : s.stopFileWrite = false
  written : s.rowsWritten = call.ySize

/-- Without a failure the threads get there. -/
theorem exists_allSent (buffers : HostBuffer → Nat → ρ) :
    ∃ s, (stripedWriter call).Reachable s ∧ AllSent call s := by
  let s₀ : StripedState ρ :=
    ⟨List.finRange queueSize, false, [], false, buffers, [], .looping, 0, .waiting, 0⟩
  have hinit : (stripedWriter call).init s₀ := ⟨rfl, rfl, rfl, rfl, rfl, rfl, rfl, rfl, rfl⟩
  have hfree : List.finRange queueSize ≠ [] := by decide
  have hfirst : BetweenSlices s₀ 0 := ⟨rfl, rfl, rfl, hfree, rfl, rfl, rfl, rfl⟩
  obtain ⟨s, hrun, hs⟩ := runs_all call hfirst (Nat.zero_le _) (ySize_le_totalRows call)
  have hend := hrun.tail (StripedStep.endLoop s hs.producer (Nat.le_of_eq hs.transferred.symm))
  exact ⟨_, ⟨s₀, hinit, hend⟩, rfl, hs.writer, hs.gpuQueue, hs.gdalErr, hs.stopFileWrite,
    hs.written⟩

variable {call} in
/-- A writer that waits for further rows then waits for ever. -/
theorem AllSent.stuck {s : StripedState ρ} (h : AllSent call s)
    (htotal : call.ySize < call.totalRows) : ¬ ∃ t, (stripedWriter call).step s t := by
  rintro ⟨t, hstep⟩
  have hp := h.producer
  have hw := h.writer
  have hwritten := h.written
  cases hstep with
  | join held held' hp' hret => simp [hw] at hret
  | exit hw' hrows => omega
  | stop hw' hrows hstop => simp [h.stopFileWrite] at hstop
  | pop slice rest hw' hrows hstop hqueue => simp [h.gpuQueue] at hqueue
  | writeBlock slice i hw' hi => simp [hw] at hw'
  | writeFails slice i hw' hi => simp [hw] at hw'
  | release slice i hw' hi => simp [hw] at hw'
  | take buffer rest hp' => simp [hp] at hp'
  | breakOnGdalErr hp' => simp [hp] at hp'
  | endLoop hp' => simp [hp] at hp'
  | copy buffer hp' => simp [hp] at hp'
  | copyFails buffer garbage hp' => simp [hp] at hp'
  | push slice hp' => simp [hp] at hp'

/-- A reachable state that is not final and has no step. -/
theorem exists_stuck (htotal : call.ySize < call.totalRows)
    (buffers : HostBuffer → Nat → ρ) :
    ∃ s, (stripedWriter call).Reachable s ∧ ¬ s.Final ∧ ¬ ∃ t, (stripedWriter call).step s t := by
  obtain ⟨s, hreach, hs⟩ := exists_allSent call buffers
  refine ⟨s, hreach, fun ⟨held, hfinal⟩ => ?_, hs.stuck htotal⟩
  rw [hs.producer] at hfinal
  cases hfinal

variable {call} in
/-- A final state has no step. -/
theorem StripedInv.final_stuck {s : StripedState ρ} (h : StripedInv call s) (hfinal : s.Final) :
    ¬ ∃ t, (stripedWriter call).step s t := by
  rintro ⟨t, hstep⟩
  obtain ⟨held, hp⟩ := hfinal
  obtain ⟨held', hw⟩ := h.finished held hp
  cases hstep <;> simp_all

/-- Without a failure the threads come to a state without a step, with all rows in the file. -/
theorem exists_end (buffers : HostBuffer → Nat → ρ) :
    ∃ s, (stripedWriter call).Reachable s ∧ (¬ ∃ t, (stripedWriter call).step s t) ∧
      s.gdalErr = false ∧ s.stopFileWrite = false ∧
      s.file = (List.range call.ySize).map fun y => (y, call.row y) := by
  obtain ⟨s, hreach, hs⟩ := exists_allSent call buffers
  have hfile := (stripedInv_of_reachable hreach).file_eq
  rw [hs.written] at hfile
  rcases Nat.lt_or_ge call.ySize call.totalRows with hlt | hge
  · exact ⟨s, hreach, hs.stuck hlt, hs.gdalErr, hs.stopFileWrite, hfile⟩
  -- the writer leaves its loop and is joined
  · have hexit := hreach.runs ((System.Runs.refl s).tail
      (StripedStep.exit s hs.writer (hs.written ▸ hge)))
    have hjoin := hexit.runs ((System.Runs.refl _).tail
      (StripedStep.join _ none none hs.producer rfl))
    exact ⟨_, hjoin, (stripedInv_of_reachable hjoin).final_stuck ⟨none, rfl⟩, hs.gdalErr,
      hs.stopFileWrite, hfile⟩

/-! ## Where slices start -/

/-- The rows sent are whole slices, up to the last one. -/
structure WholeSlices (s : StripedState ρ) : Prop where
  sent : call.nRowsPerSlice ∣ s.rowsTransferred ∨ s.rowsTransferred = call.ySize
  holding : ∀ buffer, s.producer = .holding buffer → s.rowsTransferred < call.ySize
  ready : ∀ slice, s.producer = .ready slice →
    slice.sliceCnt = call.actRows s.rowsTransferred ∧ s.rowsTransferred < call.ySize

theorem wholeSlices_preserved : (stripedWriter call).Preserves (WholeSlices call) := by
  intro s t h hstep
  cases hstep with
  | take buffer rest hp hrows herr hfree =>
    exact ⟨h.sent, fun _ _ => hrows, fun _ hs => (nomatch hs)⟩
  | copy buffer hp =>
    refine ⟨h.sent, fun _ hs => (nomatch hs), fun slice hs => ?_⟩
    cases hs
    exact ⟨rfl, h.holding buffer hp⟩
  | push slice hp =>
    obtain ⟨hcnt, hlt⟩ := h.ready slice hp
    refine ⟨?_, fun _ hs => (nomatch hs), fun _ hs => (nomatch hs)⟩
    show call.nRowsPerSlice ∣ s.rowsTransferred + slice.sliceCnt ∨
      s.rowsTransferred + slice.sliceCnt = call.ySize
    have hdvd := h.sent.resolve_right hlt.ne
    rw [hcnt, WriteTiffCall.actRows]
    split
    -- the last slice ends with the image
    · exact .inr (by omega)
    · exact .inl (Nat.dvd_add hdvd (Nat.dvd_refl _))
  | breakOnGdalErr hp | endLoop hp | copyFails buffer garbage hp | join held held' hp =>
    exact ⟨h.sent, fun _ hs => (nomatch hs), fun _ hs => (nomatch hs)⟩
  | exit | stop | pop | writeBlock | writeFails | release => exact ⟨h.sent, h.holding, h.ready⟩

/-- A slice is copied from a multiple of the slice height on. -/
theorem slice_start_dvd {s : StripedState ρ} (h : (stripedWriter call).Reachable s)
    {buffer : HostBuffer} (hp : s.producer = .holding buffer) :
    call.nRowsPerSlice ∣ s.rowsTransferred := by
  have hinv : WholeSlices call s := by
    refine h.invariant (fun s hinit => ?_) (wholeSlices_preserved call)
    obtain ⟨-, -, -, -, -, hloop, hrows, -, -⟩ := hinit
    exact ⟨.inl (hrows ▸ Nat.dvd_zero _), fun _ hs => (nomatch hloop.symm.trans hs),
      fun _ hs => (nomatch hloop.symm.trans hs)⟩
  exact hinv.sent.resolve_right (hinv.holding buffer hp).ne

/-! ## Results -/

/-- What is asked of the two threads of a call: each buffer has one owner, the file holds the
first rows of the image once and in order, and all of them in a final state without an error,
and only final states have no step. -/
structure StripedSafe (call : WriteTiffCall ρ) : Prop where
  one_owner : ∀ s, (stripedWriter call).Reachable s → ∀ b,
    s.fileQueue.count b + s.producer.owned.count b +
      (s.gpuQueue.map ImgSlice.sliceData).count b + s.writer.owned.count b = 1
  rows_in_order : ∀ s, (stripedWriter call).Reachable s →
    ∃ n, n ≤ call.ySize ∧ s.file = (List.range n).map fun y => (y, call.row y)
  all_rows : ∀ s, (stripedWriter call).Reachable s → s.Final → s.gdalErr = false →
    s.stopFileWrite = false → s.file = (List.range call.ySize).map fun y => (y, call.row y)
  progress : ∀ s, (stripedWriter call).Reachable s → ¬ s.Final →
    ∃ t, (stripedWriter call).step s t

theorem totalRows_eq_iff :
    call.totalRows = call.ySize ↔ call.padding = false ∨ call.yStride = call.ySize := by
  unfold WriteTiffCall.totalRows
  cases call.padding with
  | false => simp
  | true => simp

/-- **When the striped writer is safe.** For every image, stride, slice height and interleaving,
the buffers have one owner each, the rows reach the file once and in order and no state but a
final one is stuck, exactly when the dataset is not padded or the image has no padding rows. -/
theorem stripedSafe_iff :
    StripedSafe call ↔ call.padding = false ∨ call.yStride = call.ySize := by
  rw [← totalRows_eq_iff]
  constructor
  · intro h
    by_contra hne
    have hlt : call.ySize < call.totalRows := by
      have hle := call.size_le_stride
      unfold WriteTiffCall.totalRows at hne ⊢
      split at hne <;> split <;> omega
    obtain ⟨s, hs, hfinal, hstuck⟩ := exists_stuck call hlt fun _ => call.row
    exact hstuck (h.progress s hs hfinal)
  · intro htotal
    refine ⟨fun s hs b => ?_, fun s hs => ?_, fun s hs hfinal hgdal hstop => ?_,
      fun s hs hfinal => ?_⟩
    · exact (stripedInv_of_reachable hs).owned b
    · have h := stripedInv_of_reachable hs
      exact ⟨s.rowsWritten, Nat.le_trans h.written_le h.transferred_le, h.file_eq⟩
    · have h := stripedInv_of_reachable hs
      obtain ⟨held, hp⟩ := hfinal
      obtain ⟨held', hw⟩ := h.finished held hp
      have hat := h.writerAt
      simp only [StripedState.WriterAt, hw, hgdal, hstop, Bool.false_eq_true, or_false] at hat
      have hall : s.rowsWritten = call.ySize :=
        Nat.le_antisymm (Nat.le_trans h.written_le h.transferred_le) (htotal ▸ hat)
      rw [h.file_eq, hall]
    · exact (stripedInv_of_reachable hs).progress htotal hfinal

/-- An image of one row with one padding row, written with its padding. -/
def paddedCall : WriteTiffCall Nat where
  ySize := 1
  yStride := 2
  size_le_stride := by decide
  padding := true
  nRowsPerSlice := 10
  nRowsPerSlice_pos := by decide
  row := id

/-- The writer waits for a second row that the producer never sends. -/
theorem not_stripedSafe_padded : ¬ StripedSafe paddedCall := by
  intro h
  obtain ⟨s, hs, hfinal, hstuck⟩ := exists_stuck paddedCall (by decide) fun _ => id
  exact hstuck (h.progress s hs hfinal)

end Alus.PalsarFocus
