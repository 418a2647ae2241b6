import Alus.Util.StreamWorkers

/-!
# Tile workers that write an image

The worker threads write what they made of a tile to one raster, each under a lock, in the order in
which they come to it. The raster is a function of the place, and a write replaces its values in the
region of the tile.
-/

namespace Alus.Util

open Alus.Lib

variable {T ι S W κ F : Type*} [DecidableEq ι]

/-- The raster after the writes, one after the other. -/
def outputImage (write : (κ → F) → W → κ → F) (initial : κ → F) (s : WorkersState T ι S W) :
    κ → F :=
  (s.written.map Prod.snd).foldl write initial

/-- What a state of the workers should be. -/
structure WritesImage (program : T → List (HostInstr S W)) (write : (κ → F) → W → κ → F)
    (tiles : List T) (region : T → κ → Prop) (expected : T → κ → F) (initial : κ → F)
    (s : WorkersState T ι S W) : Prop where
  /-- no copy leaves a buffer, and no kernel reads what is not defined -/
  defined : ∀ w tile, s.pool.workers w = .processing tile → ¬ GoesWrong (s.streams w)
  /-- no tile is written twice -/
  once : ∀ p, (writesAt s.written p).length ≤ 1
  outside : ∀ k, (∀ t ∈ tiles, ¬ region t k) → outputImage write initial s k = initial k
  /-- a place has not been written, or has the value of its tile -/
  inside : ∀ t ∈ tiles, ∀ k, region t k →
    outputImage write initial s k = initial k ∨ outputImage write initial s k = expected t k
  /-- and it has that when all threads have ended, if none of them threw -/
  complete : (∀ w, s.pool.workers w = .stopped) → s.pool.exception = false →
    ∀ t ∈ tiles, ∀ k, region t k → outputImage write initial s k = expected t k
  /-- a thread that has not ended does not block the others for ever -/
  goesOn : (∃ w, s.pool.workers w ≠ .stopped) →
    ∃ t, WorkersStep program s t ∧ t.pool.exception = s.pool.exception

/-- What is written of a tile has the values of the tile in its region, and touches nothing else; in
a place of two tiles both have one value. -/
structure PaintsTiles (write : (κ → F) → W → κ → F) (tiles : List T) (value : T → W)
    (region : T → κ → Prop) (expected : T → κ → F) : Prop where
  inside : ∀ t ∈ tiles, ∀ k, region t k → ∀ image, write image (value t) k = expected t k
  outside : ∀ t ∈ tiles, ∀ k, ¬ region t k → ∀ image, write image (value t) k = image k
  agree : ∀ t ∈ tiles, ∀ t' ∈ tiles, ∀ k, region t k → region t' k → expected t k = expected t' k

section Painting

variable {write : (κ → F) → W → κ → F} {tiles : List T} {value : T → W}
  {region : T → κ → Prop} {expected : T → κ → F}

/-- A place keeps its value until the first write of a tile that has it, and has the value of the
tile from then on. -/
theorem PaintsTiles.foldl_write (h : PaintsTiles write tiles value region expected) {k : κ}
    {written : List T} (hmem : ∀ t ∈ written, t ∈ tiles) (image : κ → F) :
    ((∀ t ∈ written, ¬ region t k) ∧ (written.map value).foldl write image k = image k) ∨
      (∃ t ∈ written, region t k ∧ (written.map value).foldl write image k = expected t k) := by
  induction written generalizing image with
  | nil => exact .inl ⟨fun t ht => absurd ht List.not_mem_nil, rfl⟩
  | cons t written ih =>
    have ht := hmem t List.mem_cons_self
    have hrest := ih (fun t' ht' => hmem t' (List.mem_cons_of_mem t ht')) (write image (value t))
    rw [List.map_cons, List.foldl_cons]
    rcases hrest with ⟨hnone, hsame⟩ | ⟨t', ht', hin, hlater⟩
    · by_cases hin : region t k
      · exact .inr ⟨t, List.mem_cons_self, hin, hsame.trans (h.inside t ht k hin image)⟩
      · refine .inl ⟨fun t' ht' => ?_, hsame.trans (h.outside t ht k hin image)⟩
        rcases List.mem_cons.mp ht' with rfl | ht'
        · exact hin
        · exact hnone t' ht'
    · exact .inr ⟨t', List.mem_cons_of_mem t ht', hin, hlater⟩

end Painting

section Run

variable {program : T → List (HostInstr S W)} {write : (κ → F) → W → κ → F} {ready : S → Prop}
  {tiles : List T} {value : T → W} {region : T → κ → Prop} {expected : T → κ → F}

omit [DecidableEq ι] in
/-- Everything that was written is what its tile gives. -/
theorem WorkersInv.exists_written {s : WorkersState T ι S W}
    (h : WorkersInv ready (fun t => [value t]) tiles s) :
    ∃ written : List T, (∀ t ∈ written, t ∈ tiles) ∧
      s.written.map Prod.snd = written.map value ∧
      ∀ e ∈ s.written, ∃ t ∈ written, tiles[e.1]? = some t := by
  have hall : ∀ e ∈ s.written, ∃ t, tiles[e.1]? = some t ∧ e.2 = value t := by
    intro e he
    obtain ⟨t, ht, hvalue⟩ := h.mem_written he
    exact ⟨t, ht, List.mem_singleton.mp hvalue⟩
  generalize s.written = entries at hall
  induction entries with
  | nil => exact ⟨[], fun t ht => absurd ht List.not_mem_nil, rfl, fun e he => absurd he
      List.not_mem_nil⟩
  | cons e entries ih =>
    obtain ⟨t, ht, hvalue⟩ := hall e List.mem_cons_self
    obtain ⟨written, hmem, hmap, hposition⟩ := ih fun e' he' => hall e' (List.mem_cons_of_mem e he')
    refine ⟨t :: written, fun t' ht' => ?_, ?_, fun e' he' => ?_⟩
    · rcases List.mem_cons.mp ht' with rfl | ht'
      · exact List.mem_of_getElem? ht
      · exact hmem t' ht'
    · rw [List.map_cons, List.map_cons, hvalue, hmap]
    · rcases List.mem_cons.mp he' with rfl | he'
      · exact ⟨t, List.mem_cons_self, ht⟩
      · obtain ⟨t', ht', hat⟩ := hposition e' he'
        exact ⟨t', List.mem_cons_of_mem t ht', hat⟩

theorem writesImage_of_inv (hsome : Nonempty ι)
    (hpaints : PaintsTiles write tiles value region expected) (initial : κ → F)
    {s : WorkersState T ι S W} (h : WorkersInv ready (fun t => [value t]) tiles s) :
    WritesImage program write tiles region expected initial s := by
  obtain ⟨written, hmem, hmap, hposition⟩ := h.exists_written
  have himage (k : κ) := hpaints.foldl_write (k := k) hmem initial
  simp only [← hmap] at himage
  refine ⟨fun w tile hw => h.not_goesWrong hw, fun p => ?once, fun k hnone => ?outside,
    fun t ht k hin => ?inside, fun hstopped hflag t ht k hin => ?complete, fun hgoes => ?goesOn⟩
  case once =>
    rcases Nat.lt_or_ge p tiles.length with hlt | hge
    · exact (h.writesAt_prefix (List.getElem?_eq_getElem hlt)).length_le
    · rw [h.writesAt_of_length_le hge]
      exact Nat.zero_le 1
  case outside =>
    rcases himage k with ⟨-, hsame⟩ | ⟨t, ht, hin, -⟩
    · exact hsame
    · exact absurd hin (hnone t (hmem t ht))
  case inside =>
    rcases himage k with ⟨-, hsame⟩ | ⟨t', ht', hin', hvalue⟩
    · exact .inl hsame
    · exact .inr (hvalue.trans (hpaints.agree t' (hmem t' ht') t ht k hin' hin))
  case complete =>
    obtain ⟨p, hp⟩ := List.getElem?_of_mem ht
    -- the tile is among those that were written
    have hentry : (p, value t) ∈ s.written := by
      rw [← mem_writesAt, h.all_written hsome hstopped hflag hp]
      exact List.mem_singleton_self _
    obtain ⟨t', ht', hat⟩ := hposition _ hentry
    obtain rfl := Option.some.inj (hp.symm.trans hat)
    rcases himage k with ⟨hnone, -⟩ | ⟨t', ht'', hin', hvalue⟩
    · exact absurd hin (hnone t ht')
    · exact hvalue.trans (hpaints.agree t' (hmem t' ht'') t ht k hin' hin)
  case goesOn =>
    obtain ⟨w, hw⟩ := hgoes
    exact h.progress hw

/-- **The workers write the image**, in every order of their steps and of the steps of their
streams, and every run ends. -/
theorem workers_writeImage [Fintype ι] (hsome : Nonempty ι)
    (hcomputes : ComputesTiles program ready (fun t => [value t]) tiles)
    (hpaints : PaintsTiles write tiles value region expected) (initial : κ → F) :
    (∀ s, (workers ι program ready tiles).Reachable s →
        WritesImage program write tiles region expected initial s) ∧
      WellFounded fun t s => (workers ι program ready tiles).step s t :=
  ⟨fun _ hs => writesImage_of_inv hsome hpaints initial (workersInv_of_reachable hcomputes hs),
    wellFounded_workersStep program⟩

end Run

end Alus.Util
