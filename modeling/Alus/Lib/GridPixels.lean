import Alus.Lib.Kernel
import Alus.Lib.Tiling

/-!
# The pixels of a grid

A kernel over a window has a thread for each of its pixels; the threads of the grid that lie past
its last column or row return at once.
-/

namespace Alus.Lib

/-- The pixel of a thread, if it is one of the window. -/
def threadPixel (block : Dim3) (window : Rectangle) (t : ThreadStep) : Option (Int × Int) :=
  if t.posX block < window.width ∧ t.posY block < window.height then
    some (window.x + t.posX block, window.y + t.posY block)
  else none

/-- The grid has a thread for every pixel of the window. -/
structure GridCovers (grid block : Dim3) (window : Rectangle) : Prop where
  columns : window.width ≤ grid.x * block.x
  rows : window.height ≤ grid.y * block.y

section Grid

variable {grid block : Dim3} {window : Rectangle} {t : ThreadStep} {k : Int × Int}

theorem threadPixel_eq_some : threadPixel block window t = some k ↔
    (t.posX block < window.width ∧ t.posY block < window.height) ∧
      k = (window.x + t.posX block, window.y + t.posY block) := by
  unfold threadPixel
  split_ifs with hin
  · simp [hin, eq_comm]
  · simp [hin]

theorem contains_of_threadPixel (h : threadPixel block window t = some k) :
    window.Contains k.1 k.2 := by
  obtain ⟨hin, rfl⟩ := threadPixel_eq_some.mp h
  simp only [Rectangle.Contains]
  omega

/-- Each pixel has its thread, in each phase. -/
theorem exists_threadPixel (hcovers : GridCovers grid block window) {phases phase : Nat}
    (hphase : phase < phases) (hk : window.Contains k.1 k.2) :
    ∃ t ∈ threadSteps grid block phases, t.phase = phase ∧ threadPixel block window t = some k := by
  obtain ⟨hcolumns, hrows⟩ := hcovers
  simp only [Rectangle.Contains] at hk
  have hcolumn : (k.1 - window.x).toNat < grid.x * block.x := by omega
  have hrow : (k.2 - window.y).toNat < grid.y * block.y := by omega
  obtain ⟨t, ht, hsame, hx, hy⟩ := exists_threadStep hphase hcolumn hrow
  refine ⟨t, ht, hsame, threadPixel_eq_some.mpr ⟨by omega, Prod.ext ?_ ?_⟩⟩
  · dsimp only
    omega
  · dsimp only
    omega

/-- No two threads of a phase have one pixel. -/
theorem eq_of_threadPixel {phases : Nat} {t' : ThreadStep} (ht : t ∈ threadSteps grid block phases)
    (ht' : t' ∈ threadSteps grid block phases) (hphase : t.phase = t'.phase)
    (h : threadPixel block window t = some k) (h' : threadPixel block window t' = some k) :
    t = t' := by
  obtain ⟨-, hx, hy⟩ := mem_threadSteps.mp ht
  obtain ⟨-, hx', hy'⟩ := mem_threadSteps.mp ht'
  obtain ⟨-, hk⟩ := threadPixel_eq_some.mp h
  obtain ⟨-, hk'⟩ := threadPixel_eq_some.mp h'
  have hposX : t.posX block = t'.posX block := by
    have hfst := congrArg Prod.fst (hk.symm.trans hk')
    dsimp only at hfst
    omega
  have hposY : t.posY block = t'.posY block := by
    have hsnd := congrArg Prod.snd (hk.symm.trans hk')
    dsimp only at hsnd
    omega
  -- the position is split again into block and thread
  have hsplit {width a b a' b' : Nat} (ha : a < width) (ha' : a' < width)
      (heq : a + b * width = a' + b' * width) : a = a' ∧ b = b' := by
    have hmod := congrArg (· % width) heq
    have hdiv := congrArg (· / width) heq
    simp only [Nat.add_mul_mod_self_right, Nat.mod_eq_of_lt ha, Nat.mod_eq_of_lt ha'] at hmod
    simp only [Nat.add_mul_div_right _ _ (Nat.zero_lt_of_lt ha), Nat.div_eq_of_lt ha,
      Nat.div_eq_of_lt ha', Nat.zero_add] at hdiv
    exact ⟨hmod, hdiv⟩
  obtain ⟨hthreadX, hblockX⟩ := hsplit hy.1 hy'.1 hposX
  obtain ⟨hthreadY, hblockY⟩ := hsplit hy.2 hy'.2 hposY
  cases t
  cases t'
  simp_all

/-- In whatever order the threads run, each pixel of the window has its turn once. -/
theorem perm_threadPixels (hcovers : GridCovers grid block window) {order : List ThreadStep}
    (horder : order.Perm (threadSteps grid block 1)) :
    (order.filterMap (threadPixel block window)).Perm (tilePixels window) := by
  have hnodup : (order.filterMap (threadPixel block window)).Nodup := by
    refine List.pairwise_filterMap.mpr ?_
    refine (horder.nodup_iff.mpr (nodup_threadSteps grid block 1)).imp_of_mem ?_
    intro t t' ht ht' hne k hk k' hk' hsame
    have hzero {t : ThreadStep} (ht : t ∈ order) : t.phase = 0 :=
      Nat.lt_one_iff.mp (mem_threadSteps.mp (horder.mem_iff.mp ht)).1
    refine hne (eq_of_threadPixel (horder.mem_iff.mp ht) (horder.mem_iff.mp ht')
      ((hzero ht).trans (hzero ht').symm) hk (hsame ▸ hk'))
  refine (List.perm_ext_iff_of_nodup hnodup
    ((nodup_intRange _ _).product (nodup_intRange _ _))).mpr fun k => ?_
  rw [List.mem_filterMap]
  refine Iff.trans ?_ mem_tilePixels.symm
  constructor
  · rintro ⟨t, -, hk⟩
    exact contains_of_threadPixel hk
  · intro hk
    obtain ⟨t, ht, -, hpixel⟩ := exists_threadPixel hcovers Nat.one_pos hk
    exact ⟨t, horder.mem_iff.mpr ht, hpixel⟩

end Grid

end Alus.Lib
