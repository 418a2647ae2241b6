import Mathlib.Data.List.Pairwise

/-!
# Blocks handed out one after the other

Half-open ranges of bytes, and what an allocator that only moves a mark forward needs to keep them
inside a limit, aligned and apart.
-/

namespace Alus.Lib

/-- The bytes from `offset` on, `size` of them. -/
structure Block where
  offset : Nat
  size : Nat
  deriving DecidableEq, Repr

namespace Block

variable {b b' : Block}

def stop (b : Block) : Nat := b.offset + b.size

/-- The byte lies in the block. -/
def Contains (b : Block) (i : Nat) : Prop := b.offset ≤ i ∧ i < b.stop

/-- The one block ends before the other starts. -/
def Apart (b b' : Block) : Prop := b.stop ≤ b'.offset ∨ b'.stop ≤ b.offset

/-- No byte lies in both blocks. -/
def Disjoint (b b' : Block) : Prop := ∀ i, b.Contains i → ¬ b'.Contains i

theorem Apart.disjoint (h : b.Apart b') : b.Disjoint b' := by
  intro i hi hi'
  obtain ⟨hlow, hhigh⟩ := hi
  obtain ⟨hlow', hhigh'⟩ := hi'
  rcases h with h | h <;> omega

end Block

/-- The least multiple of the alignment from `n` on. -/
def alignUp (alignment n : Nat) : Nat :=
  if n % alignment = 0 then n else n + (alignment - n % alignment)

theorem le_alignUp (alignment n : Nat) : n ≤ alignUp alignment n := by
  unfold alignUp
  split
  · exact Nat.le_refl n
  · exact Nat.le_add_right n _

theorem dvd_alignUp {alignment : Nat} (h : 0 < alignment) (n : Nat) :
    alignment ∣ alignUp alignment n := by
  unfold alignUp
  split
  · next hzero => exact Nat.dvd_of_mod_eq_zero hzero
  · have hlt := Nat.mod_lt n h
    have hsplit := Nat.div_add_mod n alignment
    refine ⟨n / alignment + 1, ?_⟩
    rw [Nat.mul_succ]
    omega

/-- The blocks lie below a mark, from which the next one will start. The mark may have passed the
limit that the blocks are inside of. -/
structure Stacked (alignment limit mark : Nat) (blocks : List Block) : Prop where
  aligned : ∀ b ∈ blocks, alignment ∣ b.offset
  inside : ∀ b ∈ blocks, b.stop ≤ limit
  below : ∀ b ∈ blocks, b.stop ≤ mark
  apart : blocks.Pairwise Block.Apart
  mark_aligned : alignment ∣ mark

namespace Stacked

variable {alignment limit mark : Nat} {blocks : List Block}

theorem nil (limit : Nat) : Stacked alignment limit 0 [] where
  aligned _ hb := absurd hb List.not_mem_nil
  inside _ hb := absurd hb List.not_mem_nil
  below _ hb := absurd hb List.not_mem_nil
  apart := List.Pairwise.nil
  mark_aligned := Nat.dvd_zero alignment

/-- The next block starts at the mark, and the mark moves behind it. -/
theorem push (h : Stacked alignment limit mark blocks) {size mark' : Nat}
    (hfits : mark + size ≤ limit) (hmark : mark + size ≤ mark') (haligned : alignment ∣ mark') :
    Stacked alignment limit mark' (blocks ++ [⟨mark, size⟩]) where
  aligned := List.forall_mem_append.mpr ⟨h.aligned, List.forall_mem_singleton.mpr h.mark_aligned⟩
  inside := List.forall_mem_append.mpr ⟨h.inside, List.forall_mem_singleton.mpr hfits⟩
  below := by
    refine List.forall_mem_append.mpr ⟨fun b hb => ?_, List.forall_mem_singleton.mpr hmark⟩
    have hbelow := h.below b hb
    omega
  apart := by
    rw [List.pairwise_append]
    refine ⟨h.apart, List.pairwise_singleton _ _, fun b hb b' hb' => ?_⟩
    rw [List.mem_singleton] at hb'
    rw [hb']
    exact .inl (h.below b hb)
  mark_aligned := haligned

end Stacked

end Alus.Lib
