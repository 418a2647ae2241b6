import Mathlib.Algebra.BigOperators.Fin
import Mathlib.Data.List.GetD
import Mathlib.Data.List.ProdSigma
import Alus.Lib.Sampling

/-!
# Matrices in one piece, column by column

A matrix whose columns follow each other in memory, and the product with a transposed matrix as the
linear algebra routines compute it: with the sizes that are passed, which have to be those of the
matrices. Elementwise operations on the memory are elementwise operations on the matrices.
-/

namespace Alus.Lib

section Layout

variable {α β γ : Type}

/-- The elements of a matrix, column by column. -/
def columnMajor (rows cols : ℕ) (f : ℕ → ℕ → α) : List α :=
  (List.range cols ×ˢ List.range rows).map fun (j, i) => f i j

theorem length_columnMajor (rows cols : ℕ) (f : ℕ → ℕ → α) :
    (columnMajor rows cols f).length = rows * cols := by
  unfold columnMajor
  rw [List.length_map, List.length_product, List.length_range, List.length_range, Nat.mul_comm]

/-- `a[i + j * rows]`. -/
theorem getElem?_columnMajor {rows cols i j : ℕ} (f : ℕ → ℕ → α) (hi : i < rows) (hj : j < cols) :
    (columnMajor rows cols f)[j * rows + i]? = some (f i j) := by
  have hblocks : columnMajor rows cols f =
      (List.range cols).flatMap fun j => (List.range rows).map fun i => f i j := by
    unfold columnMajor
    rw [show List.range cols ×ˢ List.range rows = (List.range cols).flatMap fun j =>
      (List.range rows).map (Prod.mk j) from rfl, List.map_flatMap]
    refine List.flatMap_congr fun j _ => ?_
    rw [List.map_map]
    rfl
  rw [hblocks, getElem?_flatMap_block (fun j _ => by rw [List.length_map, List.length_range]) hi,
    List.getElem?_range hj, Option.bind_some, List.getElem?_map, List.getElem?_range hi]
  rfl

theorem getD_columnMajor {rows cols i j : ℕ} (f : ℕ → ℕ → α) (hi : i < rows) (hj : j < cols)
    (a : α) : (columnMajor rows cols f).getD (j * rows + i) a = f i j := by
  rw [List.getD_eq_getElem?_getD, getElem?_columnMajor f hi hj, Option.getD_some]

/-- The same with the index of a rectangle's pixel. -/
theorem vectorIndex_columnMajor {rows cols : ℕ} {i j : Int} (f : ℕ → ℕ → α) (hi : 0 ≤ i)
    (hi' : i < rows) (hj : 0 ≤ j) (hj' : j < cols) :
    vectorIndex (columnMajor rows cols f) (j * rows + i) = .ok (f i.toNat j.toNat) := by
  have hpos : 0 ≤ j * rows := Int.mul_nonneg hj (Int.natCast_nonneg rows)
  have hplace : (j * rows + i).toNat = j.toNat * rows + i.toNat := by
    apply Int.ofNat.inj
    show ((j * rows + i).toNat : Int) = ((j.toNat * rows + i.toNat : Nat) : Int)
    push_cast
    rw [Int.toNat_of_nonneg (by omega), Int.toNat_of_nonneg hi, Int.toNat_of_nonneg hj]
  refine vectorIndex_eq_ok.mpr ⟨by omega, ?_⟩
  rw [hplace, getElem?_columnMajor f (by omega) (by omega)]

/-- A vector is a matrix of one column. -/
theorem columnMajor_one (n : ℕ) (f : ℕ → α) :
    columnMajor n 1 (fun i _ => f i) = (List.range n).map f := by
  unfold columnMajor
  show ((List.range n).map (Prod.mk 0) ++ []).map _ = _
  rw [List.append_nil, List.map_map]
  rfl

theorem columnMajor_congr {rows cols : ℕ} {f g : ℕ → ℕ → α}
    (h : ∀ i < rows, ∀ j < cols, f i j = g i j) :
    columnMajor rows cols f = columnMajor rows cols g := by
  refine List.map_congr_left fun e he => ?_
  obtain ⟨hj, hi⟩ := List.mem_product.mp he
  exact h e.2 (List.mem_range.mp hi) e.1 (List.mem_range.mp hj)

theorem zipWith_columnMajor (h : α → β → γ) (rows cols : ℕ) (f : ℕ → ℕ → α) (g : ℕ → ℕ → β) :
    List.zipWith h (columnMajor rows cols f) (columnMajor rows cols g) =
      columnMajor rows cols fun i j => h (f i j) (g i j) := by
  unfold columnMajor
  rw [List.zipWith_map, List.zipWith_self]

end Layout

/-! ## Products -/

section Product

variable {K : Type} [Semiring K]

/-- The product of `a`, which has `m` rows and `k` columns, and the transpose of `b`, which has `n`
rows and `k` columns. -/
def gemmTransposed (a b : List K) (m k n : ℕ) : Outcome (List K) :=
  if a.length = m * k ∧ b.length = n * k then
    .ok (columnMajor m n fun i j =>
      ∑ p ∈ Finset.range k, a.getD (p * m + i) 0 * b.getD (p * n + j) 0)
  else .undefined

theorem gemmTransposed_columnMajor (m k n : ℕ) (f g : ℕ → ℕ → K) :
    gemmTransposed (columnMajor m k f) (columnMajor n k g) m k n =
      .ok (columnMajor m n fun i j => ∑ p ∈ Finset.range k, f i p * g j p) := by
  unfold gemmTransposed
  rw [if_pos ⟨length_columnMajor m k f, length_columnMajor n k g⟩]
  refine congrArg Outcome.ok
    (columnMajor_congr fun i hi j hj => Finset.sum_congr rfl fun p hp => ?_)
  have hp := Finset.mem_range.mp hp
  rw [getD_columnMajor f hi hp, getD_columnMajor g hj hp]

/-- The product of two vectors has all products of their elements. -/
theorem gemmTransposed_vectors (m n : ℕ) (f g : ℕ → K) :
    gemmTransposed ((List.range m).map f) ((List.range n).map g) m 1 n =
      .ok (columnMajor m n fun i j => f i * g j) := by
  rw [← columnMajor_one, ← columnMajor_one, gemmTransposed_columnMajor]
  simp only [Finset.range_one, Finset.sum_singleton]

end Product

end Alus.Lib
