import Mathlib.Algebra.BigOperators.Group.List.Basic
import Mathlib.LinearAlgebra.Lagrange

/-!
# Lagrange interpolation by loops

The weight of a node is the product that a loop over the other nodes makes, and it is the value of
the Lagrange basis polynomial. So the weighted sum over the nodes is the value of the interpolating
polynomial.
-/

namespace Alus.Lib

open Finset Polynomial

variable {ι F : Type*} [DecidableEq ι]

/-- The loop over the other nodes multiplies their factors. -/
theorem foldl_mul_others [CommMonoid F] (f : ι → F) (i : ι) {nodes : List ι}
    (hnodes : nodes.Nodup) (a : F) :
    nodes.foldl (fun weight j => if j ≠ i then weight * f j else weight) a =
      a * ∏ j ∈ nodes.toFinset.erase i, f j := by
  induction nodes generalizing a with
  | nil => simp
  | cons j nodes ih =>
    obtain ⟨hj, hnodes⟩ := List.nodup_cons.mp hnodes
    rw [List.foldl_cons, ih hnodes, List.toFinset_cons]
    by_cases hji : j = i
    · subst hji
      rw [if_neg (not_not.mpr rfl), erase_insert_eq_erase]
    · have hmem : j ∉ nodes.toFinset.erase i := fun h =>
        hj (List.mem_toFinset.mp (mem_of_mem_erase h))
      rw [if_pos hji, erase_insert_of_ne hji, prod_insert hmem, mul_assoc]

variable [Field F]

/-- The value of the polynomial through the values `r` at the nodes. -/
noncomputable def lagrangeValue (nodes : List ι) (t r : ι → F) (x : F) : F :=
  (Lagrange.interpolate nodes.toFinset t r).eval x

/-- The weight of a node at `x`. -/
noncomputable def nodeWeight (nodes : List ι) (t : ι → F) (i : ι) (x : F) : F :=
  (Lagrange.basis nodes.toFinset t i).eval x

variable {nodes : List ι} {t r : ι → F}

theorem nodeWeight_eq_prod (nodes : List ι) (t : ι → F) (i : ι) (x : F) :
    nodeWeight nodes t i x = ∏ j ∈ nodes.toFinset.erase i, (x - t j) / (t i - t j) := by
  rw [nodeWeight, Lagrange.basis, eval_prod]
  refine prod_congr rfl fun j _ => ?_
  rw [Lagrange.basisDivisor, eval_mul, eval_C, eval_sub, eval_X, eval_C, div_eq_inv_mul]

theorem foldl_nodeWeight (hnodes : nodes.Nodup) (t : ι → F) (i : ι) (x : F) :
    nodes.foldl (fun weight j => if j ≠ i then weight * ((x - t j) / (t i - t j)) else weight) 1 =
      nodeWeight nodes t i x := by
  rw [foldl_mul_others _ i hnodes, one_mul, nodeWeight_eq_prod]

theorem sum_nodeWeight_mul (hnodes : nodes.Nodup) (t r : ι → F) (x : F) :
    (nodes.map fun i => nodeWeight nodes t i x * r i).sum = lagrangeValue nodes t r x := by
  rw [lagrangeValue, Lagrange.interpolate_apply, eval_finsetSum, ← List.sum_toFinset _ hnodes]
  refine sum_congr rfl fun i _ => ?_
  rw [eval_mul, eval_C, mul_comm, nodeWeight]

section Distinct

variable (hdistinct : Set.InjOn t {i | i ∈ nodes})

include hdistinct

omit [Field F] in
theorem injOn_toFinset : Set.InjOn t nodes.toFinset := by
  rwa [List.coe_toFinset]

/-- **The weights add up to one.** -/
theorem sum_nodeWeight (hnodes : nodes.Nodup) (hne : nodes ≠ []) (x : F) :
    (nodes.map fun i => nodeWeight nodes t i x).sum = 1 := by
  have hsum := congrArg (eval x) (Lagrange.sum_basis (injOn_toFinset hdistinct)
    (List.toFinset_nonempty_iff _ |>.mpr hne))
  rwa [eval_finsetSum, eval_one, List.sum_toFinset _ hnodes] at hsum

/-- At a node, only its own weight is not zero. -/
theorem nodeWeight_node {i k : ι} (hi : i ∈ nodes) (hk : k ∈ nodes) :
    nodeWeight nodes t i (t k) = if i = k then 1 else 0 := by
  by_cases h : i = k
  · subst h
    rw [if_pos rfl]
    exact Lagrange.eval_basis_self (injOn_toFinset hdistinct) (List.mem_toFinset.mpr hi)
  · rw [if_neg h]
    exact Lagrange.eval_basis_of_ne h (List.mem_toFinset.mpr hk)

/-- **The value at a node.** -/
theorem lagrangeValue_node {k : ι} (hk : k ∈ nodes) : lagrangeValue nodes t r (t k) = r k :=
  Lagrange.eval_interpolate_at_node r (injOn_toFinset hdistinct) (List.mem_toFinset.mpr hk)

/-- **Polynomials of degree below the number of nodes are reproduced.** -/
theorem lagrangeValue_polynomial (hnodes : nodes.Nodup) {p : F[X]}
    (hdegree : p.degree < nodes.length) (hp : ∀ i ∈ nodes, p.eval (t i) = r i) (x : F) :
    lagrangeValue nodes t r x = p.eval x := by
  rw [← List.toFinset_card_of_nodup hnodes] at hdegree
  rw [lagrangeValue, Lagrange.eq_interpolate_of_eval_eq r (injOn_toFinset hdistinct) hdegree
    fun i hi => hp i (List.mem_toFinset.mp hi)]

end Distinct

end Alus.Lib
