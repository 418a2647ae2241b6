import Mathlib.Algebra.BigOperators.Fin
import Mathlib.Data.List.GetD
import Mathlib.LinearAlgebra.Finsupp.LinearCombination
import Mathlib.Tactic.Ring

/-!
# Polynomials in two variables

The polynomial functions of a total degree are spanned by the monomials up to this degree. They
stay polynomials of this degree in affine coordinates, and are sums over any list of all exponents.
-/

namespace Alus.Lib

section Span

variable {K : Type*} [CommRing K] {d d' : ℕ} {f : K → K → K}

def monomial (i j : ℕ) (x y : K) : K := x ^ i * y ^ j

variable (K) in
/-- The polynomial functions of a total degree of `d` at most. -/
def polynomials (d : ℕ) : Submodule K (K → K → K) :=
  Submodule.span K {f | ∃ i j, i + j ≤ d ∧ monomial i j = f}

theorem monomial_mem {i j : ℕ} (h : i + j ≤ d) : (monomial i j : K → K → K) ∈ polynomials K d :=
  Submodule.subset_span ⟨i, j, h, rfl⟩

theorem polynomials_mono (h : d ≤ d') (hf : f ∈ polynomials K d) : f ∈ polynomials K d' := by
  refine Submodule.span_mono ?_ hf
  intro g hg
  obtain ⟨i, j, hij, hmonomial⟩ := hg
  exact ⟨i, j, hij.trans h, hmonomial⟩

/-- A linear map of functions that takes the monomials to polynomials takes all polynomials to
such. -/
theorem map_mem_polynomials (φ : (K → K → K) →ₗ[K] K → K → K)
    (hφ : ∀ i j, i + j ≤ d → φ (monomial i j) ∈ polynomials K d') (hf : f ∈ polynomials K d) :
    φ f ∈ polynomials K d' := by
  have hle : polynomials K d ≤ (polynomials K d').comap φ := by
    refine Submodule.span_le.mpr ?_
    intro g hg
    obtain ⟨i, j, hij, hmonomial⟩ := hg
    exact hmonomial ▸ hφ i j hij
  exact hle hf

/-- The product with a function. -/
def mulMap (u : K → K → K) : (K → K → K) →ₗ[K] K → K → K where
  toFun f x y := u x y * f x y
  map_add' f g := by
    funext x y
    exact mul_add _ _ _
  map_smul' c f := by
    funext x y
    exact mul_left_comm _ _ _

/-- Functions of affine coordinates. -/
def affineMap (a b c e : K) : (K → K → K) →ₗ[K] K → K → K where
  toFun f x y := f (a * x + b) (c * y + e)
  map_add' _ _ := rfl
  map_smul' _ _ := rfl

/-- A factor that is affine in a variable adds one to the degree. -/
theorem mul_affine_mem {v : K → K → K} (hv : ∀ i j, ∃ i' j', i' + j' = i + j + 1 ∧
      ∀ x y, v x y * monomial i j x y = monomial i' j' x y) (a b : K)
    (hf : f ∈ polynomials K d) :
    (fun x y => (a * v x y + b) * f x y) ∈ polynomials K (d + 1) := by
  refine map_mem_polynomials (mulMap fun x y => a * v x y + b) (fun i j hij => ?_) hf
  obtain ⟨i', j', hdegree, hproduct⟩ := hv i j
  have hsum : mulMap (fun x y => a * v x y + b) (monomial i j) =
      a • monomial i' j' + b • (monomial i j : K → K → K) := by
    funext x y
    show (a * v x y + b) * monomial i j x y = a * monomial i' j' x y + b * monomial i j x y
    rw [add_mul, mul_assoc, hproduct]
  rw [hsum]
  exact Submodule.add_mem _ (Submodule.smul_mem _ _ (monomial_mem (by omega)))
    (Submodule.smul_mem _ _ (monomial_mem (by omega)))

theorem mul_fst_mem (a b : K) (hf : f ∈ polynomials K d) :
    (fun x y => (a * x + b) * f x y) ∈ polynomials K (d + 1) := by
  refine mul_affine_mem (v := fun x _ => x) (fun i j => ⟨i + 1, j, by omega, fun x y => ?_⟩) a b hf
  show x * (x ^ i * y ^ j) = x ^ (i + 1) * y ^ j
  ring

theorem mul_snd_mem (a b : K) (hf : f ∈ polynomials K d) :
    (fun x y => (a * y + b) * f x y) ∈ polynomials K (d + 1) := by
  refine mul_affine_mem (v := fun _ y => y) (fun i j => ⟨i, j + 1, by omega, fun x y => ?_⟩) a b hf
  show y * (x ^ i * y ^ j) = x ^ i * y ^ (j + 1)
  ring

/-- A monomial of affine coordinates, factor by factor. -/
theorem monomial_affine_mem (a b c e : K) (i j : ℕ) :
    (fun x y => monomial i j (a * x + b) (c * y + e)) ∈ polynomials K (i + j) := by
  induction i with
  | zero =>
    induction j with
    | zero =>
      have hone : (fun x y => monomial 0 0 (a * x + b) (c * y + e)) =
          (monomial 0 0 : K → K → K) := by
        funext x y
        simp [monomial]
      rw [hone]
      exact monomial_mem (le_refl 0)
    | succ j ih =>
      refine (congrArg (· ∈ polynomials K (0 + (j + 1))) ?_).mp (mul_snd_mem c e ih)
      funext x y
      show (c * y + e) * ((a * x + b) ^ 0 * (c * y + e) ^ j) =
        (a * x + b) ^ 0 * (c * y + e) ^ (j + 1)
      ring
  | succ i ih =>
    have hdegree : i + 1 + j = i + j + 1 := by omega
    rw [hdegree]
    refine (congrArg (· ∈ polynomials K (i + j + 1)) ?_).mp (mul_fst_mem a b ih)
    funext x y
    show (a * x + b) * ((a * x + b) ^ i * (c * y + e) ^ j) =
      (a * x + b) ^ (i + 1) * (c * y + e) ^ j
    ring

/-- A polynomial in affine coordinates is a polynomial of the same degree. -/
theorem polynomials_affine (a b c e : K) (hf : f ∈ polynomials K d) :
    (fun x y => f (a * x + b) (c * y + e)) ∈ polynomials K d :=
  map_mem_polynomials (affineMap a b c e)
    (fun i j hij => polynomials_mono hij (monomial_affine_mem a b c e i j)) hf

end Span

/-! ## The list of the exponents -/

/-- The exponents of a total degree of `d` at most, degree by degree, the first exponent falling. -/
def exponents (d : ℕ) : List (ℕ × ℕ) :=
  (List.range (d + 1)).flatMap fun i => (List.range (i + 1)).map fun j => (i - j, j)

theorem mem_exponents {d : ℕ} {e : ℕ × ℕ} : e ∈ exponents d ↔ e.1 + e.2 ≤ d := by
  unfold exponents
  rw [List.mem_flatMap]
  constructor
  · intro h
    obtain ⟨i, hi, he⟩ := h
    obtain ⟨j, hj, rfl⟩ := List.mem_map.mp he
    rw [List.mem_range] at hi hj
    show i - j + j ≤ d
    omega
  · intro h
    refine ⟨e.1 + e.2, List.mem_range.mpr (by omega), List.mem_map.mpr ⟨e.2, ?_, ?_⟩⟩
    · exact List.mem_range.mpr (by omega)
    · exact Prod.ext (by show e.1 + e.2 - e.2 = e.1; omega) rfl

/-- Their number is a triangular number. -/
theorem length_exponents (d : ℕ) : (exponents d).length = ((d + 1) ^ 2 + (d + 1)) / 2 := by
  have hdouble : ∀ d : ℕ, 2 * (exponents d).length = (d + 1) ^ 2 + (d + 1) := by
    intro d
    induction d with
    | zero => rfl
    | succ d ih =>
      have hnext : (exponents (d + 1)).length = (exponents d).length + (d + 2) := by
        unfold exponents
        rw [List.range_succ, List.flatMap_append, List.length_append, List.flatMap_singleton,
          List.length_map, List.length_range]
      rw [hnext, mul_add, ih]
      ring
  have h := hdouble d
  omega

variable {K : Type*} [CommRing K] {d : ℕ} {f : K → K → K}

/-- The monomial at a place of the list. -/
def monomialAt (d p : ℕ) : K → K → K :=
  monomial ((exponents d).getD p (0, 0)).1 ((exponents d).getD p (0, 0)).2

/-- A polynomial has a coefficient for every place of the list. -/
theorem exists_coefficients (hf : f ∈ polynomials K d) : ∃ c : ℕ → K, ∀ x y,
    f x y = ∑ p ∈ Finset.range (exponents d).length, c p * monomialAt d p x y := by
  have hrange : Set.range (fun p : Fin (exponents d).length => (monomialAt d p : K → K → K)) =
      {f | ∃ i j, i + j ≤ d ∧ monomial i j = f} := by
    ext g
    constructor
    · intro h
      obtain ⟨p, rfl⟩ := h
      refine ⟨_, _, ?_, rfl⟩
      rw [List.getD_eq_getElem _ _ p.2]
      exact mem_exponents.mp (List.getElem_mem p.2)
    · intro h
      obtain ⟨i, j, hij, rfl⟩ := h
      obtain ⟨p, hp, hat⟩ := List.getElem_of_mem (mem_exponents (e := (i, j)).mpr hij)
      refine ⟨⟨p, hp⟩, ?_⟩
      show monomialAt d p = _
      rw [monomialAt, List.getD_eq_getElem _ _ hp, hat]
  unfold polynomials at hf
  rw [← hrange, Submodule.mem_span_range_iff_exists_fun] at hf
  obtain ⟨c, hc⟩ := hf
  refine ⟨fun p => if hp : p < (exponents d).length then c ⟨p, hp⟩ else 0, fun x y => ?_⟩
  rw [← hc, Finset.sum_apply, Finset.sum_apply, Finset.sum_range]
  refine Finset.sum_congr rfl fun p _ => ?_
  dsimp only
  rw [dif_pos p.2]
  rfl

end Alus.Lib
