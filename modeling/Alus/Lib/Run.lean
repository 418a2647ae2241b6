import Mathlib.Logic.Relation

/-!
# Runs of a transition system

A transition system is its initial states and its step relation. This module names
runs and reachable states and gives the two rules every safety proof over runs uses:
an invariant that each step preserves holds in every reachable state, and a property
relative to a fixed earlier state is carried along the run that starts there.
-/

namespace Alus.Lib

/-- A transition system over the states `σ`. -/
structure System (σ : Type*) where
  init : σ → Prop
  step : σ → σ → Prop

namespace System

variable {σ : Type*} {M : System σ} {I : σ → Prop} {s t u : σ}

/-- `M.Runs s t`: finitely many steps lead from `s` to `t`. -/
def Runs (M : System σ) : σ → σ → Prop :=
  Relation.ReflTransGen M.step

/-- A state that some run from an initial state reaches. -/
def Reachable (M : System σ) (t : σ) : Prop :=
  ∃ s, M.init s ∧ M.Runs s t

/-- Every step taken from an `I`-state ends in an `I`-state. -/
def Preserves (M : System σ) (I : σ → Prop) : Prop :=
  ∀ ⦃s t⦄, I s → M.step s t → I t

theorem Runs.refl (s : σ) : M.Runs s s :=
  Relation.ReflTransGen.refl

theorem Runs.trans (h : M.Runs s t) (h' : M.Runs t u) : M.Runs s u :=
  Relation.ReflTransGen.trans h h'

theorem Runs.tail (h : M.Runs s t) (h' : M.step t u) : M.Runs s u :=
  Relation.ReflTransGen.tail h h'

theorem Runs.head (h : M.step s t) (h' : M.Runs t u) : M.Runs s u :=
  Relation.ReflTransGen.head h h'

/-- A preserved property is carried from the start of a run to its end. -/
theorem Preserves.runs (hI : M.Preserves I) (hs : I s) (hr : M.Runs s t) : I t := by
  induction hr with
  | refl => exact hs
  | tail _ hstep ih => exact hI ih hstep

theorem Reachable.runs (h : M.Reachable s) (hr : M.Runs s t) : M.Reachable t := by
  obtain ⟨s₀, hinit, h0⟩ := h
  exact ⟨s₀, hinit, h0.trans hr⟩

/-- **The invariant rule.** A property of the initial states that every step preserves
holds in every reachable state. -/
theorem Reachable.invariant (h : M.Reachable t) (hinit : ∀ s, M.init s → I s)
    (hstep : M.Preserves I) : I t := by
  obtain ⟨s, hs, hr⟩ := h
  exact hstep.runs (hinit s hs) hr

/-- The invariant rule under an invariant `I` that is already known: the step obligation
for `J` may use `I` of the state the step starts in. -/
theorem Preserves.runs_of_invariant {J : σ → Prop} (hI : M.Preserves I)
    (hJ : ∀ ⦃s t⦄, I s → J s → M.step s t → J t) (hsI : I s) (hsJ : J s) (hr : M.Runs s t) :
    J t := by
  have hboth : M.Preserves fun x => I x ∧ J x :=
    fun _ _ hx hstep => ⟨hI hx.1 hstep, hJ hx.1 hx.2 hstep⟩
  exact (hboth.runs ⟨hsI, hsJ⟩ hr).2

end System

end Alus.Lib
