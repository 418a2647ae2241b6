import Mathlib.Data.List.Basic
import Alus.Lib.Machine
import Alus.Lib.Run

/-!
# Loops

A `for` loop with a `break` folds over what it counts until one of its passes breaks. A `while`
loop need not end: it is run for a number of passes, and has ended when that number was enough.
-/

namespace Alus.Lib

/-! ## `for` loops that break -/

section Break

variable {σ ι : Type}

/-- The state when the loop is left. A pass that breaks is `none`, and changes nothing. -/
def foldlBreak (step : σ → ι → Option σ) (s : σ) : List ι → σ
  | [] => s
  | i :: l =>
    match step s i with
    | some s' => foldlBreak step s' l
    | none => s

variable {step : σ → ι → Option σ} {s s' : σ}

/-- Passes that do not break are run, and the loop goes on after them. -/
theorem foldlBreak_append {done : List ι} (h : done.foldlM step s = some s') (rest : List ι) :
    foldlBreak step s (done ++ rest) = foldlBreak step s' rest := by
  induction done generalizing s with
  | nil =>
    rw [List.foldlM_nil, Option.pure_def, Option.some.injEq] at h
    rw [h, List.nil_append]
  | cons i done ih =>
    rw [List.foldlM_cons, Option.bind_eq_bind, Option.bind_eq_some_iff] at h
    obtain ⟨s₁, hstep, hdone⟩ := h
    rw [List.cons_append, foldlBreak, hstep]
    exact ih hdone

/-- A loop whose next pass breaks, if there is one, is left as it is. -/
theorem foldlBreak_of_break {rest : List ι} (h : ∀ i ∈ rest.head?, step s i = none) :
    foldlBreak step s rest = s := by
  cases rest with
  | nil => rfl
  | cons i rest => rw [foldlBreak, h i rfl]

/-- Every run of the loop is a number of passes that did not break, up to one that does or to the
end. -/
theorem exists_foldlBreak (step : σ → ι → Option σ) (s : σ) (l : List ι) :
    ∃ done rest, l = done ++ rest ∧ done.foldlM step s = some (foldlBreak step s l) ∧
      ∀ i ∈ rest.head?, step (foldlBreak step s l) i = none := by
  induction l generalizing s with
  | nil => exact ⟨[], [], rfl, rfl, by simp⟩
  | cons i l ih =>
    cases hstep : step s i with
    | none =>
      refine ⟨[], i :: l, rfl, ?_, ?_⟩
      · rw [foldlBreak, hstep]
        rfl
      · rw [foldlBreak, hstep]
        rintro _ ⟨⟩
        exact hstep
    | some s₁ =>
      obtain ⟨done, rest, rfl, hdone, hbreak⟩ := ih s₁
      rw [foldlBreak, hstep]
      refine ⟨i :: done, rest, rfl, ?_, hbreak⟩
      rw [List.foldlM_cons, hstep]
      exact hdone

end Break

/-! ## `for` loops that look for something -/

section Find

universe u

/-- A loop whose tests all return is the search with these tests. -/
theorem findM?_eq_ok {ι : Type} {p : ι → Outcome Bool} {q : ι → Bool} {l : List ι}
    (h : ∀ i ∈ l, p i = .ok (q i)) : l.findM? p = .ok (l.find? q) := by
  induction l with
  | nil => rfl
  | cons i l ih =>
    rw [List.findM?, h i List.mem_cons_self, Outcome.ok_bind, List.find?_cons]
    cases q i with
    | true => rfl
    | false => exact ih fun i' hi' => h i' (List.mem_cons_of_mem i hi')

/-- A loop over indices does what it does at the first one that does not pass. -/
theorem findSomeM?_range {α : Type u} {f : Nat → Outcome (Option α)} {n k : Nat} (hk : k < n)
    (hbefore : ∀ i < k, f i = .ok none) (hat : f k ≠ .ok none) :
    (List.range n).findSomeM? f = f k := by
  have hpassed : ∀ (before rest : List Nat), (∀ i ∈ before, f i = .ok none) →
      (before ++ rest).findSomeM? f = rest.findSomeM? f := by
    intro before rest h
    induction before with
    | nil => rfl
    | cons i before ih =>
      rw [List.cons_append, List.findSomeM?, h i List.mem_cons_self, Outcome.ok_bind]
      exact ih fun i' hi' => h i' (List.mem_cons_of_mem i hi')
  obtain ⟨m, rfl⟩ := Nat.exists_eq_add_of_lt hk
  rw [Nat.add_assoc, List.range_add, hpassed _ _ fun i hi => hbefore i (List.mem_range.mp hi),
    List.range_succ_eq_map, List.map_cons, Nat.add_zero, List.findSomeM?]
  cases hfound : f k with
  | ok found =>
    cases found with
    | none => exact absurd hfound hat
    | some a => rfl
  | throws => rfl
  | undefined => rfl

/-- What a loop found was found by one of its passes. -/
theorem findSomeM?_eq_some {ι α : Type u} {f : ι → Outcome (Option α)} {l : List ι} {a : α}
    (h : l.findSomeM? f = .ok (some a)) : ∃ i, i ∈ l ∧ f i = .ok (some a) := by
  induction l with
  | nil => cases h
  | cons i l ih =>
    rw [List.findSomeM?] at h
    refine Outcome.of_bind_eq_ok h fun found hfound h => ?_
    cases found with
    | none =>
      obtain ⟨i', hi', hfound'⟩ := ih h
      exact ⟨i', List.mem_cons_of_mem i hi', hfound'⟩
    | some a' =>
      cases h
      exact ⟨i, List.mem_cons_self, hfound⟩

end Find

/-! ## `while` loops -/

/-- What a pass of a loop does. -/
inductive Pass (σ ρ : Type) where
  | next (s : σ)
  | done (r : ρ)
  deriving DecidableEq, Repr

section While

variable {σ ρ : Type}

/-- The loop, run for at most the given number of passes. It is `none` while it has not ended. -/
def runLoop (pass : σ → Outcome (Pass σ ρ)) : Nat → σ → Outcome (Option ρ)
  | 0, _ => .ok none
  | passes + 1, s => do
    match ← pass s with
    | .next s' => runLoop pass passes s'
    | .done r => return some r

variable {pass : σ → Outcome (Pass σ ρ)} {s s' : σ} {r : ρ} {passes : Nat}

theorem runLoop_next (h : pass s = .ok (.next s')) :
    runLoop pass (passes + 1) s = runLoop pass passes s' := by
  rw [runLoop, h]
  rfl

theorem runLoop_done (h : pass s = .ok (.done r)) :
    runLoop pass (passes + 1) s = .ok (some r) := by
  rw [runLoop, h]
  rfl

/-- A loop that has not failed has made its first pass. -/
theorem runLoop_succ_eq_ok {r : Option ρ} : runLoop pass (passes + 1) s = .ok r ↔
    (∃ s', pass s = .ok (.next s') ∧ runLoop pass passes s' = .ok r) ∨
      ∃ r', pass s = .ok (.done r') ∧ r = some r' := by
  rw [runLoop, Outcome.bind_eq_ok]
  constructor
  · rintro ⟨p, hp, h⟩
    cases p with
    | next s' => exact .inl ⟨s', hp, h⟩
    | done r' => exact .inr ⟨r', hp, (Outcome.ok.inj h).symm⟩
  · rintro (⟨s', hp, h⟩ | ⟨r', hp, rfl⟩)
    · exact ⟨_, hp, h⟩
    · exact ⟨_, hp, rfl⟩

/-- A loop whose passes do not fail does not fail. -/
theorem exists_runLoop (hpass : ∀ s, ∃ p, pass s = .ok p) (passes : Nat) (s : σ) :
    ∃ r, runLoop pass passes s = .ok r := by
  induction passes generalizing s with
  | zero => exact ⟨none, rfl⟩
  | succ passes ih =>
    obtain ⟨p, hp⟩ := hpass s
    cases p with
    | next s' =>
      rw [runLoop_next hp]
      exact ih s'
    | done r => exact ⟨some r, runLoop_done hp⟩

/-- The loop ends, after some number of passes, with `r`. -/
def EndsWith (pass : σ → Outcome (Pass σ ρ)) (s : σ) (r : ρ) : Prop :=
  ∃ passes, runLoop pass passes s = .ok (some r)

theorem endsWith_next (h : pass s = .ok (.next s')) : EndsWith pass s r ↔ EndsWith pass s' r := by
  constructor
  · rintro ⟨_ | passes, hrun⟩
    · cases hrun
    · exact ⟨passes, runLoop_next h ▸ hrun⟩
  · rintro ⟨passes, hrun⟩
    exact ⟨passes + 1, (runLoop_next h).trans hrun⟩

theorem endsWith_done {r' : ρ} (h : pass s = .ok (.done r')) : EndsWith pass s r ↔ r = r' := by
  constructor
  · rintro ⟨_ | passes, hrun⟩
    · cases hrun
    · rw [runLoop_done h, Outcome.ok.injEq, Option.some.injEq] at hrun
      exact hrun.symm
  · rintro rfl
    exact ⟨1, runLoop_done h⟩

theorem not_endsWith_of_undefined (h : pass s = .undefined) : ¬ EndsWith pass s r := by
  rintro ⟨_ | passes, hrun⟩
  · cases hrun
  · rw [runLoop, h] at hrun
    cases hrun

/-- A pass that goes on where its check holds, and fails where it does not. -/
theorem endsWith_check {p : Prop} (hok : p → pass s = .ok (.next s'))
    (hfail : ¬ p → pass s = .undefined) : EndsWith pass s r ↔ p ∧ EndsWith pass s' r := by
  by_cases hp : p
  · rw [endsWith_next (hok hp), and_iff_right hp]
  · exact iff_of_false (not_endsWith_of_undefined (hfail hp)) fun h => hp h.1

/-- The states of the loop before its passes. -/
def loopSystem (pass : σ → Outcome (Pass σ ρ)) (start : σ) : System σ where
  init s := s = start
  step s s' := pass s = .ok (.next s')

/-- What holds at the start and is kept by every pass holds before every pass. -/
theorem loopSystem_invariant {I : σ → Prop} {start : σ}
    (hnext : ∀ s s', I s → pass s = .ok (.next s') → I s') (hstart : I start)
    (h : (loopSystem pass start).Reachable s) : I s := by
  refine h.invariant (fun s₀ hs₀ => ?_) fun s s' hs hstep => hnext s s' hs hstep
  rw [show s₀ = start from hs₀]
  exact hstart

/-- What every pass keeps holds when the loop ends. -/
theorem runLoop_inv {I : σ → Prop} (hnext : ∀ s s', I s → pass s = .ok (.next s') → I s')
    (hs : I s) (h : runLoop pass passes s = .ok (some r)) :
    ∃ t, I t ∧ pass t = .ok (.done r) := by
  induction passes generalizing s with
  | zero => cases h
  | succ passes ih =>
    rcases runLoop_succ_eq_ok.mp h with ⟨s', hp, hrest⟩ | ⟨r', hp, hr⟩
    · exact ih (hnext s s' hs hp) hrest
    · rw [Option.some.injEq] at hr
      exact ⟨s, hs, by rw [hp, hr]⟩

/-- A loop with a variant ends within so many passes. -/
theorem runLoop_of_variant {I : σ → Prop} (variant : σ → Nat)
    (hpass : ∀ s, I s → (∃ r, pass s = .ok (.done r)) ∨
      ∃ s', pass s = .ok (.next s') ∧ I s' ∧ variant s' < variant s)
    (hs : I s) (hpasses : variant s < passes) : ∃ r, runLoop pass passes s = .ok (some r) := by
  induction passes generalizing s with
  | zero => omega
  | succ passes ih =>
    rcases hpass s hs with ⟨r, hp⟩ | ⟨s', hp, hs', hlt⟩
    · exact ⟨r, runLoop_done hp⟩
    · rw [runLoop_next hp]
      exact ih hs' (by omega)

/-- A loop that goes through the states it is said to. -/
theorem runLoop_of_states (S : Nat → σ) {n : Nat}
    (hnext : ∀ k < n, pass (S k) = .ok (.next (S (k + 1)))) (hdone : pass (S n) = .ok (.done r))
    (hpasses : n < passes) : runLoop pass passes (S 0) = .ok (some r) := by
  induction n generalizing S passes with
  | zero =>
    obtain ⟨passes, rfl⟩ := Nat.exists_eq_succ_of_ne_zero hpasses.ne'
    exact runLoop_done hdone
  | succ n ih =>
    obtain ⟨passes, rfl⟩ := Nat.exists_eq_succ_of_ne_zero (show passes ≠ 0 by omega)
    rw [runLoop_next (hnext 0 (Nat.succ_pos n))]
    exact ih (fun k => S (k + 1)) (fun k hk => hnext (k + 1) (by omega)) hdone (by omega)

end While

end Alus.Lib
