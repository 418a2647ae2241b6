import Mathlib.Data.Int.Basic
import Mathlib.Data.List.Basic
import Mathlib.Logic.Function.Basic
import Mathlib.Order.Basic
import Mathlib.Tactic.LinearCombination
import Mathlib.Tactic.Ring

/-!
# Mirrored borders

A line of `n` elements is continued over its ends by reflection: the elements come back in the
opposite order, the one at the border first, and so on with the period `2 * n`. A buffer is filled
in this way by copies within it, one border after the other; a copy can only hand on what is there
when it is made.
-/

namespace Alus.Lib

/-! ## Copies within a memory -/

section Copies

variable {κ α : Type*} [DecidableEq κ]

/-- `m[w.1] = m[w.2]` for the moves of the list, one after another. -/
def copyCells (moves : List (κ × κ)) (m : κ → α) : κ → α :=
  moves.foldl (fun m w => Function.update m w.1 (m w.2)) m

theorem copyCells_cons (w : κ × κ) (moves : List (κ × κ)) (m : κ → α) :
    copyCells (w :: moves) m = copyCells moves (Function.update m w.1 (m w.2)) := rfl

theorem copyCells_kept {moves : List (κ × κ)} {k : κ} (h : ∀ w ∈ moves, w.1 ≠ k) (m : κ → α) :
    copyCells moves m k = m k := by
  induction moves generalizing m with
  | nil => rfl
  | cons w moves ih =>
    rw [copyCells_cons, ih fun v hv => h v (List.mem_cons_of_mem w hv)]
    exact Function.update_of_ne (h w List.mem_cons_self).symm _ m

/-- Where nothing is read that is written, a cell holds what its move reads from the first
memory. -/
theorem copyCells_of_mem {moves : List (κ × κ)} (hread : ∀ v ∈ moves, ∀ w ∈ moves, v.1 ≠ w.2)
    (hsame : ∀ v ∈ moves, ∀ w ∈ moves, v.1 = w.1 → v.2 = w.2) {w : κ × κ} (hw : w ∈ moves)
    (m : κ → α) : copyCells moves m w.1 = m w.2 := by
  induction moves generalizing m w with
  | nil => cases hw
  | cons v moves ih =>
    have hread' : ∀ u ∈ moves, ∀ w ∈ moves, u.1 ≠ w.2 := fun u hu w hw =>
      hread u (List.mem_cons_of_mem v hu) w (List.mem_cons_of_mem v hw)
    have hsame' : ∀ u ∈ moves, ∀ w ∈ moves, u.1 = w.1 → u.2 = w.2 := fun u hu w hw =>
      hsame u (List.mem_cons_of_mem v hu) w (List.mem_cons_of_mem v hw)
    have hunwritten : Function.update m v.1 (m v.2) w.2 = m w.2 :=
      Function.update_of_ne (hread v List.mem_cons_self w hw).symm _ m
    rw [copyCells_cons]
    by_cases hlater : ∃ u ∈ moves, u.1 = w.1
    -- the last move to the cell reads the same
    · obtain ⟨u, hu, heq⟩ := hlater
      have hsource : u.2 = w.2 := hsame u (List.mem_cons_of_mem v hu) w hw heq
      have hcopied := ih hread' hsame' hu (Function.update m v.1 (m v.2))
      rwa [heq, hsource, hunwritten] at hcopied
    · have hlast : ∀ u ∈ moves, u.1 ≠ w.1 := fun u hu heq => hlater ⟨u, hu, heq⟩
      have hfirst : w = v := by
        rcases List.mem_cons.mp hw with heq | hmem
        · exact heq
        · exact absurd rfl (hlast w hmem)
      rw [copyCells_kept hlast, hfirst, Function.update_self]

end Copies

/-! ## Reflection -/

/-- The element of a line of `n` at position `i`, when the line is reflected at its ends. -/
def reflect (n : Nat) (i : Int) : Nat :=
  let k := (i % (2 * n)).toNat
  if k < n then k else 2 * n - 1 - k

section Reflect

variable {n : Nat}

theorem reflect_lt (hn : 0 < n) (i : Int) : reflect n i < n := by
  have hlow := Int.emod_nonneg i (show (2 * n : Int) ≠ 0 by omega)
  have hhigh := Int.emod_lt_of_pos i (show (0 : Int) < 2 * n by omega)
  simp only [reflect]
  split <;> omega

theorem reflect_of_mem {i : Int} (hlow : 0 ≤ i) (hhigh : i < n) : reflect n i = i.toNat := by
  have hmod : i % (2 * n) = i := Int.emod_eq_of_lt hlow (by omega)
  simp only [reflect, hmod]
  exact if_pos (by omega)

theorem reflect_add_period (i : Int) : reflect n (i + 2 * n) = reflect n i := by
  simp only [reflect, Int.add_emod_right]

/-- The position before the line as far as `i` is behind its beginning. -/
theorem reflect_neg (hn : 0 < n) (i : Int) : reflect n (-1 - i) = reflect n i := by
  have hlow := Int.emod_nonneg i (show (2 * n : Int) ≠ 0 by omega)
  have hhigh := Int.emod_lt_of_pos i (show (0 : Int) < 2 * n by omega)
  have hmod : (-1 - i) % (2 * n) = 2 * n - 1 - i % (2 * n) := by
    have hsplit : -1 - i = 2 * n - 1 - i % (2 * n) + 2 * n * (-(i / (2 * n)) - 1) := by
      have hdiv := Int.emod_add_mul_ediv i (2 * n)
      linear_combination hdiv
    rw [hsplit, Int.add_mul_emod_self_left]
    exact Int.emod_eq_of_lt (by omega) (by omega)
  simp only [reflect, hmod]
  split <;> split <;> omega

/-- The position behind the line as far as `i` is before its end. -/
theorem reflect_mirror (hn : 0 < n) (i : Int) : reflect n (2 * n - 1 - i) = reflect n i := by
  rw [show 2 * (n : Int) - 1 - i = -1 - i + 2 * n by ring, reflect_add_period, reflect_neg hn]

end Reflect

/-! ## Filling the borders -/

section Borders

variable {β : Type*} {left n : Nat}

/-- A line behind `left` elements of border. -/
def centred (left n : Nat) (line : Nat → β) (unfilled : β) (c : Nat) : β :=
  if left ≤ c ∧ c < left + n then line (c - left) else unfilled

/-- The elements before `left` are those after it. -/
def fillBefore (left : Nat) (e : Nat → β) (c : Nat) : β :=
  if c < left then e (2 * left - 1 - c) else e c

/-- The elements from `stop` on are those before it. -/
def fillAfter (stop : Nat) (e : Nat → β) (c : Nat) : β :=
  if stop ≤ c then e (2 * stop - 1 - c) else e c

/-- Where the border before the line is filled first, the reflection reaches as far as one line
before it, and two behind it. -/
theorem fillAfter_fillBefore (hn : 0 < n) (line : Nat → β) (unfilled : β) {c : Nat}
    (hc : c < 2 * (left + n)) :
    fillAfter (left + n) (fillBefore left (centred left n line unfilled)) c =
      if -(n : Int) ≤ (c : Int) - left ∧ (c : Int) - left < 3 * n then
        line (reflect n ((c : Int) - left)) else unfilled := by
  -- what the first two passes leave before the end of the line
  have hbefore : ∀ q : Int, -(left : Int) ≤ q → q < n →
      fillBefore left (centred left n line unfilled) (left + q).toNat =
        if -(n : Int) ≤ q then line (reflect n q) else unfilled := by
    intro q hlow hhigh
    unfold fillBefore centred
    by_cases hneg : q < 0
    · rw [if_pos (by omega)]
      by_cases hreach : -(n : Int) ≤ q
      · rw [if_pos hreach, if_pos (by omega), show q = -1 - (-1 - q) by ring, reflect_neg hn,
          reflect_of_mem (by omega) (by omega)]
        congr 1
        omega
      · rw [if_neg hreach, if_neg (by omega)]
    · rw [if_neg (by omega), if_pos (by omega), if_pos (by omega),
        reflect_of_mem (by omega) hhigh]
      congr 1
      omega
  unfold fillAfter
  by_cases hend : left + n ≤ c
  · rw [if_pos hend]
    have hvalue := hbefore (2 * n - 1 - ((c : Int) - left)) (by omega) (by omega)
    rw [show (left + (2 * n - 1 - ((c : Int) - left))).toNat = 2 * (left + n) - 1 - c by omega,
      reflect_mirror hn] at hvalue
    rw [hvalue]
    refine if_congr ?_ rfl rfl
    omega
  · rw [if_neg hend]
    have hvalue := hbefore ((c : Int) - left) (by omega) (by omega)
    rw [show (left + ((c : Int) - left)).toNat = c by omega] at hvalue
    rw [hvalue]
    refine if_congr ?_ rfl rfl
    omega

end Borders

end Alus.Lib
