import Mathlib.Data.Nat.Basic

/-!
# Windows a stride apart

Windows of one size start a stride apart, as long as they start before a limit, and are cut off at
it. With a stride that is not longer than the windows they leave nothing out, and a window and the
next one share what the windows are longer than the stride, or the whole next one where the limit
leaves less of it.
-/

namespace Alus.Lib

structure Strides where
  limit : Nat
  size : Nat
  stride : Nat
  stride_pos : 0 < stride
  stride_le : stride ≤ size

namespace Strides

variable (w : Strides)

def start (k : Nat) : Nat := k * w.stride

def stop (k : Nat) : Nat := min (w.start k + w.size) w.limit

/-- How many windows start before the limit. -/
def count : Nat := (w.limit + w.stride - 1) / w.stride

/-- What a window and the next one share, away from the limit. -/
def overlap : Nat := w.size - w.stride

variable {w} {k k' : Nat}

theorem start_zero : w.start 0 = 0 := Nat.zero_mul w.stride

theorem start_succ (k : Nat) : w.start (k + 1) = w.start k + w.stride :=
  Nat.succ_mul k w.stride

theorem start_le_start (h : k ≤ k') : w.start k ≤ w.start k' := Nat.mul_le_mul_right w.stride h

theorem start_lt_start (h : k < k') : w.start k + w.stride ≤ w.start k' := by
  rw [← start_succ]
  exact start_le_start h

theorem lt_count : k < w.count ↔ w.start k < w.limit := by
  have hpos := w.stride_pos
  rw [count, Nat.lt_iff_add_one_le, Nat.le_div_iff_mul_le hpos, start, Nat.succ_mul]
  omega

theorem count_le : w.count ≤ w.limit := by
  have hpos := w.stride_pos
  rw [count, Nat.div_le_iff_le_mul_add_pred hpos]
  have hle := Nat.le_mul_of_pos_left w.limit hpos
  omega

theorem start_lt_stop (h : k < w.count) : w.start k < w.stop k := by
  have hstart := lt_count.mp h
  have hpos := w.stride_pos
  have hle := w.stride_le
  rw [stop]
  omega

theorem stop_le (k : Nat) : w.stop k ≤ w.limit := min_le_right _ _

/-- No place before the limit is left out. -/
theorem exists_window {x : Nat} (hx : x < w.limit) :
    ∃ k < w.count, w.start k ≤ x ∧ x < w.stop k := by
  have hpos := w.stride_pos
  have hle := w.stride_le
  have hstart : w.start (x / w.stride) ≤ x := Nat.div_mul_le_self x w.stride
  have hnext : x < w.start (x / w.stride + 1) := by
    rw [start, Nat.succ_mul]
    exact Nat.lt_div_mul_add hpos
  rw [start_succ] at hnext
  refine ⟨x / w.stride, lt_count.mpr (by omega), hstart, ?_⟩
  rw [stop]
  omega

/-- A window ends in the next one, after what the two share. -/
theorem stop_sub_start_succ (h : k + 1 < w.count) :
    w.stop k = w.start (k + 1) + min w.overlap (w.stop (k + 1) - w.start (k + 1)) := by
  have hnext := lt_count.mp h
  have hpos := w.stride_pos
  have hle := w.stride_le
  rw [start_succ] at hnext
  rw [stop, stop, start_succ, overlap]
  omega

theorem stop_le_stop (h : k ≤ k') : w.stop k ≤ w.stop k' := by
  have hstart := start_le_start (w := w) h
  rw [stop, stop]
  omega

/-- With a stride that is longer than what two windows share, a window lies in another one when it
is the next one and the limit leaves no more of it than what they share. -/
theorem within_iff (hoverlap : w.overlap < w.stride) (hk : k < w.count) (hk' : k' < w.count) :
    (w.start k' ≤ w.start k ∧ w.stop k ≤ w.stop k') ↔
      k = k' ∨ k = k' + 1 ∧ w.stop k - w.start k ≤ w.overlap := by
  have hstart := lt_count.mp hk
  have hstart' := lt_count.mp hk'
  rcases Nat.lt_trichotomy k k' with hlt | rfl | hlt
  -- a later window starts later
  · have hbefore := start_lt_start (w := w) hlt
    have hpos := w.stride_pos
    omega
  · omega
  · rcases Nat.eq_or_lt_of_le (Nat.succ_le_of_lt hlt) with rfl | hfar
    · have hstop := stop_sub_start_succ hk
      have hnonempty := start_lt_stop hk
      rw [Nat.succ_eq_add_one, start_succ] at *
      omega
    -- two strides on, the window has ended before
    · have hbefore := start_lt_start (w := w) hfar
      rw [Nat.succ_eq_add_one, start_succ] at hbefore
      have hnonempty := start_lt_stop hk
      have hstop : w.stop k' ≤ w.start k' + w.size := min_le_left _ _
      rw [overlap] at hoverlap
      omega

end Strides

end Alus.Lib
