import Mathlib.Data.List.Basic

/-!
# Device buffers

`CudaPtr` (`cuda_ptr.h`), also called `DeviceBuffer`, and the copies between it and a buffer of the
host (`cuda_copies.h`). What an allocation holds is not defined until something is copied there; a
copy beyond the end of either buffer is not defined at all.
-/

namespace Alus.Cuda

variable {F : Type*}

/-- The first `n` elements of a buffer become those of another. -/
def memcpy (n : Nat) (src dst : List (Option F)) : Option (List (Option F)) :=
  if n ≤ src.length ∧ n ≤ dst.length then some (src.take n ++ dst.drop n) else none

theorem memcpy_of_le {n : Nat} (src dst : List (Option F)) (hsrc : n ≤ src.length)
    (hdst : n ≤ dst.length) :
    ∃ copied, memcpy n src dst = some copied ∧ copied.length = dst.length ∧
      copied.take n = src.take n := by
  refine ⟨src.take n ++ dst.drop n, if_pos ⟨hsrc, hdst⟩, ?_, ?_⟩
  · rw [List.length_append, List.length_take, List.length_drop]
    omega
  · rw [List.take_append_of_le_length (by rw [List.length_take]; omega), List.take_take,
      Nat.min_self]

/-- `CudaPtr`; its capacity is the number of its cells. -/
structure DeviceBuffer (F : Type*) where
  elemCount : Nat
  cells : List (Option F)
  elemCount_le : elemCount ≤ cells.length

namespace DeviceBuffer

variable (buffer : DeviceBuffer F)

/-- `CudaPtr()`. -/
def empty : DeviceBuffer F := ⟨0, [], Nat.le_refl 0⟩

/-- `Resize`. It avoids reallocating if possible. -/
def resize (size : Nat) : DeviceBuffer F :=
  if h : size > buffer.cells.length then
    ⟨size, List.replicate size none, Nat.le_of_eq List.length_replicate.symm⟩
  else
    ⟨size, buffer.cells, Nat.le_of_not_lt h⟩

/-- A copy to the buffer. -/
def store (n : Nat) (src : List (Option F)) : Option (DeviceBuffer F) :=
  if h : n ≤ src.length ∧ n ≤ buffer.cells.length then
    some ⟨buffer.elemCount, src.take n ++ buffer.cells.drop n, by
      have hcount := buffer.elemCount_le
      rw [List.length_append, List.length_take, List.length_drop]
      omega⟩
  else
    none

/-- The elements, if they are all defined. -/
def values : Option (List F) := (buffer.cells.take buffer.elemCount).mapM id

@[simp] theorem elemCount_resize (size : Nat) : (buffer.resize size).elemCount = size := by
  unfold resize
  split <;> rfl

theorem le_length_resize (size : Nat) : size ≤ (buffer.resize size).cells.length := by
  have h := (buffer.resize size).elemCount_le
  rwa [elemCount_resize] at h

theorem mapM_map_some (elements : List F) : (elements.map some).mapM id = some elements := by
  induction elements with
  | nil => rfl
  | cons element elements ih => simp [List.mapM_cons, ih]

/-- After the copy these elements are what the buffer begins with. -/
theorem store_take (elements : List F) (src : List (Option F))
    (hcells : elements.length ≤ buffer.cells.length)
    (hsrc : src.take elements.length = elements.map some) :
    ∃ stored, buffer.store elements.length src = some stored ∧
      stored.elemCount = buffer.elemCount ∧
      stored.cells.take elements.length = elements.map some := by
  have hlength := congrArg List.length hsrc
  rw [List.length_take, List.length_map] at hlength
  refine ⟨_, dif_pos ⟨by omega, hcells⟩, rfl, ?_⟩
  rw [List.take_append_of_le_length (by rw [List.length_take]; omega), List.take_take,
    Nat.min_self, hsrc]

/-- The copy of as many elements as the buffer has. -/
theorem store_elements (elements : List F) (src : List (Option F))
    (hcount : buffer.elemCount = elements.length)
    (hsrc : src.take elements.length = elements.map some) :
    ∃ stored, buffer.store elements.length src = some stored ∧
      stored.elemCount = elements.length ∧
      stored.cells.take elements.length = elements.map some := by
  obtain ⟨stored, hstored, hsame, htake⟩ :=
    buffer.store_take elements src (hcount ▸ buffer.elemCount_le) hsrc
  exact ⟨stored, hstored, hsame.trans hcount, htake⟩

theorem values_eq {buffer : DeviceBuffer F} {elements : List F}
    (hcount : buffer.elemCount = elements.length)
    (hcells : buffer.cells.take elements.length = elements.map some) :
    buffer.values = some elements := by
  rw [values, hcount, hcells, mapM_map_some]

end DeviceBuffer

end Alus.Cuda
