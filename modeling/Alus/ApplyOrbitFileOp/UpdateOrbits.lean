import Alus.ApplyOrbitFileOp.OrbitStateVectors

/-!
# Retrieving an orbit file, or one of another type

`ApplyOrbitFileOp::UpdateOrbits` (`apply_orbit_file_op.cc`) retrieves an orbit file of the requested
type. Where that throws, a loop over the available types is meant to try the others. Its test is the
negation of the position at which the requested type starts with the other one, and that is zero
where it does.

Retrieving an orbit file is a parameter.
-/

namespace Alus.ApplyOrbitFileOp

open Alus.Lib
open Alus.S1tbx (Utc)
open Alus.SnapEngine

/-! ## The operator -/

section Computation

variable {R : Type} [Field R] [LinearOrder R] [FloorRing R]

/-- What the operator asks an orbit provider for once a file is retrieved. -/
structure OrbitData (R : Type) where
  filename : List Char
  getOrbitData : R → Outcome (Alus.S1tbx.OrbitVector R)

/-- `SetAttributeString`. The conversion to another type of data is not modelled. -/
def setAttributeString (root : MetadataElement R) (name value : List Char) :
    Outcome (MetadataElement R) :=
  root.setAttribute name (.other []) fun
    | .other _ => .ok (.other value)
    | _ => .undefined

/-- `UpdateOrbitStateVectors`. The file is noted under the requested type. -/
def updateOrbitStateVectors (alloc : Nat → Nat) (firstLineTime lastLineTime : Utc)
    (orbitType : List Char) (orbit : OrbitData R) (tgtAbsRoot : MetadataElement R) :
    Outcome (MetadataElement R) := do
  let orbitStateVectors ← computeOrbitStateVectors orbit.getOrbitData firstLineTime lastLineTime
  let tgtAbsRoot ← AbstractMetadata.setOrbitStateVectors alloc tgtAbsRoot orbitStateVectors
  let orbType := orbitType.takeWhile (· ≠ '(')
  setAttributeString tgtAbsRoot "orbit_state_vector_file".toList
    (orbType ++ ' ' :: orbit.filename)

end Computation

/-- `RESTITUTED`. -/
def restituted : List Char := "Sentinel Restituted".toList

/-- `PRECISE`. -/
def precise : List Char := "Sentinel Precise".toList

/-- `GetAvailableOrbitTypes`. -/
def getAvailableOrbitTypes : List (List Char) := [restituted, precise]

/-- `text.rfind(pattern, 0)`. -/
def rfindAtStart (text pattern : List Char) : Nat :=
  if pattern.isPrefixOf text then 0 else 2 ^ 64 - 1

section Orbits

variable {D M : Type}

/-- The types that `RetrieveOrbitFile` was called for, and the orbit file of the last call where it
did not throw. -/
structure Attempts (D : Type) where
  types : List (List Char)
  used : Option D

/-- The loop in the handler. -/
def tryAnotherType (retrieveOrbitFile : List Char → Option D) (orbitType : List Char) :
    List (List Char) → Attempts D → Attempts D
  | [], attempts => attempts
  | type :: types, attempts =>
    if rfindAtStart orbitType type = 0 then
      match retrieveOrbitFile type with
      | some orbit => tryAnotherType retrieveOrbitFile orbitType types
          ⟨attempts.types ++ [type], some orbit⟩
      | none => ⟨attempts.types ++ [type], none⟩
    else tryAnotherType retrieveOrbitFile orbitType types attempts

/-- The calls of `RetrieveOrbitFile` by `UpdateOrbits`. -/
def retrieveAttempts (retrieveOrbitFile : List Char → Option D) (orbitType : List Char) :
    Attempts D :=
  match retrieveOrbitFile orbitType with
  | some orbit => ⟨[orbitType], some orbit⟩
  | none =>
    tryAnotherType retrieveOrbitFile orbitType getAvailableOrbitTypes ⟨[orbitType], none⟩

/-- How `UpdateOrbits` ends. What `UpdateOrbitStateVectors` leaves where it does not return is not
followed. -/
inductive UpdateEnd (M : Type) where
  | returns (metadata : M) (productUpdated : Bool)
  | rethrows (metadata : M) (productUpdated : Bool)
  | updateFails

/-- The calls of `RetrieveOrbitFile` and the end. -/
structure UpdateRun (M : Type) where
  attempts : List (List Char)
  ending : UpdateEnd M

/-- `UpdateOrbitStateVectors(); product_updated_ = true;`. -/
def endOfUpdate : Outcome M → UpdateEnd M
  | .ok metadata => .returns metadata true
  | _ => .updateFails

/-- `UpdateOrbits`, with `UpdateOrbitStateVectors` for an orbit. -/
def updateOrbits (retrieveOrbitFile : List Char → Option D) (update : D → M → Outcome M)
    (orbitType : List Char) (productUpdated : Bool) (metadata : M) : UpdateRun M :=
  if productUpdated then ⟨[], .returns metadata productUpdated⟩
  else
    let attempts := retrieveAttempts retrieveOrbitFile orbitType
    match attempts.used with
    | none => ⟨attempts.types, .rethrows metadata productUpdated⟩
    | some orbit => ⟨attempts.types, endOfUpdate (update orbit metadata)⟩

/-! ## What is promised -/

/-- The types one after the other, up to the first that succeeds. -/
def tryInOrder (retrieveOrbitFile : List Char → Option D) : List (List Char) → Attempts D
  | [] => ⟨[], none⟩
  | type :: types =>
    match retrieveOrbitFile type with
    | some orbit => ⟨[type], some orbit⟩
    | none =>
      let attempts := tryInOrder retrieveOrbitFile types
      ⟨type :: attempts.types, attempts.used⟩

/-- The available types that the requested one is not a variant of. -/
def otherTypes (orbitType : List Char) : List (List Char) :=
  getAvailableOrbitTypes.filter fun type => !type.isPrefixOf orbitType

/-- The requested type is tried, then the others in order, and the first that succeeds is used.
Where none does, an exception is thrown and the metadata is unchanged. -/
def FallsBack (retrieveOrbitFile : List Char → Option D) (orbitType : List Char) : Prop :=
  ∀ {M : Type} (update : D → M → Outcome M) (metadata : M),
    let promised := tryInOrder retrieveOrbitFile (orbitType :: otherTypes orbitType)
    let run := updateOrbits retrieveOrbitFile update orbitType false metadata
    run.attempts = promised.types ∧
      run.ending = match promised.used with
        | none => .rethrows metadata false
        | some orbit => endOfUpdate (update orbit metadata)

/-! ## The calls -/

variable {retrieveOrbitFile : List Char → Option D} {orbitType : List Char}

/-- The loop tries what the requested type starts with, and nothing else. -/
theorem mem_tryAnotherType {types : List (List Char)} {attempts : Attempts D} {type : List Char}
    (h : type ∈ (tryAnotherType retrieveOrbitFile orbitType types attempts).types) :
    type ∈ attempts.types ∨ type.isPrefixOf orbitType = true := by
  induction types generalizing attempts with
  | nil => exact .inl h
  | cons type' types ih =>
    unfold tryAnotherType at h
    split at h
    · next hprefix =>
      have hstart : type'.isPrefixOf orbitType = true := by
        unfold rfindAtStart at hprefix
        split at hprefix
        · assumption
        · exact absurd hprefix (by decide)
      have hlast : type ∈ attempts.types ++ [type'] →
          type ∈ attempts.types ∨ type.isPrefixOf orbitType = true := by
        intro hmem
        cases List.mem_append.mp hmem with
        | inl hmem => exact .inl hmem
        | inr hmem => exact .inr (List.mem_singleton.mp hmem ▸ hstart)
      split at h
      · cases ih h with
        | inl hmem => exact hlast hmem
        | inr hother => exact .inr hother
      · exact hlast h
    · exact ih h

/-- No type starts with both available ones. -/
theorem otherTypes_ne_nil (orbitType : List Char) : otherTypes orbitType ≠ [] := by
  intro hnil
  have hall := List.filter_eq_nil_iff.mp hnil
  have hrestituted : restituted <+: orbitType := by
    simpa using hall restituted List.mem_cons_self
  have hprecise : precise <+: orbitType := by
    simpa using hall precise (List.mem_cons_of_mem _ List.mem_cons_self)
  cases List.prefix_or_prefix_of_prefix hrestituted hprecise with
  | inl h => exact absurd h (by decide)
  | inr h => exact absurd h (by decide)

/-- Where the requested type fails, the loop is entered. -/
theorem retrieveAttempts_of_isNone (h : (retrieveOrbitFile orbitType).isNone = true) :
    retrieveAttempts retrieveOrbitFile orbitType =
      tryAnotherType retrieveOrbitFile orbitType getAvailableOrbitTypes ⟨[orbitType], none⟩ := by
  unfold retrieveAttempts
  rw [Option.isNone_iff_eq_none.mp h]

/-- Where no orbit file is retrieved the metadata stays as it was. -/
theorem updateOrbits_of_used_eq_none (update : D → M → Outcome M) (metadata : M)
    (h : (retrieveAttempts retrieveOrbitFile orbitType).used = none) :
    (updateOrbits retrieveOrbitFile update orbitType false metadata).ending =
      .rethrows metadata false := by
  unfold updateOrbits
  rw [if_neg Bool.false_ne_true]
  simp only [h]

/-- The calls do not depend on the metadata. -/
theorem updateOrbits_attempts (update : D → M → Outcome M) (metadata : M) :
    (updateOrbits retrieveOrbitFile update orbitType false metadata).attempts =
      (retrieveAttempts retrieveOrbitFile orbitType).types := by
  unfold updateOrbits
  rw [if_neg Bool.false_ne_true]
  dsimp only
  split
  · rfl
  · rfl

theorem tryInOrder_cons_of_isNone (h : (retrieveOrbitFile orbitType).isNone = true)
    (types : List (List Char)) :
    (tryInOrder retrieveOrbitFile (orbitType :: types)).types =
      orbitType :: (tryInOrder retrieveOrbitFile types).types := by
  rw [tryInOrder, Option.isNone_iff_eq_none.mp h]

/-- The first of the types is tried. -/
theorem mem_tryInOrder_head (type : List Char) (types : List (List Char)) :
    type ∈ (tryInOrder retrieveOrbitFile (type :: types)).types := by
  rw [tryInOrder]
  split
  · exact List.mem_cons_self
  · exact List.mem_cons_self

/-- Where the requested type fails, a type that is promised to be tried next is not. -/
theorem not_fallsBack (h : (retrieveOrbitFile orbitType).isNone = true) :
    ¬ FallsBack retrieveOrbitFile orbitType := by
  intro hfalls
  obtain ⟨type, types, hothers⟩ := List.exists_cons_of_ne_nil (otherTypes_ne_nil orbitType)
  have hother : type.isPrefixOf orbitType = false := by
    have hmem : type ∈ otherTypes orbitType := by
      rw [hothers]
      exact List.mem_cons_self
    simpa using (List.mem_filter.mp hmem).2
  -- the promise has the other type as its second call
  have hpromised : type ∈
      (tryInOrder retrieveOrbitFile (orbitType :: otherTypes orbitType)).types := by
    rw [hothers, tryInOrder_cons_of_isNone h]
    exact List.mem_cons_of_mem _ (mem_tryInOrder_head type types)
  have hattempts := (hfalls (fun _ _ => .ok ()) ()).1
  rw [updateOrbits_attempts, retrieveAttempts_of_isNone h] at hattempts
  rw [← hattempts] at hpromised
  cases mem_tryAnotherType hpromised with
  | inl hrequested =>
    rw [List.mem_singleton.mp hrequested] at hother
    rw [List.isPrefixOf_iff_prefix.mpr (List.prefix_refl orbitType)] at hother
    cases hother
  | inr hstart =>
    rw [hstart] at hother
    cases hother

/-- **Another type is never tried**: the promise is kept exactly where the requested type
succeeds. -/
theorem fallsBack_iff (retrieveOrbitFile : List Char → Option D) (orbitType : List Char) :
    FallsBack retrieveOrbitFile orbitType ↔ (retrieveOrbitFile orbitType).isSome = true := by
  cases hrequested : retrieveOrbitFile orbitType with
  | none =>
    have hnone : (retrieveOrbitFile orbitType).isNone = true := by
      rw [hrequested]
      rfl
    exact iff_of_false (not_fallsBack hnone) Bool.false_ne_true
  | some orbit =>
    apply iff_of_true _ rfl
    intro M update metadata
    unfold updateOrbits retrieveAttempts tryInOrder
    rw [if_neg Bool.false_ne_true, hrequested]
    exact ⟨rfl, rfl⟩

/-- Only a restituted orbit is there, a precise one is requested. -/
theorem not_fallsBack_precise :
    ¬ FallsBack (fun type => if type = restituted then some () else none) precise :=
  not_fallsBack (by decide)

end Orbits

/-! ## The orbit state vectors of the product -/

section Computation

variable {R : Type} [Field R] [LinearOrder R] [FloorRing R]

/-- `UpdateOrbits` of a product's metadata. -/
def updateProductOrbits (alloc : Nat → Nat) (firstLineTime lastLineTime : Utc)
    (retrieveOrbitFile : List Char → Option (OrbitData R)) (orbitType : List Char)
    (productUpdated : Bool) (absRoot : MetadataElement R) : UpdateRun (MetadataElement R) :=
  updateOrbits retrieveOrbitFile
    (updateOrbitStateVectors alloc firstLineTime lastLineTime orbitType)
    orbitType productUpdated absRoot

/-- Where every type fails, the state vectors of the product are those it had. -/
theorem updateProductOrbits_of_forall_isNone (alloc : Nat → Nat) (firstLineTime lastLineTime : Utc)
    {retrieveOrbitFile : List Char → Option (OrbitData R)} (orbitType : List Char)
    (absRoot : MetadataElement R) (h : ∀ type, retrieveOrbitFile type = none) :
    (updateProductOrbits alloc firstLineTime lastLineTime retrieveOrbitFile orbitType false
      absRoot).ending = .rethrows absRoot false := by
  apply updateOrbits_of_used_eq_none
  rw [retrieveAttempts_of_isNone (by rw [h]; rfl)]
  -- whatever has been tried, nothing is used
  have hloop : ∀ (types : List (List Char)) (tried : List (List Char)),
      (tryAnotherType retrieveOrbitFile orbitType types ⟨tried, none⟩).used = none := by
    intro types tried
    induction types with
    | nil => rfl
    | cons type types ih =>
      unfold tryAnotherType
      rw [h]
      split
      · rfl
      · exact ih
  exact hloop getAvailableOrbitTypes [orbitType]

end Computation

end Alus.ApplyOrbitFileOp
