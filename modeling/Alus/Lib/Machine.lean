import Mathlib.Data.List.Basic
import Mathlib.Tactic.NormNum

/-!
# Machine arithmetic and its outcomes

A computation over `int` returns a value, throws, or runs into undefined behaviour: a signed
operation whose exact result does not fit, a conversion out of range, an index out of bounds.
Nothing is known of a run with an undefined outcome.
-/

namespace Alus.Lib

inductive Outcome (α : Type*) where
  | ok (a : α)
  | throws
  | undefined
  deriving DecidableEq, Repr

namespace Outcome

universe u

variable {α β : Type u}

def bind (x : Outcome α) (f : α → Outcome β) : Outcome β :=
  match x with
  | ok a => f a
  | throws => throws
  | undefined => undefined

instance : Monad Outcome where
  pure := ok
  bind := bind

instance : LawfulMonad Outcome :=
  LawfulMonad.mk' Outcome
    (fun x => by cases x <;> rfl) (fun _ _ => rfl) (fun x _ _ => by cases x <;> rfl)

@[simp] theorem ok_bind (a : α) (f : α → Outcome β) : (ok a >>= f) = f a := rfl

@[simp] theorem pure_eq (a : α) : (pure a : Outcome α) = ok a := rfl

/-- A sequence that ends with a value has a value at its first step. -/
theorem bind_eq_ok {x : Outcome α} {f : α → Outcome β} {b : β} :
    (x >>= f) = ok b ↔ ∃ a, x = ok a ∧ f a = ok b := by
  cases x with
  | ok a => exact ⟨fun h => ⟨a, rfl, h⟩, fun ⟨_, ha, h⟩ => ok.inj ha ▸ h⟩
  | throws => exact ⟨fun h => (nomatch h), fun ⟨_, ha, _⟩ => (nomatch ha)⟩
  | undefined => exact ⟨fun h => (nomatch h), fun ⟨_, ha, _⟩ => (nomatch ha)⟩

/-- A sequence that ends with a value, taken apart at its first step. -/
theorem of_bind_eq_ok {x : Outcome α} {f : α → Outcome β} {b : β} {p : Prop}
    (h : (x >>= f) = ok b) (hrest : ∀ a, x = ok a → f a = ok b → p) : p := by
  obtain ⟨a, hx, hf⟩ := bind_eq_ok.mp h
  exact hrest a hx hf

/-- A sequence throws where its first step does, or where the rest does. -/
theorem bind_eq_throws {x : Outcome α} {f : α → Outcome β} :
    (x >>= f) = throws ↔ x = throws ∨ ∃ a, x = ok a ∧ f a = throws := by
  cases x with
  | ok a => exact ⟨fun h => .inr ⟨a, rfl, h⟩, fun h => by simpa using h⟩
  | throws => exact ⟨fun _ => .inl rfl, fun _ => rfl⟩
  | undefined => exact ⟨fun h => (nomatch h), fun h => by simp at h⟩

/-- A check that throws. -/
def require (p : Prop) [Decidable p] : Outcome PUnit.{u + 1} :=
  if p then ok ⟨⟩ else throws

theorem require_of {p : Prop} [Decidable p] (h : p) : require p = ok ⟨⟩ := if_pos h

theorem require_of_not {p : Prop} [Decidable p] (h : ¬ p) : require p = throws := if_neg h

@[simp] theorem require_eq_ok {p : Prop} [Decidable p] {a : PUnit} : require p = ok a ↔ p := by
  unfold require
  split <;> simp_all

@[simp] theorem throws_bind (f : α → Outcome β) : ((throws : Outcome α) >>= f) = throws := rfl

@[simp] theorem undefined_bind (f : α → Outcome β) :
    ((undefined : Outcome α) >>= f) = undefined := rfl

/-- A sequence has no undefined outcome when none of its steps has one. -/
theorem bind_ne_undefined {x : Outcome α} {f : α → Outcome β} (hx : x ≠ undefined)
    (hf : ∀ a, x = ok a → f a ≠ undefined) : (x >>= f) ≠ undefined := by
  cases x with
  | ok a => exact hf a rfl
  | throws => exact fun h => (nomatch h)
  | undefined => exact absurd rfl hx

theorem require_ne_undefined (p : Prop) [Decidable p] :
    (require p : Outcome PUnit.{u + 1}) ≠ undefined := by
  unfold require
  split <;> nofun

/-- A loop has no undefined outcome when none of its rounds has one. -/
theorem foldlM_ne_undefined {f : α → β → Outcome α} {bs : List β}
    (h : ∀ b ∈ bs, ∀ a, f a b ≠ undefined) (a : α) : bs.foldlM f a ≠ undefined := by
  induction bs generalizing a with
  | nil => nofun
  | cons b bs ih =>
    rw [List.foldlM_cons]
    exact bind_ne_undefined (h b List.mem_cons_self a) fun a' _ =>
      ih (fun b' hb' => h b' (List.mem_cons_of_mem b hb')) a'

/-- The values of a loop, in order, when every round returns one. -/
def collect : List (Outcome α) → Outcome (List α)
  | [] => ok []
  | x :: xs => do
    let a ← x
    let as ← collect xs
    return a :: as

theorem collect_eq_ok {xs : List (Outcome α)} {as : List α} :
    collect xs = ok as ↔ xs = as.map ok := by
  induction xs generalizing as with
  | nil => cases as <;> simp [collect]
  | cons x xs ih =>
    simp only [collect, bind_eq_ok, pure_eq, ok.injEq]
    constructor
    · rintro ⟨a, rfl, as', hxs, rfl⟩
      rw [ih.mp hxs, List.map_cons]
    · intro h
      obtain ⟨a, as', rfl, hx, hxs⟩ := List.map_eq_cons_iff.mp h.symm
      exact ⟨a, hx.symm, as', ih.mpr hxs.symm, rfl⟩

/-- A loop whose rounds return values is the loop over these values. -/
theorem foldlM_eq_ok {f : α → β → Outcome α} {g : α → β → α} {bs : List β}
    (h : ∀ b ∈ bs, ∀ a, f a b = ok (g a b)) (a : α) : bs.foldlM f a = ok (bs.foldl g a) := by
  induction bs generalizing a with
  | nil => rfl
  | cons b bs ih =>
    rw [List.foldlM_cons, h b List.mem_cons_self, ok_bind, List.foldl_cons]
    exact ih (fun b' hb' => h b' (List.mem_cons_of_mem b hb')) (g a b)

/-- A loop whose state is determined by a list that its rounds append to. -/
theorem foldlM_listed {γ : Type*} {S : List γ → α} {f : α → β → Outcome α} {g : β → List γ}
    {bs : List β} (h : ∀ b ∈ bs, ∀ done, f (S done) b = ok (S (done ++ g b))) (done : List γ) :
    bs.foldlM f (S done) = ok (S (done ++ bs.flatMap g)) := by
  induction bs generalizing done with
  | nil => rw [List.foldlM_nil, pure_eq, List.flatMap_nil, List.append_nil]
  | cons b bs ih =>
    rw [List.foldlM_cons, h b List.mem_cons_self, ok_bind,
      ih (fun b' hb' => h b' (List.mem_cons_of_mem b hb')), List.flatMap_cons, List.append_assoc]

/-- A loop whose rounds append to a list. -/
theorem foldlM_push {f : List α → β → Outcome (List α)} {g : β → List α} {bs : List β}
    (h : ∀ b ∈ bs, ∀ as, f as b = ok (as ++ g b)) (as : List α) :
    bs.foldlM f as = ok (as ++ bs.flatMap g) :=
  foldlM_listed (S := id) h as

/-- A loop returns when each of its rounds does. -/
theorem exists_foldlM {f : α → β → Outcome α} {bs : List β}
    (h : ∀ a, ∀ b ∈ bs, ∃ a', f a b = ok a') (a : α) : ∃ a', bs.foldlM f a = ok a' := by
  induction bs generalizing a with
  | nil => exact ⟨a, rfl⟩
  | cons b bs ih =>
    obtain ⟨a₁, ha₁⟩ := h a b List.mem_cons_self
    rw [List.foldlM_cons, ha₁, ok_bind]
    exact ih (fun a b' hb' => h a b' (List.mem_cons_of_mem b hb')) a₁

/-- A loop that returns has run each of its rounds. -/
theorem ok_of_foldlM {f : α → β → Outcome α} {bs : List β} {a a' : α}
    (h : bs.foldlM f a = ok a') {b : β} (hb : b ∈ bs) : ∃ a₁ a₂, f a₁ b = ok a₂ := by
  obtain ⟨before, after, rfl⟩ := List.append_of_mem hb
  rw [List.foldlM_append, bind_eq_ok] at h
  obtain ⟨a₁, -, h⟩ := h
  rw [List.foldlM_cons, bind_eq_ok] at h
  obtain ⟨a₂, h, -⟩ := h
  exact ⟨a₁, a₂, h⟩

/-- What each round of a loop keeps holds after it. -/
theorem foldlM_inv {f : α → β → Outcome α} {bs : List β} (P : α → Prop)
    (hstep : ∀ a b a', b ∈ bs → P a → f a b = ok a' → P a') {a a' : α} (ha : P a)
    (h : bs.foldlM f a = ok a') : P a' := by
  induction bs generalizing a with
  | nil => exact ok.inj h ▸ ha
  | cons b bs ih =>
    rw [List.foldlM_cons, bind_eq_ok] at h
    obtain ⟨a₁, hfirst, hrest⟩ := h
    exact ih (fun a b' a' hb' => hstep a b' a' (List.mem_cons_of_mem b hb'))
      (hstep a b a₁ List.mem_cons_self ha hfirst) hrest

/-- A loop whose rounds append to a list without repetitions, each for an element that satisfies
`Q`. -/
theorem foldlM_append {f : List α → β → Outcome (List α)} {g : β → List α} {Q : β → Prop}
    {bs : List β}
    (hstep : ∀ as b as', b ∈ bs → f as b = ok as' →
      as' = as ++ g b ∧ (as.Nodup → as'.Nodup) ∧ Q b)
    {as as' : List α} (h : bs.foldlM f as = ok as') :
    as' = as ++ bs.flatMap g ∧ (as.Nodup → as'.Nodup) ∧ ∀ b ∈ bs, Q b := by
  induction bs generalizing as with
  | nil =>
    have hsame : as = as' := ok.inj h
    subst hsame
    exact ⟨by rw [List.flatMap_nil, List.append_nil], id, fun b hb => absurd hb List.not_mem_nil⟩
  | cons b bs ih =>
    rw [List.foldlM_cons, bind_eq_ok] at h
    obtain ⟨as₁, hfirst, hrest⟩ := h
    obtain ⟨happend, hnodup, hQ⟩ := hstep as b as₁ List.mem_cons_self hfirst
    obtain ⟨happend', hnodup', hQ'⟩ :=
      ih (fun as b' as' hb' => hstep as b' as' (List.mem_cons_of_mem b hb')) hrest
    refine ⟨?_, fun has => hnodup' (hnodup has), List.forall_mem_cons.mpr ⟨hQ, hQ'⟩⟩
    rw [happend', happend, List.flatMap_cons, List.append_assoc]

/-- The values of a loop whose rounds all return one, each at the position of its round. -/
theorem exists_collect_map {ι : Type u} {f : ι → Outcome α} {l : List ι}
    (h : ∀ i ∈ l, ∃ a, f i = ok a) : ∃ as, collect (l.map f) = ok as ∧
      ∀ (k : Nat) (i : ι), l[k]? = some i → ∃ a, as[k]? = some a ∧ f i = ok a := by
  induction l with
  | nil => exact ⟨[], rfl, fun k i hk => by simp at hk⟩
  | cons i l ih =>
    obtain ⟨a, ha⟩ := h i List.mem_cons_self
    obtain ⟨as, has, hat⟩ := ih fun i' hi' => h i' (List.mem_cons_of_mem i hi')
    refine ⟨a :: as, ?_, fun k i' hk => ?_⟩
    · rw [List.map_cons, collect, ha, ok_bind, has]
      rfl
    · cases k with
      | zero =>
        cases hk
        exact ⟨a, rfl, ha⟩
      | succ k => exact hat k i' hk

/-- The values of a loop whose rounds return these values. -/
theorem collect_map_eq_ok {ι : Type u} {f : ι → Outcome α} {g : ι → α} {l : List ι}
    (h : ∀ i ∈ l, f i = ok (g i)) : collect (l.map f) = ok (l.map g) := by
  rw [collect_eq_ok, List.map_map]
  exact List.map_congr_left h

/-- The value of an outcome, or the given one. -/
def getD : Outcome α → α → α
  | ok a, _ => a
  | _, default => default

theorem eq_ok_getD {x : Outcome α} {a : α} (h : x = ok a) (default : α) :
    x = ok (x.getD default) := by
  subst h
  rfl

/-- A loop that returns has a value in each of its rounds. -/
theorem of_collect_map {ι : Type u} {f : ι → Outcome α} {l : List ι} {as : List α}
    (h : collect (l.map f) = ok as) (default : α) :
    as = l.map (fun i => (f i).getD default) ∧ ∀ i ∈ l, f i = ok ((f i).getD default) := by
  rw [collect_eq_ok] at h
  have hround : ∀ i ∈ l, ∃ a, f i = ok a := by
    intro i hi
    obtain ⟨a, -, ha⟩ := List.mem_map.mp (h ▸ List.mem_map_of_mem hi)
    exact ⟨a, ha.symm⟩
  have heach : ∀ i ∈ l, f i = ok ((f i).getD default) := by
    intro i hi
    obtain ⟨a, ha⟩ := hround i hi
    exact eq_ok_getD ha default
  refine ⟨?_, heach⟩
  have hvalues : as.map ok = (l.map fun i => (f i).getD default).map ok := by
    rw [← h, List.map_map]
    exact List.map_congr_left heach
  exact List.map_injective_iff.mpr (fun a b hab => ok.inj hab) hvalues

theorem collect_ne_undefined {xs : List (Outcome α)} (h : ∀ x ∈ xs, x ≠ undefined) :
    collect xs ≠ undefined := by
  induction xs with
  | nil => nofun
  | cons x xs ih =>
    obtain ⟨hx, hxs⟩ := List.forall_mem_cons.mp h
    exact bind_ne_undefined hx fun _ _ => bind_ne_undefined (ih hxs) fun _ _ => nofun

theorem collect_eq_throws {xs : List (Outcome α)} (h : collect xs = throws) : throws ∈ xs := by
  induction xs with
  | nil => cases h
  | cons x xs ih =>
    simp only [collect, bind_eq_throws, pure_eq, reduceCtorEq, and_false, exists_false,
      or_false] at h
    rcases h with rfl | ⟨_, _, hxs⟩
    · exact List.mem_cons_self
    · exact List.mem_cons_of_mem _ (ih hxs)

end Outcome

/-! ## Signed integers -/

/-- The value fits a signed integer of `bits` bits. -/
def Fits (bits : Nat) (z : Int) : Prop :=
  -2 ^ (bits - 1) ≤ z ∧ z < 2 ^ (bits - 1)

instance (bits : Nat) (z : Int) : Decidable (Fits bits z) :=
  inferInstanceAs (Decidable (_ ∧ _))

theorem fits32_iff {z : Int} : Fits 32 z ↔ -2147483648 ≤ z ∧ z < 2147483648 := by
  unfold Fits
  norm_num

theorem fits16_iff {z : Int} : Fits 16 z ↔ -32768 ≤ z ∧ z < 32768 := by
  unfold Fits
  norm_num

/-- An `int` result: the exact one, when it fits. -/
def int32 (z : Int) : Outcome Int :=
  if Fits 32 z then .ok z else .undefined

/-- A conversion to `short`. -/
def int16 (z : Int) : Outcome Int :=
  if Fits 16 z then .ok z else .undefined

@[simp] theorem int32_eq_ok {z w : Int} : int32 z = .ok w ↔ Fits 32 z ∧ w = z := by
  unfold int32
  split
  · simp [*, eq_comm]
  · simp [*]

@[simp] theorem int16_eq_ok {z w : Int} : int16 z = .ok w ↔ Fits 16 z ∧ w = z := by
  unfold int16
  split
  · simp [*, eq_comm]
  · simp [*]

@[simp] theorem int32_ne_throws (z : Int) : int32 z ≠ .throws := by
  unfold int32
  split <;> simp

@[simp] theorem int16_ne_throws (z : Int) : int16 z ≠ .throws := by
  unfold int16
  split <;> simp

theorem int32_of_fits {z : Int} (h : Fits 32 z) : int32 z = .ok z := if_pos h

/-- A result in the range of `int` is computed. -/
theorem int32_of_bounds {z : Int} (hlow : -2147483648 ≤ z) (hhigh : z < 2147483648) :
    int32 z = .ok z :=
  int32_of_fits (fits32_iff.mpr ⟨hlow, hhigh⟩)

theorem int32_of_not_fits {z : Int} (h : ¬ Fits 32 z) : int32 z = .undefined := if_neg h

/-- A positive `int`. -/
abbrev PositiveInt := { z : Int // 0 < z ∧ z < 2147483648 }

/-! ## Vectors -/

section Vectors

universe u

variable {α : Type u}

/-- `v.at(i)`. -/
def vectorAt (v : List α) (i : Int) : Outcome α :=
  if 0 ≤ i then
    match v[i.toNat]? with
    | some a => .ok a
    | none => .throws
  else .throws

/-- `v[i]`, without a check. -/
def vectorIndex (v : List α) (i : Int) : Outcome α :=
  if 0 ≤ i then
    match v[i.toNat]? with
    | some a => .ok a
    | none => .undefined
  else .undefined

/-- `v.at(i) = a`. -/
def storeAt (v : List α) (i : Int) (a : α) : Outcome (List α) :=
  if 0 ≤ i ∧ i < v.length then .ok (v.set i.toNat a) else .throws

/-- `v[i] = a`, without a check. -/
def storeIndex (v : List α) (i : Int) (a : α) : Outcome (List α) :=
  if 0 ≤ i ∧ i < v.length then .ok (v.set i.toNat a) else .undefined

theorem vectorAt_eq_ok {v : List α} {i : Int} {a : α} :
    vectorAt v i = .ok a ↔ 0 ≤ i ∧ v[i.toNat]? = some a := by
  unfold vectorAt
  split
  · split <;> simp_all
  · simp_all

theorem vectorAt_ne_undefined (v : List α) (i : Int) : vectorAt v i ≠ .undefined := by
  unfold vectorAt
  split
  · split <;> simp
  · simp

theorem vectorIndex_eq_ok {v : List α} {i : Int} {a : α} :
    vectorIndex v i = .ok a ↔ 0 ≤ i ∧ v[i.toNat]? = some a := by
  unfold vectorIndex
  split
  · split <;> simp_all
  · simp_all

theorem exists_vectorIndex {v : List α} {i : Int} (h0 : 0 ≤ i) (hlt : i < v.length) :
    ∃ a, vectorIndex v i = .ok a ∧ v[i.toNat]? = some a := by
  have hn : i.toNat < v.length := by omega
  exact ⟨v[i.toNat], vectorIndex_eq_ok.mpr ⟨h0, List.getElem?_eq_getElem hn⟩,
    List.getElem?_eq_getElem hn⟩

theorem vectorAt_natCast {v : List α} {i : Nat} (h : i < v.length) :
    vectorAt v i = .ok v[i] := by
  simp [vectorAt, h]

theorem vectorIndex_natCast {v : List α} {i : Nat} (h : i < v.length) :
    vectorIndex v i = .ok v[i] := by
  simp [vectorIndex, h]

theorem vectorIndex_map {β : Type u} (f : α → β) (v : List α) (i : Int) :
    vectorIndex (v.map f) i = vectorIndex v i >>= fun a => .ok (f a) := by
  unfold vectorIndex
  split
  · rw [List.getElem?_map]
    cases v[i.toNat]? with
    | none => rfl
    | some a => rfl
  · rfl

end Vectors

end Alus.Lib
