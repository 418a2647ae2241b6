import Mathlib.Data.Nat.Factorization.Basic
import Mathlib.Tactic.NormNum.Prime
import Alus.Lib.Binary64
import Alus.Lib.OrderedMap
import Alus.Lib.Machine

/-!
# The padded sizes

`GetOptimalFFTSizes` (`cufft_plan.cc`) lists the sizes that transforms are fast for, and
`EstimatePaddings` (`main.cc`) takes the least ones that are large enough, where the padded image
fits the memory of the device.
-/

namespace Alus.PalsarFocus

open Alus.Lib

/-! ## The sizes -/

/-- `IntPow`. -/
def intPow (base : Int) (power : Nat) : Outcome Int :=
  (List.range power).foldlM (fun r _ => int32 (r * base)) 1

/-- `limit`, of `GetOptimalFFTSizes`. -/
def fftLimit : Int := 131072

/-- A loop over the powers of a base, up to the first one whose product with what stands before it
is above the limit, from power `i` on. It is `none` while it has not ended. -/
def powerLoop {σ : Type} (base before : Int) (body : Int → Nat → σ → Outcome (Option σ)) :
    Nat → Nat → σ → Outcome (Option σ)
  | 0, _, _ => .ok none
  | passes + 1, i, result => do
    let p ← intPow base i
    let val ← int32 (before * p)
    if val > fftLimit then return some result
    else
      match ← body val i result with
      | some result => powerLoop base before body passes (i + 1) result
      | none => return none

/-- The powers of a size. -/
structure FftExponents where
  two : Nat
  three : Nat
  five : Nat
  seven : Nat
  deriving DecidableEq

/-- `std::map<int, std::array<int, 4>>`. -/
abbrev FftSizes := OrderedMap Int FftExponents

/-- `GetOptimalFFTSizes`, with every loop run for at most so many passes. -/
def getOptimalFFTSizes (passes : Nat) : Outcome (Option FftSizes) :=
  let loop7 (i j k : Nat) (p : Int) : FftSizes → Outcome (Option FftSizes) :=
    powerLoop 7 p (fun val l result => .ok (some (result.insert val ⟨i, j, k, l⟩))) passes 0
  let loop5 (i j : Nat) (p : Int) : FftSizes → Outcome (Option FftSizes) :=
    powerLoop 5 p (fun p k => loop7 i j k p) passes 0
  let loop3 (i : Nat) (p : Int) : FftSizes → Outcome (Option FftSizes) :=
    powerLoop 3 p (fun p j => loop5 i j p) passes 0
  powerLoop 2 1 (fun p i => loop3 i p) passes 0 .empty

/-! ## The paddings -/

/-- `range_pad` and `azimuth_pad`. -/
structure Paddings where
  range : Int
  azimuth : Int
  deriving DecidableEq

/-- A conversion of a `double` to `size_t`. -/
def sizeOfDouble (q : ℚ) : Outcome Nat :=
  if 0 ≤ ⌊q⌋ ∧ ⌊q⌋ < 2 ^ 64 then .ok ⌊q⌋.toNat else .undefined

/-- `peak_usage`, for 8 bytes an element. The two sizes are multiplied as `int`. -/
def peakUsage (rangeCalc azimuthCalc : Int) : Outcome Nat := do
  let elements ← int32 (rangeCalc * azimuthCalc)
  let paddedSize : Nat := (elements % 2 ^ 64).toNat * 8 % 2 ^ 64
  let twice : Nat := 2 * paddedSize % 2 ^ 64
  sizeOfDouble (Binary64.round (Binary64.round twice * Binary64.round (21 / 20)))

/-- The end of `EstimatePaddings`, where the estimate is compared with the limits. -/
def comparePaddings (maxDeviceMemory freeDeviceMemory : Nat) (padded former : Paddings) :
    Outcome Paddings := do
  let peakUsage ← peakUsage padded.range padded.azimuth
  return if peakUsage < freeDeviceMemory ∧ peakUsage < maxDeviceMemory then padded else former

/-- `EstimatePaddings`, after the sizes have been listed. -/
def paddingsFrom (fftSizes : FftSizes) (maxDeviceMemory freeDeviceMemory : Nat)
    (rangeSize azimuthSize chirpSize : Int) (former : Paddings) : Outcome Paddings := do
  let rangeKey ← int32 (rangeSize + chirpSize)
  match fftSizes.upperBound rangeKey, fftSizes.upperBound azimuthSize with
  | some rangeIt, some azimuthIt =>
    comparePaddings maxDeviceMemory freeDeviceMemory ⟨rangeIt.1, azimuthIt.1⟩ former
  | _, _ => return former

/-- `EstimatePaddings`: the paddings after the call, or nothing while its loops have not ended. -/
def estimatePaddings (passes maxDeviceMemory freeDeviceMemory : Nat)
    (rangeSize azimuthSize chirpSize : Int) (former : Paddings) : Outcome (Option Paddings) := do
  match ← getOptimalFFTSizes passes with
  | some fftSizes => do
    let paddings ← paddingsFrom fftSizes maxDeviceMemory freeDeviceMemory rangeSize azimuthSize
      chirpSize former
    return some paddings
  | none => return none

/-! ## What the paddings are for -/

/-- The number with these powers. -/
def FftExponents.size (e : FftExponents) : Int :=
  2 ^ e.two * 3 ^ e.three * 5 ^ e.five * 7 ^ e.seven

/-- Every size up to the limit is listed once, with its powers. -/
structure ListsSizes (sizes : FftSizes) : Prop where
  complete : ∀ e : FftExponents, e.size ≤ fftLimit → (e.size, e) ∈ sizes
  sound : ∀ val e, (val, e) ∈ sizes → val = e.size ∧ val ≤ fftLimit
  once : (sizes.entries.map Prod.fst).Nodup

/-- The least size up to the limit that is greater than the bound. -/
def IsPadding (bound n : Int) : Prop :=
  IsLeast {val | bound < val ∧ val ≤ fftLimit ∧ ∃ e : FftExponents, e.size = val} n

/-- Twice the padded image, with five percent more, is below both limits. -/
def FitsMemory (maxDeviceMemory freeDeviceMemory : Nat) (range azimuth : Int) : Prop :=
  2 * (range * azimuth * 8 : Int) * (21 / 20 : ℚ) < freeDeviceMemory ∧
    2 * (range * azimuth * 8 : Int) * (21 / 20 : ℚ) < maxDeviceMemory

/-- The paddings are changed together to the least sizes, where these fit the memory. -/
structure ChoosesPaddings (maxDeviceMemory freeDeviceMemory : Nat)
    (rangeSize azimuthSize chirpSize : Int) (former paddings : Paddings) : Prop where
  changed : ∀ range azimuth, IsPadding (rangeSize + chirpSize) range →
    IsPadding azimuthSize azimuth → FitsMemory maxDeviceMemory freeDeviceMemory range azimuth →
    paddings = ⟨range, azimuth⟩
  kept : (¬ ∃ range azimuth, IsPadding (rangeSize + chirpSize) range ∧
    IsPadding azimuthSize azimuth ∧ FitsMemory maxDeviceMemory freeDeviceMemory range azimuth) →
    paddings = former

/-- The sizes are listed, and the paddings are chosen from them. -/
structure EstimatesPaddings (maxDeviceMemory freeDeviceMemory : Nat)
    (rangeSize azimuthSize chirpSize : Int) (former : Paddings) : Prop where
  sizes : ∃ sizes, ListsSizes sizes ∧
    ∃ enough, ∀ passes, enough ≤ passes → getOptimalFFTSizes passes = .ok (some sizes)
  paddings : ∃ paddings, (∃ enough, ∀ passes, enough ≤ passes →
      estimatePaddings passes maxDeviceMemory freeDeviceMemory rangeSize azimuthSize chirpSize
        former = .ok (some paddings)) ∧
    ChoosesPaddings maxDeviceMemory freeDeviceMemory rangeSize azimuthSize chirpSize former paddings

/-- The sum of the range sizes fits an `int`, and so does the product of two sizes that are large
enough, unless one of the image's sizes is not below the limit. -/
def ProductFits (rangeSize azimuthSize chirpSize : Int) : Prop :=
  rangeSize + chirpSize < 2147483648 ∧
    (fftLimit ≤ rangeSize + chirpSize ∨ fftLimit ≤ azimuthSize ∨
      ∃ range azimuth : FftExponents, range.size ≤ fftLimit ∧ azimuth.size ≤ fftLimit ∧
        rangeSize + chirpSize < range.size ∧ azimuthSize < azimuth.size ∧
        range.size * azimuth.size < 2147483648)

/-! ## Powers -/

theorem intPow_eq {base : Int} (hbase : 1 ≤ base) {power : Nat}
    (hfits : base ^ power < 2147483648) : intPow base power = .ok (base ^ power) := by
  induction power with
  | zero =>
    rw [pow_zero]
    rfl
  | succ power ih =>
    have hpos : 0 < base ^ power := Int.pow_pos (by omega)
    have hle : base ^ power ≤ base ^ (power + 1) := by
      rw [pow_succ]
      exact le_mul_of_one_le_right hpos.le hbase
    have hprevious := ih (by omega)
    rw [intPow] at hprevious ⊢
    rw [List.range_succ, List.foldlM_append, hprevious, Outcome.ok_bind, List.foldlM_cons,
      ← pow_succ, int32_of_bounds (by omega) hfits]
    rfl

section Loop

variable {α : Type} {base before : Int}
  {body : Int → Nat → FftSizes → Outcome (Option FftSizes)}
  {entries : Int → Nat → List (Int × FftExponents)}

/-- What is listed for the powers of a base. -/
def powerEntries (base before : Int) (entries : Int → Nat → List (Int × FftExponents)) (i : Nat) :
    List (Int × FftExponents) :=
  if before * base ^ i ≤ fftLimit then entries (before * base ^ i) i else []

/-- The entries of a list are assigned. -/
def assignAll (entries : List (Int × FftExponents)) (result : FftSizes) : FftSizes :=
  entries.foldl (fun result e => result.insert e.1 e.2) result

theorem assignAll_append (l l' : List (Int × FftExponents)) (result : FftSizes) :
    assignAll (l ++ l') result = assignAll l' (assignAll l result) :=
  List.foldl_append

/-- The products of a loop are below seven times the limit, so that none overflows. -/
theorem product_le (hbase : 2 ≤ base) (hseven : base ≤ 7) (hbefore : 1 ≤ before)
    (hlimit : before ≤ fftLimit) {i : Nat} (hi : ∀ k < i, before * base ^ k ≤ fftLimit) :
    base ^ i ≤ before * base ^ i ∧ before * base ^ i ≤ 7 * fftLimit := by
  have hpos : 0 < base ^ i := Int.pow_pos (by omega)
  apply And.intro
  · exact le_mul_of_one_le_left hpos.le hbefore
  · cases i with
    | zero =>
      unfold fftLimit at *
      rw [pow_zero]
      omega
    | succ i =>
      have hprevious := hi i (Nat.lt_succ_self i)
      have hpos' : 0 < before * base ^ i := Int.mul_pos (by omega) (Int.pow_pos (by omega))
      calc before * base ^ (i + 1) = before * base ^ i * base := by rw [pow_succ, mul_assoc]
        _ ≤ before * base ^ i * 7 := Int.mul_le_mul_of_nonneg_left hseven hpos'.le
        _ ≤ 7 * fftLimit := by omega

theorem powerLoop_succ (hbase : 2 ≤ base) (hseven : base ≤ 7) (hbefore : 1 ≤ before)
    (hlimit : before ≤ fftLimit) {i : Nat} (hi : ∀ k < i, before * base ^ k ≤ fftLimit)
    (passes : Nat) (result : FftSizes) :
    powerLoop base before body (passes + 1) i result =
      if before * base ^ i > fftLimit then .ok (some result)
      else body (before * base ^ i) i result >>= fun
        | some result => powerLoop base before body passes (i + 1) result
        | none => .ok none := by
  have hproduct := product_le hbase hseven hbefore hlimit hi
  have hpos : 0 < base ^ i := Int.pow_pos (by omega)
  unfold fftLimit at hproduct
  rw [powerLoop, intPow_eq (by omega) (by omega), Outcome.ok_bind,
    int32_of_bounds (by omega) (by omega), Outcome.ok_bind]
  split
  · rfl
  · refine congrArg (Outcome.bind (body (before * base ^ i) i result)) (funext fun found => ?_)
    cases found with
    | none => rfl
    | some result => rfl

/-- Nothing is listed from a power on that is above the limit. -/
theorem powerEntries_of_above (hbase : 2 ≤ base) (hbefore : 1 ≤ before) {i k : Nat}
    (habove : before * base ^ i > fftLimit) (hle : i ≤ k) :
    powerEntries base before entries k = [] := by
  have hgrows : before * base ^ i ≤ before * base ^ k :=
    Int.mul_le_mul_of_nonneg_left (pow_le_pow_right₀ (by omega) hle) (by omega)
  exact if_neg (by omega)

/-- From power `i` on, which is the first one or the next after one within the limit. -/
theorem powerLoop_from (hbase : 2 ≤ base) (hseven : base ≤ 7) (hbefore : 1 ≤ before)
    (hlimit : before ≤ fftLimit)
    (hbody : ∀ val i result, 1 ≤ val → val ≤ fftLimit →
      body val i result = .ok (some (assignAll (entries val i) result)))
    {rest passes i : Nat} (hrest : i + rest = 18) (hpasses : rest < passes)
    (hi : ∀ k < i, before * base ^ k ≤ fftLimit) (result : FftSizes) :
    powerLoop base before body passes i result =
      .ok (some (assignAll ((List.range' i rest).flatMap (powerEntries base before entries))
        result)) := by
  induction rest generalizing passes i result with
  | zero =>
    -- the eighteenth power of two is above the limit
    have htwo : (2 : Int) ^ i ≤ base ^ i := pow_le_pow_left₀ (by decide) hbase i
    have hproduct := (product_le hbase hseven hbefore hlimit hi).1
    have habove : before * base ^ i > fftLimit := by
      rw [show i = 18 by omega] at *
      unfold fftLimit
      omega
    cases passes with
    | zero => omega
    | succ passes =>
      rw [powerLoop_succ hbase hseven hbefore hlimit hi, if_pos habove]
      rfl
  | succ rest ih =>
    cases passes with
    | zero => omega
    | succ passes =>
      rw [powerLoop_succ hbase hseven hbefore hlimit hi, List.range'_succ, List.flatMap_cons,
        assignAll_append]
      by_cases habove : before * base ^ i > fftLimit
      · have hnone : ∀ k ∈ List.range' (i + 1) rest, powerEntries base before entries k = [] := by
          intro k hk
          have hfirst := (List.mem_range'_1.mp hk).1
          exact powerEntries_of_above hbase hbefore habove (by omega)
        rw [if_pos habove, powerEntries_of_above hbase hbefore habove (le_refl i),
          List.flatMap_eq_nil_iff.mpr hnone]
        rfl
      · have hle : before * base ^ i ≤ fftLimit := by omega
        have hpos : 1 ≤ before * base ^ i :=
          Int.mul_pos (show 0 < before by omega) (Int.pow_pos (show 0 < base by omega))
        have hnext : ∀ k < i + 1, before * base ^ k ≤ fftLimit := by
          intro k hk
          cases Nat.lt_succ_iff_lt_or_eq.mp hk with
          | inl hless => exact hi k hless
          | inr hsame => exact hsame ▸ hle
        rw [if_neg habove, hbody _ _ _ hpos hle, Outcome.ok_bind, powerEntries, if_pos hle]
        exact ih (by omega) (by omega) hnext _

/-- A loop lists what its body lists for the powers within the limit. -/
theorem powerLoop_eq (hbase : 2 ≤ base) (hseven : base ≤ 7) (hbefore : 1 ≤ before)
    (hlimit : before ≤ fftLimit)
    (hbody : ∀ val i result, 1 ≤ val → val ≤ fftLimit →
      body val i result = .ok (some (assignAll (entries val i) result)))
    {passes : Nat} (hpasses : 19 ≤ passes) (result : FftSizes) :
    powerLoop base before body passes 0 result =
      .ok (some (assignAll ((List.range' 0 18).flatMap (powerEntries base before entries))
        result)) :=
  powerLoop_from hbase hseven hbefore hlimit hbody (by omega) (by omega) (fun k hk => by omega)
    result

/-- All powers within the limit are below the eighteenth. -/
theorem mem_powerEntries (hbase : 2 ≤ base) (hbefore : 1 ≤ before) {e : Int × FftExponents} :
    e ∈ (List.range' 0 18).flatMap (powerEntries base before entries) ↔
      ∃ i, before * base ^ i ≤ fftLimit ∧ e ∈ entries (before * base ^ i) i := by
  rw [List.mem_flatMap]
  apply Iff.intro
  · rintro ⟨i, -, hi⟩
    unfold powerEntries at hi
    split at hi
    · next hle => exact ⟨i, hle, hi⟩
    · cases hi
  · rintro ⟨i, hle, hi⟩
    have hless : i < 18 := by
      by_contra hge
      have htwo : (2 : Int) ^ 18 ≤ base ^ i := calc
        (2 : Int) ^ 18 ≤ 2 ^ i := pow_le_pow_right₀ (by decide) (not_lt.mp hge)
        _ ≤ base ^ i := pow_le_pow_left₀ (by decide) hbase i
      have hproduct : base ^ i ≤ before * base ^ i :=
        le_mul_of_one_le_left (Int.pow_pos (by omega)).le hbefore
      unfold fftLimit at hle
      omega
    refine ⟨i, List.mem_range'_1.mpr ⟨by omega, by omega⟩, ?_⟩
    rw [powerEntries, if_pos hle]
    exact hi

end Loop

/-! ## The sizes that are listed -/

/-- What `GetOptimalFFTSizes` lists for powers of seven. -/
def listed7 (i j k : Nat) (p : Int) : List (Int × FftExponents) :=
  (List.range' 0 18).flatMap (powerEntries 7 p fun val l => [(val, ⟨i, j, k, l⟩)])

def listed5 (i j : Nat) (p : Int) : List (Int × FftExponents) :=
  (List.range' 0 18).flatMap (powerEntries 5 p fun p k => listed7 i j k p)

def listed3 (i : Nat) (p : Int) : List (Int × FftExponents) :=
  (List.range' 0 18).flatMap (powerEntries 3 p fun p j => listed5 i j p)

/-- All that it lists. -/
def listed : List (Int × FftExponents) :=
  (List.range' 0 18).flatMap (powerEntries 2 1 fun p i => listed3 i p)

/-- The loops end, each after eighteen powers at most. -/
theorem getOptimalFFTSizes_eq {passes : Nat} (h : 19 ≤ passes) :
    getOptimalFFTSizes passes = .ok (some (assignAll listed .empty)) := by
  refine powerLoop_eq (show (2 : Int) ≤ 2 by decide) (by decide) (by decide) (by decide) ?_ h .empty
  intro p i result hp hlimit
  refine powerLoop_eq (show (2 : Int) ≤ 3 by decide) (by decide) hp hlimit ?_ h result
  intro p j result hp hlimit
  refine powerLoop_eq (show (2 : Int) ≤ 5 by decide) (by decide) hp hlimit ?_ h result
  intro p k result hp hlimit
  have hbody : ∀ val l (result : FftSizes), 1 ≤ val → val ≤ fftLimit →
      Outcome.ok (some (result.insert val ⟨i, j, k, l⟩)) =
        .ok (some (assignAll [(val, ⟨i, j, k, l⟩)] result)) := fun val l result _ _ => rfl
  exact powerLoop_eq (show (2 : Int) ≤ 7 by decide) (by decide) hp hlimit hbody h result

theorem one_le_mul_pow {p base : Int} (hp : 1 ≤ p) (hbase : 1 ≤ base) (n : Nat) :
    1 ≤ p * base ^ n :=
  Int.mul_pos (show 0 < p by omega) (Int.pow_pos (show 0 < base by omega))

theorem le_mul_pow {p base : Int} (hp : 1 ≤ p) (hbase : 1 ≤ base) (n : Nat) : p ≤ p * base ^ n :=
  le_mul_of_one_le_right (by omega) (one_le_pow₀ hbase)

theorem mem_listed7 {i j k : Nat} {p : Int} (hp : 1 ≤ p) {e : Int × FftExponents} :
    e ∈ listed7 i j k p ↔ ∃ l, p * 7 ^ l ≤ fftLimit ∧ e = (p * 7 ^ l, ⟨i, j, k, l⟩) := by
  rw [listed7, mem_powerEntries (by decide) hp]
  simp only [List.mem_singleton]

theorem mem_listed5 {i j : Nat} {p : Int} (hp : 1 ≤ p) {e : Int × FftExponents} :
    e ∈ listed5 i j p ↔
      ∃ k l, p * 5 ^ k * 7 ^ l ≤ fftLimit ∧ e = (p * 5 ^ k * 7 ^ l, ⟨i, j, k, l⟩) := by
  rw [listed5, mem_powerEntries (by decide) hp]
  apply exists_congr
  intro k
  have hone := one_le_mul_pow hp (show (1 : Int) ≤ 5 by decide) k
  rw [mem_listed7 hone]
  exact ⟨fun h => h.2, fun ⟨l, hl, he⟩ =>
    ⟨(le_mul_pow hone (by decide) l).trans hl, l, hl, he⟩⟩

theorem mem_listed3 {i : Nat} {p : Int} (hp : 1 ≤ p) {e : Int × FftExponents} :
    e ∈ listed3 i p ↔ ∃ j k l, p * 3 ^ j * 5 ^ k * 7 ^ l ≤ fftLimit ∧
      e = (p * 3 ^ j * 5 ^ k * 7 ^ l, ⟨i, j, k, l⟩) := by
  rw [listed3, mem_powerEntries (by decide) hp]
  apply exists_congr
  intro j
  have hone := one_le_mul_pow hp (show (1 : Int) ≤ 3 by decide) j
  rw [mem_listed5 hone]
  exact ⟨fun h => h.2, fun ⟨k, l, hl, he⟩ =>
    ⟨((le_mul_pow hone (by decide) k).trans
      (le_mul_pow (one_le_mul_pow hone (by decide) k) (by decide) l)).trans hl, k, l, hl, he⟩⟩

/-- The list has all the sizes up to the limit and no others. -/
theorem mem_listed {e : Int × FftExponents} :
    e ∈ listed ↔ e.1 = e.2.size ∧ e.2.size ≤ fftLimit := by
  have hsizes : e ∈ listed ↔ ∃ i j k l, 1 * 2 ^ i * 3 ^ j * 5 ^ k * 7 ^ l ≤ fftLimit ∧
      e = (1 * 2 ^ i * 3 ^ j * 5 ^ k * 7 ^ l, ⟨i, j, k, l⟩) := by
    rw [listed, mem_powerEntries (by decide) (by decide)]
    apply exists_congr
    intro i
    have hone := one_le_mul_pow (show (1 : Int) ≤ 1 by decide) (show (1 : Int) ≤ 2 by decide) i
    rw [mem_listed3 hone]
    refine ⟨fun h => h.2, fun ⟨j, k, l, hl, he⟩ => ⟨?_, j, k, l, hl, he⟩⟩
    have hthree := le_mul_pow hone (show (1 : Int) ≤ 3 by decide) j
    have hone3 := one_le_mul_pow hone (show (1 : Int) ≤ 3 by decide) j
    have hfive := le_mul_pow hone3 (show (1 : Int) ≤ 5 by decide) k
    have hone5 := one_le_mul_pow hone3 (show (1 : Int) ≤ 5 by decide) k
    have hseven := le_mul_pow hone5 (show (1 : Int) ≤ 7 by decide) l
    omega
  rw [hsizes]
  apply Iff.intro
  · rintro ⟨i, j, k, l, hl, rfl⟩
    rw [one_mul] at hl
    exact ⟨by rw [one_mul]; rfl, hl⟩
  · intro h
    refine ⟨e.2.two, e.2.three, e.2.five, e.2.seven, ?_, ?_⟩
    · rw [one_mul]
      exact h.2
    · rw [one_mul]
      exact Prod.ext h.1 rfl

namespace FftExponents

theorem size_pos (e : FftExponents) : 0 < e.size := by
  unfold size
  positivity

/-- A size has its powers by its prime factors. -/
theorem size_injective : Function.Injective size := by
  intro e e' h
  have hnat : 2 ^ e.two * 3 ^ e.three * 5 ^ e.five * 7 ^ e.seven =
      2 ^ e'.two * 3 ^ e'.three * 5 ^ e'.five * 7 ^ e'.seven := by
    unfold size at h
    exact_mod_cast h
  have hseven : Nat.Prime 7 := by norm_num
  have hfactors (x : FftExponents) :
      (2 ^ x.two * 3 ^ x.three * 5 ^ x.five * 7 ^ x.seven).factorization =
        Finsupp.single 2 x.two + Finsupp.single 3 x.three + Finsupp.single 5 x.five +
          Finsupp.single 7 x.seven := by
    rw [Nat.factorization_mul (by positivity) (by positivity),
      Nat.factorization_mul (by positivity) (by positivity),
      Nat.factorization_mul (by positivity) (by positivity),
      Nat.prime_two.factorization_pow, Nat.prime_three.factorization_pow,
      Nat.prime_five.factorization_pow, hseven.factorization_pow]
  have hsame : Finsupp.single 2 e.two + Finsupp.single 3 e.three + Finsupp.single 5 e.five +
      Finsupp.single 7 e.seven = Finsupp.single 2 e'.two + Finsupp.single 3 e'.three +
      Finsupp.single 5 e'.five + Finsupp.single 7 e'.seven := by
    rw [← hfactors, ← hfactors, hnat]
  have h2 : e.two = e'.two := by simpa using DFunLike.congr_fun hsame 2
  have h3 : e.three = e'.three := by simpa using DFunLike.congr_fun hsame 3
  have h5 : e.five = e'.five := by simpa using DFunLike.congr_fun hsame 5
  have h7 : e.seven = e'.seven := by simpa using DFunLike.congr_fun hsame 7
  cases e with
  | mk two three five seven =>
    cases e' with
    | mk two' three' five' seven' =>
      dsimp only at h2 h3 h5 h7
      rw [h2, h3, h5, h7]

end FftExponents

/-- The sizes that the loops have listed in the end. -/
def optimalFFTSizes : FftSizes := assignAll listed .empty

theorem mem_optimalFFTSizes {e : Int × FftExponents} :
    e ∈ optimalFFTSizes ↔ e.1 = e.2.size ∧ e.2.size ≤ fftLimit := by
  have hsame : ∀ e ∈ listed, ∀ e' ∈ listed, e.1 = e'.1 → e = e' := by
    intro e he e' he' hkey
    have hsize := (mem_listed.mp he).1
    have hsize' := (mem_listed.mp he').1
    have hpowers : e.2 = e'.2 := FftExponents.size_injective (by rw [← hsize, ← hsize', hkey])
    exact Prod.ext hkey hpowers
  rw [optimalFFTSizes, assignAll, OrderedMap.mem_foldl_insert hsame fun e _ e' he' =>
    absurd he' (OrderedMap.not_mem_empty e'), mem_listed]
  exact or_iff_left (OrderedMap.not_mem_empty e)

theorem listsSizes : ListsSizes optimalFFTSizes where
  complete e he := mem_optimalFFTSizes.mpr ⟨rfl, he⟩
  sound val e he := by
    have h := mem_optimalFFTSizes.mp he
    exact ⟨h.1, le_of_eq_of_le h.1 h.2⟩
  once := List.pairwise_map.mpr (optimalFFTSizes.ascending.imp ne_of_lt)

/-! ## The paddings that are found -/

theorem keys_eq (bound : Int) :
    {val | bound < val ∧ ∃ e ∈ optimalFFTSizes, e.1 = val} =
      {val | bound < val ∧ val ≤ fftLimit ∧ ∃ e : FftExponents, e.size = val} := by
  ext val
  apply and_congr_right
  intro _
  apply Iff.intro
  · rintro ⟨e, he, rfl⟩
    have h := mem_optimalFFTSizes.mp he
    exact ⟨h.1 ▸ h.2, e.2, h.1.symm⟩
  · rintro ⟨hlimit, e, rfl⟩
    exact ⟨(e.size, e), mem_optimalFFTSizes.mpr ⟨rfl, hlimit⟩, rfl⟩

theorem isPadding_of_upperBound {bound : Int} {e : Int × FftExponents}
    (h : optimalFFTSizes.upperBound bound = some e) : IsPadding bound e.1 := by
  rw [IsPadding, ← keys_eq]
  exact (OrderedMap.upperBound_spec h).2

theorem not_isPadding_of_upperBound {bound : Int}
    (h : optimalFFTSizes.upperBound bound = none) (n : Int) : ¬ IsPadding bound n := by
  intro hn
  obtain ⟨hless, hlimit, e, rfl⟩ := hn.1
  have hle := OrderedMap.upperBound_eq_none.mp h (e.size, e) (mem_optimalFFTSizes.mpr ⟨rfl, hlimit⟩)
  exact absurd hless (not_lt.mpr hle)

theorem IsPadding.pos {bound n : Int} (h : IsPadding bound n) : 0 < n ∧ n ≤ fftLimit := by
  obtain ⟨-, hlimit, e, rfl⟩ := h.1
  exact ⟨e.size_pos, hlimit⟩

/-! ## The memory that is estimated -/

/-- `1.05` -/
theorem round_fivePercent : Binary64.round (21 / 20) = 4728779608739021 / 2 ^ 52 := by
  have hexp : Binary64.lastExponent (21 / 20) = -52 := by
    have hlog : Int.log 2 (21 / 20 : ℚ) = 0 := by
      rw [Int.log_of_one_le_right 2 (by norm_num)]
      have hfloor : ⌊(21 / 20 : ℚ)⌋₊ = 1 := by
        rw [Nat.floor_eq_iff (by norm_num)]
        norm_num
      rw [hfloor, Nat.log_one_right]
      rfl
    rw [Binary64.lastExponent, abs_of_pos (by norm_num), hlog]
    rfl
  have hfloor : ⌊(21 / 20 : ℚ) / 2 ^ (-52 : ℤ)⌋ = 4728779608739020 := by
    rw [Int.floor_eq_iff]
    norm_num
  rw [Binary64.round, hexp, Binary32.roundHalfEven, hfloor]
  norm_num

/-- Five percent more, rounded down. -/
theorem floor_fivePercent {x : ℤ} (h0 : 0 < x) (hx : x < 2 ^ 36) :
    ⌊Binary64.round (Binary64.round x * Binary64.round (21 / 20))⌋ = x * 21 / 20 := by
  have hxq : (x : ℚ) < 2 ^ 36 := by exact_mod_cast hx
  have h0q : (0 : ℚ) < x := by exact_mod_cast h0
  have hwhole : x * 21 = 20 * (x * 21 / 20) + x * 21 % 20 := (Int.mul_ediv_add_emod _ _).symm
  have hrest : x * 21 % 20 ≤ 19 := by omega
  have hrest0 : 0 ≤ x * 21 % 20 := by omega
  have hwholeq : (x : ℚ) * 21 = 20 * ((x * 21 / 20 : ℤ) : ℚ) + ((x * 21 % 20 : ℤ) : ℚ) := by
    exact_mod_cast hwhole
  have hrestq : ((x * 21 % 20 : ℤ) : ℚ) ≤ 19 := by exact_mod_cast hrest
  have hrest0q : (0 : ℚ) ≤ ((x * 21 % 20 : ℤ) : ℚ) := by exact_mod_cast hrest0
  rw [Binary64.round_intCast h0 (by omega), round_fivePercent]
  -- the product is above the exact one by less than the distance to the next integer
  apply Binary64.floor_round (m := 32 * (x * 21 / 20) + 31) (k := 5)
  · positivity
  · omega
  · omega
  · linarith
  · push_cast
    linarith
  · push_cast
    linarith

section Memory

variable {range azimuth : Int}

/-- The estimate, where the product of the two sizes fits an `int`. -/
theorem peakUsage_of_fits (h0 : 0 < range * azimuth) (h : range * azimuth < 2147483648) :
    peakUsage range azimuth = .ok (range * azimuth * 16 * 21 / 20).toNat := by
  have hfits : Fits 32 (range * azimuth) := fits32_iff.mpr ⟨by omega, h⟩
  have htwice : (((2 * ((range * azimuth % 2 ^ 64).toNat * 8 % 2 ^ 64) % 2 ^ 64 : Nat) : ℤ) : ℚ) =
      ((range * azimuth * 16 : ℤ) : ℚ) := by
    congr 1
    omega
  rw [peakUsage, int32_of_fits hfits, Outcome.ok_bind]
  dsimp only
  rw [← Int.cast_natCast, htwice, sizeOfDouble, floor_fivePercent (by omega) (by omega),
    if_pos ⟨by omega, by omega⟩]

theorem peakUsage_of_not_fits (h : 2147483648 ≤ range * azimuth) :
    peakUsage range azimuth = .undefined := by
  have hfits : ¬ Fits 32 (range * azimuth) := by
    rw [fits32_iff]
    omega
  rw [peakUsage, int32_of_not_fits hfits]
  rfl

theorem lt_memory_iff (h0 : 0 < range * azimuth) (memory : Nat) :
    (range * azimuth * 16 * 21 / 20).toNat < memory ↔
      2 * (range * azimuth * 8 : Int) * (21 / 20 : ℚ) < memory := by
  have hcross : 2 * (range * azimuth * 8 : Int) * (21 / 20 : ℚ) < memory ↔
      range * azimuth * 16 * 21 < 20 * (memory : ℤ) := by
    rw [← Int.cast_lt (R := ℚ)]
    push_cast
    constructor
    · intro h
      linarith
    · intro h
      linarith
  rw [hcross]
  omega

/-- The comparison is the one of the exact amount of memory. -/
theorem comparePaddings_eq (maxDeviceMemory freeDeviceMemory : Nat) {padded : Paddings}
    (former : Paddings) (h0 : 0 < padded.range * padded.azimuth)
    (h : padded.range * padded.azimuth < 2147483648) :
    ∃ result, comparePaddings maxDeviceMemory freeDeviceMemory padded former = .ok result ∧
      (FitsMemory maxDeviceMemory freeDeviceMemory padded.range padded.azimuth →
        result = padded) ∧
      (¬ FitsMemory maxDeviceMemory freeDeviceMemory padded.range padded.azimuth →
        result = former) := by
  have hfits : (padded.range * padded.azimuth * 16 * 21 / 20).toNat < freeDeviceMemory ∧
      (padded.range * padded.azimuth * 16 * 21 / 20).toNat < maxDeviceMemory ↔
      FitsMemory maxDeviceMemory freeDeviceMemory padded.range padded.azimuth :=
    and_congr (lt_memory_iff h0 _) (lt_memory_iff h0 _)
  rw [comparePaddings, peakUsage_of_fits h0 h, Outcome.ok_bind]
  exact ⟨_, rfl, fun hmemory => if_pos (hfits.mpr hmemory), fun hmemory =>
    if_neg (mt hfits.mp hmemory)⟩

end Memory

/-! ## The choice -/

/-- The limit is a size, so that there is a greater one for each number below it. -/
theorem exists_upperBound {bound : Int} (h : bound < fftLimit) :
    ∃ e, optimalFFTSizes.upperBound bound = some e := by
  cases hfound : optimalFFTSizes.upperBound bound with
  | some e => exact ⟨e, rfl⟩
  | none =>
    have hlimit : ((131072 : Int), FftExponents.mk 17 0 0 0) ∈ optimalFFTSizes :=
      mem_optimalFFTSizes.mpr ⟨by decide, by decide⟩
    exact absurd h (not_lt.mpr (OrderedMap.upperBound_eq_none.mp hfound _ hlimit))

section Choice

variable {maxDeviceMemory freeDeviceMemory : Nat} {rangeSize azimuthSize chirpSize : Int}
  {former : Paddings}

theorem estimatePaddings_eq {passes : Nat} (h : 19 ≤ passes) :
    estimatePaddings passes maxDeviceMemory freeDeviceMemory rangeSize azimuthSize chirpSize
        former =
      paddingsFrom optimalFFTSizes maxDeviceMemory freeDeviceMemory rangeSize azimuthSize chirpSize
        former >>= fun paddings => .ok (some paddings) := by
  rw [estimatePaddings, getOptimalFFTSizes_eq h]
  rfl

/-- The least sizes have the least product. -/
theorem product_lt (hfits : ProductFits rangeSize azimuthSize chirpSize) {range azimuth : Int}
    (hrange : IsPadding (rangeSize + chirpSize) range) (hazimuth : IsPadding azimuthSize azimuth) :
    range * azimuth < 2147483648 := by
  have hless : rangeSize + chirpSize < range := hrange.1.1
  have hless' : azimuthSize < azimuth := hazimuth.1.1
  rcases hfits.2 with hlarge | hlarge | ⟨r, a, hr, ha, hbound, hbound', hproduct⟩
  · exact absurd hrange.pos.2 (by omega)
  · exact absurd hazimuth.pos.2 (by omega)
  · have hle : range ≤ r.size := hrange.2 ⟨hbound, hr, r, rfl⟩
    have hle' : azimuth ≤ a.size := hazimuth.2 ⟨hbound', ha, a, rfl⟩
    calc range * azimuth ≤ r.size * a.size :=
          Int.mul_le_mul hle hle' hazimuth.pos.1.le r.size_pos.le
      _ < 2147483648 := hproduct

theorem exists_paddingsFrom (maxDeviceMemory freeDeviceMemory : Nat) (former : Paddings)
    (hlow : -2147483648 ≤ rangeSize + chirpSize)
    (hfits : ProductFits rangeSize azimuthSize chirpSize) :
    ∃ paddings, paddingsFrom optimalFFTSizes maxDeviceMemory freeDeviceMemory rangeSize azimuthSize
        chirpSize former = .ok paddings ∧
      ChoosesPaddings maxDeviceMemory freeDeviceMemory rangeSize azimuthSize chirpSize former
        paddings := by
  rw [paddingsFrom, int32_of_bounds hlow hfits.1, Outcome.ok_bind]
  -- without a greater size in the table the paddings stay
  cases hrange : optimalFFTSizes.upperBound (rangeSize + chirpSize) with
  | none =>
    have hnone := not_isPadding_of_upperBound hrange
    exact ⟨former, rfl, fun range _ h => absurd h (hnone range), fun _ => rfl⟩
  | some rangeIt =>
    cases hazimuth : optimalFFTSizes.upperBound azimuthSize with
    | none =>
      have hnone := not_isPadding_of_upperBound hazimuth
      exact ⟨former, rfl, fun _ azimuth _ h => absurd h (hnone azimuth), fun _ => rfl⟩
    | some azimuthIt =>
      have hr := isPadding_of_upperBound hrange
      have ha := isPadding_of_upperBound hazimuth
      have hpos : 0 < (Paddings.mk rangeIt.1 azimuthIt.1).range *
          (Paddings.mk rangeIt.1 azimuthIt.1).azimuth := Int.mul_pos hr.pos.1 ha.pos.1
      obtain ⟨result, hresult, hchanged, hkept⟩ :=
        comparePaddings_eq maxDeviceMemory freeDeviceMemory former hpos (product_lt hfits hr ha)
      refine ⟨result, hresult, ?_, ?_⟩
      · intro range azimuth hrange' hazimuth' hmemory
        have hsame : range = rangeIt.1 := hrange'.unique hr
        have hsame' : azimuth = azimuthIt.1 := hazimuth'.unique ha
        rw [hsame, hsame'] at hmemory ⊢
        exact hchanged hmemory
      · intro hnone
        exact hkept fun hmemory => hnone ⟨rangeIt.1, azimuthIt.1, hr, ha, hmemory⟩

/-- An overflow of the sum or of the product. -/
theorem paddingsFrom_undefined (hfits : ¬ ProductFits rangeSize azimuthSize chirpSize) :
    paddingsFrom optimalFFTSizes maxDeviceMemory freeDeviceMemory rangeSize azimuthSize chirpSize
      former = .undefined := by
  by_cases hsum : Fits 32 (rangeSize + chirpSize)
  · have hless : rangeSize + chirpSize < fftLimit := by
      by_contra hge
      exact hfits ⟨(fits32_iff.mp hsum).2, .inl (not_lt.mp hge)⟩
    have hless' : azimuthSize < fftLimit := by
      by_contra hge
      exact hfits ⟨(fits32_iff.mp hsum).2, .inr (.inl (not_lt.mp hge))⟩
    obtain ⟨rangeIt, hrange⟩ := exists_upperBound hless
    obtain ⟨azimuthIt, hazimuth⟩ := exists_upperBound hless'
    have hlarge : 2147483648 ≤ rangeIt.1 * azimuthIt.1 := by
      by_contra hsmall
      obtain ⟨hbound, hr, r, hrsize⟩ := (isPadding_of_upperBound hrange).1
      obtain ⟨hbound', ha, a, hasize⟩ := (isPadding_of_upperBound hazimuth).1
      rw [← hrsize] at hbound hr hsmall
      rw [← hasize] at hbound' ha hsmall
      exact hfits ⟨(fits32_iff.mp hsum).2,
        .inr (.inr ⟨r, a, hr, ha, hbound, hbound', not_le.mp hsmall⟩)⟩
    rw [paddingsFrom, int32_of_fits hsum, Outcome.ok_bind, hrange, hazimuth]
    dsimp only
    rw [comparePaddings, peakUsage_of_not_fits hlarge]
    rfl
  · rw [paddingsFrom, int32_of_not_fits hsum]
    rfl

theorem not_estimatesPaddings (hfits : ¬ ProductFits rangeSize azimuthSize chirpSize) :
    ¬ EstimatesPaddings maxDeviceMemory freeDeviceMemory rangeSize azimuthSize chirpSize
      former := by
  intro h
  obtain ⟨paddings, ⟨enough, hrun⟩, -⟩ := h.paddings
  have hundefined := hrun (max 19 enough) (le_max_right _ _)
  rw [estimatePaddings_eq (le_max_left _ _), paddingsFrom_undefined hfits] at hundefined
  cases hundefined

end Choice

/-- The paddings are chosen as they should be unless the sum of the range sizes or the product of
the padded sizes overflows. -/
theorem estimatesPaddings_iff (maxDeviceMemory freeDeviceMemory : Nat)
    (rangeSize azimuthSize chirpSize : PositiveInt) (former : Paddings) :
    EstimatesPaddings maxDeviceMemory freeDeviceMemory rangeSize azimuthSize chirpSize former ↔
      ProductFits rangeSize azimuthSize chirpSize := by
  apply Iff.intro
  · intro h
    by_contra hfits
    exact not_estimatesPaddings hfits h
  · intro hfits
    have hrange := rangeSize.2
    have hchirp := chirpSize.2
    obtain ⟨paddings, hpaddings, hchooses⟩ :=
      exists_paddingsFrom maxDeviceMemory freeDeviceMemory former (by omega) hfits
    refine ⟨⟨optimalFFTSizes, listsSizes, 19, fun passes h => getOptimalFFTSizes_eq h⟩,
      paddings, ⟨19, fun passes h => ?_⟩, hchooses⟩
    rw [estimatePaddings_eq h, hpaddings]
    rfl

/-- The product of `65536` and `32768` overflows. -/
theorem not_estimatesPaddings_large : ¬ EstimatesPaddings (2 ^ 34) (2 ^ 34) 60000 32767 5535
    ⟨0, 0⟩ := by
  apply not_estimatesPaddings
  rintro ⟨-, hlarge | hlarge | ⟨r, a, -, -, hr, ha, hproduct⟩⟩
  · exact absurd hlarge (by decide)
  · exact absurd hlarge (by decide)
  · have hmul : (65536 : Int) * 32768 ≤ r.size * a.size :=
      Int.mul_le_mul (by omega) (by omega) (by decide) r.size_pos.le
    omega

end Alus.PalsarFocus
