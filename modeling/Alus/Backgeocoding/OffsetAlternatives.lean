import Alus.Backgeocoding.BurstOffset

/-!
# The alternatives of the burst offset

The four `Cas` of `ComputeBurstOffsetKernel` stand for a nested `if`/`else`: of the pairs of a
slave burst and a master burst, the first one whose halves agree gives the offset. The `Xor` keeps
the parity of the pairs that have agreed so far, not whether one has, so that a later `Cas` can
compare with zero or with the sentinel again. An offset that is one of these does not always stay.
-/

namespace Alus.Backgeocoding

/-! ## The nested choice -/

/-- A valid result of `GetBurstIndices`: the second burst is found after the first. -/
structure BurstIndices.Found (b : BurstIndices) : Prop where
  first : 0 ≤ b.firstBurstIndex
  second : b.secondBurstIndex = -1 ∨ b.firstBurstIndex < b.secondBurstIndex

theorem getBurstIndices_found {F : Type*} [Field F] [LinearOrder F] {bursts : List (F × F)}
    {time : Option F} (h : (getBurstIndices bursts time).valid = true) :
    (getBurstIndices bursts time).Found := by
  obtain ⟨hfirst, hsecond⟩ := getBurstIndices_inOrder bursts time
  have hvalid : (getBurstIndices bursts time).firstBurstIndex ≠ -1 ∨
      (getBurstIndices bursts time).secondBurstIndex ≠ -1 := by
    cases time with
    | none => cases h
    | some days => simpa [getBurstIndices] using h
  refine ⟨?_, hsecond.imp_right fun h => h.2.1⟩
  rcases hsecond with hnone | hfound
  · have hne := hvalid.resolve_right (not_not.mpr hnone)
    omega
  · exact hfound.1

/-- A slave burst and a master burst that may be the same burst. -/
structure Alternative where
  slaveIndex : Int
  masterIndex : Int
  inUpperPartOfSlave : Bool
  inUpperPartOfMaster : Bool

namespace Alternative

/-- Both bursts exist, and the point lies in the same half of each. -/
def Agrees (a : Alternative) : Prop :=
  (a.slaveIndex ≠ -1 ∧ a.masterIndex ≠ -1) ∧ a.inUpperPartOfMaster = a.inUpperPartOfSlave

instance (a : Alternative) : Decidable a.Agrees := inferInstanceAs (Decidable (_ ∧ _))

def offset (a : Alternative) : Int := a.slaveIndex - a.masterIndex

end Alternative

/-- The alternatives, in the order of the kernel. -/
def alternatives (m s : BurstIndices) : List Alternative :=
  [⟨s.firstBurstIndex, m.firstBurstIndex, s.inUpperPartOfFirstBurst, m.inUpperPartOfFirstBurst⟩,
    ⟨s.secondBurstIndex, m.firstBurstIndex, s.inUpperPartOfSecondBurst,
      m.inUpperPartOfFirstBurst⟩,
    ⟨s.firstBurstIndex, m.secondBurstIndex, s.inUpperPartOfFirstBurst,
      m.inUpperPartOfSecondBurst⟩,
    ⟨s.secondBurstIndex, m.secondBurstIndex, s.inUpperPartOfSecondBurst,
      m.inUpperPartOfSecondBurst⟩]

def firstAlternative (m s : BurstIndices) : Option Alternative :=
  (alternatives m s).find? fun a => a.Agrees

/-- Which of the alternatives agree. -/
def agreement (m s : BurstIndices) : List Bool :=
  (alternatives m s).map fun a => a.Agrees

/-- With the shared offset still unset, the candidate is the offset of the first alternative that
agrees, and stays unset if none does. -/
def ComputesFirst (m s : BurstIndices) : Prop :=
  localOffset invalidBurstOffset m s =
    ((firstAlternative m s).map (·.offset)).getD invalidBurstOffset

/-- The offset of the first alternative that agrees is neither zero nor the sentinel; or it is zero
and so are those of all that agree; or it is the sentinel, and besides the first one only its
successor agrees, or only the last one does, with the sentinel for its offset as well. -/
def FirstStays (m s : BurstIndices) : Prop :=
  ∀ a ∈ firstAlternative m s,
    (a.offset ≠ 0 ∧ a.offset ≠ invalidBurstOffset) ∨
      (a.offset = 0 ∧ ∀ b ∈ alternatives m s, b.Agrees → b.offset = 0) ∨
      (a.offset = invalidBurstOffset ∧
        (agreement m s ∈ [[true, true, false, false], [false, true, true, false],
            [false, false, true, true], [false, false, false, true]] ∨
          (agreement m s = [true, false, false, true] ∧
            s.secondBurstIndex = m.firstBurstIndex ∧
            m.secondBurstIndex = m.firstBurstIndex + 9999)))

instance (m s : BurstIndices) : Decidable (FirstStays m s) :=
  inferInstanceAs (Decidable (∀ a ∈ firstAlternative m s, _))

/-! ## The conditions of the kernel -/

section Conditions

variable {m s : BurstIndices}

/-- The kernel does not look for the first bursts, which are there. -/
theorem agreement_eq (hm : m.Found) (hs : s.Found) :
    agreement m s = [match11 m s, match12 m s, match21 m s, match22 m s] := by
  have hmaster : m.firstBurstIndex ≠ -1 := by
    have hfirst := hm.first
    omega
  have hslave : s.firstBurstIndex ≠ -1 := by
    have hfirst := hs.first
    omega
  simp only [agreement, alternatives, List.map_cons, List.map_nil, List.cons.injEq, and_true]
  refine ⟨?_, ?_, ?_, ?_⟩
  · simp [match11, Alternative.Agrees, hmaster, hslave, Bool.beq_eq_decide_eq]
  · simp [match12, Alternative.Agrees, hmaster, Bool.beq_eq_decide_eq, bne]
  · simp [match21, Alternative.Agrees, hslave, Bool.beq_eq_decide_eq, bne]
  · rw [Bool.eq_iff_iff, decide_eq_true_iff, Alternative.Agrees, and_comm (a := _ ≠ (-1 : Int))]
    simp [match22]

/-- Of four bursts, an even number of pairs agrees. -/
theorem even_agreement (hm : m.secondBurstIndex ≠ -1) (hs : s.secondBurstIndex ≠ -1) :
    (match11 m s ^^ match12 m s ^^ match21 m s ^^ match22 m s) = false := by
  have hmaster : (m.secondBurstIndex != -1) = true := bne_iff_ne.mpr hm
  have hslave : (s.secondBurstIndex != -1) = true := bne_iff_ne.mpr hs
  simp only [match11, match12, match21, match22, hmaster, hslave]
  cases m.inUpperPartOfFirstBurst <;> cases m.inUpperPartOfSecondBurst <;>
    cases s.inUpperPartOfFirstBurst <;> cases s.inUpperPartOfSecondBurst <;> rfl

/-- **When a thread computes the offset of the first alternative.** -/
theorem computesFirst_iff (hm : m.Found) (hs : s.Found) :
    ComputesFirst m s ↔ FirstStays m s := by
  have h12 := second_ne_of_match12 (m := m) (s := s)
  have h21 := second_ne_of_match21 (m := m) (s := s)
  have h22 := second_ne_of_match22 (m := m) (s := s)
  have heven := even_agreement (m := m) (s := s)
  have hagreement := agreement_eq hm hs
  have hflags := hagreement
  simp only [agreement, alternatives, List.map_cons, List.map_nil, List.cons.injEq,
    and_true] at hflags
  obtain ⟨h1, h2, h3, h4⟩ := hflags
  have hagrees : ∀ (a : Alternative) (b : Bool), decide a.Agrees = b → (a.Agrees ↔ b = true) := by
    rintro a b rfl
    exact decide_eq_true_iff.symm
  obtain ⟨hm1, hm2⟩ := hm
  obtain ⟨hs1, hs2⟩ := hs
  unfold ComputesFirst FirstStays firstAlternative localOffset
  rw [hagreement]
  simp only [alternatives, List.find?_cons, List.find?_nil, List.forall_mem_cons,
    List.not_mem_nil, false_imp_iff, implies_true, and_true, hagrees _ _ h1, hagrees _ _ h2,
    hagrees _ _ h3, hagrees _ _ h4]
  -- what is left is a chain of four comparisons for each of the patterns of agreement
  generalize match11 m s = b11, match12 m s = b12, match21 m s = b21, match22 m s = b22 at *
  cases b11 <;> cases b12 <;> cases b21 <;> cases b22 <;>
    simp [mathCas_eq, mathXor, invalidBurstOffset, Alternative.offset] <;> grind

end Conditions

/-! ## Two slave bursts for one master burst -/

/-- The point lies in the late half of the only master burst. -/
def lateMaster : BurstIndices := getBurstIndices [((0 : Rat), 86400)] (some (8 / 10))

/-- It lies in the late half of the first slave burst, and in the early half of the second. -/
def overlappingSlave : BurstIndices :=
  getBurstIndices [((0 : Rat), 86400), (60000, 146400)] (some (8 / 10))

theorem computesFirst_overlapping : ComputesFirst lateMaster overlappingSlave :=
  (computesFirst_iff (getBurstIndices_found (by decide +kernel))
    (getBurstIndices_found (by decide +kernel))).mpr (by decide +kernel)

/-- It lies in the late halves of both. -/
def nestedSlave : BurstIndices :=
  getBurstIndices [((0 : Rat), 86400), (8640, 95040)] (some (8 / 10))

/-- The first slave burst agrees, at the offset zero, and the second one replaces it. -/
theorem not_computesFirst_nested :
    lateMaster.Found ∧ nestedSlave.Found ∧ ¬ ComputesFirst lateMaster nestedSlave :=
  ⟨getBurstIndices_found (by decide +kernel), getBurstIndices_found (by decide +kernel),
    by unfold ComputesFirst; decide +kernel⟩

end Alus.Backgeocoding
