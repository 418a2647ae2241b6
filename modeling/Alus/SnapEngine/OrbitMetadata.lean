import Alus.SnapEngine.UtcElements

/-!
# The orbit state vectors of the metadata

The tree of metadata (`metadata_element.cc`, `product_node_list.cc`), as far as
`AbstractMetadata::SetOrbitStateVectors` and `GetOrbitStateVectors` (`abstract_metadata.cc`) use it.
The vectors are kept as elements with a number in their names, by which they are looked up. Lists of
nodes are shorter than an `int` counts.
-/

namespace Alus.SnapEngine

open Alus.Lib
open Alus.S1tbx (Calendar)
open Outcome (require)

variable {R : Type}

/-! ## Nodes -/

/-- `ProductData`, of the types that orbit vectors have. -/
inductive ProductData (R : Type) where
  | float64 (value : R)
  | utc (value : UtcElems)
  | other (text : List Char)

/-- `MetadataAttribute`. -/
structure MetadataAttribute (R : Type) where
  name : List Char
  data : ProductData R

/-- `MetadataElement`. Two pointers to elements are equal when the addresses are. -/
inductive MetadataElement (R : Type) where
  | mk (address : Nat) (name : List Char) (attributes : List (MetadataAttribute R))
      (elements : List (MetadataElement R))

/-- `boost::iequals`. -/
def iequals (name name' : List Char) : Bool := name.map Char.toUpper = name'.map Char.toUpper

/-- `ProductNodeList::IndexOf`, by a name. -/
def indexOf {α : Type} (getName : α → List Char) (nodes : List α) (name : List Char) :
    Outcome (Option Nat) := do
  require (name ≠ [])
  return nodes.findIdx? fun node => iequals (getName node) name

/-- `ProductNodeList::Get`, by a name. -/
def nodeGet {α : Type} (getName : α → List Char) (nodes : List α) (name : List Char) :
    Outcome (Option α) := do
  match ← indexOf getName nodes name with
  | some index => return nodes[index]?
  | none => return none

namespace MetadataElement

def address : MetadataElement R → Nat
  | mk address _ _ _ => address

def name : MetadataElement R → List Char
  | mk _ name _ _ => name

def attributes : MetadataElement R → List (MetadataAttribute R)
  | mk _ _ attributes _ => attributes

def elements : MetadataElement R → List (MetadataElement R)
  | mk _ _ _ elements => elements

def withAttributes : MetadataElement R → List (MetadataAttribute R) → MetadataElement R
  | mk address name _ elements, attributes => mk address name attributes elements

def withElements : MetadataElement R → List (MetadataElement R) → MetadataElement R
  | mk address name attributes _, elements => mk address name attributes elements

/-- `AddElement`. -/
def addElement (root element : MetadataElement R) : MetadataElement R :=
  root.withElements (root.elements ++ [element])

/-- `RemoveElement`. -/
def removeElement (root element : MetadataElement R) : MetadataElement R :=
  root.withElements (root.elements.eraseP fun node => node.address = element.address)

/-- `GetElement`. -/
def getElement (root : MetadataElement R) (name : List Char) :
    Outcome (Option (MetadataElement R)) :=
  nodeGet MetadataElement.name root.elements name

/-- The element that `GetElement` returns is changed. There is nothing behind a null pointer. -/
def changeElement (root : MetadataElement R) (name : List Char)
    (change : MetadataElement R → Outcome (MetadataElement R)) : Outcome (MetadataElement R) := do
  match ← indexOf MetadataElement.name root.elements name with
  | some index =>
    let element ← vectorAt root.elements index
    let element ← change element
    return root.withElements (root.elements.set index element)
  | none => .undefined

/-- `GetAndMaybeCreateAttribute`, with the data that a new attribute has and the change of the data.
-/
def setAttribute (root : MetadataElement R) (name : List Char) (created : ProductData R)
    (change : ProductData R → Outcome (ProductData R)) : Outcome (MetadataElement R) := do
  match ← indexOf MetadataAttribute.name root.attributes name with
  | some index =>
    let found ← vectorAt root.attributes index
    let data ← change found.data
    return root.withAttributes (root.attributes.set index { found with data := data })
  | none =>
    let data ← change created
    return root.withAttributes (root.attributes ++ [⟨name, data⟩])

/-- `SetAttributeDouble`. The conversion to another type of data is not modelled. -/
def setAttributeDouble [Zero R] (root : MetadataElement R) (name : List Char) (value : R) :
    Outcome (MetadataElement R) :=
  root.setAttribute name (.float64 0) fun
    | .float64 _ => .ok (.float64 value)
    | _ => .undefined

/-- `SetAttributeUtc`. -/
def setAttributeUtc (root : MetadataElement R) (name : List Char) (value : UtcElems) :
    Outcome (MetadataElement R) :=
  root.setAttribute name (.utc ⟨0, 0, 0⟩) fun
    | .utc _ => .ok (.utc value)
    | _ => .undefined

/-- `GetAttributeDouble`. The conversion of another type of data is not modelled. -/
def getAttributeDouble (root : MetadataElement R) (name : List Char) : Outcome R := do
  match ← nodeGet MetadataAttribute.name root.attributes name with
  | some ⟨_, .float64 value⟩ => return value
  | some _ => .undefined
  | none => .throws

/-- `GetAttributeUtc`, which reads the text of the data. -/
def getAttributeUtc {calendar : Calendar} (facet : DateFormatIn calendar)
    (root : MetadataElement R) (name : List Char) : Outcome UtcElems := do
  match ← nodeGet MetadataAttribute.name root.attributes name with
  | some ⟨_, .utc value⟩ => value.format calendar >>= UtcElems.parse facet
  | some _ => .undefined
  | none => .throws

end MetadataElement

/-! ## Orbit state vectors -/

/-- `OrbitStateVector`. -/
structure OrbitStateVector (R : Type) where
  time : UtcElems
  xPos : R
  yPos : R
  zPos : R
  xVel : R
  yVel : R
  zVel : R

namespace AbstractMetadata

/-- `ORBIT_STATE_VECTORS`. -/
def orbitStateVectors : List Char := "Orbit_State_Vectors".toList

/-- `ORBIT_VECTOR` and a number. -/
def orbitVector (i : Nat) : List Char := "orbit_vector".toList ++ (toString i).toList

/-- `ORBIT_VECTOR_TIME`. -/
def orbitVectorTime : List Char := "time".toList

/-- `ORBIT_VECTOR_X_POS`. -/
def orbitVectorXPos : List Char := "x_pos".toList

/-- `ORBIT_VECTOR_Y_POS`. -/
def orbitVectorYPos : List Char := "y_pos".toList

/-- `ORBIT_VECTOR_Z_POS`. -/
def orbitVectorZPos : List Char := "z_pos".toList

/-- `ORBIT_VECTOR_X_VEL`. -/
def orbitVectorXVel : List Char := "x_vel".toList

/-- `ORBIT_VECTOR_Y_VEL`. -/
def orbitVectorYVel : List Char := "y_vel".toList

/-- `ORBIT_VECTOR_Z_VEL`. -/
def orbitVectorZVel : List Char := "z_vel".toList

/-- The element of a vector, at an address and with a number. -/
def vectorElement [Zero R] (address i : Nat) (vector : OrbitStateVector R) :
    Outcome (MetadataElement R) := do
  let subElemRoot : MetadataElement R := .mk address (orbitVector i) [] []
  let subElemRoot ← subElemRoot.setAttributeUtc orbitVectorTime vector.time
  let subElemRoot ← subElemRoot.setAttributeDouble orbitVectorXPos vector.xPos
  let subElemRoot ← subElemRoot.setAttributeDouble orbitVectorYPos vector.yPos
  let subElemRoot ← subElemRoot.setAttributeDouble orbitVectorZPos vector.zPos
  let subElemRoot ← subElemRoot.setAttributeDouble orbitVectorXVel vector.xVel
  let subElemRoot ← subElemRoot.setAttributeDouble orbitVectorYVel vector.yVel
  subElemRoot.setAttributeDouble orbitVectorZVel vector.zVel

/-- `SetOrbitStateVectors`, with the addresses that new elements get. -/
def setOrbitStateVectors [Zero R] (alloc : Nat → Nat) (absRoot : MetadataElement R)
    (vectors : List (OrbitStateVector R)) : Outcome (MetadataElement R) :=
  absRoot.changeElement orbitStateVectors fun elemRoot => do
    -- remove old
    let oldList := elemRoot.elements
    let elemRoot := oldList.foldl MetadataElement.removeElement elemRoot
    -- add new
    let (elemRoot, _) ← vectors.foldlM (fun (elemRoot, i) vector => do
      let subElemRoot ← vectorElement (alloc i) i vector
      return (elemRoot.addElement subElemRoot, i + 1)) (elemRoot, 1)
    return elemRoot

/-- The vector of an element. -/
def elementVector {calendar : Calendar} (facet : DateFormatIn calendar)
    (subElemRoot : MetadataElement R) : Outcome (OrbitStateVector R) := do
  let time ← subElemRoot.getAttributeUtc facet orbitVectorTime
  let xPos ← subElemRoot.getAttributeDouble orbitVectorXPos
  let yPos ← subElemRoot.getAttributeDouble orbitVectorYPos
  let zPos ← subElemRoot.getAttributeDouble orbitVectorZPos
  let xVel ← subElemRoot.getAttributeDouble orbitVectorXVel
  let yVel ← subElemRoot.getAttributeDouble orbitVectorYVel
  let zVel ← subElemRoot.getAttributeDouble orbitVectorZVel
  return ⟨time, xPos, yPos, zPos, xVel, yVel, zVel⟩

/-- `GetOrbitStateVectors`. -/
def getOrbitStateVectors {calendar : Calendar} (facet : DateFormatIn calendar)
    (absRoot : MetadataElement R) : Outcome (List (OrbitStateVector R)) := do
  match ← absRoot.getElement orbitStateVectors with
  | none => return []
  | some elemRoot =>
    Outcome.collect ((List.range elemRoot.elements.length).map fun i => do
      match ← elemRoot.getElement (orbitVector (i + 1)) with
      | some subElemRoot => elementVector facet subElemRoot
      | none => .undefined)

/-! ## What is promised -/

/-- Nothing but the elements of the orbit vectors differs. -/
structure OnlyVectorsReplaced (absRoot absRoot' : MetadataElement R) : Prop where
  address : absRoot'.address = absRoot.address
  name : absRoot'.name = absRoot.name
  attributes : absRoot'.attributes = absRoot.attributes
  elements : ∃ before elemRoot elements after,
    absRoot.elements = before ++ elemRoot :: after ∧
    absRoot'.elements = before ++ elemRoot.withElements elements :: after ∧
    iequals elemRoot.name orbitStateVectors = true

end AbstractMetadata

namespace OrbitStateVector

/-- The vector at the same time, with its whole seconds split by truncation. -/
def resplit (vector : OrbitStateVector R) : OrbitStateVector R :=
  { vector with time := vector.time.resplit }

/-- The time can be written. -/
structure Writable (vector : OrbitStateVector R) : Prop where
  calendar : InCalendar vector.time.wholeSeconds
  fraction : vector.time.IsFraction

end OrbitStateVector

/-! ## Nodes of a name -/

/-- The first node of a name. -/
theorem indexOf_eq_some {α : Type} {getName : α → List Char} {nodes : List α} {name : List Char}
    (hname : name ≠ []) {index : Nat} (h : index < nodes.length)
    (hsame : iequals (getName nodes[index]) name = true)
    (hfirst : ∀ (j : Nat) (hj : j < index), iequals (getName nodes[j]) name = false) :
    indexOf getName nodes name = .ok (some index) := by
  rw [indexOf, Outcome.require_of hname, Outcome.ok_bind]
  refine congrArg Outcome.ok (List.findIdx?_eq_some_iff_getElem.mpr ⟨h, hsame, fun j hj => ?_⟩)
  rw [hfirst j hj]
  decide

/-- There is a first node of a name that some node has. -/
theorem exists_indexOf {α : Type} {getName : α → List Char} {nodes : List α} {name : List Char}
    (h : ∃ node ∈ nodes, iequals (getName node) name = true) :
    ∃ index, ∃ hindex : index < nodes.length, iequals (getName nodes[index]) name = true ∧
      ∀ (j : Nat) (hj : j < index), iequals (getName nodes[j]) name = false := by
  have hsome : (nodes.findIdx? fun node => iequals (getName node) name).isSome := by
    rw [List.findIdx?_isSome, List.any_eq_true]
    exact h
  obtain ⟨index, hfound⟩ := Option.isSome_iff_exists.mp hsome
  obtain ⟨hindex, hsame, hfirst⟩ := List.findIdx?_eq_some_iff_getElem.mp hfound
  exact ⟨index, hindex, hsame, fun j hj => by simpa using hfirst j hj⟩

theorem nodeGet_eq {α : Type} {getName : α → List Char} {nodes : List α} {name : List Char}
    {index : Nat} (h : indexOf getName nodes name = .ok (some index)) :
    nodeGet getName nodes name = .ok nodes[index]? := by
  rw [nodeGet, h]
  rfl

/-- Digits are neither lower nor upper case. -/
theorem toUpper_of_isDigit {c : Char} (h : c.isDigit = true) : c.toUpper = c := by
  have hdigit := Etad.isDigit_iff.mp h
  unfold Char.toUpper
  rw [dif_neg]
  intro hlower
  have hle : (97 : UInt32).toNat ≤ c.val.toNat := UInt32.le_iff_toNat_le.mp hlower.1
  have hnat : c.val.toNat = c.toNat := rfl
  rw [hnat] at hle
  have h97 : (97 : UInt32).toNat = 97 := rfl
  omega

namespace AbstractMetadata

/-- The number tells the vectors apart. -/
theorem iequals_orbitVector (i j : Nat) :
    iequals (orbitVector i) (orbitVector j) = true ↔ i = j := by
  have hupper : ∀ k : Nat, (toString k).toList.map Char.toUpper = Nat.toDigits 10 k := by
    intro k
    have hall : ∀ c ∈ Nat.toDigits 10 k, c.toUpper = id c := fun c hc =>
      toUpper_of_isDigit (Nat.isDigit_of_mem_toDigits (by decide) (by decide) hc)
    show (Nat.repr k).toList.map Char.toUpper = Nat.toDigits 10 k
    rw [Nat.toList_repr, List.map_congr_left hall, List.map_id]
  unfold iequals orbitVector
  rw [decide_eq_true_iff, List.map_append, List.map_append, hupper, hupper, List.append_right_inj]
  constructor
  · intro h
    have hread := congrArg (fun digits => Nat.ofDigitChars 10 digits 0) h
    simpa only [Nat.ofDigitChars_ten_toDigits] using hread
  · intro h
    rw [h]

/-! ## The elements of the vectors -/

/-- The attributes of a vector. -/
def vectorAttributes (vector : OrbitStateVector R) : List (MetadataAttribute R) :=
  [⟨orbitVectorTime, .utc vector.time⟩, ⟨orbitVectorXPos, .float64 vector.xPos⟩,
    ⟨orbitVectorYPos, .float64 vector.yPos⟩, ⟨orbitVectorZPos, .float64 vector.zPos⟩,
    ⟨orbitVectorXVel, .float64 vector.xVel⟩, ⟨orbitVectorYVel, .float64 vector.yVel⟩,
    ⟨orbitVectorZVel, .float64 vector.zVel⟩]

/-- A new element gets the attributes of its vector, each under its own name. -/
theorem vectorElement_eq [Zero R] (address i : Nat) (vector : OrbitStateVector R) :
    vectorElement address i vector =
      .ok (.mk address (orbitVector i) (vectorAttributes vector) []) := rfl

/-- The vector with its time written and read. -/
def reread {calendar : Calendar} (facet : DateFormatIn calendar) (vector : OrbitStateVector R) :
    Outcome (OrbitStateVector R) := do
  let time ← vector.time.format calendar >>= UtcElems.parse facet
  return { vector with time := time }

/-- What is read of such an element. -/
theorem elementVector_eq {calendar : Calendar} (facet : DateFormatIn calendar) (address i : Nat)
    (vector : OrbitStateVector R) :
    elementVector facet (.mk address (orbitVector i) (vectorAttributes vector) []) =
      reread facet vector := rfl

theorem reread_of_writable {calendar : Calendar} (facet : DateFormatIn calendar)
    {vector : OrbitStateVector R} (h : vector.Writable) :
    reread facet vector = .ok vector.resplit := by
  rw [reread, UtcElems.parse_format facet h.calendar h.fraction]
  rfl

/-- The elements of the vectors, numbered. -/
def vectorElements (alloc : Nat → Nat) (first : Nat) (vectors : List (OrbitStateVector R)) :
    List (MetadataElement R) :=
  (vectors.zipIdx first).map fun p =>
    .mk (alloc p.2) (orbitVector p.2) (vectorAttributes p.1) []

theorem length_vectorElements (alloc : Nat → Nat) (first : Nat)
    (vectors : List (OrbitStateVector R)) :
    (vectorElements alloc first vectors).length = vectors.length := by
  rw [vectorElements, List.length_map, List.length_zipIdx]

theorem getElem_vectorElements (alloc : Nat → Nat) {vectors : List (OrbitStateVector R)} {i : Nat}
    (hi : i < (vectorElements alloc 1 vectors).length) (hi' : i < vectors.length) :
    (vectorElements alloc 1 vectors)[i] =
      .mk (alloc (i + 1)) (orbitVector (i + 1)) (vectorAttributes vectors[i]) [] := by
  simp only [vectorElements, List.getElem_map, List.getElem_zipIdx, Nat.add_comm 1 i]

theorem orbitVector_ne_nil (i : Nat) : orbitVector i ≠ [] :=
  List.append_ne_nil_of_left_ne_nil (by decide) _

/-- No vector before one has its number. -/
theorem indexOf_vectorElements (alloc : Nat → Nat) {vectors : List (OrbitStateVector R)} {i : Nat}
    (hi : i < vectors.length) :
    indexOf MetadataElement.name (vectorElements alloc 1 vectors) (orbitVector (i + 1)) =
      .ok (some i) := by
  have hlength := length_vectorElements alloc 1 vectors
  refine indexOf_eq_some (orbitVector_ne_nil _) (by omega) ?_ fun j hj => ?_
  · rw [getElem_vectorElements alloc _ hi]
    exact (iequals_orbitVector _ _).mpr rfl
  · rw [getElem_vectorElements alloc _ (by omega)]
    refine Bool.eq_false_iff.mpr fun hsame => ?_
    have := (iequals_orbitVector _ _).mp hsame
    omega

/-- Each element that is removed is in the list. -/
theorem foldl_removeElement (elemRoot : MetadataElement R) (oldList : List (MetadataElement R)) :
    oldList.foldl MetadataElement.removeElement (elemRoot.withElements oldList) =
      elemRoot.withElements [] := by
  cases elemRoot with
  | mk address name attributes elements =>
    induction oldList with
    | nil => rfl
    | cons old oldList ih =>
      have hremove : (MetadataElement.mk address name attributes (old :: oldList)).removeElement
          old = .mk address name attributes oldList := by
        unfold MetadataElement.removeElement
        show MetadataElement.mk address name attributes ((old :: oldList).eraseP _) = _
        rw [List.eraseP_cons_of_pos (by simp)]
      rw [List.foldl_cons]
      show oldList.foldl _ ((MetadataElement.mk address name attributes
        (old :: oldList)).removeElement old) = _
      rw [hremove]
      exact ih

/-- The loop that adds the new elements. -/
theorem foldlM_addElement [Zero R] (alloc : Nat → Nat) (vectors : List (OrbitStateVector R))
    (elemRoot : MetadataElement R) (elements : List (MetadataElement R)) (first : Nat) :
    (vectors.foldlM (fun (elemRoot, i) vector => do
      let subElemRoot ← vectorElement (alloc i) i vector
      return (elemRoot.addElement subElemRoot, i + 1)) (elemRoot.withElements elements, first) :
        Outcome (MetadataElement R × Nat)) =
      .ok (elemRoot.withElements (elements ++ vectorElements alloc first vectors),
        first + vectors.length) := by
  induction vectors generalizing elements first with
  | nil =>
    show Outcome.ok _ = Outcome.ok _
    rw [show vectorElements alloc first ([] : List (OrbitStateVector R)) = [] from rfl,
      List.append_nil]
    rfl
  | cons vector vectors ih =>
    have hadd : (elemRoot.withElements elements).addElement (.mk (alloc first) (orbitVector first)
        (vectorAttributes vector) []) = elemRoot.withElements (elements ++ [.mk (alloc first)
          (orbitVector first) (vectorAttributes vector) []]) := by
      cases elemRoot
      rfl
    rw [List.foldlM_cons]
    show ((vectorElement (alloc first) first vector >>= fun subElemRoot =>
      Outcome.ok ((elemRoot.withElements elements).addElement subElemRoot, first + 1)) >>= _) = _
    rw [vectorElement_eq, Outcome.ok_bind, Outcome.ok_bind, hadd, ih]
    refine congrArg Outcome.ok (Prod.ext ?_ ?_)
    · show elemRoot.withElements _ = elemRoot.withElements _
      rw [List.append_assoc]
      rfl
    · show first + 1 + vectors.length = first + (vectors.length + 1)
      omega

/-- What the element of the vectors becomes. -/
theorem setOrbitStateVectors_eq [Zero R] (alloc : Nat → Nat) {absRoot : MetadataElement R}
    {index : Nat} (hindex : index < absRoot.elements.length)
    (hfound : indexOf MetadataElement.name absRoot.elements orbitStateVectors =
      .ok (some index)) (vectors : List (OrbitStateVector R)) :
    setOrbitStateVectors alloc absRoot vectors =
      .ok (absRoot.withElements (absRoot.elements.set index
        (absRoot.elements[index].withElements (vectorElements alloc 1 vectors)))) := by
  have hself : absRoot.elements[index].withElements absRoot.elements[index].elements =
      absRoot.elements[index] := by
    cases absRoot.elements[index]
    rfl
  have hremove := foldl_removeElement absRoot.elements[index] absRoot.elements[index].elements
  rw [hself] at hremove
  rw [setOrbitStateVectors, MetadataElement.changeElement, hfound, Outcome.ok_bind]
  dsimp only
  rw [vectorAt_natCast hindex, Outcome.ok_bind, hremove, foldlM_addElement alloc]
  rfl

/-- The vectors are looked up one after the other. -/
theorem getOrbitStateVectors_eq {calendar : Calendar} (facet : DateFormatIn calendar)
    (alloc : Nat → Nat) {absRoot elemRoot : MetadataElement R}
    {vectors : List (OrbitStateVector R)}
    (hget : absRoot.getElement orbitStateVectors =
      .ok (some (elemRoot.withElements (vectorElements alloc 1 vectors)))) :
    getOrbitStateVectors facet absRoot = Outcome.collect (vectors.map (reread facet)) := by
  have helements : (elemRoot.withElements (vectorElements alloc 1 vectors)).elements =
      vectorElements alloc 1 vectors := by
    cases elemRoot
    rfl
  have hlength := length_vectorElements alloc 1 vectors
  rw [getOrbitStateVectors, hget, Outcome.ok_bind]
  dsimp only
  rw [helements, hlength]
  refine congrArg Outcome.collect (List.ext_getElem (by simp) fun i h1 h2 => ?_)
  have hi : i < vectors.length := by
    rwa [List.length_map, List.length_range] at h1
  have hi' : i < (vectorElements alloc 1 vectors).length := by rwa [hlength]
  rw [List.getElem_map, List.getElem_range, List.getElem_map, MetadataElement.getElement,
    helements, nodeGet_eq (indexOf_vectorElements alloc hi), List.getElem?_eq_getElem hi',
    getElem_vectorElements alloc hi' hi]
  exact elementVector_eq facet _ _ _

/-- **Orbit state vectors that are set are read back**, each with its time written and read,
whatever was there before. -/
theorem exists_setOrbitStateVectors [Zero R] {calendar : Calendar} (facet : DateFormatIn calendar)
    (alloc : Nat → Nat) {absRoot : MetadataElement R}
    (hroot : ∃ elemRoot ∈ absRoot.elements, iequals elemRoot.name orbitStateVectors = true)
    (vectors : List (OrbitStateVector R)) :
    ∃ absRoot', setOrbitStateVectors alloc absRoot vectors = .ok absRoot' ∧
      OnlyVectorsReplaced absRoot absRoot' ∧
      getOrbitStateVectors facet absRoot' = Outcome.collect (vectors.map (reread facet)) := by
  obtain ⟨index, hindex, hsame, hfirst⟩ := exists_indexOf hroot
  have hfound := indexOf_eq_some (show orbitStateVectors ≠ [] by decide) hindex hsame hfirst
  let elemRoot := absRoot.elements[index].withElements (vectorElements alloc 1 vectors)
  have hname : elemRoot.name = absRoot.elements[index].name := by
    show (absRoot.elements[index].withElements _).name = _
    cases absRoot.elements[index]
    rfl
  have hset : (absRoot.withElements (absRoot.elements.set index elemRoot)).elements =
      absRoot.elements.set index elemRoot := by
    cases absRoot
    rfl
  refine ⟨_, setOrbitStateVectors_eq alloc hindex hfound vectors, ?_, ?_⟩
  · refine ⟨by cases absRoot; rfl, by cases absRoot; rfl, by cases absRoot; rfl, ?_⟩
    refine ⟨absRoot.elements.take index, absRoot.elements[index], vectorElements alloc 1 vectors,
      absRoot.elements.drop (index + 1), ?_, ?_, hsame⟩
    · rw [← List.drop_eq_getElem_cons hindex, List.take_append_drop]
    · rw [hset, List.set_eq_take_append_cons_drop, if_pos hindex]
  -- the element is still the first of its name
  · have hlt : index < (absRoot.elements.set index elemRoot).length := by rwa [List.length_set]
    have hfound' : indexOf MetadataElement.name (absRoot.elements.set index elemRoot)
        orbitStateVectors = .ok (some index) := by
      refine indexOf_eq_some (by decide) hlt ?_ fun j hj => ?_
      · rw [List.getElem_set_self, hname]
        exact hsame
      · rw [List.getElem_set_ne (by omega)]
        exact hfirst j hj
    have hget : (absRoot.withElements (absRoot.elements.set index elemRoot)).getElement
        orbitStateVectors =
          .ok (some (absRoot.elements[index].withElements (vectorElements alloc 1 vectors))) := by
      rw [MetadataElement.getElement, hset, nodeGet_eq hfound', List.getElem?_eq_getElem hlt,
        List.getElem_set_self]
    exact getOrbitStateVectors_eq facet alloc hget

end AbstractMetadata

end Alus.SnapEngine
