import Alus.Etad.Text
import Alus.SnapEngine.OrbitMetadata

/-!
# The metadata of a DIMAP file

`ImplToModel` of `pugixml_meta_data_reader.cc`: below the element of a given name, each named
`MDElem` becomes a metadata element and each `MDATTR` that yields data an attribute. The parent of
either is the latest element one level up. The elements and the attributes are objects behind shared
pointers; a pointer is the position of its object among those that were made.
-/

namespace Alus.SnapEngine.Dimap

open Alus.Lib
open Alus.Etad (trimCopy)
open Outcome (require)

variable {D : Type}

/-! ## Attributes -/

/-- The types of `ProductData`. -/
inductive ProductType where
  | int8 | int16 | int32 | int64 | uint8 | uint16 | uint32 | float32 | float64 | ascii | utc
  | undefined
  deriving DecidableEq

/-- `ProductData::GetType`. -/
def getType (type : String) : ProductType :=
  if type = "int8" then .int8
  else if type = "int16" then .int16
  else if type = "int32" then .int32
  else if type = "int64" then .int64
  else if type = "uint8" then .uint8
  else if type = "uint16" then .uint16
  else if type = "uint32" then .uint32
  else if type = "float32" then .float32
  else if type = "float64" then .float64
  else if type = "ascii" then .ascii
  else if type = "utc" then .utc
  else .undefined

/-- The conversions of `ProductData` from texts: the instance of a text, `Utc::Parse`, if it does
not throw, and `SetElems` of an instance of a type. -/
structure DataReader (D : Type) where
  createAscii : String → D
  utcParse : String → Option D
  setElems : ProductType → List String → Outcome D

/-- The data of an `MDATTR`, if it is not a null pointer. -/
def readData (reader : DataReader D) (attType attValue : String) : Outcome (Option D) :=
  match getType attType with
  | .ascii => return some (reader.createAscii attValue)
  | .utc =>
    if attValue.toList.contains ',' then do
      let data ← reader.setElems .utc (attValue.splitOn ",")
      return some data
    else
      return reader.utcParse attValue
  | .undefined => .throws
  | type => do
    let data ← reader.setElems type (attValue.splitOn ",")
    return some data

/-- What `for_each` reads of the attributes of an `MDATTR`. -/
structure AttributeFields where
  attName : String
  attType : String
  readOnly : Bool
  attDesc : Option String
  attUnit : Option String

namespace AttributeFields

def initial : AttributeFields := ⟨"", "", true, none, none⟩

/-- One pass of the loop over the attributes. -/
def read (fields : AttributeFields) (ait : String × String) : AttributeFields :=
  let (name, value) := ait
  if name = "name" ∧ value ≠ "" then { fields with attName := value }
  else if name = "type" ∧ value ≠ "" then { fields with attType := value }
  else if name = "mode" then { fields with readOnly := !iequals "rw".toList value.toList }
  else if name = "desc" then { fields with attDesc := some value }
  else if name = "unit" then { fields with attUnit := some value }
  else fields

end AttributeFields

/-- `MetadataAttribute`. -/
structure MetadataAttribute (D : Type) where
  name : String
  data : D
  readOnly : Bool
  description : Option String
  unit : Option String
  deriving DecidableEq

/-- The attribute that an `MDATTR` becomes, if it has a text and this is converted. -/
def readAttribute (reader : DataReader D) (attributes : List (String × String))
    (content : List XmlContent) : Outcome (Option (MetadataAttribute D)) :=
  match content.findSome? XmlContent.textValue with
  | none => return none
  | some attValue => do
    let fields := attributes.foldl AttributeFields.read .initial
    match ← readData reader fields.attType attValue with
    | none => return none
    | some data => do
      require (trimCopy fields.attName ≠ "")
      return some ⟨fields.attName, data, fields.readOnly, fields.attDesc, fields.attUnit⟩

/-! ## The walker -/

/-- `MetadataElement`, with pointers to its attributes and elements. -/
structure MetadataElement where
  name : String
  attributes : List Nat
  elements : List Nat
  deriving DecidableEq

namespace MetadataElement

/-- The constructor, with a name that has been checked. -/
def new (name : String) : MetadataElement := ⟨name, [], []⟩

def addElement (pointer : Nat) (element : MetadataElement) : MetadataElement :=
  { element with elements := element.elements ++ [pointer] }

def addAttribute (pointer : Nat) (element : MetadataElement) : MetadataElement :=
  { element with attributes := element.attributes ++ [pointer] }

end MetadataElement

/-- The objects that a tree of metadata consists of. The start element is the first one. -/
structure MetadataModel (D : Type) where
  elements : List MetadataElement
  attributes : List (MetadataAttribute D)
  deriving DecidableEq

/-- `SimpleWalker`, with the objects that it has made. -/
structure SimpleWalker (D : Type) where
  model : MetadataModel D
  metaDataLatestLevelElement : List Nat

namespace SimpleWalker

/-- The walker of a start element. -/
def start (name : String) : SimpleWalker D := ⟨⟨[.new name], []⟩, [0]⟩

/-- The latest element of this level gets a child, which is now the latest one of the next level. -/
def addElement (walker : SimpleWalker D) (depth : Nat) (name : String) :
    Outcome (SimpleWalker D) := do
  let current := walker.model.elements.length
  let parent ← vectorIndex walker.metaDataLatestLevelElement depth
  let objects := walker.model.elements ++ [MetadataElement.new name]
  let elements := objects.modify parent (.addElement current)
  let latest :=
    if walker.metaDataLatestLevelElement.length < depth + 2 then
      walker.metaDataLatestLevelElement ++ [current]
    else
      walker.metaDataLatestLevelElement.set (depth + 1) current
  return ⟨⟨elements, walker.model.attributes⟩, latest⟩

/-- The latest element of this level gets an attribute. -/
def addAttribute (walker : SimpleWalker D) (depth : Nat) (current : MetadataAttribute D) :
    Outcome (SimpleWalker D) := do
  let parent ← vectorIndex walker.metaDataLatestLevelElement depth
  let elements := walker.model.elements.modify parent (.addAttribute walker.model.attributes.length)
  return ⟨⟨elements, walker.model.attributes ++ [current]⟩, walker.metaDataLatestLevelElement⟩

/-- One pass of the loop over the attributes of an `MDElem`. -/
def readName (depth : Nat) (walker : SimpleWalker D) (ait : String × String) :
    Outcome (SimpleWalker D) :=
  if ait.1 = "name" ∧ ait.2 ≠ "" then do
    require (trimCopy ait.2 ≠ "")
    walker.addElement depth ait.2
  else
    return walker

/-- `for_each`. -/
def forEach (reader : DataReader D) (walker : SimpleWalker D) (visit : Visit XmlContent) :
    Outcome (SimpleWalker D) :=
  match visit.node with
  | .text _ => return walker
  | .element name attributes content =>
    if name = "MDElem" then
      attributes.foldlM (readName visit.depth) walker
    else if name = "MDATTR" then do
      match ← readAttribute reader attributes content with
      | some current => walker.addAttribute visit.depth current
      | none => return walker
    else
      return walker

/-- `traverse`. -/
def walk (reader : DataReader D) (walker : SimpleWalker D) (visits : List (Visit XmlContent)) :
    Outcome (SimpleWalker D) :=
  visits.foldlM (forEach reader) walker

end SimpleWalker

/-- The nodes that `MDElem[@name = string($name)]` selects. -/
def selects (name : String) : XmlContent → Bool
  | .element name' attributes _ => name' = "MDElem" ∧ ("name", name) ∈ attributes
  | .text _ => false

/-- What the first selected node contains. -/
def selected (document : XmlDocument) (name : String) : List XmlContent :=
  XmlNode.content
    (((traverse document.content).find? fun v => selects name v.node).map Visit.node)

/-- `ImplToModel`. -/
def implToModel (reader : DataReader D) (document : XmlDocument) (elementName : String) :
    Outcome (MetadataModel D) := do
  require (trimCopy elementName ≠ "")
  let walker ←
    (SimpleWalker.start elementName).walk reader (traverse (selected document elementName))
  return walker.model

/-! ## What a tree of metadata should be -/

/-- The name of a named `MDElem`. -/
def elementName : XmlContent → Option String
  | .element name attributes _ =>
    if name = "MDElem" then (attributes.lookup "name").filter (· ≠ "") else none
  | .text _ => none

def isNamed (node : XmlContent) : Bool := (elementName node).isSome

/-- What is made of a node: an element, an attribute, or nothing. Making it can throw. -/
inductive Made (D : Type) where
  | element (name : String)
  | attr (value : MetadataAttribute D)
  | nothing

def made (reader : DataReader D) (node : XmlContent) : Outcome (Made D) :=
  match elementName node with
  | some name => do
    require (trimCopy name ≠ "")
    return .element name
  | none =>
    match node with
    | .element name attributes content =>
      if name = "MDATTR" then do
        match ← readAttribute reader attributes content with
        | some current => return .attr current
        | none => return .nothing
      else
        return .nothing
    | .text _ => return .nothing

/-- The attribute that is made of an `MDATTR` that yields data. -/
def madeAttribute (reader : DataReader D) (node : XmlContent) : Option (MetadataAttribute D) :=
  match made reader node with
  | .ok (.attr current) => some current
  | _ => none

def yieldsData (reader : DataReader D) (node : XmlContent) : Bool :=
  (madeAttribute reader node).isSome

/-- The pointer to the element that is made of a named node. The start element is before it. -/
def pointer (visits : List (Visit XmlContent)) (i : Nat) : Nat := numberOf isNamed visits i + 1

/-- Each named `MDElem` and each `MDATTR` that yields data, in document order, below the element
that is the target of its position. -/
def modelOf (reader : DataReader D) (start : String) (target : Nat → Nat)
    (visits : List (Visit XmlContent)) : MetadataModel D where
  elements := (start :: visits.filterMap fun v => elementName v.node).zipIdx.map fun e =>
    { name := e.1
      attributes := withTarget (yieldsData reader) target visits e.2
      elements := (withTarget isNamed target visits e.2).map (· + 1) }
  attributes := visits.filterMap fun v => madeAttribute reader v.node

/-- The nearest enclosing named `MDElem`, or else the start element. -/
def nearest (visits : List (Visit XmlContent)) (i : Nat) : Nat :=
  match visits[i]? with
  | some v =>
    match v.ancestors.find? fun j => (visits[j]?).any fun u => isNamed u.node with
    | some j => pointer visits j
    | none => 0
  | none => 0

/-- No pass looks outside the list of latest elements. -/
def StaysInside (reader : DataReader D) (start : String) (visits : List (Visit XmlContent)) :
    Prop :=
  ∀ done v rest, visits = done ++ v :: rest →
    ∀ walker, (SimpleWalker.start start).walk reader done = .ok walker →
    ∀ object, made reader v.node = .ok object → object ≠ .nothing →
      v.depth < walker.metaDataLatestLevelElement.length

/-- The reader rebuilds the tree. -/
structure RebuildsTree (reader : DataReader D) (document : XmlDocument) (elementName : String) :
    Prop where
  inside : trimCopy elementName ≠ "" →
    StaysInside reader elementName (traverse (selected document elementName))
  tree : ∀ model, implToModel reader document elementName = .ok model →
    model = modelOf reader elementName (nearest (traverse (selected document elementName)))
      (traverse (selected document elementName))

/-! ## Where the latest elements are the parents -/

/-- Something is made of the node. -/
def Adds (reader : DataReader D) (node : XmlContent) : Prop :=
  ∃ object, made reader node = .ok object ∧ object ≠ .nothing

/-- Nothing is thrown for the node. -/
def Readable (reader : DataReader D) (node : XmlContent) : Prop :=
  ∃ object, made reader node = .ok object

/-- A node that something is made of, as long as nothing has been thrown, is at the top or comes
after a named `MDElem` of the level above it. When nothing is thrown at all, its parent is one. -/
structure Attached (reader : DataReader D) (visits : List (Visit XmlContent)) : Prop where
  level : ∀ done v rest, visits = done ++ v :: rest → (∀ u ∈ done, Readable reader u.node) →
    Adds reader v.node → v.depth = 0 ∨ ∃ u ∈ done, isNamed u.node ∧ u.depth + 1 = v.depth
  parent : (∀ v ∈ visits, Readable reader v.node) → ∀ v ∈ visits, Adds reader v.node →
    ∀ i ∈ v.ancestors.head?, ∃ u, visits[i]? = some u ∧ isNamed u.node

/-! ## One pass -/

variable {reader : DataReader D} {walker walker' : SimpleWalker D} {depth : Nat}

namespace SimpleWalker

/-- What is made of a node is added to the latest element of its level. -/
def add (walker : SimpleWalker D) (depth : Nat) : Made D → Outcome (SimpleWalker D)
  | .element name => walker.addElement depth name
  | .attr current => walker.addAttribute depth current
  | .nothing => .ok walker

theorem readName_of_ne {ait : String × String} (h : ait.1 ≠ "name") :
    walker.readName depth ait = .ok walker := by
  simp [readName, h]

theorem foldlM_readName_of_unnamed {attributes : List (String × String)}
    (h : "name" ∉ attributes.map Prod.fst) :
    attributes.foldlM (readName depth) walker = .ok walker := by
  induction attributes with
  | nil => rfl
  | cons ait rest ih =>
    simp only [List.map_cons, List.mem_cons, not_or] at h
    rw [List.foldlM_cons, readName_of_ne (Ne.symm h.1), Outcome.ok_bind, ih h.2]

/-- An `MDElem` with one name, if it is not empty, becomes one element. -/
theorem foldlM_readName {attributes : List (String × String)}
    (h : (attributes.map Prod.fst).Nodup) :
    attributes.foldlM (readName depth) walker =
      match (attributes.lookup "name").filter (· ≠ "") with
      | some name => require (trimCopy name ≠ "") >>= fun _ => walker.addElement depth name
      | none => .ok walker := by
  induction attributes with
  | nil => rfl
  | cons ait rest ih =>
    obtain ⟨key, value⟩ := ait
    simp only [List.map_cons, List.nodup_cons] at h
    by_cases hkey : key = "name"
    · subst hkey
      have hrest (walker : SimpleWalker D) : rest.foldlM (readName depth) walker = .ok walker :=
        foldlM_readName_of_unnamed h.1
      by_cases hvalue : value = ""
      · rw [List.foldlM_cons, readName, if_neg (by simp [hvalue])]
        simpa [hvalue, Option.filter_some] using hrest walker
      · simp only [List.foldlM_cons, readName, List.lookup_cons, beq_self_eq_true, hvalue, ne_eq,
          not_false_eq_true, and_self, if_true, Option.filter_some, decide_true]
        rw [bind_assoc]
        congr 1
        funext _
        cases walker.addElement depth value with
        | ok after => exact hrest after
        | throws => rfl
        | undefined => rfl
    · have hlookup : ("name" == key) = false := by simpa using Ne.symm hkey
      rw [List.foldlM_cons, readName_of_ne hkey, Outcome.ok_bind, ih h.2, List.lookup_cons,
        hlookup]

theorem forEach_eq {visit : Visit XmlContent} (h : visit.node.AttributesUnique) :
    walker.forEach reader visit = made reader visit.node >>= walker.add visit.depth := by
  obtain ⟨node, ancestors⟩ := visit
  cases node with
  | text value => rfl
  | element name attributes content =>
    unfold forEach made
    by_cases helement : name = "MDElem"
    · subst helement
      simp only [if_true, elementName]
      rw [foldlM_readName h.1]
      cases (attributes.lookup "name").filter (· ≠ "") with
      | some name =>
        rw [bind_assoc]
        rfl
      | none => rfl
    · simp only [elementName, if_neg helement]
      by_cases hattribute : name = "MDATTR"
      · simp only [if_pos hattribute]
        rw [bind_assoc]
        congr 1
        funext found
        cases found <;> rfl
      · simp only [if_neg hattribute]
        rfl

end SimpleWalker

/-! ## The model of a traversal that goes on -/

section Model

variable {start : String} {target target' : Nat → Nat} {visits done : List (Visit XmlContent)}
  {v : Visit XmlContent}

theorem made_of_named {node : XmlContent} {name : String} (h : elementName node = some name) :
    made reader node = require (trimCopy name ≠ "") >>= fun _ => .ok (.element name) := by
  simp only [made, h]
  rfl

theorem elementName_of_element {node : XmlContent} {name : String}
    (h : made reader node = .ok (.element name)) : elementName node = some name := by
  unfold made at h
  split at h
  · next name' hname =>
    obtain ⟨_, -, hmade⟩ := Outcome.bind_eq_ok.mp h
    rw [hname, Made.element.inj (Outcome.ok.inj hmade)]
  · exfalso
    split at h
    · split at h
      · obtain ⟨found, -, hmade⟩ := Outcome.bind_eq_ok.mp h
        cases found <;> cases hmade
      · cases h
    · cases h

theorem elementName_eq_none {node : XmlContent} {object : Made D}
    (h : made reader node = .ok object) (hne : ∀ name, object ≠ .element name) :
    elementName node = none := by
  cases hname : elementName node with
  | none => rfl
  | some name =>
    rw [made_of_named hname] at h
    obtain ⟨_, -, hmade⟩ := Outcome.bind_eq_ok.mp h
    exact absurd (Outcome.ok.inj hmade).symm (hne name)

theorem length_elements : (modelOf reader start target visits).elements.length =
    numberOf isNamed visits visits.length + 1 := by
  simp [modelOf, numberOf, List.length_filterMap_eq_countP, isNamed]

theorem length_attributes : (modelOf reader start target visits).attributes.length =
    numberOf (yieldsData reader) visits visits.length := by
  simp [modelOf, numberOf, List.length_filterMap_eq_countP, yieldsData]

theorem getElem?_elements (a : Nat) : (modelOf reader start target visits).elements[a]? =
    (start :: visits.filterMap fun v => elementName v.node)[a]?.map fun name =>
      { name := name
        attributes := withTarget (yieldsData reader) target visits a
        elements := (withTarget isNamed target visits a).map (· + 1) } := by
  simp only [modelOf, List.getElem?_map, List.getElem?_zipIdx, Nat.zero_add, Option.map_map]
  rfl

/-- A node that nothing is made of leaves the model as it is. -/
theorem modelOf_concat_nothing (h : made reader v.node = .ok .nothing) :
    modelOf reader start target (done ++ [v]) = modelOf reader start target done := by
  have hname : elementName v.node = none := elementName_eq_none h (by simp)
  have hdata : madeAttribute reader v.node = none := by rw [madeAttribute, h]
  have hunnamed : isNamed v.node = false := by simp [isNamed, hname]
  have hyields : yieldsData reader v.node = false := by simp [yieldsData, hdata]
  simp [modelOf, withTarget_concat, hname, hdata, hunnamed, hyields]

/-- An attribute is added to the element that is its target. -/
theorem modelOf_concat_attribute {current : MetadataAttribute D}
    (h : made reader v.node = .ok (.attr current)) :
    modelOf reader start target (done ++ [v]) =
      ⟨(modelOf reader start target done).elements.modify (target done.length)
          (.addAttribute (modelOf reader start target done).attributes.length),
        (modelOf reader start target done).attributes ++ [current]⟩ := by
  have hname : elementName v.node = none := elementName_eq_none h (by simp)
  have hdata : madeAttribute reader v.node = some current := by rw [madeAttribute, h]
  have hunnamed : isNamed v.node = false := by simp [isNamed, hname]
  have hyields : yieldsData reader v.node = true := by simp [yieldsData, hdata]
  have hattributes : (modelOf reader start target (done ++ [v])).attributes =
      (modelOf reader start target done).attributes ++ [current] := by
    simp [modelOf, hdata]
  have helements : (modelOf reader start target (done ++ [v])).elements =
      (modelOf reader start target done).elements.modify (target done.length)
        (.addAttribute (modelOf reader start target done).attributes.length) := by
    refine List.ext_getElem? fun a => ?_
    rw [List.getElem?_modify, getElem?_elements, getElem?_elements, length_attributes]
    cases hname' : (start :: done.filterMap fun v => elementName v.node)[a]? with
    | none => simp [hname, hname']
    | some name =>
      by_cases ha : target done.length = a <;>
        simp [hname, hname', ha, withTarget_concat, hunnamed, hyields,
          MetadataElement.addAttribute]
  rw [← hattributes, ← helements]

/-- An element is added to the element that is its target, which was made before. -/
theorem modelOf_concat_element {name : String} (h : made reader v.node = .ok (.element name))
    (hbefore : ∀ i ≤ done.length, target i ≤ numberOf isNamed done i) :
    modelOf reader start target (done ++ [v]) =
      ⟨((modelOf reader start target done).elements ++ [MetadataElement.new name]).modify
          (target done.length) (.addElement (modelOf reader start target done).elements.length),
        (modelOf reader start target done).attributes⟩ := by
  have hname : elementName v.node = some name := elementName_of_element h
  have hdata : madeAttribute reader v.node = none := by rw [madeAttribute, h]
  have hnamed : isNamed v.node = true := by simp [isNamed, hname]
  have hyields : yieldsData reader v.node = false := by simp [yieldsData, hdata]
  have hattributes : (modelOf reader start target (done ++ [v])).attributes =
      (modelOf reader start target done).attributes := by
    simp [modelOf, hdata]
  have hlast := hbefore done.length (Nat.le_refl _)
  -- nothing has the new element as its target
  have hnew (p : XmlContent → Bool) :
      withTarget p target done (numberOf isNamed done done.length + 1) = [] := by
    refine withTarget_eq_nil fun i u hu _ => ?_
    have hi := (List.getElem?_eq_some_iff.mp hu).1
    have hle : numberOf isNamed done i ≤ numberOf isNamed done done.length :=
      numberOf_le hi.le done
    have := hbefore i hi.le
    omega
  have helements : (modelOf reader start target (done ++ [v])).elements =
      ((modelOf reader start target done).elements ++ [MetadataElement.new name]).modify
        (target done.length) (.addElement (modelOf reader start target done).elements.length) := by
    refine List.ext_getElem? fun a => ?_
    have hlength : (start :: done.filterMap fun v => elementName v.node).length =
        numberOf isNamed done done.length + 1 := by
      simp [numberOf, List.length_filterMap_eq_countP, isNamed]
    have hnames : (start :: (done ++ [v]).filterMap fun v => elementName v.node) =
        (start :: done.filterMap fun v => elementName v.node) ++ [name] := by
      simp [hname]
    rw [List.getElem?_modify, getElem?_elements, hnames, length_elements]
    rcases Nat.lt_trichotomy a (numberOf isNamed done done.length + 1) with hlt | heq | hgt
    · rw [List.getElem?_append_left (hlength ▸ hlt),
        List.getElem?_append_left (by rw [length_elements]; exact hlt), getElem?_elements]
      cases (start :: done.filterMap fun v => elementName v.node)[a]? with
      | none => simp
      | some name =>
        by_cases ha : target done.length = a <;>
          simp [ha, withTarget_concat, hnamed, hyields, MetadataElement.addElement]
    · have ha : target done.length ≠ a := by omega
      rw [heq, ← hlength, List.getElem?_concat_length, hlength, ← length_elements,
        List.getElem?_concat_length, length_elements]
      simp [heq ▸ ha, withTarget_concat, hnew, hyields, MetadataElement.new]
    · rw [List.getElem?_eq_none (by rw [List.length_append, hlength]; exact hgt),
        List.getElem?_eq_none (by rw [List.length_append, length_elements]; exact hgt)]
      simp
  rw [← hattributes, ← helements]

end Model

/-! ## The walker in the middle of a traversal -/

section Walk

variable {start : String} {target : Nat → Nat} {visits done rest : List (Visit XmlContent)}
  {v : Visit XmlContent}

/-- The latest element of a level: the start element, or the last named one above the level. -/
def latestPointer (done : List (Visit XmlContent)) : Nat → Option Nat
  | 0 => some 0
  | depth + 1 => (lastAt isNamed done depth).map (pointer done)

/-- The element that the walker adds to. -/
def latestTarget (visits : List (Visit XmlContent)) (i : Nat) : Nat :=
  match visits[i]? with
  | some v => (latestPointer (visits.take i) v.depth).getD 0
  | none => 0

theorem pointer_append {i : Nat} (hi : i ≤ done.length) (rest : List (Visit XmlContent)) :
    pointer (done ++ rest) i = pointer done i := by
  rw [pointer, pointer, numberOf_append hi]

theorem latestPointer_concat (depth : Nat) : latestPointer (done ++ [v]) (depth + 1) =
    if isNamed v.node ∧ v.depth = depth then some (pointer done done.length)
    else latestPointer done (depth + 1) := by
  rw [latestPointer, lastAt_concat]
  split
  · rw [Option.map_some, pointer_append (Nat.le_refl _)]
  · refine Option.map_congr fun j hj => ?_
    obtain ⟨u, hu, -⟩ := lastAt_eq_some hj
    exact pointer_append (List.getElem?_eq_some_iff.mp hu).1.le _

theorem latestPointer_le {depth a : Nat} (h : latestPointer done depth = some a) :
    a ≤ numberOf isNamed done done.length := by
  cases depth with
  | zero => exact Option.some.inj h ▸ Nat.zero_le _
  | succ depth =>
    obtain ⟨j, hj, rfl⟩ := Option.map_eq_some_iff.mp h
    obtain ⟨u, hu, hnamed, -⟩ := lastAt_eq_some hj
    exact numberOf_lt (List.getElem?_eq_some_iff.mp hu).1 hu hnamed

theorem latestTarget_le (visits : List (Visit XmlContent)) (i : Nat) :
    latestTarget visits i ≤ numberOf isNamed visits i := by
  unfold latestTarget
  split
  · next v hv =>
    cases hlatest : latestPointer (visits.take i) v.depth with
    | none => exact Nat.zero_le _
    | some a =>
      have hle := latestPointer_le hlatest
      rw [numberOf, List.take_length] at hle
      exact hle
  · exact Nat.zero_le _

theorem latestTarget_length : latestTarget (done ++ v :: rest) done.length =
    (latestPointer done v.depth).getD 0 := by
  simp [latestTarget]

/-- There is a latest element of the level. -/
theorem latestPointer_isSome_iff : (latestPointer done v.depth).isSome ↔
    v.depth = 0 ∨ ∃ u ∈ done, isNamed u.node ∧ u.depth + 1 = v.depth := by
  cases hdepth : v.depth with
  | zero => simp [latestPointer]
  | succ depth =>
    rw [latestPointer, Option.isSome_map]
    constructor
    · intro h
      obtain ⟨j, hj⟩ := Option.isSome_iff_exists.mp h
      obtain ⟨u, hu, hnamed, rfl⟩ := lastAt_eq_some hj
      exact .inr ⟨u, List.mem_of_getElem? hu, hnamed, rfl⟩
    · rintro (h | ⟨u, hu, hnamed, h⟩)
      · exact absurd h (Nat.succ_ne_zero depth)
      · obtain ⟨j, hj⟩ := List.getElem?_of_mem hu
        rw [← Nat.succ.inj h]
        exact lastAt_isSome hj hnamed

/-- The walker has made the model of what it has visited, below the latest elements. -/
structure Follows (reader : DataReader D) (start : String) (target : Nat → Nat)
    (done : List (Visit XmlContent)) (walker : SimpleWalker D) : Prop where
  model : walker.model = modelOf reader start target done
  latest : ∀ depth, walker.metaDataLatestLevelElement[depth]? = latestPointer done depth

theorem Follows.inside_iff (h : Follows reader start target done walker) :
    depth < walker.metaDataLatestLevelElement.length ↔ (latestPointer done depth).isSome := by
  rw [← h.latest]
  simp

theorem follows_start : Follows reader start target [] (SimpleWalker.start start) where
  model := rfl
  latest depth := by
    cases depth with
    | zero => rfl
    | succ depth => rfl

/-- The list of latest elements has grown by at most one. -/
theorem getElem?_setLatest {latest : List Nat} {current : Nat} (h : depth < latest.length)
    (d : Nat) :
    (if latest.length < depth + 2 then latest ++ [current]
      else latest.set (depth + 1) current)[d]? =
      if d = depth + 1 then some current else latest[d]? := by
  split
  · have hlength : latest.length = depth + 1 := by omega
    rcases Nat.lt_trichotomy d (depth + 1) with hlt | heq | hgt
    · rw [List.getElem?_append_left (hlength ▸ hlt), if_neg hlt.ne]
    · rw [if_pos heq, heq, ← hlength, List.getElem?_concat_length]
    · rw [if_neg hgt.ne', List.getElem?_eq_none (by simp; omega),
        List.getElem?_eq_none (by omega)]
  · rw [List.getElem?_set]
    grind

/-- What a pass adds is added to the target. -/
theorem Follows.add (h : Follows reader start target done walker) {object : Made D}
    (hmade : made reader v.node = .ok object)
    (htarget : target done.length = (latestPointer done v.depth).getD 0)
    (hbefore : ∀ i ≤ done.length, target i ≤ numberOf isNamed done i)
    (hadd : walker.add v.depth object = .ok walker') :
    Follows reader start target (done ++ [v]) walker' := by
  cases object with
  | nothing =>
    obtain rfl := Outcome.ok.inj hadd
    -- a node that makes nothing is no named element, and the path stays
    have hunnamed : isNamed v.node = false := by
      simp [isNamed, elementName_eq_none hmade (by simp)]
    refine ⟨by rw [h.model, modelOf_concat_nothing hmade], fun depth => ?_⟩
    rw [h.latest]
    cases depth with
    | zero => rfl
    | succ depth => rw [latestPointer_concat, if_neg (by simp [hunnamed])]
  | attr current =>
    obtain ⟨parent, hparent, hadd⟩ := Outcome.bind_eq_ok.mp hadd
    obtain rfl := Outcome.ok.inj hadd
    -- the parent is the latest element one level above
    rw [vectorIndex_eq_ok, Int.toNat_natCast, h.latest] at hparent
    rw [hparent.2, Option.getD_some] at htarget
    have hunnamed : isNamed v.node = false := by
      simp [isNamed, elementName_eq_none hmade (by simp)]
    refine ⟨by rw [modelOf_concat_attribute hmade, htarget, h.model], fun depth => ?_⟩
    rw [h.latest]
    cases depth with
    | zero => rfl
    | succ depth => rw [latestPointer_concat, if_neg (by simp [hunnamed])]
  | element name =>
    obtain ⟨parent, hparent, hadd⟩ := Outcome.bind_eq_ok.mp hadd
    obtain rfl := Outcome.ok.inj hadd
    rw [vectorIndex_eq_ok, Int.toNat_natCast] at hparent
    have hlt := (List.getElem?_eq_some_iff.mp hparent.2).1
    rw [h.latest] at hparent
    rw [hparent.2, Option.getD_some] at htarget
    have hnamed : isNamed v.node = true := by simp [isNamed, elementName_of_element hmade]
    -- the new element's number is the number of those made before
    have hcurrent : walker.model.elements.length = pointer done done.length := by
      rw [h.model, length_elements, pointer]
    refine ⟨by rw [modelOf_concat_element hmade hbefore, htarget, h.model], fun depth => ?_⟩
    dsimp only
    rw [getElem?_setLatest hlt, hcurrent]
    cases depth with
    | zero =>
      rw [if_neg (Nat.succ_ne_zero _).symm, h.latest]
      rfl
    | succ depth => simp [latestPointer_concat, h.latest, hnamed, eq_comm]

/-- A pass ends where there is a latest element of its level, or nothing to add. -/
theorem exists_add {object : Made D}
    (h : object ≠ .nothing → depth < walker.metaDataLatestLevelElement.length) :
    ∃ walker', walker.add depth object = .ok walker' := by
  have hparent (hne : object ≠ .nothing) := vectorIndex_natCast (h hne)
  cases object with
  | nothing => exact ⟨walker, rfl⟩
  | attr current =>
    simp only [SimpleWalker.add, SimpleWalker.addAttribute, hparent (by simp)]
    exact ⟨_, rfl⟩
  | element name =>
    simp only [SimpleWalker.add, SimpleWalker.addElement, hparent (by simp)]
    exact ⟨_, rfl⟩

theorem walk_concat (hunique : v.node.AttributesUnique) :
    walker.walk reader (done ++ [v]) = walker.walk reader done >>= fun after =>
      made reader v.node >>= after.add v.depth := by
  simp only [SimpleWalker.walk, List.foldlM_append, List.foldlM_cons, List.foldlM_nil, bind_pure,
    SimpleWalker.forEach_eq hunique]

/-- The walker follows the traversal as far as it comes. -/
theorem follows_walk (hunique : ∀ v ∈ visits, v.node.AttributesUnique)
    (hvisits : visits = done ++ rest)
    (hwalk : (SimpleWalker.start start).walk reader done = .ok walker) :
    Follows reader start (latestTarget visits) done walker := by
  induction done using List.reverseRecOn generalizing rest walker with
  | nil =>
    obtain rfl := Outcome.ok.inj hwalk
    exact follows_start
  | append_singleton done v ih =>
    rw [List.append_assoc, List.singleton_append] at hvisits
    rw [walk_concat (hunique v (by simp [hvisits])), Outcome.bind_eq_ok] at hwalk
    obtain ⟨before, hbefore, hpass⟩ := hwalk
    obtain ⟨object, hmade, hadd⟩ := Outcome.bind_eq_ok.mp hpass
    refine (ih hvisits hbefore).add hmade (by rw [hvisits, latestTarget_length]) ?_ hadd
    intro i hi
    rw [← numberOf_append hi (v :: rest), ← hvisits]
    exact latestTarget_le visits i

/-- Where the walker has come to, nothing was thrown. -/
theorem readable_of_walk (hunique : ∀ v ∈ done, v.node.AttributesUnique)
    (hwalk : (SimpleWalker.start start).walk reader done = .ok walker) :
    ∀ u ∈ done, Readable reader u.node := by
  induction done using List.reverseRecOn generalizing walker with
  | nil => simp
  | append_singleton done v ih =>
    rw [walk_concat (hunique v (by simp)), Outcome.bind_eq_ok] at hwalk
    obtain ⟨before, hbefore, hpass⟩ := hwalk
    obtain ⟨object, hmade, -⟩ := Outcome.bind_eq_ok.mp hpass
    intro u hu
    rcases List.mem_append.mp hu with hdone | hlast
    · exact ih (fun w hw => hunique w (List.mem_append_left _ hw)) hbefore u hdone
    · rw [List.mem_singleton.mp hlast]
      exact ⟨object, hmade⟩

theorem StaysInside.exists_walk (h : StaysInside reader start visits)
    (hunique : ∀ v ∈ visits, v.node.AttributesUnique) (hvisits : visits = done ++ rest)
    (hreadable : ∀ u ∈ done, Readable reader u.node) :
    ∃ walker, (SimpleWalker.start start).walk reader done = .ok walker := by
  induction done using List.reverseRecOn generalizing rest with
  | nil => exact ⟨_, rfl⟩
  | append_singleton done v ih =>
    rw [List.append_assoc, List.singleton_append] at hvisits
    obtain ⟨walker, hwalk⟩ := ih hvisits fun u hu => hreadable u (List.mem_append_left _ hu)
    obtain ⟨object, hmade⟩ := hreadable v (by simp)
    rw [walk_concat (hunique v (by simp [hvisits])), hwalk, Outcome.ok_bind, hmade,
      Outcome.ok_bind]
    exact exists_add (h done v rest hvisits walker hwalk object hmade)

/-- The list of latest elements is long enough where every node comes after a named one of the level
above it. -/
theorem staysInside_iff_level (hunique : ∀ v ∈ visits, v.node.AttributesUnique) :
    StaysInside reader start visits ↔ ∀ done v rest, visits = done ++ v :: rest →
      (∀ u ∈ done, Readable reader u.node) → Adds reader v.node →
        v.depth = 0 ∨ ∃ u ∈ done, isNamed u.node ∧ u.depth + 1 = v.depth := by
  constructor
  · rintro h done v rest hvisits hreadable ⟨object, hmade, hne⟩
    obtain ⟨walker, hwalk⟩ := h.exists_walk hunique hvisits hreadable
    have hfollows := follows_walk hunique hvisits hwalk
    rw [← latestPointer_isSome_iff, ← hfollows.inside_iff]
    exact h done v rest hvisits walker hwalk object hmade hne
  · intro h done v rest hvisits walker hwalk object hmade hne
    have hfollows := follows_walk hunique hvisits hwalk
    rw [hfollows.inside_iff, latestPointer_isSome_iff]
    have hdone : ∀ u ∈ done, u.node.AttributesUnique :=
      fun u hu => hunique u (by simp [hvisits, hu])
    exact h done v rest hvisits (readable_of_walk hdone hwalk) ⟨object, hmade, hne⟩

end Walk

/-! ## Parents -/

section Parents

variable {start : String} {target target' : Nat → Nat} {visits : List (Visit XmlContent)}
  {v : Visit XmlContent}

theorem adds_iff {node : XmlContent} (h : Readable reader node) :
    Adds reader node ↔ isNamed node ∨ yieldsData reader node := by
  obtain ⟨object, hmade⟩ := h
  simp only [Adds, yieldsData, madeAttribute, hmade, Outcome.ok.injEq, exists_eq_left']
  cases object with
  | element name => simp [isNamed, elementName_of_element hmade]
  | attr current => simp
  | nothing => simp [isNamed, elementName_eq_none hmade (by simp)]

/-- Models are the same where the nodes that something is made of have the same targets. -/
theorem modelOf_eq_iff (hreadable : ∀ v ∈ visits, Readable reader v.node)
    (htarget : ∀ i, target i ≤ numberOf isNamed visits i) :
    modelOf reader start target visits = modelOf reader start target' visits ↔
      ∀ i v, visits[i]? = some v → Adds reader v.node → target i = target' i := by
  constructor
  · intro h i v hv hadds
    -- the element that the node is added to exists
    have hlt : target i < (modelOf reader start target visits).elements.length := by
      have hi := (List.getElem?_eq_some_iff.mp hv).1
      have hle : numberOf isNamed visits i ≤ numberOf isNamed visits visits.length :=
        numberOf_le hi.le visits
      have := htarget i
      rw [length_elements]
      omega
    have hobject : (modelOf reader start target visits).elements[target i]? =
        (modelOf reader start target' visits).elements[target i]? := by rw [h]
    have hentry := List.getElem?_eq_getElem hlt
    rw [getElem?_elements, Option.map_eq_some_iff] at hentry
    obtain ⟨name, hname, -⟩ := hentry
    rw [getElem?_elements, getElem?_elements] at hobject
    simp only [hname, Option.map_some, Option.some.injEq, MetadataElement.mk.injEq, true_and]
      at hobject
    obtain ⟨hattributes, helements⟩ := hobject
    -- it has the node in its list, and so must the other target's
    rcases (adds_iff (hreadable v (List.mem_of_getElem? hv))).mp hadds with hnamed | hyields
    · have helements := List.map_injective_iff.mpr (add_left_injective 1) helements
      exact ((mem_withTarget hv hnamed).mp (helements ▸ (mem_withTarget hv hnamed).mpr rfl)).symm
    · exact ((mem_withTarget hv hyields).mp
        (hattributes ▸ (mem_withTarget hv hyields).mpr rfl)).symm
  · intro h
    have hsame (p : XmlContent → Bool) (hp : ∀ v ∈ visits, p v.node = true → Adds reader v.node)
        (a : Nat) : withTarget p target visits a = withTarget p target' visits a :=
      withTarget_congr (fun i v hv hpv => h i v hv (hp v (List.mem_of_getElem? hv) hpv)) a
    have hnamed (a : Nat) := hsame isNamed
      (fun v hv hp => (adds_iff (hreadable v hv)).mpr (.inl hp)) a
    have hyields (a : Nat) := hsame (yieldsData reader)
      (fun v hv hp => (adds_iff (hreadable v hv)).mpr (.inr hp)) a
    simp only [modelOf, hnamed, hyields]

/-- The latest element of the level is the nearest enclosing one where it is the parent, or the node
is at the top. -/
theorem latestTarget_eq_nearest_iff {done rest : List (Visit XmlContent)}
    (hpreorder : IsPreorder (done ++ v :: rest)) (hsome : (latestPointer done v.depth).isSome) :
    latestTarget (done ++ v :: rest) done.length = nearest (done ++ v :: rest) done.length ↔
      ∀ i ∈ v.ancestors.head?, ∃ u, (done ++ v :: rest)[i]? = some u ∧ isNamed u.node := by
  obtain ⟨hdone, hpath⟩ := hpreorder.of_append
  have hv : (done ++ v :: rest)[done.length]? = some v := by simp
  rw [latestTarget_length]
  simp only [nearest, hv]
  cases hancestors : v.ancestors with
  | nil => simp [Visit.depth, hancestors, latestPointer]
  | cons parent more =>
    obtain ⟨u, hu, hmore, hlast⟩ := lastAt_parent (p := isNamed) hdone hpath hancestors
    have hu' : (done ++ v :: rest)[parent]? = some u := by
      rw [List.getElem?_append_left (List.getElem?_eq_some_iff.mp hu).1, hu]
    have hdepth : v.depth = more.length + 1 := by rw [Visit.depth, hancestors, List.length_cons]
    rw [hdepth, latestPointer, Option.isSome_map] at hsome
    obtain ⟨j, hj⟩ := Option.isSome_iff_exists.mp hsome
    obtain ⟨w, hw, hnamed, hwdepth⟩ := lastAt_eq_some hj
    have hjlt := (List.getElem?_eq_some_iff.mp hw).1
    simp only [hdepth, latestPointer, hj, Option.map_some, Option.getD_some, List.head?_cons,
      Option.mem_some_iff, forall_eq', hu', Option.some.injEq, exists_eq_left', List.find?_cons,
      Option.any_some]
    cases hparent : isNamed u.node with
    | true =>
      rw [hlast hparent, Option.some.injEq] at hj
      simp [hj, pointer_append hjlt.le]
    | false =>
      -- what encloses an unnamed parent is above the level of the latest element
      simp only [Bool.false_eq_true, iff_false]
      cases hfind : more.find? fun i => ((done ++ v :: rest)[i]?).any fun u => isNamed u.node with
      | none => exact Nat.succ_ne_zero _
      | some q =>
        rw [hancestors] at hpath
        obtain ⟨x, hx, hxdepth⟩ := depth_of_mem_ancestors hdone
          ((List.suffix_cons parent more).trans hpath) (List.mem_of_find?_eq_some hfind)
        have hxlt := (List.getElem?_eq_some_iff.mp hx).1
        have hxnamed := List.find?_some hfind
        rw [List.getElem?_append_left hxlt, hx, Option.any_some] at hxnamed
        intro hsame
        simp only [pointer, Nat.add_right_cancel_iff, numberOf_append hxlt.le] at hsame
        obtain rfl := numberOf_inj hw hnamed hx hxnamed hsame
        obtain rfl := Option.some.inj (hw.symm.trans hx)
        omega

end Parents

/-! ## The tree that is returned -/

theorem attributesUnique_selected (document : XmlDocument) (name : String) :
    ∀ v ∈ traverse (selected document name), v.node.AttributesUnique := by
  intro v hv
  refine AllUnique.of_mem_visitsOf ?_ hv
  unfold selected
  cases hfind : (traverse document.content).find? fun v => selects name v.node with
  | none => trivial
  | some found =>
    have hunique := AllUnique.of_mem_visitsOf document.unique (List.mem_of_find?_eq_some hfind)
    obtain ⟨node, ancestors⟩ := found
    cases node with
    | element name' attributes content => exact hunique.2
    | text value => trivial

/-- A model that is returned is one below the latest elements. -/
theorem of_implToModel {document : XmlDocument} {elementName : String} {model : MetadataModel D}
    {visits : List (Visit XmlContent)} (hvisits : traverse (selected document elementName) = visits)
    (h : implToModel reader document elementName = .ok model) :
    trimCopy elementName ≠ "" ∧ (∀ v ∈ visits, Readable reader v.node) ∧
      model = modelOf reader elementName (latestTarget visits) visits := by
  have hunique := attributesUnique_selected document elementName
  rw [hvisits] at hunique
  obtain ⟨_, hname, h⟩ := Outcome.bind_eq_ok.mp h
  rw [hvisits] at h
  obtain ⟨walker, hwalk, hmodel⟩ := Outcome.bind_eq_ok.mp h
  obtain rfl := Outcome.ok.inj hmodel
  have hfollows := follows_walk hunique (List.append_nil visits).symm hwalk
  exact ⟨Outcome.require_eq_ok.mp hname, readable_of_walk hunique hwalk, hfollows.model⟩

/-- A model is returned where nothing is thrown and every index is inside. -/
theorem exists_implToModel {document : XmlDocument} {elementName : String}
    {visits : List (Visit XmlContent)} (hvisits : traverse (selected document elementName) = visits)
    (hname : trimCopy elementName ≠ "") (hinside : StaysInside reader elementName visits)
    (hreadable : ∀ v ∈ visits, Readable reader v.node) :
    ∃ model, implToModel reader document elementName = .ok model := by
  have hunique := attributesUnique_selected document elementName
  rw [hvisits] at hunique
  obtain ⟨walker, hwalk⟩ := hinside.exists_walk hunique (List.append_nil visits).symm hreadable
  refine ⟨walker.model, ?_⟩
  rw [implToModel, Outcome.require_of hname, hvisits, Outcome.ok_bind, hwalk]
  rfl

/-- The model below the latest elements is the one below the nearest where every parent is named. -/
theorem modelOf_latest_iff {start : String} {visits : List (Visit XmlContent)}
    (hunique : ∀ v ∈ visits, v.node.AttributesUnique) (hpreorder : IsPreorder visits)
    (hinside : StaysInside reader start visits) (hreadable : ∀ v ∈ visits, Readable reader v.node) :
    modelOf reader start (latestTarget visits) visits =
        modelOf reader start (nearest visits) visits ↔
      ∀ v ∈ visits, Adds reader v.node →
        ∀ i ∈ v.ancestors.head?, ∃ u, visits[i]? = some u ∧ isNamed u.node := by
  have hsame (done rest : List (Visit XmlContent)) (v : Visit XmlContent)
      (h : visits = done ++ v :: rest) (hadds : Adds reader v.node) :
      latestTarget visits done.length = nearest visits done.length ↔
        ∀ i ∈ v.ancestors.head?, ∃ u, visits[i]? = some u ∧ isNamed u.node := by
    subst h
    refine latestTarget_eq_nearest_iff hpreorder (latestPointer_isSome_iff.mpr ?_)
    exact (staysInside_iff_level hunique).mp hinside done v rest rfl
      (fun u hu => hreadable u (List.mem_append_left _ hu)) hadds
  rw [modelOf_eq_iff hreadable (latestTarget_le visits)]
  constructor
  · intro h v hv hadds
    obtain ⟨done, rest, hsplit⟩ := List.append_of_mem hv
    exact (hsame done rest v hsplit hadds).mp (h done.length v (by simp [hsplit]) hadds)
  · intro h i v hv hadds
    obtain ⟨hi, hget⟩ := List.getElem?_eq_some_iff.mp hv
    have hsplit : visits = visits.take i ++ v :: visits.drop (i + 1) := by
      rw [← hget, List.getElem_cons_drop, List.take_append_drop]
    have hlength : (visits.take i).length = i := List.length_take_of_le hi.le
    have hat := (hsame _ _ v hsplit hadds).mpr (h v (List.mem_of_getElem? hv) hadds)
    rwa [hlength] at hat

/-- The reader rebuilds the tree exactly where the latest elements are the parents. -/
theorem rebuildsTree_iff (reader : DataReader D) (document : XmlDocument) (elementName : String) :
    RebuildsTree reader document elementName ↔
      (trimCopy elementName ≠ "" → Attached reader (traverse (selected document elementName))) := by
  have hunique := attributesUnique_selected document elementName
  have hpreorder := isPreorder_traverse (selected document elementName)
  generalize hvisits : traverse (selected document elementName) = visits at hunique hpreorder
  constructor
  · rintro ⟨hinside, htree⟩ hname
    rw [hvisits] at hinside htree
    refine ⟨(staysInside_iff_level hunique).mp (hinside hname), fun hreadable => ?_⟩
    obtain ⟨model, hmodel⟩ := exists_implToModel hvisits hname (hinside hname) hreadable
    rw [← modelOf_latest_iff hunique hpreorder (hinside hname) hreadable,
      ← (of_implToModel hvisits hmodel).2.2]
    exact htree model hmodel
  · intro h
    have hinside (hname : trimCopy elementName ≠ "") : StaysInside reader elementName visits :=
      (staysInside_iff_level hunique).mpr (h hname).level
    refine ⟨by rwa [hvisits], fun model hmodel => ?_⟩
    obtain ⟨hname, hreadable, hlatest⟩ := of_implToModel hvisits hmodel
    rw [hvisits, hlatest, modelOf_latest_iff hunique hpreorder (hinside hname) hreadable]
    exact (h hname).parent hreadable

/-- A reader that converts texts only. -/
def textReader : DataReader String := ⟨id, fun _ => none, fun _ _ => .throws⟩

/-- An element without a name beside a named one. -/
def unnamedElement : XmlDocument where
  content := [.element "Dimap_Document" [("name", "S1A")]
    [.element "MDElem" [("name", "Abstracted_Metadata")]
      [.element "MDElem" [("name", "Orbit")] [],
        .element "MDElem" [] [.element "MDATTR" [("name", "unit"), ("type", "ascii")] [.text "m"],
          .element "MDElem" [("name", "Band")] []]]]]
  unique := by simp [AllUnique, XmlContent.AttributesUnique]

/-- What it contains becomes part of the named one before it. -/
theorem not_rebuildsTree_unnamedElement :
    ¬ RebuildsTree textReader unnamedElement "Abstracted_Metadata" := by
  intro h
  have hmodel := h.tree
    ⟨[⟨"Abstracted_Metadata", [], [1]⟩, ⟨"Orbit", [0], [2]⟩, ⟨"Band", [], []⟩],
      [⟨"unit", "m", true, none, none⟩]⟩ (by decide)
  have helements := congrArg (fun m => m.elements.map MetadataElement.elements) hmodel
  revert helements
  decide

end Alus.SnapEngine.Dimap
