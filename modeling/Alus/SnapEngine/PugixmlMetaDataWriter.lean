import Alus.SnapEngine.ProductDataText
import Alus.SnapEngine.UtcTimes

/-!
# Writing the metadata of a DIMAP file

`pugixml_meta_data_writer.cc`: the elements of a tree of metadata and their attributes become nodes
of a document, which `ImplToModel` reads again. The attributes of the root are not written, and an
attribute without a text is not read.

How a document is saved and loaded is a parameter.
-/

namespace Alus.SnapEngine.Dimap

open Alus.Lib
open Alus.Etad (trimCopy)
open Alus.S1tbx (Calendar)
open Outcome (collect collect_eq_ok require)

/-! ## Trees of metadata -/

/-- A tree of `MetadataElement`s. -/
inductive MetadataTree (A : Type) where
  | node (name : String) (attributes : List A) (elements : List (MetadataTree A))

namespace MetadataTree

variable {A B : Type}

def name : MetadataTree A → String
  | node name _ _ => name

def elements : MetadataTree A → List (MetadataTree A)
  | node _ _ elements => elements

mutual

/-- The names and attributes of the elements, in document order. -/
def nodes : MetadataTree A → List (String × List A)
  | node name attributes elements => (name, attributes) :: nodesOf elements

def nodesOf : List (MetadataTree A) → List (String × List A)
  | [] => []
  | tree :: rest => tree.nodes ++ nodesOf rest

end

/-- The attributes of the elements, in document order. -/
def attributesOf (trees : List (MetadataTree A)) : List A := (nodesOf trees).flatMap Prod.snd

mutual

/-- The tree with other attributes. -/
def mapAttributes (f : List A → List B) : MetadataTree A → MetadataTree B
  | node name attributes elements => node name (f attributes) (mapAttributesOf f elements)

def mapAttributesOf (f : List A → List B) : List (MetadataTree A) → List (MetadataTree B)
  | [] => []
  | tree :: rest => tree.mapAttributes f :: mapAttributesOf f rest

end

/-- The pointers to the elements, if the first one is given. -/
def pointers (first : Nat) : List (MetadataTree A) → List Nat
  | [] => []
  | tree :: rest => first :: pointers (first + tree.nodes.length) rest

mutual

/-- The elements of a tree as objects, numbered in document order from the given pointers on. -/
def objects (first firstAttribute : Nat) : MetadataTree A → List MetadataElement
  | node name attributes elements =>
    ⟨name, List.range' firstAttribute attributes.length, pointers (first + 1) elements⟩ ::
      objectsOf (first + 1) (firstAttribute + attributes.length) elements

def objectsOf (first firstAttribute : Nat) : List (MetadataTree A) → List MetadataElement
  | [] => []
  | tree :: rest =>
    tree.objects first firstAttribute ++
      objectsOf (first + tree.nodes.length)
        (firstAttribute + (tree.nodes.flatMap Prod.snd).length) rest

end

/-- The objects of a tree. -/
def model {D : Type} (tree : MetadataTree (MetadataAttribute D)) : MetadataModel D :=
  ⟨tree.objects 0 0, tree.nodes.flatMap Prod.snd⟩

end MetadataTree

mutual

/-- The element that a pointer leads to is the root of the tree. -/
def MetadataModel.Represents {D : Type} (model : MetadataModel D) (pointer : Nat) :
    MetadataTree (MetadataAttribute D) → Prop
  | .node name attributes elements =>
    ∃ element, model.elements[pointer]? = some element ∧ element.name = name ∧
      (element.attributes.map fun i => model.attributes[i]?) = attributes.map some ∧
      model.RepresentsAll element.elements elements

def MetadataModel.RepresentsAll {D : Type} (model : MetadataModel D) (pointers : List Nat) :
    List (MetadataTree (MetadataAttribute D)) → Prop
  | [] => pointers = []
  | tree :: rest => ∃ first more, pointers = first :: more ∧ model.Represents first tree ∧
      model.RepresentsAll more rest

end

/-! ## The writer -/

variable {F G : Type} {calendar : Calendar}

/-- `MetadataAttribute` with the number of its elements. -/
structure DataNode (F G : Type) extends MetadataAttribute (ProductData F G) where
  numDataElems : Nat

/-- An attribute with a name, if that is not empty. -/
def nameAttribute (name : String) : List (String × String) :=
  if name ≠ "" then [("name", name)] else []

/-- The attributes of the node of an attribute. -/
def attributeFields (mdAtr : DataNode F G) : List (String × String) :=
  let type := mdAtr.data.typeString
  nameAttribute mdAtr.name ++
    mdAtr.description.toList.map (fun description => ("desc", description)) ++
    mdAtr.unit.toList.map (fun unit => ("unit", unit)) ++
    (if type ≠ "" then [("type", type)] else []) ++
    (if mdAtr.readOnly then [] else [("mode", "rw")]) ++
    (if 1 < mdAtr.numDataElems ∧ type ≠ "ascii" ∧ type ≠ "utc" then
      [("elems", toString mdAtr.numDataElems)] else [])

/-- A pass of the loop of `ModelAttributesToPugixmlNodes`. -/
def attributeNode (conversions : Conversions F G calendar) (mdAtr : DataNode F G) :
    Outcome XmlContent := do
  let text ← mdAtr.data.getElemString conversions
  return .element "MDATTR" (attributeFields mdAtr) [.text text]

/-- `ModelAttributesToPugixmlNodes`. -/
def modelAttributesToPugixmlNodes (conversions : Conversions F G calendar)
    (attributes : List (DataNode F G)) : Outcome (List XmlContent) :=
  collect (attributes.map (attributeNode conversions))

mutual

/-- A pass of the loop of `ModelElementsToPugixmlNodes`. -/
def elementNode (conversions : Conversions F G calendar) :
    MetadataTree (DataNode F G) → Outcome XmlContent
  | .node name attributes elements => do
    let attributeNodes ← modelAttributesToPugixmlNodes conversions attributes
    let elementNodes ← modelElementsToPugixmlNodes conversions elements
    return .element "MDElem" (nameAttribute name) (attributeNodes ++ elementNodes)

/-- `ModelElementsToPugixmlNodes`. -/
def modelElementsToPugixmlNodes (conversions : Conversions F G calendar) :
    List (MetadataTree (DataNode F G)) → Outcome (List XmlContent)
  | [] => return []
  | childElem :: rest => do
    let child ← elementNode conversions childElem
    let children ← modelElementsToPugixmlNodes conversions rest
    return child :: children

end

/-- `ModelToImpl`. -/
def modelToImpl (conversions : Conversions F G calendar) (root : MetadataTree (DataNode F G)) :
    Outcome XmlContent := do
  let elements ← modelElementsToPugixmlNodes conversions root.elements
  return .element "MDElem" (nameAttribute root.name) elements

/-! ## The file -/

/-- A text that the parser drops. -/
def isBlankText : XmlContent → Bool
  | .element _ _ _ => false
  | .text value => isBlank value

mutual

/-- What is left of the nodes of a document in its file. -/
def stored : XmlContent → XmlContent
  | .element name attributes content => .element name attributes (storedOf content)
  | .text value => .text value

def storedOf : List XmlContent → List XmlContent
  | [] => []
  | node :: rest => if isBlankText node then storedOf rest else stored node :: storedOf rest

end

mutual

/-- The elements have different attributes, of plain names and printable values, and contain
elements or one printable text. -/
def IsPlain : XmlContent → Prop
  | .element name attributes content =>
    (name.toList.all Char.isAlpha ∧ (attributes.map Prod.fst).Nodup ∧
      ∀ a ∈ attributes, a.1.toList.all Char.isAlpha ∧ IsPrintable a.2) ∧
    ((∃ text, content = [.text text] ∧ IsPrintable text) ∨ ArePlain content)
  | .text _ => False

def ArePlain : List XmlContent → Prop
  | [] => True
  | node :: rest => IsPlain node ∧ ArePlain rest

end

/-- `save_file` and `load_file`: of plain nodes nothing but blank texts is lost. -/
structure XmlFile where
  loaded : XmlContent → XmlDocument
  content_loaded : ∀ root, IsPlain root → (loaded root).content = [stored root]

/-! ## What is read again -/

/-- The attribute that is read of the node of an attribute. -/
def rereadAttribute (conversions : Conversions F G calendar) (mdAtr : DataNode F G) :
    Option (MetadataAttribute (ProductData F G)) :=
  if mdAtr.data.hasText then
    some { mdAtr.toMetadataAttribute with data := mdAtr.data.reread conversions }
  else none

/-- The trees that are read of trees below the root. -/
def rereadOf (conversions : Conversions F G calendar) :
    List (MetadataTree (DataNode F G)) →
      List (MetadataTree (MetadataAttribute (ProductData F G))) :=
  MetadataTree.mapAttributesOf (List.filterMap (rereadAttribute conversions))

/-- A name that a `ProductNode` can have, and that a file keeps. -/
structure IsNodeName (name : String) : Prop where
  nonempty : trimCopy name ≠ ""
  printable : IsPrintable name

/-- An attribute that can be written, with texts that a file keeps. -/
structure IsWritable (mdAtr : DataNode F G) : Prop where
  name : IsNodeName mdAtr.name
  description : ∀ text ∈ mdAtr.description, IsPrintable text
  unit : ∀ text ∈ mdAtr.unit, IsPrintable text
  timed : mdAtr.data.IsTimed
  printable : mdAtr.data.HasPrintableText

/-! ## Objects below an element -/

section Objects

variable {α : Type}

theorem modify_append_left {l : List α} {i : Nat} (h : i < l.length) (r : List α) (f : α → α) :
    (l ++ r).modify i f = l.modify i f ++ r := by
  refine List.ext_getElem? fun j => ?_
  rw [List.getElem?_modify]
  by_cases hj : j < l.length
  · rw [List.getElem?_append_left hj, List.getElem?_append_left (by simpa using hj),
      List.getElem?_modify]
  · rw [List.getElem?_append_right (by omega), List.getElem?_append_right (by simp; omega),
      List.length_modify]
    simp [show i ≠ j by omega]

theorem modify_concat_length (l : List α) (a : α) (f : α → α) :
    (l ++ [a]).modify l.length f = l ++ [f a] := by
  rw [List.modify_eq_take_cons_drop (by simp)]
  simp

variable {A D : Type}

namespace MetadataTree

theorem nodesOf_append (trees trees' : List (MetadataTree A)) :
    nodesOf (trees ++ trees') = nodesOf trees ++ nodesOf trees' := by
  induction trees with
  | nil => rfl
  | cons tree rest ih => simp only [List.cons_append, nodesOf, ih, List.append_assoc]

theorem pointers_append (first : Nat) (trees trees' : List (MetadataTree A)) :
    pointers first (trees ++ trees') =
      pointers first trees ++ pointers (first + (nodesOf trees).length) trees' := by
  induction trees generalizing first with
  | nil => rfl
  | cons tree rest ih =>
    simp only [List.cons_append, pointers, nodesOf, ih, List.length_append, Nat.add_assoc]

theorem objectsOf_append (first firstAttribute : Nat) (trees trees' : List (MetadataTree A)) :
    objectsOf first firstAttribute (trees ++ trees') =
      objectsOf first firstAttribute trees ++
        objectsOf (first + (nodesOf trees).length)
          (firstAttribute + (attributesOf trees).length) trees' := by
  induction trees generalizing first firstAttribute with
  | nil => rfl
  | cons tree rest ih =>
    simp only [List.cons_append, objectsOf, nodesOf, attributesOf, ih, List.length_append,
      List.flatMap_append, Nat.add_assoc, List.append_assoc]

mutual

theorem length_objects (tree : MetadataTree A) (first firstAttribute : Nat) :
    (tree.objects first firstAttribute).length = tree.nodes.length := by
  cases tree with
  | node name attributes elements => simp [objects, nodes, length_objectsOf elements]

theorem length_objectsOf (trees : List (MetadataTree A)) (first firstAttribute : Nat) :
    (objectsOf first firstAttribute trees).length = (nodesOf trees).length := by
  cases trees with
  | nil => rfl
  | cons tree rest => simp [objectsOf, nodesOf, length_objects tree, length_objectsOf rest]

end

end MetadataTree

open MetadataTree

namespace MetadataModel

mutual

/-- The objects of a tree represent it, wherever they are. -/
theorem represents_objects (model : MetadataModel D)
    (tree : MetadataTree (MetadataAttribute D)) (before after : List MetadataElement)
    (beforeAttributes afterAttributes : List (MetadataAttribute D))
    (helements : model.elements =
      before ++ tree.objects before.length beforeAttributes.length ++ after)
    (hattributes : model.attributes =
      beforeAttributes ++ tree.nodes.flatMap Prod.snd ++ afterAttributes) :
    model.Represents before.length tree := by
  cases tree with
  | node name attributes elements =>
    let element : MetadataElement := ⟨name, List.range' beforeAttributes.length attributes.length,
      pointers (before.length + 1) elements⟩
    rw [objects] at helements
    rw [nodes, List.flatMap_cons] at hattributes
    have hself : model.elements[before.length]? = some element := by
      rw [helements, List.append_assoc, List.getElem?_append_right (Nat.le_refl _)]
      simp [element]
    have hown : ((List.range' beforeAttributes.length attributes.length).map fun i =>
        model.attributes[i]?) = attributes.map some := by
      refine List.ext_getElem (by simp) fun i hi _ => ?_
      have hlt : i < attributes.length := by simpa using hi
      simp [hattributes, List.getElem?_append, hlt]
    have hbelow := representsAll_objectsOf model elements (before ++ [element]) after
      (beforeAttributes ++ attributes) afterAttributes
      (by simpa [element, Nat.add_assoc] using helements)
      (by simpa [attributesOf] using hattributes)
    rw [List.length_append, List.length_singleton] at hbelow
    exact ⟨element, hself, rfl, hown, hbelow⟩

theorem representsAll_objectsOf (model : MetadataModel D)
    (trees : List (MetadataTree (MetadataAttribute D))) (before after : List MetadataElement)
    (beforeAttributes afterAttributes : List (MetadataAttribute D))
    (helements : model.elements =
      before ++ objectsOf before.length beforeAttributes.length trees ++ after)
    (hattributes : model.attributes =
      beforeAttributes ++ attributesOf trees ++ afterAttributes) :
    model.RepresentsAll (pointers before.length trees) trees := by
  cases trees with
  | nil => exact rfl
  | cons tree rest =>
    rw [objectsOf] at helements
    rw [attributesOf, nodesOf, List.flatMap_append] at hattributes
    have hfirst := represents_objects model tree before
      (objectsOf (before.length + tree.nodes.length)
        (beforeAttributes.length + (tree.nodes.flatMap Prod.snd).length) rest ++ after)
      beforeAttributes ((nodesOf rest).flatMap Prod.snd ++ afterAttributes)
      (by simpa using helements) (by simpa using hattributes)
    have hrest := representsAll_objectsOf model rest
      (before ++ tree.objects before.length beforeAttributes.length) after
      (beforeAttributes ++ tree.nodes.flatMap Prod.snd) afterAttributes
      (by simpa [length_objects] using helements) (by simpa [attributesOf] using hattributes)
    rw [List.length_append, length_objects] at hrest
    exact ⟨before.length, _, rfl, hfirst, hrest⟩

end

/-- The model with attributes of an element, and trees below it. -/
def grow (model : MetadataModel D) (parent : Nat) (attributes : List (MetadataAttribute D))
    (trees : List (MetadataTree (MetadataAttribute D))) : MetadataModel D where
  elements :=
    model.elements.modify parent (fun element =>
      ⟨element.name, element.attributes ++ List.range' model.attributes.length attributes.length,
        element.elements ++ pointers model.elements.length trees⟩) ++
      objectsOf model.elements.length (model.attributes.length + attributes.length) trees
  attributes := model.attributes ++ attributes ++ attributesOf trees

theorem length_elements_grow (model : MetadataModel D) (parent : Nat)
    (attributes : List (MetadataAttribute D))
    (trees : List (MetadataTree (MetadataAttribute D))) :
    (model.grow parent attributes trees).elements.length =
      model.elements.length + (nodesOf trees).length := by
  simp [grow, length_objectsOf]

variable {model : MetadataModel D} {parent : Nat}

theorem grow_nil : model.grow parent [] [] = model := by
  have h : model.elements.modify parent (fun element => element) = model.elements :=
    List.modify_id parent model.elements
  simp [grow, pointers, objectsOf, attributesOf, nodesOf, h]

/-- Attributes are added after attributes. -/
theorem grow_attributes (attributes attributes' : List (MetadataAttribute D)) :
    (model.grow parent attributes []).grow parent attributes' [] =
      model.grow parent (attributes ++ attributes') [] := by
  simp only [grow, pointers, objectsOf, attributesOf, nodesOf, List.flatMap_nil, List.append_nil,
    List.modify_modify_eq, List.length_append, List.append_assoc]
  congr 2
  funext element
  simp [List.range'_append_1]

/-- Trees are added after attributes and trees. -/
theorem grow_trees (h : parent < model.elements.length)
    (attributes : List (MetadataAttribute D))
    (trees trees' : List (MetadataTree (MetadataAttribute D))) :
    (model.grow parent attributes trees).grow parent [] trees' =
      model.grow parent attributes (trees ++ trees') := by
  have hlength := length_elements_grow model parent attributes trees
  rw [grow, hlength]
  simp only [grow, List.length_nil, List.range'_zero, List.append_nil, Nat.add_zero,
    List.length_append, pointers_append, objectsOf_append]
  rw [modify_append_left (by simpa using h), List.modify_modify_eq]
  simp [attributesOf, nodesOf_append, Nat.add_assoc, Function.comp_def]

end MetadataModel

end Objects

/-! ## The walker below an element -/

section Walk

open MetadataTree

variable {D : Type} {reader : DataReader D} {walker walker' walker'' : SimpleWalker D}
  {depth parent : Nat} {attributes attributes' : List (MetadataAttribute D)}
  {trees trees' : List (MetadataTree (MetadataAttribute D))} {content content' : List XmlContent}

/-- The walker has added attributes and trees to an element, which is still the latest one. -/
structure Grown (walker walker' : SimpleWalker D) (depth parent : Nat)
    (attributes : List (MetadataAttribute D))
    (trees : List (MetadataTree (MetadataAttribute D))) : Prop where
  model : walker'.model = walker.model.grow parent attributes trees
  latest : ∀ d ≤ depth,
    walker'.metaDataLatestLevelElement[d]? = walker.metaDataLatestLevelElement[d]?

/-- Wherever the walker comes to these nodes, it makes attributes and trees of them. -/
def Builds (reader : DataReader D) (content : List XmlContent)
    (attributes : List (MetadataAttribute D))
    (trees : List (MetadataTree (MetadataAttribute D))) : Prop :=
  ∀ (walker : SimpleWalker D) (ancestors : List Nat) (position parent : Nat),
    walker.metaDataLatestLevelElement[ancestors.length]? = some parent →
    parent < walker.model.elements.length →
    ∃ walker', walker.walk reader (visitsOf ancestors position content) = .ok walker' ∧
      Grown walker walker' ancestors.length parent attributes trees

theorem walk_append (visits visits' : List (Visit XmlContent)) :
    walker.walk reader (visits ++ visits') =
      walker.walk reader visits >>= fun walker => walker.walk reader visits' :=
  List.foldlM_append

theorem builds_nil : Builds reader [] [] [] := by
  intro walker ancestors position parent _ _
  exact ⟨walker, rfl, MetadataModel.grow_nil.symm, fun _ _ => rfl⟩

/-- Nodes are built one after the other, if what they make can be added so. -/
theorem Builds.append_of {attributes'' : List (MetadataAttribute D)}
    {trees'' : List (MetadataTree (MetadataAttribute D))}
    (h : Builds reader content attributes trees) (h' : Builds reader content' attributes' trees')
    (hgrow : ∀ (model : MetadataModel D) (parent : Nat), parent < model.elements.length →
      (model.grow parent attributes trees).grow parent attributes' trees' =
        model.grow parent attributes'' trees'') :
    Builds reader (content ++ content') attributes'' trees'' := by
  intro walker ancestors position parent hlatest hparent
  obtain ⟨middle, hwalk, hgrown⟩ := h walker ancestors position parent hlatest hparent
  have hparent' : parent < middle.model.elements.length := by
    rw [hgrown.model, MetadataModel.length_elements_grow]
    omega
  obtain ⟨walker', hwalk', hgrown'⟩ := h' middle ancestors
    (position + (visitsOf ancestors position content).length) parent
    ((hgrown.latest _ (Nat.le_refl _)).trans hlatest) hparent'
  refine ⟨walker', ?_, ?_, fun d hd => (hgrown'.latest d hd).trans (hgrown.latest d hd)⟩
  · rw [visitsOf_append, walk_append, hwalk, Outcome.ok_bind, hwalk']
  · rw [hgrown'.model, hgrown.model, hgrow _ _ hparent]

/-- Trees are built after attributes and trees. -/
theorem Builds.append (h : Builds reader content attributes trees)
    (h' : Builds reader content' [] trees') :
    Builds reader (content ++ content') attributes (trees ++ trees') :=
  h.append_of h' fun _ _ hparent => MetadataModel.grow_trees hparent attributes trees trees'

/-- Attributes are built after attributes. -/
theorem Builds.append_attributes (h : Builds reader content attributes [])
    (h' : Builds reader content' attributes' []) :
    Builds reader (content ++ content') (attributes ++ attributes') [] :=
  h.append_of h' fun _ _ _ => MetadataModel.grow_attributes attributes attributes'

theorem addAttribute_eq {current : MetadataAttribute D}
    (hlatest : walker.metaDataLatestLevelElement[depth]? = some parent) :
    walker.addAttribute depth current =
      .ok ⟨walker.model.grow parent [current] [], walker.metaDataLatestLevelElement⟩ := by
  have hindex : vectorIndex walker.metaDataLatestLevelElement depth = .ok parent := by
    rw [vectorIndex_eq_ok]
    exact ⟨Int.natCast_nonneg depth, hlatest⟩
  rw [SimpleWalker.addAttribute, hindex, Outcome.ok_bind, Outcome.pure_eq]
  simp [MetadataModel.grow, pointers, objectsOf, attributesOf, nodesOf]
  rfl

/-- An `MDATTR` with a text that is read makes an attribute. -/
theorem builds_attribute {fields : List (String × String)} {text : String}
    {current : MetadataAttribute D}
    (h : readAttribute reader fields [.text text] = .ok (some current)) :
    Builds reader [.element "MDATTR" fields [.text text]] [current] [] := by
  intro walker ancestors position parent hlatest _
  refine ⟨⟨walker.model.grow parent [current] [], walker.metaDataLatestLevelElement⟩, ?_, rfl,
    fun _ _ => rfl⟩
  simp [visitsOf, XmlContent.visits, SimpleWalker.walk, SimpleWalker.forEach, h, Visit.depth,
    addAttribute_eq hlatest]

/-- An `MDATTR` without a text makes nothing. -/
theorem builds_dropped (fields : List (String × String)) :
    Builds reader [.element "MDATTR" fields []] [] [] := by
  intro walker ancestors position parent _ _
  refine ⟨walker, ?_, MetadataModel.grow_nil.symm, fun _ _ => rfl⟩
  simp [visitsOf, XmlContent.visits, SimpleWalker.walk, SimpleWalker.forEach, readAttribute]

/-- The new element is the latest one of the next level. -/
theorem exists_addElement (name : String)
    (hlatest : walker.metaDataLatestLevelElement[depth]? = some parent) :
    ∃ walker', walker.addElement depth name = .ok walker' ∧
      walker'.model = ⟨(walker.model.elements ++ [MetadataElement.new name]).modify parent
        (.addElement walker.model.elements.length), walker.model.attributes⟩ ∧
      ∀ d, walker'.metaDataLatestLevelElement[d]? = if d = depth + 1 then
        some walker.model.elements.length else walker.metaDataLatestLevelElement[d]? := by
  have hindex : vectorIndex walker.metaDataLatestLevelElement depth = .ok parent := by
    rw [vectorIndex_eq_ok]
    exact ⟨Int.natCast_nonneg depth, hlatest⟩
  have hlt := (List.getElem?_eq_some_iff.mp hlatest).1
  rw [SimpleWalker.addElement]
  simp only [hindex, Outcome.ok_bind]
  exact ⟨_, rfl, rfl, getElem?_setLatest hlt⟩

/-- An element is added, and what is below it. -/
theorem grow_element {model model' : MetadataModel D} {name : String}
    (hparent : parent < model.elements.length)
    (hmodel : model' = ⟨(model.elements ++ [MetadataElement.new name]).modify parent
      (.addElement model.elements.length), model.attributes⟩) :
    model'.grow model.elements.length attributes trees =
      model.grow parent [] [.node name attributes trees] := by
  subst hmodel
  have hnew (f : MetadataElement → MetadataElement) :
      ((model.elements ++ [MetadataElement.new name]).modify parent
        (.addElement model.elements.length)).modify model.elements.length f =
      model.elements.modify parent (.addElement model.elements.length) ++ [f (.new name)] := by
    rw [modify_append_left hparent]
    have hlast := modify_concat_length
      (model.elements.modify parent (.addElement model.elements.length)) (.new name) f
    rwa [List.length_modify] at hlast
  simp only [MetadataModel.grow, hnew]
  simp [MetadataElement.new, pointers, objectsOf, MetadataTree.objects, attributesOf, nodesOf,
    MetadataTree.nodes]
  rfl

/-- A named `MDElem` makes an element, and what its content makes is below this. -/
theorem builds_element {name : String} (hname : trimCopy name ≠ "")
    (h : Builds reader content attributes trees) :
    Builds reader [.element "MDElem" [("name", name)] content] []
      [.node name attributes trees] := by
  intro walker ancestors position parent hlatest hparent
  obtain ⟨middle, hadd, hmodel, hmiddle⟩ := exists_addElement name hlatest
  have hne : name ≠ "" := by
    rintro rfl
    exact hname (by decide)
  -- the content is one level below, where the new element is the latest one
  have hbelow : middle.metaDataLatestLevelElement[(position :: ancestors).length]? =
      some walker.model.elements.length := by
    rw [hmiddle, List.length_cons, if_pos rfl]
  have hnew : walker.model.elements.length < middle.model.elements.length := by
    simp [hmodel]
  obtain ⟨walker', hwalk, hgrown⟩ := h middle (position :: ancestors) (position + 1) _ hbelow hnew
  refine ⟨walker', ?_, ?_, fun d hd => ?_⟩
  · have hvisit : walker.forEach reader
        ⟨.element "MDElem" [("name", name)] content, ancestors⟩ = .ok middle := by
      simp [SimpleWalker.forEach, SimpleWalker.readName, hne, Outcome.require_of hname, hadd,
        Visit.depth]
    rw [visitsOf, visitsOf, List.append_nil, XmlContent.visits, SimpleWalker.walk,
      List.foldlM_cons, hvisit]
    exact hwalk
  · rw [hgrown.model, grow_element hparent hmodel]
  · rw [hgrown.latest d (by simp; omega), hmiddle, if_neg (by omega)]

end Walk

/-! ## What is written is read -/

section Writer

variable (conversions : Conversions F G calendar)

theorem storedOf_append (content rest : List XmlContent) :
    storedOf (content ++ rest) = storedOf content ++ storedOf rest := by
  induction content with
  | nil => rfl
  | cons node more ih =>
    simp only [List.cons_append, storedOf, ih]
    split <;> simp

theorem arePlain_append {content rest : List XmlContent} :
    ArePlain (content ++ rest) ↔ ArePlain content ∧ ArePlain rest := by
  induction content with
  | nil => simp [ArePlain]
  | cons node more ih => simp [ArePlain, ih, and_assoc]

theorem IsNodeName.ne_empty {name : String} (h : IsNodeName name) : name ≠ "" := by
  rintro rfl
  exact h.nonempty (by decide)

theorem ProductData.typeString_mem (data : ProductData F G) : data.typeString ∈
    ["int8", "int16", "int32", "int64", "uint8", "uint16", "uint32", "float32", "float64", "ascii",
      "utc"] := by
  cases data with
  | integers type array => cases type <;> simp [typeString, IntegerType.typeString]
  | float32 array => simp [typeString]
  | float64 array => simp [typeString]
  | ascii array => simp [typeString]
  | utc u => simp [typeString]

theorem ProductData.typeString_plain (data : ProductData F G) :
    data.typeString ≠ "" ∧ IsPrintable data.typeString := by
  have hall : ∀ type ∈ ["int8", "int16", "int32", "int64", "uint8", "uint16", "uint32", "float32",
      "float64", "ascii", "utc"],
      type ≠ "" ∧ type.toList.all (fun c => ' '.toNat ≤ c.toNat) := by decide
  exact ⟨(hall _ data.typeString_mem).1, printable_of_all (hall _ data.typeString_mem).2⟩

/-- The loop over the attributes of the node finds the attribute's own. -/
theorem foldl_attributeFields {mdAtr : DataNode F G} (hname : mdAtr.name ≠ "") :
    (attributeFields mdAtr).foldl AttributeFields.read .initial =
      ⟨mdAtr.name, mdAtr.data.typeString, mdAtr.readOnly, mdAtr.description, mdAtr.unit⟩ := by
  have htype := mdAtr.data.typeString_plain.1
  -- the number of elements is not read
  have helems (p : Prop) [Decidable p] (fields : AttributeFields) (value : String) :
      (if p then [("elems", value)] else []).foldl AttributeFields.read fields = fields := by
    split <;> simp [AttributeFields.read]
  simp only [attributeFields, nameAttribute, List.foldl_append, if_pos hname, if_pos htype, helems]
  cases mdAtr.description <;> cases mdAtr.unit <;> cases mdAtr.readOnly <;>
    simp [AttributeFields.read, AttributeFields.initial, hname, htype, iequals]

theorem fst_attributeFields (mdAtr : DataNode F G) :
    ((attributeFields mdAtr).map Prod.fst).Sublist
      ["name", "desc", "unit", "type", "mode", "elems"] := by
  have hoption (key : String) (value : Option String) :
      ((value.toList.map fun value => (key, value)).map Prod.fst).Sublist [key] := by
    cases value <;> simp
  have hif (p : Prop) [Decidable p] (key value : String) :
      ((if p then [(key, value)] else []).map Prod.fst).Sublist [key] := by
    split <;> simp
  have hmode :
      ((if mdAtr.readOnly then [] else [("mode", "rw")]).map Prod.fst).Sublist ["mode"] := by
    split <;> simp
  simp only [attributeFields, nameAttribute, List.map_append]
  exact (((((hif _ "name" _).append (hoption "desc" _)).append (hoption "unit" _)).append
    (hif _ "type" _)).append hmode).append (hif _ "elems" _)

theorem isPlain_attributeFields {mdAtr : DataNode F G} (h : IsWritable mdAtr) :
    ((attributeFields mdAtr).map Prod.fst).Nodup ∧
      ∀ a ∈ attributeFields mdAtr, a.1.toList.all Char.isAlpha ∧ IsPrintable a.2 := by
  have hkeys := fst_attributeFields mdAtr
  refine ⟨hkeys.nodup (by decide), fun a ha => ⟨?_, ?_⟩⟩
  · have hkey := hkeys.subset (List.mem_map_of_mem (f := Prod.fst) ha)
    revert hkey
    generalize a.1 = key
    revert key
    decide
  · have hcount : IsPrintable (toString mdAtr.numDataElems) :=
      (toString_characters (mdAtr.numDataElems : Int)).2.2
    simp only [attributeFields, nameAttribute, List.mem_append, List.mem_map] at ha
    rcases ha with ((((hname | hdescription) | hunit) | htype) | hmode) | helems
    · split at hname <;> simp_all [h.name.printable]
    · obtain ⟨text, htext, rfl⟩ := hdescription
      exact h.description text (by simpa using htext)
    · obtain ⟨text, htext, rfl⟩ := hunit
      exact h.unit text (by simpa using htext)
    · split at htype <;> simp_all [mdAtr.data.typeString_plain.2]
    · have hrw : IsPrintable "rw" := printable_of_all (by decide)
      split at hmode <;> simp_all
    · split at helems
      · rw [List.mem_singleton.mp helems]
        exact hcount
      · simp at helems

/-- A node is written for an attribute, and is read as the attribute, if it has a text. -/
theorem exists_attributeNode {mdAtr : DataNode F G} (h : IsWritable mdAtr) :
    ∃ node, attributeNode conversions mdAtr = .ok node ∧ IsPlain node ∧
      Builds (productDataReader conversions) (storedOf [node])
        (rereadAttribute conversions mdAtr).toList [] := by
  obtain ⟨text, htext⟩ := exists_writtenText conversions h.timed
  have hplain := isPlain_attributeFields h
  refine ⟨.element "MDATTR" (attributeFields mdAtr) [.text text], ?_, ?_, ?_⟩
  · rw [attributeNode, htext.written]
    rfl
  · exact ⟨⟨by decide, hplain.1, hplain.2⟩, .inl ⟨text, rfl, htext.printable h.printable⟩⟩
  · have hblank := htext.blank
    cases hdata : mdAtr.data.hasText with
    | false =>
      have hstored : storedOf [.element "MDATTR" (attributeFields mdAtr) [.text text]] =
          [.element "MDATTR" (attributeFields mdAtr) []] := by
        simp [storedOf, stored, isBlankText, hblank, hdata]
      have hnone : rereadAttribute conversions mdAtr = none := by simp [rereadAttribute, hdata]
      rw [hstored, hnone]
      exact builds_dropped _
    | true =>
      have hstored : storedOf [.element "MDATTR" (attributeFields mdAtr) [.text text]] =
          [.element "MDATTR" (attributeFields mdAtr) [.text text]] := by
        simp [storedOf, stored, isBlankText, hblank, hdata]
      have hsome : rereadAttribute conversions mdAtr =
          some ⟨mdAtr.name, mdAtr.data.reread conversions, mdAtr.readOnly, mdAtr.description,
            mdAtr.unit⟩ := by
        simp [rereadAttribute, hdata]
      rw [hstored, hsome]
      refine builds_attribute ?_
      simp only [readAttribute, List.findSome?_cons, XmlContent.textValue,
        foldl_attributeFields h.name.ne_empty, htext.read hdata, Outcome.ok_bind,
        Outcome.require_of h.name.nonempty]
      rfl

/-- The nodes of attributes are read as those attributes that have a text. -/
theorem exists_attributeNodes {attributes : List (DataNode F G)}
    (h : ∀ mdAtr ∈ attributes, IsWritable mdAtr) :
    ∃ nodes, modelAttributesToPugixmlNodes conversions attributes = .ok nodes ∧ ArePlain nodes ∧
      Builds (productDataReader conversions) (storedOf nodes)
        (attributes.filterMap (rereadAttribute conversions)) [] := by
  induction attributes with
  | nil => exact ⟨[], rfl, trivial, builds_nil⟩
  | cons mdAtr rest ih =>
    obtain ⟨node, hnode, hplain, hbuilds⟩ :=
      exists_attributeNode conversions (h mdAtr List.mem_cons_self)
    obtain ⟨nodes, hnodes, hplains, hbuilds'⟩ := ih fun a ha => h a (List.mem_cons_of_mem _ ha)
    refine ⟨node :: nodes, ?_, ⟨hplain, hplains⟩, ?_⟩
    · rw [modelAttributesToPugixmlNodes] at hnodes ⊢
      simp [collect, hnode, hnodes]
    · have hboth := hbuilds.append_attributes hbuilds'
      rw [← storedOf_append] at hboth
      cases hread : rereadAttribute conversions mdAtr <;> simpa [hread] using hboth

/-- The names and the attributes of an element can be written. -/
def IsWritableNode (node : String × List (DataNode F G)) : Prop :=
  IsNodeName node.1 ∧ ∀ mdAtr ∈ node.2, IsWritable mdAtr

mutual

/-- The node of a tree is read as the tree. -/
theorem exists_elementNode (tree : MetadataTree (DataNode F G))
    (h : ∀ node ∈ tree.nodes, IsWritableNode node) :
    ∃ node, elementNode conversions tree = .ok node ∧ IsPlain node ∧
      Builds (productDataReader conversions) (storedOf [node]) []
        (rereadOf conversions [tree]) := by
  cases tree with
  | node name attributes elements =>
    have hself := h (name, attributes) (by simp [MetadataTree.nodes])
    obtain ⟨attributeNodes, hattributes, hplain, hbuilds⟩ :=
      exists_attributeNodes conversions hself.2
    obtain ⟨elementNodes, helements, hplains, hbuilds'⟩ := exists_elementNodes elements
      fun node hnode => h node (by simp [MetadataTree.nodes, hnode])
    have hfields : nameAttribute name = [("name", name)] := if_pos hself.1.ne_empty
    refine ⟨.element "MDElem" (nameAttribute name) (attributeNodes ++ elementNodes), ?_, ?_, ?_⟩
    · rw [elementNode, hattributes, helements]
      rfl
    · rw [hfields]
      exact ⟨⟨by decide, by simp, by simp [hself.1.printable]⟩,
        .inr (arePlain_append.mpr ⟨hplain, hplains⟩)⟩
    · have hbelow := hbuilds.append hbuilds'
      rw [← storedOf_append, List.nil_append] at hbelow
      rw [hfields]
      exact builds_element hself.1.nonempty hbelow

theorem exists_elementNodes (trees : List (MetadataTree (DataNode F G)))
    (h : ∀ node ∈ MetadataTree.nodesOf trees, IsWritableNode node) :
    ∃ nodes, modelElementsToPugixmlNodes conversions trees = .ok nodes ∧ ArePlain nodes ∧
      Builds (productDataReader conversions) (storedOf nodes) [] (rereadOf conversions trees) := by
  cases trees with
  | nil => exact ⟨[], rfl, trivial, builds_nil⟩
  | cons tree rest =>
    obtain ⟨node, hnode, hplain, hbuilds⟩ := exists_elementNode tree
      fun node hmem => h node (by simp [MetadataTree.nodesOf, hmem])
    obtain ⟨nodes, hnodes, hplains, hbuilds'⟩ := exists_elementNodes rest
      fun node hmem => h node (by simp [MetadataTree.nodesOf, hmem])
    refine ⟨node :: nodes, ?_, ⟨hplain, hplains⟩, ?_⟩
    · rw [modelElementsToPugixmlNodes, hnode, hnodes]
      rfl
    · have hboth := hbuilds.append hbuilds'
      rwa [← storedOf_append] at hboth

end

/-- The tree that is read of a tree: the root has lost its attributes. -/
def MetadataTree.reread (root : MetadataTree (DataNode F G)) :
    MetadataTree (MetadataAttribute (ProductData F G)) :=
  .node root.name [] (rereadOf conversions root.elements)

/-- The objects of a tree represent it. -/
theorem MetadataTree.represents_model {D : Type} (tree : MetadataTree (MetadataAttribute D)) :
    tree.model.Represents 0 tree :=
  MetadataModel.represents_objects tree.model tree [] [] [] [] (by simp [MetadataTree.model])
    (by simp [MetadataTree.model])

end Writer

/-! ## A tree with two attributes -/

section Sample

open UtcElems (dayTallies dayTallies_injective)

mutual

theorem IsPlain.unique {node : XmlContent} (h : IsPlain node) :
    (stored node).AttributesUnique := by
  cases node with
  | text value => exact h.elim
  | element name attributes content =>
    obtain ⟨⟨-, hnodup, -⟩, hcontent⟩ := h
    refine ⟨hnodup, ?_⟩
    rcases hcontent with ⟨text, rfl, -⟩ | hplain
    · cases hblank : isBlankText (.text text) <;>
        simp [storedOf, hblank, stored, AllUnique, XmlContent.AttributesUnique]
    · exact hplain.unique

theorem ArePlain.unique {content : List XmlContent} (h : ArePlain content) :
    AllUnique (storedOf content) := by
  cases content with
  | nil => trivial
  | cons node rest =>
    rw [storedOf]
    split
    · exact h.2.unique
    · exact ⟨h.1.unique, h.2.unique⟩

end

theorem nonempty_xmlFile : Nonempty XmlFile := by
  classical
  refine ⟨fun root => if h : AllUnique [stored root] then ⟨[stored root], h⟩ else ⟨[], trivial⟩,
    fun root hplain => ?_⟩
  rw [dif_pos ⟨hplain.unique, trivial⟩]

/-- The numbers 0 and 1 with six digits after the point. -/
def sixDigits : FloatText (Fin 2) where
  elemString v := if v = 0 then "0.000000" else "1.000000"
  setElem text :=
    if text = "0.000000" then .ok 0 else if text = "1.000000" then .ok 1 else .throws
  rounded := id
  setElem_elemString := by decide
  not_mem_elemString := by decide
  exists_mem_elemString v := ⟨'.', by revert v; decide, by decide⟩
  printable_elemString v := printable_of_all (by revert v; decide)

theorem dayTallies_plain (day : Int) : ',' ∉ dayTallies.text day ∧
    ∀ c ∈ dayTallies.text day, ' ' ≤ c := by
  have hchar (c : Char) (hc : c ∈ dayTallies.text day) : c = '|' ∨ c = '-' := by
    unfold dayTallies at hc
    dsimp only at hc
    split at hc
    · exact .inl (List.eq_of_mem_replicate hc)
    · rcases List.mem_cons.mp hc with hminus | htally
      · exact .inr hminus
      · exact .inl (List.eq_of_mem_replicate htally)
  refine ⟨fun h => ?_, fun c hc => ?_⟩
  · exact absurd (hchar _ h) (by decide)
  · rcases hchar c hc with rfl | rfl <;> decide

def tallyConversions (facet : DateFormatIn dayTallies) :
    Conversions (Fin 2) (Fin 2) dayTallies where
  facet := facet
  float32 := sixDigits
  float64 := sixDigits
  not_mem_date day := (dayTallies_plain day).1
  printable_date day := (dayTallies_plain day).2

def int16Of (v : Int) (h : IntegerType.int16.InRange v) : IntegerType.int16.Elem := ⟨v, h⟩

/-- Two numbers, a time whose seconds are more than a day, and an empty text. -/
def sampleMetadata : MetadataTree (DataNode (Fin 2) (Fin 2)) :=
  .node "metadata" [] [.node "Abstracted_Metadata"
    [⟨⟨"lines", .integers .int16 [int16Of 3 (by decide), int16Of (-4) (by decide)], false,
        some "first & last", none⟩, 2⟩,
      ⟨⟨"time", .utc ⟨1, 86401, 250000⟩, true, none, some "utc"⟩, 3⟩,
      ⟨⟨"note", .ascii "", true, none, none⟩, 0⟩] []]

theorem sampleMetadata_writable : ∀ node ∈ MetadataTree.nodesOf sampleMetadata.elements,
    IsWritableNode node := by
  have hname (name : String) (h : trimCopy name ≠ "" ∧
      name.toList.all (fun c => ' '.toNat ≤ c.toNat)) :
      IsNodeName name := ⟨h.1, printable_of_all h.2⟩
  simp only [sampleMetadata, MetadataTree.elements, MetadataTree.nodesOf, MetadataTree.nodes,
    List.append_nil, List.mem_singleton, forall_eq, IsWritableNode]
  refine ⟨hname _ (by decide), fun mdAtr hmdAtr => ?_⟩
  simp only [List.mem_cons, List.not_mem_nil, or_false] at hmdAtr
  rcases hmdAtr with rfl | rfl | rfl
  · have hdescription : IsPrintable "first & last" := printable_of_all (by decide)
    exact ⟨hname _ (by decide), by simpa using hdescription, by simp, trivial, trivial⟩
  · have hunit : IsPrintable "utc" := printable_of_all (by decide)
    exact ⟨hname _ (by decide), by simp, by simpa using hunit, ⟨by decide, by decide, by decide⟩,
      trivial⟩
  · exact ⟨hname _ (by decide), by simp, by simp, trivial, by simp [ProductData.HasPrintableText,
      IsPrintable]⟩

end Sample

end Alus.SnapEngine.Dimap
