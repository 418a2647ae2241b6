import Mathlib.Data.List.Basic
import Alus.Lib.Preorder

/-!
# XML trees

A parsed document and the lookups in it, as `pugixml` makes them: each takes a handle and returns
one, and a lookup that finds nothing, or starts from nothing, returns the null handle, whose name
and value are empty and that has no children. A traversal visits the nodes in pre-order.
-/

namespace Alus.Lib

/-- What an element contains. -/
inductive XmlContent where
  | element (name : String) (attributes : List (String × String)) (content : List XmlContent)
  | text (value : String)

namespace XmlContent

def isElement (name : String) : XmlContent → Bool
  | element name' _ _ => name' == name
  | text _ => false

def textValue : XmlContent → Option String
  | element _ _ _ => none
  | text value => some value

end XmlContent

/-- A handle; `none` is the null handle. -/
abbrev XmlNode := Option XmlContent

namespace XmlNode

def content : XmlNode → List XmlContent
  | some (.element _ _ content) => content
  | _ => []

/-- The value of `attribute(name)`, if there is one. -/
def attributeValue (node : XmlNode) (name : String) : Option String :=
  match node with
  | some (.element _ attributes _) => attributes.lookup name
  | _ => none

/-- `child(name)`: the first of that name. -/
def child (node : XmlNode) (name : String) : XmlNode :=
  node.content.find? (XmlContent.isElement name)

/-- `children(name)`, in document order. -/
def children (node : XmlNode) (name : String) : List XmlNode :=
  (node.content.filter (XmlContent.isElement name)).map some

/-- `child_value()`: the first text in the element. -/
def childValue (node : XmlNode) : String :=
  (node.content.findSome? XmlContent.textValue).getD ""

/-- `find_child_by_attribute(name, key, value)`. -/
def findChildByAttribute (node : XmlNode) (name key value : String) : XmlNode :=
  node.content.find? fun c =>
    c.isElement name && attributeValue (some c) key == some value

end XmlNode

/-! ## Traversals -/

mutual

/-- The nodes from one on, in pre-order, given where the traversal has come to. -/
def XmlContent.visits (ancestors : List Nat) (position : Nat) :
    XmlContent → List (Visit XmlContent)
  | .element name attributes content =>
    ⟨.element name attributes content, ancestors⟩ ::
      visitsOf (position :: ancestors) (position + 1) content
  | .text value => [⟨.text value, ancestors⟩]

/-- The nodes of a list of siblings, in pre-order. -/
def visitsOf (ancestors : List Nat) (position : Nat) : List XmlContent → List (Visit XmlContent)
  | [] => []
  | node :: rest =>
    node.visits ancestors position ++
      visitsOf ancestors (position + (node.visits ancestors position).length) rest

end

theorem visitsOf_append (ancestors : List Nat) (position : Nat) (content rest : List XmlContent) :
    visitsOf ancestors position (content ++ rest) =
      visitsOf ancestors position content ++
        visitsOf ancestors (position + (visitsOf ancestors position content).length) rest := by
  induction content generalizing position with
  | nil => rfl
  | cons node more ih =>
    simp only [List.cons_append, visitsOf, ih, List.length_append, Nat.add_assoc,
      List.append_assoc]

/-- The nodes below a node, in pre-order. -/
def traverse (content : List XmlContent) : List (Visit XmlContent) := visitsOf [] 0 content

mutual

/-- A traversal that goes on with a node is one in pre-order, and is still below the same nodes. -/
theorem XmlContent.isPreorder_visits (node : XmlContent) {done : List (Visit XmlContent)}
    {ancestors : List Nat} (hdone : IsPreorder done) (hpath : ancestors <:+ lastPath done) :
    IsPreorder (done ++ node.visits ancestors done.length) ∧
      ancestors <:+ lastPath (done ++ node.visits ancestors done.length) := by
  cases node with
  | element name attributes content =>
    have hnode : IsPreorder (done ++ [⟨.element name attributes content, ancestors⟩]) :=
      .concat hdone hpath
    have hnodePath : done.length :: ancestors <:+
        lastPath (done ++ [⟨.element name attributes content, ancestors⟩]) := by
      rw [lastPath_concat]
    obtain ⟨hbelow, hbelowPath⟩ := isPreorder_visitsOf content hnode hnodePath
    rw [List.length_append, List.length_singleton, List.append_assoc, List.singleton_append]
      at hbelow hbelowPath
    rw [XmlContent.visits]
    exact ⟨hbelow, (List.suffix_cons _ _).trans hbelowPath⟩
  | text value =>
    rw [XmlContent.visits]
    refine ⟨.concat hdone hpath, ?_⟩
    rw [lastPath_concat]
    exact List.suffix_cons _ _

theorem isPreorder_visitsOf (content : List XmlContent) {done : List (Visit XmlContent)}
    {ancestors : List Nat} (hdone : IsPreorder done) (hpath : ancestors <:+ lastPath done) :
    IsPreorder (done ++ visitsOf ancestors done.length content) ∧
      ancestors <:+ lastPath (done ++ visitsOf ancestors done.length content) := by
  cases content with
  | nil =>
    rw [visitsOf, List.append_nil]
    exact ⟨hdone, hpath⟩
  | cons node rest =>
    obtain ⟨hnode, hnodePath⟩ := node.isPreorder_visits hdone hpath
    have hrest := isPreorder_visitsOf rest hnode hnodePath
    rw [List.length_append, List.append_assoc] at hrest
    rw [visitsOf]
    exact hrest

end

theorem isPreorder_traverse (content : List XmlContent) : IsPreorder (traverse content) :=
  (isPreorder_visitsOf content .nil (List.suffix_refl _)).1

mutual

/-- No element has two attributes of one name. -/
def XmlContent.AttributesUnique : XmlContent → Prop
  | .element _ attributes content => (attributes.map Prod.fst).Nodup ∧ AllUnique content
  | .text _ => True

def AllUnique : List XmlContent → Prop
  | [] => True
  | node :: rest => node.AttributesUnique ∧ AllUnique rest

end

mutual

theorem XmlContent.AttributesUnique.of_mem_visits {node : XmlContent} (h : node.AttributesUnique)
    {ancestors : List Nat} {position : Nat} {v : Visit XmlContent}
    (hv : v ∈ node.visits ancestors position) : v.node.AttributesUnique := by
  cases node with
  | element name attributes content =>
    rw [XmlContent.visits] at hv
    rcases List.mem_cons.mp hv with rfl | hbelow
    · exact h
    · rw [XmlContent.AttributesUnique] at h
      exact AllUnique.of_mem_visitsOf h.2 hbelow
  | text value =>
    rw [XmlContent.visits, List.mem_singleton] at hv
    rw [hv]
    exact h

theorem AllUnique.of_mem_visitsOf {content : List XmlContent} (h : AllUnique content)
    {ancestors : List Nat} {position : Nat} {v : Visit XmlContent}
    (hv : v ∈ visitsOf ancestors position content) : v.node.AttributesUnique := by
  cases content with
  | nil => rw [visitsOf] at hv; cases hv
  | cons node rest =>
    rw [AllUnique] at h
    rw [visitsOf] at hv
    rcases List.mem_append.mp hv with hnode | hrest
    · exact XmlContent.AttributesUnique.of_mem_visits h.1 hnode
    · exact AllUnique.of_mem_visitsOf h.2 hrest

end

/-- A well-formed document. -/
structure XmlDocument where
  content : List XmlContent
  unique : AllUnique content

end Alus.Lib
