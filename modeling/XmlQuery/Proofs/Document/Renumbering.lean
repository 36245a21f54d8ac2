import Mathlib.Data.Set.Function
import XmlQuery.Proofs.Document.Forest

namespace XmlQuery

/-!
# Documents with other numbers

Nodes are numbered in the order in which they were entered.  One tree can be numbered in many ways,
and what is asked of nodes below a node does not depend on it.

* `Node.Alike` — nodes that no test of attributes, names and kinds tells apart.
* `Document.MirroredBy` — a subtree that another document has under other numbers.
* `Document.MirroredBy.subtree_eq`, `Document.MirroredBy.descendants_eq` — walks visit the mirror
  images in the same order.
* `Document.Renumbering` — documents that differ in their numbers only.
* `Document.Renumbering.mirroredBy` — in these, every subtree is mirrored.
-/

/-! ### Nodes that say the same -/

/-- Nodes that no test of attributes, names and kinds tells apart. -/
structure Node.Alike (n n' : Node) : Prop where
  isElement : n'.isElement = n.isElement
  name : n'.name = n.name
  attribute? : ∀ key, n'.attribute? key = n.attribute? key
  typedAttribute? : ∀ key, n'.typedAttribute? key = n.typedAttribute? key

/-- A node is alike itself. -/
theorem Node.Alike.refl (n : Node) : n.Alike n :=
  ⟨rfl, rfl, fun _ => rfl, fun _ => rfl⟩

/-- Contents that say the same, children apart: elements of one name with the same attributes, the
    same character data, or the same bytes. -/
inductive Content.Agrees : Content → Content → Prop
  | element {e e' : Element} (name : e'.name = e.name)
      (attributes : ∀ key, e'.attributes.get? key = e.attributes.get? key) :
      Agrees (.element e) (.element e')
  | text (s : String) : Agrees (.text s) (.text s)
  | cdata (bytes : List UInt8) : Agrees (.cdata bytes) (.cdata bytes)

namespace Document

variable {d d' : Document} {f : Nat → Nat}

/-- Nodes whose contents say the same are alike: their typed attributes follow from those that were
    given. -/
theorem Grown.alike (hd : d.Grown) (hd' : d'.Grown) {id id' : Nat} {n n' : Node}
    (hn : d.node? id = some n) (hn' : d'.node? id' = some n')
    (h : n.content.Agrees n'.content) : n.Alike n' := by
  obtain ⟨owner, content⟩ := n
  obtain ⟨owner', content'⟩ := n'
  cases h with
  | element name attributes =>
    refine ⟨rfl, name, attributes, fun key => ?_⟩
    show (_ : Element).typedAttributes.get? key = (_ : Element).typedAttributes.get? key
    rw [(hd.inStep hn).get?_typedAttributes, (hd'.inStep hn').get?_typedAttributes, attributes]
  | text s => exact ⟨rfl, rfl, fun _ => rfl, fun _ => rfl⟩
  | cdata bytes => exact ⟨rfl, rfl, fun _ => rfl, fun _ => rfl⟩

/-! ### Mirrored subtrees -/

/-- The subtree of `top` in `d` is mirrored in `d'`: under the numbers that `f` tells there are
    nodes alike, with their children in the same order. -/
structure MirroredBy (d d' : Document) (f : Nat → Nat) (top : Nat) : Prop where
  node : ∀ id ∈ d.subtree top,
    ∃ n n', d.node? id = some n ∧ d'.node? (f id) = some n' ∧ n.Alike n'
  children : ∀ id ∈ d.subtree top, d'.children (f id) = (d.children id).map f

/-- What lies in the subtree of a node of a subtree lies in that one too. -/
theorem WellFormed.mem_subtree_trans (h : d.WellFormed) {i j k : Nat} (hij : j ∈ d.subtree i)
    (hjk : k ∈ d.subtree j) : k ∈ d.subtree i := by
  rw [h.mem_subtree_iff, List.mem_cons] at hij
  rcases hij with rfl | hij
  · exact hjk
  · exact h.mem_subtree_iff.2
      (List.mem_cons_of_mem _ (h.ancestors_trans hij (h.mem_subtree_iff.1 hjk)))

/-- The children of a node of a subtree lie in it too. -/
theorem WellFormed.mem_subtree_of_mem_children (h : d.WellFormed) {i j child : Nat}
    (hj : j ∈ d.subtree i) (hchild : child ∈ d.children j) : child ∈ d.subtree i :=
  h.mem_subtree_of_parent? hj (h.child hchild)

namespace MirroredBy

variable {top : Nat}

/-- What mirrors a subtree has its top. -/
theorem contains (h : d.MirroredBy d' f top) : d.contains top ∧ d'.contains (f top) := by
  obtain ⟨n, n', hn, hn', -⟩ := h.node top (mem_subtree_self d top)
  simp [Document.contains, hn, hn']

/-- A test that does not tell alike nodes apart has the same outcome in the mirror. -/
theorem any_node? (h : d.MirroredBy d' f top) {id : Nat} (hid : id ∈ d.subtree top)
    {test : Node → Bool} (htest : ∀ {n n' : Node}, n.Alike n' → test n' = test n) :
    (d'.node? (f id)).any test = (d.node? id).any test := by
  obtain ⟨n, n', hn, hn', halike⟩ := h.node id hid
  rw [hn, hn']
  exact htest halike

/-- Elements are mirrored by elements. -/
theorem isElement (h : d.MirroredBy d' f top) {id : Nat} (hid : id ∈ d.subtree top) :
    d'.isElement (f id) = d.isElement id :=
  h.any_node? hid fun halike => halike.isElement

/-- Names are mirrored. -/
theorem hasName (h : d.MirroredBy d' f top) {id : Nat} (hid : id ∈ d.subtree top)
    (name : String) : d'.hasName name (f id) = d.hasName name id := by
  obtain ⟨n, n', hn, hn', halike⟩ := h.node id hid
  simp [Document.hasName, name?, hn, hn', halike.name]

/-- **Subtrees of a mirrored subtree are mirrored in the same order.** -/
theorem subtree_eq (h : d.MirroredBy d' f top) (hwf : d.WellFormed) (hwf' : d'.WellFormed)
    {id : Nat} (hid : id ∈ d.subtree top) : d'.subtree (f id) = (d.subtree id).map f := by
  induction id using hwf.induction_down with
  | above id ih =>
    rw [hwf'.subtree_eq, hwf.subtree_eq, h.children id hid, List.flatMap_map, List.map_cons,
      List.map_flatMap]
    congr 1
    refine List.flatMap_congr fun child hchild => ?_
    exact ih child hchild (hwf.mem_subtree_of_mem_children hid hchild)

/-- **What is below a node of a mirrored subtree is mirrored in the same order.** -/
theorem descendants_eq (h : d.MirroredBy d' f top) (hwf : d.WellFormed) (hwf' : d'.WellFormed)
    {id : Nat} (hid : id ∈ d.subtree top) :
    d'.descendants (f id) = (d.descendants id).map f := by
  rw [hwf'.descendants_eq, hwf.descendants_eq, h.children id hid, List.flatMap_map,
    List.map_flatMap]
  refine List.flatMap_congr fun child hchild => ?_
  exact h.subtree_eq hwf hwf' (hwf.mem_subtree_of_mem_children hid hchild)

end MirroredBy

/-! ### Renumberings -/

/-- The documents `d` and `d'` differ in their numbers only: `f` takes the nodes of `d` to those of
    `d'`, one to one and the document itself to itself, so that they say the same and have their
    children in the same order. -/
structure Renumbering (f : Nat → Nat) (d d' : Document) : Prop where
  bijOn : Set.BijOn f {id | d.contains id} {id | d'.contains id}
  root : f Document.root = Document.root
  agrees : ∀ {id n}, d.node? id = some n →
    ∃ n', d'.node? (f id) = some n' ∧ n.content.Agrees n'.content
  children : ∀ {id}, d.contains id → d'.children (f id) = (d.children id).map f

/-- **Every subtree of a document is mirrored in one with other numbers.** -/
theorem Renumbering.mirroredBy (h : Renumbering f d d') (hd : d.Reachable) (hd' : d'.Reachable)
    {top : Nat} (htop : d.contains top) : d.MirroredBy d' f top := by
  have hcontains : ∀ id ∈ d.subtree top, d.contains id := fun id hid =>
    node?_isSome_iff.2 (hd.wellFormed.lt_nodeCount_of_mem_subtree (node?_isSome_iff.1 htop) hid)
  constructor
  · intro id hid
    obtain ⟨n, hn⟩ := Option.isSome_iff_exists.1 (hcontains id hid)
    obtain ⟨n', hn', hagrees⟩ := h.agrees hn
    exact ⟨n, n', hn, hn', hd.grown.alike hd'.grown hn hn' hagrees⟩
  · exact fun id hid => h.children (hcontains id hid)

end Document

end XmlQuery
