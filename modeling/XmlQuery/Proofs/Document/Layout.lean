import XmlQuery.Document.Tree
import XmlQuery.Proofs.Document.Preorder

namespace XmlQuery

/-!
# Trees laid out as nodes

Trees take their place in a document in pre-order: a tree is entered under the next number, the
trees below it follow, and then the tree behind it.

* `Tree.size`, `Tree.sizeAll` — how many nodes trees take.
* `Tree.nodesAll` — the nodes of trees that are entered one after the other.
* `Document.graft` — a document with trees entered below a node.
* `Document.ofForest` — the document of trees.
* `Document.graft_append`, `Document.graft_element` — trees can be entered one at a time, and an
  element before what is below it.
* `Document.forest_ofForest`, `Document.descendants_ofForest` — the document of trees has these
  trees, and counts its nodes in pre-order.
-/

namespace Tree

/-- Induction over trees that stand one after the other: an element brings in the trees below it
    and the trees behind it. -/
theorem forest_induction {motive : List Tree → Prop} (nil : motive [])
    (element : ∀ name attributes children rest, motive children → motive rest →
      motive (.element name attributes children :: rest))
    (text : ∀ s rest, motive rest → motive (.text s :: rest))
    (cdata : ∀ bytes rest, motive rest → motive (.cdata bytes :: rest)) : ∀ ts, motive ts
  | [] => nil
  | .element name attributes children :: rest =>
    element name attributes children rest
      (forest_induction nil element text cdata children)
      (forest_induction nil element text cdata rest)
  | .text s :: rest => text s rest (forest_induction nil element text cdata rest)
  | .cdata bytes :: rest => cdata bytes rest (forest_induction nil element text cdata rest)

/-- Whether a tree is an element. -/
def isElement : Tree → Bool
  | element _ _ _ => true
  | text _ => false
  | cdata _ => false

/-- Induction over trees that stand one after the other, if it does not matter whether what is no
    element is a text or a CDATA section. -/
theorem leaf_induction {motive : List Tree → Prop} (nil : motive [])
    (element : ∀ name attributes children rest, motive children → motive rest →
      motive (.element name attributes children :: rest))
    (leaf : ∀ t rest, t.isElement = false → motive rest → motive (t :: rest)) :
    ∀ ts, motive ts :=
  forest_induction nil element (fun s rest => leaf (.text s) rest rfl)
    fun bytes rest => leaf (.cdata bytes) rest rfl

/-! ### Sizes -/

mutual

/-- The number of nodes of a tree. -/
def size : Tree → Nat
  | element _ _ children => sizeAll children + 1
  | text _ => 1
  | cdata _ => 1

/-- The number of nodes of trees. -/
def sizeAll : List Tree → Nat
  | [] => 0
  | t :: ts => t.size + sizeAll ts

end

@[simp]
theorem sizeAll_nil : sizeAll [] = 0 := by rw [sizeAll]

@[simp]
theorem sizeAll_cons (t : Tree) (ts : List Tree) : sizeAll (t :: ts) = t.size + sizeAll ts := by
  rw [sizeAll]

@[simp]
theorem size_element (name : String) (attributes : List (String × String))
    (children : List Tree) : (element name attributes children).size = sizeAll children + 1 := by
  rw [size]

@[simp]
theorem size_text (s : String) : (text s).size = 1 := by rw [size]

@[simp]
theorem size_cdata (bytes : List UInt8) : (cdata bytes).size = 1 := by rw [size]

/-- What is no element takes one node. -/
theorem size_leaf {t : Tree} (h : t.isElement = false) : t.size = 1 := by
  cases t with
  | element name attributes children => cases h
  | text s => exact size_text s
  | cdata bytes => exact size_cdata bytes

/-- Trees that stand one after the other take as many nodes as all of them together. -/
@[simp]
theorem sizeAll_append (ts us : List Tree) : sizeAll (ts ++ us) = sizeAll ts + sizeAll us := by
  induction ts with
  | nil => simp
  | cons t ts ih => simp [ih, Nat.add_assoc]

/-- Every tree takes a node. -/
theorem size_pos (t : Tree) : 0 < t.size := by
  cases t <;> simp

/-! ### Numbers and nodes -/

/-- The numbers of trees that are entered one after the other, the first one under `first`. -/
def numbers (first : Nat) : List Tree → List Nat
  | [] => []
  | t :: ts => first :: numbers (first + t.size) ts

/-- The numbers of trees go on behind those of the trees before them. -/
theorem numbers_append (first : Nat) (ts us : List Tree) :
    numbers first (ts ++ us) = numbers first ts ++ numbers (first + sizeAll ts) us := by
  induction ts generalizing first with
  | nil => simp [numbers]
  | cons t ts ih => simp [numbers, ih, Nat.add_assoc]

/-- No tree is entered under a lower number than the first one. -/
theorem le_of_mem_numbers {first id : Nat} {ts : List Tree} (h : id ∈ numbers first ts) :
    first ≤ id := by
  induction ts generalizing first with
  | nil => cases h
  | cons t ts ih =>
    rw [numbers, List.mem_cons] at h
    rcases h with rfl | h
    · exact Nat.le_refl id
    · exact Nat.le_trans (Nat.le_add_right _ _) (ih h)

mutual

/-- The nodes of a tree that is entered under `first` below `parent`, in the order of their
    numbers. -/
def nodes (parent first : Nat) : Tree → List Node
  | element name attributes children =>
    ⟨some parent, .element { Element.ofAttributes name attributes with
      children := numbers (first + 1) children }⟩ :: nodesAll first (first + 1) children
  | text s => [⟨some parent, .text s⟩]
  | cdata bytes => [⟨some parent, .cdata bytes⟩]

/-- The nodes of trees that are entered one after the other below `parent`, the first one under
    `first`. -/
def nodesAll (parent first : Nat) : List Tree → List Node
  | [] => []
  | t :: ts => t.nodes parent first ++ nodesAll parent (first + t.size) ts

end

@[simp]
theorem nodesAll_nil (parent first : Nat) : nodesAll parent first [] = [] := by rw [nodesAll]

@[simp]
theorem nodesAll_cons (parent first : Nat) (t : Tree) (ts : List Tree) :
    nodesAll parent first (t :: ts)
      = t.nodes parent first ++ nodesAll parent (first + t.size) ts := by
  rw [nodesAll]

theorem nodes_element (parent first : Nat) (name : String) (attributes : List (String × String))
    (children : List Tree) :
    (element name attributes children).nodes parent first
      = ⟨some parent, .element { Element.ofAttributes name attributes with
          children := numbers (first + 1) children }⟩ :: nodesAll first (first + 1) children := by
  rw [nodes]

theorem nodes_text (parent first : Nat) (s : String) :
    (text s).nodes parent first = [⟨some parent, .text s⟩] := by
  rw [nodes]

theorem nodes_cdata (parent first : Nat) (bytes : List UInt8) :
    (cdata bytes).nodes parent first = [⟨some parent, .cdata bytes⟩] := by
  rw [nodes]

/-- What is no element has one node. -/
theorem length_nodes_leaf {t : Tree} (h : t.isElement = false) (parent first : Nat) :
    (t.nodes parent first).length = 1 := by
  cases t with
  | element name attributes children => cases h
  | text s => rw [nodes_text, List.length_singleton]
  | cdata bytes => rw [nodes_cdata, List.length_singleton]

/-- Trees have as many nodes as they take. -/
theorem length_nodesAll (parent first : Nat) (ts : List Tree) :
    (nodesAll parent first ts).length = sizeAll ts := by
  induction ts using leaf_induction generalizing parent first with
  | nil => rw [nodesAll_nil, sizeAll_nil, List.length_nil]
  | element name attributes children rest ihc ihr =>
    rw [nodesAll_cons, nodes_element, List.length_append, List.length_cons, ihc, ihr,
      sizeAll_cons, size_element]
  | leaf t rest hleaf ih =>
    rw [nodesAll_cons, List.length_append, length_nodes_leaf hleaf, ih, sizeAll_cons,
      size_leaf hleaf]

/-- A tree has as many nodes as it takes. -/
theorem length_nodes (parent first : Nat) (t : Tree) :
    (t.nodes parent first).length = t.size := by
  simpa using length_nodesAll parent first [t]

/-- The nodes of trees go on behind those of the trees before them. -/
theorem nodesAll_append (parent first : Nat) (ts us : List Tree) :
    nodesAll parent first (ts ++ us)
      = nodesAll parent first ts ++ nodesAll parent (first + sizeAll ts) us := by
  induction ts generalizing first with
  | nil => simp
  | cons t ts ih => simp [ih, Nat.add_assoc]

/-- The node of an element does not show whether its attributes have been settled. -/
theorem nodes_settled (parent first : Nat) (name : String) (attributes : List (String × String))
    (children : List Tree) :
    (element name (Element.ofAttributes name attributes).attributes.entries children).nodes
        parent first
      = (element name attributes children).nodes parent first := by
  rw [nodes_element, nodes_element, Element.ofAttributes_entries]

/-! ### Attribute lists without repeated keys -/

mutual

/-- Whether no element of a tree has two attributes with one key. -/
def Settled : Tree → Prop
  | element _ attributes children => (attributes.map Prod.fst).Nodup ∧ SettledAll children
  | text _ => True
  | cdata _ => True

/-- Whether no element of some trees has two attributes with one key. -/
def SettledAll : List Tree → Prop
  | [] => True
  | t :: ts => t.Settled ∧ SettledAll ts

end

@[simp]
theorem settledAll_nil : SettledAll [] := by rw [SettledAll]; trivial

@[simp]
theorem settledAll_cons (t : Tree) (ts : List Tree) :
    SettledAll (t :: ts) ↔ t.Settled ∧ SettledAll ts := by
  rw [SettledAll]

@[simp]
theorem settled_element (name : String) (attributes : List (String × String))
    (children : List Tree) :
    (element name attributes children).Settled
      ↔ (attributes.map Prod.fst).Nodup ∧ SettledAll children := by
  rw [Settled]

@[simp]
theorem settled_text (s : String) : (text s).Settled := by rw [Settled]; trivial

@[simp]
theorem settled_cdata (bytes : List UInt8) : (cdata bytes).Settled := by rw [Settled]; trivial

end Tree

/-! ### Grafting -/

/-- The content with children added behind the others, if it is an element. -/
def Content.addChildren (c : Content) (ids : List Nat) : Content :=
  match c with
  | .element e => .element { e with children := e.children ++ ids }
  | .text s => .text s
  | .cdata bytes => .cdata bytes

theorem Content.addChildren_nil (c : Content) : c.addChildren [] = c := by
  cases c <;> simp [addChildren]

theorem Content.addChildren_append (c : Content) (ids more : List Nat) :
    c.addChildren (ids ++ more) = (c.addChildren ids).addChildren more := by
  cases c <;> simp [addChildren]

theorem Content.addChild_eq (c : Content) (id : Nat) : c.addChild id = c.addChildren [id] := by
  cases c <;> rfl

namespace Document

open XmlQuery.Tree

/-- The document with trees entered below `parent`, behind its other children and under the next
    numbers. -/
def graft (d : Document) (parent : Nat) (ts : List Tree) : Document :=
  { d with
    nodes := (d.nodes.modify parent fun n =>
      { n with content := n.content.addChildren (numbers d.nodeCount ts) })
        ++ (nodesAll parent d.nodeCount ts).toArray }

/-- The document that holds trees at top level. -/
def ofForest (encoding : String) (ts : List Tree) : Document :=
  (ofEncoding encoding).graft root ts

/-- Documents are equal if they have the same label and the same nodes. -/
theorem ext_node? {d d' : Document} (hencoding : d.encoding = d'.encoding)
    (hnodes : ∀ id, d.node? id = d'.node? id) : d = d' := by
  obtain ⟨nodes, encoding⟩ := d
  obtain ⟨nodes', encoding'⟩ := d'
  have : nodes = nodes' := Array.ext_getElem? hnodes
  cases hencoding
  cases this
  rfl

variable {d : Document} {parent : Nat}

/-- Trees that are entered add their nodes. -/
theorem nodeCount_graft (ts : List Tree) :
    (d.graft parent ts).nodeCount = d.nodeCount + sizeAll ts := by
  simp [graft, nodeCount, length_nodesAll]

/-- Behind the old nodes, of which only the parent is touched, stand those of the trees. -/
theorem node?_graft (ts : List Tree) (id : Nat) :
    (d.graft parent ts).node? id
      = if id < d.nodeCount then
          if id = parent then
            (d.node? id).map fun n =>
              { n with content := n.content.addChildren (numbers d.nodeCount ts) }
          else d.node? id
        else (nodesAll parent d.nodeCount ts)[id - d.nodeCount]? := by
  by_cases hid : id < d.nodeCount
  · rw [if_pos hid, node?, graft,
      Array.getElem?_append_left (by rw [Array.size_modify]; exact hid), Array.getElem?_modify]
    by_cases hparent : id = parent
    · rw [if_pos hparent.symm, if_pos hparent]
      rfl
    · rw [if_neg (Ne.symm hparent), if_neg hparent]
      rfl
  · rw [if_neg hid, node?, graft,
      Array.getElem?_append_right (by rw [Array.size_modify]; exact Nat.not_lt.1 hid),
      Array.size_modify, List.getElem?_toArray]
    rfl

/-- An old node gets more children at most. -/
theorem exists_node?_graft {id : Nat} (hid : id < d.nodeCount) (ts : List Tree) :
    ∃ n ids, d.node? id = some n ∧
      (d.graft parent ts).node? id = some { n with content := n.content.addChildren ids } := by
  obtain ⟨n, hn⟩ := Option.isSome_iff_exists.1 (node?_isSome_iff.2 hid)
  rw [node?_graft, if_pos hid, hn]
  by_cases hparent : id = parent
  · exact ⟨n, numbers d.nodeCount ts, rfl, if_pos hparent⟩
  · rw [if_neg hparent]
    exact ⟨n, [], rfl, by rw [Content.addChildren_nil]⟩

/-- The old nodes keep their parents. -/
theorem parent?_graft {id : Nat} (hid : id < d.nodeCount) (ts : List Tree) :
    (d.graft parent ts).parent? id = d.parent? id := by
  obtain ⟨n, ids, hold, hnew⟩ := exists_node?_graft hid ts
  rw [parent?, parent?, hold, hnew]
  rfl

/-- The old nodes keep their names. -/
theorem name?_graft {id : Nat} (hid : id < d.nodeCount) (ts : List Tree) :
    (d.graft parent ts).name? id = d.name? id := by
  obtain ⟨⟨owner, content⟩, ids, hold, hnew⟩ := exists_node?_graft hid ts
  rw [name?, name?, hold, hnew]
  cases content <;> rfl

/-- The old elements are the elements among the old nodes. -/
theorem isElement_graft {id : Nat} (hid : id < d.nodeCount) (ts : List Tree) :
    (d.graft parent ts).isElement id = d.isElement id := by
  obtain ⟨⟨owner, content⟩, ids, hold, hnew⟩ := exists_node?_graft hid ts
  rw [isElement, isElement, hold, hnew]
  cases content <;> rfl

/-- The trees become the last children of their parent. -/
theorem children_graft (hparent : d.isElement parent) (ts : List Tree) :
    (d.graft parent ts).children parent = d.children parent ++ numbers d.nodeCount ts := by
  obtain ⟨owner, e, hn⟩ := isElement_iff.1 hparent
  rw [children, children, node?_graft, if_pos (lt_nodeCount_of_isElement hparent), if_pos rfl, hn]
  rfl

/-- The old nodes keep their ancestors. -/
theorem ancestors_graft (hwf : d.WellFormed) {id : Nat} (hid : id < d.nodeCount)
    (ts : List Tree) : (d.graft parent ts).ancestors id = d.ancestors id :=
  hwf.ancestors_congr fun j hj => parent?_graft (by omega) ts

/-- No trees change nothing. -/
theorem graft_nil : d.graft parent [] = d := by
  refine ext_node? rfl fun id => ?_
  rw [node?_graft]
  by_cases hid : id < d.nodeCount
  · rw [if_pos hid]
    split
    · simp [numbers, Content.addChildren_nil]
    · rfl
  · rw [if_neg hid, nodesAll_nil, List.getElem?_nil, eq_comm,
      ← Option.not_isSome_iff_eq_none, node?_isSome_iff]
    exact hid

/-- **Trees can be entered one part after the other.** -/
theorem graft_append (hparent : parent < d.nodeCount) (ts us : List Tree) :
    d.graft parent (ts ++ us) = (d.graft parent ts).graft parent us := by
  refine ext_node? rfl fun id => ?_
  rw [node?_graft, node?_graft, node?_graft, nodeCount_graft, nodesAll_append]
  by_cases hid : id < d.nodeCount
  · rw [if_pos hid, if_pos (by omega : id < d.nodeCount + sizeAll ts), if_pos hid]
    by_cases heq : id = parent
    · simp [heq, numbers_append, Content.addChildren_append, Function.comp_def]
    · simp [heq]
  · rw [if_neg hid, List.getElem?_append, length_nodesAll]
    -- a new node belongs to the first trees or to those behind them
    by_cases hts : id < d.nodeCount + sizeAll ts
    · rw [if_pos hts, if_pos (by omega), if_neg (by omega), if_neg hid]
    · rw [if_neg hts, if_neg (by omega), Nat.sub_sub]

/-- A content without children is entered as a tree of one node. -/
theorem insertNode_eq_graft {content : Content} {t : Tree}
    (h : t.nodes parent d.nodeCount = [⟨some parent, content⟩]) :
    d.insertNode parent content = d.graft parent [t] := by
  have hnodes : nodesAll parent d.nodeCount [t] = [⟨some parent, content⟩] := by simp [h]
  refine ext_node? rfl fun id => ?_
  rw [node?_insertNode, node?_graft, hnodes]
  by_cases hnew : id = d.nodeCount
  · simp [hnew]
  · rw [if_neg hnew]
    by_cases hid : id < d.nodeCount
    · rw [if_pos hid]
      simp [numbers, Content.addChild_eq]
    · have hnone : d.node? id = none := by
        rw [← Option.not_isSome_iff_eq_none, node?_isSome_iff]
        exact hid
      have hbeyond : ([⟨some parent, content⟩] : List Node)[id - d.nodeCount]? = none := by
        rw [List.getElem?_eq_none_iff, List.length_singleton]
        omega
      rw [if_neg hid, hnone, hbeyond]
      simp

/-- **An element can be entered before the trees below it.** -/
theorem graft_element (name : String) (attributes : List (String × String))
    (children : List Tree) :
    (d.insertNode parent (.element (.ofAttributes name attributes))).graft d.nodeCount children
      = d.graft parent [.element name attributes children] := by
  -- an old node, the element itself, or a node below it
  refine ext_node? rfl fun id => ?_
  rw [node?_graft, node?_graft, node?_insertNode, nodeCount_insertNode]
  by_cases hid : id < d.nodeCount
  · have hne : id ≠ d.nodeCount := Nat.ne_of_lt hid
    rw [if_pos hid, if_pos (Nat.lt_succ_of_lt hid), if_neg hne, if_neg hne]
    simp [numbers, Content.addChild_eq]
  · by_cases hnew : id = d.nodeCount
    · -- the element itself, whose children are only now recorded
      subst hnew
      rw [if_pos (Nat.lt_succ_self _), if_pos rfl, if_pos rfl, if_neg hid]
      simp [nodes_element, Content.addChildren, Element.children_ofAttributes]
    · obtain ⟨k, rfl⟩ : ∃ k, id = d.nodeCount + 1 + k := ⟨id - (d.nodeCount + 1), by omega⟩
      rw [if_neg (by omega), if_neg hid, Nat.add_sub_cancel_left,
        (by omega : d.nodeCount + 1 + k - d.nodeCount = k + 1)]
      simp [nodes_element]

/-- An element that is entered is the tree of it that has nothing below it. -/
theorem insertNode_element (name : String) (attributes : List (String × String)) :
    d.insertNode parent (.element (.ofAttributes name attributes))
      = d.graft parent [.element name attributes []] := by
  rw [← graft_element, graft_nil]

/-- An element can be entered with its attributes as they were given or as they were kept. -/
theorem graft_settled (name : String) (attributes : List (String × String))
    (children : List Tree) :
    d.graft parent
        [.element name (Element.ofAttributes name attributes).attributes.entries children]
      = d.graft parent [.element name attributes children] := by
  simp only [graft, numbers, nodesAll_cons, nodes_settled, nodesAll_nil]

/-! ### Trees that a document holds -/

/-- Whether trees stand in a document one after the other below `parent`, the first one under
    `first`. -/
def Holds (d : Document) (parent first : Nat) (ts : List Tree) : Prop :=
  ∀ i < sizeAll ts, d.node? (first + i) = (nodesAll parent first ts)[i]?

/-- The trees that were entered stand in the document. -/
theorem holds_graft (d : Document) (parent : Nat) (ts : List Tree) :
    (d.graft parent ts).Holds parent d.nodeCount ts := by
  intro i hi
  rw [node?_graft, if_neg (by omega), Nat.add_sub_cancel_left]

/-- An element that was entered stands under the next number. -/
theorem node?_graft_element (d : Document) (parent : Nat) (name : String)
    (attributes : List (String × String)) (children ts : List Tree) :
    (d.graft parent (.element name attributes children :: ts)).node? d.nodeCount
      = some ⟨some parent, .element { Element.ofAttributes name attributes with
          children := numbers (d.nodeCount + 1) children }⟩ := by
  have hnode := holds_graft d parent (.element name attributes children :: ts) 0
    (by rw [sizeAll_cons, size_element]; omega)
  rw [nodesAll_cons, nodes_element, List.cons_append, List.getElem?_cons_zero] at hnode
  exact hnode

/-- The trees behind a tree stand behind it. -/
theorem Holds.tail {first : Nat} {t : Tree} {ts : List Tree}
    (h : d.Holds parent first (t :: ts)) : d.Holds parent (first + t.size) ts := by
  intro i hi
  rw [Nat.add_assoc, h (t.size + i) (by rw [sizeAll_cons]; omega), nodesAll_cons,
    List.getElem?_append_right (by rw [length_nodes]; omega), length_nodes,
    Nat.add_sub_cancel_left]

/-- A tree stands where it was entered. -/
theorem Holds.head {first : Nat} {t : Tree} {ts : List Tree}
    (h : d.Holds parent first (t :: ts)) : d.node? first = (t.nodes parent first)[0]? := by
  have hpos := t.size_pos
  have h0 := h 0 (by rw [sizeAll_cons]; omega)
  rw [nodesAll_cons, List.getElem?_append_left (by rw [length_nodes]; omega)] at h0
  exact h0

/-- The trees below an element stand right behind it. -/
theorem Holds.below {first : Nat} {name : String} {attributes : List (String × String)}
    {children ts : List Tree} (h : d.Holds parent first (.element name attributes children :: ts)) :
    d.Holds first (first + 1) children := by
  intro i hi
  have h' := h (1 + i) (by rw [sizeAll_cons, size_element]; omega)
  rw [nodesAll_cons, nodes_element, List.cons_append, Nat.add_comm 1 i, List.getElem?_cons_succ,
    List.getElem?_append_left (by rw [length_nodesAll]; exact hi)] at h'
  rw [Nat.add_assoc, Nat.add_comm 1 i]
  exact h'

/-- The tree of a text is the text. -/
theorem tree?_of_text {id : Nat} {owner : Option Nat} {s : String}
    (h : d.node? id = some ⟨owner, .text s⟩) : d.tree? id = some (.text s) := by
  rw [tree?]
  split <;> simp_all

/-- The tree of a CDATA section is the section. -/
theorem tree?_of_cdata {id : Nat} {owner : Option Nat} {bytes : List UInt8}
    (h : d.node? id = some ⟨owner, .cdata bytes⟩) : d.tree? id = some (.cdata bytes) := by
  rw [tree?]
  split <;> simp_all

/-- What is no element is found where it stands. -/
theorem Holds.tree?_leaf {first : Nat} {t : Tree} {ts : List Tree}
    (h : d.Holds parent first (t :: ts)) (hleaf : t.isElement = false) :
    d.tree? first = some t := by
  have hhead := h.head
  cases t with
  | element name attributes children => cases hleaf
  | text s =>
    rw [nodes_text, List.getElem?_cons_zero] at hhead
    exact tree?_of_text hhead
  | cdata bytes =>
    rw [nodes_cdata, List.getElem?_cons_zero] at hhead
    exact tree?_of_cdata hhead

/-- What stands in a document is found there. -/
theorem Holds.filterMap_tree? {first : Nat} {ts : List Tree} (h : d.Holds parent first ts)
    (hsettled : SettledAll ts) : (numbers first ts).filterMap d.tree? = ts := by
  induction ts using leaf_induction generalizing parent first with
  | nil => rfl
  | element name attributes children rest ihc ihr =>
    rw [settledAll_cons, settled_element] at hsettled
    obtain ⟨⟨hkeys, hchildren⟩, hrest⟩ := hsettled
    have hhead := h.head
    rw [nodes_element, List.getElem?_cons_zero] at hhead
    -- the trees below an element are looked up under higher numbers than its own
    have hguard : (numbers (first + 1) children).filterMap
        (fun child => if first < child then d.tree? child else none) = children := by
      refine (List.filterMap_congr fun child hchild => ?_).trans (ihc h.below hchildren)
      exact if_pos (Nat.lt_of_succ_le (le_of_mem_numbers hchild))
    rw [numbers, List.filterMap_cons_some (tree?_of_element hhead), ihr h.tail hrest]
    simp only [hguard, Element.entries_ofAttributes name hkeys, Element.name_ofAttributes]
  | leaf t rest hleaf ih =>
    rw [numbers, List.filterMap_cons_some (h.tree?_leaf hleaf),
      ih h.tail (settledAll_cons _ _ |>.1 hsettled).2]

/-- The children of an element are the trees below it. -/
theorem Holds.children_element {first : Nat} {name : String} {attributes : List (String × String)}
    {children ts : List Tree} (h : d.Holds parent first (.element name attributes children :: ts)) :
    d.children first = numbers (first + 1) children := by
  have hhead := h.head
  rw [nodes_element, List.getElem?_cons_zero] at hhead
  rw [Document.children, hhead]
  rfl

/-- What is no element has no children. -/
theorem Holds.children_leaf {first : Nat} {t : Tree} {ts : List Tree}
    (h : d.Holds parent first (t :: ts)) (hleaf : t.isElement = false) :
    d.children first = [] := by
  have hhead := h.head
  cases t with
  | element name attributes children => cases hleaf
  | text s =>
    rw [nodes_text, List.getElem?_cons_zero] at hhead
    rw [Document.children, hhead]
    rfl
  | cdata bytes =>
    rw [nodes_cdata, List.getElem?_cons_zero] at hhead
    rw [Document.children, hhead]
    rfl

/-- What stands in a document is walked through in the order of its numbers. -/
theorem Holds.flatMap_subtree (hwf : d.WellFormed) {first : Nat} {ts : List Tree}
    (h : d.Holds parent first ts) :
    (numbers first ts).flatMap d.subtree = List.range' first (sizeAll ts) := by
  induction ts using leaf_induction generalizing parent first with
  | nil => simp [numbers]
  | element name attributes children rest ihc ihr =>
    -- the element, what is below it, and what is behind it have numbers that go on
    rw [numbers, List.flatMap_cons, hwf.subtree_eq, h.children_element, ihc h.below, ihr h.tail,
      sizeAll_cons, size_element, ← List.range'_succ, List.range'_append_1]
  | leaf t rest hleaf ih =>
    rw [numbers, List.flatMap_cons, hwf.subtree_eq, h.children_leaf hleaf, ih h.tail,
      sizeAll_cons, size_leaf hleaf, Nat.add_comm 1, List.range'_succ]
    rfl

/-- The elements among trees that stand in a document are elements of the document. -/
theorem Holds.countP_isElement {first : Nat} {ts : List Tree} (h : d.Holds parent first ts) :
    (numbers first ts).countP d.isElement = ts.countP Tree.isElement := by
  induction ts generalizing first with
  | nil => rfl
  | cons t ts ih =>
    have hhead : d.isElement first = t.isElement := by
      rw [Document.isElement, h.head]
      cases t with
      | element name attributes children => rw [nodes_element]; rfl
      | text s => rw [nodes_text]; rfl
      | cdata bytes => rw [nodes_cdata]; rfl
    rw [numbers, List.countP_cons, List.countP_cons, ih h.tail, hhead]

/-- The elements at top level are counted as trees are entered there. -/
theorem topElements_graft (hwf : d.WellFormed) (ts : List Tree) :
    (d.graft root ts).topElements = d.topElements + ts.countP Tree.isElement := by
  rw [topElements, children_graft hwf.isElement_root, List.countP_append,
    (holds_graft d root ts).countP_isElement, topElements]
  congr 1
  refine List.countP_congr fun id hid => ?_
  rw [isElement_graft (hwf.lt_of_mem_children hid).2]

/-! ### The document of trees -/

/-- The trees are entered behind node 0. -/
theorem children_root_ofForest (encoding : String) (ts : List Tree) :
    (ofForest encoding ts).children root = numbers 1 ts :=
  children_graft (wellFormed_ofEncoding encoding).isElement_root ts

/-- **The document of trees has these trees.** -/
theorem forest_ofForest (encoding : String) {ts : List Tree} (h : SettledAll ts) :
    (ofForest encoding ts).forest = ts := by
  rw [forest, children_root_ofForest]
  exact (holds_graft (ofEncoding encoding) root ts).filterMap_tree? h

/-- **The document of trees counts its nodes in pre-order.** -/
theorem descendants_ofForest {encoding : String} {ts : List Tree}
    (hwf : (ofForest encoding ts).WellFormed) :
    (ofForest encoding ts).descendants root
      = List.range' 1 ((ofForest encoding ts).nodeCount - 1) := by
  have hcount : (ofForest encoding ts).nodeCount = 1 + sizeAll ts := nodeCount_graft ts
  rw [hwf.descendants_eq, children_root_ofForest, hcount, Nat.add_sub_cancel_left]
  exact (holds_graft (ofEncoding encoding) root ts).flatMap_subtree hwf

end Document

end XmlQuery
