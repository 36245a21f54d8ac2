import XmlQuery.Proofs.Document.Layout

namespace XmlQuery

/-!
# The trees that documents have

The trees of a document leave out the numbers of its nodes, and nothing else: they have all nodes
but node 0, in any order in which the nodes were entered.

* `Document.Grown.inStep` — in every document the two attribute maps of an element are in step.
* `Document.WellFormed.tree?_element` — the tree of an element has the trees of its children.
* `Document.WellFormed.exists_tree` — every node has a tree, and what passes from children to their
  parents holds of all of these.
* `Document.WellFormed.sizeAll_forest`, `Document.WellFormed.countP_forest` — all nodes but node 0
  are in the trees at top level, and so are the elements that stand there.
-/

namespace Document

open XmlQuery.Tree

variable {d : Document}

/-- **The two attribute maps of an element are in step** in every document. -/
theorem Grown.inStep (h : d.Grown) {id : Nat} {owner : Option Nat} {e : Element}
    (he : d.node? id = some ⟨owner, .element e⟩) : e.InStep := by
  induction h generalizing id owner e with
  | ofEncoding encoding =>
    cases id with
    | zero =>
      cases he
      rfl
    | succ id =>
      have hnone : (Document.ofEncoding encoding).node? (id + 1) = none := rfl
      rw [hnone] at he
      cases he
  | @step d next _ hstep ih =>
    cases hstep with
    | label encoding => exact ih he
    | @insert parent content _ _ _ hfresh =>
      rw [node?_insertNode] at he
      split at he
      · -- the new element has only had its attributes set
        cases hfresh with
        | element name attributes =>
          cases he
          exact Element.inStep_ofAttributes name attributes
        | text s => cases he
        | cdata bytes => cases he
      split at he
      · -- the parent has got a child, and no attribute
        obtain ⟨⟨owner', content'⟩, hn, he⟩ := Option.map_eq_some_iff.1 he
        cases content' with
        | element e' =>
          cases he
          have hinStep : e'.InStep := ih hn
          exact hinStep
        | text s => cases he
        | cdata bytes => cases he
      · exact ih he

namespace WellFormed

/-- The tree of an element has the trees of its children below it. -/
theorem tree?_element (h : d.WellFormed) {id : Nat} {owner : Option Nat} {e : Element}
    (he : d.node? id = some ⟨owner, .element e⟩) :
    d.tree? id
      = some (.element e.name e.attributes.entries ((d.children id).filterMap d.tree?)) := by
  have hchildren : d.children id = e.children := by
    rw [Document.children, he]
    rfl
  rw [tree?_of_element he, hchildren]
  congr 2
  refine List.filterMap_congr fun child hchild => ?_
  exact if_pos (h.lt_of_mem_children (hchildren ▸ hchild)).1

/-- Induction over the trees of nodes.  Every node has a tree, and a property of trees with their
    numbers holds of all if it passes from the children of an element to the element. -/
theorem exists_tree (h : d.WellFormed) {motive : Nat → Tree → Prop}
    (element : ∀ id owner e, d.node? id = some ⟨owner, .element e⟩ →
      (∀ child ∈ d.children id, ∃ t, d.tree? child = some t ∧ motive child t) →
      motive id (.element e.name e.attributes.entries ((d.children id).filterMap d.tree?)))
    (text : ∀ id owner s, d.node? id = some ⟨owner, .text s⟩ → motive id (.text s))
    (cdata : ∀ id owner bytes, d.node? id = some ⟨owner, .cdata bytes⟩ → motive id (.cdata bytes))
    {id : Nat} (hid : id < d.nodeCount) : ∃ t, d.tree? id = some t ∧ motive id t := by
  induction id using h.induction_down with
  | above id ih =>
    obtain ⟨⟨owner, content⟩, hn⟩ := Option.isSome_iff_exists.1 (node?_isSome_iff.2 hid)
    cases content with
    | element e =>
      refine ⟨_, h.tree?_element hn, element id owner e hn fun child hchild => ?_⟩
      exact ih child hchild (h.lt_of_mem_children hchild).2
    | text s => exact ⟨_, tree?_of_text hn, text id owner s hn⟩
    | cdata bytes => exact ⟨_, tree?_of_cdata hn, cdata id owner bytes hn⟩

/-! ### Sizes -/

/-- What is no element is a subtree of its own. -/
theorem subtree_leaf (h : d.WellFormed) {id : Nat} (hid : ¬ d.isElement id) :
    d.subtree id = [id] := by
  have hnone : d.children id = [] := by
    rw [List.eq_nil_iff_forall_not_mem]
    exact fun child hchild => hid (isElement_of_mem_children hchild)
  rw [h.subtree_eq, hnone, List.flatMap_nil]

/-- The trees of nodes take as many nodes as there are in the subtrees, if each does. -/
theorem sizeAll_filterMap {ids : List Nat}
    (h : ∀ id ∈ ids, ∃ t, d.tree? id = some t ∧ t.size = (d.subtree id).length) :
    sizeAll (ids.filterMap d.tree?) = (ids.flatMap d.subtree).length := by
  induction ids with
  | nil => rfl
  | cons id ids ih =>
    obtain ⟨t, ht, hsize⟩ := h id List.mem_cons_self
    rw [List.filterMap_cons_some ht, sizeAll_cons, hsize, List.flatMap_cons, List.length_append,
      ih fun i hi => h i (List.mem_cons_of_mem _ hi)]

/-- **The tree of a node takes as many nodes as there are in its subtree.** -/
theorem exists_tree_size (h : d.WellFormed) {id : Nat} (hid : id < d.nodeCount) :
    ∃ t, d.tree? id = some t ∧ t.size = (d.subtree id).length := by
  refine h.exists_tree (motive := fun id t => t.size = (d.subtree id).length) ?_ ?_ ?_ hid
  · intro id owner e _ hchildren
    rw [size_element, sizeAll_filterMap hchildren, h.subtree_eq, List.length_cons]
  · intro id owner s hn
    rw [size_text, h.subtree_leaf (by simp [isElement_iff, hn]), List.length_singleton]
  · intro id owner bytes hn
    rw [size_cdata, h.subtree_leaf (by simp [isElement_iff, hn]), List.length_singleton]

/-- **All nodes but node 0 are in the trees at top level.** -/
theorem sizeAll_forest (h : d.WellFormed) : sizeAll d.forest + 1 = d.nodeCount := by
  have hlength := h.subtree_root_perm.length_eq
  rw [h.subtree_eq, List.length_cons, List.length_range] at hlength
  rw [forest, sizeAll_filterMap fun id hid => h.exists_tree_size (h.lt_of_mem_children hid).2]
  exact hlength

/-- A node is an element exactly if its tree is one. -/
theorem isElement_tree (h : d.WellFormed) {id : Nat} (hid : id < d.nodeCount) :
    ∃ t, d.tree? id = some t ∧ t.isElement = d.isElement id := by
  refine h.exists_tree (motive := fun id t => t.isElement = d.isElement id) ?_ ?_ ?_ hid
  · intro id owner e hn _
    rw [isElement_iff.2 ⟨owner, e, hn⟩, Tree.isElement]
  · intro id owner s hn
    rw [Document.isElement, hn]
    rfl
  · intro id owner bytes hn
    rw [Document.isElement, hn]
    rfl

/-- **The elements at top level are those among the trees.** -/
theorem countP_forest (h : d.WellFormed) : d.forest.countP Tree.isElement = d.topElements := by
  have hall : ∀ id ∈ d.children Document.root,
      ∃ t, d.tree? id = some t ∧ t.isElement = d.isElement id :=
    fun id hid => h.isElement_tree (h.lt_of_mem_children hid).2
  rw [forest, topElements]
  -- only that each child has a tree matters from here on
  generalize d.children Document.root = ids at hall
  induction ids with
  | nil => rfl
  | cons id ids ih =>
    obtain ⟨t, ht, helement⟩ := hall id List.mem_cons_self
    rw [List.filterMap_cons_some ht, List.countP_cons, List.countP_cons, helement,
      ih fun i hi => hall i (List.mem_cons_of_mem _ hi)]

end WellFormed

end Document

end XmlQuery
