import Mathlib.Tactic.Choose
import XmlQuery.Proofs.Document.Renumbering

namespace XmlQuery.Document

/-!
# Documents with the same trees

Trees leave out the numbers of nodes and nothing else, so documents with the same trees differ in
their numbers only.  Nodes of two such documents correspond to each other if the same way leads down
to them: first to the third child of node 0, say, and then to the first child of that.

* `Corresponds` — nodes that the same way leads to.
* `Corresponds.symm`, `Corresponds.unique` — no node corresponds to two.
* `treeOf`, `agrees_of_tree?_eq` — a tree tells the content of a node and the trees of its children.
* `Corresponds.tree?_eq`, `exists_corresponds` — if the documents have the same trees, nodes that
  correspond do too, and every node corresponds to one.
* `Reachable.exists_renumbering` — hence one document is the other with other numbers.
-/

variable {d d' : Document}

/-- Nodes of two documents that the same way leads down to from node 0. -/
inductive Corresponds (d d' : Document) : Nat → Nat → Prop
  | root : Corresponds d d' Document.root Document.root
  | child {p p' i id id' : Nat} (h : Corresponds d d' p p') (hid : (d.children p)[i]? = some id)
      (hid' : (d'.children p')[i]? = some id') : Corresponds d d' id id'

namespace Corresponds

/-- What corresponds does so from either side. -/
theorem symm {id id' : Nat} (h : d.Corresponds d' id id') : d'.Corresponds d id' id := by
  induction h with
  | root => exact .root
  | child _ hid hid' ih => exact .child ih hid' hid

/-- **No node corresponds to two**: there is only one way to it. -/
theorem unique (hwf : d.WellFormed) {id a b : Nat} (ha : d.Corresponds d' id a)
    (hb : d.Corresponds d' id b) : a = b := by
  have hroot : ∀ {p i}, (d.children p)[i]? ≠ some Document.root := fun hid =>
    Nat.not_lt_zero _ (hwf.lt_of_mem_children (List.mem_of_getElem? hid)).1
  induction ha generalizing b with
  | root =>
    cases hb with
    | root => rfl
    | child _ hid _ => exact absurd hid hroot
  | @child p p' i id a _ hid ha ih =>
    cases hb with
    | root => exact absurd hid hroot
    | @child q q' j _ _ h hid' hb =>
      -- a node has one parent, and one place among its children
      have hparent := hwf.child (List.mem_of_getElem? hid)
      rw [hwf.child (List.mem_of_getElem? hid'), Option.some.injEq] at hparent
      subst hparent
      have hplace : i = j := by
        have hlt := (List.getElem?_eq_some_iff.1 hid).1
        exact (List.getElem?_inj hlt (hwf.nodup_children q)).1 (hid.trans hid'.symm)
      rw [ih h, hplace, hb, Option.some.injEq] at ha
      exact ha.symm

end Corresponds

/-! ### The same trees -/

/-- Node 0 is the same element in every document, its children apart. -/
theorem Grown.node?_root (h : d.Grown) :
    ∃ e, d.node? root = some ⟨none, .element e⟩ ∧ e.name = "#document" ∧
      e.attributes.entries = [] := by
  induction h with
  | ofEncoding encoding => exact ⟨_, rfl, rfl, rfl⟩
  | @step d next hd hstep ih =>
    obtain ⟨e, he, hname, hentries⟩ := ih
    cases hstep with
    | label encoding => exact ⟨e, he, hname, hentries⟩
    | insert _ _ _ _ =>
      have hroot : root < d.nodeCount := node?_isSome_iff.1 (by rw [he]; rfl)
      rw [node?_insertNode, if_neg (Nat.ne_of_lt hroot)]
      split
      · rw [he]
        exact ⟨_, rfl, hname, hentries⟩
      · exact ⟨e, he, hname, hentries⟩

/-- Nodes that all have a tree, and have the same ones in a row, have them place by place. -/
theorem map_tree?_eq {ids ids' : List Nat} (hids : ∀ id ∈ ids, (d.tree? id).isSome)
    (hids' : ∀ id ∈ ids', (d'.tree? id).isSome)
    (h : ids'.filterMap d'.tree? = ids.filterMap d.tree?) :
    ids'.map d'.tree? = ids.map d.tree? := by
  have hall : ∀ {d : Document} {ids : List Nat}, (∀ id ∈ ids, (d.tree? id).isSome) →
      ids.map d.tree? = (ids.filterMap d.tree?).map some := by
    intro d ids hids
    induction ids with
    | nil => rfl
    | cons id ids ih =>
      rw [List.forall_mem_cons] at hids
      obtain ⟨t, ht⟩ := Option.isSome_iff_exists.1 hids.1
      rw [List.filterMap_cons_some ht, List.map_cons, List.map_cons, ht, ih hids.2]
  rw [hall hids, hall hids', h]

/-- Every node has a tree, and nothing else does. -/
theorem WellFormed.tree?_isSome_iff (h : d.WellFormed) {id : Nat} :
    (d.tree? id).isSome ↔ id < d.nodeCount := by
  constructor
  · intro htree
    rw [← node?_isSome_iff]
    cases hn : d.node? id with
    | some n => rfl
    | none =>
      rw [tree?] at htree
      split at htree
      · cases htree
      · rename_i hsome
        rw [hn] at hsome
        cases hsome
  · intro hid
    obtain ⟨t, ht, -⟩ := h.exists_tree_size hid
    rw [ht]
    rfl

/-- The children of a node are those that its content tells. -/
theorem children_of_node? {id : Nat} {n : Node} (hn : d.node? id = some n) :
    d.children id = n.content.children := by
  rw [children, hn]
  rfl

/-- The tree of a node that holds a content, with `below` as the trees of its children. -/
def treeOf (below : List Tree) : Content → Tree
  | .element e => .element e.name e.attributes.entries below
  | .text s => .text s
  | .cdata bytes => .cdata bytes

/-- The tree of a node is told by its content and by the trees of its children. -/
theorem WellFormed.tree?_of_node? (h : d.WellFormed) {id : Nat} {n : Node}
    (hn : d.node? id = some n) :
    d.tree? id = some (treeOf ((d.children id).filterMap d.tree?) n.content) := by
  obtain ⟨owner, content⟩ := n
  cases content with
  | element e => exact h.tree?_element hn
  | text s => exact tree?_of_text hn
  | cdata bytes => exact tree?_of_cdata hn

/-- Contents with the same tree say the same. -/
theorem agrees_of_treeOf_eq {content content' : Content} {below below' : List Tree}
    (h : treeOf below' content' = treeOf below content) : content.Agrees content' := by
  cases content with
  | element e =>
    cases content' with
    | element e' =>
      obtain ⟨hname, hentries, -⟩ := Tree.element.inj h
      refine .element hname fun key => ?_
      rw [OrderedMap.lawful.ext hentries]
    | _ => cases h
  | text s =>
    cases content' with
    | text s' =>
      cases h
      exact .text s
    | _ => cases h
  | cdata bytes =>
    cases content' with
    | cdata bytes' =>
      cases h
      exact .cdata bytes
    | _ => cases h

/-- **Nodes with the same tree say the same**, and have children with the same trees. -/
theorem agrees_of_tree?_eq (hwf : d.WellFormed) (hwf' : d'.WellFormed) {id id' : Nat}
    (hid : id < d.nodeCount) (h : d'.tree? id' = d.tree? id) :
    ∃ n n', d.node? id = some n ∧ d'.node? id' = some n' ∧ n.content.Agrees n'.content ∧
      (d'.children id').map d'.tree? = (d.children id).map d.tree? := by
  have hid' : id' < d'.nodeCount := by
    rw [← hwf'.tree?_isSome_iff, h]
    exact hwf.tree?_isSome_iff.2 hid
  obtain ⟨⟨owner, content⟩, hn⟩ := Option.isSome_iff_exists.1 (node?_isSome_iff.2 hid)
  obtain ⟨⟨owner', content'⟩, hn'⟩ := Option.isSome_iff_exists.1 (node?_isSome_iff.2 hid')
  rw [hwf.tree?_of_node? hn, hwf'.tree?_of_node? hn', Option.some.injEq] at h
  have hagrees : content.Agrees content' := agrees_of_treeOf_eq h
  refine ⟨_, _, hn, hn', hagrees, map_tree?_eq ?_ ?_ ?_⟩
  · exact fun child hchild => hwf.tree?_isSome_iff.2 (hwf.lt_of_mem_children hchild).2
  · exact fun child hchild => hwf'.tree?_isSome_iff.2 (hwf'.lt_of_mem_children hchild).2
  · cases hagrees with
    | element name attributes => exact (Tree.element.inj h).2.2
    | text s =>
      rw [children_of_node? hn, children_of_node? hn']
      rfl
    | cdata bytes =>
      rw [children_of_node? hn, children_of_node? hn']
      rfl

/-- **In documents with the same trees nodes that correspond have the same tree.** -/
theorem Corresponds.tree?_eq (hd : d.Grown) (hd' : d'.Grown) (hforest : d'.forest = d.forest)
    {id id' : Nat} (h : d.Corresponds d' id id') :
    id < d.nodeCount ∧ d'.tree? id' = d.tree? id := by
  have hwf := hd.wellFormed
  have hwf' := hd'.wellFormed
  induction h with
  | root =>
    obtain ⟨e, he, hname, hentries⟩ := hd.node?_root
    obtain ⟨e', he', hname', hentries'⟩ := hd'.node?_root
    refine ⟨node?_isSome_iff.1 (by rw [he]; rfl), ?_⟩
    rw [hwf.tree?_element he, hwf'.tree?_element he', hname, hname', hentries, hentries', ← forest,
      ← forest, hforest]
  | @child p p' i id id' _ hid hid' ih =>
    obtain ⟨n, n', -, -, -, hchildren⟩ := agrees_of_tree?_eq hwf hwf' ih.1 ih.2
    -- the trees of the children are the same place by place
    have hplace := congrArg (·[i]?) hchildren
    simp only [List.getElem?_map, hid, hid', Option.map_some, Option.some.injEq] at hplace
    exact ⟨(hwf.lt_of_mem_children (List.mem_of_getElem? hid)).2, hplace⟩

/-- **In documents with the same trees every node corresponds to one.** -/
theorem exists_corresponds (hd : d.Grown) (hd' : d'.Grown) (hforest : d'.forest = d.forest)
    {id : Nat} (hid : id < d.nodeCount) : ∃ id', d.Corresponds d' id id' := by
  have hwf := hd.wellFormed
  induction id using hwf.induction_up with
  | top id hp =>
    by_cases hroot : id = root
    · rw [hroot]
      exact ⟨root, .root⟩
    · obtain ⟨p, hp', -, -⟩ := hwf.parent hroot hid
      rw [hp] at hp'
      cases hp'
  | below id p hp ih =>
    obtain ⟨hlt, hmem⟩ := hwf.parent_lt hp
    obtain ⟨p', h⟩ := ih (Nat.lt_trans hlt hid)
    obtain ⟨hplt, htree⟩ := h.tree?_eq hd hd' hforest
    obtain ⟨n, n', -, -, -, hchildren⟩ := agrees_of_tree?_eq hwf hd'.wellFormed hplt htree
    -- the parents have as many children, so there is one at the same place
    obtain ⟨i, hi⟩ := List.getElem?_of_mem hmem
    have hlength := congrArg List.length hchildren
    rw [List.length_map, List.length_map] at hlength
    have hi' : i < (d'.children p').length := hlength ▸ (List.getElem?_eq_some_iff.1 hi).1
    exact ⟨_, .child h hi (List.getElem?_eq_getElem hi')⟩

/-- **Documents with the same trees differ in their numbers only.** -/
theorem Reachable.exists_renumbering (hd : d.Reachable) (hd' : d'.Reachable)
    (hforest : d'.forest = d.forest) : ∃ f, Renumbering f d d' := by
  have hwf := hd.wellFormed
  have hwf' := hd'.wellFormed
  have hall : ∀ id, d.contains id → ∃ id', d.Corresponds d' id id' := fun id hid =>
    exists_corresponds hd.grown hd'.grown hforest (node?_isSome_iff.1 hid)
  choose! f hf using hall
  have hunique : ∀ {id id'}, d.contains id → d.Corresponds d' id id' → f id = id' :=
    fun hid h => (hf _ hid).unique hwf h
  have hagrees : ∀ {id}, d.contains id → ∃ n n', d.node? id = some n ∧ d'.node? (f id) = some n' ∧
      n.content.Agrees n'.content ∧
      (d'.children (f id)).map d'.tree? = (d.children id).map d.tree? := fun hid => by
    obtain ⟨hlt, htree⟩ := (hf _ hid).tree?_eq hd.grown hd'.grown hforest
    exact agrees_of_tree?_eq hwf hwf' hlt htree
  refine ⟨f, ⟨?maps, ?injective, ?surjective⟩, ?root, ?agrees, ?children⟩
  case maps =>
    intro id hid
    obtain ⟨n, n', -, hn', -⟩ := hagrees hid
    show (d'.node? (f id)).isSome
    rw [hn']
    rfl
  case injective =>
    intro a ha b hb heq
    exact (hf a ha).symm.unique hwf' (heq ▸ (hf b hb).symm)
  case surjective =>
    intro id' hid'
    obtain ⟨id, h⟩ := exists_corresponds hd'.grown hd.grown hforest.symm (node?_isSome_iff.1 hid')
    have hid : d.contains id :=
      node?_isSome_iff.2 (h.symm.tree?_eq hd.grown hd'.grown hforest).1
    exact ⟨id, hid, hunique hid h.symm⟩
  case root =>
    have hroot : d.contains Document.root :=
      node?_isSome_iff.2 (lt_nodeCount_of_isElement hwf.isElement_root)
    exact hunique hroot Corresponds.root
  case agrees =>
    intro id n hn
    have hid : d.contains id := by rw [contains, hn]; rfl
    obtain ⟨_, n', hn', hn'', h, -⟩ := hagrees hid
    rw [hn, Option.some.injEq] at hn'
    exact ⟨n', hn'', hn' ▸ h⟩
  case children =>
    intro id hid
    obtain ⟨-, -, -, -, -, hchildren⟩ := hagrees hid
    have hlength := congrArg List.length hchildren
    rw [List.length_map, List.length_map] at hlength
    refine List.ext_getElem (by rw [hlength, List.length_map]) fun i hi' hi => ?_
    rw [List.length_map] at hi
    rw [List.getElem_map]
    exact (hunique (hwf.contains_of_mem_children (List.getElem_mem hi))
      (.child (hf id hid) (List.getElem?_eq_getElem hi) (List.getElem?_eq_getElem hi'))).symm

end XmlQuery.Document
