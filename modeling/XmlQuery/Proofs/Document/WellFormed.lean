import XmlQuery.Document.Navigation
import XmlQuery.Proofs.Document.Growth

namespace XmlQuery.Document

/-!
# Well-formed documents

Parents and child lists record the same tree twice.  They agree in every document, since a node is
entered into both at once.

* `WellFormed` — the agreement, in the form that a step keeps.
* `WellFormed.parent_insertNode`, `WellFormed.child_insertNode`, `WellFormed.ascending_insertNode`,
  `WellFormed.single_insertNode` — a new node without children keeps each part of it.
* `wellFormed_insertNode` — hence a new node keeps it.
* `Grown.wellFormed`, `Reachable.wellFormed` — hence it holds of every document.
* `Reachable.nodeCount_le` — no document outgrows its bound.
-/

/-- The number of elements at top level. -/
def topElements (d : Document) : Nat :=
  (d.children root).countP d.isElement

/-- There is no element at top level exactly if the search for one fails. -/
theorem rootElement?_eq_none_iff {d : Document} : d.rootElement? = none ↔ d.topElements = 0 := by
  rw [rootElement?, List.find?_eq_none, topElements, List.countP_eq_zero]

/-- Parents and child lists agree.  Node 0 is an element without a parent; every other node has a
    parent with a lower number that lists it; what is listed names the owner of the list as its
    parent; child lists ascend; and there is at most one element at top level. -/
structure WellFormed (d : Document) : Prop where
  root : ∃ e, d.node? root = some ⟨none, .element e⟩
  parent : ∀ {id : Nat}, id ≠ Document.root → id < d.nodeCount →
    ∃ p, d.parent? id = some p ∧ p < id ∧ id ∈ d.children p
  child : ∀ {p id : Nat}, id ∈ d.children p → d.parent? id = some p
  ascending : ∀ p, (d.children p).Pairwise (· < ·)
  single : d.topElements ≤ 1

namespace WellFormed

variable {d : Document}

/-- Node 0 is an element. -/
theorem isElement_root (h : d.WellFormed) : d.isElement Document.root := by
  obtain ⟨e, he⟩ := h.root
  exact isElement_iff.2 ⟨none, e, he⟩

/-- Node 0 has no parent. -/
theorem parent?_root (h : d.WellFormed) : d.parent? Document.root = none := by
  obtain ⟨e, he⟩ := h.root
  simp [parent?, he]

/-- Only nodes have parents. -/
theorem lt_nodeCount_of_parent? {id p : Nat} (h : d.parent? id = some p) : id < d.nodeCount := by
  rw [← node?_isSome_iff]
  cases hn : d.node? id with
  | none => simp [parent?, hn] at h
  | some n => rfl

/-- A parent has a lower number than its child, and lists it. -/
theorem parent_lt (h : d.WellFormed) {id p : Nat} (hp : d.parent? id = some p) :
    p < id ∧ id ∈ d.children p := by
  have hid : id ≠ Document.root := by
    rintro rfl
    rw [h.parent?_root] at hp
    cases hp
  obtain ⟨q, hq, hlt, hmem⟩ := h.parent hid (lt_nodeCount_of_parent? hp)
  rw [hp] at hq
  cases hq
  exact ⟨hlt, hmem⟩

/-- The children of a node are the nodes that name it as their parent. -/
theorem mem_children_iff (h : d.WellFormed) {p id : Nat} :
    id ∈ d.children p ↔ d.parent? id = some p :=
  ⟨h.child, fun hp => (h.parent_lt hp).2⟩

/-- A child is a node, and has a higher number than its parent. -/
theorem lt_of_mem_children (h : d.WellFormed) {p id : Nat} (hid : id ∈ d.children p) :
    p < id ∧ id < d.nodeCount :=
  ⟨(h.parent_lt (h.child hid)).1, lt_nodeCount_of_parent? (h.child hid)⟩

/-- A child is a node. -/
theorem contains_of_mem_children (h : d.WellFormed) {p id : Nat} (hid : id ∈ d.children p) :
    d.contains id :=
  node?_isSome_iff.2 (h.lt_of_mem_children hid).2

/-- No node is listed twice. -/
theorem nodup_children (h : d.WellFormed) (p : Nat) : (d.children p).Nodup :=
  (h.ascending p).imp fun hlt => Nat.ne_of_lt hlt

end WellFormed

/-- The document that holds nothing is well-formed. -/
theorem wellFormed_ofEncoding (encoding : String) : (ofEncoding encoding).WellFormed := by
  have hchildren : ∀ p, (ofEncoding encoding).children p = [] := by
    intro p
    cases p with
    | zero => rfl
    | succ p => exact children_of_nodeCount_le (by simp [nodeCount, ofEncoding])
  refine ⟨⟨_, rfl⟩, ?_, ?_, ?_, ?_⟩
  · intro id hid hlt
    simp only [nodeCount, ofEncoding, List.size_toArray, List.length_singleton] at hlt
    exact absurd hlt (by unfold root at hid; omega)
  · intro p id hid
    simp [hchildren] at hid
  · intro p
    simp [hchildren]
  · simp [topElements, hchildren]

/-- A new label keeps a document well-formed. -/
theorem wellFormed_setEncoding {d : Document} (h : d.WellFormed) (encoding : String) :
    (d.setEncoding encoding).WellFormed :=
  ⟨h.root, h.parent, h.child, h.ascending, h.single⟩

/-! ### A new node -/

section InsertNode

variable {d : Document} {parent : Nat} {content : Content} (h : d.WellFormed)
include h

/-- What is listed in a well-formed document is not the number of the next node. -/
theorem WellFormed.ne_nodeCount_of_mem_children {p id : Nat} (hid : id ∈ d.children p) :
    id ≠ d.nodeCount :=
  Nat.ne_of_lt (h.lt_of_mem_children hid).2

/-- Node 0 stays an element without a parent. -/
theorem WellFormed.root_insertNode :
    ∃ e, (d.insertNode parent content).node? Document.root = some ⟨none, .element e⟩ := by
  have hroot : Document.root < d.nodeCount := lt_nodeCount_of_isElement h.isElement_root
  obtain ⟨e, he⟩ := h.root
  rw [node?_insertNode, if_neg (Nat.ne_of_lt hroot)]
  split
  · exact ⟨_, by rw [he]; rfl⟩
  · exact ⟨e, he⟩

/-- The old children are elements or not as they were before. -/
theorem WellFormed.countP_isElement_insertNode (p : Nat) :
    (d.children p).countP (d.insertNode parent content).isElement
      = (d.children p).countP d.isElement := by
  refine List.countP_congr fun id hid => ?_
  rw [isElement_insertNode, if_neg (h.ne_nodeCount_of_mem_children hid)]

variable (hparent : d.isElement parent) (hleaf : content.children = [])
include hparent hleaf

/-- The new node has a parent that lists it, and the old ones keep theirs. -/
theorem WellFormed.parent_insertNode {id : Nat} (hid : id ≠ Document.root)
    (hlt : id < (d.insertNode parent content).nodeCount) :
    ∃ p, (d.insertNode parent content).parent? id = some p ∧ p < id ∧
      id ∈ (d.insertNode parent content).children p := by
  rw [nodeCount_insertNode] at hlt
  rw [parent?_insertNode]
  by_cases hnew : id = d.nodeCount
  · have hbefore := lt_nodeCount_of_isElement hparent
    refine ⟨parent, by rw [if_pos hnew], by omega, ?_⟩
    rw [children_insertNode hparent hleaf, if_pos rfl, hnew]
    exact List.mem_append_right _ (List.mem_singleton_self _)
  · obtain ⟨p, hp, hplt, hmem⟩ := h.parent hid (by omega)
    refine ⟨p, by rw [if_neg hnew, hp], hplt, ?_⟩
    rw [children_insertNode hparent hleaf]
    split
    · rename_i heq
      exact List.mem_append_left _ (heq ▸ hmem)
    · exact hmem

/-- What is listed names the owner of the list as its parent. -/
theorem WellFormed.child_insertNode {p id : Nat}
    (hid : id ∈ (d.insertNode parent content).children p) :
    (d.insertNode parent content).parent? id = some p := by
  rw [children_insertNode hparent hleaf] at hid
  rw [parent?_insertNode]
  split at hid
  · rename_i heq
    rw [List.mem_append, List.mem_singleton] at hid
    rcases hid with hid | rfl
    · rw [if_neg (h.ne_nodeCount_of_mem_children hid), heq, h.child hid]
    · rw [if_pos rfl, heq]
  · rw [if_neg (h.ne_nodeCount_of_mem_children hid), h.child hid]

/-- The new node has the highest number, and comes last in its list. -/
theorem WellFormed.ascending_insertNode (p : Nat) :
    ((d.insertNode parent content).children p).Pairwise (· < ·) := by
  rw [children_insertNode hparent hleaf]
  split
  · rw [List.pairwise_append]
    refine ⟨h.ascending parent, List.pairwise_singleton _ _, ?_⟩
    intro a ha b hb
    rw [List.mem_singleton] at hb
    exact hb ▸ (h.lt_of_mem_children ha).2
  · exact h.ascending p

/-- An element comes to the top level only where there is none yet. -/
theorem WellFormed.single_insertNode (hrival : d.rival? parent content = none) :
    (d.insertNode parent content).topElements ≤ 1 := by
  have hkept : (d.children Document.root).countP (d.insertNode parent content).isElement
      = d.topElements := h.countP_isElement_insertNode Document.root
  rw [topElements, children_insertNode hparent hleaf]
  split
  · rename_i hroot
    subst hroot
    rw [List.countP_append, hkept, List.countP_singleton, isElement_insertNode, if_pos rfl]
    by_cases helement : content.isElement
    · have hnone : d.rootElement? = none := by simpa [rival?, helement] using hrival
      have hzero := rootElement?_eq_none_iff.1 hnone
      rw [if_pos helement]
      omega
    · rw [if_neg helement]
      exact h.single
  · rw [hkept]
    exact h.single

/-- **A new node keeps a document well-formed**, if it has no children, stands below an element,
    and is no second element at top level. -/
theorem wellFormed_insertNode (hrival : d.rival? parent content = none) :
    (d.insertNode parent content).WellFormed where
  root := h.root_insertNode
  parent := h.parent_insertNode hparent hleaf
  child := h.child_insertNode hparent hleaf
  ascending := h.ascending_insertNode hparent hleaf
  single := h.single_insertNode hparent hleaf hrival

end InsertNode

/-! ### Every document -/

/-- Every grown document is well-formed. -/
theorem Grown.wellFormed {d : Document} (h : d.Grown) : d.WellFormed := by
  induction h with
  | ofEncoding encoding => exact wellFormed_ofEncoding encoding
  | step _ hstep ih =>
    cases hstep with
    | label encoding => exact wellFormed_setEncoding ih encoding
    | insert hparent hrival _ hfresh =>
      exact wellFormed_insertNode ih hparent hfresh.children_eq_nil hrival

/-- No grown document has more nodes than a document can hold. -/
theorem Grown.nodeCount_le {d : Document} (h : d.Grown) : d.nodeCount ≤ maxNodes := by
  induction h with
  | ofEncoding encoding => show 1 ≤ maxNodes; decide
  | step _ hstep ih =>
    cases hstep with
    | label encoding => exact ih
    | insert _ _ hroom _ => rw [nodeCount_insertNode]; exact hroom

/-- **Every document is well-formed.** -/
theorem Reachable.wellFormed {d : Document} (h : d.Reachable) : d.WellFormed :=
  h.grown.wellFormed

/-- No document has more nodes than a document can hold. -/
theorem Reachable.nodeCount_le {d : Document} (h : d.Reachable) : d.nodeCount ≤ maxNodes :=
  h.grown.nodeCount_le

end XmlQuery.Document
