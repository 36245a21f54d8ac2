import Mathlib.Data.List.Flatten
import XmlQuery.Proofs.Document.Layout

namespace XmlQuery.Document

/-!
# Documents that extend others

Whatever edits are made, a node that a document has is still there afterwards.  It says what it
said before, and its children are followed by new ones at most.

* `Extends` — a document with at least the nodes of another one.
* `extends_edits` — edits extend a document.
* `Extends.any_node?`, `Extends.exists_children_eq` — what is kept of a node.
* `Extends.descendants_sublist` — the nodes below a node are still there in the same order, with new
  ones among them.
-/

/-- Every node of the first document is in the second one under its number, with more children
    behind the old ones at most. -/
def Extends (d d' : Document) : Prop :=
  ∀ id n, d.node? id = some n →
    ∃ more, d'.node? id = some { n with content := n.content.addChildren more }

namespace Extends

variable {d d' d'' : Document}

/-- A document extends itself. -/
theorem refl (d : Document) : d.Extends d := by
  intro id n hn
  refine ⟨[], ?_⟩
  rw [Content.addChildren_nil]
  exact hn

/-- What extends an extension extends the document itself. -/
theorem trans (h : d.Extends d') (h' : d'.Extends d'') : d.Extends d'' := by
  intro id n hn
  obtain ⟨ids, hn'⟩ := h id n hn
  obtain ⟨more, hn''⟩ := h' id _ hn'
  refine ⟨ids ++ more, ?_⟩
  rw [hn'', Content.addChildren_append]

end Extends

/-! ### Edits -/

/-- A step extends a document. -/
theorem Step.extends {d next : Document} (h : Step d next) : d.Extends next := by
  cases h with
  | label encoding => exact Extends.refl d
  | @insert parent content hparent hrival hroom hfresh =>
    intro id n hn
    have hold : id ≠ d.nodeCount := by
      have hlt : id < d.nodeCount := node?_isSome_iff.1 (by simp [hn])
      exact Nat.ne_of_lt hlt
    rw [node?_insertNode, if_neg hold, hn]
    by_cases hid : id = parent
    · -- only the parent gets a child
      refine ⟨[d.nodeCount], ?_⟩
      simp [hid, Content.addChild_eq]
    · refine ⟨[], ?_⟩
      simp [hid, Content.addChildren_nil]

/-- **Edits extend a document**, whether they are refused or not. -/
theorem extends_edits (d : Document) (edits : List Edit) :
    d.Extends (edits.foldl Document.edit d) := by
  induction edits generalizing d with
  | nil => exact Extends.refl d
  | cons e edits ih =>
    have hstep : d.Extends (d.edit e) := by
      rcases edit_cases d e with heq | hstep
      · rw [heq]
        exact Extends.refl d
      · exact hstep.extends
    exact hstep.trans (ih (d.edit e))

/-- Edits lead from a document that exists to one that exists. -/
theorem Reachable.edits {d : Document} (h : d.Reachable) (edits : List Edit) :
    (edits.foldl Document.edit d).Reachable := by
  induction edits generalizing d with
  | nil => exact h
  | cons e edits ih => exact ih (h.edited e)

/-! ### What is kept -/

namespace Extends

variable {d d' : Document}

/-- A node of a document is one of its extensions. -/
theorem contains (h : d.Extends d') {id : Nat} (hid : d.contains id) : d'.contains id := by
  obtain ⟨n, hn⟩ := Option.isSome_iff_exists.1 hid
  obtain ⟨more, hn'⟩ := h id n hn
  simp [Document.contains, hn']

/-- A test that does not look at children has the same outcome in an extension. -/
theorem any_node? (h : d.Extends d') {id : Nat} (hid : d.contains id) {test : Node → Bool}
    (htest : ∀ n more, test { n with content := n.content.addChildren more } = test n) :
    (d'.node? id).any test = (d.node? id).any test := by
  obtain ⟨n, hn⟩ := Option.isSome_iff_exists.1 hid
  obtain ⟨more, hn'⟩ := h id n hn
  rw [hn, hn']
  exact htest n more

/-- The elements of a document are the elements among its nodes in an extension. -/
theorem isElement (h : d.Extends d') {id : Nat} (hid : d.contains id) :
    d'.isElement id = d.isElement id := by
  refine h.any_node? hid fun n more => ?_
  obtain ⟨parent, content⟩ := n
  cases content <;> rfl

/-- The children of a node come first among its children in an extension. -/
theorem exists_children_eq (h : d.Extends d') (id : Nat) :
    ∃ more, d'.children id = d.children id ++ more := by
  cases hn : d.node? id with
  | none => exact ⟨d'.children id, by simp [children, hn]⟩
  | some n =>
    obtain ⟨more, hn'⟩ := h id n hn
    obtain ⟨parent, content⟩ := n
    simp only [children, hn, hn', Node.children]
    cases content with
    | element e => exact ⟨more, rfl⟩
    | text s => exact ⟨[], rfl⟩
    | cdata bytes => exact ⟨[], rfl⟩

/-- The children of a node are among its children in an extension, in the same order. -/
theorem children_sublist (h : d.Extends d') (id : Nat) :
    (d.children id).Sublist (d'.children id) := by
  obtain ⟨more, hmore⟩ := h.exists_children_eq id
  rw [hmore]
  exact List.sublist_append_left (d.children id) more

end Extends

/-- More nodes, with more to each of them, give a longer list in the same order. -/
theorem flatMap_sublist {ids ids' : List Nat} {below below' : Nat → List Nat}
    (hids : ids.Sublist ids') (hbelow : ∀ id ∈ ids, (below id).Sublist (below' id)) :
    (ids.flatMap below).Sublist (ids'.flatMap below') := by
  have hmore : (ids.flatMap below).Sublist (ids.flatMap below') :=
    List.Sublist.flatMap_right ids hbelow
  exact hmore.trans (hids.flatMap below')

namespace Extends

variable {d d' : Document}

/-- The subtree of a node is still there in the same order. -/
theorem subtree_sublist (h : d.Extends d') (hwf : d.WellFormed) (hwf' : d'.WellFormed) (id : Nat) :
    (d.subtree id).Sublist (d'.subtree id) := by
  induction id using hwf.induction_down with
  | above id ih =>
    rw [hwf.subtree_eq, hwf'.subtree_eq]
    exact (flatMap_sublist (h.children_sublist id) ih).cons_cons id

/-- **The nodes below a node are still there in the same order**, with new ones among them. -/
theorem descendants_sublist (h : d.Extends d') (hwf : d.WellFormed) (hwf' : d'.WellFormed)
    (id : Nat) : (d.descendants id).Sublist (d'.descendants id) := by
  rw [hwf.descendants_eq, hwf'.descendants_eq]
  refine flatMap_sublist (h.children_sublist id) fun child _ => ?_
  exact h.subtree_sublist hwf hwf' child

end Extends

end XmlQuery.Document
