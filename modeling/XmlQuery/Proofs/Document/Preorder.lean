import Mathlib.Data.List.Nodup
import Mathlib.Data.List.Perm.Subperm
import Mathlib.Data.List.Range
import XmlQuery.Proofs.Document.WellFormed

namespace XmlQuery.Document

/-!
# Documents in pre-order

A walk down a document keeps a list of the nodes that it has still to visit, and is told how many
steps it may take.  In a well-formed document neither shows: the walk visits the subtrees of the
nodes that it is given, one after the other.

* `subtree` — a node and all below it, each before those below it.
* `descendants_eq` — the nodes below a node are the subtrees of its children.
* `mem_subtree_iff` — the nodes of a subtree are those that have its top above them.
* `nodup_subtree` — no node occurs in a subtree twice.
* `subtree_root_perm` — the subtree of node 0 has every node.
* `Reachable.isTree` — the nodes of every document make up one tree, from which none is missing.
-/

/-- A node and all nodes below it, each before the nodes below it. -/
def subtree (d : Document) (id : Nat) : List Nat :=
  id :: (d.children id).flatMap fun child =>
    if _h : id < child ∧ child < d.nodeCount then d.subtree child else []
  termination_by d.nodeCount - id

/-- A node is the first one of its subtree. -/
theorem mem_subtree_self (d : Document) (id : Nat) : id ∈ d.subtree id := by
  rw [subtree]
  exact List.mem_cons_self

namespace WellFormed

variable {d : Document}

/-- The subtree of a node is the node with the subtrees of its children behind it. -/
theorem subtree_eq (h : d.WellFormed) (id : Nat) :
    d.subtree id = id :: (d.children id).flatMap d.subtree := by
  rw [subtree, List.cons_inj_right]
  refine List.flatMap_congr fun child hchild => ?_
  -- children have higher numbers, so no subtree is cut off
  rw [dif_pos (h.lt_of_mem_children hchild)]

/-- A walk visits the subtrees of the nodes that it has still to visit. -/
theorem take_walk (h : d.WellFormed) (count : Nat) (pending : List Nat) :
    Walk.take d count ⟨pending⟩ = (pending.flatMap d.subtree).take count := by
  induction count generalizing pending with
  | zero => simp [Walk.take]
  | succ count ih =>
    cases pending with
    | nil => simp [Walk.take, Walk.next?]
    | cons id rest =>
      rw [List.flatMap_cons, h.subtree_eq id, List.cons_append, List.take_succ_cons,
        ← List.flatMap_append, ← ih]
      rfl

/-- Induction along the ways down: what passes from the children of a node to the node itself
    holds of every node. -/
theorem induction_down (h : d.WellFormed) {motive : Nat → Prop}
    (above : ∀ id, (∀ child ∈ d.children id, motive child) → motive id) (id : Nat) :
    motive id := by
  -- children have higher numbers, and there are only so many nodes
  induction hn : d.nodeCount - id using Nat.strong_induction_on generalizing id with
  | _ n ih =>
    refine above id fun child hchild => ?_
    obtain ⟨hlt, hbound⟩ := h.lt_of_mem_children hchild
    exact ih _ (by omega) child rfl

/-- What lies in a subtree is its top, or lies in the subtree of a child. -/
theorem mem_subtree_cons (h : d.WellFormed) {i j : Nat} :
    j ∈ d.subtree i ↔ j = i ∨ ∃ child ∈ d.children i, j ∈ d.subtree child := by
  rw [h.subtree_eq, List.mem_cons, List.mem_flatMap]

/-- What lies in a subtree does not lie before its top. -/
theorem le_of_mem_subtree (h : d.WellFormed) {i j : Nat} (hj : j ∈ d.subtree i) : i ≤ j := by
  induction i using h.induction_down with
  | above i ih =>
    rcases h.mem_subtree_cons.1 hj with rfl | ⟨child, hchild, hj⟩
    · exact Nat.le_refl j
    · exact Nat.le_trans (Nat.le_of_lt (h.lt_of_mem_children hchild).1) (ih child hchild hj)

/-- The subtree of a node has nodes of the document only. -/
theorem lt_nodeCount_of_mem_subtree (h : d.WellFormed) {i j : Nat} (hi : i < d.nodeCount)
    (hj : j ∈ d.subtree i) : j < d.nodeCount := by
  induction i using h.induction_down with
  | above i ih =>
    rcases h.mem_subtree_cons.1 hj with rfl | ⟨child, hchild, hj⟩
    · exact hi
    · exact ih child hchild (h.lt_of_mem_children hchild).2 hj

/-! ### Subtrees and ancestors -/

/-- The ancestors of a node are its parent and the ancestors of that. -/
theorem ancestors_of_parent? (h : d.WellFormed) {id p : Nat} (hp : d.parent? id = some p) :
    d.ancestors id = p :: d.ancestors p := by
  rw [ancestors, hp]
  exact if_pos (h.parent_lt hp).1

/-- A node without a parent has no ancestors. -/
theorem ancestors_of_parent?_eq_none {id : Nat} (hp : d.parent? id = none) :
    d.ancestors id = [] := by
  rw [ancestors, hp]

/-- Induction along the way up: what holds of a node without a parent, and passes from a parent to
    its children, holds of every node. -/
theorem induction_up (h : d.WellFormed) {motive : Nat → Prop}
    (top : ∀ id, d.parent? id = none → motive id)
    (below : ∀ id p, d.parent? id = some p → motive p → motive id) (id : Nat) : motive id := by
  induction id using Nat.strong_induction_on with
  | _ id ih =>
    cases hp : d.parent? id with
    | none => exact top id hp
    | some p => exact below id p hp (ih p (h.parent_lt hp).1)

/-- Documents with the same parents up to a node have the same ancestors of it. -/
theorem ancestors_congr (h : d.WellFormed) {d' : Document} {id : Nat}
    (hparents : ∀ j ≤ id, d'.parent? j = d.parent? j) : d'.ancestors id = d.ancestors id := by
  induction id using h.induction_up with
  | top id hp => rw [ancestors, ancestors, hparents id (Nat.le_refl id), hp]
  | below id p hp ih =>
    have hlt := (h.parent_lt hp).1
    rw [h.ancestors_of_parent? hp, ancestors, hparents id (Nat.le_refl id), hp]
    dsimp only
    rw [if_pos hlt, ih fun j hj => hparents j (by omega)]

/-- What is above a node has a lower number. -/
theorem lt_of_mem_ancestors (h : d.WellFormed) {i j : Nat} (hi : i ∈ d.ancestors j) : i < j := by
  induction j using h.induction_up with
  | top j hp =>
    rw [ancestors_of_parent?_eq_none hp] at hi
    cases hi
  | below j p hp ih =>
    rw [h.ancestors_of_parent? hp, List.mem_cons] at hi
    have hlt := (h.parent_lt hp).1
    rcases hi with rfl | hi
    · exact hlt
    · exact Nat.lt_trans (ih hi) hlt

/-- What is above an ancestor is an ancestor. -/
theorem ancestors_trans (h : d.WellFormed) {i j k : Nat} (hij : i ∈ d.ancestors j)
    (hjk : j ∈ k :: d.ancestors k) : i ∈ d.ancestors k := by
  induction k using h.induction_up with
  | top k hp =>
    rw [ancestors_of_parent?_eq_none hp, List.mem_singleton] at hjk
    exact hjk ▸ hij
  | below k p hp ih =>
    rw [List.mem_cons] at hjk
    rcases hjk with rfl | hjk
    · exact hij
    · rw [h.ancestors_of_parent? hp] at hjk ⊢
      exact List.mem_cons_of_mem _ (ih hjk)

/-- Of two nodes on one way up, the one with the lower number is above the other. -/
theorem mem_ancestors_of_lt (h : d.WellFormed) {i j k : Nat} (hi : i ∈ k :: d.ancestors k)
    (hj : j ∈ k :: d.ancestors k) (hlt : i < j) : i ∈ d.ancestors j := by
  induction k using h.induction_up with
  | top k hp =>
    rw [ancestors_of_parent?_eq_none hp, List.mem_singleton] at hi hj
    omega
  | below k p hp ih =>
    rw [List.mem_cons] at hj
    rcases hj with rfl | hj
    · rw [List.mem_cons] at hi
      rcases hi with rfl | hi
      · exact absurd hlt (Nat.lt_irrefl i)
      · exact hi
    · have hjk := h.lt_of_mem_ancestors hj
      rw [h.ancestors_of_parent? hp] at hi hj
      rw [List.mem_cons] at hi
      rcases hi with rfl | hi
      · exact absurd hlt (by omega)
      · exact ih hi hj

/-- The children of what lies in a subtree lie in it too. -/
theorem mem_subtree_of_parent? (h : d.WellFormed) {i p j : Nat} (hp : p ∈ d.subtree i)
    (hj : d.parent? j = some p) : j ∈ d.subtree i := by
  induction i using h.induction_down with
  | above i ih =>
    rcases h.mem_subtree_cons.1 hp with rfl | ⟨child, hchild, hp⟩
    · exact h.mem_subtree_cons.2 (.inr ⟨j, (h.parent_lt hj).2, mem_subtree_self d j⟩)
    · exact h.mem_subtree_cons.2 (.inr ⟨child, hchild, ih child hchild hp⟩)

/-- **A node lies in the subtree of another exactly if that one is the node itself or above it.** -/
theorem mem_subtree_iff (h : d.WellFormed) {i j : Nat} :
    j ∈ d.subtree i ↔ i ∈ j :: d.ancestors j := by
  constructor
  · intro hj
    induction i using h.induction_down with
    | above i ih =>
      rcases h.mem_subtree_cons.1 hj with rfl | ⟨child, hchild, hj⟩
      · exact List.mem_cons_self
      · have habove : i ∈ d.ancestors child := by
          rw [h.ancestors_of_parent? (h.child hchild)]
          exact List.mem_cons_self
        exact List.mem_cons_of_mem _ (h.ancestors_trans habove (ih child hchild hj))
  · intro hi
    induction j using h.induction_up with
    | top j hp =>
      rw [ancestors_of_parent?_eq_none hp, List.mem_singleton] at hi
      exact hi ▸ mem_subtree_self d i
    | below j p hp ih =>
      rw [h.ancestors_of_parent? hp, List.mem_cons] at hi
      rcases hi with rfl | hi
      · exact mem_subtree_self d i
      · exact h.mem_subtree_of_parent? (ih hi) hp

/-! ### Every node once -/

/-- The subtrees of two children of one node have no node in common. -/
theorem disjoint_subtree (h : d.WellFormed) {p a b : Nat} (ha : a ∈ d.children p)
    (hb : b ∈ d.children p) (hlt : a < b) : List.Disjoint (d.subtree a) (d.subtree b) := by
  intro j hja hjb
  -- both children are on the way up from `j`, so the first one is above the second
  have habove := h.mem_ancestors_of_lt (h.mem_subtree_iff.1 hja) (h.mem_subtree_iff.1 hjb) hlt
  rw [h.ancestors_of_parent? (h.child hb), List.mem_cons] at habove
  have hpa := (h.lt_of_mem_children ha).1
  rcases habove with rfl | habove
  · exact Nat.lt_irrefl a hpa
  · exact Nat.lt_asymm hpa (h.lt_of_mem_ancestors habove)

/-- **No node occurs in a subtree twice.** -/
theorem nodup_subtree (h : d.WellFormed) (i : Nat) : (d.subtree i).Nodup := by
  induction i using h.induction_down with
  | above i ih =>
    rw [h.subtree_eq, List.nodup_cons, List.nodup_flatMap]
    refine ⟨?_, ih, ?_⟩
    · intro hi
      obtain ⟨child, hchild, hi⟩ := List.mem_flatMap.1 hi
      exact absurd (h.le_of_mem_subtree hi) (Nat.not_le.2 (h.lt_of_mem_children hchild).1)
    · exact (h.ascending i).imp_of_mem fun ha hb hlt => h.disjoint_subtree ha hb hlt

/-- A subtree has no more nodes than the document. -/
theorem length_subtree_le (h : d.WellFormed) {i : Nat} (hi : i < d.nodeCount) :
    (d.subtree i).length ≤ d.nodeCount := by
  have hsubset : d.subtree i ⊆ List.range d.nodeCount := fun j hj =>
    List.mem_range.2 (h.lt_nodeCount_of_mem_subtree hi hj)
  simpa using (List.subperm_of_subset (h.nodup_subtree i) hsubset).length_le

/-- **The nodes below a node are the subtrees of its children**, one after the other. -/
theorem descendants_eq (h : d.WellFormed) (id : Nat) :
    d.descendants id = (d.children id).flatMap d.subtree := by
  rw [descendants, h.take_walk]
  refine List.take_of_length_le ?_
  -- the walk may take as many steps as there are nodes, which is enough for a subtree
  by_cases hid : id < d.nodeCount
  · have hle := h.length_subtree_le hid
    rw [h.subtree_eq, List.length_cons] at hle
    exact Nat.le_of_succ_le hle
  · rw [children_of_nodeCount_le (Nat.not_lt.1 hid)]
    exact Nat.zero_le _

/-- A subtree is its top and what is below that. -/
theorem subtree_eq_cons_descendants (h : d.WellFormed) (id : Nat) :
    d.subtree id = id :: d.descendants id := by
  rw [h.subtree_eq, h.descendants_eq]

/-- Every node but node 0 has node 0 above it. -/
theorem root_mem_ancestors (h : d.WellFormed) {id : Nat} (hid : id < d.nodeCount) :
    Document.root ∈ id :: d.ancestors id := by
  induction id using h.induction_up with
  | top id hp =>
    by_cases hroot : id = Document.root
    · exact hroot ▸ List.mem_cons_self
    · obtain ⟨p, hp', -, -⟩ := h.parent hroot hid
      rw [hp] at hp'
      cases hp'
  | below id p hp ih =>
    rw [h.ancestors_of_parent? hp]
    exact List.mem_cons_of_mem _ (ih (Nat.lt_trans (h.parent_lt hp).1 hid))

/-- **The subtree of node 0 has every node once.** -/
theorem subtree_root_perm (h : d.WellFormed) :
    (d.subtree Document.root).Perm (List.range d.nodeCount) := by
  rw [List.perm_ext_iff_of_nodup (h.nodup_subtree _) List.nodup_range]
  intro id
  rw [List.mem_range]
  constructor
  · exact h.lt_nodeCount_of_mem_subtree (lt_nodeCount_of_isElement h.isElement_root)
  · exact fun hid => h.mem_subtree_iff.2 (h.root_mem_ancestors hid)

/-- The nodes below node 0 are all nodes but itself. -/
theorem descendantCount_root (h : d.WellFormed) :
    d.descendantCount Document.root = d.nodeCount - 1 := by
  have hlength := h.subtree_root_perm.length_eq
  rw [h.subtree_eq, List.length_cons, List.length_range] at hlength
  rw [descendantCount, h.descendants_eq]
  omega

end WellFormed

/-! ### One tree -/

/-- The nodes make up one tree.  Node 0 is an element and its top; every other node has as its
    parent an element with a lower number, which lists it once, as nothing else does; what is
    listed is a node and names the owner of the list as its parent; child lists ascend; there is at
    most one element at top level; and no node is missing below node 0. -/
structure IsTree (d : Document) : Prop where
  top : ∃ e, d.node? root = some ⟨none, .element e⟩
  owner : ∀ id, id ≠ root → id < d.nodeCount →
    ∃ p, d.parent? id = some p ∧ p < id ∧ d.isElement p ∧ (d.children p).count id = 1 ∧
      ∀ q, q ≠ p → id ∉ d.children q
  listed : ∀ p, ∀ id ∈ d.children p, id < d.nodeCount ∧ d.parent? id = some p
  ascending : ∀ p, (d.children p).Pairwise (· < ·)
  single : ((d.children root).filter d.isElement).length ≤ 1
  complete : d.descendantCount root = d.nodeCount - 1

/-- **The nodes of every document make up one tree**, whatever edits have been tried on it. -/
theorem Reachable.isTree {d : Document} (h : d.Reachable) : d.IsTree := by
  have hwf := h.wellFormed
  refine ⟨hwf.root, ?owner, ?listed, hwf.ascending, ?single, hwf.descendantCount_root⟩
  case owner =>
    intro id hid hlt
    obtain ⟨p, hp, hplt, hmem⟩ := hwf.parent hid hlt
    refine ⟨p, hp, hplt, isElement_of_mem_children hmem,
      List.count_eq_one_of_mem (hwf.nodup_children p) hmem, ?_⟩
    intro q hq hmem'
    have := hwf.child hmem'
    rw [hp, Option.some.injEq] at this
    exact hq this.symm
  case listed =>
    intro p id hid
    exact ⟨(hwf.lt_of_mem_children hid).2, hwf.child hid⟩
  case single =>
    rw [← List.countP_eq_length_filter]
    exact hwf.single

/-- An element that holds a text; a second element beside it is refused, and changes nothing. -/
theorem isTree_after_refusal :
    let held := ((ofEncoding "utf-8").edit (.addChild 0 "a" [])).edit (.appendText 1 "x")
    let tried := held.edit (.addChild 0 "b" [])
    tried.Reachable ∧ tried.nodeCount = held.nodeCount ∧ tried.IsTree := by
  have hreachable := (((Reachable.ofEncoding "utf-8").edited (.addChild 0 "a" [])).edited
    (.appendText 1 "x")).edited (.addChild 0 "b" [])
  exact ⟨hreachable, by decide, Reachable.isTree hreachable⟩

end XmlQuery.Document
