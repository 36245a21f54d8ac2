import XmlQuery.Proofs.Document.Renumbering

namespace XmlQuery.Document

/-!
# Ways up and ways down

Below a node are those nodes that have it above them, although the one is read off child lists and
the other off parents.  So of two subtrees one lies in the other if they have anything in common,
and what stands beside a node has that node beside it.

* `Climbs` — the nodes that are met on the way up from a node.
* `Lineage` — such nodes, from the parent to the document itself, with ever lower numbers.
* `WellFormed.lineage_ancestorsWhere` — the ancestors of a node are its lineage.
* `WellFormed.mem_descendants_iff` — what is below a node has it as an ancestor.
* `WellFormed.disjoint_or_subset` — two subtrees have nothing in common, or one lies in the other.
* `WellFormed.mem_siblings_iff`, `WellFormed.siblings_eq_erase` — siblings are the other children of
  the same parent.
* `Reachable.kinship` — all of this, in every document.
-/

/-- The nodes that are met on the way up from a node: its parent, the parent of that, and so on
    until a node has no parent. -/
inductive Climbs (d : Document) : Nat → List Nat → Prop
  | top {id : Nat} (h : d.parent? id = none) : Climbs d id []
  | up {id p : Nat} {ids : List Nat} (h : d.parent? id = some p) (hrest : Climbs d p ids) :
      Climbs d id (p :: ids)

/-- The nodes on the way up from a node.  Their numbers get lower and lower; the first one is the
    parent of the node, and the last one the document itself, above which there is nothing. -/
structure Lineage (d : Document) (id : Nat) (ids : List Nat) : Prop where
  climbs : d.Climbs id ids
  descending : (id :: ids).Pairwise (· > ·)
  nearest : ids.head? = d.parent? id
  farthest : id ≠ root → ids.getLast? = some root
  nothing : id = root → ids = []

namespace WellFormed

variable {d : Document}

/-! ### Lineages -/

/-- What is above a node is an element. -/
theorem isElement_of_mem_ancestors (h : d.WellFormed) {i j : Nat} (hi : i ∈ d.ancestors j) :
    d.isElement i := by
  induction j using h.induction_up with
  | top j hp =>
    rw [ancestors_of_parent?_eq_none hp] at hi
    cases hi
  | below j p hp ih =>
    rw [h.ancestors_of_parent? hp, List.mem_cons] at hi
    rcases hi with rfl | hi
    · exact isElement_of_mem_children (h.parent_lt hp).2
    · exact ih hi

/-- A test that every node passes leaves out no ancestor. -/
theorem ancestorsWhere_true (h : d.WellFormed) (id : Nat) :
    (d.ancestorsWhere id fun _ => true) = d.ancestors id := by
  refine List.filter_eq_self.2 fun i hi => ?_
  obtain ⟨owner, e, hn⟩ := isElement_iff.1 (h.isElement_of_mem_ancestors hi)
  rw [passes, hn]
  rfl

/-- The ancestors of a node are what is met on the way up. -/
theorem climbs_ancestors (h : d.WellFormed) (id : Nat) : d.Climbs id (d.ancestors id) := by
  induction id using h.induction_up with
  | top id hp =>
    rw [ancestors_of_parent?_eq_none hp]
    exact .top hp
  | below id p hp ih =>
    rw [h.ancestors_of_parent? hp]
    exact .up hp ih

/-- On the way up numbers get lower and lower. -/
theorem pairwise_ancestors (h : d.WellFormed) (id : Nat) :
    (id :: d.ancestors id).Pairwise (· > ·) := by
  induction id using h.induction_up with
  | top id hp =>
    rw [ancestors_of_parent?_eq_none hp]
    exact List.pairwise_singleton _ _
  | below id p hp ih =>
    refine List.pairwise_cons.2 ⟨fun i hi => h.lt_of_mem_ancestors hi, ?_⟩
    rw [h.ancestors_of_parent? hp]
    exact ih

/-- The way up from a node ends at the document itself. -/
theorem getLast?_ancestors (h : d.WellFormed) {id : Nat} (hid : id < d.nodeCount) :
    (id :: d.ancestors id).getLast? = some Document.root := by
  induction id using h.induction_up with
  | top id hp =>
    have hroot := h.root_mem_ancestors hid
    rw [ancestors_of_parent?_eq_none hp] at hroot ⊢
    rw [List.mem_singleton.1 hroot]
    rfl
  | below id p hp ih =>
    rw [h.ancestors_of_parent? hp, List.getLast?_cons_cons]
    exact ih (Nat.lt_trans (h.parent_lt hp).1 hid)

/-- **The ancestors of a node are its lineage.** -/
theorem lineage_ancestorsWhere (h : d.WellFormed) {id : Nat} (hid : d.contains id) :
    d.Lineage id (d.ancestorsWhere id fun _ => true) := by
  have hlt := node?_isSome_iff.1 hid
  rw [h.ancestorsWhere_true]
  refine ⟨h.climbs_ancestors id, h.pairwise_ancestors id, ?nearest, ?farthest, ?nothing⟩
  case nearest =>
    cases hp : d.parent? id with
    | none => rw [ancestors_of_parent?_eq_none hp, List.head?_nil]
    | some p => rw [h.ancestors_of_parent? hp, List.head?_cons]
  case farthest =>
    intro hne
    obtain ⟨p, hp, -, -⟩ := h.parent hne hlt
    rw [h.ancestors_of_parent? hp]
    exact h.getLast?_ancestors (Nat.lt_trans (h.parent_lt hp).1 hlt)
  case nothing =>
    rintro rfl
    exact ancestors_of_parent?_eq_none h.parent?_root

/-! ### Descendants -/

/-- **What is below a node has it as an ancestor**, and nothing else has. -/
theorem mem_descendants_iff (h : d.WellFormed) {i j : Nat} :
    j ∈ d.descendants i ↔ i ∈ d.ancestors j := by
  have hmem : j ∈ i :: d.descendants i ↔ i ∈ j :: d.ancestors j := by
    rw [← h.subtree_eq_cons_descendants]
    exact h.mem_subtree_iff
  rw [List.mem_cons, List.mem_cons] at hmem
  constructor
  · intro hj
    -- what is below a node has a higher number than the node
    have hne : i ≠ j := by
      rintro rfl
      have hnodup := h.nodup_subtree i
      rw [h.subtree_eq_cons_descendants, List.nodup_cons] at hnodup
      exact hnodup.1 hj
    exact (hmem.1 (.inr hj)).resolve_left hne
  · intro hi
    exact (hmem.2 (.inr hi)).resolve_left (Nat.ne_of_gt (h.lt_of_mem_ancestors hi))

/-- **Two subtrees have nothing in common, or one lies in the other.** -/
theorem disjoint_or_subset (h : d.WellFormed) (i j : Nat) :
    List.Disjoint (d.subtree i) (d.subtree j) ∨
      d.subtree i ⊆ d.subtree j ∨ d.subtree j ⊆ d.subtree i := by
  -- of two nodes on one way up, the lower one lies in the subtree of the other
  have hbelow : ∀ {a b k : Nat}, k ∈ d.subtree a → k ∈ d.subtree b → a < b →
      d.subtree b ⊆ d.subtree a := by
    intro a b k ha hb hlt _ hk
    have habove := h.mem_ancestors_of_lt (h.mem_subtree_iff.1 ha) (h.mem_subtree_iff.1 hb) hlt
    exact h.mem_subtree_trans (h.mem_subtree_iff.2 (List.mem_cons_of_mem _ habove)) hk
  by_cases hcommon : ∃ k, k ∈ d.subtree i ∧ k ∈ d.subtree j
  · obtain ⟨k, hi, hj⟩ := hcommon
    right
    rcases Nat.lt_trichotomy i j with hlt | rfl | hlt
    · exact .inr (hbelow hi hj hlt)
    · exact .inl fun _ hk => hk
    · exact .inl (hbelow hj hi hlt)
  · exact .inl fun k hi hj => hcommon ⟨k, hi, hj⟩

/-! ### Siblings -/

/-- Siblings are different nodes with the same parent. -/
theorem mem_siblings_iff (h : d.WellFormed) {i j : Nat} :
    j ∈ d.siblings i ↔ ∃ p, d.parent? i = some p ∧ d.parent? j = some p ∧ j ≠ i := by
  rw [siblings]
  cases hp : d.parent? i with
  | none => simp
  | some p => simp [List.mem_filter, h.mem_children_iff]

/-- The siblings of a node are the children of its parent, from which the node itself has been taken
    away. -/
theorem siblings_eq_erase (h : d.WellFormed) {id p : Nat} (hp : d.parent? id = some p) :
    d.siblings id = (d.children p).erase id := by
  rw [siblings, hp, (h.nodup_children p).erase_eq_filter]

end WellFormed

/-- **Ways up and ways down agree.**  What is below a node has it as an ancestor; the ancestors of a
    node are its lineage; two subtrees have nothing in common, or one lies in the other; and what
    stands beside a node, which are the other children of its parent, has that node beside it. -/
theorem Reachable.kinship {d : Document} (h : d.Reachable) {x y : Nat} (hx : d.contains x)
    (hy : d.contains y) :
    (y ∈ d.descendants x ↔ x ∈ d.ancestorsWhere y fun _ => true) ∧
      d.Lineage y (d.ancestorsWhere y fun _ => true) ∧
      (List.Disjoint (x :: d.descendants x) (y :: d.descendants y) ∨
        x :: d.descendants x ⊆ y :: d.descendants y ∨
        y :: d.descendants y ⊆ x :: d.descendants x) ∧
      (y ∈ d.siblings x ↔ x ∈ d.siblings y) ∧
      (x ≠ root → ∃ p, d.parent? x = some p ∧ (d.children p).count x = 1 ∧
        d.siblings x = (d.children p).erase x) := by
  have hwf := h.wellFormed
  refine ⟨?descendants, hwf.lineage_ancestorsWhere hy, ?subtrees, ?beside, ?siblings⟩
  case descendants =>
    rw [hwf.ancestorsWhere_true]
    exact hwf.mem_descendants_iff
  case subtrees =>
    rw [← hwf.subtree_eq_cons_descendants, ← hwf.subtree_eq_cons_descendants]
    exact hwf.disjoint_or_subset x y
  case beside =>
    rw [hwf.mem_siblings_iff, hwf.mem_siblings_iff]
    constructor
    · rintro ⟨p, hp, hp', hne⟩
      exact ⟨p, hp', hp, hne.symm⟩
    · rintro ⟨p, hp, hp', hne⟩
      exact ⟨p, hp', hp, hne.symm⟩
  case siblings =>
    intro hne
    obtain ⟨p, hp, -, hmem⟩ := hwf.parent hne (node?_isSome_iff.1 hx)
    exact ⟨p, hp, List.count_eq_one_of_mem (hwf.nodup_children p) hmem, hwf.siblings_eq_erase hp⟩

/-- An element with a text in it that was entered last, and the element beside it. -/
theorem kinship_nested :
    let d := ((((ofEncoding "utf-8").edit (.addChild 0 "r" [])).edit (.addChild 1 "a" [])).edit
      (.addChild 1 "b" [])).edit (.appendText 2 "t")
    d.Reachable ∧ d.contains 2 ∧ d.contains 3 ∧ d.contains 4 ∧ 4 ∈ d.descendants 2 ∧
      2 ∈ d.ancestorsWhere 4 (fun _ => true) ∧ d.Lineage 4 [2, 1, 0] ∧ 3 ∈ d.siblings 2 ∧
      2 ∈ d.siblings 3 ∧ d.siblings 2 = [2, 3].erase 2 := by
  intro d
  have hd : d.Reachable := ((((Reachable.ofEncoding "utf-8").edited (.addChild 0 "r" [])).edited
    (.addChild 1 "a" [])).edited (.addChild 1 "b" [])).edited (.appendText 2 "t")
  have h2 : d.contains 2 := by decide
  have h3 : d.contains 3 := by decide
  have h4 : d.contains 4 := by decide
  have hparent : d.parent? 4 = some 2 ∧ d.parent? 2 = some 1 ∧ d.parent? 1 = some 0 ∧
      d.parent? 0 = none := by decide
  have habove : (d.ancestorsWhere 4 fun _ => true) = [2, 1, 0] := by
    have hwf := hd.wellFormed
    rw [hwf.ancestorsWhere_true, hwf.ancestors_of_parent? hparent.1,
      hwf.ancestors_of_parent? hparent.2.1, hwf.ancestors_of_parent? hparent.2.2.1,
      WellFormed.ancestors_of_parent?_eq_none hparent.2.2.2]
  obtain ⟨hdescendants, hlineage, -⟩ := Reachable.kinship hd h2 h4
  obtain ⟨-, -, -, hbeside, hsiblings⟩ := Reachable.kinship hd h2 h3
  have hbelow : 4 ∈ d.descendants 2 := by decide
  have hsibling : 3 ∈ d.siblings 2 := by decide
  obtain ⟨p, hp, -, herase⟩ := hsiblings (by decide)
  rw [hparent.2.1, Option.some.injEq] at hp
  subst hp
  exact ⟨hd, h2, h3, h4, hbelow, hdescendants.1 hbelow, habove ▸ hlineage, hsibling,
    hbeside.1 hsibling, herase⟩

end XmlQuery.Document
