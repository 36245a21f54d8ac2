import XmlQuery.Proofs.Document.Preorder
import XmlQuery.Query.Evaluation

namespace XmlQuery.Query

/-!
# Operations node by node

All operations but those that ask for positions look at one node at a time.  What they make of
several nodes is what they make of each, one after the other, and they never fail.

* `Expression.isPosition`, `Operation.IndexFree` — what asks for positions, and what does not.
* `Operation.each` — what an operation makes of one node.
* `Operation.apply_eq_flatMap` — an operation without positions looks at one node at a time.
* `Operation.sublist_of_apply` — positions select from what is there.
* `Operation.mem_each_cases` — an operation moves on, or tests the node that it is at.
* `reach`, `run_eq_flatMap`, `evaluate_eq_reach` — the same for operations one after the other.
* `run_invariant`, `forall_mem_of_run` — what each operation keeps is kept by all of them.
* `forall_mem_of_run_behind` — what one operation brings about, and those behind it keep.
* `contains_of_run` — operations lead from nodes of a document to nodes of it.
-/

/-! ### Operations without positions -/

/-- Whether an expression asks for positions in a result set. -/
def Expression.isPosition : Expression → Bool
  | index _ | range _ _ => true
  | hasChild _ | attributeCondition _ | unknown => false

/-- Whether an operation does not ask for positions: if it is a bracket, its expression does not. -/
def Operation.IndexFree (op : Operation) : Prop :=
  op.instruction = .bracket → ∀ e ∈ op.expression?, e.isPosition = false

instance (op : Operation) : Decidable op.IndexFree :=
  inferInstanceAs (Decidable (_ → ∀ e ∈ op.expression?, e.isPosition = false))

/-- The test of a node that an expression stands for.  What asks for positions, or is not known,
    does not look at nodes. -/
def Expression.keeps (e : Expression) (d : Document) (id : Nat) : Bool :=
  match e with
  | attributeCondition condition => (d.node? id).any (Predicate.parse condition).accepts
  | hasChild name => (d.children id).any fun child => d.isElement child && d.hasName name child
  | index _ | range _ _ | unknown => true

/-- The test of a node that an operation stands for.  An idle operation leaves out no node, and the
    two that move on do not test where they start. -/
def Operation.keeps (op : Operation) (d : Document) (id : Nat) : Bool :=
  match op.instruction with
  | .attributeTest => (d.node? id).any (Predicate.parse op.parameter).accepts
  | .bracket => op.expression?.all fun e => e.keeps d id
  | .element => hasNameIgnoringCase d op.parameter id
  | .wildcard => d.isElement id
  | .null | .child | .descendant => true

/-- What an operation makes of one node: it moves on to other nodes, or keeps the node or leaves it
    out. -/
def Operation.each (op : Operation) (d : Document) (id : Nat) : List Nat :=
  match op.instruction with
  | .child => (d.children id).filter d.isElement
  | .descendant => d.descendants id
  | _ => [id].filter (op.keeps d)

/-- An expression that does not ask for positions is a test. -/
theorem Expression.apply_eq_filter {e : Expression} (h : e.isPosition = false) (d : Document)
    (ids : List Nat) : e.apply d ids = .ok (ids.filter (e.keeps d)) := by
  cases e with
  | index i => cases h
  | range first last => cases h
  | hasChild name => rfl
  | attributeCondition condition => rfl
  | unknown =>
    have hall : ids.filter (unknown.keeps d) = ids := List.filter_true ids
    rw [hall]
    rfl

/-- What an expression makes of nodes are some of them, in their order. -/
theorem Expression.sublist_of_apply {e : Expression} {d : Document} {ids found : List Nat}
    (h : e.apply d ids = .ok found) : found.Sublist (ids.filter (e.keeps d)) := by
  cases hposition : e.isPosition with
  | false =>
    rw [Expression.apply_eq_filter hposition] at h
    cases h
    exact List.Sublist.refl _
  | true =>
    have hall : ids.filter (e.keeps d) = ids := by
      cases e with
      | index i => exact List.filter_true ids
      | range first last => exact List.filter_true ids
      | _ => cases hposition
    rw [hall]
    cases e with
    | index i =>
      rw [Expression.apply] at h
      split at h
      · rename_i id hid
        cases h
        exact List.singleton_sublist.2 (List.mem_of_getElem? hid)
      · cases h
    | range first last =>
      rw [Expression.apply] at h
      split at h
      · cases h
        exact (List.drop_sublist _ _).trans (List.take_sublist _ _)
      · cases h
    | _ => cases hposition

namespace Operation

variable {op : Operation}

/-- A step to children makes of a node its element children. -/
theorem each_child (hop : op.instruction = .child) (d : Document) (id : Nat) :
    op.each d id = (d.children id).filter d.isElement := by
  simp only [each, hop]

/-- A step to descendants makes of a node all nodes below it. -/
theorem each_descendant (hop : op.instruction = .descendant) (d : Document) (id : Nat) :
    op.each d id = d.descendants id := by
  simp only [each, hop]

/-- Any other operation is a test. -/
theorem each_test (hchild : op.instruction ≠ .child) (hdescendant : op.instruction ≠ .descendant)
    (d : Document) (id : Nat) : op.each d id = [id].filter (op.keeps d) := by
  unfold each
  split
  · rename_i hop
    exact absurd hop hchild
  · rename_i hop
    exact absurd hop hdescendant
  · rfl

/-- An operation that does not move on, and does not ask for positions, tests all nodes. -/
theorem apply_eq_filter (h : op.IndexFree) (hchild : op.instruction ≠ .child)
    (hdescendant : op.instruction ≠ .descendant) (d : Document) (ids : List Nat) :
    op.apply d ids = .ok (ids.filter (op.keeps d)) := by
  have hall : ids.filter (fun _ => true) = ids := List.filter_true ids
  unfold apply keeps
  cases hop : op.instruction with
  | child => exact absurd hop hchild
  | descendant => exact absurd hop hdescendant
  | null => exact congrArg _ hall.symm
  | bracket =>
    cases he : op.expression? with
    | some e => exact Expression.apply_eq_filter (h hop e he) d ids
    | none => exact congrArg _ hall.symm
  | attributeTest | element | wildcard => rfl

/-- A test of several nodes is one of each of them. -/
theorem flatMap_each_test (hchild : op.instruction ≠ .child)
    (hdescendant : op.instruction ≠ .descendant) (d : Document) (ids : List Nat) :
    ids.flatMap (op.each d) = ids.filter (op.keeps d) := by
  rw [funext (each_test hchild hdescendant d), ← List.filter_flatMap, List.flatMap_singleton']

/-- **An operation without positions looks at one node at a time**, and does not fail. -/
theorem apply_eq_flatMap (h : op.IndexFree) (d : Document) (ids : List Nat) :
    op.apply d ids = .ok (ids.flatMap (op.each d)) := by
  by_cases hchild : op.instruction = .child
  · rw [funext (each_child hchild d), apply, hchild]
  by_cases hdescendant : op.instruction = .descendant
  · rw [funext (each_descendant hdescendant d), apply, hdescendant]
  · rw [flatMap_each_test hchild hdescendant, apply_eq_filter h hchild hdescendant]

/-- What an operation makes of nodes is no more than what it makes of each of them: positions only
    select from the nodes. -/
theorem sublist_of_apply {d : Document} {ids found : List Nat} (h : op.apply d ids = .ok found) :
    found.Sublist (ids.flatMap (op.each d)) := by
  by_cases hfree : op.IndexFree
  · rw [apply_eq_flatMap hfree] at h
    cases h
    exact List.Sublist.refl _
  · -- only a bracket asks for positions
    simp only [IndexFree, Classical.not_imp, not_forall] at hfree
    obtain ⟨hop, e, he, -⟩ := hfree
    rw [Option.mem_def] at he
    have hkeeps : op.keeps d = e.keeps d := by
      funext id
      simp [keeps, hop, he]
    rw [flatMap_each_test (by simp [hop]) (by simp [hop]), hkeeps]
    simp only [apply, hop, he] at h
    exact Expression.sublist_of_apply h

/-- What an operation finds it makes of one of the nodes. -/
theorem exists_mem_each_of_apply {d : Document} {ids found : List Nat}
    (h : op.apply d ids = .ok found) {id : Nat} (hid : id ∈ found) :
    ∃ before ∈ ids, id ∈ op.each d before :=
  List.mem_flatMap.1 ((sublist_of_apply h).subset hid)

/-- An operation goes on to children that are elements, or to descendants, or stays at a node that
    passes its test. -/
theorem mem_each_cases {d : Document} {id found : Nat} (h : found ∈ op.each d id) :
    (op.instruction = .child ∧ found ∈ d.children id ∧ d.isElement found) ∨
      (op.instruction = .descendant ∧ found ∈ d.descendants id) ∨
      (op.instruction ≠ .child ∧ op.instruction ≠ .descendant ∧ found = id ∧ op.keeps d id) := by
  by_cases hchild : op.instruction = .child
  · rw [each_child hchild, List.mem_filter] at h
    exact .inl ⟨hchild, h⟩
  by_cases hdescendant : op.instruction = .descendant
  · rw [each_descendant hdescendant] at h
    exact .inr (.inl ⟨hdescendant, h⟩)
  · rw [each_test hchild hdescendant, List.mem_filter, List.mem_singleton] at h
    obtain ⟨rfl, hkeeps⟩ := h
    exact .inr (.inr ⟨hchild, hdescendant, rfl, hkeeps⟩)

end Operation

/-! ### Operations one after the other -/

/-- What operations make of one node, if none of them asks for positions. -/
def reach (d : Document) : List Operation → Nat → List Nat
  | [], id => [id]
  | op :: ops, id => (op.each d id).flatMap (reach d ops)

/-- **Operations without positions look at one node at a time**, and do not fail. -/
theorem run_eq_flatMap {ops : List Operation} (h : ∀ op ∈ ops, op.IndexFree) (d : Document)
    (ids : List Nat) : run d ops ids = .ok (ids.flatMap (reach d ops)) := by
  induction ops generalizing ids with
  | nil => exact congrArg _ (List.flatMap_singleton' ids).symm
  | cons op ops ih =>
    rw [List.forall_mem_cons] at h
    have hreach : ids.flatMap (reach d (op :: ops))
        = (ids.flatMap (op.each d)).flatMap (reach d ops) := by
      rw [List.flatMap_assoc]
      rfl
    rw [run, Operation.apply_eq_flatMap h.1, hreach]
    exact ih h.2 _

/-- Operations succeed behind each other exactly if the first ones do, and the others on what these
    find. -/
theorem run_append_eq_ok_iff {d : Document} {ops ops' : List Operation} {ids found : List Nat} :
    run d (ops ++ ops') ids = .ok found
      ↔ ∃ between, run d ops ids = .ok between ∧ run d ops' between = .ok found := by
  rw [run_append]
  cases run d ops ids with
  | error e => simp
  | ok between => simp

/-- An operation and others behind it succeed exactly if the operation does, and the others on what
    it finds. -/
theorem run_cons_eq_ok_iff {d : Document} {op : Operation} {ops : List Operation}
    {ids found : List Nat} :
    run d (op :: ops) ids = .ok found
      ↔ ∃ next, op.apply d ids = .ok next ∧ run d ops next = .ok found := by
  rw [run]
  cases op.apply d ids with
  | error e => simp
  | ok next => simp

/-- What each of some operations keeps true of the nodes is true of them after all operations. -/
theorem run_invariant {d : Document} {motive : List Nat → Prop} {ops : List Operation}
    (step : ∀ op ∈ ops, ∀ ids next, motive ids → op.apply d ids = .ok next → motive next)
    {ids found : List Nat} (hids : motive ids) (hrun : run d ops ids = .ok found) :
    motive found := by
  induction ops generalizing ids with
  | nil =>
    cases hrun
    exact hids
  | cons op ops ih =>
    rw [List.forall_mem_cons] at step
    obtain ⟨next, happly, hrun⟩ := run_cons_eq_ok_iff.1 hrun
    exact ih step.2 (step.1 ids next hids happly) hrun

/-- What passes from a node to all that an operation makes of it passes from the nodes that
    operations begin with to those that they find. -/
theorem forall_mem_of_run {d : Document} {motive : Nat → Prop}
    (step : ∀ (op : Operation) id, motive id → ∀ next ∈ op.each d id, motive next)
    {ops : List Operation} {ids found : List Nat} (hids : ∀ id ∈ ids, motive id)
    (hrun : run d ops ids = .ok found) : ∀ id ∈ found, motive id := by
  refine run_invariant (motive := fun ids => ∀ id ∈ ids, motive id) ?_ hids hrun
  intro op _ ids next hids happly id hid
  obtain ⟨before, hbefore, hid⟩ := op.exists_mem_each_of_apply happly hid
  exact step op before (hids before hbefore) id hid

/-- What holds of all that an operation makes of nodes, and passes through those behind it, holds of
    all that is found. -/
theorem forall_mem_of_run_behind {d : Document} {motive : Nat → Prop} {op : Operation}
    {front back : List Operation} (hop : ∀ id, ∀ next ∈ op.each d id, motive next)
    (hback : ∀ o ∈ back, ∀ id, motive id → ∀ next ∈ o.each d id, motive next) {ids found : List Nat}
    (hrun : run d (front ++ op :: back) ids = .ok found) : ∀ id ∈ found, motive id := by
  obtain ⟨between, -, hrun⟩ := run_append_eq_ok_iff.1 hrun
  obtain ⟨next, happly, hrun⟩ := run_cons_eq_ok_iff.1 hrun
  refine run_invariant (motive := fun ids => ∀ id ∈ ids, motive id) ?step ?_ hrun
  case step =>
    intro o ho ids next hids happly id hid
    obtain ⟨before, hbefore, hid⟩ := o.exists_mem_each_of_apply happly hid
    exact hback o ho before (hids before hbefore) id hid
  · intro id hid
    obtain ⟨before, -, hid⟩ := op.exists_mem_each_of_apply happly hid
    exact hop before id hid

/-- A program without positions finds what its operations make of the node that it starts with. -/
theorem evaluate_eq_reach {d : Document} {program : Program}
    (hfree : ∀ op ∈ program.operations, op.IndexFree) {start : Nat} (hstart : d.contains start) :
    evaluate d start program = .ok (reach d program.operations start) := by
  rw [evaluate, if_pos hstart, run_eq_flatMap hfree, List.flatMap_singleton]

/-! ### Nodes of the document -/

variable {d : Document}

/-- An operation leads from a node of a document to nodes of it. -/
theorem Operation.contains_of_mem_each (h : d.WellFormed) {op : Operation} {id found : Nat}
    (hid : d.contains id) (hfound : found ∈ op.each d id) : d.contains found := by
  rcases op.mem_each_cases hfound with ⟨-, hchild, -⟩ | ⟨-, hdescendant⟩ | ⟨-, -, rfl, -⟩
  · exact h.contains_of_mem_children hchild
  · rw [h.descendants_eq] at hdescendant
    have hsubtree : found ∈ d.subtree id := by
      rw [h.subtree_eq]
      exact List.mem_cons_of_mem _ hdescendant
    have hlt : id < d.nodeCount := Document.node?_isSome_iff.1 hid
    exact Document.node?_isSome_iff.2 (h.lt_nodeCount_of_mem_subtree hlt hsubtree)
  · exact hid

/-- Operations lead from nodes of a document to nodes of it. -/
theorem contains_of_run (h : d.WellFormed) {ops : List Operation} {ids found : List Nat}
    (hids : ∀ id ∈ ids, d.contains id) (hrun : run d ops ids = .ok found) :
    ∀ id ∈ found, d.contains id :=
  forall_mem_of_run (fun _ _ hid _ => Operation.contains_of_mem_each h hid) hids hrun

end XmlQuery.Query
