import Mathlib.Data.List.Flatten
import XmlQuery.Proofs.Query.Pointwise

namespace XmlQuery

/-!
# Results in document order

Up to its first step to descendants a program stands at nodes that lie apart: none is below another
one, and they follow each other as in the document.  So that step finds every node once and in
document order.  Steps to children behind it can mix up the order, but not repeat a node.

* `Document.Apart` — nodes that lie apart below a node.
* `Document.Apart.children`, `Document.Apart.descendants` — their children lie apart too, and their
  descendants are in document order.
* `Document.WellFormed.nodup_flatMap_children` — no two nodes have a child in common.
* `Query.run_apart`, `Query.run_nodup`, `Query.run_sublist` — what operations keep of this.
* `Query.evaluate_nodup_sublist` — a program with one step to descendants at most repeats no node.
-/

namespace Document

variable {d : Document}

/-! ### Nodes that lie apart -/

/-- Nodes below `top` that lie apart: their subtrees, one after the other, are part of the subtree
    of `top` in its order. -/
def Apart (d : Document) (top : Nat) (ids : List Nat) : Prop :=
  (ids.flatMap d.subtree).Sublist (d.subtree top)

namespace Apart

variable {top : Nat} {ids : List Nat}

/-- A node alone lies apart. -/
theorem singleton (d : Document) (top : Nat) : d.Apart top [top] := by
  rw [Apart, List.flatMap_singleton]

/-- Some of the nodes that lie apart do so too. -/
theorem mono (h : d.Apart top ids) {fewer : List Nat} (hfewer : fewer.Sublist ids) :
    d.Apart top fewer :=
  (hfewer.flatMap d.subtree).trans h

/-- Nodes that lie apart are in document order. -/
theorem sublist (h : d.Apart top ids) : ids.Sublist (d.subtree top) := by
  -- each node stands at the front of its subtree
  have htops : (ids.flatMap fun id => [id]).Sublist (ids.flatMap d.subtree) :=
    List.Sublist.flatMap_right ids fun id _ => List.singleton_sublist.2 (mem_subtree_self d id)
  rw [List.flatMap_singleton'] at htops
  exact htops.trans h

/-- The nodes below nodes that lie apart are in document order. -/
theorem descendants (h : d.Apart top ids) (hwf : d.WellFormed) :
    (ids.flatMap d.descendants).Sublist (d.subtree top) := by
  have hbelow : (ids.flatMap d.descendants).Sublist (ids.flatMap d.subtree) := by
    refine List.Sublist.flatMap_right ids fun id _ => ?_
    rw [hwf.descendants_eq, hwf.subtree_eq]
    exact List.sublist_cons_self id _
  exact hbelow.trans h

/-- **The children of nodes that lie apart lie apart**: their subtrees are what is below the
    nodes. -/
theorem children (h : d.Apart top ids) (hwf : d.WellFormed) :
    d.Apart top (ids.flatMap d.children) := by
  have hbelow : (ids.flatMap d.children).flatMap d.subtree = ids.flatMap d.descendants := by
    rw [List.flatMap_assoc]
    exact List.flatMap_congr fun id _ => (hwf.descendants_eq id).symm
  rw [Apart, hbelow]
  exact h.descendants hwf

end Apart

/-- **No two nodes have a child in common.** -/
theorem WellFormed.nodup_flatMap_children (h : d.WellFormed) {ids : List Nat}
    (hids : ids.Nodup) : (ids.flatMap d.children).Nodup := by
  rw [List.nodup_flatMap]
  refine ⟨fun id _ => h.nodup_children id, hids.imp fun {p q} hne => ?_⟩
  intro child hp hq
  have hparent := h.child hp
  rw [h.child hq, Option.some.injEq] at hparent
  exact hne hparent.symm

end Document

namespace Query

variable {d : Document} {ids found : List Nat}

/-! ### Operations -/

namespace Operation

variable {op : Operation}

/-- An operation that does not move on keeps some of the nodes. -/
theorem sublist_of_test (hchild : op.instruction ≠ .child)
    (hdescendant : op.instruction ≠ .descendant) (h : op.apply d ids = .ok found) :
    found.Sublist ids := by
  have hkept := sublist_of_apply h
  rw [flatMap_each_test hchild hdescendant] at hkept
  exact hkept.trans List.filter_sublist

/-- A step to children finds some of the children. -/
theorem sublist_flatMap_children (hchild : op.instruction = .child)
    (h : op.apply d ids = .ok found) : found.Sublist (ids.flatMap d.children) := by
  have hkept := sublist_of_apply h
  rw [funext (each_child hchild d)] at hkept
  exact hkept.trans (List.Sublist.flatMap_right ids fun _ _ => List.filter_sublist)

/-- Any operation but a step to descendants finds some of the nodes, or some of their children. -/
theorem sublist_of_not_descendant (hdescendant : op.instruction ≠ .descendant)
    (h : op.apply d ids = .ok found) :
    found.Sublist ids ∨ found.Sublist (ids.flatMap d.children) := by
  by_cases hchild : op.instruction = .child
  · exact .inr (sublist_flatMap_children hchild h)
  · exact .inl (sublist_of_test hchild hdescendant h)

end Operation

/-! ### Operations one after the other -/

/-- Operations other than steps to descendants lead from nodes that lie apart to such nodes. -/
theorem run_apart (hwf : d.WellFormed) {ops : List Operation}
    (h : ∀ op ∈ ops, op.instruction ≠ .descendant) {top : Nat} (hids : d.Apart top ids)
    (hrun : run d ops ids = .ok found) : d.Apart top found := by
  refine run_invariant (fun op hop ids next hids happly => ?_) hids hrun
  rcases op.sublist_of_not_descendant (h op hop) happly with hkept | hchildren
  · exact hids.mono hkept
  · exact (hids.children hwf).mono hchildren

/-- Operations other than steps to descendants do not repeat a node. -/
theorem run_nodup (hwf : d.WellFormed) {ops : List Operation}
    (h : ∀ op ∈ ops, op.instruction ≠ .descendant) (hids : ids.Nodup)
    (hrun : run d ops ids = .ok found) : found.Nodup := by
  refine run_invariant (fun op hop ids next hids happly => ?_) hids hrun
  rcases op.sublist_of_not_descendant (h op hop) happly with hkept | hchildren
  · exact hids.sublist hkept
  · exact (hwf.nodup_flatMap_children hids).sublist hchildren

/-- Operations that do not move on keep some of the nodes. -/
theorem run_sublist {ops : List Operation} (hchild : ∀ op ∈ ops, op.instruction ≠ .child)
    (hdescendant : ∀ op ∈ ops, op.instruction ≠ .descendant)
    (hrun : run d ops ids = .ok found) : found.Sublist ids := by
  refine run_invariant (motive := fun next => next.Sublist ids) ?_ (List.Sublist.refl ids) hrun
  intro op hop before next hbefore happly
  exact (op.sublist_of_test (hchild op hop) (hdescendant op hop) happly).trans hbefore

/-! ### Programs -/

/-- The instructions of a program in order. -/
def Program.instructions (p : Program) : List Instruction :=
  p.operations.map Operation.instruction

/-- None of some operations has an instruction that does not occur among theirs. -/
theorem ne_of_notMem_instructions {i : Instruction} {ops : List Operation}
    (h : i ∉ ops.map Operation.instruction) : ∀ op ∈ ops, op.instruction ≠ i := by
  rintro op hop rfl
  exact h (List.mem_map_of_mem hop)

/-- An instruction that occurs once in a program has operations without it on either side. -/
theorem exists_eq_append_of_count {i : Instruction} {ops : List Operation}
    (hcount : (ops.map Operation.instruction).count i ≤ 1)
    (hmem : i ∈ ops.map Operation.instruction) :
    ∃ before op after, ops = before ++ op :: after ∧ op.instruction = i ∧
      (∀ b ∈ before, b.instruction ≠ i) ∧ ∀ a ∈ after, a.instruction ≠ i := by
  obtain ⟨op, hop, hi⟩ := List.mem_map.1 hmem
  obtain ⟨before, after, rfl⟩ := List.append_of_mem hop
  rw [List.map_append, List.map_cons, List.count_append, List.count_cons, hi] at hcount
  simp only [beq_self_eq_true, if_true] at hcount
  refine ⟨before, op, after, rfl, hi, ?_, ?_⟩
  · exact ne_of_notMem_instructions (List.count_eq_zero.1 (by omega))
  · exact ne_of_notMem_instructions (List.count_eq_zero.1 (by omega))

/-- **A program with one step to descendants at most finds no node twice.**  If no step to children
    comes after that step, it finds nodes in document order. -/
theorem evaluate_nodup_sublist (hd : d.Reachable) {start : Nat} {program : Program}
    (hsingle : program.instructions.count .descendant ≤ 1)
    (h : evaluate d start program = .ok found) :
    found.Nodup ∧
      ((program.instructions.Pairwise fun before after => before = .descendant → after ≠ .child) →
        found.Sublist (start :: d.descendants start)) := by
  have hwf := hd.wellFormed
  rw [← hwf.subtree_eq_cons_descendants]
  have hnodup := hwf.nodup_subtree start
  obtain ⟨source, ops⟩ := program
  simp only [evaluate, Program.instructions] at h hsingle ⊢
  split at h
  · have hstart := Document.Apart.singleton d start
    by_cases hmem : .descendant ∈ ops.map Operation.instruction
    · obtain ⟨before, op, after, rfl, hop, hbefore, hafter⟩ :=
        exists_eq_append_of_count hsingle hmem
      obtain ⟨apart, hrun, h⟩ := run_append_eq_ok_iff.1 h
      obtain ⟨below, happly, h⟩ := run_cons_eq_ok_iff.1 h
      -- the step to descendants finds what is below nodes that lie apart
      have hbelow : below.Sublist (d.subtree start) := by
        have hkept := op.sublist_of_apply happly
        rw [funext (op.each_descendant hop d)] at hkept
        exact hkept.trans ((run_apart hwf hbefore hstart hrun).descendants hwf)
      refine ⟨run_nodup hwf hafter (hnodup.sublist hbelow) h, fun hnone => ?_⟩
      rw [List.map_append, List.pairwise_append, List.map_cons, List.pairwise_cons] at hnone
      have hchild : ∀ a ∈ after, a.instruction ≠ .child := fun a ha =>
        hnone.2.1.1 a.instruction (List.mem_map_of_mem ha) hop
      exact (run_sublist hchild hafter h).trans hbelow
    · -- without such a step the program stays at nodes that lie apart
      have hfound := (run_apart hwf (ne_of_notMem_instructions hmem) hstart h).sublist
      exact ⟨hnodup.sublist hfound, fun _ => hfound⟩
  · cases h

/-- A step to children, a step to descendants and a choice of positions, in a document whose numbers
    are not in document order. -/
theorem evaluate_nodup_sublist_descendants :
    let d := ((((Document.ofEncoding "utf-8").edit (.addChild 0 "r" [])).edit
      (.addChild 1 "a" [])).edit (.addChild 1 "b" [])).edit (.appendText 2 "t")
    let program : Program := ⟨"", [.ofText .null "", .ofText .child "/",
      .ofText .descendant "//", .ofExpression (.range 0 3)]⟩
    d.Reachable ∧ program.instructions.count .descendant ≤ 1 ∧
      (program.instructions.Pairwise fun before after => before = .descendant → after ≠ .child) ∧
      evaluate d 0 program = .ok [2, 4, 3] ∧ 0 :: d.descendants 0 = [0, 1, 2, 4, 3] ∧
      [2, 4, 3].Nodup ∧ [2, 4, 3].Sublist (0 :: d.descendants 0) := by
  intro d program
  have hd : d.Reachable := ((((Document.Reachable.ofEncoding "utf-8").edited
    (.addChild 0 "r" [])).edited (.addChild 1 "a" [])).edited (.addChild 1 "b" [])).edited
    (.appendText 2 "t")
  have hsingle : program.instructions.count .descendant ≤ 1 := by decide
  have hnone : program.instructions.Pairwise
      fun before after => before = .descendant → after ≠ .child := by decide
  have hfound : evaluate d 0 program = .ok [2, 4, 3] := by decide
  obtain ⟨hnodup, hsublist⟩ := evaluate_nodup_sublist hd hsingle hfound
  exact ⟨hd, hsingle, hnone, hfound, by decide, hnodup, hsublist hnone⟩

/-- A step to children behind a step to descendants mixes up the order. -/
example :
    let d := ((((Document.ofEncoding "utf-8").edit (.addChild 0 "r" [])).edit
      (.addChild 1 "a" [])).edit (.addChild 1 "b" [])).edit (.addChild 2 "c" [])
    evaluate d 0 ⟨"", [.ofText .descendant "//", .ofText .child "/"]⟩ = .ok [2, 3, 4] ∧
      d.descendants 0 = [1, 2, 4, 3] := by
  decide

end Query

end XmlQuery
