import Mathlib.Logic.Equiv.Set
import Mathlib.Tactic.IntervalCases
import XmlQuery.Proofs.Document.Correspondence
import XmlQuery.Proofs.Query.Pointwise

namespace XmlQuery.Query

/-!
# Queries do not depend on numbers

A program that begins at the top of a mirrored subtree finds the mirror images of what it finds in
the subtree itself, and asks in vain for the same positions.

* `mem_subtree_of_run` — a program does not leave the subtree that it begins in.
* `Expression.keeps_mirror`, `Operation.keeps_mirror`, `Operation.each_mirror` — what tests and
  operations make of the image of a node.
* `Operation.apply_mirror`, `run_mirror`, `evaluate_mirror` — positions included, they make of
  images the images.
* `evaluate_of_forest_eq` — a program finds the same in documents with the same trees.
* `evaluate_renumbering` — a program finds the same nodes whatever their numbers are.
-/

variable {d d' : Document} {f : Nat → Nat} {top : Nat}

/-! ### Subtrees -/

/-- An operation leads from a node of a subtree to nodes of it. -/
theorem Operation.mem_subtree_of_mem_each (hwf : d.WellFormed) {op : Operation} {id next : Nat}
    (hid : id ∈ d.subtree top) (hnext : next ∈ op.each d id) : next ∈ d.subtree top := by
  rcases op.mem_each_cases hnext with ⟨-, hchild, -⟩ | ⟨-, hdescendant⟩ | ⟨-, -, rfl, -⟩
  · exact hwf.mem_subtree_of_mem_children hid hchild
  · rw [hwf.descendants_eq] at hdescendant
    refine hwf.mem_subtree_trans hid ?_
    rw [hwf.subtree_eq]
    exact List.mem_cons_of_mem _ hdescendant
  · exact hid

/-- **Operations do not leave the subtree that they begin in.** -/
theorem mem_subtree_of_run (hwf : d.WellFormed) {ops : List Operation} {ids found : List Nat}
    (hids : ∀ id ∈ ids, id ∈ d.subtree top) (hrun : run d ops ids = .ok found) :
    ∀ id ∈ found, id ∈ d.subtree top :=
  forall_mem_of_run (fun _ _ hid _ => Operation.mem_subtree_of_mem_each hwf hid) hids hrun

/-! ### Tests -/

/-- A predicate has the same outcome for alike nodes. -/
theorem Predicate.accepts_alike {n n' : Node} (h : n.Alike n') (p : Predicate) :
    p.accepts n' = p.accepts n := by
  unfold accepts
  rw [h.attribute?, h.typedAttribute?]

/-- The image of a node passes the test of an expression exactly if the node does. -/
theorem Expression.keeps_mirror (h : d.MirroredBy d' f top) (hwf : d.WellFormed) (e : Expression)
    {id : Nat} (hid : id ∈ d.subtree top) : e.keeps d' (f id) = e.keeps d id := by
  cases e with
  | attributeCondition condition =>
    exact h.any_node? hid fun halike => Predicate.accepts_alike halike _
  | hasChild name =>
    simp only [keeps]
    rw [h.children id hid, List.any_map, Bool.eq_iff_iff, List.any_eq_true, List.any_eq_true]
    refine exists_congr fun child => and_congr_right fun hchild => ?_
    have hchild := hwf.mem_subtree_of_mem_children hid hchild
    rw [Function.comp_apply, h.isElement hchild, h.hasName hchild]
  | index i => rfl
  | range first last => rfl
  | unknown => rfl

namespace Operation

/-- **The image of a node passes the test of an operation exactly if the node does.** -/
theorem keeps_mirror (h : d.MirroredBy d' f top) (hwf : d.WellFormed) (op : Operation)
    {id : Nat} (hid : id ∈ d.subtree top) : op.keeps d' (f id) = op.keeps d id := by
  cases hinstruction : op.instruction with
  | attributeTest =>
    simp only [keeps, hinstruction]
    exact h.any_node? hid fun halike => Predicate.accepts_alike halike _
  | element =>
    simp only [keeps, hinstruction]
    refine h.any_node? hid fun halike => ?_
    rw [halike.name]
  | wildcard =>
    simp only [keeps, hinstruction]
    exact h.isElement hid
  | bracket =>
    simp only [keeps, hinstruction]
    cases op.expression? with
    | none => rfl
    | some e => exact Expression.keeps_mirror h hwf e hid
  | null | child | descendant => simp only [keeps, hinstruction]

/-! ### Operations -/

/-- An operation makes of the image of a node the images of what it makes of the node. -/
theorem each_mirror (h : d.MirroredBy d' f top) (hwf : d.WellFormed) (hwf' : d'.WellFormed)
    (op : Operation) {id : Nat} (hid : id ∈ d.subtree top) :
    op.each d' (f id) = (op.each d id).map f := by
  by_cases hchild : op.instruction = .child
  · rw [each_child hchild, each_child hchild, h.children id hid, List.filter_map]
    congr 1
    refine List.filter_congr fun child hmem => ?_
    exact h.isElement (hwf.mem_subtree_of_mem_children hid hmem)
  by_cases hdescendant : op.instruction = .descendant
  · rw [each_descendant hdescendant, each_descendant hdescendant]
    exact h.descendants_eq hwf hwf' hid
  · rw [each_test hchild hdescendant, each_test hchild hdescendant, ← List.map_singleton,
      List.filter_map]
    congr 1
    refine List.filter_congr fun i hi => ?_
    rw [List.mem_singleton] at hi
    exact hi ▸ keeps_mirror h hwf op hid

end Operation

/-- Positions select the same images, or do not exist for the images either. -/
theorem Expression.apply_map {e : Expression} (he : e.isPosition) (d d' : Document)
    (f : Nat → Nat) (ids : List Nat) :
    e.apply d' (ids.map f) = (e.apply d ids).map (List.map f) := by
  cases e with
  | index i =>
    simp only [apply, List.getElem?_map, List.length_map]
    cases ids[i]? with
    | none => rfl
    | some id => rfl
  | range first last =>
    simp only [apply, List.length_map, ← List.map_take, ← List.map_drop]
    split <;> rfl
  | _ => cases he

/-- **An operation makes of images the images**, and fails for them as it does for the nodes. -/
theorem Operation.apply_mirror (h : d.MirroredBy d' f top) (hwf : d.WellFormed)
    (hwf' : d'.WellFormed) (op : Operation) {ids : List Nat}
    (hids : ∀ id ∈ ids, id ∈ d.subtree top) :
    op.apply d' (ids.map f) = (op.apply d ids).map (List.map f) := by
  by_cases hfree : op.IndexFree
  · rw [apply_eq_flatMap hfree, apply_eq_flatMap hfree, List.flatMap_map]
    show Except.ok _ = Except.ok ((ids.flatMap (op.each d)).map f)
    rw [List.map_flatMap]
    refine congrArg Except.ok (List.flatMap_congr fun id hid => ?_)
    exact op.each_mirror h hwf hwf' (hids id hid)
  · -- only a bracket asks for positions
    simp only [IndexFree, Classical.not_imp, not_forall, Bool.not_eq_false] at hfree
    obtain ⟨hop, e, he, hposition⟩ := hfree
    rw [Option.mem_def] at he
    simp only [apply, hop, he]
    exact Expression.apply_map hposition d d' f ids

/-- **Operations make of images the images**, and fail for them as they do for the nodes. -/
theorem run_mirror (h : d.MirroredBy d' f top) (hwf : d.WellFormed) (hwf' : d'.WellFormed)
    (ops : List Operation) {ids : List Nat} (hids : ∀ id ∈ ids, id ∈ d.subtree top) :
    run d' ops (ids.map f) = (run d ops ids).map (List.map f) := by
  induction ops generalizing ids with
  | nil => rfl
  | cons op ops ih =>
    rw [run, run, op.apply_mirror h hwf hwf' hids]
    cases happly : op.apply d ids with
    | error e => rfl
    | ok next =>
      refine ih fun id hid => ?_
      obtain ⟨before, hbefore, hid⟩ :=
        List.mem_flatMap.1 ((Operation.sublist_of_apply happly).subset hid)
      exact op.mem_subtree_of_mem_each hwf (hids before hbefore) hid

/-- **A program finds the images in a mirror**, and fails there as it does in the document. -/
theorem evaluate_mirror (h : d.MirroredBy d' f top) (hwf : d.WellFormed) (hwf' : d'.WellFormed)
    (program : Program) :
    evaluate d' (f top) program = (evaluate d top program).map (List.map f) := by
  have htop : ∀ id ∈ [top], id ∈ d.subtree top := fun id hid =>
    List.mem_singleton.1 hid ▸ Document.mem_subtree_self d top
  rw [evaluate, evaluate, if_pos h.contains.1, if_pos h.contains.2, ← List.map_singleton]
  exact run_mirror h hwf hwf' program.operations htop

/-- **A program finds the same in documents with the same trees**, such as one that is written out
    and the one that it is read back as. -/
theorem evaluate_of_forest_eq (hd : d.Reachable) (hd' : d'.Reachable)
    (hforest : d'.forest = d.forest) :
    ∃ f, Document.Renumbering f d d' ∧ ∀ start program, d.contains start →
      evaluate d' (f start) program = (evaluate d start program).map (List.map f) := by
  obtain ⟨f, h⟩ := hd.exists_renumbering hd' hforest
  refine ⟨f, h, fun start program hstart => ?_⟩
  exact evaluate_mirror (h.mirroredBy hd hd' hstart) hd.wellFormed hd'.wellFormed program

/-- **A program finds the same nodes whatever their numbers are**: in documents that differ in
    their numbers only it finds the nodes that correspond to each other, or asks in vain for the
    same positions in a result of the same size. -/
theorem evaluate_renumbering (hd : d.Reachable) (hd' : d'.Reachable)
    (h : Document.Renumbering f d d') {start : Nat} (hstart : d.contains start)
    (program : Program) :
    evaluate d' (f start) program = (evaluate d start program).map (List.map f) :=
  evaluate_mirror (h.mirroredBy hd hd' hstart) hd.wellFormed hd'.wellFormed program

/-- A document that was not entered in its order, the same document entered in order, and a program
    that chooses positions. -/
theorem evaluate_renumbering_reordered :
    let r := ((Document.ofEncoding "utf-8").edit (.addChild 0 "r" [])).edit (.addChild 1 "a" [])
    let d := (r.edit (.addChild 1 "b" [("x", "1")])).edit (.appendText 2 "t")
    let d' := (r.edit (.appendText 2 "t")).edit (.addChild 1 "b" [("x", "1")])
    let f := Equiv.swap 3 4
    let program : Program := ⟨"", [.ofText .descendant "//", .ofExpression (.range 2 4)]⟩
    d.Reachable ∧ d'.Reachable ∧ Document.Renumbering f d d' ∧ d.contains 0 ∧
      evaluate d 0 program = .ok [4, 3] ∧ evaluate d' 0 program = .ok [3, 4] ∧
      evaluate d' (f 0) program = (evaluate d 0 program).map (List.map f) := by
  intro r d d' f program
  have hr : r.Reachable :=
    ((Document.Reachable.ofEncoding "utf-8").edited (.addChild 0 "r" [])).edited
      (.addChild 1 "a" [])
  have hd : d.Reachable := (hr.edited (.addChild 1 "b" [("x", "1")])).edited (.appendText 2 "t")
  have hd' : d'.Reachable := (hr.edited (.appendText 2 "t")).edited (.addChild 1 "b" [("x", "1")])
  have hsize : ∀ {id}, d.contains id ↔ id < 5 := Document.node?_isSome_iff
  have hsize' : ∀ {id}, d'.contains id ↔ id < 5 := Document.node?_isSome_iff
  have h : Document.Renumbering f d d' := by
    refine ⟨f.bijOn fun id => ?numbers, rfl, ?agrees, ?children⟩
    case numbers =>
      show d'.contains (f id) ↔ d.contains id
      rw [hsize, hsize', Equiv.swap_apply_def]
      split_ifs <;> omega
    case agrees =>
      intro id n hn
      have hid : id < 5 := hsize.1 (by simp [Document.contains, hn])
      interval_cases id <;> cases hn
      · exact ⟨_, rfl, .element rfl fun _ => rfl⟩
      · exact ⟨_, rfl, .element rfl fun _ => rfl⟩
      · exact ⟨_, rfl, .element rfl fun _ => rfl⟩
      · exact ⟨_, rfl, .element rfl fun _ => rfl⟩
      · exact ⟨_, rfl, .text "t"⟩
    case children =>
      intro id hid
      have hid : id < 5 := hsize.1 hid
      interval_cases id <;> rfl
  have hstart : d.contains 0 := by decide
  exact ⟨hd, hd', h, hstart, by decide, by decide, evaluate_renumbering hd hd' h hstart program⟩

end XmlQuery.Query
