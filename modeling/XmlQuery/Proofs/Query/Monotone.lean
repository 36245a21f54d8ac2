import XmlQuery.Proofs.Document.Extension
import XmlQuery.Proofs.Query.Pointwise

namespace XmlQuery.Query

/-!
# Queries of growing documents

A query that does not ask for positions loses nothing when a document grows.  What it found before
is found again, as often and in the same order, with new nodes in between.

* `Operation.keeps_of_extends` — a node that passes a test passes it in every extension.
* `Operation.each_sublist`, `reach_sublist` — what operations make of a node is among what they make
  of it in an extension.
* `evaluate_edits` — hence a program finds at least as much after edits as before.
-/

variable {d d' : Document}

/-! ### Tests -/

/-- A node with a name of its own, whatever the case, keeps it in an extension. -/
theorem hasNameIgnoringCase_extends (h : d.Extends d') {id : Nat} (hid : d.contains id)
    (name : String) : hasNameIgnoringCase d' name id = hasNameIgnoringCase d name id := by
  refine h.any_node? hid fun n more => ?_
  obtain ⟨parent, content⟩ := n
  cases content <;> rfl

/-- A predicate has the same outcome in an extension. -/
theorem any_accepts_extends (h : d.Extends d') {id : Nat} (hid : d.contains id) (p : Predicate) :
    (d'.node? id).any p.accepts = (d.node? id).any p.accepts := by
  refine h.any_node? hid fun n more => ?_
  obtain ⟨parent, content⟩ := n
  cases content <;> rfl

/-- A child with a name still has it in an extension. -/
theorem hasName_extends (h : d.Extends d') {id : Nat} (hid : d.contains id) (name : String) :
    d'.hasName name id = d.hasName name id := by
  obtain ⟨⟨parent, content⟩, hn⟩ := Option.isSome_iff_exists.1 hid
  obtain ⟨more, hn'⟩ := h id _ hn
  simp only [Document.hasName, Document.name?, hn, hn', Option.map_some]
  cases content <;> rfl

/-- A node that passes the test of an expression passes it in every extension: it has at least the
    children that it had. -/
theorem Expression.keeps_of_extends (h : d.Extends d') (hwf : d.WellFormed) {id : Nat}
    (hid : d.contains id) {e : Expression} (he : e.keeps d id) : e.keeps d' id := by
  cases e with
  | attributeCondition condition =>
    show (d'.node? id).any _
    rw [any_accepts_extends h hid]
    exact he
  | hasChild name =>
    simp only [keeps, List.any_eq_true, Bool.and_eq_true] at he ⊢
    obtain ⟨child, hchild, helement, hname⟩ := he
    have hcontains := hwf.contains_of_mem_children hchild
    refine ⟨child, (h.children_sublist id).subset hchild, ?_, ?_⟩
    · rw [h.isElement hcontains]
      exact helement
    · rw [hasName_extends h hcontains]
      exact hname
  | index i => rfl
  | range first last => rfl
  | unknown => rfl

namespace Operation

/-- **A node that passes the test of an operation passes it in every extension.** -/
theorem keeps_of_extends (h : d.Extends d') (hwf : d.WellFormed) {id : Nat}
    (hid : d.contains id) {op : Operation} (hop : op.keeps d id) : op.keeps d' id := by
  cases hinstruction : op.instruction with
  | attributeTest =>
    simp only [keeps, hinstruction] at hop ⊢
    rw [any_accepts_extends h hid]
    exact hop
  | element =>
    simp only [keeps, hinstruction] at hop ⊢
    rw [hasNameIgnoringCase_extends h hid]
    exact hop
  | wildcard =>
    simp only [keeps, hinstruction] at hop ⊢
    rw [h.isElement hid]
    exact hop
  | bracket =>
    simp only [keeps, hinstruction] at hop ⊢
    cases hexpression : op.expression? with
    | none => rfl
    | some e =>
      rw [hexpression] at hop
      exact Expression.keeps_of_extends h hwf hid hop
  | null | child | descendant => simp only [keeps, hinstruction]

/-- What an operation makes of a node is among what it makes of it in an extension, in the same
    order. -/
theorem each_sublist (h : d.Extends d') (hwf : d.WellFormed) (hwf' : d'.WellFormed) {id : Nat}
    (hid : d.contains id) (op : Operation) : (op.each d id).Sublist (op.each d' id) := by
  by_cases hchild : op.instruction = .child
  · rw [each_child hchild, each_child hchild]
    have hsame : (d.children id).filter d.isElement = (d.children id).filter d'.isElement := by
      refine List.filter_congr fun child hmem => ?_
      exact (h.isElement (hwf.contains_of_mem_children hmem)).symm
    rw [hsame]
    exact (h.children_sublist id).filter d'.isElement
  by_cases hdescendant : op.instruction = .descendant
  · rw [each_descendant hdescendant, each_descendant hdescendant]
    exact h.descendants_sublist hwf hwf' id
  · rw [each_test hchild hdescendant, each_test hchild hdescendant]
    cases hkeeps : op.keeps d id with
    | false => simp [hkeeps]
    | true =>
      have hkeeps' : op.keeps d' id := keeps_of_extends h hwf hid hkeeps
      simp [hkeeps, hkeeps']

end Operation

/-! ### Programs -/

/-- What operations make of a node is among what they make of it in an extension, in the same
    order. -/
theorem reach_sublist (h : d.Extends d') (hwf : d.WellFormed) (hwf' : d'.WellFormed)
    (ops : List Operation) {id : Nat} (hid : d.contains id) :
    (reach d ops id).Sublist (reach d' ops id) := by
  induction ops generalizing id with
  | nil => exact List.Sublist.refl [id]
  | cons op ops ih =>
    refine Document.flatMap_sublist (op.each_sublist h hwf hwf' hid) fun next hnext => ?_
    exact ih (Operation.contains_of_mem_each hwf hid hnext)

/-- **A program without positions finds at least as much after edits as before**: what it found is
    found again, as often and in the same order. -/
theorem evaluate_edits (hd : d.Reachable) (edits : List Edit) {start : Nat}
    (hstart : d.contains start) {program : Program}
    (hfree : ∀ op ∈ program.operations, op.IndexFree) :
    ∃ before after, evaluate d start program = .ok before ∧
      evaluate (edits.foldl Document.edit d) start program = .ok after ∧ before.Sublist after := by
  have hextends := d.extends_edits edits
  have hreach := reach_sublist hextends hd.wellFormed (hd.edits edits).wellFormed
    program.operations hstart
  exact ⟨_, _, evaluate_eq_reach hfree hstart, evaluate_eq_reach hfree (hextends.contains hstart),
    hreach⟩

/-- A search for a name, before and after elements and a text have been added in the middle of the
    document; the second element at top level is refused. -/
theorem evaluate_edits_inside :
    let d := (((Document.ofEncoding "utf-8").edit (.addChild 0 "r" [])).edit
      (.addChild 1 "a" [])).edit (.addChild 1 "b" [("x", "1")])
    let edits : List Edit := [.addChild 2 "b" [], .addChild 0 "s" [], .appendText 2 "t"]
    let program : Program := ⟨"", [.ofText .descendant "//", .ofText .element "B"]⟩
    d.Reachable ∧ d.contains 0 ∧ (∀ op ∈ program.operations, op.IndexFree) ∧
      evaluate d 0 program = .ok [3] ∧
      evaluate (edits.foldl Document.edit d) 0 program = .ok [4, 3] ∧
      ∃ before after, evaluate d 0 program = .ok before ∧
        evaluate (edits.foldl Document.edit d) 0 program = .ok after ∧ before.Sublist after := by
  intro d edits program
  have hd : d.Reachable := (((Document.Reachable.ofEncoding "utf-8").edited
    (.addChild 0 "r" [])).edited (.addChild 1 "a" [])).edited (.addChild 1 "b" [("x", "1")])
  have hstart : d.contains 0 := by decide
  have hfree : ∀ op ∈ program.operations, op.IndexFree := by decide
  exact ⟨hd, hstart, hfree, by decide, by decide, evaluate_edits hd edits hstart hfree⟩

end XmlQuery.Query
