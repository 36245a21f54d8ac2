import Mathlib.Data.List.DropRight
import XmlQuery.Proofs.Document.Correspondence
import XmlQuery.Proofs.Document.Kinship
import XmlQuery.Proofs.Query.Canonical
import XmlQuery.Proofs.Query.Names
import XmlQuery.Proofs.Query.Pointwise

namespace XmlQuery.Query

/-!
# What queries find

A step to descendants finds texts and CDATA sections too.  Nearly every other operation finds
elements only, so that a query finds elements unless nothing of the kind comes after its last step
to descendants.  The document itself is an element, and no query finds it that takes a step down or
asks for a name.

* `Operation.findsElements`, `Operation.leavesDocument` — the operations that find elements only,
  and those that do not find the document itself.
* `isElement_of_mem_each`, `ne_root_of_mem_each` — what these make of any node.
* `isName_of_compile` — queries ask for proper names.
* `evaluate_elements` — what a query finds, told from the operations that it has.
-/

/-- Whether an expression looks for what only elements have: children or attributes. -/
def Expression.looksAtElements : Expression → Bool
  | hasChild _ | attributeCondition _ => true
  | index _ | range _ _ | unknown => false

/-- Whether all that an operation finds are elements, if it asks for proper names. -/
def Operation.findsElements (op : Operation) : Bool :=
  match op.instruction with
  | .child | .element | .wildcard | .attributeTest => true
  | .bracket => op.expression?.any Expression.looksAtElements
  | .null | .descendant => false

/-- Whether an operation does not find the document itself, if it asks for proper names. -/
def Operation.leavesDocument (op : Operation) : Bool :=
  op.instruction = .child || op.instruction = .descendant || op.instruction = .element

/-- Whether an operation asks for a proper name if it asks for any. -/
def Operation.Named (op : Operation) : Prop :=
  op.instruction = .element → IsName op.parameter

/-- The operations of a program behind its last step to descendants, or all of them. -/
def Program.afterDescendants (p : Program) : List Operation :=
  p.operations.rtakeWhile fun op => op.instruction ≠ .descendant

variable {d : Document} {op : Operation} {id found : Nat}

/-! ### Elements -/

/-- A predicate holds of elements only, as nothing else has attributes. -/
theorem Predicate.isElement_of_accepts {p : Predicate} {n : Node} (h : p.accepts n) :
    n.isElement := by
  obtain ⟨owner, content⟩ := n
  obtain ⟨key, test⟩ := p
  cases content with
  | element e => rfl
  | text s => cases test <;> cases h
  | cdata bytes => cases test <;> cases h

/-- A test of attributes passes elements only. -/
theorem isElement_of_any_accepts {p : Predicate} (h : (d.node? id).any p.accepts) :
    d.isElement id := by
  rw [Option.any_eq_true] at h
  obtain ⟨n, hn, hp⟩ := h
  rw [Document.isElement, hn]
  exact p.isElement_of_accepts hp

/-- Only elements have children. -/
theorem isElement_of_mem_children (h : found ∈ d.children id) : d.isElement id := by
  rw [Document.children] at h
  split at h
  · rename_i n hn
    rw [Document.isElement, hn]
    obtain ⟨owner, content⟩ := n
    cases content with
    | element e => rfl
    | text s => cases h
    | cdata bytes => cases h
  · cases h

/-- An expression that looks for what elements have passes elements only. -/
theorem Expression.isElement_of_keeps {e : Expression} (he : e.looksAtElements)
    (h : e.keeps d id) : d.isElement id := by
  cases e with
  | attributeCondition condition => exact isElement_of_any_accepts h
  | hasChild name =>
    obtain ⟨child, hchild, -⟩ := List.any_eq_true.1 h
    exact isElement_of_mem_children hchild
  | index i | range first last | unknown => cases he

/-- A test that finds elements only passes nothing else. -/
theorem isElement_of_keeps (hname : op.Named) (hop : op.findsElements)
    (hchild : op.instruction ≠ .child) (h : op.keeps d id) : d.isElement id := by
  unfold Operation.findsElements at hop
  unfold Operation.keeps at h
  cases hinstruction : op.instruction with
  | child => exact absurd hinstruction hchild
  | null | descendant => simp [hinstruction] at hop
  | attributeTest =>
    rw [hinstruction] at h
    exact isElement_of_any_accepts h
  | element =>
    rw [hinstruction] at h
    exact isElement_of_hasNameIgnoringCase (hname hinstruction) h
  | wildcard =>
    rw [hinstruction] at h
    exact h
  | bracket =>
    rw [hinstruction] at h hop
    obtain ⟨e, he, hlooks⟩ := (Option.any_eq_true _ _).1 hop
    rw [he] at h
    exact e.isElement_of_keeps hlooks h

/-- **Operations that find elements find nothing else**, whatever they begin with. -/
theorem isElement_of_mem_each (hname : op.Named) (hop : op.findsElements)
    (h : found ∈ op.each d id) : d.isElement found := by
  rcases op.mem_each_cases h with ⟨-, -, helement⟩ | ⟨hdescendant, -⟩ | ⟨hchild, -, rfl, hkeeps⟩
  · exact helement
  · simp [Operation.findsElements, hdescendant] at hop
  · exact isElement_of_keeps hname hop hchild hkeeps

/-- All operations but a step to descendants go on from elements to elements. -/
theorem isElement_of_mem_each_of_isElement (hop : op.instruction ≠ .descendant)
    (hid : d.isElement id) (h : found ∈ op.each d id) : d.isElement found := by
  rcases op.mem_each_cases h with ⟨-, -, helement⟩ | ⟨hdescendant, -⟩ | ⟨-, -, rfl, -⟩
  · exact helement
  · exact absurd hdescendant hop
  · exact hid

/-! ### The document itself -/

/-- No name is that of a document. -/
theorem not_hasNameIgnoringCase_root (hd : d.Grown) {name : String} (hname : IsName name) :
    ¬ hasNameIgnoringCase d name Document.root := by
  obtain ⟨e, he, hroot, -⟩ := hd.node?_root
  have hsign : (Text.lower "#document").toList.head? = some '#' := by decide
  rw [hasNameIgnoringCase, he, Option.any_some, beq_iff_eq]
  show Text.lower e.name ≠ Text.lower name
  rw [hroot]
  exact fun heq => hname.head?_lower_ne (heq ▸ hsign)

/-- No step down leads to the document itself. -/
theorem ne_root_of_below (hwf : d.WellFormed) (h : found ∈ d.children id ∨ found ∈ d.descendants id) :
    found ≠ Document.root := by
  rintro rfl
  rcases h with hchild | hdescendant
  · exact Nat.not_lt_zero _ (hwf.lt_of_mem_children hchild).1
  · exact Nat.not_lt_zero _ (hwf.lt_of_mem_ancestors (hwf.mem_descendants_iff.1 hdescendant))

/-- **Operations that leave the document do not find it**, whatever they begin with. -/
theorem ne_root_of_mem_each (hd : d.Grown) (hname : op.Named) (hop : op.leavesDocument)
    (h : found ∈ op.each d id) : found ≠ Document.root := by
  rcases op.mem_each_cases h with ⟨-, hchild, -⟩ | ⟨-, hdescendant⟩ |
    ⟨hchild, hdescendant, rfl, hkeeps⟩
  · exact ne_root_of_below hd.wellFormed (.inl hchild)
  · exact ne_root_of_below hd.wellFormed (.inr hdescendant)
  · -- what neither goes to children nor to descendants asks for a name
    have helement : op.instruction = .element := by
      simpa [Operation.leavesDocument, hchild, hdescendant] using hop
    rintro rfl
    simp only [Operation.keeps, helement] at hkeeps
    exact not_hasNameIgnoringCase_root hd (hname helement) hkeeps

/-- No operation leads back to the document. -/
theorem ne_root_of_mem_each_of_ne (hwf : d.WellFormed) (hid : id ≠ Document.root)
    (h : found ∈ op.each d id) : found ≠ Document.root := by
  rcases op.mem_each_cases h with ⟨-, hchild, -⟩ | ⟨-, hdescendant⟩ | ⟨-, -, rfl, -⟩
  · exact ne_root_of_below hwf (.inl hchild)
  · exact ne_root_of_below hwf (.inr hdescendant)
  · exact hid

/-! ### Queries -/

/-- **Queries ask for proper names.** -/
theorem isName_of_compile {query : String} {program : Program}
    (h : compile query = .ok program) : ∀ op ∈ program.operations, op.Named := by
  obtain ⟨emitted, q, hreads, hbracket, rfl⟩ := compile_eq_ok_iff.1 h
  intro op hop helement
  cases (hreads.canonicalFrom trivial hbracket).proper op hop with
  | @element name hne hchars => exact ⟨hne, hchars⟩
  | null | child | descendant | wildcard | attributeTest _ | bracket _ => cases helement

/-- What comes behind the last step to descendants stands in front of no such step. -/
theorem Program.exists_eq_append_of_mem_afterDescendants {p : Program}
    (h : op ∈ p.afterDescendants) :
    ∃ front back, p.operations = front ++ op :: back ∧ ∀ o ∈ back, o.instruction ≠ .descendant := by
  obtain ⟨front, hfront⟩ : p.afterDescendants <:+ p.operations := List.rtakeWhile_suffix _ _
  obtain ⟨between, back, hback⟩ := List.append_of_mem h
  refine ⟨front ++ between, back, ?_, fun o ho => ?_⟩
  · rw [← hfront, hback, List.append_assoc]
  · have hmem : o ∈ p.afterDescendants := by
      rw [hback]
      exact List.mem_append_right _ (List.mem_cons_of_mem _ ho)
    simpa using List.mem_rtakeWhile_imp hmem

/-- **What queries find.**  A query with an operation behind its last step to descendants that finds
    elements only finds nothing else; and one with a step to children or to descendants, or with a
    name, does not find the document itself. -/
theorem evaluate_elements (hd : d.Reachable) {query : String} {program : Program}
    (hcompile : compile query = .ok program) {start : Nat} {ids : List Nat}
    (h : evaluate d start program = .ok ids) :
    ((∃ op ∈ program.afterDescendants, op.findsElements) → ∀ id ∈ ids, d.isElement id) ∧
      ((∃ op ∈ program.operations, op.leavesDocument) → Document.root ∉ ids) := by
  have hnamed := isName_of_compile hcompile
  have hrun : run d program.operations [start] = .ok ids := by
    rw [evaluate] at h
    split at h
    · exact h
    · cases h
  constructor
  · rintro ⟨op, hop, hfinds⟩
    obtain ⟨front, back, heq, hback⟩ := program.exists_eq_append_of_mem_afterDescendants hop
    have hname : op.Named := hnamed op (heq ▸ List.mem_append_right _ List.mem_cons_self)
    rw [heq] at hrun
    exact forall_mem_of_run_behind (fun _ _ hnext => isElement_of_mem_each hname hfinds hnext)
      (fun o ho _ hid _ hnext => isElement_of_mem_each_of_isElement (hback o ho) hid hnext) hrun
  · rintro ⟨op, hop, hleaves⟩
    obtain ⟨front, back, heq⟩ := List.append_of_mem hop
    rw [heq] at hrun
    have hne := forall_mem_of_run_behind
      (fun _ _ hnext => ne_root_of_mem_each hd.grown (hnamed op hop) hleaves hnext)
      (fun _ _ _ hid _ hnext => ne_root_of_mem_each_of_ne hd.wellFormed hid hnext) hrun
    exact fun hroot => hne Document.root hroot rfl

/-- A test of attributes behind a step to descendants leaves out the texts and CDATA sections among
    them. -/
theorem evaluate_elements_descendants :
    let d := ((((Document.ofEncoding "utf-8").edit (.addChild 0 "r" [("k", "1")])).edit
      (.appendText 1 "t")).edit (.addChild 1 "a" [("k", "2")])).edit (.appendCdata 3 [])
    let program : Program := ⟨"//R//@k", [.ofText .null "", .ofText .descendant "//",
      .ofText .element "R", .ofText .descendant "//", .ofText .attributeTest "k"]⟩
    d.Reachable ∧ compile "//R//@k" = .ok program ∧ evaluate d 0 program = .ok [3] ∧
      (∃ op ∈ program.afterDescendants, op.findsElements) ∧
      (∃ op ∈ program.operations, op.leavesDocument) ∧
      (∀ id ∈ [3], d.isElement id) ∧ Document.root ∉ [3] := by
  intro d program
  have hd : d.Reachable := ((((Document.Reachable.ofEncoding "utf-8").edited
    (.addChild 0 "r" [("k", "1")])).edited (.appendText 1 "t")).edited
    (.addChild 1 "a" [("k", "2")])).edited (.appendCdata 3 [])
  have hcompile : compile "//R//@k" = .ok program := by decide
  have hfound : evaluate d 0 program = .ok [3] := by decide
  have hfinds : ∃ op ∈ program.afterDescendants, op.findsElements :=
    ⟨.ofText .attributeTest "k", by decide, rfl⟩
  have hleaves : ∃ op ∈ program.operations, op.leavesDocument :=
    ⟨.ofText .descendant "//", by decide, rfl⟩
  obtain ⟨helements, hroot⟩ := evaluate_elements hd hcompile hfound
  exact ⟨hd, hcompile, hfound, hfinds, hleaves, helements hfinds, hroot hleaves⟩

end XmlQuery.Query
