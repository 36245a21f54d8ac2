import XmlQuery.Document.Parse
import XmlQuery.Proofs.Document.Attributes
import XmlQuery.Proofs.Document.Composing

namespace XmlQuery

/-!
# How documents grow

Every document is begun with nothing in it, or read from somewhere, and then edited.  Whatever is
done to it, one step relabels it or adds one node to it, so that a property of all documents needs
two cases.

* `Edit`, `Document.edit` — the calls that change a document.
* `Document.Reachable` — the documents that edits lead to.
* `Content.Fresh` — the contents that are ever inserted.
* `Document.Step`, `Document.Grown` — the two kinds of steps, and the documents that they lead to.
* `Document.Reachable.grown` — edits, and the events of a builder, are made of such steps.
-/

/-- A call that changes a document. -/
inductive Edit where
  | addChild (parent : Nat) (name : String) (attributes : List (String × String))
  | addSibling (id : Nat) (name : String) (attributes : List (String × String))
  | appendText (parent : Nat) (text : String)
  | appendCdata (parent : Nat) (bytes : List UInt8)
  | setEncoding (encoding : String)

/-- The contents that are ever inserted: elements whose attributes have been set one after the
    other, character data, and CDATA sections. -/
inductive Content.Fresh : Content → Prop
  | element (name : String) (attributes : List (String × String)) :
      Fresh (.element (.ofAttributes name attributes))
  | text (s : String) : Fresh (.text s)
  | cdata (bytes : List UInt8) : Fresh (.cdata bytes)

/-- What is inserted has no children. -/
theorem Content.Fresh.children_eq_nil {content : Content} (h : content.Fresh) :
    content.children = [] := by
  cases h with
  | element name attributes => exact Element.children_ofAttributes name attributes
  | text s => rfl
  | cdata bytes => rfl

namespace Document

/-! ### Edits -/

/-- The document that an edit leaves behind. -/
def edit (d : Document) : Edit → Document
  | .addChild parent name attributes => d.after (addChild parent name attributes)
  | .addSibling id name attributes => d.after (addSibling id name attributes)
  | .appendText parent text => d.after (appendText parent text)
  | .appendCdata parent bytes => d.after (appendCdata parent bytes)
  | .setEncoding encoding => d.setEncoding encoding

/-- The documents that exist: those that hold nothing, those that were read from bytes or built
    from events, and what edits make of them. -/
inductive Reachable : Document → Prop
  | ofEncoding (encoding : String) : Reachable (.ofEncoding encoding)
  | parsed {options : Options} {bytes : List UInt8} {d : Document}
      (h : parse options bytes = .ok d) : Reachable d
  | built {options : Options} {events : List Markup.Event} {d : Document}
      (h : ((Builder.ofOptions options).run events).finish = .ok d) : Reachable d
  | edited {d : Document} (h : Reachable d) (e : Edit) : Reachable (d.edit e)

/-! ### Looking up nodes after an insertion -/

/-- The nodes of a document have the numbers below its node count. -/
theorem node?_isSome_iff {d : Document} {id : Nat} : (d.node? id).isSome ↔ id < d.nodeCount := by
  simp [node?, nodeCount]

/-- An element has a number below the node count. -/
theorem lt_nodeCount_of_isElement {d : Document} {id : Nat} (h : d.isElement id) :
    id < d.nodeCount := by
  rw [← node?_isSome_iff]
  cases hn : d.node? id with
  | none => simp [isElement, hn] at h
  | some n => rfl

/-- An element is a node that holds one. -/
theorem isElement_iff {d : Document} {id : Nat} :
    d.isElement id ↔ ∃ parent e, d.node? id = some ⟨parent, .element e⟩ := by
  cases hn : d.node? id with
  | none => simp [isElement, hn]
  | some n =>
    obtain ⟨parent, content⟩ := n
    cases content <;> simp [isElement, hn, Node.isElement, Content.isElement, Content.element?]

/-- What has children is an element. -/
theorem isElement_of_mem_children {d : Document} {p id : Nat} (h : id ∈ d.children p) :
    d.isElement p := by
  cases hn : d.node? p with
  | none => simp [children, hn] at h
  | some n =>
    obtain ⟨parent, content⟩ := n
    cases content with
    | element e => exact isElement_iff.2 ⟨parent, e, hn⟩
    | text s => simp [children, hn, Node.children, Content.children] at h
    | cdata bytes => simp [children, hn, Node.children, Content.children] at h

/-- A number without a node has no children. -/
theorem children_of_nodeCount_le {d : Document} {id : Nat} (h : d.nodeCount ≤ id) :
    d.children id = [] := by
  have hn : d.node? id = none := by
    rw [← Option.not_isSome_iff_eq_none, node?_isSome_iff]
    omega
  simp [children, hn]

variable {d : Document} {parent : Nat} {content : Content}

/-- The new node of an insertion is an element if its content is one; other nodes stay what they
    are. -/
theorem isElement_insertNode (id : Nat) :
    (d.insertNode parent content).isElement id
      = if id = d.nodeCount then content.isElement else d.isElement id := by
  simp only [isElement, node?_insertNode]
  by_cases hnew : id = d.nodeCount
  · simp [hnew, Node.isElement]
  · rw [if_neg hnew, if_neg hnew]
    by_cases hid : id = parent
    · rw [if_pos hid]
      cases d.node? id with
      | none => rfl
      | some n =>
        obtain ⟨_, content'⟩ := n
        cases content' <;> rfl
    · rw [if_neg hid]

/-- The new node of an insertion has the parent it was given; other nodes keep theirs. -/
theorem parent?_insertNode (id : Nat) :
    (d.insertNode parent content).parent? id
      = if id = d.nodeCount then some parent else d.parent? id := by
  simp only [parent?, node?_insertNode]
  by_cases hnew : id = d.nodeCount
  · simp [hnew]
  · rw [if_neg hnew, if_neg hnew]
    by_cases hid : id = parent
    · rw [if_pos hid]
      cases d.node? id <;> rfl
    · rw [if_neg hid]

/-- An insertion puts the new node behind the children of its parent, and leaves all other child
    lists alone. -/
theorem children_insertNode (hparent : d.isElement parent) (hleaf : content.children = [])
    (id : Nat) :
    (d.insertNode parent content).children id
      = if id = parent then d.children parent ++ [d.nodeCount] else d.children id := by
  have hlt := lt_nodeCount_of_isElement hparent
  simp only [children, node?_insertNode]
  by_cases hnew : id = d.nodeCount
  · have hnone : d.node? id = none := by
      rw [← Option.not_isSome_iff_eq_none, node?_isSome_iff]
      omega
    rw [if_pos hnew, if_neg (by omega), hnone]
    exact hleaf
  · rw [if_neg hnew]
    by_cases hid : id = parent
    · subst hid
      obtain ⟨p, e, hn⟩ := isElement_iff.1 hparent
      rw [if_pos rfl, if_pos rfl, hn]
      rfl
    · rw [if_neg hid, if_neg hid]

/-- A label changes none of the nodes. -/
@[simp]
theorem nodeCount_setEncoding (encoding : String) :
    (d.setEncoding encoding).nodeCount = d.nodeCount := rfl

@[simp]
theorem parent?_setEncoding (encoding : String) (id : Nat) :
    (d.setEncoding encoding).parent? id = d.parent? id := rfl

@[simp]
theorem isElement_setEncoding (encoding : String) (id : Nat) :
    (d.setEncoding encoding).isElement id = d.isElement id := rfl

/-! ### Steps -/

/-- One step of growth: a new label, or a new node below an element, if the document has room for
    it and no element stands in its way. -/
inductive Step (d : Document) : Document → Prop
  | label (encoding : String) : Step d (d.setEncoding encoding)
  | insert {parent : Nat} {content : Content} (hparent : d.isElement parent)
      (hrival : d.rival? parent content = none) (hroom : d.nodeCount < maxNodes)
      (hfresh : content.Fresh) : Step d (d.insertNode parent content)

/-- The documents that are grown step by step from nothing. -/
inductive Grown : Document → Prop
  | ofEncoding (encoding : String) : Grown (.ofEncoding encoding)
  | step {d next : Document} (h : Grown d) (hstep : Step d next) : Grown next

/-- A content that is added makes one step. -/
theorem step_of_append {id : Nat} {next : Document} (hfresh : content.Fresh)
    (h : (append parent content).run d = .ok id next) : Step d next := by
  obtain ⟨hparent, hrival, hroom, -, rfl⟩ := append_eq_ok_iff.1 h
  exact .insert hparent hrival hroom hfresh

/-- A content that is added makes one step; one that is refused makes none. -/
theorem after_append_cases (d : Document) (parent : Nat) (hfresh : content.Fresh) :
    d.after (append parent content) = d ∨ Step d (d.after (append parent content)) := by
  rcases (atomic_append parent content).after_cases d with hsame | ⟨id, hadded⟩
  · exact .inl hsame
  · exact .inr (step_of_append hfresh hadded)

/-- **An edit makes one step**, or it is refused and makes none. -/
theorem edit_cases (d : Document) (e : Edit) : d.edit e = d ∨ Step d (d.edit e) := by
  cases e with
  | addChild parent name attributes =>
    exact after_append_cases d parent (.element name attributes)
  | appendText parent text => exact after_append_cases d parent (.text text)
  | appendCdata parent bytes => exact after_append_cases d parent (.cdata bytes)
  | setEncoding encoding => exact .inr (.label encoding)
  | addSibling id name attributes =>
    rcases (atomic_addSibling id name attributes).after_cases d with hsame | ⟨new, hadded⟩
    · exact .inl hsame
    · -- a sibling is a child of the same parent
      obtain ⟨parent, -, hchild⟩ := exists_parent_of_addSibling name attributes hadded
      exact .inr (step_of_append (.element name attributes) hchild)

/-- What makes one step at most keeps a document grown. -/
theorem Grown.of_cases (h : d.Grown) {next : Document} (hnext : next = d ∨ Step d next) :
    next.Grown := by
  rcases hnext with rfl | hstep
  · exact h
  · exact h.step hstep

end Document

/-! ### Builders -/

namespace Builder

/-- A builder goes on with the document that its call leaves behind, or makes no call once it has
    met an error. -/
theorem document_insert_after (b : Builder) (content : Content) :
    (b.insert content).document = b.document ∨
      (b.insert content).document = b.document.after (Document.append b.cursor content) := by
  unfold insert Document.after
  split
  · exact .inl rfl
  · split
    all_goals
      rename_i happ
      rw [happ]
      exact .inr rfl

/-- The document of a builder is grown whatever it is asked to insert. -/
theorem grown_insert {b : Builder} {content : Content} (h : b.document.Grown)
    (hfresh : content.Fresh) : (b.insert content).document.Grown := by
  rcases b.document_insert_after content with hsame | hafter
  · rw [hsame]
    exact h
  · rw [hafter]
    exact h.of_cases (Document.after_append_cases b.document b.cursor hfresh)

/-- The document of a builder is still grown after an event. -/
theorem grown_step {b : Builder} (h : b.document.Grown) (e : Markup.Event) :
    (b.step e).document.Grown := by
  cases e with
  | startElement name attributes =>
    unfold step
    dsimp only
    split
    · exact h
    · exact grown_insert h (.element name attributes)
  | characters text =>
    unfold step
    dsimp only
    split
    · exact h
    · exact grown_insert h (.text text)
  | cdata bytes => exact grown_insert h (.cdata bytes)
  | endElement name =>
    -- the end of an element moves the cursor or is an error; the document stays as it is
    unfold step close
    dsimp only
    split
    · exact h
    · split
      · exact h
      · split <;> exact h
  | declaration encoding =>
    cases encoding with
    | none => exact h
    | some encoding => exact h.step (.label encoding)
  | endDocument => exact h

/-- The document of a builder is grown after any events. -/
theorem grown_run {b : Builder} (h : b.document.Grown) (events : List Markup.Event) :
    (b.run events).document.Grown := by
  induction events generalizing b with
  | nil => exact h
  | cons e events ih => exact ih (grown_step h e)

/-- A builder that finishes hands out its document. -/
theorem document_of_finish {b : Builder} {d : Document} (h : b.finish = .ok d) :
    b.document = d := by
  unfold finish at h
  split at h
  · cases h
  · split at h
    · exact Except.ok.inj h
    · cases h

end Builder

namespace Document

/-- What is read from bytes was built from events. -/
theorem exists_finish_of_parse {options : Options} {bytes : List UInt8} {d : Document}
    (h : parse options bytes = .ok d) :
    ∃ events, ((Builder.ofOptions options).run events).finish = .ok d := by
  simp only [parse] at h
  split at h
  · cases h
  · exact ⟨_, h⟩

/-- **Every document is grown step by step.** -/
theorem Reachable.grown {d : Document} (h : d.Reachable) : d.Grown := by
  induction h with
  | ofEncoding encoding => exact .ofEncoding encoding
  | @parsed options bytes d h =>
    obtain ⟨events, h⟩ := exists_finish_of_parse h
    exact Builder.document_of_finish h ▸ Builder.grown_run (.ofEncoding _) events
  | @built options events d h =>
    exact Builder.document_of_finish h ▸ Builder.grown_run (.ofEncoding _) events
  | edited _ e ih => exact ih.of_cases (edit_cases _ e)

end Document

end XmlQuery
