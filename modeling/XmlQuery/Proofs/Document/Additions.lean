import XmlQuery.Proofs.Document.WellFormed

namespace XmlQuery

/-!
# Adding a node

A call that adds a node either does so and touches nothing else, or is refused and touches nothing
at all.  Which of the two it is, and why, depends on the place alone and on whether an element is
added.

* `Addition` — the calls that add a node.
* `Addition.Refused` — the reasons to refuse a call, in the order in which they count.
* `Document.AddedTo` — the document after a call, node by node.
* `Addition.atomic_call` — a call that is refused leaves the document as it was.
* `Addition.call_eq_error_iff` — a call is refused exactly for such a reason.
* `Document.Reachable.add_cases` — a call that is refused changes nothing, and otherwise it adds its
  node and changes nothing else.
-/

/-- A call that adds a node to a document, below a node or beside it. -/
inductive Addition where
  | child (parent : Nat) (name : String) (attributes : List (String × String))
  | sibling (id : Nat) (name : String) (attributes : List (String × String))
  | text (parent : Nat) (text : String)
  | cdata (parent : Nat) (bytes : List UInt8)

namespace Addition

/-- The node that a call is given. -/
def place : Addition → Nat
  | child parent _ _ | text parent _ | cdata parent _ => parent
  | sibling id _ _ => id

/-- What a call adds. -/
def content : Addition → Content
  | child _ name attributes | sibling _ name attributes =>
    .element (.ofAttributes name attributes)
  | text _ s => .text s
  | cdata _ bytes => .cdata bytes

/-- The node below which a call adds its own: the one it is given, or the parent of that one. -/
def parent? (d : Document) : Addition → Option Nat
  | child parent _ _ | text parent _ | cdata parent _ => some parent
  | sibling id _ _ => d.parent? id

/-- What a call does, which ends with the number of its node or is refused. -/
def call : Addition → Document.Composing Nat
  | child parent name attributes => Document.addChild parent name attributes
  | sibling id name attributes => Document.addSibling id name attributes
  | text parent s => Document.appendText parent s
  | cdata parent bytes => Document.appendCdata parent bytes

/-- Why a call is refused.  No reason counts where one before it does: the node is unknown; it is
    the document itself, which has nothing beside it; the parent is no element; or an element would
    come beside another one at top level, which the error names. -/
inductive Refused (d : Document) : Addition → TreeError → Prop
  | unknownNode {c : Addition} (hunknown : ¬ d.contains c.place) :
      Refused d c (.unknownNode c.place)
  | noParent {name : String} {attributes : List (String × String)} :
      Refused d (.sibling Document.root name attributes) (.noParent Document.root)
  | notAnElement {c : Addition} {parent : Nat} (hknown : d.contains c.place)
      (hparent : c.parent? d = some parent) (helement : ¬ d.isElement parent) :
      Refused d c (.notAnElement parent)
  | multipleRootElements {c : Addition} {existing : Nat} (hknown : d.contains c.place)
      (hparent : c.parent? d = some Document.root) (hcontent : c.content.isElement)
      (hchild : existing ∈ d.children Document.root) (helement : d.isElement existing) :
      Refused d c (.multipleRootElements existing)

end Addition

namespace Document

/-- The document `next` is `d` with a content added below `parent` under the number `id`, and
    nothing else is changed: the number is the next one, it goes behind the children of `parent`,
    the new node has that parent and no children, and every other node, and the label, is as it
    was. -/
structure AddedTo (d next : Document) (parent id : Nat) (content : Content) : Prop where
  id_eq : id = d.nodeCount
  nodeCount : next.nodeCount = d.nodeCount + 1
  encoding : next.encoding = d.encoding
  new : next.node? id = some ⟨some parent, content⟩
  leaf : content.children = []
  target : ∃ above e, d.node? parent = some ⟨above, .element e⟩ ∧
    next.node? parent = some ⟨above, .element { e with children := e.children ++ [id] }⟩
  other : ∀ i, i ≠ id → i ≠ parent → next.node? i = d.node? i

variable {d : Document} {parent : Nat} {content : Content}

/-- What is inserted below an element is added, and nothing else is changed. -/
theorem addedTo_insertNode (hparent : d.isElement parent) (hleaf : content.children = []) :
    AddedTo d (d.insertNode parent content) parent d.nodeCount content := by
  have hne : parent ≠ d.nodeCount := Nat.ne_of_lt (lt_nodeCount_of_isElement hparent)
  refine ⟨rfl, nodeCount_insertNode d parent content, rfl, ?_, hleaf, ?_, fun i hnew hi => ?_⟩
  · rw [node?_insertNode, if_pos rfl]
  · obtain ⟨above, e, he⟩ := isElement_iff.1 hparent
    refine ⟨above, e, he, ?_⟩
    rw [node?_insertNode, if_neg hne, if_pos rfl, he]
    rfl
  · rw [node?_insertNode, if_neg hnew, if_neg hi]

/-! ### Refusals -/

/-- The element at top level is the only child of the document that is one. -/
theorem WellFormed.rootElement?_eq_some_iff (h : d.WellFormed) {id : Nat} :
    d.rootElement? = some id ↔ id ∈ d.children Document.root ∧ d.isElement id := by
  constructor
  · intro hfind
    exact ⟨List.mem_of_find?_eq_some hfind, List.find?_some hfind⟩
  · rintro ⟨hmem, helement⟩
    cases hfind : d.rootElement? with
    | none => exact absurd helement (List.find?_eq_none.1 hfind id hmem)
    | some found =>
      have hle : ((d.children Document.root).filter d.isElement).length ≤ 1 := by
        rw [← List.countP_eq_length_filter]
        exact h.single
      have hfound : found ∈ (d.children Document.root).filter d.isElement :=
        List.mem_filter.2 ⟨List.mem_of_find?_eq_some hfind, List.find?_some hfind⟩
      have hid : id ∈ (d.children Document.root).filter d.isElement :=
        List.mem_filter.2 ⟨hmem, helement⟩
      obtain ⟨a, ha⟩ := List.length_eq_one_iff.1 (Nat.le_antisymm hle (List.length_pos_of_mem hid))
      rw [ha, List.mem_singleton] at hfound hid
      rw [hfound, hid]

/-- An element stands in the way of a content exactly if both are elements at top level. -/
theorem WellFormed.rival?_eq_some_iff (h : d.WellFormed) {existing : Nat} :
    d.rival? parent content = some existing ↔
      parent = Document.root ∧ content.isElement ∧
        existing ∈ d.children Document.root ∧ d.isElement existing := by
  rw [rival?]
  split
  · rename_i htop
    rw [h.rootElement?_eq_some_iff]
    exact ⟨fun hexisting => ⟨htop.1, htop.2, hexisting⟩, fun hexisting => hexisting.2.2⟩
  · rename_i htop
    constructor
    · intro hnone
      cases hnone
    · exact fun hboth => absurd ⟨hboth.1, hboth.2.1⟩ htop

/-- The parent of a node is an element. -/
theorem WellFormed.isElement_of_parent? (h : d.WellFormed) {id p : Nat}
    (hp : d.parent? id = some p) : d.isElement p :=
  isElement_of_mem_children (h.parent_lt hp).2

/-- Only the document itself has no parent. -/
theorem WellFormed.parent?_eq_none_iff (h : d.WellFormed) {id : Nat} (hid : d.contains id) :
    d.parent? id = none ↔ id = Document.root := by
  constructor
  · intro hnone
    refine Decidable.byContradiction fun hne => ?_
    obtain ⟨p, hp, -⟩ := h.parent hne (node?_isSome_iff.1 hid)
    rw [hnone] at hp
    cases hp
  · rintro rfl
    exact h.parent?_root

end Document

namespace Addition

open Document

variable {d : Document}

/-- A call whose parent is known adds its content there. -/
theorem call_of_parent? {c : Addition} {parent : Nat} (h : c.parent? d = some parent) :
    c.call.run d = (append parent c.content).run d := by
  cases c with
  | child p name attributes => cases h; rfl
  | sibling id name attributes => exact addSibling_of_parent? name attributes h
  | text p s => cases h; rfl
  | cdata p bytes => cases h; rfl

/-- **A call that is refused leaves the document as it was.** -/
theorem atomic_call (c : Addition) : c.call.Atomic := by
  cases c with
  | child parent name attributes => exact atomic_append parent _
  | sibling id name attributes => exact atomic_addSibling id name attributes
  | text parent s => exact atomic_append parent _
  | cdata parent bytes => exact atomic_append parent _

/-- What a call adds has no children. -/
theorem children_content (c : Addition) : c.content.children = [] := by
  cases c with
  | child _ name attributes => exact Element.children_ofAttributes name attributes
  | sibling _ name attributes => exact Element.children_ofAttributes name attributes
  | text _ s => rfl
  | cdata _ bytes => rfl

/-- A call that is given an unknown node is refused for that. -/
theorem call_of_unknown {c : Addition} (h : ¬ d.contains c.place) :
    c.call.run d = .error (.unknownNode c.place) d := by
  have hn : d.node? c.place = none := Option.not_isSome_iff_eq_none.1 h
  cases c with
  | child p name attributes => exact append_of_node?_eq_none hn
  | sibling id name attributes => exact addSibling_of_node?_eq_none name attributes hn
  | text p s => exact append_of_node?_eq_none hn
  | cdata p bytes => exact append_of_node?_eq_none hn

/-- A call whose node is known, but has no parent to add to, is that for a sibling of the document
    itself. -/
theorem exists_sibling_root (hwf : d.WellFormed) {c : Addition} (hknown : d.contains c.place)
    (hparent : c.parent? d = none) : ∃ name attributes, c = sibling root name attributes := by
  cases c with
  | sibling id name attributes =>
    have hid : id = root := (hwf.parent?_eq_none_iff hknown).1 hparent
    exact ⟨name, attributes, hid ▸ rfl⟩
  | _ => cases hparent

/-- The document itself has nothing beside it. -/
theorem call_sibling_root (hwf : d.WellFormed) (name : String)
    (attributes : List (String × String)) :
    (sibling root name attributes).call.run d = .error (.noParent root) d := by
  obtain ⟨e, he⟩ := hwf.root
  exact addSibling_of_parent_eq_none name attributes he rfl

/-- The node to which a call adds is known if the node that it is given is. -/
theorem contains_parent (hwf : d.WellFormed) {c : Addition} {parent : Nat}
    (hknown : d.contains c.place) (hparent : c.parent? d = some parent) : d.contains parent := by
  cases c with
  | sibling id name attributes =>
    exact node?_isSome_iff.2 (lt_nodeCount_of_isElement (hwf.isElement_of_parent? hparent))
  | _ => cases hparent; exact hknown

/-- **A call is refused exactly for the reasons to refuse it**, if the document has room; the
    document is then left as it was. -/
theorem call_eq_error_iff (hwf : d.WellFormed) (hroom : d.nodeCount < maxNodes) {c : Addition}
    {error : TreeError} {left : Document} :
    c.call.run d = .error error left ↔ c.Refused d error ∧ left = d := by
  constructor
  · intro h
    -- what is left is the document itself, so that each check speaks of the document that was given
    obtain rfl := c.atomic_call d error left h
    refine ⟨?_, rfl⟩
    by_cases hknown : left.contains c.place
    · cases hparent : c.parent? left with
      | none =>
        obtain ⟨name, attributes, rfl⟩ := exists_sibling_root hwf hknown hparent
        rw [call_sibling_root hwf] at h
        cases h
        exact .noParent
      | some parent =>
        rw [call_of_parent? hparent, append_eq_error_iff hroom] at h
        rcases h with ⟨hunknown, -⟩ | ⟨-, helement, rfl⟩ | ⟨existing, -, hrival, rfl⟩
        · exact absurd (contains_parent hwf hknown hparent) hunknown
        · exact .notAnElement hknown hparent helement
        · obtain ⟨rfl, hcontent, hchild, helement⟩ := hwf.rival?_eq_some_iff.1 hrival
          exact .multipleRootElements hknown hparent hcontent hchild helement
    · rw [call_of_unknown hknown] at h
      cases h
      exact .unknownNode hknown
  · rintro ⟨h, rfl⟩
    cases h with
    | unknownNode hunknown => exact call_of_unknown hunknown
    | noParent => exact call_sibling_root hwf _ _
    | notAnElement hknown hparent helement =>
      rw [call_of_parent? hparent, append_eq_error_iff hroom]
      exact .inr (.inl ⟨contains_parent hwf hknown hparent, helement, rfl⟩)
    | @multipleRootElements c existing hknown hparent hcontent hchild helement =>
      rw [call_of_parent? hparent, append_eq_error_iff hroom]
      exact .inr (.inr ⟨existing, hwf.isElement_root,
        hwf.rival?_eq_some_iff.2 ⟨rfl, hcontent, hchild, helement⟩, rfl⟩)

/-- A call that is not refused has a parent to add to, and adds its content there. -/
theorem addedTo_of_call (hwf : d.WellFormed) {c : Addition} {id : Nat} {next : Document}
    (h : c.call.run d = .ok id next) :
    ∃ parent, c.parent? d = some parent ∧ AddedTo d next parent id c.content := by
  by_cases hknown : d.contains c.place
  · cases hparent : c.parent? d with
    | none =>
      obtain ⟨name, attributes, rfl⟩ := exists_sibling_root hwf hknown hparent
      rw [call_sibling_root hwf] at h
      cases h
    | some parent =>
      rw [call_of_parent? hparent] at h
      obtain ⟨helement, -, -, rfl, rfl⟩ := append_eq_ok_iff.1 h
      exact ⟨parent, rfl, addedTo_insertNode helement c.children_content⟩
  · rw [call_of_unknown hknown] at h
    cases h

end Addition

namespace Document

variable {d : Document}

/-- **A call adds its node and changes nothing else, or it is refused and changes nothing.**  In a
    document that has room, it is refused exactly for the reasons to refuse it, and the document
    that it leaves behind, after whatever it has written, is the one that it was given.  Otherwise
    its content becomes the last child of the parent, under the next number, and all other nodes,
    and the label, are as they were. -/
theorem Reachable.add_cases (h : d.Reachable) (hroom : d.nodeCount < maxNodes) (c : Addition) :
    (∀ error left, c.call.run d = .error error left ↔ c.Refused d error ∧ left = d) ∧
    ∀ id next, c.call.run d = .ok id next →
      ∃ parent, c.parent? d = some parent ∧ AddedTo d next parent id c.content :=
  ⟨fun _ _ => Addition.call_eq_error_iff h.wellFormed hroom,
    fun _ _ hok => Addition.addedTo_of_call h.wellFormed hok⟩

/-- A second element at top level is refused; an element beside a text becomes the last child of
    the parent of both. -/
theorem add_cases_beside :
    let d := ((ofEncoding "utf-8").edit (.addChild 0 "a" [])).edit (.appendText 1 "t")
    let second : Addition := .child 0 "b" []
    let beside : Addition := .sibling 2 "c" [("k", "v")]
    d.Reachable ∧ d.nodeCount < maxNodes ∧
      second.Refused d (.multipleRootElements 1) ∧
      (∃ left, second.call.run d = .error (.multipleRootElements 1) left ∧ left = d) ∧
      ∃ next, beside.call.run d = .ok 3 next ∧ AddedTo d next 1 3 beside.content := by
  intro d second beside
  have hd : d.Reachable :=
    ((Reachable.ofEncoding "utf-8").edited (.addChild 0 "a" [])).edited (.appendText 1 "t")
  have hroom : d.nodeCount < maxNodes := by decide
  obtain ⟨hrefused, -⟩ := Reachable.add_cases hd hroom second
  obtain ⟨-, hadded⟩ := Reachable.add_cases hd hroom beside
  have hsecond : second.call.run d = .error (.multipleRootElements 1) d := rfl
  have hbeside : beside.call.run d = .ok 3 (d.insertNode 1 beside.content) := rfl
  obtain ⟨hreason, hsame⟩ := (hrefused _ _).1 hsecond
  obtain ⟨parent, hparent, hframe⟩ := hadded _ _ hbeside
  have hone : some 1 = some parent := hparent
  cases hone
  exact ⟨hd, hroom, hreason, ⟨_, hsecond, hsame⟩, _, hbeside, hframe⟩

end Document

end XmlQuery
