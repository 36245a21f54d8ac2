import XmlQuery.Document
import XmlQuery.Markup.Reference
import XmlQuery.Text.Utf8

namespace XmlQuery

/-!
# Documents as ordered trees, and how they are written

Numbers apart, what a node and the nodes below it say is an ordered tree.  A tree has one way to
be written.

* `Tree` — an ordered tree of elements, texts and CDATA sections.
* `Tree.source` — the markup that writes a tree.
* `Document.tree?` — the tree of a node and the nodes below it.
* `Document.source`, `Document.nodeSource` — the markup of a document, and of one node.
-/

/-- An ordered tree of elements, texts and CDATA sections. -/
inductive Tree where
  | element (name : String) (attributes : List (String × String)) (children : List Tree)
  | text (s : String)
  | cdata (bytes : List UInt8)

namespace Tree

/-- An attribute as it stands in a start tag, with the space before it. -/
def attributeSource : String × String → List Char
  | (key, value) =>
    ' ' :: key.toList ++ '=' :: '"' :: Markup.Reference.escapeAttribute value.toList ++ ['"']

mutual

/-- The markup of a tree.  An element always has an end tag, a CDATA section is written as it
    is. -/
def source : Tree → List Char
  | element name attributes children =>
    '<' :: name.toList ++ attributes.flatMap attributeSource ++ '>' :: sourceAll children
      ++ '<' :: '/' :: name.toList ++ ['>']
  | text s => Markup.Reference.escapeText s.toList
  | cdata bytes => "<![CDATA[".toList ++ Utf8.decodeLossy bytes ++ "]]>".toList

/-- The markup of trees, one after the other. -/
def sourceAll : List Tree → List Char
  | [] => []
  | t :: ts => t.source ++ sourceAll ts

end

theorem source_element (name : String) (attributes : List (String × String))
    (children : List Tree) :
    (element name attributes children).source
      = '<' :: name.toList ++ attributes.flatMap attributeSource ++ '>' :: sourceAll children
        ++ '<' :: '/' :: name.toList ++ ['>'] := rfl

theorem source_text (s : String) : (text s).source = Markup.Reference.escapeText s.toList := rfl

theorem source_cdata (bytes : List UInt8) :
    (cdata bytes).source = "<![CDATA[".toList ++ Utf8.decodeLossy bytes ++ "]]>".toList := rfl

theorem sourceAll_nil : sourceAll [] = [] := rfl

theorem sourceAll_cons (t : Tree) (ts : List Tree) :
    sourceAll (t :: ts) = t.source ++ sourceAll ts := rfl

end Tree

namespace Document

/-- The tree of a node and the nodes below it.  Children have higher numbers than their parent. -/
def tree? (d : Document) (id : Nat) : Option Tree :=
  match _h : d.node? id with
  | none => none
  | some n =>
    match n.content with
    | .element e =>
      some (.element e.name e.attributes.entries
        (e.children.filterMap fun child => if _hc : id < child then d.tree? child else none))
    | .text s => some (.text s)
    | .cdata bytes => some (.cdata bytes)
  termination_by d.nodeCount - id
  decreasing_by
    obtain ⟨hid, -⟩ := Array.getElem?_eq_some_iff.1 _h
    simp only [nodeCount]
    omega

/-- The tree of an element has the trees of its children below it. -/
theorem tree?_of_element {d : Document} {id : Nat} {parent : Option Nat} {e : Element}
    (h : d.node? id = some ⟨parent, .element e⟩) :
    d.tree? id = some (.element e.name e.attributes.entries
      (e.children.filterMap fun child => if id < child then d.tree? child else none)) := by
  rw [tree?]
  split
  · rename_i hnone
    rw [h] at hnone
    cases hnone
  · rename_i n hn
    rw [h] at hn
    cases hn
    rfl

/-- The trees of all that stands at top level. -/
def forest (d : Document) : List Tree :=
  (d.children root).filterMap d.tree?

/-- The declaration in front of a document that is written out. -/
def declarationSource (encoding : String) : List Char :=
  "<?xml version=\"1.0\" encoding=\"".toList ++ encoding.toList ++ "\"?>".toList

/-- The markup of a document: a declaration of its encoding, and all that stands at top level. -/
def source (d : Document) : String :=
  String.ofList (declarationSource d.encoding ++ Tree.sourceAll d.forest)

/-- The markup of a node and the nodes below it; nothing for a number without a node. -/
def nodeSource (d : Document) (id : Nat) : String :=
  if id = root then d.source
  else
    match d.tree? id with
    | some t => String.ofList t.source
    | none => ""

end Document

end XmlQuery
