import XmlQuery.Document.Node

namespace XmlQuery

/-!
# Documents

A document is a store of nodes, which are known by their numbers.  Node 0 is the document itself:
an element without a parent, whose children are what stands at top level.

* `Document` — the nodes, and the label of an encoding.
* `Document.ofEncoding` — the document that holds nothing.
* `Document.node?`, `Document.parent?`, `Document.children` — looking up a node, and its
  neighbours.
* `Document.rootElement?` — the element at top level.
-/

/-- A store of nodes, and the label of the encoding that is declared for them. -/
structure Document where
  nodes : Array Node
  encoding : String

namespace Document

/-- The number of the document itself. -/
def root : Nat := 0

/-- The document that holds nothing, with the label of an encoding. -/
def ofEncoding (encoding : String) : Document :=
  ⟨#[⟨none, .element (.ofName "#document")⟩], encoding⟩

/-- The document that holds nothing. -/
def empty : Document := ofEncoding "utf-8"

/-- The document with another label for its encoding. -/
def setEncoding (d : Document) (encoding : String) : Document :=
  { d with encoding }

/-- The number of nodes, the document itself included. -/
def nodeCount (d : Document) : Nat := d.nodes.size

/-- The node with a number. -/
def node? (d : Document) (id : Nat) : Option Node := d.nodes[id]?

/-- Whether there is a node with a number. -/
def contains (d : Document) (id : Nat) : Bool := (d.node? id).isSome

/-- The name of a node. -/
def name? (d : Document) (id : Nat) : Option String := (d.node? id).map Node.name

/-- Whether there is a node with a number, and it is an element. -/
def isElement (d : Document) (id : Nat) : Bool := (d.node? id).any Node.isElement

/-- The parent of a node. -/
def parent? (d : Document) (id : Nat) : Option Nat := (d.node? id).bind Node.parent

/-- The children of a node in order. -/
def children (d : Document) (id : Nat) : List Nat :=
  match d.node? id with
  | some n => n.children
  | none => []

/-- The first element at top level. -/
def rootElement? (d : Document) : Option Nat :=
  (d.children root).find? d.isElement

/-- Whether a node has a name. -/
def hasName (d : Document) (name : String) (id : Nat) : Bool :=
  d.name? id == some name

/-- The children of a node that have a name. -/
def childrenNamed (d : Document) (id : Nat) (name : String) : List Nat :=
  (d.children id).filter (d.hasName name)

/-- The children of a node's parent without the node. -/
def siblings (d : Document) (id : Nat) : List Nat :=
  match d.parent? id with
  | some p => (d.children p).filter (· != id)
  | none => []

end Document

end XmlQuery
