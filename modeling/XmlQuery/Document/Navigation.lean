import XmlQuery.Document

namespace XmlQuery.Document

/-!
# Moving about in a document

* `Walk` — the nodes that a walk down a document has still to visit.
* `descendants` — all nodes below a node, each before the nodes below it.
* `ancestors` — the nodes above a node, the nearest one first.
* `descendantsWhere`, `ancestorsWhere` — those of them that pass a test.
* `ancestorPath` — the names of the ancestors in one text.

Children have higher numbers than their parent in every document that is built by the operations
of this library; walks up and down rely on it to end.
-/

/-! ### Downwards -/

/-- The nodes that a walk has still to visit with all that is below them, the next one first. -/
structure Walk where
  pending : List Nat
  deriving DecidableEq, Repr

/-- The next node of a walk and the walk from there: the children of the node come before all that
    was pending. -/
def Walk.next? (d : Document) (w : Walk) : Option (Nat × Walk) :=
  match w.pending with
  | [] => none
  | id :: rest => some (id, ⟨d.children id ++ rest⟩)

/-- The next nodes of a walk, at most `count` of them. -/
def Walk.take (d : Document) : Nat → Walk → List Nat
  | 0, _ => []
  | count + 1, w =>
    match w.next? d with
    | none => []
    | some (id, w) => id :: take d count w

/-- All nodes below a node, each before the nodes below it.  There are fewer of them than nodes in
    the document. -/
def descendants (d : Document) (id : Nat) : List Nat :=
  Walk.take d d.nodeCount ⟨d.children id⟩

/-- Whether there is a node with a number, and it passes a test. -/
def passes (d : Document) (test : Node → Bool) (id : Nat) : Bool :=
  (d.node? id).any test

/-- The nodes below a node that pass a test. -/
def descendantsWhere (d : Document) (id : Nat) (test : Node → Bool) : List Nat :=
  (d.descendants id).filter (d.passes test)

/-- The nodes below a node that have a name. -/
def descendantsNamed (d : Document) (id : Nat) (name : String) : List Nat :=
  d.descendantsWhere id (·.name == name)

/-- How many nodes there are below a node. -/
def descendantCount (d : Document) (id : Nat) : Nat :=
  (d.descendants id).length

/-! ### Upwards -/

/-- The nodes above a node, the nearest one first. -/
def ancestors (d : Document) (id : Nat) : List Nat :=
  match d.parent? id with
  | some p => if p < id then p :: d.ancestors p else []
  | none => []
  termination_by id

/-- The nodes above a node that pass a test, the nearest one first. -/
def ancestorsWhere (d : Document) (id : Nat) (test : Node → Bool) : List Nat :=
  (d.ancestors id).filter (d.passes test)

/-- The names of the nodes above a node, the nearest one first, each with a colon behind it. -/
def ancestorPath (d : Document) (id : Nat) : String :=
  String.join ((d.ancestors id).map fun a => (d.name? a).getD "" ++ ":")

end XmlQuery.Document
