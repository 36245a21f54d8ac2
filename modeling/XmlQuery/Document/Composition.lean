import XmlQuery.Document
import XmlQuery.Document.Error

namespace XmlQuery.Document

/-!
# Composing documents

A document grows by nodes that become the last child of an element.  A call that adds one is made
of steps: the first ones look at the document and may refuse the call, the last two write to it.
What was written before a call is refused would stay written.

* `Composing` — what is done to a document step by step.
* `append` — adds a content below an element.
* `addChild`, `addSibling`, `appendText`, `appendCdata` — the same for elements below or beside a
  node, and for character data and CDATA sections.
* `after` — the document that a call leaves behind, also if it is refused.
* `insertNode` — what the two writes make of a document.
* `nodeCount_insertNode`, `node?_insertNode` — what a growing document has under each number.
-/

/-- The number of nodes that a document can hold, which is 2 ^ 32. -/
def maxNodes : Nat := 0x100000000

/-! ### Steps -/

/-- What is done to a document step by step: it ends with a result or with an error, and with the
    document as it is then in both cases. -/
abbrev Composing := EStateM TreeError Document

/-- The document that a call leaves behind, whether it was refused or not. -/
def after {α : Type} (d : Document) (call : Composing α) : Document :=
  match call.run d with
  | .ok _ next => next
  | .error _ left => left

/-- The new document of a call, or why it was refused, for those who go on only with what a call
    has done. -/
instance {α : Type} :
    Coe (EStateM.Result TreeError Document α) (Except TreeError (α × Document)) where
  coe
    | .ok a next => .ok (a, next)
    | .error error _ => .error error

/-- The node with a number, which has to be there. -/
def known (id : Nat) : Composing Node := do
  match (← get).node? id with
  | some n => return n
  | none => throw (.unknownNode id)

/-- Refuses a call unless a condition holds. -/
def require (condition : Bool) (error : TreeError) : Composing Unit :=
  if condition then return else throw error

/-- The element that keeps a content from being added below `parent`: the document holds at most
    one element at top level. -/
def rival? (d : Document) (parent : Nat) (content : Content) : Option Nat :=
  if parent = root ∧ content.isElement then d.rootElement? else none

/-- Refuses a call if an element stands in its way. -/
def requireNoRival (parent : Nat) (content : Content) : Composing Unit := do
  match (← get).rival? parent content with
  | some existing => throw (.multipleRootElements existing)
  | none => return

/-- The number of the next node, for which there has to be room. -/
def nextNumber : Composing Nat := do
  let count := (← get).nodeCount
  if count < maxNodes then return count else throw .tooManyNodes

/-- The document with a number put behind the children of an element. -/
def link (d : Document) (parent id : Nat) : Document :=
  { d with
    nodes := d.nodes.modify parent fun n => { n with content := n.content.addChild id } }

/-- The document with a node recorded under the next number. -/
def store (d : Document) (n : Node) : Document :=
  { d with nodes := d.nodes.push n }

/-! ### Calls -/

/-- Adds a content without children as the last child of an element.  The child list of the element
    is written before the node that it tells of. -/
def append (parent : Nat) (content : Content) : Composing Nat := do
  let target ← known parent
  require target.isElement (.notAnElement parent)
  requireNoRival parent content
  let id ← nextNumber
  modify (link · parent id)
  modify (store · ⟨some parent, content⟩)
  return id

/-- Adds an element as the last child of `parent`. -/
def addChild (parent : Nat) (name : String) (attributes : List (String × String)) :
    Composing Nat :=
  append parent (.element (.ofAttributes name attributes))

/-- Adds an element as the last child of the parent of `id`. -/
def addSibling (id : Nat) (name : String) (attributes : List (String × String)) :
    Composing Nat := do
  let n ← known id
  match n.parent with
  | none => throw (.noParent id)
  | some parent => addChild parent name attributes

/-- Adds character data as the last child of `parent`. -/
def appendText (parent : Nat) (text : String) : Composing Nat :=
  append parent (.text text)

/-- Adds a CDATA section as the last child of `parent`. -/
def appendCdata (parent : Nat) (bytes : List UInt8) : Composing Nat :=
  append parent (.cdata bytes)

/-! ### What is written -/

/-- The document with a content added as the last child of `parent`, below which it is recorded
    under the next number. -/
def insertNode (d : Document) (parent : Nat) (content : Content) : Document :=
  (d.link parent d.nodeCount).store ⟨some parent, content⟩

/-- A content that is recorded adds one node. -/
theorem nodeCount_insertNode (d : Document) (parent : Nat) (content : Content) :
    (d.insertNode parent content).nodeCount = d.nodeCount + 1 := by
  simp [insertNode, link, store, nodeCount]

/-- A content is recorded under the next number, its parent has it behind its other children, and
    every other node is as it was. -/
theorem node?_insertNode (d : Document) (parent : Nat) (content : Content) (id : Nat) :
    (d.insertNode parent content).node? id
      = if id = d.nodeCount then some ⟨some parent, content⟩
        else if id = parent then
          (d.node? id).map fun n => { n with content := n.content.addChild d.nodeCount }
        else d.node? id := by
  simp only [node?, insertNode, link, store, nodeCount, Array.getElem?_push, Array.size_modify,
    Array.getElem?_modify]
  by_cases hnew : id = d.nodes.size
  · simp [hnew]
  · by_cases hid : parent = id
    · simp [hnew, hid]
    · simp [hnew, hid, Ne.symm hid]

end XmlQuery.Document
