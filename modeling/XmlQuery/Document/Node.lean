import XmlQuery.OrderedMap
import XmlQuery.Text.Split
import XmlQuery.Value

namespace XmlQuery

/-!
# Nodes

A document is made of nodes, which are known by their numbers.  A node holds the numbers of its
parent and of its children.

* `Element` — a name with attributes and children.
* `Content` — an element, character data, or a CDATA section.
* `Node` — a content in its place.
-/

/-! ### Elements -/

/-- A name with attributes and children.  An attribute is kept as it was given and as a typed
    value. -/
structure Element where
  name : String
  attributes : OrderedMap String
  typedAttributes : OrderedMap Value
  children : List Nat

namespace Element

/-- An element without attributes and children. -/
def ofName (name : String) : Element :=
  ⟨name, .empty, .empty, []⟩

/-- The element with an attribute set, both as given and as a typed value. -/
def setAttribute (e : Element) (key value : String) : Element :=
  { e with
    attributes := e.attributes.insert key value
    typedAttributes := e.typedAttributes.insert key (Value.ofAttribute value) }

/-- An element with attributes set one after the other. -/
def ofAttributes (name : String) (attributes : List (String × String)) : Element :=
  attributes.foldl (fun e (key, value) => e.setAttribute key value) (ofName name)

end Element

/-! ### Contents -/

/-- The three kinds of nodes. -/
inductive Kind where
  | element
  | text
  | cdata
  deriving DecidableEq, Repr

/-- The name of a kind. -/
def Kind.name : Kind → String
  | element => "element"
  | text => "text"
  | cdata => "cdata"

/-- What a node holds: an element, character data, or the bytes of a CDATA section. -/
inductive Content where
  | element (e : Element)
  | text (s : String)
  | cdata (bytes : List UInt8)

namespace Content

/-- The kind of a content. -/
def kind : Content → Kind
  | element _ => .element
  | text _ => .text
  | cdata _ => .cdata

/-- The name of an element, and a name of its kind for anything else. -/
def name : Content → String
  | element e => e.name
  | text _ => "#text"
  | cdata _ => "#cdata"

/-- The element, if the content is one. -/
def element? : Content → Option Element
  | element e => some e
  | _ => none

/-- Whether the content is an element. -/
def isElement (c : Content) : Bool :=
  c.element?.isSome

/-- The children of an element; nothing else has any. -/
def children : Content → List Nat
  | element e => e.children
  | _ => []

/-- The content with a child added behind the others, if it is an element. -/
def addChild (c : Content) (id : Nat) : Content :=
  match c with
  | element e => .element { e with children := e.children ++ [id] }
  | text s => .text s
  | cdata bytes => .cdata bytes

end Content

/-! ### Nodes -/

/-- A content in its place.  Only the document itself has no parent. -/
structure Node where
  parent : Option Nat
  content : Content

namespace Node

/-- The kind of a node. -/
def kind (n : Node) : Kind := n.content.kind

/-- The name of a node. -/
def name (n : Node) : String := n.content.name

/-- Whether a node is an element. -/
def isElement (n : Node) : Bool := n.content.isElement

/-- The children of a node in order. -/
def children (n : Node) : List Nat := n.content.children

/-- The parts of a name before and after its first colon. -/
def splitName? (n : Node) : Option (String × String) :=
  (Text.splitAt? ':' n.name.toList).map fun (before, after) =>
    (String.ofList before, String.ofList after)

/-- The part of a name before its first colon, which stands for a namespace. -/
def namespacePart? (n : Node) : Option String :=
  n.splitName?.map Prod.fst

/-- A name without the part up to its first colon. -/
def localName (n : Node) : String :=
  match n.splitName? with
  | some (_, name) => name
  | none => n.name

/-- The attribute of an element as it was given. -/
def attribute? (n : Node) (key : String) : Option String :=
  n.content.element?.bind fun e => e.attributes.get? key

/-- The attribute of an element as a typed value. -/
def typedAttribute? (n : Node) (key : String) : Option Value :=
  n.content.element?.bind fun e => e.typedAttributes.get? key

/-- Whether a node is an element with attributes. -/
def hasAttributes (n : Node) : Bool :=
  n.content.element?.any fun e => !e.attributes.isEmpty

end Node

end XmlQuery
