import XmlQuery.Document.Node
import XmlQuery.Markup.Error

namespace XmlQuery

/-!
# What can be wrong with a document

* `TreeError` — why a node cannot be added to a document.
* `ParseError` — why a byte string is not a document.
* `TreeError.message`, `ParseError.message` — the same in words.
-/

/-- Why a node cannot be added to a document. -/
inductive TreeError where
  | unknownNode (id : Nat)
  | notAnElement (id : Nat)
  | noParent (id : Nat)
  | multipleRootElements (existing : Nat)
  | tooManyNodes
  deriving DecidableEq, Repr

/-- A tree error in words. -/
def TreeError.message : TreeError → String
  | unknownNode id => "node " ++ toString id ++ " does not exist in this document"
  | notAnElement id => "node " ++ toString id ++ " is not an element and cannot hold children"
  | noParent id => "node " ++ toString id ++ " has no parent"
  | multipleRootElements existing => "document already has root element " ++ toString existing
  | tooManyNodes => "document holds the maximum number of nodes"

/-- Why a byte string is not a document: it is not made of tags and texts, the tags do not nest,
    or the nodes do not fit. -/
inductive ParseError where
  | scan (error : Markup.ScanError)
  | unexpectedEndTag (name : String)
  | mismatchedEndTag (expected found : String)
  | unclosedElement (name : String)
  | multipleRootElements (name : String)
  | tooManyNodes
  | tree (error : TreeError)
  deriving DecidableEq, Repr

/-- A parse error in words. -/
def ParseError.message : ParseError → String
  | scan error => error.message
  | unexpectedEndTag name => "end tag </" ++ name ++ "> has no matching start tag"
  | mismatchedEndTag expected found =>
    "end tag </" ++ found ++ "> does not close <" ++ expected ++ ">"
  | unclosedElement name => "element <" ++ name ++ "> is never closed"
  | multipleRootElements name => "element <" ++ name ++ "> follows the root element at top level"
  | tooManyNodes => TreeError.tooManyNodes.message
  | tree error => error.message

end XmlQuery
