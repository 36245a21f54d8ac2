import XmlQuery.Query.Program

namespace XmlQuery.Query

/-!
# Operations that have been begun

A query is compiled from left to right.  Between two characters the compiler knows the operations
that it has emitted, and the one that it has begun.

* `Pending` — what has been begun.
* `Pending.operation` — the operation that it becomes if nothing more is added to it.
-/

/-- What a compiler has begun and not yet emitted: nothing but an idle step, a step of a path, or
    the contents of a bracket.  In a bracket a quote may be open, and the last character may have
    been a backslash that escapes the next one. -/
inductive Pending where
  | nothing
  | element (name : List Char)
  | child
  | descendant
  | wildcard
  | attributeTest (text : List Char)
  | bracket (contents : List Char) (quote : Option Char) (escaped : Bool)
  deriving DecidableEq, Repr

namespace Pending

/-- The instruction that has been begun. -/
def instruction : Pending → Instruction
  | nothing => .null
  | element _ => .element
  | child => .child
  | descendant => .descendant
  | wildcard => .wildcard
  | attributeTest _ => .attributeTest
  | bracket _ _ _ => .bracket

/-- The characters that have been collected for it. -/
def token : Pending → List Char
  | nothing => []
  | element name => name
  | child => ['/']
  | descendant => ['/', '/']
  | wildcard => []
  | attributeTest text => text
  | bracket contents _ _ => contents

/-- The operation that has been begun. -/
def operation (p : Pending) : Operation :=
  .ofText p.instruction (String.ofList p.token)

end Pending

end XmlQuery.Query
