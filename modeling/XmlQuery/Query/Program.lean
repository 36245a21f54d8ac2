import XmlQuery.Query.Expression

namespace XmlQuery.Query

/-!
# Programs

A query is carried out as a program: operations that turn one set of nodes into the next.

* `Instruction` — what an operation does.
* `Operand` — what it does it with.
* `Program` — operations in order, with the text of their query.
-/

/-- What an operation does with a set of nodes: nothing; keep the nodes of a name; go to element
    children, or to all descendants; keep elements; keep the nodes that pass a test of attributes;
    apply a bracket expression. -/
inductive Instruction where
  | null
  | element
  | child
  | descendant
  | wildcard
  | attributeTest
  | bracket
  deriving DecidableEq, Repr

/-- The name of an instruction. -/
def Instruction.name : Instruction → String
  | null => "null"
  | element => "element"
  | child => "child"
  | descendant => "descendant"
  | wildcard => "anychild"
  | attributeTest => "attrib"
  | bracket => "px"

/-- What an operation works with: a text, or a bracket expression. -/
inductive Operand where
  | parameter (text : String)
  | expression (e : Expression)
  deriving DecidableEq, Repr

/-- One step of a program. -/
structure Operation where
  instruction : Instruction
  operand : Operand
  deriving DecidableEq, Repr

namespace Operation

/-- An operation with a text. -/
def ofText (instruction : Instruction) (text : String) : Operation :=
  ⟨instruction, .parameter text⟩

/-- The operation that applies a bracket expression. -/
def ofExpression (e : Expression) : Operation :=
  ⟨.bracket, .expression e⟩

/-- The text that an operation works with; none is the empty text. -/
def parameter (op : Operation) : String :=
  match op.operand with
  | .parameter text => text
  | .expression _ => ""

/-- The expression that an operation works with. -/
def expression? (op : Operation) : Option Expression :=
  match op.operand with
  | .parameter _ => none
  | .expression e => some e

end Operation

/-- Operations in order, with the text of the query that they carry out. -/
structure Program where
  source : String
  operations : List Operation
  deriving DecidableEq, Repr

end XmlQuery.Query
