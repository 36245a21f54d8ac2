import XmlQuery.Query.Pending

namespace XmlQuery.Query

/-!
# What can be wrong with a query

* `CompileError` — why a text is no query, and where.
* `EvaluationError` — why a query has no result.
* `QueryError` — either of them.
-/

/-! ### Compile errors -/

/-- Why a text is no query. -/
inductive CompileFault where
  | closingBracket
  | misplacedComparison
  | nameAfterWildcard
  | unexpectedCharacter
  | openBracket
  deriving DecidableEq, Repr

/-- A fault in words. -/
def CompileFault.message : CompileFault → String
  | closingBracket => "closing bracket without an opening bracket"
  | misplacedComparison => "comparison outside of an attribute predicate"
  | nameAfterWildcard => "name character after a wildcard"
  | unexpectedCharacter => "unexpected character"
  | openBracket => "query ended inside a bracket expression"

/-- The two kinds of compile errors: a character that does not fit, and a query that ends too
    early. -/
inductive CompileErrorKind where
  | unexpectedToken
  | incompleteExpression
  deriving DecidableEq, Repr

/-- The name of a kind of compile errors. -/
def CompileErrorKind.name : CompileErrorKind → String
  | unexpectedToken => "UnexpectedToken"
  | incompleteExpression => "IncompleteExpression"

/-- Why a text is no query, with what the compiler had begun by then: the offending character, or
    none at the end of the query, and how many characters come before it. -/
structure CompileError where
  fault : CompileFault
  pending : Pending
  character : Option Char
  index : Nat
  deriving DecidableEq, Repr

namespace CompileError

/-- The kind of a compile error. -/
def kind (e : CompileError) : CompileErrorKind :=
  match e.fault with
  | .openBracket => .incompleteExpression
  | _ => .unexpectedToken

/-- The class of the offending character. -/
def charClass (e : CompileError) : CharClass :=
  match e.character with
  | some c => classOf c
  | none => .other

/-- The place of the offending character, counted from one. -/
def position (e : CompileError) : Nat := e.index + 1

/-- A compile error in words. -/
def message (e : CompileError) : String :=
  "query error (" ++ e.kind.name ++ ") at character " ++ toString e.position ++ ": "
    ++ e.fault.message ++ " while assembling a " ++ e.pending.instruction.name ++ " instruction"

end CompileError

/-! ### Evaluation errors -/

/-- Why a query has no result: it asks for positions that its result set does not have, or begins
    at a node that does not exist. -/
inductive EvaluationError where
  | indexOutOfRange (first last size : Nat)
  | unknownNode (id : Nat)
  deriving DecidableEq, Repr

/-- An evaluation error in words. -/
def EvaluationError.message : EvaluationError → String
  | indexOutOfRange first last size =>
    "index " ++ toString first ++ ".." ++ toString last
      ++ " is out of range for a result set of " ++ toString size ++ " nodes"
  | unknownNode id => "node " ++ toString id ++ " does not exist in this document"

/-- Why a query cannot be answered. -/
inductive QueryError where
  | compile (error : CompileError)
  | evaluation (error : EvaluationError)
  deriving DecidableEq, Repr

end XmlQuery.Query
