import XmlQuery.Query.Predicate
import XmlQuery.Query.Program

namespace XmlQuery.Query

/-!
# Listings

A program written for people to read, one operation a line.

* `Operation.line` — the line of an operation.
* `Program.listing` — the lines of a program between a header and an end.
-/

/-- A predicate as a condition in a listing. -/
def Predicate.condition (p : Predicate) : String :=
  match p.test with
  | some (op, comparand) => op.mnemonic ++ " *" ++ p.key ++ ", .\"" ++ comparand ++ "\""
  | none => "HAS? *" ++ p.key

/-- A bracket expression in a listing. -/
def Expression.line : Expression → String
  | index i => "PEXP.IDX #" ++ toString i
  | range first last => "PEXP.IDXRANGE #" ++ toString first ++ ", #" ++ toString last
  | attributeCondition condition => "WHERE " ++ (Predicate.parse condition).condition
  | hasChild name => "PEXP.HASCHILD '" ++ name ++ "'"
  | unknown => "PEXP.NOP"

/-- The line of an operation. -/
def Operation.line (op : Operation) : String :=
  match op.instruction with
  | .null => "   NOOP"
  | .child => "   CHILDREN"
  | .descendant => "   DESCENDANTS"
  | .element => "      NAMED #" ++ op.parameter
  | .wildcard => "   CHLA"
  | .attributeTest => "      WHERE " ++ (Predicate.parse op.parameter).condition
  | .bracket => "  " ++ (op.expression?.getD .unknown).line

/-- The operations of a program that a listing shows: an idle one in front belongs to the
    header. -/
def Program.listed (p : Program) : List Operation :=
  match p.operations with
  | [] => []
  | op :: ops => if op.instruction = .null then ops else op :: ops

/-- The lines of a program between a header with its query and an end. -/
def Program.listing (p : Program) : String :=
  String.intercalate "\n"
    (("QUERY " ++ Text.quoted p.source) :: p.listed.map Operation.line ++ ["END"])

end XmlQuery.Query
