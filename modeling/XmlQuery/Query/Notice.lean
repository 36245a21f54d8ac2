import XmlQuery.Log
import XmlQuery.Query.Evaluation

namespace XmlQuery.Query

/-!
# Reports about queries

* `Notice` — what is reported while a query is compiled, evaluated and kept.
* `Pending.notices` — what a character makes the compiler report.
* `compileNotices` — what is reported while a query is compiled.
* `evaluateNotices` — what is reported while a program is evaluated.
-/

/-- What is reported about a query. -/
inductive Notice where
  | emitted (op : Operation)
  | compiled (query : String) (size : Nat)
  | rejected (query : String) (error : CompileError)
  | stepped (op : Operation) (before after : Nat)
  | unknownExpression
  | evaluated (query : String) (results : Nat)
  | cacheHit (query : String)
  | cacheMiss (query : String)
  deriving DecidableEq, Repr

/-- A report about a query as a log record. -/
def Notice.record : Notice → Log.Record
  | emitted op =>
    let operand :=
      match op.operand with
      | .parameter text => ("parameter", .text text)
      | .expression e => ("expression", .text e.describe)
    ⟨.trace, "emit", [("instruction", .text op.instruction.name), operand]⟩
  | compiled query size =>
    ⟨.debug, "compiled query", [("query", .text query), ("ops", .number size)]⟩
  | rejected query error =>
    ⟨.debug, "query failed to compile", [("query", .text query), ("error", .text error.message)]⟩
  | stepped op before after =>
    ⟨.trace, "step",
      [("instruction", .text op.instruction.name), ("parameter", .text op.parameter),
        ("before", .number before), ("after", .number after)]⟩
  | unknownExpression => ⟨.debug, "unrecognised path expression ignored", []⟩
  | evaluated query results =>
    ⟨.debug, "evaluated query", [("query", .text query), ("results", .number results)]⟩
  | cacheHit query => ⟨.trace, "query cache hit", [("query", .text query)]⟩
  | cacheMiss query => ⟨.trace, "query cache miss", [("query", .text query)]⟩

/-! ### Compiling -/

namespace Pending

/-- The report when what has been begun is emitted with the characters that were collected
    for it. -/
def flushNotice (p : Pending) : Notice :=
  .emitted ⟨p.instruction, .parameter (String.ofList p.token)⟩

/-- The report when a bracket is closed. -/
def closeNotice (contents : List Char) : Notice :=
  .emitted ⟨.bracket, .expression (.classify contents)⟩

/-- What the character `c` makes the compiler report within a bracket: only one that closes it is
    reported, which an escaped or a quoted one does not. -/
def bracketNotices (contents : List Char) (quote : Option Char) (escaped : Bool) (c : Char) :
    List Notice :=
  if escaped = false ∧ quote = none ∧ c = ']' then [closeNotice contents] else []

/-- What the character `c` makes the compiler report outside of brackets.  A name behind a step to
    children or descendants ends that step, and a second slash goes on with the first one. -/
def pathNotices (p : Pending) (c : Char) : List Notice :=
  match classOf c with
  | .squareBracket => if c = ']' then [] else [p.flushNotice]
  | .entityName =>
    match p with
    | child | descendant => [p.flushNotice]
    | _ => []
  | .path =>
    match p with
    | child => []
    | _ => [p.flushNotice]
  | .attributeIndicator | .wildcard => [p.flushNotice]
  | .comparison | .digit | .whitespace | .other => []

/-- What a character makes the compiler report. -/
def notices (p : Pending) (c : Char) : List Notice :=
  match p with
  | bracket contents quote escaped => bracketNotices contents quote escaped c
  | p => p.pathNotices c

end Pending

/-- What is reported while the given characters are compiled after `p` has been begun.  There is no
    report of what has been begun when a fault is met. -/
def noticesFrom (p : Pending) : List Char → List Notice
  | [] => if p.isBracket then [] else [p.flushNotice]
  | c :: cs =>
    p.notices c ++
      match p.next c with
      | .error _ => []
      | .ok (_, p) => noticesFrom p cs

/-- What is reported while a query is compiled: each operation that is emitted, and how it
    ended. -/
def compileNotices (query : String) : List Notice :=
  noticesFrom .nothing query.toList ++
    match compile query with
    | .ok program => [.compiled query program.operations.length]
    | .error error => [.rejected query error]

/-! ### Evaluating -/

/-- What is reported about an operation before it is done: an expression that is not known. -/
def Operation.remarks (op : Operation) : List Notice :=
  if op.instruction = .bracket ∧ op.expression? = some .unknown then [.unknownExpression] else []

/-- What is reported while operations are done one after the other: each one that succeeds, and the
    result. -/
def runNotices (d : Document) (query : String) : List Operation → List Nat → List Notice
  | [], ids => [.evaluated query ids.length]
  | op :: ops, ids =>
    op.remarks ++
      match op.apply d ids with
      | .error _ => []
      | .ok next => .stepped op ids.length next.length :: runNotices d query ops next

/-- What is reported while a program is evaluated from a node on. -/
def evaluateNotices (d : Document) (start : Nat) (p : Program) : List Notice :=
  if d.contains start then runNotices d p.source p.operations [start] else []

end XmlQuery.Query
