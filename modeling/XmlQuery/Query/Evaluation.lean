import XmlQuery.Document.Navigation
import XmlQuery.Query.Compile
import XmlQuery.Query.Predicate
import XmlQuery.Text.Lowercase

namespace XmlQuery.Query

/-!
# Evaluating programs

A program starts with one node.  Each operation turns the nodes that it is given, which may repeat,
into others, and keeps their order.

* `Expression.apply`, `Operation.apply` — one step.
* `run` — steps one after the other.
* `run_append` — operations after others go on from where those end.
* `evaluate` — a program from a node on.
-/

/-- The largest number of a position. -/
def lastPosition : Nat := 0xFFFFFFFFFFFFFFFF

/-- The nodes that a bracket expression selects.  Positions have to exist; an expression that is
    not known selects everything. -/
def Expression.apply (e : Expression) (d : Document) (ids : List Nat) :
    Except EvaluationError (List Nat) :=
  match e with
  | attributeCondition condition => .ok ((Predicate.parse condition).filter d ids)
  | hasChild name =>
    .ok (ids.filter fun id => (d.children id).any fun child =>
      d.isElement child && d.hasName name child)
  | index i =>
    match ids[i]? with
    | some id => .ok [id]
    | none => .error (.indexOutOfRange i (min (i + 1) lastPosition) ids.length)
  | range first last =>
    if first ≤ last ∧ last ≤ ids.length then .ok ((ids.take last).drop first)
    else .error (.indexOutOfRange first last ids.length)
  | unknown => .ok ids

/-- Whether the name of a node is a given one but for case. -/
def hasNameIgnoringCase (d : Document) (name : String) (id : Nat) : Bool :=
  (d.node? id).any fun n => Text.lower n.name == Text.lower name

/-- The nodes that an operation makes of others.  Descendants of several nodes are not
    merged. -/
def Operation.apply (op : Operation) (d : Document) (ids : List Nat) :
    Except EvaluationError (List Nat) :=
  match op.instruction with
  | .null => .ok ids
  | .attributeTest => .ok ((Predicate.parse op.parameter).filter d ids)
  | .bracket =>
    match op.expression? with
    | some e => e.apply d ids
    | none => .ok ids
  | .child => .ok (ids.flatMap fun id => (d.children id).filter d.isElement)
  | .descendant => .ok (ids.flatMap d.descendants)
  | .element => .ok (ids.filter (hasNameIgnoringCase d op.parameter))
  | .wildcard => .ok (ids.filter d.isElement)

/-- The nodes that operations make of others, one after the other. -/
def run (d : Document) : List Operation → List Nat → Except EvaluationError (List Nat)
  | [], ids => .ok ids
  | op :: ops, ids =>
    match op.apply d ids with
    | .error error => .error error
    | .ok ids => run d ops ids

/-- Operations after others go on with the nodes that those have made. -/
theorem run_append (d : Document) (ops ops' : List Operation) (ids : List Nat) :
    run d (ops ++ ops') ids
      = match run d ops ids with
        | .error error => .error error
        | .ok ids => run d ops' ids := by
  induction ops generalizing ids with
  | nil => rfl
  | cons op ops ih =>
    simp only [List.cons_append, run]
    cases op.apply d ids with
    | error error => rfl
    | ok ids => exact ih ids

/-- The nodes that a program finds from a node on. -/
def evaluate (d : Document) (start : Nat) (p : Program) : Except EvaluationError (List Nat) :=
  if d.contains start then run d p.operations [start] else .error (.unknownNode start)

end XmlQuery.Query
