namespace XmlQuery.Log

/-!
# Log records

What the library reports about its work, for whoever listens: a message with named fields.

* `Level` — how detailed a report is.
* `Field` — the contents of a field.
* `Record` — a report.
-/

/-- How detailed a report is: single steps are traced, results are reported for debugging. -/
inductive Level where
  | trace
  | debug
  deriving DecidableEq, Repr

/-- The name of a level. -/
def Level.name : Level → String
  | trace => "trace"
  | debug => "debug"

/-- The contents of a field. -/
inductive Field where
  | text (s : String)
  | number (n : Nat)
  deriving DecidableEq, Repr

/-- A message with named fields. -/
structure Record where
  level : Level
  message : String
  fields : List (String × Field)
  deriving DecidableEq, Repr

end XmlQuery.Log
