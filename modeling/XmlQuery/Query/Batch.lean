import XmlQuery.Query.Evaluation

namespace XmlQuery.Document

/-!
# Asking documents

* `queryFrom`, `query` — the answer to a query.
* `queryEach` — the answers to several queries.
* `queryMap` — something made of each node that a query finds.
* `queryKeyed` — the answers to several queries under names, if all have one.
-/

/-- The nodes that a query finds from a node on. -/
def queryFrom (d : Document) (start : Nat) (query : String) :
    Except Query.QueryError (List Nat) :=
  match Query.compile query with
  | .error error => .error (.compile error)
  | .ok program => (Query.evaluate d start program).mapError .evaluation

/-- The nodes that a query finds in a document. -/
def query (d : Document) (query : String) : Except Query.QueryError (List Nat) :=
  d.queryFrom root query

/-- The answers to several queries in their order. -/
def queryEach (d : Document) (queries : List String) :
    List (Except Query.QueryError (List Nat)) :=
  queries.map d.query

/-- What a function makes of each node that a query finds. -/
def queryMap {α : Type} (d : Document) (query : String) (f : Nat → α) :
    Except Query.QueryError (List α) :=
  (d.query query).map (List.map f)

/-- The answers to several queries under their names, or the error of the first one that has
    no answer. -/
def queryKeyed (d : Document) :
    List (String × String) → Except Query.QueryError (List (String × List Nat))
  | [] => .ok []
  | (name, query) :: rest =>
    match d.query query with
    | .error error => .error error
    | .ok ids => (d.queryKeyed rest).map fun answers => (name, ids) :: answers

end XmlQuery.Document
