import XmlQuery.Query.Error

namespace XmlQuery.Query

/-!
# Compiling queries

A query is read one character at a time.  What a character does depends on its class and on what
has been begun, and nothing else.

* `Pending.inBracket`, `Pending.inPath` — what a character does inside and outside of brackets.
* `Pending.next` — what a character does.
* `compile` — the program of a query.
-/

namespace Pending

/-- What has been begun after the character `c` within a bracket, and the expression if `c` closes
    it.  Blanks are left out as long as there is nothing else.  Quotes are left out too, and up to
    its end a quote keeps everything but a backslash as it is.  A backslash is kept unless it stands
    before a closing bracket or another backslash, which it keeps as they are. -/
def inBracket (contents : List Char) (quote : Option Char) (escaped : Bool) (c : Char) :
    List Operation × Pending :=
  if escaped then
    if c = ']' ∨ c = '\\' then ([], bracket (contents ++ [c]) quote false)
    else ([], bracket (contents ++ ['\\', c]) quote false)
  else if c = '\\' then ([], bracket contents quote true)
  else
    match quote with
    | some q =>
      if c = q then ([], bracket contents none false)
      else ([], bracket (contents ++ [c]) quote false)
    | none =>
      if (c = ' ' ∨ c = '\t') ∧ contents = [] then ([], bracket contents none false)
      else if c = '"' ∨ c = '\x27' then ([], bracket contents (some c) false)
      else if c = ']' then ([.ofExpression (.classify contents)], nothing)
      else ([], bracket (contents ++ [c]) none false)

/-- The operations that the character `c` completes outside of brackets, and what it begins.
    Digits that belong to no test of an attribute mean nothing. -/
def inPath (p : Pending) (c : Char) : Except CompileFault (List Operation × Pending) :=
  match classOf c with
  | .squareBracket =>
    if c = ']' then .error .closingBracket else .ok ([p.operation], bracket [] none false)
  | .comparison =>
    match p with
    | attributeTest text => .ok ([], attributeTest (text ++ [c]))
    | _ => .error .misplacedComparison
  | .digit =>
    match p with
    | attributeTest text => .ok ([], attributeTest (text ++ [c]))
    | _ => .ok ([], p)
  | .entityName =>
    match p with
    | nothing => .ok ([], element [c])
    | element name => .ok ([], element (name ++ [c]))
    | attributeTest text => .ok ([], attributeTest (text ++ [c]))
    | child | descendant => .ok ([p.operation], element [c])
    | wildcard | bracket _ _ _ => .error .nameAfterWildcard
  | .path =>
    match p with
    | child => .ok ([], descendant)
    | _ => .ok ([p.operation], child)
  | .attributeIndicator => .ok ([p.operation], attributeTest [])
  | .wildcard => .ok ([p.operation], wildcard)
  | .whitespace | .other => .error .unexpectedCharacter

/-- The operations that a character completes, and what has been begun after it. -/
def next (p : Pending) (c : Char) : Except CompileFault (List Operation × Pending) :=
  match p with
  | bracket contents quote escaped => .ok (inBracket contents quote escaped c)
  | p => p.inPath c

/-- Whether a bracket is open. -/
def isBracket : Pending → Bool
  | bracket _ _ _ => true
  | _ => false

end Pending

/-- The operations that are still to come when `index` characters of a query have been read, `p`
    has been begun, and the given characters are left. -/
def compileFrom (index : Nat) (p : Pending) : List Char → Except CompileError (List Operation)
  | [] => if p.isBracket then .error ⟨.openBracket, p, none, index⟩ else .ok [p.operation]
  | c :: cs =>
    match p.next c with
    | .error fault => .error ⟨fault, p, some c, index⟩
    | .ok (completed, p) =>
      match compileFrom (index + 1) p cs with
      | .error error => .error error
      | .ok operations => .ok (completed ++ operations)

/-- The program of a query. -/
def compile (query : String) : Except CompileError Program :=
  match compileFrom 0 .nothing query.toList with
  | .error error => .error error
  | .ok operations => .ok ⟨query, operations⟩

end XmlQuery.Query
