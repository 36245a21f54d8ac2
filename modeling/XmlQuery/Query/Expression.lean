import XmlQuery.Decimal.Digits
import XmlQuery.Query.CharClass
import XmlQuery.Text.Quoted
import XmlQuery.Text.Split

namespace XmlQuery.Query

/-!
# Bracket expressions

What stands between square brackets in a query selects by position, by child or by attribute.

* `Expression` — the kinds of selection.
* `Expression.classify` — what the contents of a bracket stand for.
* `Expression.describe` — an expression in words of its kinds.
-/

/-- What stands between square brackets.  Positions count from zero and lie below 2 ^ 64; a range
    ends before its second number. -/
inductive Expression where
  | index (i : Nat)
  | range (first last : Nat)
  | hasChild (name : String)
  | attributeCondition (condition : String)
  | unknown
  deriving DecidableEq, Repr

namespace Expression

/-- A position in a result set, written in digits. -/
def position? (digits : List Char) : Option Nat :=
  match Decimal.natural? 10 digits with
  | some n => if n < 0x10000000000000000 then some n else none
  | none => none

/-- Two positions with a colon between them. -/
def range? (contents : List Char) : Option (Nat × Nat) :=
  match Text.splitAt? ':' contents with
  | some (first, last) =>
    match position? first, position? last with
    | some first, some last => some (first, last)
    | _, _ => none
  | none => none

/-- What the contents of a bracket stand for.  The first character decides: after `@` comes a
    condition on attributes, a digit begins a position or a range, a character of names the name of
    a child, and nothing else is known. -/
def classify (contents : List Char) : Expression :=
  match contents with
  | [] => unknown
  | c :: rest =>
    if c = '@' then attributeCondition (String.ofList rest)
    else if classOf c = .digit then
      match position? contents with
      | some i => index i
      | none =>
        match range? contents with
        | some (first, last) => range first last
        | none => unknown
    else if isEntityName c then hasChild (String.ofList contents)
    else unknown

/-- An expression in words of its kinds, for reports. -/
def describe : Expression → String
  | index i => "Index(" ++ toString i ++ ")"
  | range first last => "IndexRange(" ++ toString first ++ ".." ++ toString last ++ ")"
  | hasChild name => "HasChildOfType(" ++ Text.quoted name ++ ")"
  | attributeCondition condition => "AttributeCondition(" ++ Text.quoted condition ++ ")"
  | unknown => "Unknown"

end Expression

end XmlQuery.Query
